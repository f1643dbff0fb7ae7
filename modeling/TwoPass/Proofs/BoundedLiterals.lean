/-
Literals through 64 bits. The reader of literals first reads into 64 bits, where it stops at whatever is wrong first: a
byte that is no digit, or a number that has become too great. Only then does it read exactly. A byte that is no digit
behind too great a number is therefore seen by the exact reader alone.

- `Reads64`: what the reader of 64 bits answers, told by the digits
- `readInt64_eq_iff`: the reader of 64 bits follows `Reads64`
- `readInt64_eq_ok_iff`: it answers with the exact integer, and does so for every integer of 64 bits
- `literals_read_exactly`: whichever way is taken, the literals are accepted with their exact value, and nothing else is
-/
import Mathlib.Tactic
import TwoPass.Proofs.Literals

namespace TwoPass

/-! ## Digits read so far -/

/-- the number that digits stand for behind others that stand for `n` -/
def valueFrom (r : Radix) (n : Nat) (digits : Text) : Nat := digits.foldl (fun n b => n * r.base + digitValue b) n

theorem valueFrom_zero (r : Radix) (digits : Text) : valueFrom r 0 digits = placeValue r digits := rfl

theorem valueFrom_append (r : Radix) (n : Nat) (front rest : Text) :
    valueFrom r n (front ++ rest) = valueFrom r (valueFrom r n front) rest :=
  List.foldl_append

/-- more digits never make a number smaller -/
theorem le_valueFrom (r : Radix) (n : Nat) (digits : Text) : n ≤ valueFrom r n digits := by
  induction digits generalizing n with
  | nil => exact le_rfl
  | cons b digits ih =>
    have hbase : 0 < r.base := by cases r <;> decide
    calc n ≤ n * r.base := Nat.le_mul_of_pos_right n hbase
      _ ≤ n * r.base + digitValue b := Nat.le_add_right _ _
      _ ≤ valueFrom r n (b :: digits) := ih _

theorem placeValue_le_append (r : Radix) (front rest : Text) : placeValue r front ≤ placeValue r (front ++ rest) := by
  rw [← valueFrom_zero r (front ++ rest), valueFrom_append]
  exact le_valueFrom r _ rest

/-! ## The reader of 64 bits -/

/-- what reading into 64 bits without a sign answers, behind digits that stand for `n` -/
inductive ReadsUnsigned (r : Radix) (n : Nat) (t : Text) : Except NumeralError Nat → Prop where
  | fits (hdigits : ∀ b ∈ t, b ∈ r.digits) (hfits : valueFrom r n t < 2 ^ 64) :
      ReadsUnsigned r n t (.ok (valueFrom r n t))
  | stray {front rest : Text} {b : UInt8} (ht : t = front ++ b :: rest) (hdigits : ∀ c ∈ front, c ∈ r.digits)
      (hstray : b ∉ r.digits) (hfits : valueFrom r n front < 2 ^ 64) : ReadsUnsigned r n t (.error .malformed)
  | overflow {front rest : Text} (ht : t = front ++ rest) (hdigits : ∀ c ∈ front, c ∈ r.digits)
      (hwide : 2 ^ 64 ≤ valueFrom r n front) : ReadsUnsigned r n t (.error .outOfRange)

/-- one more digit in front changes nothing about how the reading ends -/
theorem ReadsUnsigned.cons {r : Radix} {n : Nat} {t : Text} {b : UInt8} {result : Except NumeralError Nat}
    (hb : b ∈ r.digits) (h : ReadsUnsigned r (n * r.base + digitValue b) t result) :
    ReadsUnsigned r n (b :: t) result := by
  have hcons : ∀ front : Text, (∀ c ∈ front, c ∈ r.digits) → ∀ c ∈ b :: front, c ∈ r.digits :=
    fun front hfront => List.forall_mem_cons.2 ⟨hb, hfront⟩
  cases h with
  | fits hdigits hfits => exact .fits (hcons t hdigits) hfits
  | @stray front rest c ht hdigits hstray hfits =>
    have ht' : b :: t = (b :: front) ++ c :: rest := congrArg (b :: ·) ht
    exact .stray ht' (hcons front hdigits) hstray hfits
  | @overflow front rest ht hdigits hwide =>
    have ht' : b :: t = (b :: front) ++ rest := congrArg (b :: ·) ht
    exact .overflow ht' (hcons front hdigits) hwide

theorem readsUnsigned_readUInt64 (r : Radix) {n : Nat} (hn : n < 2 ^ 64) (t : Text) :
    ReadsUnsigned r n t (readUInt64 r.base n t) := by
  induction t generalizing n with
  | nil => exact .fits (by simp) hn
  | cons b t ih =>
    rw [readUInt64, readDigit?_base]
    by_cases hb : b ∈ r.digits
    · simp only [hb, if_true]
      split
      · rename_i hfits
        exact (ih hfits).cons hb
      · rename_i hwide
        have ht : b :: t = [b] ++ t := rfl
        exact .overflow ht (by simpa using hb) (Nat.le_of_not_lt hwide)
    · simp only [hb, if_false]
      have ht : b :: t = [] ++ b :: t := rfl
      exact .stray ht (by simp) hb hn

/-- what reading into 64 bits answers, told by the digits behind the sign: the first thing wrong decides, and what comes
behind it is not looked at -/
inductive Reads64 (r : Radix) (t : Text) : Except NumeralError Int → Prop where
  | fits {v : Int} (hdigits : IsDigits r (dropSign t)) (hvalue : withSign t (placeValue r (dropSign t)) = v)
      (hfits : -2 ^ 63 ≤ v ∧ v < 2 ^ 63) : Reads64 r t (.ok v)
  | empty (ht : dropSign t = []) : Reads64 r t (.error .malformed)
  | stray {front rest : Text} {b : UInt8} (ht : dropSign t = front ++ b :: rest) (hdigits : ∀ c ∈ front, c ∈ r.digits)
      (hstray : b ∉ r.digits) (hfits : placeValue r front < 2 ^ 64) : Reads64 r t (.error .malformed)
  | overflow {front rest : Text} (ht : dropSign t = front ++ rest) (hdigits : ∀ c ∈ front, c ∈ r.digits)
      (hwide : 2 ^ 64 ≤ placeValue r front) : Reads64 r t (.error .outOfRange)
  | wide {v : Int} (hdigits : IsDigits r (dropSign t)) (hvalue : withSign t (placeValue r (dropSign t)) = v)
      (hwide : ¬ (-2 ^ 63 ≤ v ∧ v < 2 ^ 63)) : Reads64 r t (.error .outOfRange)

theorem fitsInt64_iff (v : Int) : fitsInt64 v = true ↔ -2 ^ 63 ≤ v ∧ v < 2 ^ 63 := by
  simp [fitsInt64]

theorem reads64_readInt64 (r : Radix) (t : Text) : Reads64 r t (readInt64 r.base t) := by
  unfold readInt64
  by_cases hempty : dropSign t = []
  · rw [hempty]
    exact .empty hempty
  · have hne : (dropSign t).isEmpty = false := by simpa using hempty
    have hreads := readsUnsigned_readUInt64 r (n := 0) (by decide) (dropSign t)
    rw [hne, if_neg Bool.false_ne_true]
    generalize readUInt64 r.base 0 (dropSign t) = result at hreads
    cases hreads with
    | fits hdigits _ =>
      cases hfits : fitsInt64 (withSign t (placeValue r (dropSign t))) with
      | true =>
        simp only [valueFrom_zero, hfits, if_true]
        exact .fits ⟨hempty, hdigits⟩ rfl ((fitsInt64_iff _).1 hfits)
      | false =>
        simp only [valueFrom_zero, hfits, Bool.false_eq_true, if_false]
        exact .wide ⟨hempty, hdigits⟩ rfl (by rw [← fitsInt64_iff, hfits]; exact Bool.false_ne_true)
    | stray ht hdigits hstray hfits => exact .stray ht hdigits hstray hfits
    | overflow ht hdigits hwide => exact .overflow ht hdigits hwide

/-! ## One answer -/

/-- digits in front of a text lie before the first byte of it that is no digit -/
theorem isPrefix_of_stray {r : Radix} {front rest digits more : Text} {b : UInt8}
    (h : digits ++ more = front ++ b :: rest) (hdigits : ∀ c ∈ digits, c ∈ r.digits) (hb : b ∉ r.digits) :
    digits <+: front := by
  have hfront : front ++ [b] <+: digits ++ more := ⟨rest, by rw [h]; simp⟩
  rcases List.prefix_or_prefix_of_prefix (List.prefix_append digits more) hfront with hpart | hpart
  · rcases List.prefix_concat_iff.1 hpart with rfl | hpart
    · exact absurd (hdigits b (by simp)) hb
    · exact hpart
  · exact absurd (hdigits b (hpart.subset (by simp))) hb

namespace Reads64

variable {r : Radix} {t : Text} {v : Int} {result : Except NumeralError Int}

theorem not_malformed_of_digits (h : IsDigits r (dropSign t)) : ¬ Reads64 r t (.error .malformed) := by
  intro hmalformed
  cases hmalformed with
  | empty ht => exact h.ne_nil ht
  | stray ht _ hstray _ => exact hstray (h.digits _ (by simp [ht]))

/-- digits that go too far in front of a whole number of 64 bits: there are none, since the whole is no smaller -/
theorem placeValue_front_lt {front rest : Text} (ht : dropSign t = front ++ rest)
    (hvalue : withSign t (placeValue r (dropSign t)) = v) (hfits : -2 ^ 63 ≤ v ∧ v < 2 ^ 63) :
    placeValue r front < 2 ^ 64 := by
  have hle := placeValue_le_append r front rest
  rw [← ht] at hle
  have hsmall : placeValue r (dropSign t) ≤ 2 ^ 63 := by
    unfold withSign at hvalue
    split_ifs at hvalue <;> omega
  omega

theorem eq_of_ok (h : Reads64 r t (.ok v)) (h' : Reads64 r t result) : result = .ok v := by
  cases h with
  | fits hdigits hvalue hfits =>
    cases h' with
    | fits _ hvalue' _ => rw [← hvalue, ← hvalue']
    | empty ht => exact absurd (empty ht) (not_malformed_of_digits hdigits)
    | stray ht hfront hstray hsmall => exact absurd (stray ht hfront hstray hsmall) (not_malformed_of_digits hdigits)
    | overflow ht _ hwide => exact absurd hwide (Nat.not_le_of_lt (placeValue_front_lt ht hvalue hfits))
    | wide _ hvalue' hwide => exact absurd (hvalue'.symm.trans hvalue ▸ hfits) hwide

theorem eq_of_malformed (h : Reads64 r t (.error .malformed)) (h' : Reads64 r t result) :
    result = .error .malformed := by
  cases h' with
  | fits hdigits _ _ => exact absurd h (not_malformed_of_digits hdigits)
  | empty _ => rfl
  | stray _ _ _ _ => rfl
  | wide hdigits _ _ => exact absurd h (not_malformed_of_digits hdigits)
  | @overflow front _ ht hdigits hwide =>
    cases h with
    | empty hempty =>
      obtain ⟨rfl, _⟩ := List.append_eq_nil_iff.1 (ht.symm.trans hempty)
      exact absurd hwide (by simp [placeValue])
    | stray ht' _ hstray hfits =>
      obtain ⟨more, rfl⟩ := isPrefix_of_stray (ht.symm.trans ht') hdigits hstray
      exact absurd (hwide.trans (placeValue_le_append r front more)) (Nat.not_le_of_lt hfits)

/-- a text has one reading -/
theorem unique {answer : Except NumeralError Int} (h : Reads64 r t answer) (h' : Reads64 r t result) :
    answer = result := by
  rcases answer with (_ | _) | v
  · exact (h.eq_of_malformed h').symm
  · rcases result with (_ | _) | v'
    · exact h'.eq_of_malformed h
    · rfl
    · exact h'.eq_of_ok h
  · exact (h.eq_of_ok h').symm

end Reads64

/-- **The reader of 64 bits stops at the first thing wrong** -/
theorem readInt64_eq_iff {r : Radix} {t : Text} {result : Except NumeralError Int} :
    readInt64 r.base t = result ↔ Reads64 r t result := by
  constructor
  · rintro rfl
    exact reads64_readInt64 r t
  · exact (reads64_readInt64 r t).unique

/-- **The reader of 64 bits is exact**: it answers with the integer of the digits, and does so for every integer of 64
bits -/
theorem readInt64_eq_ok_iff {r : Radix} {t : Text} {v : Int} :
    readInt64 r.base t = .ok v ↔ readInteger? r.base t = some v ∧ -2 ^ 63 ≤ v ∧ v < 2 ^ 63 := by
  rw [readInt64_eq_iff, readInteger?_eq_some_iff]
  constructor
  · rintro ⟨hdigits, hvalue, hfits⟩
    exact ⟨⟨hdigits, hvalue⟩, hfits⟩
  · rintro ⟨⟨hdigits, hvalue⟩, hfits⟩
    exact .fits hdigits hvalue hfits

/-- what it calls malformed, the exact reader refuses too -/
theorem readInteger?_of_malformed {r : Radix} {t : Text} (h : readInt64 r.base t = .error .malformed) :
    readInteger? r.base t = none := by
  rw [Option.eq_none_iff_forall_ne_some]
  intro v hv
  exact Reads64.not_malformed_of_digits (readInteger?_eq_some_iff.1 hv).1 (readInt64_eq_iff.1 h)

/-! ## Both ways -/

/-- the reader of literals with all that it answers: nothing or a sign behind the mark of hexadecimals is refused at
once, digits go through 64 bits, and only those that do not fit there are read exactly; a refusal names the radix -/
def readNumber (t : Text) : Except Cause Int :=
  if hasHexMark t && ((numeralOf t).1.isEmpty || hasSign (numeralOf t).1) then .error (.invalidNumber (radixOf t) t)
  else match readInt64 (numeralOf t).2 (numeralOf t).1 with
    | .ok v => .ok v
    | .error .malformed => .error (.invalidNumber (radixOf t) t)
    | .error .outOfRange =>
      match readInteger? (numeralOf t).2 (numeralOf t).1 with
      | some v => .ok v
      | none => .error (.invalidNumber (radixOf t) t)

theorem base_numeralOf (t : Text) : (numeralOf t).2 = (radixOf t).base := by
  unfold numeralOf
  cases radixOf t <;> rfl

theorem digits_numeralOf_of_hexMark {t : Text} (h : hasHexMark t = true) : (numeralOf t).1 = t.drop 2 := by
  simp [numeralOf, radixOf, h]

theorem radixOf_eq_hex_iff (t : Text) : radixOf t = .hex ↔ ascii "0x" <+: t ∨ ascii "0X" <+: t := by
  have hmark : hasHexMark t = true ↔ ascii "0x" <+: t ∨ ascii "0X" <+: t := by
    rw [List.prefix_iff_eq_take, List.prefix_iff_eq_take, @eq_comm _ (ascii "0x"), @eq_comm _ (ascii "0X"), hasHexMark,
      Bool.or_eq_true, beq_iff_eq, beq_iff_eq]
    rfl
  rw [← hmark, radixOf]
  cases hasHexMark t <;> simp

/-- digits that are missing or have a sign behind the mark denote nothing -/
theorem number?_of_refused {t : Text}
    (h : (hasHexMark t && ((numeralOf t).1.isEmpty || hasSign (numeralOf t).1)) = true) : number? t = none := by
  rw [Bool.and_eq_true, Bool.or_eq_true] at h
  obtain ⟨hmark, hempty | hsign⟩ := h
  · rw [number?_eq, List.isEmpty_iff.1 hempty]
    split <;> rfl
  · rw [digits_numeralOf_of_hexMark hmark] at hsign
    rw [number?_eq, hmark, hsign]
    rfl

/-- **The two ways and the reader of literals**: what is read is the number of the literal, or the refusal -/
theorem readNumber_eq (t : Text) : readNumber t = (number? t).elim (.error (.invalidNumber (radixOf t) t)) .ok := by
  unfold readNumber
  split_ifs with hrefused
  · rw [number?_of_refused hrefused]
    rfl
  · have hsign : ¬ (hasHexMark t && hasSign (t.drop 2)) = true := by
      intro h
      obtain ⟨hmark, hsign⟩ := (Bool.and_eq_true _ _).mp h
      rw [digits_numeralOf_of_hexMark hmark, hmark, hsign, Bool.or_true] at hrefused
      exact hrefused rfl
    rw [number?, if_neg hsign, readNumeral?]
    rcases readInt64 (numeralOf t).2 (numeralOf t).1 with (_ | _) | v
    · rfl
    · cases readInteger? (numeralOf t).2 (numeralOf t).1 <;> rfl
    · rfl

theorem readNumber_eq_ok_iff {t : Text} {v : Int} : readNumber t = .ok v ↔ Literal t v := by
  rw [readNumber_eq, ← number?_eq_some_iff]
  cases number? t <;> simp

theorem readNumber_eq_error_iff {t : Text} {cause : Cause} :
    readNumber t = .error cause ↔ (∀ v, ¬ Literal t v) ∧ cause = .invalidNumber (radixOf t) t := by
  rw [readNumber_eq, ← number?_eq_none_iff]
  cases number? t <;> simp [eq_comm]

/-- a token that is no label is read as a literal; a refusal is overruled where the token could be a name -/
theorem value_of_readNumber {labels : LabelTable} {t : Text} (h : labels.address? t = none) :
    value labels t = (readNumber t).mapError fun cause => if isName t then .undefinedLabel t else cause := by
  rw [value, h, readNumber_eq]
  cases number? t <;> rfl

/-- **Literals are read exactly, whichever way is taken.** The reader accepts the literals of the grammar, each with the
integer that it denotes and whatever its length, and refuses every other text with an error that names the radix of its
mark. The way through 64 bits answers just where the integer is one of 64 bits, with the integer that exact reading
gives; it calls malformed only what exact reading refuses as well, and gives up at the digit that makes the number too
great, whatever comes behind. The second pass reads value operands that are no labels in this way. -/
theorem literals_read_exactly (t : Text) :
    (∀ v, readNumber t = .ok v ↔ Literal t v) ∧
    (∀ cause, readNumber t = .error cause ↔ (∀ v, ¬ Literal t v) ∧
      ∃ radix, cause = .invalidNumber radix t ∧ (radix = .hex ↔ ascii "0x" <+: t ∨ ascii "0X" <+: t)) ∧
    (∀ v, readInt64 (numeralOf t).2 (numeralOf t).1 = .ok v ↔
      readInteger? (numeralOf t).2 (numeralOf t).1 = some v ∧ -2 ^ 63 ≤ v ∧ v < 2 ^ 63) ∧
    (readInt64 (numeralOf t).2 (numeralOf t).1 = .error .malformed →
      readInteger? (numeralOf t).2 (numeralOf t).1 = none) ∧
    (∀ result, readInt64 (numeralOf t).2 (numeralOf t).1 = result ↔ Reads64 (radixOf t) (numeralOf t).1 result) ∧
    number? t = (readNumber t).toOption ∧
    ∀ labels : LabelTable, labels.address? t = none →
      value labels t = (readNumber t).mapError fun cause => if isName t then .undefinedLabel t else cause := by
  rw [base_numeralOf]
  refine ⟨fun v => readNumber_eq_ok_iff, fun cause => ?_, fun v => readInt64_eq_ok_iff, readInteger?_of_malformed,
    fun result => readInt64_eq_iff, ?_, fun labels => value_of_readNumber⟩
  · rw [readNumber_eq_error_iff]
    refine and_congr_right fun _ => ?_
    constructor
    · rintro rfl
      exact ⟨radixOf t, rfl, radixOf_eq_hex_iff t⟩
    · rintro ⟨radix, rfl, hradix⟩
      -- there are two radices, so the mark settles which one it is
      have hsame : radix = .hex ↔ radixOf t = .hex := hradix.trans (radixOf_eq_hex_iff t).symm
      cases radix <;> cases hradixOf : radixOf t <;> simp_all
  · rw [readNumber_eq]
    cases number? t <;> rfl

/-- too great a number, and a letter behind it that the reader of 64 bits never comes to -/
example : readInt64 10 (ascii "99999999999999999999x") = .error .outOfRange ∧
    readNumber (ascii "99999999999999999999x") = .error (.invalidNumber .decimal (ascii "99999999999999999999x")) := by
  decide

end TwoPass
