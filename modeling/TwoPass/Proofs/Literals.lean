/-
Number literals as a grammar. The reader of literals tries 64 bits first and knows signs, marks and digits only one at a
time; here is the language that it accepts, and the integer that each literal denotes.

- `number?_eq_some_iff`: the reader accepts the literals of the grammar and no other text, with their exact value
- `value_eq_ok_iff`: a value token is the name of a label or, if no label has that name, a literal
- `canonical_decimalInt`: integers are written as canonical numerals, whatever their size
-/
import Mathlib.Tactic
import TwoPass.Assembly.Program
import TwoPass.Proofs.Numerals

namespace TwoPass

/-! ## Digits -/

def Radix.base : Radix → Nat
  | .decimal => 10
  | .hex => 16

/-- `[0-9]` and `[0-9A-Fa-f]` -/
def Radix.digits : Radix → Text
  | .decimal => ascii "0123456789"
  | .hex => ascii "0123456789ABCDEFabcdef"

/-- the value of a digit is its place among the digits; letters count on from ten in either case -/
def digitValue (b : UInt8) : Nat :=
  if b ∈ ascii "abcdef" then (ascii "abcdef").idxOf b + 10 else (ascii "0123456789ABCDEF").idxOf b

/-- the number that digits stand for, the most significant first -/
def placeValue (r : Radix) (digits : Text) : Nat := digits.foldl (fun n b => n * r.base + digitValue b) 0

structure IsDigits (r : Radix) (t : Text) : Prop where
  ne_nil : t ≠ []
  digits : ∀ b ∈ t, b ∈ r.digits

theorem digitOf?_base (r : Radix) (b : UInt8) :
    digitOf? r.base b = if b ∈ r.digits then some (digitValue b) else none := by
  have hall : ∀ n < 256, digitOf? r.base (UInt8.ofNat n) =
      if UInt8.ofNat n ∈ r.digits then some (digitValue (UInt8.ofNat n)) else none := by
    cases r <;> decide +kernel
  simpa using hall b.toNat b.toNat_lt

theorem readDigit?_base (r : Radix) (n : Nat) (b : UInt8) :
    readDigit? r.base n b = if b ∈ r.digits then some (n * r.base + digitValue b) else none := by
  rw [readDigit?, digitOf?_base]
  split
  · rfl
  · rfl

theorem foldlM_readDigit?_eq_some_iff (r : Radix) (t : Text) (n v : Nat) :
    t.foldlM (readDigit? r.base) n = some v ↔
      (∀ b ∈ t, b ∈ r.digits) ∧ t.foldl (fun n b => n * r.base + digitValue b) n = v := by
  induction t generalizing n with
  | nil => simp
  | cons b t ih =>
    rw [List.foldlM_cons, readDigit?_base]
    by_cases hb : b ∈ r.digits
    · simp [hb, ih]
    · simp [hb]

theorem readDigits?_eq_some_iff {r : Radix} {t : Text} {n : Nat} :
    readDigits? r.base t = some n ↔ IsDigits r t ∧ placeValue r t = n := by
  cases t with
  | nil =>
    constructor
    · intro h
      cases h
    · rintro ⟨⟨hne, _⟩, _⟩
      exact absurd rfl hne
  | cons b t =>
    rw [readDigits?_eq_foldlM (List.cons_ne_nil b t), foldlM_readDigit?_eq_some_iff]
    constructor
    · rintro ⟨hall, hvalue⟩
      exact ⟨⟨List.cons_ne_nil b t, hall⟩, hvalue⟩
    · rintro ⟨⟨_, hall⟩, hvalue⟩
      exact ⟨hall, hvalue⟩

theorem IsDigits.allDigits {r : Radix} {t : Text} (h : IsDigits r t) : AllDigits t := by
  intro b hb
  have hread := digitOf?_base r b
  rw [if_pos (h.digits b hb), digitOf?] at hread
  obtain ⟨hdigit, _⟩ := Option.filter_eq_some_iff.1 hread
  simp [hdigit]

/-! ## Literals -/

/-- number literals and the integers that they denote: `[+-]?[0-9]+` and `0[xX][0-9A-Fa-f]+` -/
inductive Literal : Text → Int → Prop where
  | unsigned {digits : Text} (h : IsDigits .decimal digits) : Literal digits (placeValue .decimal digits)
  | plus {digits : Text} (h : IsDigits .decimal digits) : Literal (byte '+' :: digits) (placeValue .decimal digits)
  | minus {digits : Text} (h : IsDigits .decimal digits) : Literal (byte '-' :: digits) (-placeValue .decimal digits)
  | hex {mark : UInt8} {digits : Text} (hmark : mark ∈ ascii "xX") (h : IsDigits .hex digits) :
      Literal (byte '0' :: mark :: digits) (placeValue .hex digits)

theorem hasHexMark_iff {t : Text} :
    hasHexMark t = true ↔ ∃ mark digits, mark ∈ ascii "xX" ∧ t = byte '0' :: mark :: digits := by
  have hmarks : ascii "xX" = [byte 'x', byte 'X'] := rfl
  have hlower : ascii "0x" = [byte '0', byte 'x'] := rfl
  have hupper : ascii "0X" = [byte '0', byte 'X'] := rfl
  rcases t with _ | ⟨b, _ | ⟨mark, digits⟩⟩
  · simp [hasHexMark, hlower, hupper]
  · simp [hasHexMark, hlower, hupper]
  · simp [hasHexMark, hmarks, hlower, hupper]

theorem hasSign_iff {t : Text} : hasSign t = true ↔ ∃ sign digits, sign ∈ ascii "+-" ∧ t = sign :: digits := by
  have hsigns : ascii "+-" = [byte '+', byte '-'] := rfl
  cases t with
  | nil => simp [hasSign]
  | cons b t => simp [hasSign, hsigns]

theorem not_hasHexMark_of_sign {sign : UInt8} (hsign : sign ∈ ascii "+-") (digits : Text) :
    hasHexMark (sign :: digits) = false := by
  rw [Bool.eq_false_iff]
  intro hmark
  obtain ⟨_, _, _, heq⟩ := hasHexMark_iff.1 hmark
  obtain rfl : sign = byte '0' := (List.cons.inj heq).1
  exact absurd hsign (by decide)

theorem readInteger?_eq_some_iff {r : Radix} {t : Text} {v : Int} :
    readInteger? r.base t = some v ↔ IsDigits r (dropSign t) ∧ withSign t (placeValue r (dropSign t)) = v := by
  rw [readInteger?, Option.map_eq_some_iff]
  constructor
  · rintro ⟨n, hn, hv⟩
    obtain ⟨hdigits, rfl⟩ := readDigits?_eq_some_iff.1 hn
    exact ⟨hdigits, hv⟩
  · rintro ⟨hdigits, hv⟩
    exact ⟨_, readDigits?_eq_some_iff.2 ⟨hdigits, rfl⟩, hv⟩

theorem readInteger?_of_not_hasSign {r : Radix} {t : Text} {v : Int} (hsign : hasSign t = false) :
    readInteger? r.base t = some v ↔ IsDigits r t ∧ (placeValue r t : Int) = v := by
  have hdrop : dropSign t = t := by simp [dropSign, hsign]
  have hminus : (t.head? == some (byte '-')) = false := (Bool.or_eq_false_iff.1 hsign).2
  rw [readInteger?_eq_some_iff, hdrop, withSign, hminus]
  rfl

theorem number?_of_hexMark {mark : UInt8} {digits : Text} (hmark : mark ∈ ascii "xX") :
    number? (byte '0' :: mark :: digits) = if hasSign digits then none else readInteger? Radix.hex.base digits := by
  have hhex : hasHexMark (byte '0' :: mark :: digits) = true := hasHexMark_iff.2 ⟨mark, digits, hmark, rfl⟩
  rw [number?_eq, numeralOf, radixOf, hhex]
  rfl

theorem number?_of_not_hexMark {t : Text} (h : hasHexMark t = false) :
    number? t = readInteger? Radix.decimal.base t := by
  rw [number?_eq, numeralOf, radixOf, h]
  rfl

theorem number?_of_literal {t : Text} {v : Int} (h : Literal t v) : number? t = some v := by
  cases h with
  | unsigned h =>
    rw [number?_of_not_hexMark h.allDigits.not_hasHexMark]
    exact (readInteger?_of_not_hasSign h.allDigits.not_hasSign).2 ⟨h, rfl⟩
  | plus h =>
    rw [number?_of_not_hexMark (not_hasHexMark_of_sign (by decide) _)]
    exact readInteger?_eq_some_iff.2 ⟨h, rfl⟩
  | minus h =>
    rw [number?_of_not_hexMark (not_hasHexMark_of_sign (by decide) _)]
    exact readInteger?_eq_some_iff.2 ⟨h, rfl⟩
  | hex hmark h =>
    rw [number?_of_hexMark hmark, h.allDigits.not_hasSign]
    exact (readInteger?_of_not_hasSign h.allDigits.not_hasSign).2 ⟨h, rfl⟩

theorem literal_of_readInteger? {t : Text} {v : Int} (h : readInteger? Radix.decimal.base t = some v) :
    Literal t v := by
  cases hsign : hasSign t with
  | false =>
    obtain ⟨hdigits, rfl⟩ := (readInteger?_of_not_hasSign hsign).1 h
    exact .unsigned hdigits
  | true =>
    obtain ⟨hdigits, rfl⟩ := readInteger?_eq_some_iff.1 h
    obtain ⟨sign, digits, hmem, rfl⟩ := hasSign_iff.1 hsign
    have hdrop : dropSign (sign :: digits) = digits := by simp [dropSign, hsign]
    rw [hdrop] at hdigits ⊢
    have hsigns : sign = byte '+' ∨ sign = byte '-' := by simpa [ascii] using hmem
    rcases hsigns with rfl | rfl
    · exact .plus hdigits
    · exact .minus hdigits

/-- **The reader accepts exactly the literals**, each with the integer that it denotes -/
theorem number?_eq_some_iff {t : Text} {v : Int} : number? t = some v ↔ Literal t v := by
  refine ⟨fun h => ?_, number?_of_literal⟩
  cases hhex : hasHexMark t with
  | false =>
    rw [number?_of_not_hexMark hhex] at h
    exact literal_of_readInteger? h
  | true =>
    obtain ⟨mark, digits, hmark, rfl⟩ := hasHexMark_iff.1 hhex
    rw [number?_of_hexMark hmark] at h
    -- a sign behind the mark is refused, so the digits are all that there is
    cases hsign : hasSign digits with
    | true => simp [hsign] at h
    | false =>
      rw [hsign, if_neg Bool.false_ne_true] at h
      obtain ⟨hdigits, rfl⟩ := (readInteger?_of_not_hasSign hsign).1 h
      exact .hex hmark hdigits

theorem number?_eq_none_iff {t : Text} : number? t = none ↔ ∀ v, ¬ Literal t v := by
  rw [Option.eq_none_iff_forall_ne_some]
  exact forall_congr' fun v => not_congr number?_eq_some_iff

/-! ## Values -/

/-- what a value token stands for: the address of the label with this name or, if there is none, the number of the
literal -/
inductive Resolves (labels : LabelTable) (t : Text) : Int → Prop where
  | label {address : Nat} (h : labels.address? t = some address) : Resolves labels t address
  | literal {v : Int} (hnone : labels.address? t = none) (h : Literal t v) : Resolves labels t v

theorem value_eq_ok_iff {labels : LabelTable} {t : Text} {v : Int} : value labels t = .ok v ↔ Resolves labels t v := by
  unfold value
  cases haddress : labels.address? t with
  | some address =>
    constructor
    · intro h
      cases h
      exact .label haddress
    · rintro (⟨h⟩ | ⟨hnone, _⟩)
      · rw [haddress] at h
        cases h
        rfl
      · rw [haddress] at hnone
        cases hnone
  | none =>
    cases hnumber : number? t with
    | some n =>
      constructor
      · intro h
        cases h
        exact .literal haddress (number?_eq_some_iff.1 hnumber)
      · rintro (⟨h⟩ | ⟨_, h⟩)
        · rw [haddress] at h
          cases h
        · rw [number?_of_literal h] at hnumber
          cases hnumber
          rfl
    | none =>
      constructor
      · intro h
        cases h
      · rintro (⟨h⟩ | ⟨_, h⟩)
        · rw [haddress] at h
          cases h
        · exact absurd h (number?_eq_none_iff.1 hnumber _)

/-! ## Canonical numerals -/

/-- the decimal numerals without superfluous characters: no leading zero but in `0` itself, and a sign only where the
number is negative -/
inductive Canonical : Text → Int → Prop where
  | zero : Canonical (ascii "0") 0
  | positive {digits : Text} (h : IsDigits .decimal digits) (hlead : digits.head? ≠ some (byte '0')) :
      Canonical digits (placeValue .decimal digits)
  | negative {digits : Text} (h : IsDigits .decimal digits) (hlead : digits.head? ≠ some (byte '0')) :
      Canonical (byte '-' :: digits) (-placeValue .decimal digits)

theorem head?_toDigits_ne {n : Nat} (hn : 0 < n) : (Nat.toDigits 10 n).head? ≠ some '0' := by
  induction n using Nat.strongRecOn with
  | ind n ih =>
    rw [Nat.toDigits_eq_if (by decide)]
    split_ifs with hlt
    · have hdigits : ∀ d < 10, 0 < d → [Nat.digitChar d].head? ≠ some '0' := by decide
      exact hdigits n hlt hn
    · rw [List.head?_append_of_ne_nil _ Nat.toDigits_ne_nil]
      exact ih (n / 10) (Nat.div_lt_self hn (by decide)) (by omega)

theorem head?_decimal_ne {n : Nat} (hn : 0 < n) : (Text.decimal n).head? ≠ some (byte '0') := by
  rw [Text.decimal, List.head?_map]
  intro h
  obtain ⟨c, hc, hbyte⟩ := Option.map_eq_some_iff.1 h
  obtain ⟨d, hd, rfl⟩ := exists_digit_of_mem_toDigits (by decide) (List.mem_of_head? hc)
  -- among the digits only `0` is written as the byte of `0`
  have hzero : ∀ d < 10, byte (Nat.digitChar d) = byte '0' → Nat.digitChar d = '0' := by decide
  rw [hzero d hd hbyte] at hc
  exact head?_toDigits_ne hn hc

theorem isDigits_decimal (n : Nat) : IsDigits .decimal (Text.decimal n) ∧ placeValue .decimal (Text.decimal n) = n :=
  readDigits?_eq_some_iff.1 (readDigits?_decimal n)

/-- **Integers are written canonically**: the numeral denotes the integer and has nothing superfluous -/
theorem canonical_decimalInt (v : Int) : Canonical (Text.decimalInt v) v := by
  cases v with
  | ofNat n =>
    cases n with
    | zero => exact .zero
    | succ n =>
      obtain ⟨hdigits, hvalue⟩ := isDigits_decimal (n + 1)
      have h := Canonical.positive hdigits (head?_decimal_ne (Nat.succ_pos n))
      rwa [hvalue] at h
  | negSucc n =>
    obtain ⟨hdigits, hvalue⟩ := isDigits_decimal (n + 1)
    have h := Canonical.negative hdigits (head?_decimal_ne (Nat.succ_pos n))
    rwa [hvalue] at h

end TwoPass
