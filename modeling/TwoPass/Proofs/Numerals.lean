/-
Numerals that were written are read back. A numeral goes through 64 bits where it fits and is read exactly where it does
not; both ways give the same number.

- `readNumeral?_eq_readInteger?`: reading in 64 bits first makes no difference
- `readDigits?_decimal`, `readDigits?_hexPadded`: the digits of a number have its value
- `number?_decimal`, `number?_hex`: the literals of the disassembler
-/
import Mathlib.Tactic
import TwoPass.Assembly.Literal

namespace TwoPass

/-! ## Two ways to read -/

theorem readDigits?_eq_foldlM {base : Nat} {t : Text} (h : t ≠ []) :
    readDigits? base t = t.foldlM (readDigit? base) 0 := by
  cases t with
  | nil => exact absurd rfl h
  | cons b t => rfl

/-- digits read into 64 bits: a number that fits is the exact one, and a stray character is one for both readers -/
theorem readUInt64_spec (base n : Nat) (t : Text) :
    match readUInt64 base n t with
    | .ok m => t.foldlM (readDigit? base) n = some m
    | .error .malformed => t.foldlM (readDigit? base) n = none
    | .error .outOfRange => True := by
  induction t generalizing n with
  | nil => rfl
  | cons b rest ih =>
    rw [readUInt64, List.foldlM_cons]
    cases hdigit : readDigit? base n b with
    | none => rfl
    | some m =>
      by_cases hfits : m < 18446744073709551616
      · simpa [hfits] using ih m
      · simp [hfits]

/-- **Both ways agree**: reading in 64 bits and falling back on exact reading is exact reading -/
theorem readNumeral?_eq_readInteger? (base : Nat) (t : Text) : readNumeral? base t = readInteger? base t := by
  unfold readNumeral? readInt64 readInteger?
  by_cases hempty : dropSign t = []
  · simp [hempty, readDigits?]
  · have hspec := readUInt64_spec base 0 (dropSign t)
    have hne : (dropSign t).isEmpty = false := by simpa using hempty
    rw [hne, readDigits?_eq_foldlM hempty]
    cases hread : readUInt64 base 0 (dropSign t) with
    | ok n =>
      rw [hread] at hspec
      cases hfits : fitsInt64 (withSign t n) <;> simp [hspec, hfits]
    | error e =>
      rw [hread] at hspec
      cases e with
      | malformed => simp [hspec]
      | outOfRange => rfl

theorem number?_eq (t : Text) :
    number? t = if hasHexMark t && hasSign (t.drop 2) then none else readInteger? (numeralOf t).2 (numeralOf t).1 := by
  rw [number?, readNumeral?_eq_readInteger?]

/-! ## Digits -/

/-- the characters of a numeral are digits of its base -/
theorem exists_digit_of_mem_toDigits {base n : Nat} {c : Char} (hbase : 1 < base) (h : c ∈ Nat.toDigits base n) :
    ∃ d, d < base ∧ c = Nat.digitChar d := by
  induction n using Nat.strongRecOn with
  | ind n ih =>
    rw [Nat.toDigits_eq_if hbase] at h
    split_ifs at h with hlt
    · exact ⟨n, hlt, by simpa using h⟩
    · rcases List.mem_append.1 h with h | h
      · exact ih (n / base) (Nat.div_lt_self (by omega) hbase) h
      · exact ⟨n % base, Nat.mod_lt n (by omega), by simpa using h⟩

/-- digits that each have the right value make up the number -/
theorem foldlM_readDigit?_toDigits {base : Nat} (hbase : 1 < base) (write : Char → UInt8)
    (hwrite : ∀ d, d < base → digit? (write (Nat.digitChar d)) = some d) (n : Nat) :
    ((Nat.toDigits base n).map write).foldlM (readDigit? base) 0 = some n := by
  have hread : ∀ v d, d < base → readDigit? base v (write (Nat.digitChar d)) = some (v * base + d) := by
    intro v d hd
    simp [readDigit?, digitOf?, hwrite d hd, Option.filter, hd]
  induction n using Nat.strongRecOn with
  | ind n ih =>
    rw [Nat.toDigits_eq_if hbase]
    split_ifs with hlt
    · simp [hread 0 n hlt]
    · have hhigh := ih (n / base) (Nat.div_lt_self (by omega) hbase)
      have hlow := hread (n / base) (n % base) (Nat.mod_lt n (by omega))
      rw [List.map_append, List.foldlM_append, hhigh]
      simp [hlow, Nat.div_add_mod']

theorem digit?_digitChar : ∀ d, d < 16 → digit? (byte (Nat.digitChar d)) = some d := by decide

theorem digit?_digitChar_toUpper : ∀ d, d < 16 → digit? (byte (Nat.digitChar d).toUpper) = some d := by decide

theorem decimal_ne_nil (n : Nat) : Text.decimal n ≠ [] := by
  simp [Text.decimal, Nat.toDigits_ne_nil]

theorem hex_ne_nil (n : Nat) : Text.hex n ≠ [] := by
  simp [Text.hex, Nat.toDigits_ne_nil]

theorem hexPadded_ne_nil (width n : Nat) : Text.hexPadded width n ≠ [] := by
  simp [Text.hexPadded, Text.padLeft, hex_ne_nil]

theorem readDigits?_decimal (n : Nat) : readDigits? 10 (Text.decimal n) = some n := by
  rw [readDigits?_eq_foldlM (decimal_ne_nil n), Text.decimal]
  exact foldlM_readDigit?_toDigits (by decide) byte (fun d hd => digit?_digitChar d (by omega)) n

/-- leading zeros do not count -/
theorem foldlM_readDigit?_zeros (base k : Nat) (hbase : 0 < base) :
    (List.replicate k (byte '0')).foldlM (readDigit? base) 0 = some 0 := by
  have hzero : readDigit? base 0 (byte '0') = some 0 := by
    have hdigit : digit? (byte '0') = some 0 := rfl
    simp [readDigit?, digitOf?, hdigit, Option.filter, hbase]
  induction k with
  | zero => rfl
  | succ k ih => rw [List.replicate_succ, List.foldlM_cons, hzero]; exact ih

theorem readDigits?_hexPadded (width n : Nat) : readDigits? 16 (Text.hexPadded width n) = some n := by
  rw [readDigits?_eq_foldlM (hexPadded_ne_nil width n), Text.hexPadded, Text.padLeft, List.foldlM_append,
    foldlM_readDigit?_zeros 16 _ (by decide)]
  exact foldlM_readDigit?_toDigits (by decide) (fun c => byte c.toUpper) digit?_digitChar_toUpper n

/-! ## Literals -/

theorem mem_decimal {n : Nat} {b : UInt8} (h : b ∈ Text.decimal n) : ∃ d, d < 10 ∧ b = byte (Nat.digitChar d) := by
  obtain ⟨c, hc, rfl⟩ := List.mem_map.1 h
  obtain ⟨d, hd, rfl⟩ := exists_digit_of_mem_toDigits (by decide) hc
  exact ⟨d, hd, rfl⟩

theorem mem_hexPadded {width n : Nat} {b : UInt8} (h : b ∈ Text.hexPadded width n) :
    ∃ d, d < 16 ∧ b = byte (Nat.digitChar d).toUpper := by
  rcases List.mem_append.1 h with h | h
  · exact ⟨0, by decide, (List.mem_replicate.1 h).2⟩
  · obtain ⟨c, hc, rfl⟩ := List.mem_map.1 h
    obtain ⟨d, hd, rfl⟩ := exists_digit_of_mem_toDigits (by decide) hc
    exact ⟨d, hd, rfl⟩

theorem not_mem_hexPadded {b : UInt8} (hb : ∀ d < 16, byte (Nat.digitChar d).toUpper ≠ b) (width n : Nat) :
    b ∉ Text.hexPadded width n := by
  intro h
  obtain ⟨d, hd, rfl⟩ := mem_hexPadded h
  exact hb d hd rfl

/-- a text of digits only -/
def AllDigits (t : Text) : Prop := ∀ b ∈ t, (digit? b).isSome

theorem allDigits_decimal (n : Nat) : AllDigits (Text.decimal n) := by
  intro b hb
  obtain ⟨d, hd, rfl⟩ := mem_decimal hb
  simp [digit?_digitChar d (by omega)]

theorem allDigits_hexPadded (width n : Nat) : AllDigits (Text.hexPadded width n) := by
  intro b hb
  obtain ⟨d, hd, rfl⟩ := mem_hexPadded hb
  simp [digit?_digitChar_toUpper d hd]

/-- digits begin neither with a sign nor with the mark of hexadecimals -/
theorem AllDigits.not_hasSign {t : Text} (h : AllDigits t) : hasSign t = false := by
  cases t with
  | nil => rfl
  | cons b t =>
    have hb := h b List.mem_cons_self
    simp only [hasSign, List.head?_cons, Bool.or_eq_false_iff, beq_eq_false_iff_ne, ne_eq, Option.some.injEq]
    constructor
    · rintro rfl; exact absurd hb (by decide)
    · rintro rfl; exact absurd hb (by decide)

theorem AllDigits.not_hasHexMark {t : Text} (h : AllDigits t) : hasHexMark t = false := by
  have hmark : ∀ mark : Text, (∃ b ∈ mark, (digit? b).isNone) → t.take 2 ≠ mark := by
    rintro mark ⟨b, hb, hnone⟩ rfl
    have hsome := h b (List.mem_of_mem_take hb)
    simp_all
  have hlower := hmark (ascii "0x") ⟨byte 'x', by decide, by decide⟩
  have hupper := hmark (ascii "0X") ⟨byte 'X', by decide, by decide⟩
  simp [hasHexMark, hlower, hupper]

theorem AllDigits.readInteger? {t : Text} (h : AllDigits t) (base : Nat) :
    TwoPass.readInteger? base t = (readDigits? base t).map Int.ofNat := by
  have hsign := h.not_hasSign
  have hminus : (t.head? == some (byte '-')) = false := (Bool.or_eq_false_iff.1 hsign).2
  have hwith : withSign t = Int.ofNat := by
    funext n
    simp [withSign, hminus]
  rw [TwoPass.readInteger?, dropSign, hsign, hwith]
  rfl

/-- a number in decimal -/
theorem number?_decimal (n : Nat) : number? (Text.decimal n) = some (n : Int) := by
  have hdigits := allDigits_decimal n
  have hradix : numeralOf (Text.decimal n) = (Text.decimal n, 10) := by
    simp [numeralOf, radixOf, hdigits.not_hasHexMark]
  rw [number?_eq, hdigits.not_hasHexMark, hradix, Bool.false_and, if_neg Bool.false_ne_true, hdigits.readInteger?,
    readDigits?_decimal]
  rfl

/-- a number in hexadecimal, after its mark -/
theorem number?_hex (width n : Nat) : number? (ascii "0x" ++ Text.hexPadded width n) = some (n : Int) := by
  have hdigits := allDigits_hexPadded width n
  have hmark : hasHexMark (ascii "0x" ++ Text.hexPadded width n) = true := by
    simp [hasHexMark, show ascii "0x" = [byte '0', byte 'x'] from rfl]
  have hdrop : (ascii "0x" ++ Text.hexPadded width n).drop 2 = Text.hexPadded width n := rfl
  have hradix : numeralOf (ascii "0x" ++ Text.hexPadded width n) = (Text.hexPadded width n, 16) := by
    simp [numeralOf, radixOf, hmark, hdrop]
  rw [number?_eq, hdrop, hdigits.not_hasSign, hradix, Bool.and_false, if_neg Bool.false_ne_true,
    hdigits.readInteger?, readDigits?_hexPadded]
  rfl

end TwoPass
