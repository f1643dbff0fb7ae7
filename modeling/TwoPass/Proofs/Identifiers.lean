/-
Identifiers as a grammar. The test for names looks at the runes of a text; here are the characters behind the runes, in
UTF-8, and the identifiers spelled with them.

- `Encodes.head`, `Rune.encodes_of_head`: a rune has a code point exactly if its bytes stand in the table of UTF-8
- `runes_flatMap_utf8EncodeChar`, `exists_chars_of_runes`: texts without stray bytes are the encodings of characters
- `isName_iff`: a text passes the test for names exactly if it spells an identifier
-/
import Mathlib.Data.Set.List
import Mathlib.Tactic
import TwoPass.Assembly.Literal
import TwoPass.Proofs.Runes

namespace TwoPass

/-! ## The table of UTF-8 -/

/-- the bytes that encode a code point, as the table of UTF-8 gives them -/
inductive Encodes : Nat → Text → Prop where
  | one {n : Nat} {a : UInt8} (hn : n < 0x80) (ha : a.toNat = n) : Encodes n [a]
  | two {n : Nat} {a b : UInt8} (hlow : 0x80 ≤ n) (hhigh : n < 0x800) (ha : a.toNat = n / 64 + 0xC0)
      (hb : b.toNat = n % 64 + 0x80) : Encodes n [a, b]
  | three {n : Nat} {a b c : UInt8} (hlow : 0x800 ≤ n) (hhigh : n < 0x10000) (hscalar : isScalar n = true)
      (ha : a.toNat = n / 4096 + 0xE0) (hb : b.toNat = n / 64 % 64 + 0x80) (hc : c.toNat = n % 64 + 0x80) :
      Encodes n [a, b, c]
  | four {n : Nat} {a b c d : UInt8} (hlow : 0x10000 ≤ n) (hscalar : isScalar n = true)
      (ha : a.toNat = n / 262144 + 0xF0) (hb : b.toNat = n / 4096 % 64 + 0x80) (hc : c.toNat = n / 64 % 64 + 0x80)
      (hd : d.toNat = n % 64 + 0x80) : Encodes n [a, b, c, d]

theorem isScalar_iff {n : Nat} : isScalar n = true ↔ n < 0xD800 ∨ 0xDFFF < n ∧ n < 0x110000 := by
  simp [isScalar]
  omega

theorem isContinuation_iff {b : UInt8} : isContinuation b = true ↔ 0x80 ≤ b.toNat ∧ b.toNat < 0xC0 := by
  simp [isContinuation, UInt8.le_iff_toNat_le, UInt8.lt_iff_toNat_lt]

theorem code2?_eq_some_iff {a b : UInt8} {n : Nat} :
    code2? a b = some n ↔ isContinuation b = true ∧ 0x80 ≤ n ∧ n = a.toNat % 32 * 64 + b.toNat % 64 := by
  simp only [code2?, continuationBits, Option.ite_none_right_eq_some, Bool.and_eq_true, Option.some.injEq]
  constructor
  · rintro ⟨⟨hb, hn⟩, rfl⟩
    exact ⟨hb, of_decide_eq_true hn, rfl⟩
  · rintro ⟨hb, hn, rfl⟩
    exact ⟨⟨hb, decide_eq_true hn⟩, rfl⟩

theorem code3?_eq_some_iff {a b c : UInt8} {n : Nat} :
    code3? a b c = some n ↔ isContinuation b = true ∧ isContinuation c = true ∧ 0x800 ≤ n ∧ isScalar n = true ∧
      n = (a.toNat % 16 * 64 + b.toNat % 64) * 64 + c.toNat % 64 := by
  simp only [code3?, continuationBits, Option.ite_none_right_eq_some, Bool.and_eq_true, Option.some.injEq]
  constructor
  · rintro ⟨⟨⟨⟨hb, hc⟩, hn⟩, hscalar⟩, rfl⟩
    exact ⟨hb, hc, of_decide_eq_true hn, hscalar, rfl⟩
  · rintro ⟨hb, hc, hn, hscalar, rfl⟩
    exact ⟨⟨⟨⟨hb, hc⟩, decide_eq_true hn⟩, hscalar⟩, rfl⟩

theorem code4?_eq_some_iff {a b c d : UInt8} {n : Nat} :
    code4? a b c d = some n ↔ isContinuation b = true ∧ isContinuation c = true ∧ isContinuation d = true ∧
      0x10000 ≤ n ∧ isScalar n = true ∧
      n = ((a.toNat % 8 * 64 + b.toNat % 64) * 64 + c.toNat % 64) * 64 + d.toNat % 64 := by
  simp only [code4?, continuationBits, Option.ite_none_right_eq_some, Bool.and_eq_true, Option.some.injEq]
  constructor
  · rintro ⟨⟨⟨⟨⟨hb, hc⟩, hd⟩, hn⟩, hscalar⟩, rfl⟩
    exact ⟨hb, hc, hd, of_decide_eq_true hn, hscalar, rfl⟩
  · rintro ⟨hb, hc, hd, hn, hscalar, rfl⟩
    exact ⟨⟨⟨⟨⟨hb, hc⟩, hd⟩, decide_eq_true hn⟩, hscalar⟩, rfl⟩

/-! ## Reading one character -/

/-- bytes that encode a code point are read as one rune, whatever follows -/
theorem Encodes.head {n : Nat} {t : Text} (h : Encodes n t) (rest : Text) :
    ∃ a more, t = a :: more ∧ Rune.head a (more ++ rest) = ⟨some n, t⟩ := by
  have hbelow : ∀ {a : UInt8} (b : UInt8), a.toNat < b.toNat → a < b := fun _ h => UInt8.lt_iff_toNat_lt.2 h
  have habove : ∀ {a : UInt8} (b : UInt8), b.toNat ≤ a.toNat → ¬ a < b :=
    fun _ h => UInt8.not_lt.2 (UInt8.le_iff_toNat_le.2 h)
  cases h with
  | @one a hn ha =>
    have h1 : a < 0x80 := hbelow 0x80 (ha ▸ hn)
    exact ⟨a, [], rfl, by simp [Rune.head, h1, ha]⟩
  | @two a b hlow hhigh ha hb =>
    have h1 : ¬ a < 0x80 := habove 0x80 (show 0x80 ≤ a.toNat by omega)
    have h2 : ¬ a < 0xC0 := habove 0xC0 (show 0xC0 ≤ a.toNat by omega)
    have h3 : a < 0xE0 := hbelow 0xE0 (show a.toNat < 0xE0 by omega)
    have hcode : code2? a b = some n :=
      code2?_eq_some_iff.2 ⟨isContinuation_iff.2 (by omega), hlow, by omega⟩
    exact ⟨a, [b], rfl, by simp [Rune.head, h1, h2, h3, hcode, Rune.ofCode?]⟩
  | @three a b c hlow hhigh hscalar ha hb hc =>
    have h1 : ¬ a < 0x80 := habove 0x80 (show 0x80 ≤ a.toNat by omega)
    have h2 : ¬ a < 0xC0 := habove 0xC0 (show 0xC0 ≤ a.toNat by omega)
    have h3 : ¬ a < 0xE0 := habove 0xE0 (show 0xE0 ≤ a.toNat by omega)
    have h4 : a < 0xF0 := hbelow 0xF0 (show a.toNat < 0xF0 by omega)
    have hcode : code3? a b c = some n :=
      code3?_eq_some_iff.2 ⟨isContinuation_iff.2 (by omega), isContinuation_iff.2 (by omega), hlow, hscalar, by omega⟩
    exact ⟨a, [b, c], rfl, by simp [Rune.head, h1, h2, h3, h4, hcode, Rune.ofCode?]⟩
  | @four a b c d hlow hscalar ha hb hc hd =>
    have hrange := isScalar_iff.1 hscalar
    have h1 : ¬ a < 0x80 := habove 0x80 (show 0x80 ≤ a.toNat by omega)
    have h2 : ¬ a < 0xC0 := habove 0xC0 (show 0xC0 ≤ a.toNat by omega)
    have h3 : ¬ a < 0xE0 := habove 0xE0 (show 0xE0 ≤ a.toNat by omega)
    have h4 : ¬ a < 0xF0 := habove 0xF0 (show 0xF0 ≤ a.toNat by omega)
    have h5 : a < 0xF8 := hbelow 0xF8 (show a.toNat < 0xF8 by omega)
    have hcode : code4? a b c d = some n :=
      code4?_eq_some_iff.2 ⟨isContinuation_iff.2 (by omega), isContinuation_iff.2 (by omega),
        isContinuation_iff.2 (by omega), hlow, hscalar, by omega⟩
    exact ⟨a, [b, c, d], rfl, by simp [Rune.head, h1, h2, h3, h4, h5, hcode, Rune.ofCode?]⟩

theorem Rune.ofCode?_code {code : Option Nat} {a : UInt8} {more : Text} {n : Nat}
    (h : (Rune.ofCode? code a more).code = some n) : code = some n ∧ (Rune.ofCode? code a more).bytes = a :: more := by
  cases code with
  | none => simp [ofCode?, stray] at h
  | some m => exact ⟨by simpa [ofCode?] using h, rfl⟩

/-- a rune has a code point only if its bytes encode it -/
theorem Rune.encodes_of_head {a : UInt8} {rest : Text} {n : Nat} (h : (Rune.head a rest).code = some n) :
    Encodes n (Rune.head a rest).bytes := by
  have hbelow : ∀ {b : UInt8}, a < b → a.toNat < b.toNat := UInt8.lt_iff_toNat_lt.1
  have habove : ∀ {b : UInt8}, ¬ a < b → b.toNat ≤ a.toNat := fun h => UInt8.le_iff_toNat_le.1 (UInt8.not_lt.1 h)
  unfold Rune.head at h ⊢
  split_ifs at h ⊢ with h1 h2 h3 h4 h5
  · cases h
    exact .one (hbelow h1) rfl
  · cases h
  · have hlow : 0xC0 ≤ a.toNat := habove h2
    have hhigh : a.toNat < 0xE0 := hbelow h3
    split at h
    · obtain ⟨hcode, hbytes⟩ := Rune.ofCode?_code h
      obtain ⟨hb, hn, heq⟩ := code2?_eq_some_iff.1 hcode
      rw [isContinuation_iff] at hb
      rw [hbytes]
      exact .two hn (by omega) (by omega) (by omega)
    · cases h
  · have hlow : 0xE0 ≤ a.toNat := habove h3
    have hhigh : a.toNat < 0xF0 := hbelow h4
    split at h
    · obtain ⟨hcode, hbytes⟩ := Rune.ofCode?_code h
      obtain ⟨hb, hc, hn, hscalar, heq⟩ := code3?_eq_some_iff.1 hcode
      rw [isContinuation_iff] at hb hc
      rw [hbytes]
      exact .three hn (by omega) hscalar (by omega) (by omega) (by omega)
    · cases h
  · have hlow : 0xF0 ≤ a.toNat := habove h4
    have hhigh : a.toNat < 0xF8 := hbelow h5
    split at h
    · obtain ⟨hcode, hbytes⟩ := Rune.ofCode?_code h
      obtain ⟨hb, hc, hd, hn, hscalar, heq⟩ := code4?_eq_some_iff.1 hcode
      rw [isContinuation_iff] at hb hc hd
      rw [hbytes]
      exact .four hn hscalar (by omega) (by omega) (by omega) (by omega)
    · cases h
  · cases h

/-! ## Characters -/

/-- the table holds the encoding of every character -/
theorem encodes_utf8EncodeChar (x : Char) : Encodes x.toNat (String.utf8EncodeChar x) := by
  have hrange : x.toNat < 0xD800 ∨ 0xDFFF < x.toNat ∧ x.toNat < 0x110000 := x.valid
  have hscalar : isScalar x.toNat = true := isScalar_iff.2 hrange
  have hbyte : ∀ {k n : Nat}, k < 256 → k = n → (UInt8.ofNat k).toNat = n := by
    rintro k n hk rfl
    rw [UInt8.toNat_ofNat']
    exact Nat.mod_eq_of_lt hk
  rw [String.utf8EncodeChar]
  simp only [Char.toNat_val]
  split_ifs with h1 h2 h3
  · exact .one (by omega) (hbyte (by omega) rfl)
  · exact .two (by omega) (by omega) (hbyte (by omega) (by omega)) (hbyte (by omega) rfl)
  · exact .three (by omega) (by omega) hscalar (hbyte (by omega) (by omega)) (hbyte (by omega) rfl)
      (hbyte (by omega) rfl)
  · exact .four (by omega) hscalar (hbyte (by omega) (by omega)) (hbyte (by omega) rfl) (hbyte (by omega) rfl)
      (hbyte (by omega) rfl)

theorem eq_ofNat_of_toNat {a : UInt8} {n : Nat} (h : a.toNat = n) : a = UInt8.ofNat n := by
  rw [← h, UInt8.ofNat_toNat]

/-- no other bytes encode a character -/
theorem Encodes.eq_utf8EncodeChar {x : Char} {t : Text} (h : Encodes x.toNat t) : t = String.utf8EncodeChar x := by
  have hrange : x.toNat < 0xD800 ∨ 0xDFFF < x.toNat ∧ x.toNat < 0x110000 := x.valid
  rw [String.utf8EncodeChar]
  simp only [Char.toNat_val]
  cases h with
  | one hn ha => rw [if_pos (by omega), ← eq_ofNat_of_toNat ha]
  | @two a b hlow hhigh ha hb =>
    have ha : a = UInt8.ofNat (x.toNat / 64 % 32 + 192) := eq_ofNat_of_toNat (by omega)
    rw [if_neg (by omega), if_pos (by omega), ← ha, ← eq_ofNat_of_toNat hb]
  | @three a b c hlow hhigh hscalar ha hb hc =>
    have ha : a = UInt8.ofNat (x.toNat / 4096 % 16 + 224) := eq_ofNat_of_toNat (by omega)
    rw [if_neg (by omega), if_neg (by omega), if_pos (by omega), ← ha, ← eq_ofNat_of_toNat hb, ← eq_ofNat_of_toNat hc]
  | @four a b c d hlow hscalar ha hb hc hd =>
    have ha : a = UInt8.ofNat (x.toNat / 262144 % 8 + 240) := eq_ofNat_of_toNat (by omega)
    rw [if_neg (by omega), if_neg (by omega), if_neg (by omega), ← ha, ← eq_ofNat_of_toNat hb, ← eq_ofNat_of_toNat hc,
      ← eq_ofNat_of_toNat hd]

theorem Encodes.isScalar {n : Nat} {t : Text} (h : Encodes n t) : isScalar n = true := by
  cases h with
  | one hn _ => exact isScalar_iff.2 (by omega)
  | two _ hhigh _ _ => exact isScalar_iff.2 (by omega)
  | three _ _ hscalar _ _ _ => exact hscalar
  | four _ hscalar _ _ _ _ => exact hscalar

theorem exists_char_of_isScalar {n : Nat} (h : isScalar n = true) : ∃ c : Char, c.toNat = n := by
  have hvalid : n.isValidChar := isScalar_iff.1 h
  exact ⟨Char.ofNatAux n hvalid, rfl⟩

/-- the rune of a character -/
def Rune.ofChar (c : Char) : Rune := ⟨some c.toNat, String.utf8EncodeChar c⟩

/-- runes with a code point are those of characters -/
theorem Rune.head_eq_ofChar {a : UInt8} {rest : Text} {n : Nat} (h : (Rune.head a rest).code = some n) :
    ∃ c : Char, Rune.head a rest = Rune.ofChar c := by
  have hencodes := Rune.encodes_of_head h
  obtain ⟨c, rfl⟩ := exists_char_of_isScalar hencodes.isScalar
  refine ⟨c, ?_⟩
  rw [Rune.ofChar, ← h, ← hencodes.eq_utf8EncodeChar]

theorem readRunes_used (used : Nat) (t : Text) : readRunes used t [] = runes (t.drop used) := by
  induction t generalizing used with
  | nil => simp [readRunes, runes]
  | cons b t ih =>
    cases used with
    | zero => rfl
    | succ used => rw [readRunes, ih, List.drop_succ_cons]

/-- **A character at the head of a text is read as its rune**, and reading goes on behind it -/
theorem runes_utf8EncodeChar_append (c : Char) (t : Text) :
    runes (String.utf8EncodeChar c ++ t) = Rune.ofChar c :: runes t := by
  obtain ⟨a, more, hbytes, hhead⟩ := (encodes_utf8EncodeChar c).head t
  rw [hbytes, List.cons_append, runes, readRunes_cons, readRunes_used, hhead, ← Rune.ofChar]
  simp [Rune.ofChar, hbytes]

theorem runes_flatMap_utf8EncodeChar (cs : List Char) :
    runes (cs.flatMap String.utf8EncodeChar) = cs.map Rune.ofChar := by
  induction cs with
  | nil => rfl
  | cons c cs ih => rw [List.flatMap_cons, runes_utf8EncodeChar_append, ih, List.map_cons]

theorem mem_readRunes {used : Nat} {t : Text} {r : Rune} (h : r ∈ readRunes used t []) :
    ∃ a rest, r = Rune.head a rest := by
  induction t generalizing used with
  | nil => simp [readRunes] at h
  | cons b t ih =>
    cases used with
    | succ used => exact ih h
    | zero =>
      rw [readRunes_cons, List.mem_cons] at h
      rcases h with rfl | h
      · exact ⟨b, t, rfl⟩
      · exact ih h

/-- a text whose runes all have code points is the encoding of some characters -/
theorem exists_chars_of_runes {t : Text} (h : ∀ r ∈ runes t, r.code.isSome) :
    ∃ cs : List Char, runes t = cs.map Rune.ofChar ∧ t = cs.flatMap String.utf8EncodeChar := by
  have hall : ∀ r ∈ runes t, r ∈ Set.range Rune.ofChar := by
    intro r hr
    obtain ⟨a, rest, rfl⟩ := mem_readRunes hr
    obtain ⟨n, hn⟩ := Option.isSome_iff_exists.1 (h _ hr)
    obtain ⟨c, hc⟩ := Rune.head_eq_ofChar hn
    exact ⟨c, hc.symm⟩
  obtain ⟨cs, hcs⟩ : runes t ∈ Set.range (List.map Rune.ofChar) := by
    rw [Set.range_list_map]
    exact hall
  refine ⟨cs, hcs.symm, ?_⟩
  calc t = bytesOf (cs.map Rune.ofChar) := by rw [hcs, bytesOf_runes]
    _ = cs.flatMap String.utf8EncodeChar := by rw [bytesOf, List.flatMap_map]; rfl

/-! ## Identifiers -/

/-- a letter or an underscore, then letters, decimal digits and underscores, in UTF-8 -/
def IsIdentifier (t : Text) : Prop :=
  ∃ (first : Char) (rest : List Char), t = (first :: rest).flatMap String.utf8EncodeChar ∧
    (isLetter first.toNat = true ∨ first = '_') ∧
    ∀ c ∈ rest, isLetter c.toNat = true ∨ isDecimalDigit c.toNat = true ∨ c = '_'

theorem satisfies_startsName {c : Char} :
    (Rune.ofChar c).satisfies startsName = true ↔ isLetter c.toNat = true ∨ c = '_' := by
  have hcode : (Rune.ofChar c).satisfies startsName = startsName c.toNat := rfl
  rw [hcode, startsName, Bool.or_eq_true, beq_iff_eq, ← Char.toNat_inj]
  rfl

theorem satisfies_continuesName {c : Char} :
    (Rune.ofChar c).satisfies continuesName = true ↔
      isLetter c.toNat = true ∨ isDecimalDigit c.toNat = true ∨ c = '_' := by
  have hcode : (Rune.ofChar c).satisfies continuesName = (startsName c.toNat || isDecimalDigit c.toNat) := rfl
  have hstart : startsName c.toNat = true ↔ isLetter c.toNat = true ∨ c = '_' := satisfies_startsName
  rw [hcode, Bool.or_eq_true, hstart, or_assoc, or_comm (a := c = '_')]

theorem code_of_satisfies {test : Nat → Bool} {r : Rune} (h : r.satisfies test = true) : r.code.isSome := by
  obtain ⟨hsome, _⟩ := (Option.any_eq_true_iff_get test r.code).1 h
  exact hsome

/-- **Names are identifiers**: the test on runes is the grammar on characters -/
theorem isName_iff {t : Text} : isName t = true ↔ IsIdentifier t := by
  constructor
  · intro h
    cases hrunes : runes t with
    | nil => simp [isName, hrunes] at h
    | cons r rs =>
      simp only [isName, hrunes, Bool.and_eq_true, List.all_eq_true] at h
      obtain ⟨hfirst, hrest⟩ := h
      have hcodes : ∀ x ∈ runes t, x.code.isSome := by
        intro x hx
        rw [hrunes, List.mem_cons] at hx
        rcases hx with rfl | hx
        · exact code_of_satisfies hfirst
        · exact code_of_satisfies (hrest x hx)
      obtain ⟨cs, hcs, ht⟩ := exists_chars_of_runes hcodes
      rw [hrunes] at hcs
      cases cs with
      | nil => cases hcs
      | cons first rest =>
        obtain ⟨rfl, rfl⟩ := List.cons.inj hcs
        refine ⟨first, rest, ht, satisfies_startsName.1 hfirst, fun c hc => ?_⟩
        exact satisfies_continuesName.1 (hrest _ (List.mem_map_of_mem hc))
  · rintro ⟨first, rest, rfl, hfirst, hrest⟩
    rw [isName, runes_flatMap_utf8EncodeChar]
    simp only [List.map_cons, Bool.and_eq_true, List.all_eq_true]
    refine ⟨satisfies_startsName.2 hfirst, fun r hr => ?_⟩
    obtain ⟨c, hc, rfl⟩ := List.mem_map.1 hr
    exact satisfies_continuesName.2 (hrest c hc)

end TwoPass
