/-
Runes side by side. A byte that begins a character never belongs to the one before it, so a text can be cut there and
the two sides read by themselves, even where they are no well-formed UTF-8.

- `runes_append_start`, `runes_append_ascii`: such a byte, an ASCII byte among them, divides the runes of a text
- `trimRunes_eq_self`: a text without blanks at its ends is left as it is
- `fieldRunes_append_cons`: a separator divides the fields of a text
- `textLines_flatMap`, `textLines_join`: texts that were written one a line are the lines again
-/
import Mathlib.Tactic
import TwoPass.Source

namespace TwoPass

/-! ## Reading on -/

/-- the rune of an ASCII byte -/
def Rune.ofAscii (a : UInt8) : Rune := ⟨some a.toNat, [a]⟩

theorem readRunes_eq_append (used : Nat) (t : Text) (done : List Rune) :
    readRunes used t done = done.reverse ++ readRunes used t [] := by
  induction t generalizing used done with
  | nil => simp [readRunes]
  | cons b rest ih =>
    cases used with
    | succ used => rw [readRunes, readRunes, ih]
    | zero =>
      rw [readRunes, readRunes, ih, ih _ [_]]
      simp

theorem readRunes_cons (b : UInt8) (rest : Text) :
    readRunes 0 (b :: rest) [] =
      Rune.head b rest :: readRunes ((Rune.head b rest).bytes.length - 1) rest [] := by
  rw [readRunes, readRunes_eq_append]
  rfl

theorem Rune.head_ascii {a : UInt8} (ha : a < 0x80) (rest : Text) : Rune.head a rest = Rune.ofAscii a := by
  simp [Rune.head, ha, Rune.ofAscii]

theorem isContinuation_of_lt {a : UInt8} (ha : a < 0x80) : isContinuation a = false := by
  simp only [isContinuation, Bool.and_eq_false_iff, decide_eq_false_iff_not]
  exact Or.inl (UInt8.not_le.2 ha)

/-- the rune at the head of a text does not reach across a byte that continues no character -/
theorem Rune.head_append_start {a : UInt8} (ha : isContinuation a = false) (b : UInt8) (t u : Text) :
    Rune.head b (t ++ a :: u) = Rune.head b t := by
  rcases t with _ | ⟨c, _ | ⟨d, _ | ⟨e, t⟩⟩⟩
  · rcases u with _ | ⟨v, _ | ⟨w, u⟩⟩ <;>
      simp [Rune.head, Rune.ofCode?, code2?, code3?, code4?, ha]
  · rcases u with _ | ⟨v, u⟩ <;> simp [Rune.head, Rune.ofCode?, code3?, code4?, ha]
  · simp [Rune.head, Rune.ofCode?, code4?, ha]
  · rfl

theorem readRunes_append_start {a : UInt8} (ha : isContinuation a = false) (used : Nat) (t u : Text)
    (hused : used ≤ t.length) :
    readRunes used (t ++ a :: u) [] = readRunes used t [] ++ readRunes 0 (a :: u) [] := by
  induction t generalizing used with
  | nil =>
    obtain rfl : used = 0 := by simpa using hused
    rfl
  | cons b t ih =>
    cases used with
    | succ used =>
      rw [List.cons_append, readRunes, readRunes]
      exact ih used (by simpa using hused)
    | zero =>
      obtain ⟨more, hbytes, hmore⟩ := Rune.head_bytes b t
      have hle := hmore.length_le
      rw [List.cons_append, readRunes_cons, readRunes_cons, Rune.head_append_start ha, List.cons_append]
      rw [ih _ (by rw [hbytes]; simpa using hle)]

/-- **A byte that continues no character divides the runes of a text** -/
theorem runes_append_start {a : UInt8} (ha : isContinuation a = false) (t u : Text) :
    runes (t ++ a :: u) = runes t ++ runes (a :: u) :=
  readRunes_append_start ha 0 t u (Nat.zero_le _)

theorem runes_cons_ascii {a : UInt8} (ha : a < 0x80) (u : Text) : runes (a :: u) = Rune.ofAscii a :: runes u := by
  rw [runes, readRunes_cons, Rune.head_ascii ha]
  rfl

/-- an ASCII byte divides the runes of a text -/
theorem runes_append_ascii {a : UInt8} (ha : a < 0x80) (t u : Text) :
    runes (t ++ a :: u) = runes t ++ Rune.ofAscii a :: runes u := by
  rw [runes_append_start (isContinuation_of_lt ha), runes_cons_ascii ha]

theorem runes_eq_nil_iff {t : Text} : runes t = [] ↔ t = [] := by
  constructor
  · intro h
    have hbytes := bytesOf_runes t
    rw [h] at hbytes
    exact hbytes.symm
  · rintro rfl; rfl

/-! ## Trimming -/

theorem trimFront_eq_self {rs : List Rune} (h : ∀ r ∈ rs.head?, r.isBlank = false) : trimFront rs = rs := by
  cases rs with
  | nil => rfl
  | cons r rs => simp [trimFront, h r (by simp)]

/-- runes with no blank at either end stay as they are -/
theorem trimRunes_eq_self {rs : List Rune} (hfirst : ∀ r ∈ rs.head?, r.isBlank = false)
    (hlast : ∀ r ∈ rs.getLast?, r.isBlank = false) : trimRunes rs = rs := by
  have hback : ∀ r ∈ rs.reverse.head?, r.isBlank = false := by rwa [List.head?_reverse]
  rw [trimRunes, trimFront_eq_self hfirst, trimFront_eq_self hback, List.reverse_reverse]

/-! ## Fields -/

/-- the stretches of runes between separators -/
def fieldRunes (isSeparator : Rune → Bool) (rs : List Rune) : List (List Rune) :=
  (pieces isSeparator rs).filter fun piece => !piece.isEmpty

theorem fieldsBy_eq (isSeparator : Rune → Bool) (t : Text) :
    Text.fieldsBy isSeparator t = (fieldRunes isSeparator (runes t)).map bytesOf := rfl

/-- **A separator divides the fields** -/
theorem fieldRunes_append_cons {isSeparator : Rune → Bool} {r : Rune} (hr : isSeparator r = true) (rs ss : List Rune) :
    fieldRunes isSeparator (rs ++ r :: ss) = fieldRunes isSeparator rs ++ fieldRunes isSeparator ss := by
  rw [fieldRunes, pieces_append_cons _ r hr, List.filter_append]
  rfl

theorem fieldRunes_cons {isSeparator : Rune → Bool} {r : Rune} (hr : isSeparator r = true) (rs : List Rune) :
    fieldRunes isSeparator (r :: rs) = fieldRunes isSeparator rs :=
  fieldRunes_append_cons hr [] rs

theorem pieces_eq_singleton {α : Type} {cut : α → Bool} {l : List α} (h : ∀ a ∈ l, cut a = false) :
    pieces cut l = [l] := by
  induction l with
  | nil => rfl
  | cons a l ih =>
    rw [pieces_cons, h a List.mem_cons_self, ih fun b hb => h b (List.mem_cons_of_mem a hb)]
    rfl

theorem fieldRunes_eq_singleton {isSeparator : Rune → Bool} {rs : List Rune} (hne : rs ≠ [])
    (h : ∀ r ∈ rs, isSeparator r = false) : fieldRunes isSeparator rs = [rs] := by
  simp [fieldRunes, pieces_eq_singleton h, hne]

/-! ## Lines -/

/-- a text without a line feed is one line -/
theorem textLines_eq_singleton {line : Text} (h : byte '\n' ∉ line) : textLines line = [line] := by
  refine pieces_eq_singleton fun b hb => ?_
  rw [isLineEnd, beq_eq_false_iff_ne]
  rintro rfl
  exact h hb

/-- a text up to its first line feed is the first line -/
theorem textLines_append_cons {line : Text} (h : byte '\n' ∉ line) (rest : Text) :
    textLines (line ++ byte '\n' :: rest) = line :: textLines rest := by
  rw [textLines, pieces_append_cons _ _ (by decide)]
  exact congrArg (· ++ textLines rest) (textLines_eq_singleton h)

/-- **Texts that were written one a line are the lines again**, with an empty line behind the last line feed -/
theorem textLines_flatMap {texts : List Text} (h : ∀ t ∈ texts, byte '\n' ∉ t) :
    textLines (texts.flatMap fun t => t ++ ascii "\n") = texts ++ [[]] := by
  induction texts with
  | nil => rfl
  | cons t texts ih =>
    have hrest := ih fun t' ht' => h t' (List.mem_cons_of_mem t ht')
    rw [List.flatMap_cons, List.append_assoc, show ascii "\n" = [byte '\n'] from rfl, List.singleton_append,
      textLines_append_cons (h t List.mem_cons_self)]
    exact congrArg (t :: ·) hrest

/-- **Lines that were joined are the lines again** -/
theorem textLines_join {lines : List Text} (hne : lines ≠ []) (h : ∀ line ∈ lines, byte '\n' ∉ line) :
    textLines (Text.join [byte '\n'] lines) = lines := by
  induction lines with
  | nil => exact absurd rfl hne
  | cons line lines ih =>
    cases lines with
    | nil => rw [Text.join, List.intercalate_singleton, textLines_eq_singleton (h line List.mem_cons_self)]
    | cons next lines =>
      have hrest := ih (List.cons_ne_nil _ _) fun t ht => h t (List.mem_cons_of_mem line ht)
      rw [Text.join, List.intercalate_cons_cons, List.append_assoc, List.singleton_append,
        textLines_append_cons (h line List.mem_cons_self)]
      exact congrArg (line :: ·) hrest

end TwoPass
