/-
Texts are lists of bytes. Source files, hex images, messages and paths are all texts: nothing here assumes that the
bytes are well-formed characters.

- `byte`, `ascii`: the bytes of ASCII characters and strings
- `pieces`: a list cut at the elements that satisfy a test
- `textLines`: the lines of a text, without their line feeds
- `dropReturn`: a line without a carriage return at its end
- `Text.padLeft`, `Text.padRight`: a text brought to a least width
-/

namespace TwoPass

abbrev Text := List UInt8

def byte (c : Char) : UInt8 := UInt8.ofNat c.toNat

def ascii (s : String) : Text := s.toList.map byte

/-- put one more element in front of the first piece -/
def extendFirst {α : Type} (a : α) : List (List α) → List (List α)
  | [] => [[a]]
  | piece :: rest => (a :: piece) :: rest

/-- the pieces of a list between the elements that satisfy `cut`; there is always one piece more than there are cuts -/
def pieces {α : Type} (cut : α → Bool) (l : List α) : List (List α) :=
  l.foldr (fun a acc => if cut a then [] :: acc else extendFirst a acc) [[]]

@[simp] theorem pieces_nil {α : Type} (cut : α → Bool) : pieces cut [] = [[]] := rfl

theorem pieces_cons {α : Type} (cut : α → Bool) (a : α) (l : List α) :
    pieces cut (a :: l) = if cut a then [] :: pieces cut l else extendFirst a (pieces cut l) := rfl

theorem pieces_ne_nil {α : Type} (cut : α → Bool) (l : List α) : pieces cut l ≠ [] := by
  cases l with
  | nil => simp
  | cons a l =>
    rw [pieces_cons]
    split
    · simp
    · cases pieces cut l <;> simp [extendFirst]

/-- a cut divides the pieces -/
theorem pieces_append_cons {α : Type} (cut : α → Bool) (a : α) (ha : cut a = true) (l r : List α) :
    pieces cut (l ++ a :: r) = pieces cut l ++ pieces cut r := by
  induction l with
  | nil => simp [pieces_cons, ha]
  | cons b l ih =>
    rw [List.cons_append, pieces_cons, pieces_cons, ih]
    split
    · rfl
    · cases h : pieces cut l with
      | nil => exact absurd h (pieces_ne_nil cut l)
      | cons piece rest => rfl

/-! ## Lines -/

def isLineEnd (b : UInt8) : Bool := b == byte '\n'

/-- a line without the carriage return that may end it -/
def dropReturn (t : Text) : Text := if t.getLast? == some (byte '\r') then t.dropLast else t

/-- the lines of a text, each without its line feed; there is always a last line, which may be empty -/
def textLines (t : Text) : List Text := pieces isLineEnd t

/-! ## Widths -/

namespace Text

/-- `fill` in front of a text until it has the given width -/
def padLeft (width : Nat) (fill : UInt8) (t : Text) : Text :=
  List.replicate (width - t.length) fill ++ t

/-- blanks behind a text until it has the given width -/
def padRight (width : Nat) (t : Text) : Text :=
  t ++ List.replicate (width - t.length) (byte ' ')

/-- texts with a separator between each two -/
def join (sep : Text) (ts : List Text) : Text := List.intercalate sep ts

end Text

end TwoPass
