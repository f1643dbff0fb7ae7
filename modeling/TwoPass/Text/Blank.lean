/-
Blank characters, and the two operations that depend on them: trimming a text and cutting it into fields.

- `isBlank`: white space of the Unicode standard, no-break spaces and line separators included
- `Text.trim`: a text without the blanks at its ends
- `Text.fieldsBy`: the non-empty stretches between separators
-/
import TwoPass.Text.Rune

namespace TwoPass

/-- the code points with the property White_Space -/
def blankRanges : List CodeRange :=
  [(0x09, 0x0D), (0x20, 0x20), (0x85, 0x85), (0xA0, 0xA0), (0x1680, 0x1680), (0x2000, 0x200A), (0x2028, 0x2029),
   (0x202F, 0x202F), (0x205F, 0x205F), (0x3000, 0x3000)]

def isBlank (n : Nat) : Bool := inRanges blankRanges n

/-- white space among the runes; a stray byte is none -/
def Rune.isBlank (r : Rune) : Bool := r.satisfies TwoPass.isBlank

def trimFront (rs : List Rune) : List Rune := rs.dropWhile Rune.isBlank

/-- runes without the blank ones at either end -/
def trimRunes (rs : List Rune) : List Rune := (trimFront (trimFront rs).reverse).reverse

namespace Text

/-- a text without the blanks at its ends -/
def trim (t : Text) : Text := bytesOf (trimRunes (runes t))

/-- the fields of a text: the non-empty stretches of runes that are no separators -/
def fieldsBy (isSeparator : Rune → Bool) (t : Text) : List Text :=
  ((pieces isSeparator (runes t)).filter fun piece => !piece.isEmpty).map bytesOf

end Text

end TwoPass
