/-
Numerals and names as operands.

- `number?`: decimal with an optional sign, or hexadecimal after `0x`, of any size
- `isName`: what could be the name of a label
-/
import TwoPass.Assembly.Fault
import TwoPass.Text.Letter

namespace TwoPass

/-- does a text begin with `0x` or `0X` -/
def hasHexMark (t : Text) : Bool := t.take 2 == ascii "0x" || t.take 2 == ascii "0X"

def radixOf (t : Text) : Radix := if hasHexMark t then .hex else .decimal

/-- the digits of a numeral, and their base -/
def numeralOf (t : Text) : Text × Nat :=
  match radixOf t with
  | .hex => (t.drop 2, 16)
  | .decimal => (t, 10)

/-- digits after an optional sign: in 64 bits if they fit, else exactly -/
def readNumeral? (base : Nat) (t : Text) : Option Int :=
  match readInt64 base t with
  | .ok v => some v
  | .error .malformed => none
  | .error .outOfRange => readInteger? base t

/-- the number that a text denotes; only decimals have a sign -/
def number? (t : Text) : Option Int :=
  if hasHexMark t && hasSign (t.drop 2) then none else readNumeral? (numeralOf t).2 (numeralOf t).1

def startsName (n : Nat) : Bool := isLetter n || n == 0x5F

def continuesName (n : Nat) : Bool := startsName n || isDecimalDigit n

/-- a letter or underscore, then letters, digits and underscores -/
def isName (t : Text) : Bool :=
  match runes t with
  | [] => false
  | first :: rest => first.satisfies startsName && rest.all (Rune.satisfies continuesName)

end TwoPass
