/-
Numerals: writing numbers in decimal and hexadecimal, and reading digits back.

- `Text.decimal`, `Text.decimalInt`, `Text.hex`: digits without leading zeros
- `Text.hexPadded`: upper-case hexadecimal of a least width
- `readDigits?`, `readInteger?`: the value of a numeral of any length
- `readInt64`: the value of a numeral, if it is an integer of 64 bits
-/
import TwoPass.Text.Basic

namespace TwoPass

namespace Text

def decimal (n : Nat) : Text := (Nat.toDigits 10 n).map byte

/-- the decimal digits of an integer, after a minus sign if it is negative -/
def decimalInt : Int → Text
  | .ofNat n => decimal n
  | .negSucc n => byte '-' :: decimal (n + 1)

/-- the hexadecimal digits of a number, in upper case -/
def hex (n : Nat) : Text := (Nat.toDigits 16 n).map fun c => byte c.toUpper

def hexLower (n : Nat) : Text := (Nat.toDigits 16 n).map byte

/-- upper-case hexadecimal with at least `width` digits -/
def hexPadded (width n : Nat) : Text := padLeft width (byte '0') (hex n)

def hexLowerPadded (width n : Nat) : Text := padLeft width (byte '0') (hexLower n)

end Text

/-- the value of a digit: `0` to `9`, then `a` to `f` in either case -/
def digit? (b : UInt8) : Option Nat :=
  if byte '0' ≤ b && b ≤ byte '9' then some (b.toNat - 0x30)
  else if byte 'a' ≤ b && b ≤ byte 'f' then some (b.toNat - 0x57)
  else if byte 'A' ≤ b && b ≤ byte 'F' then some (b.toNat - 0x37)
  else none

/-- the value of a digit of a base -/
def digitOf? (base : Nat) (b : UInt8) : Option Nat := (digit? b).filter (· < base)

def readDigit? (base value : Nat) (b : UInt8) : Option Nat := (digitOf? base b).map (value * base + ·)

/-- the value of a non-empty string of digits of a base, the most significant first -/
def readDigits? (base : Nat) : Text → Option Nat
  | [] => none
  | t => t.foldlM (readDigit? base) 0

/-! ## Integers -/

def hasSign (t : Text) : Bool := t.head? == some (byte '+') || t.head? == some (byte '-')

def dropSign (t : Text) : Text := if hasSign t then t.drop 1 else t

/-- a number with the sign that a text begins with -/
def withSign (t : Text) (n : Nat) : Int := if t.head? == some (byte '-') then -n else n

/-- digits after an optional sign, exactly -/
def readInteger? (base : Nat) (t : Text) : Option Int := (readDigits? base (dropSign t)).map (withSign t)

/-- why a text is no integer of 64 bits -/
inductive NumeralError where
  | malformed
  | outOfRange
deriving DecidableEq, Repr

/-- read digits into 64 bits; whichever comes first, a character that is no digit or too great a number, is the error -/
def readUInt64 (base : Nat) : Nat → Text → Except NumeralError Nat
  | n, [] => .ok n
  | n, b :: rest =>
    match readDigit? base n b with
    | none => .error .malformed
    | some m => if m < 18446744073709551616 then readUInt64 base m rest else .error .outOfRange

def fitsInt64 (v : Int) : Bool := -9223372036854775808 ≤ v && v < 9223372036854775808

/-- digits after an optional sign, as an integer of 64 bits -/
def readInt64 (base : Nat) (t : Text) : Except NumeralError Int :=
  if (dropSign t).isEmpty then .error .malformed
  else match readUInt64 base 0 (dropSign t) with
    | .error e => .error e
    | .ok n => if fitsInt64 (withSign t n) then .ok (withSign t n) else .error .outOfRange

end TwoPass
