/-
Quoted texts, for messages and dumps: between quotes, with escapes for the quote, the backslash and whatever does not
print. A byte that belongs to no character is shown as `\x` and two digits.

- `Text.quoted`: a text between double quotes
- `Text.quotedByte`: one byte, taken as a code point, between single quotes
-/
import TwoPass.Text.Numeral
import TwoPass.Text.Printable

namespace TwoPass

/-- the letter that stands after the backslash for a control character that has one -/
def controlLetter? (n : Nat) : Option Char :=
  match n with
  | 0x07 => some 'a'
  | 0x08 => some 'b'
  | 0x0C => some 'f'
  | 0x0A => some 'n'
  | 0x0D => some 'r'
  | 0x09 => some 't'
  | 0x0B => some 'v'
  | _ => none

/-- how a code point, written by `bytes` when it prints, appears between quotes -/
def escaped (quote : Char) (n : Nat) (bytes : Text) : Text :=
  if n == quote.toNat || n == 0x5C then byte '\\' :: bytes
  else if isPrintable n then bytes
  else match controlLetter? n with
    | some letter => [byte '\\', byte letter]
    | none =>
      if n < 0x20 || n == 0x7F then ascii "\\x" ++ Text.hexLowerPadded 2 n
      else if n < 0x10000 then ascii "\\u" ++ Text.hexLowerPadded 4 n
      else ascii "\\U" ++ Text.hexLowerPadded 8 n

def Rune.escaped (quote : Char) (r : Rune) : Text :=
  match r.code with
  | some n => TwoPass.escaped quote n r.bytes
  | none => r.bytes.flatMap fun b => ascii "\\x" ++ Text.hexLowerPadded 2 b.toNat

namespace Text

def quoted (t : Text) : Text := byte '"' :: (runes t).flatMap (Rune.escaped '"') ++ [byte '"']

/-- the code point with the number of a byte, between single quotes -/
def quotedByte (b : UInt8) : Text :=
  byte '\'' :: escaped '\'' b.toNat (String.utf8EncodeChar (Char.ofNat b.toNat)) ++ [byte '\'']

end Text

end TwoPass
