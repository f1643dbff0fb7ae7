/-
Memory images as text: words in hexadecimal, apart by blanks or line ends, with comments that begin with `//`.

- `HexImage.write`: one word a line, four upper-case digits each
- `HexImage.read`: the words of an image, or the first thing in it that is none
-/
import TwoPass.Isa.Word
import TwoPass.Text.Blank

namespace TwoPass

inductive ImageError where
  /-- a line is too long to be held -/
  | lineTooLong
  /-- an address directive, which images here do not have -/
  | addressDirective (text : Text) (line : Nat)
  /-- a field that is no word -/
  | invalidWord (field : Text) (line : Nat)
deriving DecidableEq, Repr

/-- what an image message begins with -/
def imageMessage (t : Text) : Text := ascii "hexfile: " ++ t

def ImageError.message : ImageError → Text
  | lineTooLong => imageMessage (ascii "bufio.Scanner: token too long")
  | addressDirective text line =>
    imageMessage (ascii "address directive '" ++ text ++ ascii "' not supported on line " ++ Text.decimal line)
  | invalidWord field line =>
    imageMessage (ascii "invalid word '" ++ field ++ ascii "' on line " ++ Text.decimal line)

namespace HexImage

/-! ## Writing -/

def wordLine (w : Word) : Text := wordText w ++ ascii "\n"

/-- an image with one word a line -/
def write (words : List Word) : Text := words.flatMap wordLine

/-! ## Reading -/

/-- a line with this many bytes, its carriage return included, is too long -/
def maxLine : Nat := 65536

def withoutSlashes : Text → Text
  | [] => []
  | b :: rest => if b == byte '/' && rest.head? == some (byte '/') then [] else b :: withoutSlashes rest

/-- the word of a field: hexadecimal digits, as many as there are, of a value below 65536 -/
def word? (field : Text) : Option Word := ((readDigits? 16 field).filter (· < 65536)).map UInt16.ofNat

def readField (line : Nat) (field : Text) : Except ImageError Word :=
  match word? field with
  | some w => .ok w
  | none => .error (.invalidWord field line)

/-- the words of a trimmed line without comment -/
def readCode (line : Nat) (code : Text) : Except ImageError (List Word) :=
  if code.head? == some (byte '@') then .error (.addressDirective code line)
  else (Text.fieldsBy Rune.isBlank code).mapM (readField line)

def readLine (line : Nat) (raw : Text) : Except ImageError (List Word) :=
  if maxLine ≤ raw.length then .error .lineTooLong
  else readCode line (Text.trim (withoutSlashes (dropReturn raw)))

/-- the words of an image -/
def read (image : Text) : Except ImageError (List Word) :=
  (((textLines image).zipIdx 1).mapM fun (raw, n) => readLine n raw).map List.flatten

end HexImage

end TwoPass
