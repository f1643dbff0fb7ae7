/-
Source files: numbered lines, and what each of them says: nothing, a label, or an instruction with its operands.

- `tokenize`: the token of a line, which never fails: bad statements are found when they are encoded
- `Token.size`: the number of words that a token takes in memory
- `plainStatement`: an instruction without comment and superfluous blanks
- `scan`: the lines of a source file with their numbers and tokens
-/
import TwoPass.Isa.Mnemonic
import TwoPass.Text.Blank

namespace TwoPass

inductive Token where
  /-- nothing but blanks and a comment -/
  | empty
  /-- a label for the place where it stands -/
  | label (name : Text)
  /-- a mnemonic and its operands -/
  | instruction (fields : List Text)
  /-- something of a kind that neither pass reads -/
  | unknown
deriving DecidableEq, Repr

/-- the first of the fields of an instruction -/
def mnemonicField (fields : List Text) : Text := fields.headD []

def operandFields (fields : List Text) : List Text := fields.tail

namespace Token

def kindName : Token → Text
  | empty => ascii "empty"
  | label _ => ascii "label"
  | instruction _ => ascii "instruction"
  | unknown => ascii "unknown"

/-- the token of a kind given by number: 0 is empty, 1 a label, 2 an instruction -/
def ofNumber (kind : Int) (name : Text) (fields : List Text) : Token :=
  if kind == 0 then empty
  else if kind == 1 then label name
  else if kind == 2 then instruction fields
  else unknown

/-- the name of a label; other tokens have none -/
def name : Token → Text
  | label name => name
  | _ => []

/-- the fields of an instruction; other tokens have none -/
def fields : Token → List Text
  | instruction fields => fields
  | _ => []

/-- the number of words a token takes; an instruction that does not exist counts as one word -/
def size : Token → Nat
  | instruction fields => (Mnemonic.ofName? (mnemonicField fields)).elim 1 Mnemonic.size
  | _ => 0

end Token

/-! ## Reading a line -/

def beginsComment (b : UInt8) : Bool := b == byte ';' || b == byte '#'

def withoutComment (t : Text) : Text := t.takeWhile fun b => !beginsComment b

/-- the characters between fields: blanks and commas -/
def Rune.separates (r : Rune) : Bool := r.isBlank || r.satisfies (· == 0x2C)

def endsInColon (t : Text) : Bool := t.getLast? == some (byte ':')

/-- the token of a trimmed line without comment -/
def tokenizeCode (code : Text) : Token :=
  if code.isEmpty then .empty
  else if endsInColon code then .label (Text.trim code.dropLast)
  else .instruction (Text.fieldsBy Rune.separates code)

def tokenize (line : Text) : Token := tokenizeCode (Text.trim (withoutComment line))

/-! ## Writing an instruction -/

/-- an instruction in its plain form: capital mnemonic, a blank, and the operands with commas between them -/
def plainStatement (fields : List Text) : Text :=
  let mnemonic := (mnemonicField fields).capitals
  if (operandFields fields).isEmpty then mnemonic
  else mnemonic ++ byte ' ' :: Text.join (ascii ", ") (operandFields fields)

/-! ## Lines -/

structure Line where
  number : Int
  text : Text
  token : Token
deriving DecidableEq, Repr

/-- the line with a number -/
def Line.read (number : Nat) (raw : Text) : Line := ⟨number, dropReturn raw, tokenize (dropReturn raw)⟩

/-- the lines of a source file, numbered from one -/
def scan (source : Text) : List Line := (textLines source).zipIdx 1 |>.map fun (raw, n) => Line.read n raw

end TwoPass
