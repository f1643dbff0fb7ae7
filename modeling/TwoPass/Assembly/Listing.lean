/-
Listings: the address, the words, the line number and the statement of every label and instruction of a program.

- `Program.listingRows`: a row for each label and each instruction, in the order of the lines
- `Program.listing`: the rows as one text
-/
import Std.Data.HashMap
import TwoPass.Assembly.Program
import TwoPass.Isa.Word

namespace TwoPass

/-- the column of a line number, aligned on the right -/
def numberColumn (number : Int) : Text := Text.padLeft 4 (byte ' ') (Text.decimalInt number)

/-- the row of a label, which has no words; a label missing from the table is shown at address zero -/
def labelRow (labels : LabelTable) (number : Int) (name : Text) : Text :=
  addressColumn ((labels.address? name).getD 0) ++ ascii "  " ++ wordsColumn [] ++ ascii "  " ++ numberColumn number
    ++ ascii "  " ++ name ++ ascii ":\n"

def instructionRow (address : Nat) (words : List Word) (number : Int) (fields : List Text) : Text :=
  addressColumn address ++ ascii "  " ++ wordsColumn words ++ ascii "  " ++ numberColumn number ++ ascii "      "
    ++ plainStatement fields ++ ascii "\n"

namespace Program

/-- the address of the words of each instruction line, by line number -/
def addresses (p : Program) : Std.HashMap Int Nat := Std.HashMap.ofList (p.sourceMap.map Prod.swap)

/-- the row of a line, given the addresses of instruction lines and the words of the program; a line that is neither a
label nor an instruction has none -/
def row? (labels : LabelTable) (addresses : Std.HashMap Int Nat) (words : Array Word) (line : Line) : Option Text :=
  match line.token with
  | .label name => some (labelRow labels line.number name)
  | .instruction fields =>
    let address := addresses.getD line.number 0
    let ownWords := words.extract address (address + line.token.size)
    some (instructionRow address ownWords.toList line.number fields)
  | _ => none

def listingRows (p : Program) : List Text :=
  let addresses := p.addresses
  let words := p.words.toArray
  p.lines.filterMap (row? p.labels addresses words)

def listing (p : Program) : Text := p.listingRows.flatten

end Program

end TwoPass
