/-
The first pass: every label stands for the number of words before it.

- `LabelTable`: the labels of a program and their addresses
- `labelsOf`: the labels of a list of lines, or the first label that is declared twice
- `LabelTable.symbols`: the labels in the order of their addresses
-/
import TwoPass.Assembly.Fault
import TwoPass.Source

namespace TwoPass

structure Symbol where
  name : Text
  address : Nat
deriving DecidableEq, Repr

/-- the order of symbols: by address, and by the bytes of the name at one address -/
def Symbol.before (a b : Symbol) : Bool :=
  a.address < b.address || (a.address == b.address && decide (a.name ≤ b.name))

/-- the labels of a program, the one declared last in front -/
structure LabelTable where
  entries : List Symbol
deriving DecidableEq, Repr

namespace LabelTable

def empty : LabelTable := ⟨[]⟩

def size (t : LabelTable) : Nat := t.entries.length

def address? (t : LabelTable) (name : Text) : Option Nat :=
  (t.entries.find? fun s => s.name == name).map Symbol.address

def insert (t : LabelTable) (name : Text) (address : Nat) : LabelTable := ⟨⟨name, address⟩ :: t.entries⟩

/-- the labels in order -/
def symbols (t : LabelTable) : List Symbol := t.entries.mergeSort Symbol.before

end LabelTable

/-- how far the first pass has come: the number of words so far, and the labels met -/
structure LabelPass where
  counter : Nat
  table : LabelTable
deriving DecidableEq, Repr

/-- read one line: a label is entered, and the counter moves past the words of an instruction -/
def LabelPass.step (s : LabelPass) (line : Line) : Except Fault LabelPass :=
  match line.token with
  | .label name =>
    if (s.table.address? name).isSome then .error ⟨line.number, .duplicateLabel name⟩
    else .ok { s with table := s.table.insert name s.counter }
  | token => .ok { s with counter := s.counter + token.size }

/-- read lines one after another, up to the first fault -/
def labelPass (lines : List Line) : Except Fault LabelPass := lines.foldlM LabelPass.step ⟨0, .empty⟩

def labelsOf (lines : List Line) : Except Fault LabelTable := (labelPass lines).map LabelPass.table

end TwoPass
