/-
Numbers for instructions and operand kinds, as tables exchanged with other tools use them.

- `Mnemonic.number`, `Mnemonic.ofNumber`: instructions count from zero
- `Mnemonic.nameOfNumber`: a name for every number
- `roleOfNumber`: the role of an operand whose kind is given by number
-/
import TwoPass.Isa.Mnemonic

namespace TwoPass

inductive NumberingError where
  | noSuchMnemonic
deriving DecidableEq, Repr

/-- the name of a number that stands for no instruction -/
def invalidName : Text := ascii "INVALID"

def NumberingError.message : NumberingError → Text
  | noSuchMnemonic => ascii "isa: unhandled mnemonic " ++ invalidName

namespace Mnemonic

/-- the number of an instruction: its place in the table -/
def number : Mnemonic → Nat
  | nop => 0
  | add => 1
  | sub => 2
  | and => 3
  | or => 4
  | ldi => 5
  | ld => 6
  | st => 7
  | jmp => 8
  | jnz => 9
  | halt => 10

/-- the instruction with a number -/
def ofNumber? (n : Int) : Option Mnemonic := all.find? fun m => (m.number : Int) == n

/-- the instruction with a number, or the error that there is none -/
def ofNumber (n : Int) : Except NumberingError Mnemonic :=
  match ofNumber? n with
  | some m => .ok m
  | none => .error .noSuchMnemonic

def nameOfNumber (n : Int) : Text := (ofNumber? n).elim invalidName name

end Mnemonic

namespace OperandKind

def number : OperandKind → Nat
  | register => 0
  | immediate => 1
  | address => 2

def ofNumber? (n : Int) : Option OperandKind :=
  [register, immediate, address].find? fun k => (k.number : Int) == n

end OperandKind

/-- the role of an operand whose kind is given by number; one of no known kind is called by its name -/
def roleOfNumber (name : Text) (kind : Int) : Text :=
  match OperandKind.ofNumber? kind with
  | some k => (⟨name, k⟩ : Operand).role
  | none => name

end TwoPass
