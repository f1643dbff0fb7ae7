/-
The instruction table: eleven mnemonics, their operation codes and the operands each takes.

- `Mnemonic`: the instructions of the machine
- `Mnemonic.operands`: the operands, in the order in which they are written
- `Mnemonic.size`: one word, or two if an operand is a value
- `Mnemonic.ofName?`: the instruction of a name in either case
-/
import TwoPass.Text.Rune

namespace TwoPass

inductive Mnemonic where
  | nop | add | sub | and | or | ldi | ld | st | jmp | jnz | halt
deriving DecidableEq, Repr

/-- what an operand holds: a register number, a constant or a place in memory -/
inductive OperandKind where
  | register | immediate | address
deriving DecidableEq, Repr

structure Operand where
  name : Text
  kind : OperandKind
deriving DecidableEq, Repr

/-- the part an operand plays, as messages call it; a register written to is named `rd` -/
def Operand.role (o : Operand) : Text :=
  match o.kind with
  | .register => if o.name == ascii "rd" then ascii "destination register" else ascii "source register"
  | .immediate => ascii "immediate"
  | .address => ascii "address"

/-! ## Capital letters -/

/-- the letters outside ASCII whose capital is an ASCII letter: the dotless i and the long s -/
def asciiCapital? (n : Nat) : Option UInt8 :=
  if 0x61 ≤ n && n ≤ 0x7A then some (UInt8.ofNat (n - 0x20))
  else if n == 0x131 then some (byte 'I')
  else if n == 0x17F then some (byte 'S')
  else none

/-- a rune in capitals, if its capital is an ASCII letter; any other rune as it is -/
def Rune.capital (r : Rune) : Text :=
  match r.code.bind asciiCapital? with
  | some b => [b]
  | none => r.bytes

/-- a text with the letters that have an ASCII capital in capitals -/
def Text.capitals (t : Text) : Text := (runes t).flatMap Rune.capital

/-! ## The table -/

namespace Mnemonic

/-- all instructions, in the order of their numbers -/
def all : List Mnemonic := [nop, add, sub, and, or, ldi, ld, st, jmp, jnz, halt]

/-- the name of an instruction, in capitals -/
def name : Mnemonic → Text
  | nop => ascii "NOP"
  | add => ascii "ADD"
  | sub => ascii "SUB"
  | and => ascii "AND"
  | or => ascii "OR"
  | ldi => ascii "LDI"
  | ld => ascii "LD"
  | st => ascii "ST"
  | jmp => ascii "JMP"
  | jnz => ascii "JNZ"
  | halt => ascii "HALT"

/-- the operation code, in the top four bits of an instruction word -/
def opcode : Mnemonic → UInt16
  | nop => 0x0
  | add => 0x1
  | sub => 0x2
  | and => 0x3
  | or => 0x4
  | ldi => 0x5
  | ld => 0x6
  | st => 0x7
  | jmp => 0x8
  | jnz => 0x9
  | halt => 0xF

def registerNamed (name : String) : Operand := ⟨ascii name, .register⟩

/-- the operands of an instruction, in the order in which they are written -/
def operands : Mnemonic → List Operand
  | nop | halt => []
  | add | sub | and | or => [registerNamed "rd", registerNamed "rs1", registerNamed "rs2"]
  | ldi => [registerNamed "rd", ⟨ascii "imm8", .immediate⟩]
  | ld => [registerNamed "rd", ⟨ascii "addr8", .address⟩]
  | st => [registerNamed "rs", ⟨ascii "addr8", .address⟩]
  | jmp => [⟨ascii "addr8", .address⟩]
  | jnz => [registerNamed "rs", ⟨ascii "addr8", .address⟩]

/-- the names of the operands, as messages list them -/
def operandNames (m : Mnemonic) : Text := Text.join (ascii ", ") (m.operands.map Operand.name)

/-- the number of words an instruction takes: a value operand has a word of its own -/
def size (m : Mnemonic) : Nat := if m.operands.any (·.kind != .register) then 2 else 1

/-- the instruction with a name, in either case -/
def ofName? (t : Text) : Option Mnemonic := all.find? fun m => m.name == t.capitals

def ofOpcode? (code : UInt16) : Option Mnemonic := all.find? fun m => m.opcode == code

theorem ofName?_name (m : Mnemonic) : ofName? m.name = some m := by cases m <;> decide

theorem ofOpcode?_opcode (m : Mnemonic) : ofOpcode? m.opcode = some m := by cases m <;> decide

theorem opcode_of_ofOpcode? {code : UInt16} {m : Mnemonic} (h : ofOpcode? code = some m) : m.opcode = code := by
  have hm := List.find?_some h
  simpa using hm

end Mnemonic

end TwoPass
