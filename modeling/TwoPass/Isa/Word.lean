/-
Instruction words: four bits of operation code and up to three register fields of three bits.

- `Mnemonic.encode`: the word of an instruction and its register numbers
- `decode`: the instruction of a word and the contents of its register fields
- `addressColumn`, `wordsColumn`: addresses and words as listings and disassemblies show them
-/
import TwoPass.Isa.Mnemonic
import TwoPass.Text.Numeral

namespace TwoPass

abbrev Word := UInt16

namespace Mnemonic

/-- the lowest bit of each register field, in the order of the register operands -/
def fields : Mnemonic → List Word
  | nop | jmp | halt => []
  | add | sub | and | or => [9, 6, 3]
  | ldi | ld | jnz => [9]
  | st => [6]

/-- put a register number, taken modulo eight, into the field that starts at a bit -/
def setField (w : Word) (field : Word × Word) : Word := w ||| ((field.2 &&& 7) <<< field.1)

/-- the word of an instruction: fields without a register number are zero, numbers without a field are ignored -/
def encode (m : Mnemonic) (registers : List Word) : Word :=
  (m.fields.zip registers).foldl setField (m.opcode <<< 12)

def registersOf (m : Mnemonic) (w : Word) : List Word := m.fields.map fun bit => (w >>> bit) &&& 7

end Mnemonic

/-- the instruction of a word, if its operation code has one, and its register numbers -/
def decode (w : Word) : Option (Mnemonic × List Word) :=
  (Mnemonic.ofOpcode? (w >>> 12)).map fun m => (m, m.registersOf w)

/-! ## Columns -/

/-- the column of an address: at least four digits -/
def addressColumn (address : Nat) : Text := Text.hexPadded 4 address

def wordText (w : Word) : Text := Text.hexPadded 4 w.toNat

/-- the column of the words of an instruction, wide enough for two -/
def wordsColumn (words : List Word) : Text := Text.padRight 9 (Text.join (ascii " ") (words.map wordText))

end TwoPass
