/-
The second pass: every instruction becomes one or two words. A value wider than eight bits is cut down, with a warning.

- `readOperand`: a register number, or the value of a label or numeral
- `emitInstruction`: the words and warnings of one instruction
- `encode`: the words, warnings and source map of a list of lines under a table of labels
- `assemble`: both passes over a source file
-/
import TwoPass.Assembly.Labels
import TwoPass.Assembly.Literal
import TwoPass.Isa.Word

namespace TwoPass

/-! ## Warnings -/

/-- a value that was cut down to eight bits -/
structure Warning where
  line : Int
  role : Text
  value : Int
  kept : UInt8
deriving DecidableEq, Repr

namespace Warning

/-- the value before the cut, as a numeral -/
def original (w : Warning) : Text := Text.decimalInt w.value

def text (w : Warning) : Text :=
  ascii "line " ++ Text.decimalInt w.line ++ ascii ": " ++ w.role ++ byte ' ' :: w.original
    ++ ascii " truncated to 8 bits -> " ++ Text.decimal w.kept.toNat

/-- the fault that a warning becomes where nothing may be cut down -/
def fault (w : Warning) : Fault := ⟨w.line, .truncated w.role w.value w.kept⟩

end Warning

/-! ## Operands -/

/-- the number of a register, `R0` to `R7` in either case -/
def register? : Text → Option Word
  | [r, n] =>
    if (r == byte 'R' || r == byte 'r') && byte '0' ≤ n && n ≤ byte '7' then some (UInt16.ofNat (n.toNat - 0x30))
    else none
  | _ => none

/-- the value of a token: that of the label with this name, else that of the numeral; the cause if it is neither -/
def value (labels : LabelTable) (token : Text) : Except Cause Int :=
  match labels.address? token with
  | some address => .ok address
  | none =>
    match number? token with
    | some n => .ok n
    | none => .error (if isName token then .undefinedLabel token else .invalidNumber (radixOf token) token)

inductive Argument where
  | register (number : Word)
  | value (role : Text) (value : Int)
deriving DecidableEq, Repr

def readOperand (labels : LabelTable) (m : Mnemonic) (operand : Operand) (token : Text) (position : Nat) :
    Except Cause Argument :=
  match operand.kind with
  | .register =>
    match register? token with
    | some r => .ok (.register r)
    | none => .error (.invalidRegister operand token position m)
  | _ => (value labels token).map (.value operand.role)

/-- read the operands of an instruction from left to right -/
def readOperands (labels : LabelTable) (m : Mnemonic) (tokens : List Text) : Except Cause (List Argument) :=
  ((m.operands.zip tokens).zipIdx 1).mapM fun ((operand, token), position) =>
    readOperand labels m operand token position

namespace Argument

def register? : Argument → Option Word
  | register r => some r
  | value _ _ => none

def lowByte (v : Int) : UInt8 := UInt8.ofNat (v % 256).toNat

/-- the word that a value operand has in memory -/
def word? : Argument → Option Word
  | register _ => none
  | value _ v => some (lowByte v).toUInt16

/-- the warning that a value operand gives rise to, if it does not fit -/
def warning? (line : Int) : Argument → Option Warning
  | register _ => none
  | value role v => if ((lowByte v).toNat : Int) == v then none else some ⟨line, role, v, lowByte v⟩

end Argument

/-! ## Instructions -/

/-- what an instruction line gives: its words, and the warnings met -/
structure Emission where
  line : Int
  words : List Word
  warnings : List Warning
deriving DecidableEq, Repr

def argumentWords (m : Mnemonic) (arguments : List Argument) : List Word :=
  m.encode (arguments.filterMap Argument.register?) :: arguments.filterMap Argument.word?

/-- check the number of operands, then read them -/
def readArguments (labels : LabelTable) (m : Mnemonic) (tokens : List Text) : Except Cause (List Argument) :=
  if tokens.length == m.operands.length then readOperands labels m tokens
  else .error (.operandCount m tokens.length)

def readInstruction (labels : LabelTable) (fields : List Text) : Except Cause (Mnemonic × List Argument) :=
  match Mnemonic.ofName? (mnemonicField fields) with
  | none => .error (.unknownMnemonic (mnemonicField fields))
  | some m => (readArguments labels m (operandFields fields)).map fun arguments => (m, arguments)

def emitInstruction (labels : LabelTable) (line : Int) (fields : List Text) : Except Fault Emission :=
  match readInstruction labels fields with
  | .error cause => .error ⟨line, cause⟩
  | .ok (m, arguments) => .ok ⟨line, argumentWords m arguments, arguments.filterMap (Argument.warning? line)⟩

/-! ## Programs -/

structure Program where
  lines : List Line
  labels : LabelTable
  words : List Word
  warnings : List Warning
  /-- the address of the first word of each instruction, and the number of its line -/
  sourceMap : List (Nat × Int)
deriving DecidableEq, Repr

def Line.instruction? (line : Line) : Option (Int × List Text) :=
  match line.token with
  | .instruction fields => some (line.number, fields)
  | _ => none

/-- place emissions one behind the other; `placed` holds the entries so far, the last one first -/
def placeFrom : Nat → List Emission → List (Nat × Int) → List (Nat × Int)
  | _, [], placed => placed.reverse
  | address, e :: rest, placed => placeFrom (address + e.words.length) rest ((address, e.line) :: placed)

/-- the source map of emissions placed from address zero on -/
def sourceMapOf (emissions : List Emission) : List (Nat × Int) := placeFrom 0 emissions []

/-- encode the instruction lines, in order, up to the first fault -/
def emit (lines : List Line) (labels : LabelTable) : Except Fault (List Emission) :=
  (lines.filterMap Line.instruction?).mapM fun (number, fields) => emitInstruction labels number fields

def encode (lines : List Line) (labels : LabelTable) : Except Fault Program :=
  (emit lines labels).map fun emissions =>
    { lines, labels
      words := emissions.flatMap Emission.words
      warnings := emissions.flatMap Emission.warnings
      sourceMap := sourceMapOf emissions }

/-- both passes over a source file; a label declared twice is found before anything else -/
def assemble (source : Text) : Except Fault Program :=
  match labelsOf (scan source) with
  | .error fault => .error fault
  | .ok labels => encode (scan source) labels

end TwoPass
