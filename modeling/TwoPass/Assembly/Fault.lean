/-
Faults that stop assembly. Each has a cause, which determines its kind and its wording, and the number of the line it
was found on.
-/
import TwoPass.Isa.Mnemonic
import TwoPass.Text.Numeral

namespace TwoPass

/-- how a numeral is written -/
inductive Radix where
  | decimal | hex
deriving DecidableEq, Repr

def Radix.name : Radix → Text
  | decimal => ascii "decimal"
  | hex => ascii "hex"

inductive Cause where
  /-- a label is declared a second time -/
  | duplicateLabel (name : Text)
  /-- there is no such instruction -/
  | unknownMnemonic (name : Text)
  /-- an instruction has more or fewer operands than it takes -/
  | operandCount (mnemonic : Mnemonic) (found : Nat)
  /-- an operand should be a register and is none; positions count from one -/
  | invalidRegister (operand : Operand) (token : Text) (position : Nat) (mnemonic : Mnemonic)
  /-- an operand is neither a label nor a numeral -/
  | invalidNumber (radix : Radix) (token : Text)
  /-- an operand is a name that no line declares -/
  | undefinedLabel (name : Text)
  /-- a value does not fit and may not be cut down -/
  | truncated (role : Text) (value : Int) (kept : UInt8)
deriving DecidableEq, Repr

namespace Cause

def kind : Cause → Text
  | duplicateLabel _ => ascii "duplicate label"
  | unknownMnemonic _ => ascii "unknown mnemonic"
  | operandCount _ _ => ascii "wrong operand count"
  | invalidRegister _ _ _ _ => ascii "invalid register"
  | invalidNumber _ _ => ascii "invalid number"
  | undefinedLabel _ => ascii "undefined label"
  | truncated _ _ _ => ascii "value truncated"

/-- a token as messages show it -/
def shown (token : Text) : Text := byte '\'' :: token ++ [byte '\'']

def message : Cause → Text
  | duplicateLabel name => ascii "duplicate label " ++ shown name
  | unknownMnemonic name => ascii "unknown mnemonic " ++ shown name
  | operandCount m found =>
    if m.operands.isEmpty then m.name ++ ascii " expects 0 operands, got " ++ Text.decimal found
    else m.name ++ ascii " expects " ++ Text.decimal m.operands.length ++ ascii " operand(s) (" ++ m.operandNames
      ++ ascii "), got " ++ Text.decimal found
  | invalidRegister operand token position m =>
    ascii "invalid " ++ operand.role ++ byte ' ' :: shown token ++ ascii " in operand " ++ Text.decimal position
      ++ ascii " of " ++ m.name
  | invalidNumber radix token => ascii "invalid " ++ radix.name ++ ascii " number " ++ shown token
  | undefinedLabel name => ascii "undefined label " ++ shown name
  | truncated role value kept =>
    role ++ byte ' ' :: Text.decimalInt value ++ ascii " does not fit in 8 bits (would be truncated to "
      ++ Text.decimal kept.toNat ++ ascii ")"

end Cause

structure Fault where
  line : Int
  cause : Cause
deriving DecidableEq, Repr

/-- the wording of a fault, which ends with the line number -/
def Fault.message (f : Fault) : Text := f.cause.message ++ ascii " on line " ++ Text.decimalInt f.line

end TwoPass
