/-
Flags of the command line: their names, their values, and what they set.

- `Settings.set`: the settings after a flag with a value
- `readSwitch?`, `levelOf`: the values of switches and of the log level
- `FlagError`: what can be wrong with a flag
-/
import TwoPass.Command.Effects

namespace TwoPass.Command

inductive Flag where
  | listing | symbols | strict | help | verbosity
deriving DecidableEq, Repr

namespace Flag

/-- the name after two dashes -/
def name : Flag → Text
  | listing => ascii "listing"
  | symbols => ascii "symbols"
  | strict => ascii "strict"
  | help => ascii "help"
  | verbosity => ascii "v"

/-- the letter after one dash, if there is one -/
def letter? : Flag → Option UInt8
  | help => some (byte 'h')
  | verbosity => some (byte 'v')
  | _ => none

/-- switches are on when they are given without a value -/
def isSwitch : Flag → Bool
  | verbosity => false
  | _ => true

/-- what messages call a flag -/
def label (f : Flag) : Text :=
  match f.letter? with
  | some letter => byte '-' :: letter :: ascii ", --" ++ f.name
  | none => ascii "--" ++ f.name

end Flag

inductive ValueError where
  | notSwitch
  | notLevel (error : NumeralError)
deriving DecidableEq, Repr

def ValueError.message (value : Text) : ValueError → Text
  | notSwitch => ascii "strconv.ParseBool: parsing " ++ value.quoted ++ ascii ": invalid syntax"
  | notLevel .malformed => ascii "strconv.Atoi: parsing " ++ value.quoted ++ ascii ": invalid syntax"
  | notLevel .outOfRange => ascii "strconv.Atoi: parsing " ++ value.quoted ++ ascii ": value out of range"

inductive FlagError where
  /-- two dashes that no name can follow -/
  | badForm (argument : Text)
  | unknownName (name : Text)
  /-- no flag has this letter, the first of those given -/
  | unknownLetter (letter : UInt8) (letters : Text)
  | missingValue (argument : Text)
  | missingLetterValue (letter : UInt8) (letters : Text)
  | invalidValue (flag : Flag) (value : Text) (error : ValueError)
deriving DecidableEq, Repr

def FlagError.message : FlagError → Text
  | badForm argument => ascii "bad flag syntax: " ++ argument
  | unknownName name => ascii "unknown flag: --" ++ name
  | unknownLetter letter letters =>
    ascii "unknown shorthand flag: " ++ Text.quotedByte letter ++ ascii " in -" ++ letters
  | missingValue argument => ascii "flag needs an argument: " ++ argument
  | missingLetterValue letter letters =>
    ascii "flag needs an argument: " ++ Text.quotedByte letter ++ ascii " in -" ++ letters
  | invalidValue flag value error =>
    ascii "invalid argument " ++ value.quoted ++ ascii " for " ++ flag.label.quoted ++ ascii " flag: "
      ++ error.message value

/-! ## Values -/

def onWords : List Text := ["1", "t", "T", "TRUE", "true", "True"].map ascii

def offWords : List Text := ["0", "f", "F", "FALSE", "false", "False"].map ascii

/-- the value of a switch -/
def readSwitch? (t : Text) : Option Bool :=
  if onWords.contains t then some true
  else if offWords.contains t then some false
  else none

/-- the log level that an integer sets: its low 32 bits, with sign -/
def levelOf (v : Int) : Int := v.bmod 4294967296

/-! ## Settings -/

/-- what flags set: the options of an assembly, whether help is asked for, and the log level -/
structure Settings extends Options where
  help : Bool
  verbosity : Int
deriving DecidableEq, Repr

namespace Settings

def default : Settings := ⟨⟨false, false, false⟩, false, 0⟩

def setSwitch (s : Settings) (flag : Flag) (on : Bool) : Settings :=
  match flag with
  | .listing => { s with listing := on }
  | .symbols => { s with symbols := on }
  | .strict => { s with strict := on }
  | .help => { s with help := on }
  | .verbosity => s

/-- the settings after a flag with a value -/
def set (s : Settings) (flag : Flag) (value : Text) : Except FlagError Settings :=
  if flag.isSwitch then
    match readSwitch? value with
    | some on => .ok (s.setSwitch flag on)
    | none => .error (.invalidValue flag value .notSwitch)
  else
    match readInt64 10 value with
    | .ok v => .ok { s with verbosity := levelOf v }
    | .error e => .error (.invalidValue flag value (.notLevel e))

end Settings

end TwoPass.Command
