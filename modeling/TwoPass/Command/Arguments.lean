/-
Command lines: what a list of arguments asks for. Flags and operands may be mixed, and `--` ends the flags. The first
operand may be the word `disasm`; without it the request is to assemble.

- `splitVerb`: the verb of a command line, and the arguments without it
- `readArguments`: the settings and operands of arguments
- `readCommandLine`: the request and the log level, or what is wrong with the arguments
-/
import TwoPass.Command.Flag

namespace TwoPass.Command

inductive Verb where
  | assemble | disassemble
deriving DecidableEq, Repr

namespace Verb

def flags : Verb → List Flag
  | assemble => [.listing, .symbols, .strict, .help, .verbosity]
  | disassemble => [.help, .verbosity]

/-- the number of operands: source and image, or an image alone -/
def arity : Verb → Nat
  | assemble => 2
  | disassemble => 1

def flagNamed? (v : Verb) (name : Text) : Option Flag := v.flags.find? fun f => f.name == name

def flagLettered? (v : Verb) (letter : UInt8) : Option Flag := v.flags.find? fun f => f.letter? == some letter

end Verb

def disassembleWord : Text := ascii "disasm"

/-- the argument that ends the flags -/
def endOfFlags : Text := ascii "--"

def hasDash (t : Text) : Bool := t.head? == some (byte '-')

def hasDashes (t : Text) : Bool := endOfFlags.isPrefixOf t

def hasEquals (t : Text) : Bool := t.contains (byte '=')

/-! ## The verb -/

/-- is a name that of a switch; while the verb is not known only the switches that need one are -/
def isSwitchName (name : Text) : Bool := [Flag.listing, .symbols, .strict].any fun f => f.name == name

/-- while the verb is not known: does an argument look like a flag whose value is the next argument -/
def looksOpen (t : Text) : Bool :=
  !hasEquals t && ((hasDashes t && !isSwitchName (t.drop 2)) || (hasDash t && t.length == 2))

/-- the first argument that is neither a flag nor the value of one; a flag whose value is the last argument ends the
search -/
def firstWord? : List Text → Option Text
  | [] => none
  | t :: rest =>
    if t == endOfFlags then none
    else if looksOpen t then
      match rest with
      | _ :: next :: rest' => firstWord? (next :: rest')
      | _ => none
    else if !t.isEmpty && !hasDash t then some t
    else firstWord? rest

/-- the arguments without a word, where it first stands as neither a flag nor the value of one -/
def eraseWord (word : Text) : List Text → List Text
  | [] => []
  | t :: rest =>
    if t == endOfFlags then t :: rest
    else if looksOpen t then
      match rest with
      | value :: rest' => t :: value :: eraseWord word rest'
      | [] => [t]
    else if !hasDash t && t == word then rest
    else t :: eraseWord word rest

/-- the verb of a command line, and the arguments without it -/
def splitVerb (arguments : List Text) : Verb × List Text :=
  if firstWord? arguments == some disassembleWord then (.disassemble, eraseWord disassembleWord arguments)
  else (.assemble, arguments)

/-! ## Flags and operands -/

/-- the name in an argument with two dashes, and the value behind an equals sign if there is one -/
def splitEquals (t : Text) : Text × Option Text :=
  (t.takeWhile (· != byte '='), if hasEquals t then some ((t.dropWhile (· != byte '=')).drop 1) else none)

/-- settings, and whether the next argument has been used as a value -/
abbrev Setting := Settings × Bool

def readNamed (v : Verb) (argument : Text) (next : Option Text) (s : Settings) : Except FlagError Setting :=
  let body := argument.drop 2
  if body.head? == some (byte '-') || body.head? == some (byte '=') then .error (.badForm argument)
  else match v.flagNamed? (splitEquals body).1 with
    | none => .error (.unknownName (splitEquals body).1)
    | some flag =>
      match (splitEquals body).2 with
      | some value => (s.set flag value).map (·, false)
      | none =>
        if flag.isSwitch then (s.set flag (ascii "true")).map (·, false)
        else match next with
          | some value => (s.set flag value).map (·, true)
          | none => .error (.missingValue argument)

/-- letters that are meant for a test runner and passed over, as in `-test.v` -/
def isTestMark (letters : Text) : Bool := (ascii "test.").isPrefixOf letters

/-- read the letters behind one dash; a letter that takes a value takes the rest of them, after an equals sign or not -/
def readLetters (v : Verb) (next : Option Text) : Text → Settings → Except FlagError Setting
  | [], s => .ok (s, false)
  | letter :: rest, s =>
    if isTestMark (letter :: rest) then .ok (s, false)
    else match v.flagLettered? letter with
      | none => .error (.unknownLetter letter (letter :: rest))
      | some flag =>
        if rest.head? == some (byte '=') && 2 ≤ rest.length then (s.set flag (rest.drop 1)).map (·, false)
        else if flag.isSwitch then
          match s.set flag (ascii "true") with
          | .ok s' => readLetters v next rest s'
          | .error e => .error e
        else if !rest.isEmpty then (s.set flag rest).map (·, false)
        else match next with
          | some value => (s.set flag value).map (·, true)
          | none => .error (.missingLetterValue letter (letter :: rest))

/-- read an argument that begins with a dash and holds more -/
def readFlag (v : Verb) (argument : Text) (next : Option Text) (s : Settings) : Except FlagError Setting :=
  if hasDashes argument then readNamed v argument next s else readLetters v next (argument.drop 1) s

/-- is an argument an operand; a dash alone is one -/
def isOperand (t : Text) : Bool := !hasDash t || t.length == 1

/-- read arguments from left to right, passing over one that has been used as a value; `operands` holds those so far,
the last one first -/
def readFrom (v : Verb) : Bool → List Text → Settings → List Text → Except FlagError (Settings × List Text)
  | _, [], s, operands => .ok (s, operands.reverse)
  | true, _ :: rest, s, operands => readFrom v false rest s operands
  | false, t :: rest, s, operands =>
    if isOperand t then readFrom v false rest s (t :: operands)
    else if t == endOfFlags then .ok (s, operands.reverse ++ rest)
    else match readFlag v t rest.head? s with
      | .ok (s', used) => readFrom v used rest s' operands
      | .error e => .error e

def readArguments (v : Verb) (arguments : List Text) : Except FlagError (Settings × List Text) :=
  readFrom v false arguments .default []

/-! ## Requests -/

inductive UsageError where
  | flag (error : FlagError)
  | operandCount (expected received : Nat)
deriving DecidableEq, Repr

def UsageError.message : UsageError → Text
  | flag error => error.message
  | operandCount expected received =>
    ascii "accepts " ++ Text.decimal expected ++ ascii " arg(s), received " ++ Text.decimal received

/-- what the command line may be -/
def usageText : Text :=
  ascii "Usage:\n  [--listing] [--symbols] [--strict] [-v level] input.asm output.hex\n  disasm [-v level] image.hex\n"

def requestOf (v : Verb) (o : Options) (operands : List Text) : Except UsageError Request :=
  match v, operands with
  | .assemble, [input, output] => .ok (.assemble o input output)
  | .disassemble, [image] => .ok (.disassemble image)
  | v, operands => .error (.operandCount v.arity operands.length)

/-- the request of a command line, and the log level; help is given whatever the operands are -/
def readCommandLine (arguments : List Text) : Except UsageError (Request × Int) :=
  match readArguments (splitVerb arguments).1 (splitVerb arguments).2 with
  | .error e => .error (.flag e)
  | .ok (s, operands) =>
    if s.help then .ok (.notice usageText, s.verbosity)
    else (requestOf (splitVerb arguments).1 s.toOptions operands).map (·, s.verbosity)

end TwoPass.Command
