/-
Commands as sequences of effects. A command reads a file, logs, prints and replaces a file. How these are done is left
to the surroundings it runs in, and so is the form in which labels are dumped.

- `Surroundings`: what a command asks of the system and the libraries around it
- `assembleFile`, `disassembleFile`: the two commands, effect by effect
- `CommandError`: why a command fails
-/
import TwoPass.Assembly.Listing
import TwoPass.Command.FileTree
import TwoPass.Disassembly
import TwoPass.HexImage
import TwoPass.Text.Quoted

namespace TwoPass.Command

/-- what an assembly can be asked for: to print the listing or the labels, and to tolerate no value that is cut -/
structure Options where
  listing : Bool
  symbols : Bool
  strict : Bool
deriving DecidableEq, Repr

inductive Request where
  | assemble (options : Options) (input output : Text)
  | disassemble (image : Text)
  /-- a text that the reader of the command line has of its own, such as help -/
  | notice (text : Text)
deriving DecidableEq, Repr

/-- what is logged; information is for those who ask for it -/
inductive LogRecord where
  | warning (message : Text)
  | information (message : Text)
deriving DecidableEq, Repr

/-! ## Errors -/

inductive CommandError where
  /-- the command line cannot be understood -/
  | usage (message : Text)
  | readInput (path : Text) (error : FileError)
  | assembly (path : Text) (fault : Fault)
  /-- something could not be printed -/
  | print (reason : Text)
  /-- the image could not be written -/
  | writeOutput (path reason : Text)
  | readImage (path : Text) (error : FileError)
  | image (error : ImageError)
deriving DecidableEq, Repr

namespace CommandError

def message : CommandError → Text
  | usage message => message
  | readInput path error => ascii "failed to read input file " ++ path.quoted ++ ascii ": " ++ error.message path
  | assembly path fault => path ++ ascii ": " ++ fault.message
  | print reason => reason
  | writeOutput path reason =>
    ascii "failed to write output file " ++ path.quoted ++ ascii ": " ++ imageMessage reason
  | readImage path error => imageMessage (error.message path)
  | image error => error.message

/-- the exit code of a failure: 2 for a bad command line, else 1 -/
def exitCode : CommandError → Nat
  | usage _ => 2
  | _ => 1

/-- the last line on the error stream -/
def line (e : CommandError) : Text := ascii "error: " ++ e.message ++ ascii "\n"

end CommandError

/-! ## Surroundings -/

/-- what a command asks of the system and the libraries around it; a reason tells why something could not be done -/
structure Surroundings (m : Type → Type) where
  readFile : Text → m (Except FileError Text)
  replaceFile : Text → Text → m (Option Text)
  print : Text → m (Option Text)
  log : List LogRecord → m Unit
  /-- the texts that are printed, one after another, to dump labels -/
  dump : List Symbol → List Text

section
variable {m : Type → Type} [Monad m] (io : Surroundings m)

/-- print texts one after another, up to the first that cannot be printed -/
def Surroundings.printAll : List Text → m (Option Text)
  | [] => return none
  | t :: rest => do
    match ← io.print t with
    | some reason => return some reason
    | none => Surroundings.printAll rest

/-! ## Assembling -/

/-- the fault that a program ends in if no value may be cut -/
def strictFault? (o : Options) (p : Program) : Option Fault :=
  if o.strict then p.warnings.head?.map Warning.fault else none

def warningRecords (input : Text) (p : Program) : List LogRecord :=
  p.warnings.map fun w => .warning (input ++ ascii ": " ++ w.text)

/-- how large a program is -/
def sizeRecord (input : Text) (p : Program) : LogRecord :=
  .information (input ++ ascii ": " ++ Text.decimal p.labels.size ++ ascii " labels, " ++ Text.decimal p.words.length
    ++ ascii " words")

/-- the line that reports success -/
def successLine (p : Program) (output : Text) : Text :=
  ascii "Wrote " ++ Text.decimal p.words.length ++ ascii " words to " ++ output ++ ascii "\n"

/-- write the image of a program, and report; it does not matter if the report is lost -/
def writeImage (output : Text) (p : Program) : m (Option CommandError) := do
  match ← io.replaceFile output (HexImage.write p.words) with
  | some reason => return some (.writeOutput output reason)
  | none =>
    let _ ← io.print (successLine p output)
    return none

/-- print what is asked for of a program, the labels before the listing, and write its image -/
def deliver (o : Options) (output : Text) (p : Program) : m (Option CommandError) := do
  match ← io.printAll (if o.symbols then io.dump p.labels.symbols else []) with
  | some reason => return some (.print reason)
  | none =>
    match ← io.printAll (if o.listing then [p.listing] else []) with
    | some reason => return some (.print reason)
    | none => writeImage io output p

/-- assemble one file into another -/
def assembleFile (o : Options) (input output : Text) : m (Option CommandError) := do
  match ← io.readFile input with
  | .error e => return some (.readInput input e)
  | .ok source =>
    match assemble source with
    | .error fault => return some (.assembly input fault)
    | .ok p =>
      io.log (warningRecords input p)
      match strictFault? o p with
      | some fault => return some (.assembly input fault)
      | none =>
        io.log [sizeRecord input p]
        deliver io o output p

/-! ## Disassembling -/

/-- print the disassembly of an image -/
def disassembleFile (path : Text) : m (Option CommandError) := do
  match ← io.readFile path with
  | .error e => return some (.readImage path e)
  | .ok image =>
    match HexImage.read image with
    | .error e => return some (.image e)
    | .ok words =>
      io.log [.information (path ++ ascii ": " ++ Text.decimal words.length ++ ascii " words")]
      let reason? ← io.printAll (disassemblyRows (disassemble words))
      return reason?.map .print

def Request.perform : Request → m (Option CommandError)
  | .assemble o input output => assembleFile io o input output
  | .disassemble image => disassembleFile io image
  | .notice text => do
    let _ ← io.print text
    return none

end

end TwoPass.Command
