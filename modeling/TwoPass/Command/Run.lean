/-
The program: the commands with libraries of its own. What it prints is kept, and a file is replaced by way of a draft.

- `program`: the libraries that the program runs with
- `Outcome`: what can be seen of a command line when it has ended
- `run`, `runAll`: a command line over a tree of files, and several of them
-/
import TwoPass.Command.Arguments
import TwoPass.Command.Machine

namespace TwoPass.Command

/-! ## Dumps -/

def maxDumped : Nat := 1024

def symbolBlock (s : Symbol) : Text :=
  ascii "  asm.Symbol\x7b\n    Name:    " ++ s.name.quoted ++ ascii ",\n    Address: " ++ Text.decimal s.address
    ++ ascii ",\n  \x7d,\n"

def symbolDump (symbols : List Symbol) : Text :=
  if symbols.isEmpty then ascii "[]asm.Symbol\x7b\x7d\n"
  else if maxDumped < symbols.length then ascii "[]asm.Symbol\x7b...\x7d\n"
  else ascii "[]asm.Symbol\x7b\n" ++ symbols.flatMap symbolBlock ++ ascii "\x7d\n"

/-! ## Log lines -/

/-- the most bytes of a message that a log line has room for -/
def maxLogMessage : Nat := 14956

/-- a line feed behind a text that does not end in one -/
def withLineEnd (t : Text) : Text := if t.getLast? == some (byte '\n') then t else t ++ ascii "\n"

/-- a log line: a letter for its severity and the message, cut to the room there is -/
def logLine (severity : Char) (message : Text) : Text :=
  byte severity :: byte ' ' :: withLineEnd (message.take maxLogMessage)

/-- a record in the log; information is shown from log level one on -/
def LogRecord.text (level : Int) : LogRecord → Text
  | warning message => logLine 'W' message
  | information message => if 1 ≤ level then logLine 'I' message else []

/-! ## The program -/

def writeReason : Text := ascii "<os error>"

/-- the libraries of the program; what is printed is kept, the last text first -/
def program : Libraries (List Text) where
  readArguments arguments := ((readCommandLine arguments).mapError UsageError.message).map Prod.fst
  dump symbols := [symbolDump symbols]
  print shown text := (text :: shown, none)
  replace tree path text :=
    match tree.write path text with
    | some tree' => (tree', none)
    | none => (tree, some writeReason)

/-- what can be seen of a command: why it fails, if it does, what it has printed and logged, and the files -/
structure Outcome where
  error : Option CommandError
  output : Text
  log : Text
  tree : FileTree
deriving DecidableEq, Repr

namespace Outcome

def ofEnding (level : Int) (e : Ending (List Text)) : Outcome :=
  ⟨e.error, e.stdout.reverse.flatten, e.log.flatMap (LogRecord.text level), e.tree⟩

/-- the exit code: 0 for success -/
def exitCode (r : Outcome) : Nat := r.error.elim 0 CommandError.exitCode

/-- what is on the error stream: the log and, last, the failure -/
def errorStream (r : Outcome) : Text := r.log ++ r.error.elim [] CommandError.line

/-- was the command line at fault, so that the usage is shown -/
def showsUsage (r : Outcome) : Bool := r.exitCode == 2

end Outcome

/-- the log level that a command line sets -/
def logLevel (arguments : List Text) : Int := ((readCommandLine arguments).map Prod.snd).toOption.getD 0

def run (tree : FileTree) (arguments : List Text) : Outcome :=
  .ofEnding (logLevel arguments) (program.run ⟨tree, [], []⟩ arguments)

/-- the outcomes of command lines over a tree that they share -/
def runAll (tree : FileTree) (commands : List (List Text)) : List Outcome :=
  List.zipWith (fun arguments => .ofEnding (logLevel arguments)) commands (program.runAll [] tree commands)

end TwoPass.Command
