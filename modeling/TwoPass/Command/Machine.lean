/-
Commands over a tree of files, one after another. The libraries that a command line rests on are parameters: the reader
of arguments, the form of a dump, the standard output and the way in which a file is replaced.

- `Libraries`: what is taken from elsewhere
- `Libraries.assembleIn`, `Libraries.disassembleIn`: how a command ends, from any state
- `Libraries.run`, `Libraries.runAll`: a command line, and command lines that share a tree of files
-/
import TwoPass.Command.Effects

namespace TwoPass.Command

/-- the files, what has become of the standard output, and what has been logged -/
structure Machine (W : Type) where
  tree : FileTree
  stdout : W
  log : List LogRecord
deriving DecidableEq, Repr

/-- how a command ends: why it fails, if it does, and what it leaves behind -/
structure Ending (W : Type) extends Machine W where
  error : Option CommandError
deriving DecidableEq, Repr

/-- the libraries around the commands; the states of the standard output are of the type `W` -/
structure Libraries (W : Type) where
  /-- what a command line asks for, or the message that it is wrong -/
  readArguments : List Text → Except Text Request
  dump : List Symbol → List Text
  /-- print a text: the state of the output behind it, and the reason if that failed -/
  print : W → Text → W × Option Text
  /-- put a text in the place of a file: the files afterwards, and the reason if that failed -/
  replace : FileTree → Text → Text → FileTree × Option Text

namespace Libraries

variable {W : Type} (lib : Libraries W)

/-- the libraries as surroundings of a command -/
def surroundings : Surroundings (StateM (Machine W)) where
  readFile path := modifyGet fun s => (s.tree.read path, s)
  replaceFile path text := modifyGet fun s =>
    let (tree, reason?) := lib.replace s.tree path text
    (reason?, { s with tree })
  print text := modifyGet fun s =>
    let (stdout, reason?) := lib.print s.stdout text
    (reason?, { s with stdout })
  log records := modify fun s => { s with log := s.log ++ records }
  dump := lib.dump

/-- how a command ends that is begun in a state -/
def ending (command : StateM (Machine W) (Option CommandError)) (s : Machine W) : Ending W :=
  let (error, s') := command.run s
  { s' with error }

def assembleIn (s : Machine W) (o : Options) (input output : Text) : Ending W :=
  ending (assembleFile lib.surroundings o input output) s

def disassembleIn (s : Machine W) (path : Text) : Ending W := ending (disassembleFile lib.surroundings path) s

def perform (s : Machine W) (request : Request) : Ending W := ending (request.perform lib.surroundings) s

/-- run a command line -/
def run (s : Machine W) (arguments : List Text) : Ending W :=
  match lib.readArguments arguments with
  | .error message => { s with error := some (.usage message) }
  | .ok request => lib.perform s request

/-- run command lines one after another over a tree that they share; each has an output of its own and an empty log -/
def runAll (blank : W) : FileTree → List (List Text) → List (Ending W)
  | _, [] => []
  | tree, arguments :: rest =>
    let ending := lib.run ⟨tree, blank, []⟩ arguments
    ending :: runAll blank ending.tree rest

end Libraries

end TwoPass.Command
