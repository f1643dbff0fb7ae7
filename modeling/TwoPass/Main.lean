/-
The command line: the commands in the surroundings of a process, with its files and streams.
-/
import TwoPass.Command.Run

namespace TwoPass.Command

def toBytes (t : Text) : ByteArray := ByteArray.mk t.toArray

def ofString (s : String) : Text := s.toUTF8.toList

/-- a path as the system wants it; arguments come from the system, so their bytes are well formed -/
def toPath (t : Text) : String := String.fromUTF8! (toBytes t)

def put (stream : IO.FS.Stream) (t : Text) : IO Unit := stream.write (toBytes t)

/-- the error that messages show for one of the system -/
def fileError : IO.Error → FileError
  | .inappropriateType _ _ details => if details == "not a directory" then .notFolder else .isFolder
  | .invalidArgument _ _ details => if details == "name too long" then .nameTooLong else .noSuchFile
  | _ => .noSuchFile

def readFile (path : Text) : IO (Except FileError Text) := do
  try
    let bytes ← IO.FS.readBinFile (toPath path)
    return .ok bytes.toList
  catch e => return .error (fileError e)

/-- write a new file and put it in the place of an old one; if that fails, no file is left behind -/
def writeAndRename (draft path : String) (t : Text) : IO Unit := do
  let file ← IO.FS.Handle.mk draft .writeNew
  try
    file.write (toBytes t)
    file.flush
    IO.FS.rename draft path
  catch e =>
    IO.FS.removeFile draft
    throw e

/-- the path of a draft: the shortest one to the file, a mark and a number filled up to `draftExtra` bytes -/
def draftPath (path : Text) (number : Nat) : String :=
  let digits := toString number
  toPath (Place.ofPath path).path ++ "." ++ "".pushn '0' (draftExtra - 1 - digits.length) ++ digits

/-- replace a file in one step, or give the reason why it cannot be done -/
def replaceFile (path t : Text) : IO (Option Text) := do
  let draft := draftPath path (← IO.monoNanosNow)
  try
    writeAndRename draft (toPath path) t
    return none
  catch e => return some (ofString (toString e))

/-- print a text, or give the reason why it cannot be done -/
def printTo (stream : IO.FS.Stream) (t : Text) : IO (Option Text) := do
  try
    put stream t
    stream.flush
    return none
  catch e => return some (ofString (toString e))

/-- the surroundings of a process, at a log level -/
def process (level : Int) : Surroundings IO where
  readFile := readFile
  replaceFile := replaceFile
  print t := do printTo (← IO.getStdout) t
  log records := do put (← IO.getStderr) (records.flatMap (LogRecord.text level))
  dump := program.dump

def report : Option CommandError → IO UInt32
  | none => return 0
  | some e => do
    put (← IO.getStderr) e.line
    if e.exitCode == 2 then put (← IO.getStderr) usageText
    return UInt32.ofNat e.exitCode

end TwoPass.Command

/-- run the command line; the exit code is 0, 1 for a failure and 2 for bad arguments -/
def main (arguments : List String) : IO UInt32 := do
  match TwoPass.Command.readCommandLine (arguments.map TwoPass.Command.ofString) with
  | .error e => TwoPass.Command.report (some (.usage e.message))
  | .ok (request, level) => TwoPass.Command.report (← request.perform (TwoPass.Command.process level))
