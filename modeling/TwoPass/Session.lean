/-
A working session: a source, its labels, the program made from it, words, a hex image and a disassembly, and the actions
that make one from another. An action that fails leaves the session as it was.

- `Session.step`: one action and its answer
- `Session.run`: the answers to a list of actions
-/
import TwoPass.Assembly.Listing
import TwoPass.Disassembly
import TwoPass.HexImage

namespace TwoPass

structure Session where
  source : Text
  labels : LabelTable
  program : Option Program
  words : List Word
  image : Text
  entries : List Entry
deriving DecidableEq, Repr

inductive Action where
  | setSource (text : Text)
  | appendSource (text : Text)
  | resolve
  | forgetLabels
  | address (name : Text)
  | encode
  | assemble
  /-- the fault that a warning of the program would be -/
  | strict (index : Int)
  | setWords (words : List Word)
  | writeImage
  | setImage (text : Text)
  | appendImage (text : Text)
  | readImage
  | disassemble
  | disassemblyListing
  /-- the disassembly becomes the source -/
  | disassemblySource
deriving DecidableEq, Repr

inductive Answer where
  | lineCount (n : Nat)
  | byteCount (n : Nat)
  | labels (table : LabelTable)
  | address (address : Option Nat)
  | program (program : Program)
  | fault (fault : Fault)
  | noProgram
  | noWarning
  | words (words : List Word)
  | text (text : Text)
  | imageError (error : ImageError)
  | entries (entries : List Entry)
deriving DecidableEq, Repr

namespace Session

def start : Session := ⟨[], .empty, none, [], [], []⟩

def withSource (s : Session) (source : Text) : Session × Answer :=
  ({ s with source := source }, .lineCount (scan source).length)

def withImage (s : Session) (image : Text) : Session × Answer :=
  ({ s with image := image }, .byteCount image.length)

/-- take over a program and its words, if there is one -/
def withProgram (s : Session) : Except Fault Program → Session × Answer
  | .ok p => ({ s with program := some p, words := p.words }, .program p)
  | .error fault => (s, .fault fault)

/-- the warning at an index -/
def warningAt? (p : Program) (index : Int) : Option Warning :=
  if index < 0 then none else p.warnings[index.toNat]?

def step (s : Session) : Action → Session × Answer
  | .setSource text => s.withSource text
  | .appendSource text => s.withSource (s.source ++ text)
  | .resolve =>
    match labelsOf (scan s.source) with
    | .ok table => ({ s with labels := table }, .labels table)
    | .error fault => (s, .fault fault)
  | .forgetLabels => ({ s with labels := .empty }, .labels .empty)
  | .address name => (s, .address (s.labels.address? name))
  | .encode => s.withProgram (TwoPass.encode (scan s.source) s.labels)
  | .assemble => s.withProgram (TwoPass.assemble s.source)
  | .strict index =>
    match s.program with
    | none => (s, .noProgram)
    | some p =>
      match warningAt? p index with
      | some warning => (s, .fault warning.fault)
      | none => (s, .noWarning)
  | .setWords words => ({ s with words := words }, .words words)
  | .writeImage => ({ s with image := HexImage.write s.words }, .text (HexImage.write s.words))
  | .setImage text => s.withImage text
  | .appendImage text => s.withImage (s.image ++ text)
  | .readImage =>
    match HexImage.read s.image with
    | .ok words => ({ s with words := words }, .words words)
    | .error error => (s, .imageError error)
  | .disassemble =>
    ({ s with entries := TwoPass.disassemble s.words }, .entries (TwoPass.disassemble s.words))
  | .disassemblyListing => (s, .text (disassemblyRows s.entries).flatten)
  | .disassemblySource => ({ s with source := sourceOf s.entries }, .text (sourceOf s.entries))

/-- do actions one after another; `answers` holds the answers so far, the last one first -/
def runFrom : Session → List Action → List Answer → Session × List Answer
  | s, [], answers => (s, answers.reverse)
  | s, action :: rest, answers => runFrom (s.step action).1 rest ((s.step action).2 :: answers)

/-- do actions one after another, from the start -/
def run (actions : List Action) : Session × List Answer := runFrom start actions []

end Session

end TwoPass
