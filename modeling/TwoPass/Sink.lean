/-
Bounded output: a place for bytes that takes a given number of them and then fails. Output arrives in several writes;
after the first one that fails no other is made.

- `Sink.write`: one write, of which as much is taken as there is room for
- `Sink.writeAll`: writes in order, up to the first that fails
- `imageWrites`, `disassemblyWrites`, `listingWrites`: the writes of each kind of output
-/
import TwoPass.Assembly.Listing
import TwoPass.Disassembly
import TwoPass.HexImage

namespace TwoPass

/-- a place for bytes: the room that is left, and what each write has stored, the last one first -/
structure Sink where
  room : Nat
  stored : List Text
deriving DecidableEq, Repr

inductive SinkError where
  | limitReached
deriving DecidableEq, Repr

def SinkError.message : SinkError → Text
  | limitReached => ascii "limit reached"

namespace Sink

/-- an empty place with room for a number of bytes -/
def ofLimit (limit : Nat) : Sink := ⟨limit, []⟩

def written (s : Sink) : Text := s.stored.reverse.flatten

/-- one write: what fits is stored, and the write fails if anything is left -/
def write (s : Sink) (t : Text) : Sink × Option SinkError :=
  (⟨s.room - t.length, t.take s.room :: s.stored⟩, if t.length ≤ s.room then none else some .limitReached)

/-- writes in order, up to the first that fails -/
def writeAll (s : Sink) : List Text → Sink × Option SinkError
  | [] => (s, none)
  | t :: rest =>
    match s.write t with
    | (s', none) => s'.writeAll rest
    | (s', some e) => (s', some e)

end Sink

/-- cut a text into blocks of a size, the last of which may be shorter -/
def blocks (size : Nat) (t : Text) : List Text :=
  (List.range ((t.length + size - 1) / size)).map fun i => (t.drop (i * size)).take size

/-- images are written in blocks of this size -/
def imageBlock : Nat := 4096

def imageWrites (words : List Word) : List Text := blocks imageBlock (HexImage.write words)

/-- the writes of a disassembly: one for each row -/
def disassemblyWrites (words : List Word) : List Text := disassemblyRows (disassemble words)

def listingWrites (p : Program) : List Text := [p.listing]

end TwoPass
