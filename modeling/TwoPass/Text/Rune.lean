/-
Reading characters out of bytes (UTF-8). A text is read from left to right; a byte that starts no well-formed character
is a rune of its own without a code point, so every text can be read and no byte is lost.

- `runes`: the runes of a text
- `Rune.head`: the rune at the head of a text
- `inRanges`: classes of code points
-/
import TwoPass.Text.Basic

namespace TwoPass

/-- one character of a text: its code point, if the bytes form one, and the bytes themselves -/
structure Rune where
  code : Option Nat
  bytes : Text
deriving DecidableEq, Repr

/-- the bytes that may follow the first byte of a character -/
def isContinuation (b : UInt8) : Bool := 0x80 ≤ b && b < 0xC0

/-- the six bits that a continuation byte adds -/
def continuationBits (b : UInt8) : Nat := b.toNat % 64

/-- scalar values: code points that are no surrogates -/
def isScalar (n : Nat) : Bool := n < 0xD800 || (0xE000 ≤ n && n < 0x110000)

/-- the code point written in two bytes, which must need both -/
def code2? (a b : UInt8) : Option Nat :=
  let n := a.toNat % 32 * 64 + continuationBits b
  if isContinuation b && 0x80 ≤ n then some n else none

/-- the code point written in three bytes, which must be a scalar value that needs all of them -/
def code3? (a b c : UInt8) : Option Nat :=
  let n := (a.toNat % 16 * 64 + continuationBits b) * 64 + continuationBits c
  if isContinuation b && isContinuation c && 0x800 ≤ n && isScalar n then some n else none

/-- the code point written in four bytes, which must be a scalar value that needs all of them -/
def code4? (a b c d : UInt8) : Option Nat :=
  let n := ((a.toNat % 8 * 64 + continuationBits b) * 64 + continuationBits c) * 64 + continuationBits d
  if isContinuation b && isContinuation c && isContinuation d && 0x10000 ≤ n && isScalar n then some n else none

namespace Rune

def stray (a : UInt8) : Rune := ⟨none, [a]⟩

/-- the rune of the given bytes if they have a code point, else their first byte alone -/
def ofCode? (code : Option Nat) (a : UInt8) (more : Text) : Rune :=
  if code.isSome then ⟨code, a :: more⟩ else stray a

/-- the rune at the head of `a :: rest`; the first byte tells how many bytes the character has -/
def head (a : UInt8) (rest : Text) : Rune :=
  if a < 0x80 then ⟨some a.toNat, [a]⟩
  else if a < 0xC0 then stray a
  else if a < 0xE0 then
    match rest with
    | b :: _ => ofCode? (code2? a b) a [b]
    | _ => stray a
  else if a < 0xF0 then
    match rest with
    | b :: c :: _ => ofCode? (code3? a b c) a [b, c]
    | _ => stray a
  else if a < 0xF8 then
    match rest with
    | b :: c :: d :: _ => ofCode? (code4? a b c d) a [b, c, d]
    | _ => stray a
  else stray a

/-- does the code point of a rune satisfy a test; a stray byte satisfies none -/
def satisfies (test : Nat → Bool) (r : Rune) : Bool := r.code.any test

end Rune

/-- read runes, passing over the bytes that the rune before has used; `done` holds the runes read, the last one first -/
def readRunes : Nat → Text → List Rune → List Rune
  | _, [], done => done.reverse
  | used + 1, _ :: rest, done => readRunes used rest done
  | 0, b :: rest, done =>
    readRunes ((Rune.head b rest).bytes.length - 1) rest (Rune.head b rest :: done)

/-- the runes of a text, from left to right -/
def runes (t : Text) : List Rune := readRunes 0 t []

def bytesOf (rs : List Rune) : Text := rs.flatMap Rune.bytes

/-! ## Classes of code points -/

/-- a range of code points, both ends included -/
abbrev CodeRange := Nat × Nat

def inRanges (ranges : List CodeRange) (n : Nat) : Bool := ranges.any fun r => r.1 ≤ n && n ≤ r.2

/-! ## The runes of a text are the text -/

@[simp] theorem bytesOf_nil : bytesOf [] = [] := rfl

@[simp] theorem bytesOf_cons (r : Rune) (rs : List Rune) : bytesOf (r :: rs) = r.bytes ++ bytesOf rs := by
  simp [bytesOf]

@[simp] theorem bytesOf_append (rs ss : List Rune) : bytesOf (rs ++ ss) = bytesOf rs ++ bytesOf ss := by
  simp [bytesOf]

theorem Rune.ofCode?_bytes (code : Option Nat) (a : UInt8) (more tail : Text) :
    ∃ used, (Rune.ofCode? code a more).bytes = a :: used ∧ used <+: more ++ tail := by
  unfold Rune.ofCode?
  split
  · exact ⟨more, rfl, List.prefix_append more tail⟩
  · exact ⟨[], rfl, List.nil_prefix⟩

/-- a rune is a non-empty start of the text it was read from -/
theorem Rune.head_bytes (a : UInt8) (rest : Text) :
    ∃ used, (Rune.head a rest).bytes = a :: used ∧ used <+: rest := by
  have alone : ∃ used, [a] = a :: used ∧ used <+: rest := ⟨[], rfl, List.nil_prefix⟩
  unfold Rune.head
  repeat' split
  all_goals first
    | exact alone
    | exact Rune.ofCode?_bytes _ a _ _

theorem bytesOf_readRunes (used : Nat) (t : Text) (done : List Rune) :
    bytesOf (readRunes used t done) = bytesOf done.reverse ++ t.drop used := by
  induction t generalizing used done with
  | nil => simp [readRunes]
  | cons b rest ih =>
    cases used with
    | succ used => simp [readRunes, ih]
    | zero =>
      obtain ⟨more, hbytes, tail, rfl⟩ := Rune.head_bytes b rest
      simp [readRunes, ih, hbytes]

theorem bytesOf_runes (t : Text) : bytesOf (runes t) = t := by
  simp [runes, bytesOf_readRunes]

end TwoPass
