/-
Reading words back as instructions. A word that is no instruction, or that the assembler would have written otherwise,
is shown as data.

- `disassemble`: the entries of a list of words, which cover it without a gap
- `Entry.text`: the statement of an entry
- `disassemblyRows`, `sourceOf`: entries as rows with addresses, and as source
-/
import TwoPass.Isa.Word
import TwoPass.Source

namespace TwoPass

inductive Content where
  /-- an instruction with its register numbers, and the value word if it has one -/
  | instruction (mnemonic : Mnemonic) (registers : List Word) (value : Option Word)
  /-- a word that is no instruction -/
  | data (word : Word)
deriving DecidableEq, Repr

namespace Content

def words : Content → List Word
  | instruction m registers value => m.encode registers :: value.toList
  | data w => [w]

def mnemonic? : Content → Option Mnemonic
  | instruction m _ _ => some m
  | data _ => none

/-- operands as source text: registers by number, constants in decimal, addresses in hexadecimal -/
def operandTexts : List Operand → List Word → Word → List Text
  | [], _, _ => []
  | o :: rest, registers, value =>
    match o.kind with
    | .register =>
      (byte 'R' :: Text.decimal (registers.headD 0).toNat) :: operandTexts rest registers.tail value
    | .immediate => Text.decimal value.toNat :: operandTexts rest registers value
    | .address => (ascii "0x" ++ Text.hexPadded 2 value.toNat) :: operandTexts rest registers value

def text : Content → Text
  | instruction m registers value => plainStatement (m.name :: operandTexts m.operands registers (value.getD 0))
  | data w => ascii ".WORD 0x" ++ wordText w

end Content

structure Entry where
  address : Nat
  content : Content
deriving DecidableEq, Repr

/-- the instruction of a word, if the word is the one that the assembler writes for it -/
def canonical? (w : Word) : Option (Mnemonic × List Word) :=
  (decode w).filter fun (m, registers) => m.encode registers == w

/-- the words of value operands hold eight bits -/
def fitsByte (w : Word) : Bool := w ≤ 0xFF

/-- the content at the head of `w :: rest` -/
def Content.head (w : Word) (rest : List Word) : Content :=
  match canonical? w with
  | none => .data w
  | some (m, registers) =>
    if m.size == 1 then .instruction m registers none
    else match rest with
      | value :: _ => if fitsByte value then .instruction m registers (some value) else .data w
      | [] => .data w

/-- read entries, passing over the words that the entry before has used; `done` holds the entries, the last one first -/
def readEntries : Nat → Nat → List Word → List Entry → List Entry
  | _, _, [], done => done.reverse
  | address, used + 1, _ :: rest, done => readEntries (address + 1) used rest done
  | address, 0, w :: rest, done =>
    readEntries (address + 1) ((Content.head w rest).words.length - 1) rest (⟨address, Content.head w rest⟩ :: done)

/-- the entries of a list of words that begins at address zero -/
def disassemble (words : List Word) : List Entry := readEntries 0 0 words []

namespace Entry

def words (e : Entry) : List Word := e.content.words

/-- the instruction of an entry; data has none -/
def mnemonic? (e : Entry) : Option Mnemonic := e.content.mnemonic?

def text (e : Entry) : Text := e.content.text

def row (e : Entry) : Text :=
  addressColumn e.address ++ ascii "  " ++ wordsColumn e.words ++ ascii "  " ++ e.text ++ ascii "\n"

end Entry

def disassemblyRows (entries : List Entry) : List Text := entries.map Entry.row

/-- the statements of a disassembly, one a line -/
def sourceOf (entries : List Entry) : Text := entries.flatMap fun e => e.text ++ ascii "\n"

/-! ## Nothing is lost -/

/-- the words of the first content are the first words -/
theorem Content.head_words (w : Word) (rest : List Word) :
    ∃ used, (Content.head w rest).words = w :: used ∧ used <+: rest := by
  unfold Content.head
  split
  · exact ⟨[], rfl, List.nil_prefix⟩
  · rename_i m registers h
    have hw : m.encode registers = w := by
      have hcanonical := (Option.filter_eq_some_iff.1 h).2
      simpa using hcanonical
    split
    · exact ⟨[], by simp [Content.words, hw], List.nil_prefix⟩
    · split
      · rename_i value rest
        split
        · exact ⟨[value], by simp [Content.words, hw], rest, rfl⟩
        · exact ⟨[], rfl, List.nil_prefix⟩
      · exact ⟨[], rfl, List.nil_prefix⟩

/-- entries hold the words they were read from -/
theorem words_readEntries (address used : Nat) (words : List Word) (done : List Entry) :
    (readEntries address used words done).flatMap Entry.words =
      done.reverse.flatMap Entry.words ++ words.drop used := by
  induction words generalizing address used done with
  | nil => simp [readEntries]
  | cons w rest ih =>
    cases used with
    | succ used => simp [readEntries, ih]
    | zero =>
      obtain ⟨more, hwords, tail, rfl⟩ := Content.head_words w rest
      simp [readEntries, ih, hwords, Entry.words]

end TwoPass
