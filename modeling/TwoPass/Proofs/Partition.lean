/-
Disassembly as a loop over addresses. The loop reads words by index and takes slices of them; here every such access is
checked and fails if it is out of range. None ever is, and every turn of the loop moves on by a word at least.

- `entryAt?`, `sweep?`: one turn of the loop and the loop itself, with checked accesses
- `entryAt?_eq`, `sweep?_eq`: a turn that begins inside the words succeeds, and so does the loop
- `Content.mnemonic?_head`: which words are taken for an instruction
- `disassembly_partitions`: the entries of any words cover them, and each is an instruction exactly if one stands there
-/
import Mathlib.Tactic
import TwoPass.Proofs.Images
import TwoPass.Proofs.Reassembly

namespace TwoPass

/-! ## Checked accesses -/

/-- an entry as others see it: its address and words, its instruction if it is one, and its statement -/
structure Shown where
  address : Nat
  words : List Word
  mnemonic? : Option Mnemonic
  text : Text
deriving DecidableEq, Repr

def Entry.shown (e : Entry) : Shown := ⟨e.address, e.words, e.mnemonic?, e.text⟩

/-- the words from one index up to another, if both are in range -/
def slice? (words : List Word) (first last : Nat) : Option (List Word) :=
  if first ≤ last ∧ last ≤ words.length then some ((words.take last).drop first) else none

/-- the texts of operands; `next` is the index of the register for the first register slot among them, `value?` the
access to the word of a value -/
def operandsAt? (registers : List Word) (value? : Option Word) : List Operand → Nat → Option (List Text)
  | [], _ => some []
  | o :: operands, next =>
    if o.isRegister then
      registers[next]?.bind fun r => (operandsAt? registers value? operands (next + 1)).map (o.text r 0 :: ·)
    else value?.bind fun v => (operandsAt? registers value? operands next).map (o.text 0 v :: ·)

/-- the instruction at an index, with all of its words in range -/
def instructionAt? (words : List Word) (pc : Nat) (m : Mnemonic) (registers : List Word) : Option Shown :=
  (operandsAt? registers words[pc + 1]? m.operands 0).bind fun operands =>
    (slice? words pc (pc + m.size)).map fun own => ⟨pc, own, some m, plainStatement (m.name :: operands)⟩

/-- one turn: the entry at an index -/
def entryAt? (words : List Word) (pc : Nat) : Option Shown :=
  words[pc]?.bind fun w =>
    (slice? words pc (pc + 1)).bind fun own =>
      let raw : Shown := ⟨pc, own, none, ascii ".WORD 0x" ++ wordText w⟩
      match canonical? w with
      | none => some raw
      | some (m, registers) =>
        if words.length < pc + m.size then some raw
        else if m.size = 2 then
          words[pc + 1]?.bind fun v => if fitsByte v then instructionAt? words pc m registers else some raw
        else instructionAt? words pc m registers

/-- the loop from an index on, for a number of turns at most; each turn moves on by the words of its entry -/
def sweep? (words : List Word) : Nat → Nat → Option (List Shown)
  | turns, pc =>
    if words.length ≤ pc then some []
    else match turns with
      | 0 => none
      | turns + 1 =>
        (entryAt? words pc).bind fun e => (sweep? words turns (pc + e.words.length)).map (e :: ·)

/-! ## No access is out of range -/

section
variable {α : Type} {l rest : List α} {a : α} {i : Nat} (h : l.drop i = a :: rest)
include h

theorem getElem?_of_drop : l[i]? = some a := by
  rw [← List.head?_drop, h, List.head?_cons]

theorem getElem?_succ_of_drop : l[i + 1]? = rest.head? := by
  rw [← List.getElem?_drop, h, List.head?_eq_getElem?, List.getElem?_cons_succ]

end

theorem slice?_of_drop {words front rest : List Word} {pc : Nat} (h : words.drop pc = front ++ rest)
    (hpc : pc ≤ words.length) : slice? words pc (pc + front.length) = some front := by
  have hlen := congrArg List.length h
  rw [List.length_drop, List.length_append] at hlen
  rw [slice?, if_pos ⟨Nat.le_add_right _ _, by omega⟩, List.drop_take, Nat.add_sub_cancel_left, h, List.take_left]

/-- there is a register for each register slot, and a value if a slot takes one -/
theorem operandsAt?_eq {registers : List Word} {value? : Option Word} {v : Word} (operands : List Operand) (next : Nat)
    (hregisters : (registers.drop next).length = (operands.filter Operand.isRegister).length)
    (hvalue : ∀ o ∈ operands, o.isRegister = false → value? = some v) :
    operandsAt? registers value? operands next = some (Content.operandTexts operands (registers.drop next) v) := by
  induction operands generalizing next with
  | nil => rfl
  | cons o operands ih =>
    have hvalue' : ∀ o' ∈ operands, o'.isRegister = false → value? = some v :=
      fun o' ho' => hvalue o' (List.mem_cons_of_mem o ho')
    rw [operandsAt?, Content.operandTexts_cons]
    cases ho : o.isRegister with
    | true =>
      have hkind : o.kind = .register := by simpa [Operand.isRegister] using ho
      rw [List.filter_cons_of_pos ho, List.length_cons] at hregisters
      obtain ⟨r, rest, hdrop⟩ := List.exists_cons_of_length_eq_add_one hregisters
      have htail : registers.drop (next + 1) = rest := by rw [← List.tail_drop, hdrop, List.tail_cons]
      have hrest : (registers.drop (next + 1)).length = (operands.filter Operand.isRegister).length := by
        rw [hdrop, List.length_cons] at hregisters
        rw [htail]
        omega
      rw [getElem?_of_drop hdrop, hdrop, if_pos rfl, Option.bind_some, ih (next + 1) hrest hvalue', htail]
      simp [Operand.left, Operand.text, ho, hkind]
    | false =>
      rw [List.filter_cons_of_neg (by simp [ho])] at hregisters
      rw [hvalue o List.mem_cons_self ho, if_neg Bool.false_ne_true, Option.bind_some,
        ← hvalue o List.mem_cons_self ho, ih next hregisters hvalue']
      cases hk : o.kind with
      | register => simp [Operand.isRegister, hk] at ho
      | immediate | address => simp [Operand.left, Operand.text, ho, hk]

theorem isRegister_of_size_eq_one {m : Mnemonic} (h : m.size = 1) : ∀ o ∈ m.operands, o.isRegister = true := by
  cases m <;> revert h <;> decide

/-- an instruction that stands at an index is read whole -/
theorem instructionAt?_eq {m : Mnemonic} {registers : List Word} {value : Option Word} {words rest : List Word}
    {pc : Nat} (hsound : (Content.instruction m registers value).Sound) (hpc : pc ≤ words.length)
    (hwords : words.drop pc = (Content.instruction m registers value).words ++ rest) :
    instructionAt? words pc m registers = some (Entry.shown ⟨pc, .instruction m registers value⟩) := by
  have hslice := slice?_of_drop hwords hpc
  cases hsound with
  | single held size =>
    have hoperands : operandsAt? registers words[pc + 1]? m.operands 0 = _ :=
      operandsAt?_eq (v := 0) m.operands 0 (length_of_held held) fun o ho hslot => by
        simp [isRegister_of_size_eq_one size o ho] at hslot
    have hown : slice? words pc (pc + m.size) = some [m.encode registers] := by rw [size]; exact hslice
    simp only [instructionAt?, hoperands, hown, Option.bind_some, Option.map_some]
    rfl
  | @double _ _ v held size _ =>
    have hv : words[pc + 1]? = some v := getElem?_succ_of_drop hwords
    have hoperands : operandsAt? registers words[pc + 1]? m.operands 0 = _ :=
      operandsAt?_eq m.operands 0 (length_of_held held) fun _ _ _ => hv
    have hown : slice? words pc (pc + m.size) = some [m.encode registers, v] := by rw [size]; exact hslice
    simp only [instructionAt?, hoperands, hown, Option.bind_some, Option.map_some]
    rfl

/-- **A turn that begins inside the words reads no word outside them**, and finds the entry that stands there -/
theorem entryAt?_eq {words rest : List Word} {w : Word} {pc : Nat} (h : words.drop pc = w :: rest) :
    entryAt? words pc = some (Entry.shown ⟨pc, Content.head w rest⟩) := by
  have hlen := congrArg List.length h
  rw [List.length_drop, List.length_cons] at hlen
  have hpc : pc ≤ words.length := by omega
  have hw := getElem?_of_drop h
  have hslice : slice? words pc (pc + [w].length) = some [w] := slice?_of_drop h hpc
  rw [List.length_singleton] at hslice
  simp only [entryAt?, Content.head, hw, hslice, Option.bind_some]
  cases hcanonical : canonical? w with
  | none => rfl
  | some found =>
    obtain ⟨m, registers⟩ := found
    obtain ⟨rfl, hheld⟩ := canonical?_eq_some hcanonical
    rcases m.size_eq_one_or_two with hsize | hsize
    · have hread := instructionAt?_eq (.single hheld hsize) hpc h
      have hroom : ¬ words.length < pc + 1 := by omega
      simpa [hsize, hroom] using hread
    · cases rest with
      | nil =>
        have hroom : words.length < pc + 2 := by simp at hlen; omega
        simp only [hsize, hroom, if_true]
        rfl
      | cons v rest =>
        have hroom : ¬ words.length < pc + 2 := by simp at hlen; omega
        have hv : words[pc + 1]? = some v := getElem?_succ_of_drop h
        cases hfits : fitsByte v with
        | true =>
          have hread := instructionAt?_eq (.double hheld hsize hfits) hpc h
          simpa [hsize, hroom, hv, hfits] using hread
        | false =>
          simp only [hsize, hroom, hv, hfits, if_false, if_true, Option.bind_some]
          rfl

/-- reading from an address on: the entry there, and what is read behind its words -/
theorem readEntries_drop {words rest : List Word} {w : Word} {pc : Nat} (h : words.drop pc = w :: rest) :
    readEntries pc 0 (words.drop pc) [] =
      ⟨pc, Content.head w rest⟩ :: readEntries (pc + (Content.head w rest).words.length) 0
        (words.drop (pc + (Content.head w rest).words.length)) [] := by
  obtain ⟨used, hwords, _⟩ := Content.head_words w rest
  have hnext : words.drop (pc + (used.length + 1)) = rest.drop used.length := by
    rw [← List.drop_drop, h, List.drop_succ_cons]
  rw [h, readEntries_cons, readEntries_used, hwords, List.length_cons, Nat.add_sub_cancel, hnext, Nat.add_assoc,
    Nat.add_comm 1]

/-- **The loop ends, and reads no word out of range.** Each turn moves on by a word at least, so as many turns as there
are words left are enough. -/
theorem sweep?_eq {words : List Word} {turns pc : Nat} (h : words.length ≤ pc + turns) :
    sweep? words turns pc = some ((readEntries pc 0 (words.drop pc) []).map Entry.shown) := by
  induction turns generalizing pc with
  | zero =>
    have hend : words.length ≤ pc := h
    rw [sweep?, if_pos hend, List.drop_eq_nil_of_le hend]
    rfl
  | succ turns ih =>
    rw [sweep?]
    split_ifs with hend
    · rw [List.drop_eq_nil_of_le hend]
      rfl
    · obtain ⟨w, rest, hdrop⟩ : ∃ w rest, words.drop pc = w :: rest :=
        List.exists_cons_of_ne_nil (by simpa using hend)
      obtain ⟨used, hwords, _⟩ := Content.head_words w rest
      have hrest := @ih (pc + (Content.head w rest).words.length) (by rw [hwords, List.length_cons]; omega)
      rw [readEntries_drop hdrop, entryAt?_eq hdrop, Option.bind_some, List.map_cons]
      exact congrArg (Option.map _) hrest

/-! ## What stands at an address -/

/-- an instruction stands at an address: a word that the assembler writes for it and, if it takes two words, a byte
behind that word -/
def StandsAt (m : Mnemonic) (words : List Word) (address : Nat) : Prop :=
  ∃ registers : List Word, (∀ r ∈ registers, r.toNat < 8) ∧ words[address]? = some (m.encode registers) ∧
    (m.size = 2 → ∃ v, words[address + 1]? = some v ∧ v.toNat ≤ 0xFF)

namespace Content

theorem Sound.lt_of_mem {m : Mnemonic} {registers : List Word} {value : Option Word}
    (h : (Content.instruction m registers value).Sound) : ∀ r ∈ registers, r.toNat < 8 := by
  have held : m.held registers = registers := by cases h <;> assumption
  intro r hr
  rw [← held] at hr
  exact Mnemonic.lt_of_mem_fill hr

theorem Sound.length_words {c : Content} (h : c.Sound) {m : Mnemonic} (hm : c.mnemonic? = some m) :
    c.words.length = m.size := by
  cases h with
  | single held size =>
    cases hm
    exact size.symm
  | double held size fits =>
    cases hm
    exact size.symm

/-- **Which words are taken for an instruction**: an instruction is found exactly where it stands -/
theorem mnemonic?_head {words rest : List Word} {w : Word} {address : Nat} (h : words.drop address = w :: rest)
    {m : Mnemonic} : (head w rest).mnemonic? = some m ↔ StandsAt m words address := by
  have hw := getElem?_of_drop h
  have hnext := getElem?_succ_of_drop h
  constructor
  · intro hm
    have hsound := sound_of_mnemonic? w rest (by rw [hm]; rfl)
    obtain ⟨used, hwords, hused⟩ := head_words w rest
    generalize head w rest = c at hm hsound hwords
    cases hsound with
    | @single m' registers held size =>
      obtain rfl : m' = m := Option.some.inj hm
      obtain ⟨rfl, _⟩ := List.cons.inj hwords
      exact ⟨registers, (Sound.single held size).lt_of_mem, hw, fun htwo => by omega⟩
    | @double m' registers v held size fits =>
      obtain rfl : m' = m := Option.some.inj hm
      obtain ⟨rfl, rfl⟩ := List.cons.inj hwords
      obtain ⟨more, rfl⟩ := hused
      refine ⟨registers, (Sound.double held size fits).lt_of_mem, hw, fun _ => ⟨v, hnext, ?_⟩⟩
      exact UInt16.le_iff_toNat_le.1 (of_decide_eq_true fits)
  · rintro ⟨registers, _, hword, hvalue⟩
    obtain rfl : w = m.encode registers := Option.some.inj (hw.symm.trans hword)
    rcases m.size_eq_one_or_two with hsize | hsize
    · simp [head, canonical?_encode, hsize, mnemonic?]
    · obtain ⟨v, hv, hle⟩ := hvalue hsize
      rw [hnext, List.head?_eq_some_iff] at hv
      obtain ⟨more, rfl⟩ := hv
      have hfits : fitsByte v = true := decide_eq_true (UInt16.le_iff_toNat_le.2 hle)
      simp [head, canonical?_encode, hsize, hfits, mnemonic?]

/-- what is no instruction is one word of data -/
theorem head_eq_data {w : Word} {rest : List Word} (h : (head w rest).mnemonic? = none) : head w rest = .data w := by
  obtain ⟨used, hwords, _⟩ := head_words w rest
  generalize head w rest = c at h hwords
  cases c with
  | instruction m registers value => cases h
  | data w' =>
    obtain ⟨rfl, _⟩ := List.cons.inj hwords
    rfl

end Content

/-- what an entry of a disassembly is: an instruction that stands at its address, with as many words as the instruction
takes, or one word of data, written in four digits -/
structure Entry.Fits (e : Entry) (words : List Word) : Prop where
  instruction (m : Mnemonic) : e.mnemonic? = some m ↔ StandsAt m words e.address
  size (m : Mnemonic) : e.mnemonic? = some m → e.words.length = m.size
  data : e.mnemonic? = none → ∃ w digits, words[e.address]? = some w ∧ e.words = [w] ∧
    e.text = ascii ".WORD 0x" ++ digits ∧ HexImage.IsWordLine digits w

theorem fits_of_mem_disassemble {words : List Word} {e : Entry} (h : e ∈ disassemble words) : e.Fits words := by
  obtain ⟨w, rest, _, hdrop, hcontent⟩ := content_of_mem_readEntries h
  rw [Nat.sub_zero] at hdrop
  have hmnemonic : e.mnemonic? = (Content.head w rest).mnemonic? := by rw [Entry.mnemonic?, hcontent]
  refine ⟨fun m => ?_, fun m hm => ?_, fun hnone => ?_⟩
  · rw [hmnemonic]
    exact Content.mnemonic?_head hdrop
  · exact (sound_of_mem_readEntries h (by rw [hm]; rfl)).length_words hm
  · rw [hmnemonic] at hnone
    have hdata := Content.head_eq_data hnone
    refine ⟨w, wordText w, getElem?_of_drop hdrop, ?_, ?_, HexImage.isWordLine_wordText w⟩
    · rw [Entry.words, hcontent, hdata, Content.words]
    · rw [Entry.text, hcontent, hdata, Content.text]

theorem length_words_of_mem_disassemble {words : List Word} {e : Entry} (h : e ∈ disassemble words) :
    e.words.length = 1 ∨ e.words.length = 2 := by
  have hfits := fits_of_mem_disassemble h
  cases hm : e.mnemonic? with
  | none =>
    obtain ⟨w, _, _, hwords, _⟩ := hfits.data hm
    exact Or.inl (by rw [hwords, List.length_singleton])
  | some m =>
    rw [hfits.size m hm]
    exact m.size_eq_one_or_two

/-- **Disassembly partitions any words.** The loop ends after as many turns as there are words at most, with no access
out of range. Its entries hold the words one behind the other, one or two each, and the address of an entry is the
number of words before it. An entry is an instruction exactly if one stands at its address, and then has as many words
as the instruction takes; any other is one word, written as data in four digits. -/
theorem disassembly_partitions (words : List Word) :
    (∀ turns, words.length ≤ turns → sweep? words turns 0 = some ((disassemble words).map Entry.shown)) ∧
    (disassemble words).flatMap Entry.words = words ∧
    ∀ (i : Nat) (e : Entry), (disassemble words)[i]? = some e →
      (e.words.length = 1 ∨ e.words.length = 2) ∧
      e.address = (((disassemble words).take i).flatMap Entry.words).length ∧ e.Fits words := by
  refine ⟨fun turns h => ?_, words_disassemble words, fun i e he => ?_⟩
  · exact sweep?_eq (by omega)
  · have hmem := List.mem_of_getElem? he
    exact ⟨length_words_of_mem_disassemble hmem, address_disassemble he, fits_of_mem_disassemble hmem⟩

/-- a reserved bit, a value word that is too wide, a jump, and a first word with nothing behind it -/
def mixedWords : List Word := [0x0001, 0x8000, 0x0100, 0x8000, 0xFF, 0x5200]

/-- three turns fail for want of turns; six are enough, and the last word is data -/
theorem disassembly_partitions_mixed :
    sweep? mixedWords 3 0 = none ∧ sweep? mixedWords 6 0 = some ((disassemble mixedWords).map Entry.shown) ∧
    (disassemble mixedWords).map Entry.mnemonic? = [none, none, none, some .jmp, none] ∧
    ∃ e, (disassemble mixedWords)[4]? = some e ∧ e.address = 5 ∧ ¬ StandsAt .ldi mixedWords 5 ∧
      e.text = ascii ".WORD 0x5200" := by
  obtain ⟨hloop, _, hentries⟩ := disassembly_partitions mixedWords
  obtain ⟨e, he, hnone, htext⟩ : ∃ e, (disassemble mixedWords)[4]? = some e ∧ e.mnemonic? = none ∧
      e.text = ascii ".WORD 0x5200" := ⟨_, rfl, rfl, by decide⟩
  obtain ⟨_, haddress, hfits⟩ := hentries 4 e he
  have hfive : e.address = 5 := haddress
  refine ⟨by decide, hloop 6 (by decide), by decide, e, he, hfive, ?_, htext⟩
  rw [← hfive, ← hfits.instruction, hnone]
  nofun

end TwoPass
