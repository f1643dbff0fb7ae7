/-
Words from the text of their disassembly. Data statements do not assemble, so the way back from a disassembly with data
is not through the assembler: each line is read by itself, an instruction by its words and a data statement by its
numeral.

- `statementWords`, `restore`: the words of one statement, and of a text line by line
- `Content.statementWords_head`: the statement of an entry gives the words of the entry
- `restore_sourceOf`: the words of a disassembly can be read off its text
- `disassembly_injective`: so no two lists of words have the same text
- `emit_sourceOf_of_data`: the second pass stops at the first data statement
- `data_stops_reassembly`: so a disassembly with data fails to assemble, on the line of its first data
-/
import Mathlib.Tactic
import TwoPass.Proofs.Partition

namespace TwoPass

/-- the words of a statement: those that an instruction emits without labels, or the word of a data statement -/
def statementWords (fields : List Text) : List Word :=
  if mnemonicField fields = ascii ".WORD" then
    ((operandFields fields).filterMap number?).map fun n => UInt16.ofNat n.toNat
  else
    match emitInstruction .empty 0 fields with
    | .ok emission => emission.words
    | .error _ => []

/-- the words of a text, line by line -/
def restore (source : Text) : List Word := (scan source).flatMap fun line => statementWords line.token.fields

namespace Content

/-- a content that can stand at the head of some words is sound or data -/
theorem sound_or_data (w : Word) (rest : List Word) : (head w rest).Sound ∨ head w rest = .data w := by
  cases hm : (head w rest).mnemonic? with
  | none => exact Or.inr (head_eq_data hm)
  | some m => exact Or.inl (sound_of_mnemonic? w rest (by rw [hm]; rfl))

theorem Sound.name_ne {c : Content} (h : c.Sound) : mnemonicField c.fields ≠ ascii ".WORD" := by
  have hnames : ∀ m : Mnemonic, m.name ≠ ascii ".WORD" := by
    intro m
    cases m <;> decide
  cases h with
  | @single m registers held size => exact hnames m
  | @double m registers v held size fits => exact hnames m

theorem Sound.statementWords_fields {c : Content} (h : c.Sound) : statementWords c.fields = c.words := by
  rw [statementWords, if_neg h.name_ne, h.emitInstruction_fields]

theorem statementWords_data (w : Word) : statementWords (data w).fields = [w] := by
  have hnumber : number? (ascii "0x" ++ wordText w) = some (w.toNat : Int) := number?_hex 4 w.toNat
  have hname : mnemonicField (data w).fields = ascii ".WORD" := rfl
  rw [statementWords, if_pos hname]
  simp [fields, operandFields, hnumber]

/-- **The statement of what stands at the head of some words gives those words back**, instruction or data -/
theorem statementWords_head (w : Word) (rest : List Word) :
    statementWords (head w rest).fields = (head w rest).words := by
  rcases sound_or_data w rest with h | h
  · exact h.statementWords_fields
  · rw [h]
    exact statementWords_data w

end Content

theorem statementWords_of_mem_disassemble {words : List Word} {e : Entry} (h : e ∈ disassemble words) :
    statementWords e.content.fields = e.words := by
  obtain ⟨w, rest, _, _, hcontent⟩ := content_of_mem_readEntries h
  rw [Entry.words, hcontent]
  exact Content.statementWords_head w rest

/-- **The words of a disassembly can be read off its text** -/
theorem restore_sourceOf (words : List Word) : restore (sourceOf (disassemble words)) = words := by
  have hline : ∀ p ∈ (disassemble words).zipIdx 1, statementWords (p.1.line p.2).token.fields = p.1.words :=
    fun p hp => statementWords_of_mem_disassemble (List.fst_mem_of_mem_zipIdx hp)
  rw [restore, scan_sourceOf, List.flatMap_append, List.flatMap_map]
  calc _ = ((disassemble words).zipIdx 1).flatMap (fun p => p.1.words) ++ [] :=
        congrArg₂ _ (List.flatMap_congr hline) rfl
    _ = (disassemble words).flatMap Entry.words := by
        conv_rhs => rw [← List.zipIdx_map_fst 1 (disassemble words), List.flatMap_map]
        exact List.append_nil _
    _ = words := words_disassemble words

/-- **Disassembly loses nothing.** Two lists of words, code or data, have the same text only if they are the same. -/
theorem disassembly_injective (words words' : List Word) :
    sourceOf (disassemble words) = sourceOf (disassemble words') ↔ words = words' := by
  constructor
  · intro h
    rw [← restore_sourceOf words, h, restore_sourceOf]
  · rintro rfl
    rfl

/-! ## Data does not assemble -/

theorem readInstruction_data (labels : LabelTable) (w : Word) :
    readInstruction labels (Content.data w).fields = .error (.unknownMnemonic (ascii ".WORD")) := by
  have hname : Mnemonic.ofName? (ascii ".WORD") = none := by decide
  simp [readInstruction, Content.fields, mnemonicField, hname]

theorem emitInstruction_data (labels : LabelTable) (number : Int) (w : Word) :
    emitInstruction labels number (Content.data w).fields = .error ⟨number, .unknownMnemonic (ascii ".WORD")⟩ := by
  rw [emitInstruction, readInstruction_data]

theorem Content.eq_data_of_mnemonic? {c : Content} (h : c.mnemonic? = none) : ∃ w, c = .data w := by
  cases c with
  | instruction m registers value => cases h
  | data w => exact ⟨w, rfl⟩

/-- the second pass stops at the first entry that is data, if the entries before it are sound -/
theorem emit_sourceOf_of_data {entries : List Entry} {k : Nat} {e : Entry} {w : Word} (hk : entries[k]? = some e)
    (hdata : e.content = .data w) (hbefore : ∀ e' ∈ entries.take k, e'.content.Sound) :
    emit (scan (sourceOf entries)) .empty = .error ⟨k + 1, .unknownMnemonic (ascii ".WORD")⟩ := by
  rw [emit, instructions_sourceOf, mapM_eq_error_iff]
  refine ⟨k, ((k + 1 : Nat), e.content.fields), ?_, ?_, ?_⟩
  · rw [List.getElem?_map, List.getElem?_zipIdx, hk]
    simp [Nat.add_comm]
  · rw [hdata]
    exact emitInstruction_data .empty (k + 1) w
  · intro line hline
    rw [← List.map_take] at hline
    obtain ⟨⟨e', number⟩, hmem, rfl⟩ := List.mem_map.1 hline
    have hmem' : e' ∈ entries.take k := by
      rw [← List.zipIdx_map_fst 1 entries, ← List.map_take]
      exact List.mem_map_of_mem hmem
    exact ⟨_, (hbefore e' hmem').emitInstruction_fields number⟩

theorem assemble_sourceOf_of_data {entries : List Entry} {k : Nat} {e : Entry} {w : Word} (hk : entries[k]? = some e)
    (hdata : e.content = .data w) (hbefore : ∀ e' ∈ entries.take k, e'.content.Sound) :
    assemble (sourceOf entries) = .error ⟨k + 1, .unknownMnemonic (ascii ".WORD")⟩ := by
  simp only [assemble, labelsOf_sourceOf, encode, emit_sourceOf_of_data hk hdata hbefore]
  rfl

/-- the place of the first entry that is data -/
def firstData (words : List Word) : Nat := (disassemble words).findIdx fun e => e.mnemonic?.isNone

/-- the first entry that is data, and the entries before it -/
theorem firstData_spec {words : List Word} (h : ∃ e ∈ disassemble words, e.mnemonic? = none) :
    ∃ e w, (disassemble words)[firstData words]? = some e ∧ e.content = .data w ∧
      ∀ e' ∈ (disassemble words).take (firstData words), e'.content.Sound := by
  obtain ⟨e, hmem, hnone⟩ := h
  have hlt : firstData words < (disassemble words).length :=
    List.findIdx_lt_length_of_exists ⟨e, hmem, by simp [hnone]⟩
  have hfirst : (disassemble words)[firstData words].mnemonic?.isNone = true := List.findIdx_getElem (w := hlt)
  obtain ⟨w, hw⟩ := Content.eq_data_of_mnemonic? (Option.isNone_iff_eq_none.1 hfirst)
  refine ⟨_, w, List.getElem?_eq_getElem hlt, hw, fun e' he' => ?_⟩
  obtain ⟨i, hi, rfl⟩ := List.mem_take_iff_getElem.1 he'
  have hsome := List.not_of_lt_findIdx (lt_of_lt_of_le hi (Nat.min_le_left _ _))
  exact sound_of_mem_readEntries (List.getElem_mem _) (by simpa [Option.isSome_iff_ne_none] using hsome)

/-- **A disassembly with data does not assemble.** The fault is an unknown mnemonic, on the line of the first entry that
is data. So assembling the text of a disassembly never gives other words than those that were disassembled. -/
theorem data_stops_reassembly (words : List Word) :
    ((∃ e ∈ disassemble words, e.mnemonic? = none) →
      ∃ fault, assemble (sourceOf (disassemble words)) = .error fault ∧ fault.cause.kind = ascii "unknown mnemonic" ∧
        fault.line = firstData words + 1 ∧
        fault.message = ascii "unknown mnemonic '.WORD' on line " ++ Text.decimal (firstData words + 1)) ∧
    ∀ p, assemble (sourceOf (disassemble words)) = .ok p → p.words = words := by
  have hstops : (∃ e ∈ disassemble words, e.mnemonic? = none) → assemble (sourceOf (disassemble words)) =
      .error ⟨firstData words + 1, .unknownMnemonic (ascii ".WORD")⟩ := by
    intro hdata
    obtain ⟨e, w, hk, hcontent, hbefore⟩ := firstData_spec hdata
    exact assemble_sourceOf_of_data hk hcontent hbefore
  refine ⟨fun hdata => ⟨_, hstops hdata, rfl, rfl, rfl⟩, fun p hp => ?_⟩
  by_cases hdata : ∃ e ∈ disassemble words, e.mnemonic? = none
  · rw [hstops hdata] at hp
    cases hp
  · have hvalid : ∀ e ∈ disassemble words, e.mnemonic?.isSome := by
      intro e he
      rw [Option.isSome_iff_ne_none]
      exact fun hnone => hdata ⟨e, he, hnone⟩
    obtain ⟨q, hq, hwords, -⟩ := assemble_disassemble hvalid
    rw [hq] at hp
    cases hp
    exact hwords

/-- an instruction, a jump to a place that is too far, and a jump that is near enough -/
def farJump : List Word := [0xF000, 0x8000, 0x0100, 0x8000, 0xFF]

/-- the text fails on its second line, not on the third, which is data too -/
theorem data_stops_reassembly_jump :
    (disassemble farJump).map Entry.mnemonic? = [some .halt, none, none, some .jmp] ∧
    ∃ fault, assemble (sourceOf (disassemble farJump)) = .error fault ∧ fault.line = 2 ∧
      fault.message = ascii "unknown mnemonic '.WORD' on line 2" := by
  have hdata : ∃ e ∈ disassemble farJump, e.mnemonic? = none := ⟨⟨1, .data 0x8000⟩, by decide, rfl⟩
  obtain ⟨fault, herror, _, hline, hmessage⟩ := (data_stops_reassembly farJump).1 hdata
  have hfirst : firstData farJump = 1 := by decide
  rw [hfirst] at hline hmessage
  exact ⟨by decide, fault, herror, hline, hmessage.trans (by decide)⟩

end TwoPass
