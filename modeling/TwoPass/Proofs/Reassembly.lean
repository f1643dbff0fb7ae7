/-
Assembling what was disassembled. The statements of a disassembly are read back operand by operand, with no labels and
no warnings, and their words are the words that were disassembled.

- `emitInstruction_fields`: the fields of a sound content emit the words of the content
- `assemble_sourceOf`: the source of sound entries assembles to the words of the entries
- `reassembly`: word lists that some source assembles to are those that disassemble into instructions only, and
  disassembling and assembling them changes nothing
-/
import Mathlib.Tactic
import TwoPass.Proofs.Addresses
import TwoPass.Proofs.Alignment
import TwoPass.Proofs.Statements

namespace TwoPass

/-! ## Reading operands back -/

theorem register?_decimal {r : Word} (h : r.toNat < 8) : register? (byte 'R' :: Text.decimal r.toNat) = some r := by
  have hnames : ∀ n, n < 8 → register? (byte 'R' :: Text.decimal n) = some (UInt16.ofNat n) := by decide
  rw [hnames r.toNat h, UInt16.ofNat_toNat]

theorem value_of_number? {token : Text} {n : Int} (h : number? token = some n) : value .empty token = .ok n := by
  simp [value, LabelTable.address?, LabelTable.empty, h]

/-- the text of one operand, from the register number or the value that it takes -/
def Operand.text (o : Operand) (r v : Word) : Text :=
  match o.kind with
  | .register => byte 'R' :: Text.decimal r.toNat
  | .immediate => Text.decimal v.toNat
  | .address => ascii "0x" ++ Text.hexPadded 2 v.toNat

/-- the registers left for the operands behind one operand -/
def Operand.left (o : Operand) (registers : List Word) : List Word := if o.isRegister then registers.tail else registers

/-- the argument that one operand was written from -/
def Operand.argument (o : Operand) (r v : Word) : Argument :=
  if o.isRegister then .register r else .value o.role v.toNat

/-- the arguments that operands were written from -/
def argumentsOf : List Operand → List Word → Word → List Argument
  | [], _, _ => []
  | o :: operands, registers, v => o.argument (registers.headD 0) v :: argumentsOf operands (o.left registers) v

theorem Content.operandTexts_cons (o : Operand) (operands : List Operand) (registers : List Word) (v : Word) :
    operandTexts (o :: operands) registers v =
      o.text (registers.headD 0) v :: operandTexts operands (o.left registers) v := by
  cases hk : o.kind <;> simp [operandTexts, Operand.text, Operand.left, Operand.isRegister, hk]

theorem Content.length_operandTexts (operands : List Operand) (registers : List Word) (v : Word) :
    (operandTexts operands registers v).length = operands.length := by
  induction operands generalizing registers with
  | nil => rfl
  | cons o operands ih => rw [operandTexts_cons, List.length_cons, List.length_cons, ih]

theorem headD_lt {registers : List Word} (h : ∀ r ∈ registers, r.toNat < 8) : (registers.headD 0).toNat < 8 := by
  cases registers with
  | nil => decide
  | cons r registers => exact h r List.mem_cons_self

theorem Operand.left_subset (o : Operand) (registers : List Word) : o.left registers ⊆ registers := by
  unfold left
  split
  · exact List.tail_subset registers
  · exact List.Subset.refl registers

/-- one operand is read as the argument that it was written from -/
theorem readOperand_text (m : Mnemonic) (o : Operand) {r : Word} (v : Word) (position : Nat) (hr : r.toNat < 8) :
    readOperand .empty m o (o.text r v) position = .ok (o.argument r v) := by
  cases hk : o.kind with
  | register => simp [readOperand, Operand.text, Operand.argument, Operand.isRegister, hk, register?_decimal hr]
  | immediate =>
    simp [readOperand, Operand.text, Operand.argument, Operand.isRegister, hk, value_of_number? (number?_decimal _),
      Except.map]
  | address =>
    simp [readOperand, Operand.text, Operand.argument, Operand.isRegister, hk, value_of_number? (number?_hex 2 _),
      Except.map]

/-- operands are read as the arguments that they were written from -/
theorem readOperand_operandTexts (m : Mnemonic) (operands : List Operand) (registers : List Word) (v : Word)
    (position : Nat) (hlt : ∀ r ∈ registers, r.toNat < 8) :
    List.Forall₂ (fun (s : (Operand × Text) × Nat) a => readOperand .empty m s.1.1 s.1.2 s.2 = .ok a)
      ((operands.zip (Content.operandTexts operands registers v)).zipIdx position)
      (argumentsOf operands registers v) := by
  induction operands generalizing registers position with
  | nil => exact .nil
  | cons o operands ih =>
    rw [Content.operandTexts_cons, List.zip_cons_cons, List.zipIdx_cons, argumentsOf]
    exact .cons (readOperand_text m o v position (headD_lt hlt))
      (ih (o.left registers) (position + 1) fun r hr => hlt r (o.left_subset registers hr))

/-- the registers of the arguments, if there is one for each register slot -/
theorem registers_argumentsOf (operands : List Operand) (registers : List Word) (v : Word)
    (hlen : registers.length = (operands.filter Operand.isRegister).length) :
    (argumentsOf operands registers v).filterMap Argument.register? = registers := by
  induction operands generalizing registers with
  | nil => exact (List.eq_nil_of_length_eq_zero hlen).symm
  | cons o operands ih =>
    rw [argumentsOf]
    cases ho : o.isRegister with
    | false =>
      rw [List.filter_cons_of_neg (by simp [ho])] at hlen
      simpa [Operand.argument, Operand.left, ho, List.filterMap_cons] using ih registers hlen
    | true =>
      rw [List.filter_cons_of_pos ho, List.length_cons] at hlen
      obtain ⟨r, registers, rfl⟩ := List.exists_cons_of_length_eq_add_one hlen
      simpa [Operand.argument, Operand.left, ho, List.filterMap_cons] using ih registers (by simpa using hlen)

theorem values_argumentsOf (operands : List Operand) (registers : List Word) (v : Word) :
    ∀ x ∈ (argumentsOf operands registers v).filterMap Argument.value?, x = (v.toNat : Int) := by
  induction operands generalizing registers with
  | nil => simp [argumentsOf]
  | cons o operands ih =>
    cases ho : o.isRegister <;> simpa [argumentsOf, Operand.argument, Operand.left, ho] using ih _

/-! ## Reading statements back -/

/-- a statement is read as its instruction, with the arguments that it was written from -/
theorem readInstruction_operandTexts {m : Mnemonic} {registers : List Word} (v : Word)
    (hlt : ∀ r ∈ registers, r.toNat < 8) :
    readInstruction .empty (m.name :: Content.operandTexts m.operands registers v) =
      .ok (m, argumentsOf m.operands registers v) :=
  readInstruction_eq_ok_iff.2 ⟨Mnemonic.ofName?_name m, Content.length_operandTexts _ _ _,
    mapM_eq_ok_iff.2 (readOperand_operandTexts m _ _ v 1 hlt)⟩

theorem length_of_held {m : Mnemonic} {registers : List Word} (h : m.held registers = registers) :
    registers.length = (m.operands.filter Operand.isRegister).length := by
  rw [← h, Mnemonic.held, Mnemonic.length_fill, length_fields]

/-- a statement with registers that fill the fields, and a value that fits a byte, emits its instruction word and a value
word if the instruction takes one -/
theorem emitInstruction_operandTexts {m : Mnemonic} {registers : List Word} (held : m.held registers = registers)
    {v : Word} (fits : v.toNat < 256) (number : Int) :
    emitInstruction .empty number (m.name :: Content.operandTexts m.operands registers v) =
      .ok ⟨number, m.encode registers :: List.replicate (m.size - 1) v, []⟩ := by
  have hlt : ∀ r ∈ registers, r.toNat < 8 := fun r hr => by rw [← held] at hr; exact Mnemonic.lt_of_mem_fill hr
  have hread := readInstruction_operandTexts (m := m) v hlt
  -- a value below 256 is its own low byte, so it is kept whole and gives no warning
  have hword : valueWord v.toNat = v := by
    rw [← UInt16.toNat_inj]
    have := toNat_valueWord v.toNat
    omega
  have hvalues : (argumentsOf m.operands registers v).filterMap Argument.value? =
      List.replicate (m.size - 1) (v.toNat : Int) :=
    List.eq_replicate_iff.2 ⟨by have := length_values_of_readInstruction hread; omega, values_argumentsOf _ _ _⟩
  refine emitInstruction_eq_ok_iff.2 ⟨m, _, hread, ?_⟩
  have hquiet : (argumentsOf m.operands registers v).filterMap (Argument.warning? number) = [] := by
    refine warnings_eq_nil_iff.2 fun x hx => ?_
    rw [values_argumentsOf _ _ _ x hx]
    omega
  rw [hquiet, argumentWords, registers_argumentsOf _ _ _ (length_of_held held), filterMap_word?, hvalues,
    List.map_replicate, hword]

/-- **The statement of a sound content emits the words of the content**, on whatever line it stands -/
theorem Content.Sound.emitInstruction_fields {c : Content} (h : c.Sound) (number : Int) :
    emitInstruction .empty number c.fields = .ok ⟨number, c.words, []⟩ := by
  cases h with
  | @single m registers held size =>
    have hemit := emitInstruction_operandTexts held (v := 0) (by decide) number
    rw [size] at hemit
    exact hemit
  | @double m registers v held size fits =>
    have hv : v.toNat ≤ 0xFF := UInt16.le_iff_toNat_le.1 (of_decide_eq_true fits)
    have hemit := emitInstruction_operandTexts held (v := v) (by omega) number
    rw [size] at hemit
    exact hemit

/-! ## Reading sources back -/

/-- lines that declare no label leave the table empty -/
theorem labelsOf_of_no_label {lines : List Line} (h : ∀ line ∈ lines, ∀ name, line.token ≠ .label name) :
    labelsOf lines = .ok .empty :=
  labelsOf_eq_ok_iff.2 ⟨_, LabelPass.run_of_no_label _ h, rfl⟩

theorem labelsOf_sourceOf (entries : List Entry) : labelsOf (scan (sourceOf entries)) = .ok .empty := by
  refine labelsOf_of_no_label fun line hline name => ?_
  rw [scan_sourceOf, List.mem_append, List.mem_map, List.mem_singleton] at hline
  rcases hline with ⟨⟨e, number⟩, _, rfl⟩ | rfl
  · exact Token.noConfusion
  · exact Token.noConfusion

/-- the instruction lines of the source of a disassembly, numbered from one -/
theorem instructions_sourceOf (entries : List Entry) :
    (scan (sourceOf entries)).filterMap Line.instruction? =
      (entries.zipIdx 1).map fun (e, number) => ((number : Int), e.content.fields) := by
  rw [scan_sourceOf, List.filterMap_append, List.filterMap_map]
  exact (List.append_nil _).trans (congrFun List.filterMap_eq_map' _)

/-- the emissions of the source of sound entries are the words of the entries -/
theorem emit_sourceOf {entries : List Entry} (h : ∀ e ∈ entries, e.content.Sound) :
    emit (scan (sourceOf entries)) .empty =
      .ok ((entries.zipIdx 1).map fun (e, number) => ⟨number, e.words, []⟩) := by
  rw [emit_eq_ok_iff, instructions_sourceOf, List.forall₂_map_left_iff, List.forall₂_map_right_iff, List.forall₂_same]
  rintro ⟨e, number⟩ hmem
  exact (h e (List.fst_mem_of_mem_zipIdx hmem)).emitInstruction_fields number

/-- **The source of sound entries assembles to their words**, with nothing to warn of and no labels -/
theorem assemble_sourceOf {entries : List Entry} (h : ∀ e ∈ entries, e.content.Sound) :
    ∃ p, assemble (sourceOf entries) = .ok p ∧ p.words = entries.flatMap Entry.words ∧ p.warnings = [] ∧
      p.labels = .empty := by
  have hencode := encode_eq_ok_iff.2 ⟨_, emit_sourceOf h, rfl⟩
  refine ⟨_, assemble_eq_ok_iff.2 ⟨.empty, labelsOf_sourceOf entries, hencode⟩, ?_, ?_, rfl⟩
  · rw [wordsOf, List.flatMap_map]
    conv_rhs => rw [← List.zipIdx_map_fst 1 entries, List.flatMap_map]
  · rw [List.flatMap_map, List.flatMap_eq_nil_iff]
    exact fun _ _ => rfl

/-! ## Words that are programs -/

/-- an entry of a disassembly that is an instruction is sound -/
theorem sound_of_mem_readEntries {address used : Nat} {words : List Word} {entry : Entry}
    (h : entry ∈ readEntries address used words []) (hvalid : entry.mnemonic?.isSome) : entry.content.Sound := by
  obtain ⟨w, rest, _, _, hcontent⟩ := content_of_mem_readEntries h
  rw [Entry.mnemonic?, hcontent] at hvalid
  rw [hcontent]
  exact Content.sound_of_mnemonic? w rest hvalid

/-- the disassembly of a program has no data -/
theorem isSome_mnemonic?_of_encode {lines : List Line} {labels : LabelTable} {p : Program}
    (h : encode lines labels = .ok p) : ∀ entry ∈ disassemble p.words, entry.mnemonic?.isSome := by
  intro entry hentry
  obtain ⟨emissions, hemit, rfl⟩ := encode_eq_ok_iff.1 h
  obtain ⟨line, _, hshows⟩ := exists_of_mem_forall₂ (readEntries_wordsOf (emit_eq_ok_iff.1 hemit) 0).1 hentry
  exact hshows.isSome_mnemonic?

/-- words that disassemble into instructions are assembled again from their disassembly -/
theorem assemble_disassemble {words : List Word} (h : ∀ entry ∈ disassemble words, entry.mnemonic?.isSome) :
    ∃ p, assemble (sourceOf (disassemble words)) = .ok p ∧ p.words = words ∧ p.warnings = [] ∧ p.labels = .empty := by
  have hsound : ∀ entry ∈ disassemble words, entry.content.Sound :=
    fun entry hentry => sound_of_mem_readEntries hentry (h entry hentry)
  have hassemble := assemble_sourceOf hsound
  rwa [words_disassemble] at hassemble

theorem isSome_mnemonic?_of_assemble {source : Text} {p : Program} (h : assemble source = .ok p) :
    ∀ entry ∈ disassemble p.words, entry.mnemonic?.isSome := by
  obtain ⟨table, _, hencode⟩ := assemble_eq_ok_iff.1 h
  exact isSome_mnemonic?_of_encode hencode

/-- **Assembler and disassembler are inverse to each other on the words of programs.** Some source assembles to a list of
words exactly if the list disassembles into instructions only. Its disassembly is then itself such a source, without
warnings or labels. So disassembling a program and assembling it again gives the same words. -/
theorem reassembly (words : List Word) :
    ((∃ source p, assemble source = .ok p ∧ p.words = words) ↔
      ∀ entry ∈ disassemble words, entry.mnemonic?.isSome) ∧
    ((∀ entry ∈ disassemble words, entry.mnemonic?.isSome) →
      ∃ p, assemble (sourceOf (disassemble words)) = .ok p ∧ p.words = words ∧ p.warnings = [] ∧ p.labels = .empty) ∧
    ∀ source p, assemble source = .ok p →
      ∃ q, assemble (sourceOf (disassemble p.words)) = .ok q ∧ q.words = p.words := by
  refine ⟨⟨?_, fun h => ?_⟩, assemble_disassemble, fun source p h => ?_⟩
  · rintro ⟨source, p, h, rfl⟩
    exact isSome_mnemonic?_of_assemble h
  · obtain ⟨p, hp, hwords, -⟩ := assemble_disassemble h
    exact ⟨_, p, hp, hwords⟩
  · obtain ⟨q, hq, hwords, -⟩ := assemble_disassemble (isSome_mnemonic?_of_assemble h)
    exact ⟨q, hq, hwords⟩

/-- words of three instructions are a program; with a bit set that no field of `ST` holds, they are none -/
theorem reassembly_store :
    (∀ entry ∈ disassemble [0x5600, 0, 0x7140, 0, 0x9E00, 255], entry.mnemonic?.isSome) ∧
    (∃ p, assemble (sourceOf (disassemble [0x5600, 0, 0x7140, 0, 0x9E00, 255])) = .ok p ∧
      p.words = [0x5600, 0, 0x7140, 0, 0x9E00, 255] ∧ p.warnings = [] ∧ p.labels = .empty) ∧
    (¬ ∃ source p, assemble source = .ok p ∧ p.words = [0x5600, 0, 0x7141, 0, 0x9E00, 255]) ∧
    ∃ p, assemble (ascii "top:\njnz r7, top\n") = .ok p ∧
      ∃ q, assemble (sourceOf (disassemble p.words)) = .ok q ∧ q.words = p.words := by
  have hvalid : ∀ entry ∈ disassemble [0x5600, 0, 0x7140, 0, 0x9E00, 255], entry.mnemonic?.isSome := by decide
  refine ⟨hvalid, (reassembly _).2.1 hvalid, ?_, ?_⟩
  · rw [(reassembly _).1]
    decide
  · obtain ⟨p, hp⟩ : ∃ p, assemble (ascii "top:\njnz r7, top\n") = .ok p := ⟨_, rfl⟩
    exact ⟨p, hp, (reassembly p.words).2.2 _ p hp⟩

end TwoPass
