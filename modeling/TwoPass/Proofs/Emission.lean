/-
What the second pass makes of instruction lines. One line is read once, operand by operand; its words, its size and its
place in the program all follow from the arguments that were read.

- `emit_eq_ok_iff`: the second pass succeeds exactly if every instruction line does, and treats each by itself
- `registerTokens_of_readInstruction`, `valueTokens_of_readInstruction`: the arguments are the register numbers and the
  values of the tokens in the slots of the instruction
- `length_words_of_emitInstruction`: a line emits as many words as the first pass counts for it
- `emit_append_eq_ok`: lines are encoded one list after the other
- `sourceMap_of_encode`: the source map has each instruction line at the number of words before it
-/
import Mathlib.Tactic
import TwoPass.Assembly.Program
import TwoPass.Proofs.InstructionWord
import TwoPass.Proofs.Runs

namespace TwoPass

/-! ## Slots -/

/-- is an operand a register -/
def Operand.isRegister (o : Operand) : Bool := o.kind == .register

/-- the tokens that stand in the slots of a kind -/
def slotTokens (slot : Operand → Bool) (operands : List Operand) (tokens : List Text) : List Text :=
  ((operands.zip tokens).filter fun s => slot s.1).map Prod.snd

/-- the tokens that an instruction takes for registers, in the order in which they are written -/
def registerTokens (m : Mnemonic) (tokens : List Text) : List Text := slotTokens Operand.isRegister m.operands tokens

/-- the tokens that an instruction takes for values -/
def valueTokens (m : Mnemonic) (tokens : List Text) : List Text :=
  slotTokens (fun o => !o.isRegister) m.operands tokens

/-- the value of a value operand -/
def Argument.value? : Argument → Option Int
  | .register _ => none
  | .value _ v => some v

@[simp] theorem Argument.register?_register (r : Word) : (Argument.register r).register? = some r := rfl

@[simp] theorem Argument.register?_value (role : Text) (v : Int) : (Argument.value role v).register? = none := rfl

@[simp] theorem Argument.value?_register (r : Word) : (Argument.register r).value? = none := rfl

@[simp] theorem Argument.value?_value (role : Text) (v : Int) : (Argument.value role v).value? = some v := rfl

theorem length_slotTokens (slot : Operand → Bool) (operands : List Operand) (tokens : List Text)
    (h : tokens.length = operands.length) :
    (slotTokens slot operands tokens).length = (operands.filter slot).length := by
  have hfst : (operands.zip tokens).map Prod.fst = operands := List.map_fst_zip (by omega)
  conv_rhs => rw [← hfst, List.filter_map, List.length_map]
  rw [slotTokens, List.length_map]
  rfl

/-- an instruction word has a field for each register operand -/
theorem length_fields (m : Mnemonic) : m.fields.length = (m.operands.filter Operand.isRegister).length := by
  cases m <;> decide

theorem length_registerTokens (m : Mnemonic) (tokens : List Text) (h : tokens.length = m.operands.length) :
    (registerTokens m tokens).length = m.fields.length := by
  rw [registerTokens, length_slotTokens _ _ _ h, length_fields]

theorem length_valueTokens (m : Mnemonic) (tokens : List Text) (h : tokens.length = m.operands.length) :
    (valueTokens m tokens).length + 1 = m.size := by
  rw [valueTokens, length_slotTokens _ _ _ h]
  cases m <;> decide

/-! ## Reading operands -/

theorem register?_lt {t : Text} {r : Word} (h : register? t = some r) : r.toNat < 8 := by
  unfold register? at h
  split at h
  · rename_i c n
    split_ifs at h with hc
    · simp only [Option.some.injEq] at h
      simp only [Bool.and_eq_true, decide_eq_true_eq] at hc
      have hn : n.toNat ≤ 0x37 := UInt8.le_iff_toNat_le.1 hc.2
      rw [← h, UInt16.toNat_ofNat']
      omega
  · simp at h

/-- what one operand becomes: the register or the value of its token -/
theorem readOperand_eq_ok {labels : LabelTable} {m : Mnemonic} {o : Operand} {t : Text} {position : Nat} {a : Argument}
    (h : readOperand labels m o t position = .ok a) :
    (o.isRegister = true ∧ ∃ r, register? t = some r ∧ a = .register r) ∨
      (o.isRegister = false ∧ ∃ v, value labels t = .ok v ∧ a = .value o.role v) := by
  unfold readOperand at h
  cases hk : o.kind with
  | register =>
    left
    rw [hk] at h
    cases hr : register? t with
    | none => simp [hr] at h
    | some r => exact ⟨by simp [Operand.isRegister, hk], r, rfl, by simpa [hr] using h.symm⟩
  | immediate | address =>
    right
    rw [hk] at h
    obtain ⟨v, hv, rfl⟩ := map_eq_ok_iff.1 h
    exact ⟨by simp [Operand.isRegister, hk], v, hv, rfl⟩

/-- the arguments of operands, in the order of their slots, read from a position on -/
theorem slots_of_readOperands {labels : LabelTable} {m : Mnemonic} (operands : List Operand) (tokens : List Text)
    (position : Nat) (arguments : List Argument)
    (h : List.Forall₂ (fun (s : (Operand × Text) × Nat) a => readOperand labels m s.1.1 s.1.2 s.2 = .ok a)
      ((operands.zip tokens).zipIdx position) arguments) :
    (slotTokens Operand.isRegister operands tokens).map register? =
        (arguments.filterMap Argument.register?).map some ∧
      (slotTokens (fun o => !o.isRegister) operands tokens).map (value labels) =
        (arguments.filterMap Argument.value?).map .ok := by
  induction operands generalizing tokens position arguments with
  | nil =>
    have harguments : arguments = [] := by simpa using h
    simp [harguments, slotTokens]
  | cons o operands ih =>
    cases tokens with
    | nil =>
      have harguments : arguments = [] := by simpa using h
      simp [harguments, slotTokens]
    | cons t tokens =>
      rw [List.zip_cons_cons, List.zipIdx_cons] at h
      obtain ⟨a, rest, ha, hrest, rfl⟩ := List.forall₂_cons_left_iff.1 h
      obtain ⟨hregisters, hvalues⟩ := ih tokens (position + 1) rest hrest
      -- the head goes to one of the two lists, and the other stays as it is
      simp only [slotTokens] at hregisters hvalues
      rcases readOperand_eq_ok ha with ⟨ho, r, hr, rfl⟩ | ⟨ho, v, hv, rfl⟩
      · simp [slotTokens, ho, hr, hregisters, hvalues, List.filterMap_cons]
      · simp [slotTokens, ho, hv, hregisters, hvalues, List.filterMap_cons]

/-! ## One instruction -/

theorem readInstruction_eq_ok_iff {labels : LabelTable} {fields : List Text} {m : Mnemonic} {arguments : List Argument} :
    readInstruction labels fields = .ok (m, arguments) ↔
      Mnemonic.ofName? (mnemonicField fields) = some m ∧ (operandFields fields).length = m.operands.length ∧
        readOperands labels m (operandFields fields) = .ok arguments := by
  unfold readInstruction
  cases hname : Mnemonic.ofName? (mnemonicField fields) with
  | none => simp
  | some n =>
    simp only [map_eq_ok_iff, readArguments, Option.some.injEq]
    constructor
    · rintro ⟨read, hread, hpair⟩
      simp only [Prod.mk.injEq] at hpair
      obtain ⟨rfl, rfl⟩ := hpair
      split_ifs at hread with hlen
      exact ⟨rfl, by simpa using hlen, hread⟩
    · rintro ⟨rfl, hlen, hread⟩
      exact ⟨arguments, by simpa [hlen] using hread, rfl⟩

theorem emitInstruction_eq_ok_iff {labels : LabelTable} {line : Int} {fields : List Text} {e : Emission} :
    emitInstruction labels line fields = .ok e ↔
      ∃ m arguments, readInstruction labels fields = .ok (m, arguments) ∧
        e = ⟨line, argumentWords m arguments, arguments.filterMap (Argument.warning? line)⟩ := by
  unfold emitInstruction
  cases hread : readInstruction labels fields with
  | error cause => simp
  | ok read =>
    obtain ⟨m, arguments⟩ := read
    simp only [Except.ok.injEq, Prod.mk.injEq]
    constructor
    · rintro rfl
      exact ⟨m, arguments, ⟨rfl, rfl⟩, rfl⟩
    · rintro ⟨_, _, ⟨rfl, rfl⟩, rfl⟩
      rfl

/-- the word of a value: its low eight bits -/
def valueWord (v : Int) : Word := (Argument.lowByte v).toUInt16

theorem toNat_lowByte (v : Int) : ((Argument.lowByte v).toNat : Int) = v % 256 := by
  have hnonneg : 0 ≤ v % 256 := Int.emod_nonneg v (by decide)
  have hlt : v % 256 < 256 := Int.emod_lt_of_pos v (by decide)
  rw [Argument.lowByte, UInt8.toNat_ofNat']
  omega

theorem toNat_valueWord (v : Int) : ((valueWord v).toNat : Int) = v % 256 := by
  rw [valueWord, UInt8.toNat_toUInt16, toNat_lowByte]

theorem filterMap_word? (arguments : List Argument) :
    arguments.filterMap Argument.word? = (arguments.filterMap Argument.value?).map valueWord := by
  rw [List.map_filterMap]
  apply List.filterMap_congr
  intro a _
  cases a <;> rfl

/-- there is no warning exactly if every value is kept whole -/
theorem warnings_eq_nil_iff {line : Int} {arguments : List Argument} :
    arguments.filterMap (Argument.warning? line) = [] ↔
      ∀ v ∈ arguments.filterMap Argument.value?, v % 256 = v := by
  have hvalue : ∀ role v, (Argument.value role v).warning? line = none ↔ v % 256 = v := by
    intro role v
    simp [Argument.warning?, toNat_lowByte]
  rw [List.filterMap_eq_nil_iff]
  constructor
  · intro h v hv
    obtain ⟨a, ha, hav⟩ := List.mem_filterMap.1 hv
    cases a with
    | register r => simp at hav
    | value role v' =>
      obtain rfl : v' = v := by simpa using hav
      exact (hvalue role v').1 (h _ ha)
  · intro h a ha
    cases a with
    | register r => rfl
    | value role v => exact (hvalue role v).2 (h v (List.mem_filterMap.2 ⟨_, ha, rfl⟩))

section
variable {labels : LabelTable} {fields : List Text} {m : Mnemonic} {arguments : List Argument}

theorem registerTokens_of_readInstruction (h : readInstruction labels fields = .ok (m, arguments)) :
    (registerTokens m (operandFields fields)).map register? = (arguments.filterMap Argument.register?).map some :=
  (slots_of_readOperands _ _ 1 arguments (mapM_eq_ok_iff.1 (readInstruction_eq_ok_iff.1 h).2.2)).1

theorem valueTokens_of_readInstruction (h : readInstruction labels fields = .ok (m, arguments)) :
    (valueTokens m (operandFields fields)).map (value labels) = (arguments.filterMap Argument.value?).map .ok :=
  (slots_of_readOperands _ _ 1 arguments (mapM_eq_ok_iff.1 (readInstruction_eq_ok_iff.1 h).2.2)).2

/-- the registers that were read fill the fields of the instruction -/
theorem held_of_readInstruction (h : readInstruction labels fields = .ok (m, arguments)) :
    m.held (arguments.filterMap Argument.register?) = arguments.filterMap Argument.register? := by
  have htokens := registerTokens_of_readInstruction h
  have hlen := length_registerTokens m _ (readInstruction_eq_ok_iff.1 h).2.1
  apply Mnemonic.fill_eq_self
  · rw [← hlen, ← List.length_map (f := register?), htokens, List.length_map]
  · intro r hr
    have hmem : some r ∈ (registerTokens m (operandFields fields)).map register? := by
      rw [htokens]; exact List.mem_map_of_mem hr
    obtain ⟨t, _, ht⟩ := List.mem_map.1 hmem
    exact register?_lt ht

/-- an instruction has a value exactly if it is one of two words -/
theorem length_values_of_readInstruction (h : readInstruction labels fields = .ok (m, arguments)) :
    (arguments.filterMap Argument.value?).length + 1 = m.size := by
  have htokens := congrArg List.length (valueTokens_of_readInstruction h)
  rw [List.length_map, List.length_map] at htokens
  rw [← htokens]
  exact length_valueTokens m _ (readInstruction_eq_ok_iff.1 h).2.1

theorem Mnemonic.size_eq_one_or_two (m : Mnemonic) : m.size = 1 ∨ m.size = 2 := by cases m <;> decide

/-- no instruction has two values -/
theorem values_of_readInstruction (h : readInstruction labels fields = .ok (m, arguments)) :
    (arguments.filterMap Argument.value? = [] ∧ m.size = 1) ∨
      ∃ v, arguments.filterMap Argument.value? = [v] ∧ m.size = 2 := by
  have hlen := length_values_of_readInstruction h
  rcases hvalues : arguments.filterMap Argument.value? with _ | ⟨v, _ | ⟨v', more⟩⟩
  · exact Or.inl ⟨rfl, by simpa [hvalues] using hlen.symm⟩
  · exact Or.inr ⟨v, rfl, by simpa [hvalues] using hlen.symm⟩
  · rcases m.size_eq_one_or_two with hsize | hsize <;> simp [hvalues, hsize] at hlen

theorem length_argumentWords_of_readInstruction (h : readInstruction labels fields = .ok (m, arguments)) :
    (argumentWords m arguments).length = m.size := by
  rw [argumentWords, List.length_cons, filterMap_word?, List.length_map, length_values_of_readInstruction h]

end

/-- **A line emits what the first pass counts for it.** The first pass looks at the mnemonic alone, the second adds a word
for every value that it reads. -/
theorem length_words_of_emitInstruction {labels : LabelTable} {line : Int} {fields : List Text} {e : Emission}
    (h : emitInstruction labels line fields = .ok e) : e.words.length = (Token.instruction fields).size := by
  obtain ⟨m, arguments, hread, rfl⟩ := emitInstruction_eq_ok_iff.1 h
  rw [length_argumentWords_of_readInstruction hread, Token.size, (readInstruction_eq_ok_iff.1 hread).1]
  rfl

/-! ## Lists of lines -/

/-- the number of words that the first pass counts for lines -/
def linesSize (lines : List Line) : Nat := (lines.map fun line => line.token.size).sum

@[simp] theorem linesSize_nil : linesSize [] = 0 := rfl

@[simp] theorem linesSize_cons (line : Line) (lines : List Line) :
    linesSize (line :: lines) = line.token.size + linesSize lines := by
  simp [linesSize]

@[simp] theorem linesSize_append (lines more : List Line) :
    linesSize (lines ++ more) = linesSize lines + linesSize more := by
  simp [linesSize]

/-- the words of emissions, in order -/
def wordsOf (emissions : List Emission) : List Word := emissions.flatMap Emission.words

@[simp] theorem wordsOf_nil : wordsOf [] = [] := rfl

@[simp] theorem wordsOf_cons (e : Emission) (emissions : List Emission) :
    wordsOf (e :: emissions) = e.words ++ wordsOf emissions := by
  simp [wordsOf]

@[simp] theorem wordsOf_append (emissions more : List Emission) :
    wordsOf (emissions ++ more) = wordsOf emissions ++ wordsOf more := by
  simp [wordsOf]

/-- the second pass succeeds exactly if every instruction line does -/
theorem emit_eq_ok_iff {lines : List Line} {labels : LabelTable} {emissions : List Emission} :
    emit lines labels = .ok emissions ↔
      List.Forall₂ (fun line e => emitInstruction labels line.1 line.2 = .ok e) (lines.filterMap Line.instruction?)
        emissions :=
  mapM_eq_ok_iff

theorem encode_eq_ok_iff {lines : List Line} {labels : LabelTable} {p : Program} :
    encode lines labels = .ok p ↔
      ∃ emissions, emit lines labels = .ok emissions ∧
        p = ⟨lines, labels, wordsOf emissions, emissions.flatMap Emission.warnings, sourceMapOf emissions⟩ := by
  rw [encode, map_eq_ok_iff]
  simp only [wordsOf, eq_comm]

theorem labels_of_encode {lines : List Line} {labels : LabelTable} {p : Program} (h : encode lines labels = .ok p) :
    p.labels = labels := by
  obtain ⟨emissions, _, rfl⟩ := encode_eq_ok_iff.1 h
  rfl

theorem lines_of_encode {lines : List Line} {labels : LabelTable} {p : Program} (h : encode lines labels = .ok p) :
    p.lines = lines := by
  obtain ⟨emissions, _, rfl⟩ := encode_eq_ok_iff.1 h
  rfl

/-- lines are encoded one list after the other -/
theorem emit_append_eq_ok {lines more : List Line} {labels : LabelTable} {emissions : List Emission}
    (h : emit (lines ++ more) labels = .ok emissions) :
    ∃ first rest, emit lines labels = .ok first ∧ emit more labels = .ok rest ∧ emissions = first ++ rest := by
  rw [emit, List.filterMap_append, List.mapM_append] at h
  obtain ⟨first, hfirst, h⟩ := bind_eq_ok_iff.1 h
  obtain ⟨rest, hrest, h⟩ := bind_eq_ok_iff.1 h
  simp only [pure, Except.pure, Except.ok.injEq] at h
  exact ⟨first, rest, hfirst, hrest, h.symm⟩

theorem emit_cons_of_instruction {line : Line} {fields : List Text} (htoken : line.token = .instruction fields)
    (lines : List Line) (labels : LabelTable) :
    emit (line :: lines) labels =
      (emitInstruction labels line.number fields >>= fun e => emit lines labels >>= fun rest => pure (e :: rest)) := by
  have hline : Line.instruction? line = some (line.number, fields) := by simp [Line.instruction?, htoken]
  rw [emit, List.filterMap_cons_some hline, List.mapM_cons]
  rfl

theorem emit_cons_of_not_instruction {line : Line} (htoken : ∀ fields, line.token ≠ .instruction fields)
    (lines : List Line) (labels : LabelTable) : emit (line :: lines) labels = emit lines labels := by
  have hline : Line.instruction? line = none := by
    unfold Line.instruction?
    split
    · rename_i fields h
      exact absurd h (htoken fields)
    · rfl
  rw [emit, List.filterMap_cons_none hline, emit]

/-- the first of some lines is an instruction: its emission comes first -/
theorem emit_cons_instruction {line : Line} {lines : List Line} {labels : LabelTable} {emissions : List Emission}
    {fields : List Text} (htoken : line.token = .instruction fields)
    (h : emit (line :: lines) labels = .ok emissions) :
    ∃ e rest, emitInstruction labels line.number fields = .ok e ∧ emit lines labels = .ok rest ∧
      emissions = e :: rest := by
  rw [emit_cons_of_instruction htoken] at h
  obtain ⟨e, he, h⟩ := bind_eq_ok_iff.1 h
  obtain ⟨rest, hrest, h⟩ := bind_eq_ok_iff.1 h
  simp only [pure, Except.pure, Except.ok.injEq] at h
  exact ⟨e, rest, he, hrest, h.symm⟩

theorem line_of_emitInstruction {labels : LabelTable} {line : Int} {fields : List Text} {e : Emission}
    (h : emitInstruction labels line fields = .ok e) : e.line = line := by
  obtain ⟨m, arguments, _, rfl⟩ := emitInstruction_eq_ok_iff.1 h
  rfl

/-- **The second pass emits what the first pass counts** -/
theorem length_wordsOf_of_emit {lines : List Line} {labels : LabelTable} {emissions : List Emission}
    (h : emit lines labels = .ok emissions) : (wordsOf emissions).length = linesSize lines := by
  induction lines generalizing emissions with
  | nil =>
    obtain rfl : emissions = [] := by simpa using emit_eq_ok_iff.1 h
    rfl
  | cons line lines ih =>
    obtain ⟨number, text, token⟩ := line
    cases token with
    | instruction fields =>
      obtain ⟨e, rest, he, hrest, rfl⟩ := emit_cons_instruction rfl h
      rw [wordsOf_cons, List.length_append, ih hrest, linesSize_cons, length_words_of_emitInstruction he]
    | empty | label _ | unknown =>
      -- neither pass counts the line
      have hrest : emit lines labels = .ok emissions := h
      rw [ih hrest, linesSize_cons, Token.size, Nat.zero_add]
      · simp

theorem length_words_of_encode {lines : List Line} {labels : LabelTable} {p : Program}
    (h : encode lines labels = .ok p) : p.words.length = linesSize lines := by
  obtain ⟨emissions, hemit, rfl⟩ := encode_eq_ok_iff.1 h
  exact length_wordsOf_of_emit hemit

/-! ## The source map -/

theorem placeFrom_eq_append (address : Nat) (emissions : List Emission) (placed : List (Nat × Int)) :
    placeFrom address emissions placed = placed.reverse ++ placeFrom address emissions [] := by
  induction emissions generalizing address placed with
  | nil => simp [placeFrom]
  | cons e emissions ih =>
    rw [placeFrom, placeFrom, ih, ih _ [(address, e.line)]]
    simp

theorem placeFrom_cons (address : Nat) (e : Emission) (emissions : List Emission) :
    placeFrom address (e :: emissions) [] = (address, e.line) :: placeFrom (address + e.words.length) emissions [] := by
  rw [placeFrom, placeFrom_eq_append]
  rfl

theorem placeFrom_append (address : Nat) (emissions more : List Emission) :
    placeFrom address (emissions ++ more) [] =
      placeFrom address emissions [] ++ placeFrom (address + (wordsOf emissions).length) more [] := by
  induction emissions generalizing address with
  | nil => rfl
  | cons e emissions ih =>
    rw [List.cons_append, placeFrom_cons, placeFrom_cons, ih, wordsOf_cons, List.length_append, Nat.add_assoc]
    rfl

theorem length_placeFrom (address : Nat) (emissions : List Emission) :
    (placeFrom address emissions []).length = emissions.length := by
  induction emissions generalizing address with
  | nil => rfl
  | cons e emissions ih => rw [placeFrom_cons, List.length_cons, List.length_cons, ih]

theorem le_of_mem_placeFrom {address : Nat} {emissions : List Emission} {entry : Nat × Int}
    (h : entry ∈ placeFrom address emissions []) : address ≤ entry.1 := by
  induction emissions generalizing address with
  | nil => simp [placeFrom] at h
  | cons e emissions ih =>
    rw [placeFrom_cons, List.mem_cons] at h
    rcases h with rfl | h
    · exact le_rfl
    · have := ih h
      omega

/-- every emission has words, so each lies behind the one before -/
theorem pairwise_placeFrom (address : Nat) (emissions : List Emission) (h : ∀ e ∈ emissions, e.words ≠ []) :
    (placeFrom address emissions []).Pairwise fun a b => a.1 < b.1 := by
  induction emissions generalizing address with
  | nil => simp [placeFrom]
  | cons e emissions ih =>
    have he : 0 < e.words.length := List.length_pos_iff.2 (h e List.mem_cons_self)
    rw [placeFrom_cons, List.pairwise_cons]
    refine ⟨fun entry hentry => ?_, ih _ fun e' he' => h e' (List.mem_cons_of_mem e he')⟩
    have := le_of_mem_placeFrom hentry
    simp only
    omega

theorem words_ne_nil_of_emitInstruction {labels : LabelTable} {line : Int} {fields : List Text} {e : Emission}
    (h : emitInstruction labels line fields = .ok e) : e.words ≠ [] := by
  obtain ⟨m, arguments, _, rfl⟩ := emitInstruction_eq_ok_iff.1 h
  exact List.cons_ne_nil _ _

/-- the keys of the source map ascend -/
theorem pairwise_sourceMapOf {lines : List Line} {labels : LabelTable} {emissions : List Emission}
    (h : emit lines labels = .ok emissions) : (sourceMapOf emissions).Pairwise fun a b => a.1 < b.1 := by
  apply pairwise_placeFrom
  intro e he
  obtain ⟨line, _, hline⟩ := exists_of_mem_forall₂ (emit_eq_ok_iff.1 h) he
  exact words_ne_nil_of_emitInstruction hline

/-- an entry of a list with ascending keys is found under its key -/
theorem lookup_of_mem {β : Type} {l : List (Nat × β)} (h : l.Pairwise fun a b => a.1 < b.1) {a : Nat} {b : β}
    (hmem : (a, b) ∈ l) : l.lookup a = some b := by
  induction l with
  | nil => simp at hmem
  | cons x l ih =>
    obtain ⟨hx, hl⟩ := List.pairwise_cons.1 h
    rcases List.mem_cons.1 hmem with rfl | hmem
    · exact List.lookup_cons_self
    · have hne : (a == x.1) = false := by simpa using (hx (a, b) hmem).ne'
      rw [List.lookup_cons, hne]
      exact ih hl hmem

/-- the words of an instruction line begin at an address: the source map has the line there, and its words stand
there -/
structure Program.Begins (p : Program) (address : Nat) (number : Int) (fields : List Text) : Prop where
  mapped : p.sourceMap.lookup address = some number
  emitted : ∃ e, emitInstruction p.labels number fields = .ok e ∧ e.words ≠ [] ∧ e.words <+: p.words.drop address

/-- the source map has an instruction line behind those of the lines before it, at the number of their words -/
theorem sourceMap_of_encode {before after : List Line} {line : Line} {labels : LabelTable} {p : Program}
    {fields : List Text} (h : encode (before ++ line :: after) labels = .ok p)
    (htoken : line.token = .instruction fields) :
    p.sourceMap[(before.filterMap Line.instruction?).length]? = some (linesSize before, line.number) := by
  obtain ⟨emissions, hemit, rfl⟩ := encode_eq_ok_iff.1 h
  obtain ⟨first, more, hfirst, hmore, rfl⟩ := emit_append_eq_ok hemit
  obtain ⟨e, rest, he, _, rfl⟩ := emit_cons_instruction htoken hmore
  have hlen := (emit_eq_ok_iff.1 hfirst).length_eq
  simp only [sourceMapOf, placeFrom_append, placeFrom_cons]
  rw [List.getElem?_append_right (by rw [length_placeFrom, hlen]), length_placeFrom, hlen, Nat.sub_self,
    List.getElem?_cons_zero, Nat.zero_add, length_wordsOf_of_emit hfirst, line_of_emitInstruction he]

theorem length_sourceMap_of_encode {lines : List Line} {labels : LabelTable} {p : Program}
    (h : encode lines labels = .ok p) : p.sourceMap.length = (lines.filterMap Line.instruction?).length := by
  obtain ⟨emissions, hemit, rfl⟩ := encode_eq_ok_iff.1 h
  rw [sourceMapOf, length_placeFrom, (emit_eq_ok_iff.1 hemit).length_eq]

theorem numbers_placeFrom {labels : LabelTable} {lines : List (Int × List Text)} {emissions : List Emission}
    (h : List.Forall₂ (fun line e => emitInstruction labels line.1 line.2 = .ok e) lines emissions) (address : Nat) :
    (placeFrom address emissions []).map Prod.snd = lines.map Prod.fst := by
  induction h generalizing address with
  | nil => rfl
  | cons he _ ih => rw [placeFrom_cons, List.map_cons, List.map_cons, ih, line_of_emitInstruction he]

theorem numbers_sourceMap {lines : List Line} {labels : LabelTable} {p : Program} (h : encode lines labels = .ok p) :
    p.sourceMap.map Prod.snd = (lines.filterMap Line.instruction?).map Prod.fst := by
  obtain ⟨emissions, hemit, rfl⟩ := encode_eq_ok_iff.1 h
  exact numbers_placeFrom (emit_eq_ok_iff.1 hemit) 0

theorem pairwise_sourceMap {lines : List Line} {labels : LabelTable} {p : Program}
    (h : encode lines labels = .ok p) : p.sourceMap.Pairwise fun a b => a.1 < b.1 := by
  obtain ⟨emissions, hemit, rfl⟩ := encode_eq_ok_iff.1 h
  exact pairwise_sourceMapOf hemit

/-- an instruction line begins behind the words of the lines before it -/
theorem begins_of_encode {before after : List Line} {line : Line} {labels : LabelTable} {p : Program}
    {fields : List Text} (h : encode (before ++ line :: after) labels = .ok p)
    (htoken : line.token = .instruction fields) : p.Begins (linesSize before) line.number fields := by
  have hmapped := lookup_of_mem (pairwise_sourceMap h) (List.mem_of_getElem? (sourceMap_of_encode h htoken))
  obtain ⟨emissions, hemit, rfl⟩ := encode_eq_ok_iff.1 h
  obtain ⟨first, more, hfirst, hmore, rfl⟩ := emit_append_eq_ok hemit
  obtain ⟨e, rest, he, _, rfl⟩ := emit_cons_instruction htoken hmore
  refine ⟨hmapped, e, he, words_ne_nil_of_emitInstruction he, ?_⟩
  simp only [wordsOf_append, wordsOf_cons, ← length_wordsOf_of_emit hfirst, List.drop_left]
  exact List.prefix_append _ _

end TwoPass
