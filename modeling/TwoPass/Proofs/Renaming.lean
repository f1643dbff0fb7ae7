/-
Programs under other names. The names of labels are there to be found again and say nothing else: a program whose labels
are renamed, where they are declared and where they are used, is the same program.

- `renameLabels`: the lines of a program with other names for its labels
- `readInstruction_rename`: an instruction is read as before if its value tokens stand for the same values
- `names_carry_no_meaning`: renaming keeps words, warnings, source map and addresses
-/
import Mathlib.Tactic
import TwoPass.Proofs.Correspondence
import TwoPass.Proofs.Faults
import TwoPass.Proofs.Truncation

namespace TwoPass

/-! ## Renaming -/

/-- the name that a line declares -/
def Line.label? (line : Line) : Option Text :=
  match line.token with
  | .label name => some name
  | _ => none

/-- the names that lines declare -/
def declaredNames (lines : List Line) : List Text := lines.filterMap Line.label?

/-- tokens of operands, with those in value slots renamed; a register stays, whatever it is called -/
def renameOperands (rename : Text → Text) : List Operand → List Text → List Text
  | o :: operands, t :: tokens => (if o.isRegister then t else rename t) :: renameOperands rename operands tokens
  | _, tokens => tokens

/-- the fields of an instruction, with the tokens in its value slots renamed -/
def renameFields (rename : Text → Text) : List Text → List Text
  | [] => []
  | mnemonic :: tokens =>
    mnemonic :: renameOperands rename ((Mnemonic.ofName? mnemonic).elim [] Mnemonic.operands) tokens

def Token.rename (rename : Text → Text) : Token → Token
  | .label name => .label (rename name)
  | .instruction fields => .instruction (renameFields rename fields)
  | token => token

def Line.rename (rename : Text → Text) (line : Line) : Line := { line with token := line.token.rename rename }

/-- the new name of a token, if it is the name of a label; other tokens stay -/
def newName (names : List Text) (r : Text → Text) (t : Text) : Text := if t ∈ names then r t else t

/-- lines with other names for the labels that they declare -/
def renameLabels (r : Text → Text) (lines : List Line) : List Line :=
  lines.map (Line.rename (newName (declaredNames lines) r))

theorem newName_of_mem {names : List Text} {t : Text} (h : t ∈ names) (r : Text → Text) : newName names r t = r t :=
  if_pos h

theorem newName_of_not_mem {names : List Text} {t : Text} (h : t ∉ names) (r : Text → Text) : newName names r t = t :=
  if_neg h

theorem mem_declaredNames {lines : List Line} {name : Text} :
    name ∈ declaredNames lines ↔ ∃ line ∈ lines, line.token = .label name := by
  have hlabel : ∀ line : Line, line.label? = some name ↔ line.token = .label name := by
    intro line
    unfold Line.label?
    split
    · rename_i other htoken
      simp [htoken]
    · rename_i hnot
      simpa using hnot name
  simp [declaredNames, hlabel]

theorem mnemonicField_renameFields (rename : Text → Text) (fields : List Text) :
    mnemonicField (renameFields rename fields) = mnemonicField fields := by
  cases fields <;> rfl

theorem length_renameOperands (rename : Text → Text) (operands : List Operand) (tokens : List Text) :
    (renameOperands rename operands tokens).length = tokens.length := by
  induction operands generalizing tokens with
  | nil => rfl
  | cons o operands ih =>
    cases tokens with
    | nil => rfl
    | cons t tokens => rw [renameOperands, List.length_cons, List.length_cons, ih]

theorem operandFields_renameFields (rename : Text → Text) {fields : List Text} {m : Mnemonic}
    (h : Mnemonic.ofName? (mnemonicField fields) = some m) :
    operandFields (renameFields rename fields) = renameOperands rename m.operands (operandFields fields) := by
  cases fields with
  | nil => exact absurd h (by decide +revert)
  | cons mnemonic tokens =>
    have hname : Mnemonic.ofName? mnemonic = some m := h
    simp [renameFields, operandFields, hname]

/-- renaming keeps the size of a line, which comes from the mnemonic alone -/
theorem Token.corresponds_rename {rename r : Text → Text} {token : Token}
    (h : ∀ name, token = .label name → rename name = r name) : Token.Corresponds r token (token.rename rename) := by
  cases token with
  | label name =>
    rw [Token.rename, h name rfl]
    exact .label name
  | instruction fields =>
    refine .other (by simp) (by simp [Token.rename]) ?_
    simp only [Token.rename, Token.size, mnemonicField_renameFields]
  | empty | unknown => exact .other (by simp) (by simp [Token.rename]) rfl

/-! ## Reading renamed instructions -/

section
variable {rename : Text → Text} {labels labels' : LabelTable}

/-- a token keeps its value if its label has kept its address, or if it is no label and stays as it is -/
theorem value_rename {t : Text} {v : Int} (haddress : labels'.address? (rename t) = labels.address? t)
    (hliteral : labels.address? t = none → rename t = t) (h : value labels t = .ok v) :
    value labels' (rename t) = .ok v := by
  unfold value at h ⊢
  rw [haddress]
  cases htarget : labels.address? t with
  | some target => rwa [htarget] at h
  | none => rwa [htarget, ← hliteral htarget] at h

theorem readOperand_rename {m : Mnemonic} {o : Operand} {t : Text} {position : Nat} {a : Argument}
    (hvalue : o.isRegister = false → ∀ v, value labels t = .ok v → value labels' (rename t) = .ok v)
    (h : readOperand labels m o t position = .ok a) :
    readOperand labels' m o (if o.isRegister then t else rename t) position = .ok a := by
  unfold readOperand at h ⊢
  cases hk : o.kind with
  | register => simpa [Operand.isRegister, hk] using h
  | immediate | address =>
    rw [hk] at h
    obtain ⟨v, hv, rfl⟩ := map_eq_ok_iff.1 h
    have hslot : o.isRegister = false := by simp [Operand.isRegister, hk]
    simp [hslot, hvalue hslot v hv, Except.map]

theorem readOperands_rename {m : Mnemonic} (operands : List Operand) (tokens : List Text) (position : Nat)
    (arguments : List Argument)
    (hvalues : ∀ t ∈ slotTokens (fun o => !o.isRegister) operands tokens, ∀ v, value labels t = .ok v →
      value labels' (rename t) = .ok v)
    (h : List.Forall₂ (fun (s : (Operand × Text) × Nat) a => readOperand labels m s.1.1 s.1.2 s.2 = .ok a)
      ((operands.zip tokens).zipIdx position) arguments) :
    List.Forall₂ (fun (s : (Operand × Text) × Nat) a => readOperand labels' m s.1.1 s.1.2 s.2 = .ok a)
      ((operands.zip (renameOperands rename operands tokens)).zipIdx position) arguments := by
  induction operands generalizing tokens position arguments with
  | nil =>
    obtain rfl : arguments = [] := by simpa using h
    exact .nil
  | cons o operands ih =>
    cases tokens with
    | nil =>
      obtain rfl : arguments = [] := by simpa using h
      exact .nil
    | cons t tokens =>
      rw [List.zip_cons_cons, List.zipIdx_cons] at h
      obtain ⟨a, rest, ha, hrest, rfl⟩ := List.forall₂_cons_left_iff.1 h
      rw [renameOperands, List.zip_cons_cons, List.zipIdx_cons]
      refine .cons (readOperand_rename (fun ho => hvalues t ?_) ha) (ih tokens (position + 1) rest ?_ hrest)
      · simp [slotTokens, ho]
      · intro t' ht'
        apply hvalues t'
        simp only [slotTokens, List.mem_map, List.mem_filter] at ht' ⊢
        obtain ⟨slot, ⟨hslot, hkind⟩, rfl⟩ := ht'
        exact ⟨slot, ⟨List.mem_cons_of_mem _ hslot, hkind⟩, rfl⟩

/-- **A renamed instruction is read as before** if its value tokens stand for the same values -/
theorem readInstruction_rename {fields : List Text} {m : Mnemonic} {arguments : List Argument}
    (hvalues : ∀ t ∈ valueTokens m (operandFields fields), ∀ v, value labels t = .ok v →
      value labels' (rename t) = .ok v)
    (h : readInstruction labels fields = .ok (m, arguments)) :
    readInstruction labels' (renameFields rename fields) = .ok (m, arguments) := by
  obtain ⟨hname, hcount, hread⟩ := readInstruction_eq_ok_iff.1 h
  rw [readInstruction_eq_ok_iff, mnemonicField_renameFields, operandFields_renameFields rename hname,
    length_renameOperands]
  refine ⟨hname, hcount, mapM_eq_ok_iff.2 ?_⟩
  exact readOperands_rename _ _ 1 arguments hvalues (mapM_eq_ok_iff.1 hread)

end

/-! ## Renaming programs -/

/-- the tokens in the value slots of a line are among the value operands of the lines -/
theorem exists_valueOperand {lines : List Line} {line : Line} {fields : List Text} {m : Mnemonic} {t : Text}
    (hline : line ∈ lines) (htoken : line.token = .instruction fields)
    (hname : Mnemonic.ofName? (mnemonicField fields) = some m) (ht : t ∈ valueTokens m (operandFields fields))
    (address : Nat) : ∃ o ∈ valueOperands address lines, o.token = t := by
  induction lines generalizing address with
  | nil => exact absurd hline List.not_mem_nil
  | cons first lines ih =>
    rcases List.mem_cons.1 hline with rfl | hline
    · obtain ⟨slot, hslot, rfl⟩ := List.mem_map.1 ht
      have hslots : slot ∈ ((valueSlots m.operands (operandFields fields)).zipIdx (address + 1)).map Prod.fst := by
        rw [List.zipIdx_map_fst]
        exact hslot
      obtain ⟨placed, hplaced, rfl⟩ := List.mem_map.1 hslots
      refine ⟨⟨line.number, placed.1.1, placed.1.2, placed.2⟩, List.mem_append_left _ ?_, rfl⟩
      simp only [Line.valueOperands, htoken, hname]
      exact List.mem_map_of_mem hplaced
    · obtain ⟨o, ho, heq⟩ := ih hline (address + first.token.size)
      exact ⟨o, List.mem_append_right _ ho, heq⟩

theorem filterMap_instruction?_rename (rename : Text → Text) (lines : List Line) :
    (lines.map (Line.rename rename)).filterMap Line.instruction? =
      (lines.filterMap Line.instruction?).map fun x => (x.1, renameFields rename x.2) := by
  rw [List.filterMap_map, List.map_filterMap]
  refine List.filterMap_congr fun line _ => ?_
  obtain ⟨number, text, token⟩ := line
  cases token <;> rfl

section
variable {lines : List Line} {pass : LabelPass} (hpass : labelPass lines = .ok pass) {r : Text → Text}
  (hinj : Set.InjOn r {name | name ∈ declaredNames lines})
include hpass

theorem mem_declaredNames_iff (t : Text) : t ∈ declaredNames lines ↔ (pass.table.address? t).isSome := by
  rw [mem_declaredNames]
  exact declared_iff_of_labelPass hpass t

include hinj

/-- the first pass makes the same table, with the new names -/
theorem labelPass_renameLabels :
    labelPass (renameLabels r lines) = .ok (pass.moved r 0) ∧ pass.table.Within {name | name ∈ declaredNames lines} := by
  refine LabelPass.run_moved hinj 0 (LabelTable.within_empty _) ?_ ?_ hpass
  · exact fun line hline name htoken => mem_declaredNames.2 ⟨line, hline, htoken⟩
  · rw [renameLabels, List.forall₂_map_right_iff, List.forall₂_same]
    intro line hline
    refine Token.corresponds_rename fun name htoken => ?_
    exact newName_of_mem (mem_declaredNames.2 ⟨line, hline, htoken⟩) r

theorem address?_of_declared {name : Text} (hname : name ∈ declaredNames lines) :
    (pass.table.moved r 0).address? (r name) = pass.table.address? name := by
  rw [LabelTable.address?_moved hinj 0 (labelPass_renameLabels hpass hinj).2 hname]
  simp

/-- a token is a label of the renamed program exactly if it was one, with the same address -/
theorem address?_newName {t : Text} (hfree : t ∉ declaredNames lines → ∀ name ∈ declaredNames lines, r name ≠ t) :
    (pass.table.moved r 0).address? (newName (declaredNames lines) r t) = pass.table.address? t := by
  by_cases hname : t ∈ declaredNames lines
  · rw [newName_of_mem hname, address?_of_declared hpass hinj hname]
  · have hnone : pass.table.address? t = none := by simpa [mem_declaredNames_iff hpass] using hname
    rw [newName_of_not_mem hname, hnone]
    exact LabelTable.address?_moved_eq_none 0 (labelPass_renameLabels hpass hinj).2 (hfree hname)

/-- the second pass emits the same -/
theorem emit_renameLabels {emissions : List Emission} (hemit : emit lines pass.table = .ok emissions)
    (hfree : ∀ o ∈ valueOperands 0 lines, o.token ∉ declaredNames lines →
      ∀ name ∈ declaredNames lines, r name ≠ o.token) :
    emit (renameLabels r lines) (pass.table.moved r 0) = .ok emissions := by
  have hinstructions : List.Forall₂
      (fun x x' => ∀ e, emitInstruction pass.table x.1 x.2 = .ok e →
        ∃ e', emitInstruction (pass.table.moved r 0) x'.1 x'.2 = .ok e' ∧ e = e')
      (lines.filterMap Line.instruction?) ((renameLabels r lines).filterMap Line.instruction?) := by
    rw [renameLabels, filterMap_instruction?_rename, List.forall₂_map_right_iff, List.forall₂_same]
    rintro ⟨number, fields⟩ hmem e he
    obtain ⟨line, hline, hsome⟩ := List.mem_filterMap.1 hmem
    obtain ⟨_, htoken⟩ := Line.instruction?_eq_some hsome
    obtain ⟨m, arguments, hread, rfl⟩ := emitInstruction_eq_ok_iff.1 he
    have hread' : readInstruction (pass.table.moved r 0) (renameFields (newName (declaredNames lines) r) fields) =
        .ok (m, arguments) := by
      refine readInstruction_rename (fun t ht v hv => ?_) hread
      obtain ⟨o, ho, rfl⟩ := exists_valueOperand hline htoken (readInstruction_eq_ok_iff.1 hread).1 ht 0
      refine value_rename (address?_newName hpass hinj (hfree o ho)) (fun hnone => newName_of_not_mem ?_ r) hv
      simp [mem_declaredNames_iff hpass, hnone]
    exact ⟨_, emitInstruction_eq_ok_iff.2 ⟨m, arguments, hread', rfl⟩, rfl⟩
  obtain ⟨emissions', hemit', hsame⟩ := emit_of_forall₂ hemit hinstructions
  rw [List.forall₂_eq_eq_eq] at hsame
  rwa [hsame]

end

/-- **Label names carry no meaning.** Rename the labels of a program, where they are declared and in value slots, so that
different names stay different and no other value token becomes the name of a label. Both passes then succeed as before:
words, warnings and source map are the same, and each label has its address under the new name. -/
theorem names_carry_no_meaning (lines : List Line) (table : LabelTable) (p : Program) (r : Text → Text)
    (hlabels : labelsOf lines = .ok table) (hencode : encode lines table = .ok p)
    (hinj : Set.InjOn r {name | name ∈ declaredNames lines})
    (hfree : ∀ o ∈ valueOperands 0 lines, o.token ∉ declaredNames lines →
      ∀ name ∈ declaredNames lines, r name ≠ o.token) :
    ∃ table' p', labelsOf (renameLabels r lines) = .ok table' ∧ encode (renameLabels r lines) table' = .ok p' ∧
      p'.words = p.words ∧ p'.warnings = p.warnings ∧ p'.sourceMap = p.sourceMap ∧
      ∀ name ∈ declaredNames lines, table'.address? (r name) = table.address? name := by
  obtain ⟨pass, hpass, rfl⟩ := labelsOf_eq_ok_iff.1 hlabels
  obtain ⟨emissions, hemit, rfl⟩ := encode_eq_ok_iff.1 hencode
  have hlabels' := labelsOf_eq_ok_iff.2 ⟨_, (labelPass_renameLabels hpass hinj).1, rfl⟩
  have hencode' := encode_eq_ok_iff.2 ⟨emissions, emit_renameLabels hpass hinj hemit hfree, rfl⟩
  exact ⟨_, _, hlabels', hencode', rfl, rfl, rfl, fun name hname => address?_of_declared hpass hinj hname⟩

/-- labels with the names of a number and of a register -/
def oddNames : List Line :=
  [⟨1, [], .label (ascii "5")⟩, ⟨2, [], .instruction [ascii "LDI", ascii "R1", ascii "300"]⟩,
   ⟨3, [], .label (ascii "R1")⟩, ⟨4, [], .instruction [ascii "JNZ", ascii "R1", ascii "R1"]⟩,
   ⟨5, [], .instruction [ascii "JMP", ascii "5"]⟩]

def oddLabels : LabelTable := ⟨[⟨ascii "R1", 2⟩, ⟨ascii "5", 0⟩]⟩

/-- give each of the two names to the other label -/
def exchange (t : Text) : Text := if t == ascii "5" then ascii "R1" else ascii "5"

/-- the exchange leaves registers and literals alone and changes nothing in the program -/
theorem names_carry_no_meaning_exchanged :
    (renameLabels exchange oddNames).map Line.token =
      [.label (ascii "R1"), .instruction [ascii "LDI", ascii "R1", ascii "300"], .label (ascii "5"),
       .instruction [ascii "JNZ", ascii "R1", ascii "5"], .instruction [ascii "JMP", ascii "R1"]] ∧
    labelsOf oddNames = .ok oddLabels ∧
    ∃ p table' p', encode oddNames oddLabels = .ok p ∧ p.words = [0x5200, 44, 0x9200, 2, 0x8000, 0] ∧
      labelsOf (renameLabels exchange oddNames) = .ok table' ∧
      encode (renameLabels exchange oddNames) table' = .ok p' ∧
      p'.words = p.words ∧ p'.warnings = p.warnings ∧ p'.sourceMap = p.sourceMap ∧
      table'.address? (ascii "R1") = some 0 ∧ table'.address? (ascii "5") = some 2 := by
  have hlabels : labelsOf oddNames = .ok oddLabels := by rfl
  obtain ⟨p, hencode, hwords⟩ : ∃ p, encode oddNames oddLabels = .ok p ∧
      p.words = [0x5200, 44, 0x9200, 2, 0x8000, 0] := ⟨_, rfl, by decide⟩
  have hinj : ∀ a ∈ declaredNames oddNames, ∀ b ∈ declaredNames oddNames, exchange a = exchange b → a = b := by decide
  obtain ⟨table', p', hlabels', hencode', hwords', hwarnings, hmap, haddress⟩ :=
    names_carry_no_meaning oddNames oddLabels p exchange hlabels hencode
      (fun a ha b hb heq => hinj a ha b hb heq) (by decide)
  exact ⟨by decide, hlabels, p, table', p', hencode, hwords, hlabels', hencode', hwords', hwarnings, hmap,
    haddress (ascii "5") (by decide), haddress (ascii "R1") (by decide)⟩

end TwoPass
