/-
Why assembly fails, and where. The first pass finds names that are declared twice, the second instructions that are not
well-formed; each stops at the first line that it cannot pass, and the first pass comes before the second.

- `labelPass_eq_error`, `not_redeclares_of_labelPass`: the first pass fails at the first line that declares a name again
- `emit_eq_error`: the second pass fails at the first instruction that cannot be read
- `assembly_faults`: which sources fail to assemble, on which line, and with what cause
-/
import Mathlib.Tactic
import TwoPass.Proofs.Addresses
import TwoPass.Proofs.WellFormed

namespace TwoPass

/-! ## Lines that declare labels -/

/-- some line declares a label of this name -/
def Declared (lines : List Line) (name : Text) : Prop := ∃ line ∈ lines, line.token = .label name

/-- the line at a place declares a name that a line above it declares too -/
def Redeclares (lines : List Line) (place : Nat) (name : Text) : Prop :=
  ∃ line, lines[place]? = some line ∧ line.token = .label name ∧ Declared (lines.take place) name

theorem declared_cons {line : Line} {lines : List Line} {name : Text} :
    Declared (line :: lines) name ↔ line.token = .label name ∨ Declared lines name := by
  simp [Declared]

theorem LabelPass.declared_step {s s' : LabelPass} {line : Line} (h : s.step line = .ok s') (name : Text) :
    (s'.table.address? name).isSome ↔ (s.table.address? name).isSome ∨ line.token = .label name := by
  rcases step_eq_ok h with ⟨other, htoken, _, rfl⟩ | ⟨hnot, rfl⟩
  · by_cases heq : other = name
    · subst heq
      simp [htoken]
    · rw [htoken, LabelTable.address?_insert_of_ne _ _ heq]
      simp [heq]
  · simp [hnot name]

/-- the table of a run holds the names that were in it before and those of the lines read -/
theorem LabelPass.declared_run {s s' : LabelPass} {lines : List Line} (h : lines.foldlM step s = .ok s') (name : Text) :
    (s'.table.address? name).isSome ↔ (s.table.address? name).isSome ∨ Declared lines name := by
  induction lines generalizing s with
  | nil =>
    cases h
    simp [Declared]
  | cons line lines ih =>
    rw [List.foldlM_cons] at h
    obtain ⟨middle, hstep, hrun⟩ := bind_eq_ok_iff.1 h
    rw [ih hrun, declared_step hstep, declared_cons, or_assoc]

theorem declared_iff_of_labelPass {lines : List Line} {pass : LabelPass} (h : labelPass lines = .ok pass)
    (name : Text) : Declared lines name ↔ (pass.table.address? name).isSome := by
  rw [LabelPass.declared_run h name]
  simp [LabelTable.empty, LabelTable.address?]

theorem LabelPass.step_eq_error {s : LabelPass} {line : Line} {fault : Fault} (h : s.step line = .error fault) :
    ∃ name, line.token = .label name ∧ (s.table.address? name).isSome ∧
      fault = ⟨line.number, .duplicateLabel name⟩ := by
  unfold step at h
  split at h
  · rename_i name htoken
    split_ifs at h with hname
    · cases h
      exact ⟨name, htoken, hname, rfl⟩
  · cases h

/-- where the first pass succeeds no name is declared twice -/
theorem not_redeclares_of_labelPass {lines : List Line} {pass : LabelPass} (h : labelPass lines = .ok pass)
    (place : Nat) (name : Text) : ¬ Redeclares lines place name := by
  rintro ⟨line, hline, htoken, hdeclared⟩
  rw [eq_take_append_cons hline, labelPass, List.foldlM_append] at h
  obtain ⟨before, hbefore, h⟩ := bind_eq_ok_iff.1 h
  rw [List.foldlM_cons] at h
  obtain ⟨behind, hstep, _⟩ := bind_eq_ok_iff.1 h
  have hsome := (declared_iff_of_labelPass hbefore name).1 hdeclared
  rcases LabelPass.step_eq_ok hstep with ⟨other, hother, hnone, _⟩ | ⟨hnot, _⟩
  · rw [htoken] at hother
    cases hother
    rw [hnone] at hsome
    cases hsome
  · exact hnot name htoken

/-- where it fails it stops at the first line that declares a name again -/
theorem labelPass_eq_error {lines : List Line} {fault : Fault} (h : labelPass lines = .error fault) :
    ∃ place line name, lines[place]? = some line ∧ Redeclares lines place name ∧
      (∀ place' name', Redeclares lines place' name' → place ≤ place') ∧
      fault = ⟨line.number, .duplicateLabel name⟩ := by
  obtain ⟨place, line, before, hline, hbefore, hstep⟩ := foldlM_eq_error h
  obtain ⟨name, htoken, hsome, hfault⟩ := LabelPass.step_eq_error hstep
  refine ⟨place, line, name, hline, ⟨line, hline, htoken, ?_⟩, ?_, hfault⟩
  · exact (declared_iff_of_labelPass hbefore name).2 hsome
  · intro place' name' hagain
    -- a line above would have stopped the run that came to this one
    by_contra hlt
    obtain ⟨line', hline', htoken', hdeclared'⟩ := hagain
    refine not_redeclares_of_labelPass hbefore place' name' ⟨line', ?_, htoken', ?_⟩
    · rw [List.getElem?_take_of_lt (by omega), hline']
    · rwa [List.take_take, min_eq_left (by omega)]

/-! ## Lines that hold instructions -/

/-- the line at a place holds an instruction with these fields -/
def InstructionAt (lines : List Line) (place : Nat) (fields : List Text) : Prop :=
  ∃ line, lines[place]? = some line ∧ line.token = .instruction fields

theorem emitInstruction_eq_error {labels : LabelTable} {number : Int} {fields : List Text} {fault : Fault}
    (h : emitInstruction labels number fields = .error fault) :
    ∃ cause, readInstruction labels fields = .error cause ∧ fault = ⟨number, cause⟩ := by
  unfold emitInstruction at h
  cases hread : readInstruction labels fields with
  | ok read =>
    rw [hread] at h
    cases h
  | error cause =>
    rw [hread] at h
    cases h
    exact ⟨cause, rfl, rfl⟩

theorem exists_read_of_emit {lines : List Line} {labels : LabelTable} {emissions : List Emission}
    (h : emit lines labels = .ok emissions) {place : Nat} {fields : List Text}
    (hat : InstructionAt lines place fields) : ∃ m arguments, readInstruction labels fields = .ok (m, arguments) := by
  obtain ⟨line, hline, htoken⟩ := hat
  have hsome : line.instruction? = some (line.number, fields) := by simp [Line.instruction?, htoken]
  have hmem := List.mem_filterMap.2 ⟨line, List.mem_of_getElem? hline, hsome⟩
  obtain ⟨e, he⟩ := exists_ok_of_mapM h _ hmem
  obtain ⟨m, arguments, hread, _⟩ := emitInstruction_eq_ok_iff.1 he
  exact ⟨m, arguments, hread⟩

/-- the second pass stops at the first instruction that cannot be read -/
theorem emit_eq_error {lines : List Line} {labels : LabelTable} {fault : Fault} (h : emit lines labels = .error fault) :
    ∃ place line fields cause, lines[place]? = some line ∧ line.token = .instruction fields ∧
      readInstruction labels fields = .error cause ∧ fault = ⟨line.number, cause⟩ ∧
      ∃ emissions, emit (lines.take place) labels = .ok emissions := by
  induction lines with
  | nil => cases h
  | cons line lines ih =>
    by_cases hinstruction : ∃ fields, line.token = .instruction fields
    · obtain ⟨fields, htoken⟩ := hinstruction
      rw [emit_cons_of_instruction htoken] at h
      cases he : emitInstruction labels line.number fields with
      | error fault' =>
        rw [he] at h
        cases h
        obtain ⟨cause, hread, hfault⟩ := emitInstruction_eq_error he
        exact ⟨0, line, fields, cause, rfl, htoken, hread, hfault, [], rfl⟩
      | ok e =>
        rw [he] at h
        cases hrest : emit lines labels with
        | ok rest =>
          rw [hrest] at h
          cases h
        | error fault' =>
          rw [hrest] at h
          cases h
          obtain ⟨place, line', fields', cause, hline', htoken', hread, hfault, emissions, hbefore⟩ := ih hrest
          refine ⟨place + 1, line', fields', cause, hline', htoken', hread, hfault, e :: emissions, ?_⟩
          rw [List.take_succ_cons, emit_cons_of_instruction htoken, he, hbefore]
          rfl
    · push Not at hinstruction
      rw [emit_cons_of_not_instruction hinstruction] at h
      obtain ⟨place, line', fields', cause, hline', htoken', hread, hfault, emissions, hbefore⟩ := ih h
      refine ⟨place + 1, line', fields', cause, hline', htoken', hread, hfault, emissions, ?_⟩
      rw [List.take_succ_cons, emit_cons_of_not_instruction hinstruction, hbefore]

/-! ## Faults of an assembly -/

theorem assemble_eq_error {source : Text} {fault : Fault} (h : assemble source = .error fault) :
    labelPass (scan source) = .error fault ∨
      ∃ pass, labelPass (scan source) = .ok pass ∧ emit (scan source) pass.table = .error fault := by
  unfold assemble labelsOf at h
  cases hpass : labelPass (scan source) with
  | error fault' =>
    rw [hpass] at h
    cases h
    exact Or.inl rfl
  | ok pass =>
    rw [hpass] at h
    exact Or.inr ⟨pass, rfl, map_eq_error h⟩

/-- a source with a name declared twice -/
theorem assemble_of_redeclares {source : Text} (h : ∃ place name, Redeclares (scan source) place name) :
    ∃ place name, Redeclares (scan source) place name ∧
      (∀ place' name', Redeclares (scan source) place' name' → place ≤ place') ∧
      assemble source = .error ⟨place + 1, .duplicateLabel name⟩ := by
  obtain ⟨place, name, hagain⟩ := h
  cases hpass : labelPass (scan source) with
  | ok pass => exact absurd hagain (not_redeclares_of_labelPass hpass place name)
  | error fault =>
    obtain ⟨place, line, name, hline, hagain, hleast, rfl⟩ := labelPass_eq_error hpass
    refine ⟨place, name, hagain, hleast, ?_⟩
    rw [assemble, labelsOf, hpass, ← number_of_scan hline]
    rfl

theorem wellFormed_of_emit {lines : List Line} {pass : LabelPass} {emissions : List Emission} {place : Nat}
    {fields : List Text} {before : List Line} (hpass : labelPass lines = .ok pass)
    (hemit : emit before pass.table = .ok emissions) (hat : InstructionAt before place fields) :
    WellFormed (Declared lines) fields := by
  obtain ⟨m, arguments, hread⟩ := exists_read_of_emit hemit hat
  exact wellFormed_of_readInstruction (declared_iff_of_labelPass hpass) hread

theorem wellFormed_of_assemble {source : Text} {p : Program} (h : assemble source = .ok p) {place : Nat}
    {fields : List Text} (hat : InstructionAt (scan source) place fields) :
    WellFormed (Declared (scan source)) fields := by
  obtain ⟨table, hlabels, hencode⟩ := assemble_eq_ok_iff.1 h
  obtain ⟨pass, hpass, rfl⟩ := labelsOf_eq_ok_iff.1 hlabels
  obtain ⟨emissions, hemit, _⟩ := encode_eq_ok_iff.1 hencode
  exact wellFormed_of_emit hpass hemit hat

/-- a fault in a source that declares no name twice -/
theorem defect_of_assemble {source : Text} {fault : Fault} (hnone : ∀ place name, ¬ Redeclares (scan source) place name)
    (h : assemble source = .error fault) :
    ∃ place fields, InstructionAt (scan source) place fields ∧
      (∀ place' < place, ∀ fields', InstructionAt (scan source) place' fields' →
        WellFormed (Declared (scan source)) fields') ∧
      fault.line = place + 1 ∧ Defect (Declared (scan source)) fields fault.cause := by
  rcases assemble_eq_error h with hpass | ⟨pass, hpass, hemit⟩
  · obtain ⟨place, line, name, _, hagain, _⟩ := labelPass_eq_error hpass
    exact absurd hagain (hnone place name)
  · obtain ⟨place, line, fields, cause, hline, htoken, hread, rfl, emissions, hbefore⟩ := emit_eq_error hemit
    refine ⟨place, fields, ⟨line, hline, htoken⟩, ?_, number_of_scan hline, ?_⟩
    · intro place' hlt fields' hat
      obtain ⟨line', hline', htoken'⟩ := hat
      have hat' : InstructionAt ((scan source).take place) place' fields' := by
        refine ⟨line', ?_, htoken'⟩
        rw [List.getElem?_take_of_lt hlt, hline']
      exact wellFormed_of_emit hpass hbefore hat'
    · exact defect_of_readInstruction (declared_iff_of_labelPass hpass) hread

/-- **Assembly fails exactly when it should and names the right line.** If a name is declared on two lines, the fault is
at the first line that declares a name again, whatever else is wrong. Otherwise assembly fails exactly if some
instruction is not well-formed, and the fault is the first defect of the first such line, its kind the one that the first
failing check is for. -/
theorem assembly_faults (source : Text) :
    ((∃ place name, Redeclares (scan source) place name) →
      ∃ place name, Redeclares (scan source) place name ∧
        (∀ place' name', Redeclares (scan source) place' name' → place ≤ place') ∧
        assemble source = .error ⟨place + 1, .duplicateLabel name⟩ ∧
        ∀ fault, assemble source = .error fault → fault.cause.kind = ascii "duplicate label") ∧
    ((∀ place name, ¬ Redeclares (scan source) place name) →
      ((∃ fault, assemble source = .error fault) ↔
        ∃ place fields, InstructionAt (scan source) place fields ∧ ¬ WellFormed (Declared (scan source)) fields) ∧
      ∀ fault, assemble source = .error fault →
        ∃ place fields, InstructionAt (scan source) place fields ∧ ¬ WellFormed (Declared (scan source)) fields ∧
          (∀ place' < place, ∀ fields', InstructionAt (scan source) place' fields' →
            WellFormed (Declared (scan source)) fields') ∧
          fault.line = place + 1 ∧ Defect (Declared (scan source)) fields fault.cause ∧
          DefectKind (Declared (scan source)) fields fault.cause.kind) := by
  refine ⟨fun h => ?_, fun hnone => ⟨⟨?_, ?_⟩, ?_⟩⟩
  · obtain ⟨place, name, hagain, hleast, herror⟩ := assemble_of_redeclares h
    refine ⟨place, name, hagain, hleast, herror, fun fault hfault => ?_⟩
    rw [herror] at hfault
    cases hfault
    rfl
  · rintro ⟨fault, h⟩
    obtain ⟨place, fields, hat, _, _, hdefect⟩ := defect_of_assemble hnone h
    exact ⟨place, fields, hat, hdefect.not_wellFormed⟩
  · rintro ⟨place, fields, hat, hill⟩
    cases h : assemble source with
    | error fault => exact ⟨fault, rfl⟩
    | ok p => exact absurd (wellFormed_of_assemble h hat) hill
  · intro fault h
    obtain ⟨place, fields, hat, hbefore, hline, hdefect⟩ := defect_of_assemble hnone h
    exact ⟨place, fields, hat, hdefect.not_wellFormed, hbefore, hline, hdefect, hdefect.kind⟩

/-- an unknown mnemonic above a label that is declared three times -/
def repeatedLabel : Text := ascii "mov R1\nL:\nL:\nL:"

/-- a good line, a label, and a bad register left of a bad value -/
def badOperands : Text := ascii "JMP end\nend:\nldi r8, 0xg\nNOP 1"

/-- the first source fails at the second declaration, not at the mnemonic nor at the third; the second at the register,
not at the value nor at the line below -/
theorem assembly_faults_third_line :
    (∃ place name, Redeclares (scan repeatedLabel) place name ∧ place = 2 ∧
      (∀ place' name', Redeclares (scan repeatedLabel) place' name' → place ≤ place') ∧
      assemble repeatedLabel = .error ⟨3, .duplicateLabel name⟩) ∧
    ∃ fault, assemble badOperands = .error fault ∧ fault.cause.kind = ascii "invalid register" ∧
      ∃ place fields, InstructionAt (scan badOperands) place fields ∧
        ¬ WellFormed (Declared (scan badOperands)) fields ∧
        fault.line = place + 1 ∧ Defect (Declared (scan badOperands)) fields fault.cause := by
  constructor
  · have hthird : Redeclares (scan repeatedLabel) 2 (ascii "L") :=
      ⟨⟨3, ascii "L:", .label (ascii "L")⟩, by decide, rfl, ⟨2, ascii "L:", .label (ascii "L")⟩, by decide, rfl⟩
    obtain ⟨place, name, hagain, hleast, herror, _⟩ := (assembly_faults repeatedLabel).1 ⟨2, ascii "L", hthird⟩
    have hrun : assemble repeatedLabel = .error ⟨3, .duplicateLabel (ascii "L")⟩ := by rfl
    rw [hrun] at herror
    simp only [Except.error.injEq, Fault.mk.injEq] at herror
    refine ⟨place, name, hagain, by omega, hleast, ?_⟩
    rw [hrun, herror.2]
  · obtain ⟨pass, hpass⟩ : ∃ pass, labelPass (scan badOperands) = .ok pass := ⟨_, rfl⟩
    obtain ⟨fault, hrun, hkind⟩ : ∃ fault, assemble badOperands = .error fault ∧
        fault.cause.kind = ascii "invalid register" := ⟨_, rfl, rfl⟩
    obtain ⟨place, fields, hat, hill, _, hline, hdefect, _⟩ :=
      ((assembly_faults badOperands).2 (not_redeclares_of_labelPass hpass)).2 fault hrun
    exact ⟨fault, hrun, hkind, place, fields, hat, hill, hline, hdefect⟩

end TwoPass
