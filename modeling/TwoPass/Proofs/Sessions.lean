/-
Sessions, from one action to any number of them. What one action does to what the session holds, and to its answer, is
said once; what holds of all sessions follows by induction on the actions.

- `step_of_failure`: an action that fails leaves the session as it was
- `sound_step`, `sound_run`: labels, programs and disassemblies in a session, and in its answers, have been made by the
  passes and by the disassembler
- `runFrom_effective`: actions that fail can be left out, and only their answers are missing
- `encode_after_resolve`: the two passes, taken one by one, answer what they answer together
-/
import Mathlib.Tactic
import TwoPass.Proofs.Addresses
import TwoPass.Session

namespace TwoPass

/-- does an answer tell of a failure -/
def Answer.isFailure : Answer → Bool
  | .fault _ | .noProgram | .noWarning | .imageError _ => true
  | _ => false

/-- is a table empty or the result of the first pass -/
def LabelTable.IsResolved (table : LabelTable) : Prop := table = .empty ∨ ∃ source, labelsOf (scan source) = .ok table

/-- is a program the result of the second pass over some source, with labels that the first pass has resolved -/
def Program.IsEncoded (p : Program) : Prop :=
  p.labels.IsResolved ∧ ∃ source, encode (scan source) p.labels = .ok p

/-- what a session holds has been made in it; words, images and sources may come from elsewhere -/
structure Session.Sound (s : Session) : Prop where
  labels : s.labels.IsResolved
  program : ∀ p, s.program = some p → p.IsEncoded
  entries : ∃ words, s.entries = disassemble words

/-- the same for an answer -/
def Answer.Sound : Answer → Prop
  | .labels table => table.IsResolved
  | .program p => p.IsEncoded
  | .entries made => ∃ words, made = disassemble words
  | _ => True

namespace Session

/-! ## One action -/

theorem withProgram_of_failure {s : Session} {made : Except Fault Program} (h : (s.withProgram made).2.isFailure = true) :
    (s.withProgram made).1 = s := by
  cases made with
  | error fault => rfl
  | ok p => cases h

/-- **An action that fails leaves the session as it was** -/
theorem step_of_failure {s : Session} {a : Action} (h : (s.step a).2.isFailure = true) : (s.step a).1 = s := by
  cases a with
  | resolve =>
    unfold step at h ⊢
    cases hlabels : labelsOf (scan s.source) with
    | error fault => rfl
    | ok table => simp [hlabels, Answer.isFailure] at h
  | encode => exact withProgram_of_failure h
  | assemble => exact withProgram_of_failure h
  | strict index =>
    unfold step
    cases s.program with
    | none => rfl
    | some p => cases hwarning : warningAt? p index <;> simp [hwarning]
  | readImage =>
    unfold step at h ⊢
    cases himage : HexImage.read s.image with
    | error e => rfl
    | ok words => simp [himage, Answer.isFailure] at h
  | address name => rfl
  | disassemblyListing => rfl
  | setSource _ | appendSource _ | forgetLabels | setWords _ | writeImage | setImage _ | appendImage _ | disassemble
  | disassemblySource => cases h

theorem isEncoded_of_encode {source : Text} {table : LabelTable} {p : Program} (htable : table.IsResolved)
    (h : encode (scan source) table = .ok p) : p.IsEncoded := by
  have hlabels := labels_of_encode h
  subst hlabels
  exact ⟨htable, source, h⟩

theorem isEncoded_of_assemble {source : Text} {p : Program} (h : assemble source = .ok p) : p.IsEncoded := by
  obtain ⟨table, hlabels, hencode⟩ := assemble_eq_ok_iff.1 h
  exact isEncoded_of_encode (Or.inr ⟨source, hlabels⟩) hencode

theorem sound_withProgram {s : Session} (hs : s.Sound) {made : Except Fault Program}
    (h : ∀ p, made = .ok p → p.IsEncoded) : (s.withProgram made).1.Sound ∧ (s.withProgram made).2.Sound := by
  cases made with
  | error fault => exact ⟨hs, trivial⟩
  | ok p =>
    have hp := h p rfl
    refine ⟨⟨hs.labels, fun q hq => ?_, hs.entries⟩, hp⟩
    cases hq
    exact hp

theorem sound_start : start.Sound := ⟨Or.inl rfl, by simp [start], [], rfl⟩

theorem sound_step {s : Session} (hs : s.Sound) (a : Action) : (s.step a).1.Sound ∧ (s.step a).2.Sound := by
  cases a with
  | resolve =>
    unfold step
    cases hlabels : labelsOf (scan s.source) with
    | error fault => exact ⟨hs, trivial⟩
    | ok table =>
      have htable : table.IsResolved := Or.inr ⟨s.source, hlabels⟩
      exact ⟨⟨htable, hs.program, hs.entries⟩, htable⟩
  | forgetLabels => exact ⟨⟨Or.inl rfl, hs.program, hs.entries⟩, Or.inl rfl⟩
  | encode => exact sound_withProgram hs fun p hp => isEncoded_of_encode hs.labels hp
  | assemble => exact sound_withProgram hs fun p hp => isEncoded_of_assemble hp
  | strict index =>
    unfold step
    cases s.program with
    | none => exact ⟨hs, trivial⟩
    | some p =>
      cases hwarning : warningAt? p index with
      | none => simp only [hwarning]; exact ⟨hs, trivial⟩
      | some w => simp only [hwarning]; exact ⟨hs, trivial⟩
  | readImage =>
    unfold step
    cases HexImage.read s.image with
    | error e => exact ⟨hs, trivial⟩
    | ok words => exact ⟨⟨hs.labels, hs.program, hs.entries⟩, trivial⟩
  | disassemble => exact ⟨⟨hs.labels, hs.program, s.words, rfl⟩, s.words, rfl⟩
  | address _ | disassemblyListing => exact ⟨hs, trivial⟩
  | setSource _ | appendSource _ | setWords _ | writeImage | setImage _ | appendImage _ | disassemblySource =>
    exact ⟨⟨hs.labels, hs.program, hs.entries⟩, trivial⟩

/-! ## Any number of actions -/

theorem runFrom_eq (s : Session) (actions : List Action) (answers : List Answer) :
    s.runFrom actions answers = ((s.runFrom actions []).1, answers.reverse ++ (s.runFrom actions []).2) := by
  induction actions generalizing s answers with
  | nil => simp [runFrom]
  | cons a rest ih =>
    rw [runFrom, runFrom, ih, ih (s.step a).1 [(s.step a).2]]
    simp

theorem runFrom_cons (s : Session) (a : Action) (rest : List Action) :
    s.runFrom (a :: rest) [] =
      (((s.step a).1.runFrom rest []).1, (s.step a).2 :: ((s.step a).1.runFrom rest []).2) := by
  rw [runFrom, runFrom_eq]
  rfl

theorem sound_runFrom {s : Session} (hs : s.Sound) (actions : List Action) :
    (s.runFrom actions []).1.Sound ∧ ∀ answer ∈ (s.runFrom actions []).2, answer.Sound := by
  induction actions generalizing s with
  | nil => exact ⟨hs, by simp [runFrom]⟩
  | cons a rest ih =>
    obtain ⟨hstep, hanswer⟩ := sound_step hs a
    obtain ⟨hrest, hanswers⟩ := ih hstep
    rw [runFrom_cons]
    exact ⟨hrest, List.forall_mem_cons.2 ⟨hanswer, hanswers⟩⟩

/-- **Whatever is done in a session**, its labels are resolved, its program is encoded and its entries are a
disassembly, and so are those of its answers -/
theorem sound_run (actions : List Action) : (run actions).1.Sound ∧ ∀ answer ∈ (run actions).2, answer.Sound :=
  sound_runFrom sound_start actions

/-- the actions that do not fail -/
def effective : Session → List Action → List Action
  | _, [] => []
  | s, a :: rest => if (s.step a).2.isFailure then s.effective rest else a :: (s.step a).1.effective rest

/-- **Actions that fail can be left out**: the session comes out the same, and only their answers are missing -/
theorem runFrom_effective (s : Session) (actions : List Action) :
    s.runFrom (s.effective actions) [] =
      ((s.runFrom actions []).1, (s.runFrom actions []).2.filter fun answer => !answer.isFailure) := by
  induction actions generalizing s with
  | nil => rfl
  | cons a rest ih =>
    rw [effective, runFrom_cons s a rest]
    by_cases hfails : (s.step a).2.isFailure = true
    · rw [if_pos hfails, step_of_failure hfails, ih]
      simp [hfails]
    · rw [if_neg hfails, runFrom_cons, ih]
      simp [hfails]

/-! ## The two passes -/

/-- **The two passes, one by one or together**: where the labels of the source can be resolved, the second pass answers
what an assembly answers; where they cannot, an assembly answers the same fault -/
theorem encode_after_resolve (s : Session) :
    (∀ table, (s.step .resolve).2 = .labels table →
      ((s.step .resolve).1.step .encode).2 = (s.step .assemble).2) ∧
    ∀ fault, (s.step .resolve).2 = .fault fault → (s.step .assemble).2 = .fault fault := by
  simp only [step]
  unfold TwoPass.assemble
  cases labelsOf (scan s.source) with
  | error fault =>
    constructor
    · intro table h
      cases h
    · intro fault' h
      cases h
      rfl
  | ok table =>
    constructor
    · intro table' _
      cases hencode : encode (scan s.source) table with
      | error fault => simp [withProgram, hencode]
      | ok p => simp [withProgram, hencode]
    · intro fault h
      cases h

end Session

end TwoPass
