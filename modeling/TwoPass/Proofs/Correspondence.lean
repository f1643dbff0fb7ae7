/-
Two programs side by side. Where the lines of one program correspond to those of another, label for label and size for
size, the first pass makes corresponding tables; where each instruction that can be read has a counterpart that can be
read, the second pass succeeds on both.

- `LabelTable.moved`: a table with other names and with its addresses moved on
- `LabelPass.step_moved`, `LabelPass.run_moved`: the first pass on corresponding lines, from one line to all
- `emit_of_forall₂`: the second pass on corresponding instructions
-/
import Mathlib.Data.Set.Function
import Mathlib.Tactic
import TwoPass.Proofs.Addresses

namespace TwoPass

/-! ## Tables -/

namespace LabelTable

/-- the same labels under other names, each `k` words further on -/
def moved (rename : Text → Text) (k : Nat) (table : LabelTable) : LabelTable :=
  ⟨table.entries.map fun s => ⟨rename s.name, s.address + k⟩⟩

@[simp] theorem moved_id_zero (table : LabelTable) : table.moved id 0 = table := by
  simp [moved]

/-- all names of a table are among some names -/
def Within (names : Set Text) (table : LabelTable) : Prop := ∀ s ∈ table.entries, s.name ∈ names

theorem within_empty (names : Set Text) : empty.Within names := by
  simp [Within, empty]

theorem Within.insert {names : Set Text} {table : LabelTable} (h : table.Within names) {name : Text}
    (hname : name ∈ names) (address : Nat) : (table.insert name address).Within names := by
  intro s hs
  rcases List.mem_cons.1 hs with rfl | hs
  · exact hname
  · exact h s hs

/-- a label is found under its new name, if no two names have become one -/
theorem address?_moved {rename : Text → Text} {names : Set Text} (hinj : Set.InjOn rename names) (k : Nat)
    {table : LabelTable} (htable : table.Within names) {name : Text} (hname : name ∈ names) :
    (table.moved rename k).address? (rename name) = (table.address? name).map (· + k) := by
  obtain ⟨entries⟩ := table
  induction entries with
  | nil => rfl
  | cons s entries ih =>
    have hrest : (LabelTable.mk entries).Within names := fun s' hs' => htable s' (List.mem_cons_of_mem s hs')
    change (((LabelTable.mk entries).moved rename k).insert (rename s.name) (s.address + k)).address? (rename name) =
      (((LabelTable.mk entries).insert s.name s.address).address? name).map (· + k)
    by_cases hs : s.name = name
    · rw [hs, address?_insert_self, address?_insert_self]
      rfl
    · have hne : rename s.name ≠ rename name := fun heq => hs (hinj (htable s List.mem_cons_self) hname heq)
      rw [address?_insert_of_ne _ _ hne, address?_insert_of_ne _ _ hs]
      exact ih hrest

/-- a name that no label has taken is not found -/
theorem address?_moved_eq_none {rename : Text → Text} {names : Set Text} (k : Nat) {table : LabelTable}
    (htable : table.Within names) {token : Text} (htoken : ∀ name ∈ names, rename name ≠ token) :
    (table.moved rename k).address? token = none := by
  have hnone : ∀ s ∈ (table.moved rename k).entries, s.name ≠ token := by
    intro s hs
    obtain ⟨s', hs', rfl⟩ := List.mem_map.1 hs
    exact htoken s'.name (htable s' hs')
  simpa [address?] using hnone

end LabelTable

/-! ## The first pass -/

/-- tokens that are one to the first pass: a label and the label renamed, or two that take the same number of words -/
inductive Token.Corresponds (rename : Text → Text) : Token → Token → Prop where
  | label (name : Text) : Token.Corresponds rename (.label name) (.label (rename name))
  | other {token token' : Token} (h : ∀ name, token ≠ .label name) (h' : ∀ name, token' ≠ .label name)
      (size : token'.size = token.size) : Token.Corresponds rename token token'

namespace LabelPass

/-- the state of a first pass that has begun at address `k`, over labels with other names -/
def moved (rename : Text → Text) (k : Nat) (s : LabelPass) : LabelPass := ⟨s.counter + k, s.table.moved rename k⟩

section
variable {rename : Text → Text} {names : Set Text} (hinj : Set.InjOn rename names) (k : Nat)
include hinj

/-- corresponding lines take corresponding states to corresponding states -/
theorem step_moved {s s' : LabelPass} {line line' : Line} (hs : s.table.Within names)
    (hline : ∀ name, line.token = .label name → name ∈ names)
    (htoken : Token.Corresponds rename line.token line'.token) (h : s.step line = .ok s') :
    (s.moved rename k).step line' = .ok (s'.moved rename k) ∧ s'.table.Within names := by
  rcases step_eq_ok h with ⟨name, hlabel, hnone, rfl⟩ | ⟨hnot, rfl⟩
  · have hname := hline name hlabel
    rw [hlabel] at htoken
    generalize htoken' : line'.token = token' at htoken
    cases htoken with
    | label =>
      have hnone' : (s.moved rename k).table.address? (rename name) = none := by
        rw [moved, LabelTable.address?_moved hinj k hs hname, hnone]
        rfl
      exact ⟨step_of_label htoken' hnone', hs.insert hname s.counter⟩
    | other h => exact absurd rfl (h name)
  · generalize htoken' : line'.token = token' at htoken
    generalize htoken'' : line.token = token at htoken hnot ⊢
    cases htoken with
    | label name => exact absurd rfl (hnot name)
    | other _ h' size =>
      refine ⟨?_, hs⟩
      rw [step_of_not_label (htoken' ▸ h'), htoken', size, moved, moved, Nat.add_right_comm]

/-- **The first pass on corresponding lines** makes corresponding tables -/
theorem run_moved {s s' : LabelPass} {lines lines' : List Line} (hs : s.table.Within names)
    (hlines : ∀ line ∈ lines, ∀ name, line.token = .label name → name ∈ names)
    (htokens : List.Forall₂ (fun line line' => Token.Corresponds rename line.token line'.token) lines lines')
    (h : lines.foldlM step s = .ok s') :
    lines'.foldlM step (s.moved rename k) = .ok (s'.moved rename k) ∧ s'.table.Within names := by
  induction htokens generalizing s with
  | nil =>
    cases h
    exact ⟨rfl, hs⟩
  | @cons line line' lines lines' htoken _ ih =>
    rw [List.foldlM_cons] at h
    obtain ⟨middle, hstep, hrun⟩ := bind_eq_ok_iff.1 h
    obtain ⟨hstep', hmiddle⟩ := step_moved hinj k hs (hlines line List.mem_cons_self) htoken hstep
    rw [List.foldlM_cons, hstep']
    exact ih hmiddle (fun line' hline' => hlines line' (List.mem_cons_of_mem line hline')) hrun

end

end LabelPass

/-! ## The second pass -/

/-- **The second pass on corresponding instructions.** If what can be read on one side has a counterpart on the other,
the emissions of the one side have counterparts in the same order. -/
theorem emit_of_forall₂ {R : Emission → Emission → Prop} {lines lines' : List Line} {labels labels' : LabelTable}
    {emissions : List Emission} (h : emit lines labels = .ok emissions)
    (hinstructions : List.Forall₂
      (fun x x' => ∀ e, emitInstruction labels x.1 x.2 = .ok e →
        ∃ e', emitInstruction labels' x'.1 x'.2 = .ok e' ∧ R e e')
      (lines.filterMap Line.instruction?) (lines'.filterMap Line.instruction?)) :
    ∃ emissions', emit lines' labels' = .ok emissions' ∧ List.Forall₂ R emissions emissions' := by
  rw [emit_eq_ok_iff] at h
  simp only [emit_eq_ok_iff]
  generalize lines.filterMap Line.instruction? = instructions at h hinstructions
  generalize lines'.filterMap Line.instruction? = instructions' at hinstructions ⊢
  induction hinstructions generalizing emissions with
  | nil =>
    obtain rfl : emissions = [] := by simpa using h
    exact ⟨[], .nil, .nil⟩
  | cons hx _ ih =>
    obtain ⟨e, rest, he, hrest, rfl⟩ := List.forall₂_cons_left_iff.1 h
    obtain ⟨e', he', hR⟩ := hx e he
    obtain ⟨rest', hrest', hRs⟩ := ih hrest
    exact ⟨e' :: rest', .cons he' hrest', .cons hR hRs⟩

end TwoPass
