/-
The order of symbols. The labels of a program may be gone through in any order and sorted by a method that keeps equal
elements in no order of its own; the list of symbols is the same all the same, because the comparison is a strict total
order and the first pass enters no name twice.

- `Symbol.Less`: the comparison, by address and then by the bytes of the name
- `LabelTable.Iterates`, `Symbol.Sorts`: the orders in which labels may be met, and what sorting may make of them
- `LabelPass.names_run`: the names in the table of a run are those of the labels read, each once
- `symbols_canonical`: there is one list of symbols, and it agrees with the order of the declarations
-/
import Mathlib.Tactic
import TwoPass.Proofs.Renaming

namespace TwoPass

/-! ## The comparison -/

namespace Symbol

/-- one symbol comes before another: at a lower address, or at the same address under a lower name, byte by byte -/
def Less (a b : Symbol) : Prop := a.address < b.address ∨ a.address = b.address ∧ a.name < b.name

instance (a b : Symbol) : Decidable (a.Less b) := inferInstanceAs (Decidable (_ ∨ _ ∧ _))

theorem Less.irrefl (a : Symbol) : ¬ a.Less a := by
  rintro (h | ⟨_, h⟩)
  · exact Nat.lt_irrefl _ h
  · exact List.lt_irrefl _ h

theorem Less.trans {a b c : Symbol} (h : a.Less b) (h' : b.Less c) : a.Less c := by
  rcases h with h | ⟨h, hname⟩ <;> rcases h' with h' | ⟨h', hname'⟩
  · exact Or.inl (h.trans h')
  · exact Or.inl (h' ▸ h)
  · exact Or.inl (h ▸ h')
  · exact Or.inr ⟨h.trans h', List.lt_trans hname hname'⟩

/-- symbols of which neither comes before the other are the same -/
theorem eq_of_not_less {a b : Symbol} (h : ¬ a.Less b) (h' : ¬ b.Less a) : a = b := by
  simp only [Less, not_or, not_and] at h h'
  have haddress : a.address = b.address := Nat.le_antisymm (Nat.le_of_not_lt h'.1) (Nat.le_of_not_lt h.1)
  have hname : a.name = b.name :=
    List.le_antisymm (List.not_lt.1 (h'.2 haddress.symm)) (List.not_lt.1 (h.2 haddress))
  cases a
  cases b
  simp_all

/-- the test that sorting makes says that the second does not come before the first -/
theorem before_iff (a b : Symbol) : a.before b = true ↔ ¬ b.Less a := by
  simp only [before, Less, Bool.or_eq_true, Bool.and_eq_true, decide_eq_true_eq, beq_iff_eq, not_or, not_and,
    List.not_lt]
  constructor
  · rintro (h | ⟨h, hname⟩)
    · exact ⟨by omega, fun heq => by omega⟩
    · exact ⟨by omega, fun _ => hname⟩
  · rintro ⟨h, hname⟩
    rcases Nat.lt_or_eq_of_le (Nat.le_of_not_lt h) with h | h
    · exact Or.inl h
    · exact Or.inr ⟨h, hname h.symm⟩

/-- what sorting may give: the same symbols, none of them behind one that it comes before; symbols that compare equal
may stand in any order -/
structure Sorts (order sorted : List Symbol) : Prop where
  perm : sorted.Perm order
  ordered : sorted.Pairwise fun a b => ¬ b.Less a

theorem sorts_mergeSort (order : List Symbol) : Sorts order (order.mergeSort before) := by
  refine ⟨List.mergeSort_perm order before, ?_⟩
  have hsorted : (order.mergeSort before).Pairwise fun a b => a.before b = true := by
    apply List.pairwise_mergeSort
    · intro a b c hab hbc
      rw [before_iff] at hab hbc ⊢
      intro hca
      by_cases h : a.Less b
      · exact hbc (hca.trans h)
      · exact hbc (eq_of_not_less h hab ▸ hca)
    · intro a b
      rw [Bool.or_eq_true, before_iff, before_iff, ← not_and_or]
      exact fun ⟨hba, hab⟩ => Less.irrefl a (hab.trans hba)
  exact hsorted.imp fun h => (before_iff _ _).1 h

/-- **There is one way to sort** -/
theorem Sorts.unique {order sorted sorted' : List Symbol} (h : Sorts order sorted) (h' : Sorts order sorted') :
    sorted = sorted' :=
  List.Perm.eq_of_pairwise (fun _ _ _ _ hab hba => eq_of_not_less hba hab) h.ordered h'.ordered
    (h.perm.trans h'.perm.symm)

/-- in a list in strict order, a symbol that comes before another stands before it -/
theorem pair_sublist {symbols : List Symbol} (h : symbols.Pairwise Less) {a b : Symbol} (ha : a ∈ symbols)
    (hb : b ∈ symbols) (hless : a.Less b) : [a, b].Sublist symbols := by
  obtain ⟨front, rest, rfl⟩ := List.append_of_mem ha
  obtain ⟨_, hrest, hcross⟩ := List.pairwise_append.1 h
  rcases List.mem_append.1 hb with hb | hb
  · exact absurd ((hcross b hb a List.mem_cons_self).trans hless) (Less.irrefl b)
  · rcases List.mem_cons.1 hb with rfl | hb
    · exact absurd hless (Less.irrefl b)
    · exact ((List.singleton_sublist.2 hb).cons_cons a).trans (List.sublist_append_right front _)

end Symbol

/-! ## The labels of a table -/

namespace LabelTable

/-- the names in a table -/
def names (table : LabelTable) : List Text := table.entries.map Symbol.name

/-- an order in which the labels of a table may be met: each name once, with its address -/
structure Iterates (table : LabelTable) (order : List Symbol) : Prop where
  distinct : (order.map Symbol.name).Nodup
  mem_iff : ∀ s, s ∈ order ↔ table.address? s.name = some s.address

theorem address?_eq_none_iff {table : LabelTable} {name : Text} : table.address? name = none ↔ name ∉ table.names := by
  simp [address?, names]

/-- the entries of a table without a name twice -/
theorem iterates_entries {table : LabelTable} (h : table.names.Nodup) : table.Iterates table.entries := by
  refine ⟨h, fun s => ?_⟩
  obtain ⟨entries⟩ := table
  induction entries with
  | nil => simp [address?]
  | cons first entries ih =>
    obtain ⟨hfirst, hrest⟩ := List.nodup_cons.1 h
    have hinsert : (⟨first :: entries⟩ : LabelTable) = insert ⟨entries⟩ first.name first.address := rfl
    rw [hinsert]
    by_cases hname : first.name = s.name
    · have habsent : s ∉ entries := fun hs => hfirst (hname ▸ List.mem_map_of_mem hs)
      rw [← hname, address?_insert_self, insert, List.mem_cons, or_iff_left habsent, Option.some.injEq]
      obtain ⟨name, address⟩ := s
      simp [show first.name = name from hname, eq_comm]
    · rw [address?_insert_of_ne _ _ hname, ← ih hrest, insert, List.mem_cons, or_iff_right]
      rintro rfl
      exact hname rfl

/-- the orders in which the labels of a table may be met differ in nothing but order -/
theorem Iterates.perm {table : LabelTable} {order order' : List Symbol} (h : table.Iterates order)
    (h' : table.Iterates order') : order.Perm order' := by
  rw [List.perm_ext_iff_of_nodup h.distinct.of_map h'.distinct.of_map]
  exact fun s => (h.mem_iff s).trans (h'.mem_iff s).symm

theorem Iterates.of_perm {table : LabelTable} {order order' : List Symbol} (h : table.Iterates order)
    (hperm : order'.Perm order) : table.Iterates order' :=
  ⟨(hperm.map Symbol.name).nodup_iff.2 h.distinct, fun s => hperm.mem_iff.trans (h.mem_iff s)⟩

/-- **Symbols do not depend on the order in which labels are met**, nor on the way of sorting -/
theorem symbols_eq {table : LabelTable} (hnames : table.names.Nodup) {order sorted : List Symbol}
    (h : table.Iterates order) (hsorted : Symbol.Sorts order sorted) : sorted = table.symbols := by
  have hperm := h.perm (iterates_entries hnames)
  exact Symbol.Sorts.unique ⟨hsorted.perm.trans hperm, hsorted.ordered⟩ (Symbol.sorts_mergeSort table.entries)

theorem iterates_symbols {table : LabelTable} (hnames : table.names.Nodup) : table.Iterates table.symbols :=
  (iterates_entries hnames).of_perm (List.mergeSort_perm _ _)

/-- the symbols are in strict order -/
theorem pairwise_symbols {table : LabelTable} (hnames : table.names.Nodup) : table.symbols.Pairwise Symbol.Less := by
  have hordered := (Symbol.sorts_mergeSort table.entries).ordered
  have hdistinct : table.symbols.Pairwise (· ≠ ·) := (iterates_symbols hnames).distinct.of_map
  refine (hordered.and hdistinct).imp ?_
  rintro a b ⟨hnot, hne⟩
  by_contra hless
  exact hne (Symbol.eq_of_not_less hless hnot)

end LabelTable

/-! ## The labels of a program -/

/-- what a step of the first pass does to the names: that of a label is added, and it is a new one -/
theorem LabelPass.names_step {s s' : LabelPass} {line : Line} (h : s.step line = .ok s') :
    s'.table.names = line.label?.toList ++ s.table.names ∧ (s.table.names.Nodup → s'.table.names.Nodup) := by
  rcases step_eq_ok h with ⟨name, htoken, hnone, rfl⟩ | ⟨hnot, rfl⟩
  · have hlabel : line.label? = some name := by simp [Line.label?, htoken]
    rw [hlabel]
    exact ⟨rfl, fun hnames => List.nodup_cons.2 ⟨LabelTable.address?_eq_none_iff.1 hnone, hnames⟩⟩
  · have hlabel : line.label? = none := by
      unfold Line.label?
      split
      · rename_i name htoken
        exact absurd htoken (hnot name)
      · rfl
    rw [hlabel]
    exact ⟨rfl, id⟩

/-- **The names of a run**: those of the labels read, the last one first, and each once -/
theorem LabelPass.names_run {s s' : LabelPass} {lines : List Line} (h : lines.foldlM step s = .ok s') :
    s'.table.names = (declaredNames lines).reverse ++ s.table.names ∧ (s.table.names.Nodup → s'.table.names.Nodup) := by
  induction lines generalizing s with
  | nil =>
    cases h
    exact ⟨rfl, id⟩
  | cons line lines ih =>
    rw [List.foldlM_cons] at h
    obtain ⟨middle, hstep, hrun⟩ := bind_eq_ok_iff.1 h
    obtain ⟨hnames, hnodup⟩ := names_step hstep
    obtain ⟨hnames', hnodup'⟩ := ih hrun
    refine ⟨?_, fun hs => hnodup' (hnodup hs)⟩
    rw [hnames', hnames, declaredNames, declaredNames, List.filterMap_cons]
    cases line.label? <;> simp

theorem names_of_labelPass {lines : List Line} {pass : LabelPass} (h : labelPass lines = .ok pass) :
    pass.table.names = (declaredNames lines).reverse ∧ pass.table.names.Nodup := by
  obtain ⟨hnames, hnodup⟩ := LabelPass.names_run h
  exact ⟨by simpa [LabelTable.empty, LabelTable.names] using hnames, hnodup List.nodup_nil⟩

/-- a label declared below another has no lower address -/
theorem address_le_of_labelPass {above between below : List Line} {line line' : Line} {name name' : Text}
    {pass : LabelPass} (h : labelPass (above ++ line :: (between ++ line' :: below)) = .ok pass)
    (htoken : line.token = .label name) (htoken' : line'.token = .label name') :
    ∃ address address', pass.table.address? name = some address ∧ pass.table.address? name' = some address' ∧
      address ≤ address' := by
  have haddress := address_of_labelPass h htoken
  have hsplit : above ++ line :: (between ++ line' :: below) = (above ++ line :: between) ++ line' :: below := by simp
  rw [hsplit] at h
  have haddress' := address_of_labelPass h htoken'
  refine ⟨_, _, haddress, haddress', ?_⟩
  rw [linesSize_append]
  exact Nat.le_add_right _ _

/-- **Symbols are canonical.** In whatever order the labels are met, and whichever way they are sorted, the list of
symbols is the same. It has each declared label once, with its address, and nothing else; it ascends strictly by address
and, at one address, by name; and labels at different addresses stand in it in the order in which they are declared. -/
theorem symbols_canonical (lines : List Line) (table : LabelTable) (h : labelsOf lines = .ok table) :
    (∀ order sorted, table.Iterates order → Symbol.Sorts order sorted → sorted = table.symbols) ∧
    (∀ order, table.Iterates order → order.mergeSort Symbol.before = table.symbols) ∧
    table.Iterates table.symbols ∧
    (table.symbols.map Symbol.name).Perm (declaredNames lines) ∧
    table.symbols.length = table.size ∧ table.size = (declaredNames lines).length ∧
    table.symbols.Pairwise Symbol.Less ∧
    ∀ above line between line' below name name', lines = above ++ line :: (between ++ line' :: below) →
      line.token = .label name → line'.token = .label name' → table.address? name ≠ table.address? name' →
      ∃ address address', table.address? name = some address ∧ table.address? name' = some address' ∧
        [⟨name, address⟩, ⟨name', address'⟩].Sublist table.symbols := by
  obtain ⟨pass, hpass, rfl⟩ := labelsOf_eq_ok_iff.1 h
  obtain ⟨hdeclared, hnames⟩ := names_of_labelPass hpass
  have hiterates := LabelTable.iterates_symbols hnames
  have hperm : pass.table.symbols.Perm pass.table.entries := List.mergeSort_perm _ _
  have hsize : pass.table.size = pass.table.names.length := (List.length_map _).symm
  refine ⟨fun order sorted => LabelTable.symbols_eq hnames,
    fun order horder => LabelTable.symbols_eq hnames horder (Symbol.sorts_mergeSort order), hiterates, ?_,
    hperm.length_eq, by rw [hsize, hdeclared, List.length_reverse], LabelTable.pairwise_symbols hnames, ?_⟩
  · have hsame : (pass.table.symbols.map Symbol.name).Perm pass.table.names := hperm.map Symbol.name
    rw [hdeclared] at hsame
    exact hsame.trans (List.reverse_perm _)
  · rintro above line between line' below name name' rfl htoken htoken' hne
    obtain ⟨address, address', haddress, haddress', hle⟩ := address_le_of_labelPass hpass htoken htoken'
    have hlt : address < address' := by
      refine Nat.lt_of_le_of_ne hle ?_
      rintro rfl
      exact hne (haddress.trans haddress'.symm)
    exact ⟨address, address', haddress, haddress', Symbol.pair_sublist (LabelTable.pairwise_symbols hnames)
      ((hiterates.mem_iff ⟨name, address⟩).2 haddress) ((hiterates.mem_iff ⟨name', address'⟩).2 haddress') (Or.inl hlt)⟩

/-- two labels at the start that are not declared in the order of their names, and one behind an instruction -/
def crowdedLines : List Line :=
  [⟨1, [], .label (ascii "b")⟩, ⟨2, [], .label (ascii "B")⟩, ⟨3, [], .instruction [ascii "nop"]⟩,
   ⟨4, [], .label (ascii "A")⟩]

/-- the symbols follow from what sorting may give, with the labels met in the order of the lines -/
theorem symbols_canonical_crowded :
    ∃ table, labelsOf crowdedLines = .ok table ∧
      table.symbols = [⟨ascii "B", 0⟩, ⟨ascii "b", 0⟩, ⟨ascii "A", 1⟩] ∧
      [⟨ascii "b", 0⟩, ⟨ascii "A", 1⟩].Sublist table.symbols := by
  have hlabels : labelsOf crowdedLines = .ok ⟨[⟨ascii "A", 1⟩, ⟨ascii "B", 0⟩, ⟨ascii "b", 0⟩]⟩ := by decide
  obtain ⟨hsort, _, _, _, _, _, _, hdeclared⟩ := symbols_canonical crowdedLines _ hlabels
  have hmet : LabelTable.Iterates ⟨[⟨ascii "A", 1⟩, ⟨ascii "B", 0⟩, ⟨ascii "b", 0⟩]⟩
      [⟨ascii "b", 0⟩, ⟨ascii "B", 0⟩, ⟨ascii "A", 1⟩] :=
    (LabelTable.iterates_entries (by decide)).of_perm (by decide)
  have hsorts : Symbol.Sorts [⟨ascii "b", 0⟩, ⟨ascii "B", 0⟩, ⟨ascii "A", 1⟩]
      [⟨ascii "B", 0⟩, ⟨ascii "b", 0⟩, ⟨ascii "A", 1⟩] := ⟨by decide, by decide⟩
  obtain ⟨address, address', haddress, haddress', hsublist⟩ :=
    hdeclared [] _ (crowdedLines.drop 1 |>.take 2) _ [] (ascii "b") (ascii "A") rfl rfl rfl (by decide)
  obtain rfl : 0 = address := Option.some.inj haddress
  obtain rfl : 1 = address' := Option.some.inj haddress'
  exact ⟨_, hlabels, (hsort _ _ hmet hsorts).symm, hsublist⟩

end TwoPass
