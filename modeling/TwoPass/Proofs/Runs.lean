/-
Runs of steps that may fail. A run succeeds if every step does, and otherwise fails with the error of the first step
that fails; all that came before that step has succeeded.

- `mapM_eq_ok_iff`, `mapM_eq_error_iff`: steps that are independent of each other
- `foldlM_eq_error`: steps that carry a state
- `mapError_mapM`, `mapM_eq_of_forall₂`: what part of the errors is looked at, and steps that agree one by one
-/
import Mathlib.Tactic

namespace TwoPass

theorem bind_eq_ok_iff {ε α β : Type} {x : Except ε α} {f : α → Except ε β} {b : β} :
    x >>= f = .ok b ↔ ∃ a, x = .ok a ∧ f a = .ok b := by
  cases x <;> simp [bind, Except.bind]

theorem map_eq_ok_iff {ε α β : Type} {f : α → β} {x : Except ε α} {b : β} :
    x.map f = .ok b ↔ ∃ a, x = .ok a ∧ f a = b := by
  cases x <;> simp [Except.map]

/-- a list of steps that may fail succeeds exactly if each step does -/
theorem mapM_eq_ok_iff {ε α β : Type} {f : α → Except ε β} {xs : List α} {ys : List β} :
    xs.mapM f = .ok ys ↔ List.Forall₂ (fun x y => f x = .ok y) xs ys := by
  induction xs generalizing ys with
  | nil => simp [pure, Except.pure, eq_comm]
  | cons x xs ih =>
    simp only [List.mapM_cons, bind_eq_ok_iff, ih, List.forall₂_cons_left_iff, pure, Except.pure, Except.ok.injEq]
    constructor
    · rintro ⟨y, hy, rest, hrest, rfl⟩
      exact ⟨y, rest, hy, hrest, rfl⟩
    · rintro ⟨y, rest, hy, hrest, rfl⟩
      exact ⟨y, hy, rest, hrest, rfl⟩

theorem map_eq_error {ε α β : Type} {f : α → β} {x : Except ε α} {e : ε} (h : x.map f = .error e) : x = .error e := by
  cases x with
  | ok a => cases h
  | error e' =>
    cases h
    rfl

theorem map_eq_error_iff {ε α β : Type} {f : α → β} {x : Except ε α} {e : ε} : x.map f = .error e ↔ x = .error e := by
  refine ⟨map_eq_error, ?_⟩
  rintro rfl
  rfl

theorem exists_of_mem_forall₂ {α β : Type} {R : α → β → Prop} {xs : List α} {ys : List β} (h : List.Forall₂ R xs ys)
    {y : β} (hy : y ∈ ys) : ∃ x ∈ xs, R x y := by
  induction h with
  | nil => simp at hy
  | cons hxy _ ih =>
    rcases List.mem_cons.1 hy with rfl | hy
    · exact ⟨_, List.mem_cons_self, hxy⟩
    · obtain ⟨x, hx, hR⟩ := ih hy
      exact ⟨x, List.mem_cons_of_mem _ hx, hR⟩

theorem forall₂_exists_map_iff {α β γ : Type} {R : α → β → Prop} {g : β → γ} {xs : List α} {zs : List γ} :
    List.Forall₂ (fun x z => ∃ y, R x y ∧ g y = z) xs zs ↔ ∃ ys, List.Forall₂ R xs ys ∧ ys.map g = zs := by
  constructor
  · intro h
    induction h with
    | nil => exact ⟨[], .nil, rfl⟩
    | cons hhead _ ih =>
      obtain ⟨y, hy, rfl⟩ := hhead
      obtain ⟨ys, hys, rfl⟩ := ih
      exact ⟨y :: ys, .cons hy hys, rfl⟩
  · rintro ⟨ys, hys, rfl⟩
    rw [List.forall₂_map_right_iff]
    exact hys.imp fun x y hxy => ⟨y, hxy, rfl⟩

theorem eq_take_append_cons {α : Type} {l : List α} {i : Nat} {a : α} (h : l[i]? = some a) :
    l = l.take i ++ a :: l.drop (i + 1) := by
  obtain ⟨hi, rfl⟩ := List.getElem?_eq_some_iff.1 h
  rw [List.getElem_cons_drop, List.take_append_drop]

theorem exists_ok_of_mapM {ε α β : Type} {f : α → Except ε β} {xs : List α} {ys : List β} (h : xs.mapM f = .ok ys) :
    ∀ x ∈ xs, ∃ y, f x = .ok y := by
  intro x hx
  obtain ⟨y, _, hy⟩ := exists_of_mem_forall₂ (mapM_eq_ok_iff.1 h).flip hx
  exact ⟨y, hy⟩

/-- the first step that fails, and the success of those before it -/
theorem mapM_eq_error {ε α β : Type} {f : α → Except ε β} {xs : List α} {e : ε} (h : xs.mapM f = .error e) :
    ∃ i x, xs[i]? = some x ∧ f x = .error e ∧ ∀ y ∈ xs.take i, ∃ z, f y = .ok z := by
  induction xs with
  | nil => cases h
  | cons x xs ih =>
    rw [List.mapM_cons] at h
    cases hx : f x with
    | error e' =>
      rw [hx] at h
      cases h
      exact ⟨0, x, rfl, hx, by simp⟩
    | ok z =>
      rw [hx] at h
      cases hxs : xs.mapM f with
      | ok zs =>
        rw [hxs] at h
        cases h
      | error e' =>
        rw [hxs] at h
        cases h
        obtain ⟨i, y, hy, herror, hbefore⟩ := ih hxs
        refine ⟨i + 1, y, hy, herror, fun y' hy' => ?_⟩
        rw [List.take_succ_cons, List.mem_cons] at hy'
        rcases hy' with rfl | hy'
        · exact ⟨z, hx⟩
        · exact hbefore y' hy'

/-- a run fails exactly with the error of the first step that fails -/
theorem mapM_eq_error_iff {ε α β : Type} {f : α → Except ε β} {xs : List α} {e : ε} :
    xs.mapM f = .error e ↔ ∃ i x, xs[i]? = some x ∧ f x = .error e ∧ ∀ y ∈ xs.take i, ∃ z, f y = .ok z := by
  refine ⟨mapM_eq_error, ?_⟩
  rintro ⟨i, x, hx, herror, hbefore⟩
  cases hrun : (xs.take i).mapM f with
  | error e' =>
    obtain ⟨j, y, hy, herror', _⟩ := mapM_eq_error hrun
    obtain ⟨z, hz⟩ := hbefore y (List.mem_of_getElem? hy)
    rw [herror'] at hz
    cases hz
  | ok ys =>
    rw [eq_take_append_cons hx, List.mapM_append, hrun, List.mapM_cons, herror]
    rfl

theorem foldlM_eq_error {ε α β : Type} {f : β → α → Except ε β} {xs : List α} {s : β} {e : ε}
    (h : xs.foldlM f s = .error e) :
    ∃ i x s', xs[i]? = some x ∧ (xs.take i).foldlM f s = .ok s' ∧ f s' x = .error e := by
  induction xs generalizing s with
  | nil => cases h
  | cons x xs ih =>
    rw [List.foldlM_cons] at h
    cases hx : f s x with
    | error e' =>
      rw [hx] at h
      cases h
      exact ⟨0, x, s, rfl, rfl, hx⟩
    | ok middle =>
      rw [hx] at h
      obtain ⟨i, y, s', hy, hbefore, herror⟩ := ih h
      refine ⟨i + 1, y, s', hy, ?_, herror⟩
      rw [List.take_succ_cons, List.foldlM_cons, hx]
      exact hbefore

/-! ## Looking at part of the errors -/

theorem mapError_bind {ε ε' α β : Type} (g : ε → ε') (x : Except ε α) (f : α → Except ε β) :
    (x >>= f).mapError g = x.mapError g >>= fun a => (f a).mapError g := by
  cases x <;> rfl

theorem mapError_map {ε ε' α β : Type} (g : ε → ε') (f : α → β) (x : Except ε α) :
    (x.map f).mapError g = (x.mapError g).map f := by
  cases x <;> rfl

theorem mapError_mapM {ε ε' α β : Type} (g : ε → ε') (f : α → Except ε β) (xs : List α) :
    (xs.mapM f).mapError g = xs.mapM fun x => (f x).mapError g := by
  induction xs with
  | nil => rfl
  | cons x xs ih =>
    rw [List.mapM_cons, List.mapM_cons, mapError_bind, ← ih]
    simp only [mapError_bind]
    rfl

theorem map_mapM {ε α β γ : Type} (g : β → γ) (f : α → Except ε β) (xs : List α) :
    (xs.mapM f).map (List.map g) = xs.mapM fun x => (f x).map g := by
  induction xs with
  | nil => rfl
  | cons x xs ih =>
    rw [List.mapM_cons, List.mapM_cons, ← ih]
    cases f x with
    | error e => rfl
    | ok y => cases xs.mapM f <;> rfl

theorem mapError_eq_ok_iff {ε ε' α : Type} {g : ε → ε'} {x : Except ε α} {a : α} :
    x.mapError g = .ok a ↔ x = .ok a := by
  cases x <;> simp [Except.mapError]

theorem mapError_eq_error_iff {ε ε' α : Type} {g : ε → ε'} {x : Except ε α} {e : ε'} :
    x.mapError g = .error e ↔ ∃ e', x = .error e' ∧ g e' = e := by
  cases x <;> simp [Except.mapError]

/-- steps that agree one by one agree as runs -/
theorem mapM_eq_of_forall₂ {ε α α' β : Type} {f : α → Except ε β} {f' : α' → Except ε β} {xs : List α} {xs' : List α'}
    (h : List.Forall₂ (fun x x' => f' x' = f x) xs xs') : xs'.mapM f' = xs.mapM f := by
  induction h with
  | nil => rfl
  | cons hx _ ih => rw [List.mapM_cons, List.mapM_cons, hx, ih]

end TwoPass
