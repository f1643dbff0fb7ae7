/-
Trees of files under a write. A path that can be written to names a file in a folder that is there, so a write adds no
folder, and every path leads where it led before.

- `exists_folder_of_walk`: a walk that does not end at a folder ends with a name in one
- `isFolder_put`: a file that is added to a folder makes no folder of anything
- `SameBut`, `Replaces`: trees that differ at some places only, and in one file
- `replaces_of_write`: a write changes what is read from one place, and nothing else
-/
import Mathlib.Tactic
import TwoPass.Command.FileTree

namespace TwoPass.Command

namespace FileTree

/-! ## Folders -/

theorem isFolder_iff {t : FileTree} {p : Place} :
    t.isFolder p = true ↔ (∀ c ∈ p, c = up) ∨ p = rootPlace ∨ (∃ q ∈ t.folders, p <+: q) ∨
      ∃ f ∈ t.files, p <+: f.1 ∧ p.length < f.1.length := by
  simp [isFolder, or_assoc]

/-- what leads to a folder is a folder -/
theorem isFolder_of_prefix {t : FileTree} {p q : Place} (h : t.isFolder q = true) (hp : p <+: q) :
    t.isFolder p = true := by
  rw [isFolder_iff] at h ⊢
  rcases h with hup | rfl | ⟨r, hr, hq⟩ | ⟨f, hf, hq, hlt⟩
  · exact Or.inl fun c hc => hup c (hp.subset hc)
  · have hroot : p <+: [] ++ [ascii "/"] := hp
    rcases List.prefix_concat_iff.1 hroot with rfl | hnil
    · exact Or.inr (Or.inl rfl)
    · rw [List.prefix_nil.1 hnil]
      exact Or.inl (by simp)
  · exact Or.inr (Or.inr (Or.inl ⟨r, hr, hp.trans hq⟩))
  · have hle := hp.length_le
    exact Or.inr (Or.inr (Or.inr ⟨f, hf, hp.trans hq, by omega⟩))

theorem isFolder_parent {t : FileTree} {p : Place} (h : t.isFolder p = true) : t.isFolder p.parent = true := by
  unfold Place.parent
  split_ifs with hroot hup
  · exact h
  · refine isFolder_iff.2 (Or.inl ?_)
    intro c hc
    rcases List.mem_append.1 hc with hc | hc
    · have hall := List.all_eq_true.1 hup c hc
      simpa using hall
    · simpa using hc
  · exact isFolder_of_prefix h (List.dropLast_prefix p)

theorem isFolder_start (t : FileTree) (path : Text) : t.isFolder (Place.start path) = true := by
  unfold Place.start
  split_ifs
  · exact isFolder_iff.2 (Or.inr (Or.inl rfl))
  · exact isFolder_iff.2 (Or.inl (by simp))

/-! ## Paths -/

theorem walk_cons_eq_ok_iff {t : FileTree} {here p : Place} {c : Text} {rest : List Text} :
    t.walk here (c :: rest) = .ok p ↔
      t.isFolder here = true ∧ c.length ≤ maxComponent ∧ t.walk (here.step c) rest = .ok p := by
  rw [walk]
  cases t.isFolder here with
  | false => simp
  | true =>
    by_cases hlong : maxComponent < c.length
    · simp [hlong]
    · simp [hlong, Nat.not_lt.1 hlong]

/-- a walk that does not end at a folder ends with a name in one -/
theorem exists_folder_of_walk {t : FileTree} {here p : Place} {cs : List Text} (hhere : t.isFolder here = true)
    (h : t.walk here cs = .ok p) (hp : t.isFolder p = false) :
    ∃ folder name, p = folder ++ [name] ∧ t.isFolder folder = true := by
  induction cs generalizing here with
  | nil =>
    cases h
    rw [hhere] at hp
    cases hp
  | cons c rest ih =>
    obtain ⟨_, _, hwalk⟩ := walk_cons_eq_ok_iff.1 h
    by_cases hstep : t.isFolder (here.step c) = true
    · exact ih hstep hwalk
    · cases rest with
      | cons c' rest => exact absurd (walk_cons_eq_ok_iff.1 hwalk).1 hstep
      | nil =>
        cases hwalk
        unfold Place.step at hstep ⊢
        split_ifs at hstep ⊢
        · exact absurd hhere hstep
        · exact absurd (isFolder_parent hhere) hstep
        · exact ⟨here, c, rfl, hhere⟩

theorem resolve_eq_ok_iff {t : FileTree} {path : Text} {p : Place} :
    t.resolve path = .ok p ↔
      path ≠ [] ∧ path.length ≤ maxPath ∧ t.walk (Place.start path) (components path) = .ok p := by
  unfold resolve
  split_ifs with hempty hlong
  · have hnil : path = [] := List.isEmpty_iff.1 hempty
    simp [hnil]
  · simp [Nat.not_le.2 hlong]
  · have hne : path ≠ [] := fun hnil => hempty (List.isEmpty_iff.2 hnil)
    simp [hne, Nat.not_lt.1 hlong]

theorem read_eq_ok_iff {t : FileTree} {path text : Text} :
    t.read path = .ok text ↔
      ∃ p, t.resolve path = .ok p ∧ t.isFolder p = false ∧ t.contents? p = some text := by
  unfold read
  cases t.resolve path with
  | error e => simp
  | ok p =>
    cases hfolder : t.isFolder p with
    | true => simp [hfolder]
    | false =>
      cases hcontents : t.contents? p with
      | none => simp [hfolder, hcontents]
      | some text' => simp [hfolder, hcontents]

theorem write_eq_some_iff {t t' : FileTree} {path text : Text} :
    t.write path text = some t' ↔
      ∃ p, t.resolve path = .ok p ∧ t.isFolder p = false ∧ p.draftFits = true ∧ t' = t.put p text := by
  unfold write
  cases t.resolve path with
  | error e => simp
  | ok p =>
    cases hfolder : t.isFolder p with
    | true => simp [hfolder]
    | false =>
      cases hfits : p.draftFits with
      | false => simp [hfits]
      | true => simp [hfolder, hfits, eq_comm (a := t')]

/-! ## One file replaced -/

theorem contents?_put_self (t : FileTree) (p : Place) (text : Text) : (t.put p text).contents? p = some text := by
  have hgone : (t.files.filter fun f => f.1 != p).find? (fun f => f.1 == p) = none := by
    rw [List.find?_eq_none]
    intro f hf
    have hne := (List.mem_filter.1 hf).2
    simpa using hne
  simp [contents?, put, List.find?_append, hgone]

theorem contents?_put_of_ne (t : FileTree) {p q : Place} (text : Text) (h : q ≠ p) :
    (t.put p text).contents? q = t.contents? q := by
  have hkept : (t.files.filter fun f => f.1 != p).find? (fun f => f.1 == q) = t.files.find? fun f => f.1 == q := by
    rw [List.find?_filter]
    congr 1
    funext f
    by_cases hf : f.1 = q
    · simp [hf, h]
    · simp [hf]
  simp [contents?, put, List.find?_append, hkept, h.symm]

/-- folders are there for the sake of others of their kind or of the files in them -/
theorem isFolder_of_isFolder {t t' : FileTree} {p : Place} (hfolders : t'.folders = t.folders)
    (hfiles : ∀ f ∈ t'.files, p <+: f.1 → p.length < f.1.length → t.isFolder p = true) (h : t'.isFolder p = true) :
    t.isFolder p = true := by
  rcases isFolder_iff.1 h with hup | hroot | hin | ⟨f, hf, hp, hlt⟩
  · exact isFolder_iff.2 (Or.inl hup)
  · exact isFolder_iff.2 (Or.inr (Or.inl hroot))
  · rw [hfolders] at hin
    exact isFolder_iff.2 (Or.inr (Or.inr (Or.inl hin)))
  · exact hfiles f hf hp hlt

theorem isFolder_put {t : FileTree} {folder : Place} {name : Text} (hfolder : t.isFolder folder = true) (text : Text)
    (q : Place) : (t.put (folder ++ [name]) text).isFolder q = t.isFolder q := by
  rw [Bool.eq_iff_iff]
  constructor
  · refine isFolder_of_isFolder rfl fun f hf hq hlt => ?_
    rcases List.mem_append.1 hf with hf | hf
    · exact isFolder_iff.2 (Or.inr (Or.inr (Or.inr ⟨f, (List.mem_filter.1 hf).1, hq, hlt⟩)))
    · -- the new file adds no folder: those that lead to it are there
      obtain rfl : f = (folder ++ [name], text) := List.mem_singleton.1 hf
      rcases List.prefix_concat_iff.1 hq with rfl | hq
      · exact absurd hlt (lt_irrefl _)
      · exact isFolder_of_prefix hfolder hq
  · refine isFolder_of_isFolder rfl fun f hf hq hlt => isFolder_iff.2 (Or.inr (Or.inr (Or.inr ?_)))
    by_cases hsame : f.1 = folder ++ [name]
    · exact ⟨(folder ++ [name], text), List.mem_append_right _ List.mem_cons_self, hsame ▸ hq, hsame ▸ hlt⟩
    · exact ⟨f, List.mem_append_left _ (List.mem_filter.2 ⟨hf, by simpa using hsame⟩), hq, hlt⟩

theorem walk_eq_ok_congr {t t' : FileTree} (h : ∀ p, t'.isFolder p = t.isFolder p) {here p : Place} {cs : List Text} :
    t'.walk here cs = .ok p ↔ t.walk here cs = .ok p := by
  induction cs generalizing here with
  | nil => rfl
  | cons c rest ih => rw [walk_cons_eq_ok_iff, walk_cons_eq_ok_iff, h, ih]

theorem resolve_eq_ok_congr {t t' : FileTree} (h : ∀ p, t'.isFolder p = t.isFolder p) {path : Text} {p : Place} :
    t'.resolve path = .ok p ↔ t.resolve path = .ok p := by
  rw [resolve_eq_ok_iff, resolve_eq_ok_iff, walk_eq_ok_congr h]

/-- the files are the same but for those at some places, and the folders are the same -/
structure SameBut (places : Place → Prop) (t t' : FileTree) : Prop where
  files : ∀ p, ¬ places p → t'.contents? p = t.contents? p
  folders : ∀ p, t'.isFolder p = t.isFolder p

section
variable {places : Place → Prop} {t t' t'' : FileTree}

theorem SameBut.refl (places : Place → Prop) (t : FileTree) : SameBut places t t := ⟨fun _ _ => rfl, fun _ => rfl⟩

theorem SameBut.trans (h : SameBut places t t') (h' : SameBut places t' t'') : SameBut places t t'' where
  files p hp := (h'.files p hp).trans (h.files p hp)
  folders p := (h'.folders p).trans (h.folders p)

theorem SameBut.mono {more : Place → Prop} (h : SameBut places t t') (hmore : ∀ p, places p → more p) :
    SameBut more t t' where
  files p hp := h.files p fun hplace => hp (hmore p hplace)
  folders := h.folders

/-- a path to any other place leads to the file that it led to before -/
theorem SameBut.read_eq_ok_iff (h : SameBut places t t') {path contents : Text} (hpath : ¬ places (Place.ofPath path)) :
    t'.read path = .ok contents ↔ t.read path = .ok contents := by
  rw [FileTree.read_eq_ok_iff, FileTree.read_eq_ok_iff]
  refine exists_congr fun p => ?_
  rw [resolve_eq_ok_congr h.folders, h.folders]
  refine and_congr_right fun hp => ?_
  rw [h.files p (eq_ofPath_of_resolve hp ▸ hpath)]

end

/-- one tree is the other with a file written to a path: the path is read as the text, and all else is as it was -/
structure Replaces (t t' : FileTree) (path text : Text) : Prop extends SameBut (· = Place.ofPath path) t t' where
  written : t'.read path = .ok text

/-- **A file that is written replaces one file and nothing else** -/
theorem replaces_of_write {t t' : FileTree} {path text : Text} (h : t.write path text = some t') :
    Replaces t t' path text := by
  obtain ⟨p, hresolve, hfolder, _, rfl⟩ := write_eq_some_iff.1 h
  have hfolders : ∀ q, (t.put p text).isFolder q = t.isFolder q := by
    obtain ⟨folder, name, rfl, hparent⟩ :=
      exists_folder_of_walk (isFolder_start t path) (resolve_eq_ok_iff.1 hresolve).2.2 hfolder
    exact isFolder_put hparent text
  refine ⟨⟨?_, hfolders⟩, ?_⟩
  · intro q hq
    rw [← eq_ofPath_of_resolve hresolve] at hq
    exact contents?_put_of_ne t text hq
  · rw [FileTree.read_eq_ok_iff]
    refine ⟨p, (resolve_eq_ok_congr hfolders).2 hresolve, ?_, contents?_put_self t p text⟩
    rw [hfolders, hfolder]

end FileTree

end TwoPass.Command
