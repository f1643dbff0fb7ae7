/-
What commands do to files. An assembly has many ways to fail, and replaces a file as its last step but one; the files
are touched in that step alone. All that is assumed of it is that a file is replaced wholly or not at all.

- `Atomic`: the assumption, and `atomic_program` that the program meets it
- `assembleIn_cases`: an assembly fails with the files as they were, or replaces its output
- `changes_only_output`: what becomes of the files under any command
- `sameBut_run`, `sameBut_runAll`: the files that command lines leave alone, from one line to all
- `sameBut_of_mem_runAll`: the files that the program leaves alone
- `tree_runAll_of_errors`: command lines that all fail
-/
import Mathlib.Tactic
import TwoPass.Command.Run
import TwoPass.Proofs.Endings
import TwoPass.Proofs.FileTrees
import TwoPass.Proofs.Images
import TwoPass.Sink

namespace TwoPass.Command

/-- files are replaced wholly or not at all: if it can be done, one file has changed and nothing else, and if not,
nothing has -/
structure Atomic (replace : FileTree → Text → Text → FileTree × Option Text) : Prop where
  done : ∀ {tree tree' : FileTree} {path text : Text}, replace tree path text = (tree', none) →
    tree.Replaces tree' path text
  failed : ∀ {tree tree' : FileTree} {path text reason : Text}, replace tree path text = (tree', some reason) →
    tree' = tree

namespace Libraries

variable {W : Type} {lib : Libraries W}

/-! ## Assembling a file -/

section
variable (hatomic : Atomic lib.replace) (s : Machine W) (o : Options) (input output : Text)
include hatomic

/-- a delivery fails with the files as they were, or succeeds with the image written -/
theorem deliverIn_cases (p : Program) :
    ((lib.deliverIn s o output p).error ≠ none ∧ (lib.deliverIn s o output p).tree = s.tree) ∨
      (lib.deliverIn s o output p).error = none ∧
        s.tree.Replaces (lib.deliverIn s o output p).tree output (HexImage.write p.words) := by
  rcases hprint : lib.printAll s.stdout (lib.requested o p) with ⟨w, _ | reason⟩
  · rcases hreplace : lib.replace s.tree output (HexImage.write p.words) with ⟨tree, _ | reason⟩
    · rw [deliverIn_of_written hprint hreplace]
      exact Or.inr ⟨rfl, hatomic.done hreplace⟩
    · rw [deliverIn_of_unwritten hprint hreplace]
      exact Or.inl ⟨Option.some_ne_none _, hatomic.failed hreplace⟩
  · rw [deliverIn_of_unprinted hprint]
    exact Or.inl ⟨Option.some_ne_none _, rfl⟩

/-- the ways in which an assembly ends: with a failure and the files as they were, or with the image written -/
theorem assembleIn_cases :
    ((lib.assembleIn s o input output).error ≠ none ∧ (lib.assembleIn s o input output).tree = s.tree) ∨
      ∃ source p, s.tree.read input = .ok source ∧ assemble source = .ok p ∧
        (lib.assembleIn s o input output).error = none ∧
        s.tree.Replaces (lib.assembleIn s o input output).tree output (HexImage.write p.words) := by
  cases hread : s.tree.read input with
  | error e => simp [assembleIn_of_unread o output hread]
  | ok source =>
    cases hassemble : assemble source with
    | error fault => simp [assembleIn_of_fault o output hread hassemble]
    | ok p =>
      cases hstrict : strictFault? o p with
      | some fault => simp [assembleIn_of_strictFault o output hread hassemble hstrict]
      | none =>
        rw [assembleIn_of_program o output hread hassemble hstrict]
        rcases deliverIn_cases hatomic _ o output p with hfailed | ⟨hnone, hreplaces⟩
        · exact Or.inl hfailed
        · exact Or.inr ⟨source, p, rfl, hassemble, hnone, hreplaces⟩

variable {s o input output}

theorem tree_assembleIn_of_error (h : (lib.assembleIn s o input output).error ≠ none) :
    (lib.assembleIn s o input output).tree = s.tree := by
  rcases assembleIn_cases hatomic s o input output with ⟨_, htree⟩ | ⟨_, _, _, _, hnone, _⟩
  · exact htree
  · exact absurd hnone h

theorem sameBut_assembleIn :
    s.tree.SameBut (· = Place.ofPath output) (lib.assembleIn s o input output).tree := by
  rcases assembleIn_cases hatomic s o input output with ⟨_, htree⟩ | ⟨_, _, _, _, _, hreplaces⟩
  · rw [htree]
    exact .refl _ _
  · exact hreplaces.toSameBut

end

/-! ## Command lines -/

theorem tree_disassembleIn (s : Machine W) (path : Text) : (lib.disassembleIn s path).tree = s.tree := by
  rw [disassembleIn, disassembleFile, ending_readFile]
  cases s.tree.read path with
  | error e => rfl
  | ok image =>
    cases himage : HexImage.read image with
    | error e =>
      simp only [himage]
      rfl
    | ok words =>
      simp only [himage]
      rw [ending_log, ending_printAll]
      rfl

theorem run_of_usage {s : Machine W} {arguments : List Text} {message : Text}
    (h : lib.readArguments arguments = .error message) : lib.run s arguments = ⟨s, some (.usage message)⟩ := by
  rw [run, h]

theorem run_of_request {s : Machine W} {arguments : List Text} {request : Request}
    (h : lib.readArguments arguments = .ok request) : lib.run s arguments = lib.perform s request := by
  rw [run, h]

/-- a request that changes a file is one for an assembly -/
theorem exists_assemble_of_perform {s : Machine W} {request : Request} (h : (lib.perform s request).tree ≠ s.tree) :
    ∃ o input output, request = .assemble o input output := by
  cases request with
  | assemble o input output => exact ⟨o, input, output, rfl⟩
  | disassemble image => exact absurd (tree_disassembleIn s image) h
  | notice text => exact absurd rfl h

/-- a command line that changes a file asks for an assembly, and succeeds -/
theorem exists_assemble_of_run (hatomic : Atomic lib.replace) {s : Machine W} {arguments : List Text}
    (h : (lib.run s arguments).tree ≠ s.tree) :
    ∃ o input output, lib.readArguments arguments = .ok (.assemble o input output) ∧
      lib.run s arguments = lib.assembleIn s o input output ∧ (lib.run s arguments).error = none := by
  cases hrequest : lib.readArguments arguments with
  | error message =>
    rw [run_of_usage hrequest] at h
    exact absurd rfl h
  | ok request =>
    rw [run_of_request hrequest] at h ⊢
    obtain ⟨o, input, output, rfl⟩ := exists_assemble_of_perform h
    refine ⟨o, input, output, rfl, rfl, ?_⟩
    by_contra herror
    exact h (tree_assembleIn_of_error hatomic herror)

end Libraries

/-- the program replaces files wholly or not at all -/
theorem atomic_program : Atomic program.replace where
  done {tree tree' path text} h := by
    rw [program] at h
    cases hwrite : tree.write path text with
    | none => simp [hwrite] at h
    | some written =>
      obtain rfl : written = tree' := by simpa [hwrite] using h
      exact FileTree.replaces_of_write hwrite
  failed {tree tree' path text reason} h := by
    rw [program] at h
    cases hwrite : tree.write path text with
    | none =>
      simp only [hwrite, Prod.mk.injEq] at h
      exact h.1.symm
    | some written => simp [hwrite] at h

/-- a source that assembles, and one with a value that does not fit -/
def twoSources : FileTree :=
  (FileTree.empty.addFile (ascii "p.asm") (ascii "halt")).addFile (ascii "w.asm") (ascii "jmp 300")

namespace Libraries

variable {W : Type} {lib : Libraries W}

/-- does a command line ask for an assembly whose image goes to a place -/
def Writes (lib : Libraries W) (arguments : List Text) (p : Place) : Prop :=
  ∃ o input output, lib.readArguments arguments = .ok (.assemble o input output) ∧ p = Place.ofPath output

/-- one command line: but for the place that it writes to, the files are as they were -/
theorem sameBut_run (hatomic : Atomic lib.replace) (s : Machine W) (arguments : List Text) :
    s.tree.SameBut (lib.Writes arguments) (lib.run s arguments).tree := by
  by_cases hsame : (lib.run s arguments).tree = s.tree
  · rw [hsame]
    exact .refl _ _
  · obtain ⟨o, input, output, hrequest, hrun, _⟩ := exists_assemble_of_run hatomic hsame
    rw [hrun]
    exact (sameBut_assembleIn hatomic).mono fun p hp => ⟨o, input, output, hrequest, hp⟩

section
variable {blank : W} {commands : List (List Text)}

/-- **Command lines leave alone what none of them names as its output**: whatever the order and however each of them
ends, after every one of them all other files are as they were before the first -/
theorem sameBut_runAll (hatomic : Atomic lib.replace) {tree : FileTree} :
    ∀ e ∈ lib.runAll blank tree commands,
      tree.SameBut (fun p => ∃ arguments ∈ commands, lib.Writes arguments p) e.tree := by
  induction commands generalizing tree with
  | nil => simp [runAll]
  | cons arguments rest ih =>
    intro e he
    have hfirst : tree.SameBut (fun p => ∃ a ∈ arguments :: rest, lib.Writes a p)
        (lib.run ⟨tree, blank, []⟩ arguments).tree :=
      (sameBut_run hatomic ⟨tree, blank, []⟩ arguments).mono fun p hp => ⟨arguments, List.mem_cons_self, hp⟩
    rcases List.mem_cons.1 he with rfl | he
    · exact hfirst
    · refine hfirst.trans ((ih e he).mono ?_)
      intro p hp
      obtain ⟨a, ha, hwrites⟩ := hp
      exact ⟨a, List.mem_cons_of_mem _ ha, hwrites⟩

/-- command lines that all fail leave all files as they were -/
theorem tree_runAll_of_errors (hatomic : Atomic lib.replace) {tree : FileTree}
    (h : ∀ e ∈ lib.runAll blank tree commands, e.error ≠ none) :
    ∀ e ∈ lib.runAll blank tree commands, e.tree = tree := by
  induction commands generalizing tree with
  | nil => simp [runAll]
  | cons arguments rest ih =>
    have hfirst : (lib.run ⟨tree, blank, []⟩ arguments).tree = tree := by
      by_contra hne
      obtain ⟨_, _, _, _, _, hnone⟩ := exists_assemble_of_run hatomic hne
      exact h _ List.mem_cons_self hnone
    intro e he
    rcases List.mem_cons.1 he with rfl | he
    · exact hfirst
    · rw [hfirst] at he
      refine ih (fun e' he' => h e' (List.mem_cons_of_mem _ ?_)) e he
      rw [hfirst]
      exact he'

end

end Libraries

/-- **The program leaves alone what no command line names as its output** -/
theorem sameBut_of_mem_runAll {tree : FileTree} {commands : List (List Text)} {r : Outcome}
    (h : r ∈ runAll tree commands) :
    tree.SameBut (fun p => ∃ arguments ∈ commands, program.Writes arguments p) r.tree := by
  rw [runAll, ← List.map_uncurry_zip_eq_zipWith] at h
  obtain ⟨pair, hpair, rfl⟩ := List.mem_map.1 h
  exact Libraries.sameBut_runAll atomic_program pair.2 (List.of_mem_zip hpair).2

end TwoPass.Command
