/-
How commands end. A command is a sequence of effects, and each effect leaves one part of the state changed for what
follows it; taken one by one, they tell how an assembly ends from what the libraries answer.

- `ending_print`, `ending_replaceFile`, ...: one effect, and the rest of the command
- `deliverIn_eq`: the labels and the listing are printed as one sequence, before the image is written
- `deliverIn_of_unprinted`, `deliverIn_of_unwritten`, `deliverIn_of_written`: the three ends of a delivery
- `assembleIn_of_unread`, `assembleIn_of_fault`, `assembleIn_of_strictFault`, `assembleIn_of_program`: the ways up to it
- `error_assembleIn_eq_none_iff`: when an assembly succeeds
-/
import Mathlib.Tactic
import TwoPass.Command.Machine

namespace TwoPass.Command

theorem strictFault?_eq_none_iff {o : Options} {p : Program} :
    strictFault? o p = none ↔ (o.strict = true → p.warnings = []) := by
  unfold strictFault?
  cases o.strict with
  | false => simp
  | true => simp

namespace Libraries

variable {W : Type} (lib : Libraries W)

/-! ## One effect -/

section
variable (s : Machine W)

theorem ending_readFile (path : Text) (next : Except FileError Text → StateM (Machine W) (Option CommandError)) :
    ending (lib.surroundings.readFile path >>= next) s = ending (next (s.tree.read path)) s := rfl

theorem ending_log (records : List LogRecord) (next : Unit → StateM (Machine W) (Option CommandError)) :
    ending (lib.surroundings.log records >>= next) s = ending (next ()) { s with log := s.log ++ records } := rfl

theorem ending_replaceFile (path text : Text) (next : Option Text → StateM (Machine W) (Option CommandError)) :
    ending (lib.surroundings.replaceFile path text >>= next) s =
      ending (next (lib.replace s.tree path text).2) { s with tree := (lib.replace s.tree path text).1 } := rfl

theorem ending_print (text : Text) (next : Option Text → StateM (Machine W) (Option CommandError)) :
    ending (lib.surroundings.print text >>= next) s =
      ending (next (lib.print s.stdout text).2) { s with stdout := (lib.print s.stdout text).1 } := rfl

end

/-! ## Printing -/

/-- print texts one after another, up to the first that cannot be printed -/
def printAll : W → List Text → W × Option Text
  | w, [] => (w, none)
  | w, t :: rest =>
    match lib.print w t with
    | (w', some reason) => (w', some reason)
    | (w', none) => printAll w' rest

/-- what the options ask to print of a program -/
def requested (o : Options) (p : Program) : List Text :=
  (if o.symbols then lib.dump p.labels.symbols else []) ++ (if o.listing then [p.listing] else [])

theorem ending_printAll (texts : List Text) (next : Option Text → StateM (Machine W) (Option CommandError))
    (s : Machine W) :
    ending (lib.surroundings.printAll texts >>= next) s =
      ending (next (lib.printAll s.stdout texts).2) { s with stdout := (lib.printAll s.stdout texts).1 } := by
  induction texts generalizing s with
  | nil => rfl
  | cons t rest ih =>
    rw [Surroundings.printAll, printAll, bind_assoc, ending_print]
    rcases lib.print s.stdout t with ⟨w, _ | reason⟩
    · exact ih { s with stdout := w }
    · rfl

/-- texts behind others are printed from where those have led, unless one of those failed -/
theorem printAll_append (w : W) (texts more : List Text) :
    lib.printAll w (texts ++ more) =
      (lib.printAll w texts).2.elim (lib.printAll (lib.printAll w texts).1 more)
        fun reason => ((lib.printAll w texts).1, some reason) := by
  induction texts generalizing w with
  | nil => rfl
  | cons t rest ih =>
    rw [List.cons_append, printAll, printAll]
    rcases lib.print w t with ⟨w', _ | reason⟩
    · exact ih w'
    · rfl

/-! ## Delivering a program -/

/-- how the delivery of a program ends -/
def deliverIn (s : Machine W) (o : Options) (output : Text) (p : Program) : Ending W :=
  ending (deliver lib.surroundings o output p) s

variable {lib}

section
variable {s : Machine W} {o : Options} {output : Text} {p : Program} {w : W} {tree : FileTree} {reason : Text}

/-- what is asked for is printed first, labels and listing in one sequence -/
theorem deliverIn_eq (s : Machine W) (o : Options) (output : Text) (p : Program) :
    lib.deliverIn s o output p =
      (lib.printAll s.stdout (lib.requested o p)).2.elim
        (ending (writeImage lib.surroundings output p)
          { s with stdout := (lib.printAll s.stdout (lib.requested o p)).1 })
        fun reason =>
          ⟨{ s with stdout := (lib.printAll s.stdout (lib.requested o p)).1 }, some (.print reason)⟩ := by
  rw [requested, printAll_append, deliverIn, deliver]
  change ending (lib.surroundings.printAll (if o.symbols then lib.dump p.labels.symbols else []) >>= _) s = _
  rw [ending_printAll]
  rcases lib.printAll s.stdout (if o.symbols then lib.dump p.labels.symbols else []) with ⟨w, _ | reason⟩
  · dsimp only [Option.elim_none]
    rw [ending_printAll]
    rcases lib.printAll w (if o.listing then [p.listing] else []) with ⟨w', _ | reason⟩
    · rfl
    · rfl
  · rfl

theorem deliverIn_of_unprinted (h : lib.printAll s.stdout (lib.requested o p) = (w, some reason)) :
    lib.deliverIn s o output p = ⟨⟨s.tree, w, s.log⟩, some (.print reason)⟩ := by
  rw [deliverIn_eq, h]
  rfl

theorem deliverIn_of_printed (h : lib.printAll s.stdout (lib.requested o p) = (w, none)) :
    lib.deliverIn s o output p = ending (writeImage lib.surroundings output p) { s with stdout := w } := by
  rw [deliverIn_eq, h]
  rfl

theorem deliverIn_of_unwritten (h : lib.printAll s.stdout (lib.requested o p) = (w, none))
    (hreplace : lib.replace s.tree output (HexImage.write p.words) = (tree, some reason)) :
    lib.deliverIn s o output p = ⟨⟨tree, w, s.log⟩, some (.writeOutput output reason)⟩ := by
  rw [deliverIn_of_printed h, writeImage, ending_replaceFile, hreplace]
  rfl

theorem deliverIn_of_written (h : lib.printAll s.stdout (lib.requested o p) = (w, none))
    (hreplace : lib.replace s.tree output (HexImage.write p.words) = (tree, none)) :
    lib.deliverIn s o output p = ⟨⟨tree, (lib.print w (successLine p output)).1, s.log⟩, none⟩ := by
  rw [deliverIn_of_printed h, writeImage, ending_replaceFile, hreplace]
  rfl

/-- a delivery succeeds exactly if all that is asked for can be printed and the image can be written -/
theorem error_deliverIn_eq_none_iff :
    (lib.deliverIn s o output p).error = none ↔
      (lib.printAll s.stdout (lib.requested o p)).2 = none ∧
        (lib.replace s.tree output (HexImage.write p.words)).2 = none := by
  rcases hprint : lib.printAll s.stdout (lib.requested o p) with ⟨w, _ | reason⟩
  · rcases hreplace : lib.replace s.tree output (HexImage.write p.words) with ⟨tree, _ | reason⟩
    · simp [deliverIn_of_written hprint hreplace]
    · simp [deliverIn_of_unwritten hprint hreplace]
  · simp [deliverIn_of_unprinted hprint]

end

/-! ## Assembling a file -/


section
variable {s : Machine W} (o : Options) {input source : Text} (output : Text) {p : Program}

theorem assembleIn_of_unread {e : FileError} (h : s.tree.read input = .error e) :
    lib.assembleIn s o input output = ⟨s, some (.readInput input e)⟩ := by
  rw [assembleIn, assembleFile, ending_readFile, h]
  rfl

theorem assembleIn_of_fault {fault : Fault} (hread : s.tree.read input = .ok source)
    (hassemble : assemble source = .error fault) :
    lib.assembleIn s o input output = ⟨s, some (.assembly input fault)⟩ := by
  rw [assembleIn, assembleFile, ending_readFile, hread]
  simp only [hassemble]
  rfl

theorem assembleIn_of_strictFault {fault : Fault} (hread : s.tree.read input = .ok source)
    (hassemble : assemble source = .ok p) (hstrict : strictFault? o p = some fault) :
    lib.assembleIn s o input output =
      ⟨{ s with log := s.log ++ warningRecords input p }, some (.assembly input fault)⟩ := by
  rw [assembleIn, assembleFile, ending_readFile, hread]
  simp only [hassemble, hstrict]
  rfl

theorem assembleIn_of_program (hread : s.tree.read input = .ok source) (hassemble : assemble source = .ok p)
    (hstrict : strictFault? o p = none) :
    lib.assembleIn s o input output =
      lib.deliverIn { s with log := s.log ++ warningRecords input p ++ [sizeRecord input p] } o output p := by
  rw [assembleIn, assembleFile, ending_readFile, hread]
  simp only [hassemble, hstrict]
  rw [ending_log, ending_log]
  rfl

variable {o output}

/-- **When an assembly succeeds**: the source can be read and assembles, without warnings if the assembly is strict, all
that is asked for can be printed, and the image can be written -/
theorem error_assembleIn_eq_none_iff :
    (lib.assembleIn s o input output).error = none ↔
      ∃ source p, s.tree.read input = .ok source ∧ assemble source = .ok p ∧ (o.strict = true → p.warnings = []) ∧
        (lib.printAll s.stdout (lib.requested o p)).2 = none ∧
        (lib.replace s.tree output (HexImage.write p.words)).2 = none := by
  cases hread : s.tree.read input with
  | error e => simp [assembleIn_of_unread o output hread]
  | ok source =>
    cases hassemble : assemble source with
    | error fault => simp [assembleIn_of_fault o output hread hassemble, hassemble]
    | ok p =>
      simp only [Except.ok.injEq, exists_and_left, exists_eq_left', hassemble, ← strictFault?_eq_none_iff]
      cases hstrict : strictFault? o p with
      | some fault => simp [assembleIn_of_strictFault o output hread hassemble hstrict]
      | none =>
        rw [assembleIn_of_program o output hread hassemble hstrict, error_deliverIn_eq_none_iff]
        simp

end

end Libraries

end TwoPass.Command
