/-
What options change. Two assemblies of one file that differ in their options are compared step by step: reading,
assembling, the log, the strict test, what is printed, and the writing of the image. The standard output is assumed to
take all that is printed.

- `Lossless`: the assumption, and `lossless_program` that the program meets it
- `assembleIn_related`: what two assemblies have in common if their deliveries have
- `alike_assembleIn`: the listing and the symbols are printed, and nothing else comes of them
- `assembleIn_strict_of_quiet`, `assembleIn_strict_of_warning`: what strictness does to a program without warnings, and
  with them
- `warnings_eq_nil_iff_fits`: a program has no warnings exactly if all its values fit a byte
- `options_keep_program`: all of it, for any files and paths
-/
import Mathlib.Tactic
import TwoPass.Proofs.Addresses
import TwoPass.Proofs.FileChanges
import TwoPass.Proofs.Truncation

namespace TwoPass

/-- does every value operand of a program resolve to a value of eight bits -/
def Program.Fits (p : Program) : Prop :=
  ∀ operand ∈ valueOperands 0 p.lines, ∃ v, Resolves p.labels operand.token v ∧ 0 ≤ v ∧ v ≤ 255

/-- **A program has no warnings exactly if all its values fit** -/
theorem warnings_eq_nil_iff_fits {lines : List Line} {labels : LabelTable} {p : Program}
    (h : encode lines labels = .ok p) : p.warnings = [] ↔ p.Fits := by
  obtain ⟨emissions, hemit, rfl⟩ := encode_eq_ok_iff.1 h
  obtain ⟨resolved, hresolved⟩ := resolved_of_emit hemit []
  rw [hresolved.warnings, List.filterMap_eq_nil_iff]
  constructor
  · intro hquiet operand hoperand
    obtain ⟨x, hx, rfl⟩ : ∃ x ∈ resolved, x.1 = operand := by
      rw [← List.mem_map, hresolved.operands]
      exact hoperand
    exact ⟨x.2, value_eq_ok_iff.1 (hresolved.values x hx), x.1.warning?_eq_none_iff.1 (hquiet x hx)⟩
  · intro hfits x hx
    have hoperand : x.1 ∈ valueOperands 0 lines := by
      have hmem := List.mem_map_of_mem (f := Prod.fst) hx
      rw [hresolved.operands] at hmem
      exact hmem
    obtain ⟨v, hv, hrange⟩ := hfits x.1 hoperand
    have hsame : value labels x.1.token = .ok v := value_eq_ok_iff.2 hv
    rw [hresolved.values x hx] at hsame
    cases hsame
    exact x.1.warning?_eq_none_iff.2 hrange

namespace Command

/-- all that is printed is taken, and is shown behind what was shown before -/
structure Lossless {W : Type} (print : W → Text → W × Option Text) (shown : W → Text) : Prop where
  never_fails : ∀ w text, (print w text).2 = none
  appends : ∀ w text, shown (print w text).1 = shown w ++ text

/-- the same failure if any, the same log and the same files; what was printed may differ -/
structure Ending.Alike {W : Type} (e e' : Ending W) : Prop where
  error : e.error = e'.error
  log : e.log = e'.log
  tree : e.tree = e'.tree

theorem Ending.Alike.refl {W : Type} (e : Ending W) : e.Alike e := ⟨rfl, rfl, rfl⟩

namespace Libraries

variable {W : Type} {lib : Libraries W}

/-! ## Two assemblies -/

/-- two assemblies of one file with the same strict test, if any, differ as their deliveries do -/
theorem assembleIn_related {R : Ending W → Ending W → Prop} (hrefl : ∀ e, R e e) {s : Machine W} {o o' : Options}
    {input output : Text}
    (hstrict : ∀ source p, s.tree.read input = .ok source → assemble source = .ok p →
      strictFault? o p = strictFault? o' p)
    (hdeliver : ∀ s p, R (lib.deliverIn s o output p) (lib.deliverIn s o' output p)) :
    R (lib.assembleIn s o input output) (lib.assembleIn s o' input output) := by
  cases hread : s.tree.read input with
  | error e =>
    rw [assembleIn_of_unread o output hread, assembleIn_of_unread o' output hread]
    exact hrefl _
  | ok source =>
    cases hassemble : assemble source with
    | error fault =>
      rw [assembleIn_of_fault o output hread hassemble, assembleIn_of_fault o' output hread hassemble]
      exact hrefl _
    | ok p =>
      have hsame := hstrict source p hread hassemble
      cases hfault : strictFault? o p with
      | some fault =>
        rw [assembleIn_of_strictFault o output hread hassemble hfault,
          assembleIn_of_strictFault o' output hread hassemble (hsame.symm.trans hfault)]
        exact hrefl _
      | none =>
        rw [assembleIn_of_program o output hread hassemble hfault,
          assembleIn_of_program o' output hread hassemble (hsame.symm.trans hfault)]
        exact hdeliver _ p

/-! ## Printing -/

theorem flatten_requested (lib : Libraries W) (o : Options) (p : Program) :
    (lib.requested o p).flatten =
      (if o.symbols then (lib.dump p.labels.symbols).flatten else []) ++ (if o.listing then p.listing else []) := by
  rw [requested, List.flatten_append]
  cases o.symbols <;> cases o.listing <;> simp

section
variable {shown : W → Text} (hlossless : Lossless lib.print shown)
include hlossless

theorem printAll_of_lossless (w : W) (texts : List Text) :
    ∃ w', lib.printAll w texts = (w', none) ∧ shown w' = shown w ++ texts.flatten := by
  induction texts generalizing w with
  | nil => exact ⟨w, rfl, by simp⟩
  | cons t rest ih =>
    have hnone := hlossless.never_fails w t
    have hshown := hlossless.appends w t
    rw [printAll]
    rcases hprint : lib.print w t with ⟨w₁, reason?⟩
    rw [hprint] at hnone hshown
    obtain rfl : reason? = none := hnone
    obtain ⟨w', hrest, hw'⟩ := ih w₁
    refine ⟨w', hrest, ?_⟩
    rw [hw', hshown, List.flatten_cons, List.append_assoc]

theorem printed_of_lossless (w : W) (texts : List Text) : (lib.printAll w texts).2 = none := by
  obtain ⟨w', hprint, _⟩ := printAll_of_lossless hlossless w texts
  rw [hprint]

theorem alike_deliverIn (s : Machine W) (o o' : Options) (output : Text) (p : Program) :
    (lib.deliverIn s o output p).Alike (lib.deliverIn s o' output p) := by
  obtain ⟨w, hprint, _⟩ := printAll_of_lossless hlossless s.stdout (lib.requested o p)
  obtain ⟨w', hprint', _⟩ := printAll_of_lossless hlossless s.stdout (lib.requested o' p)
  rcases hreplace : lib.replace s.tree output (HexImage.write p.words) with ⟨tree, _ | reason⟩
  · rw [deliverIn_of_written hprint hreplace, deliverIn_of_written hprint' hreplace]
    exact ⟨rfl, rfl, rfl⟩
  · rw [deliverIn_of_unwritten hprint hreplace, deliverIn_of_unwritten hprint' hreplace]
    exact ⟨rfl, rfl, rfl⟩

/-- **What is printed changes nothing else**: only strictness matters to failure, log and files -/
theorem alike_assembleIn (s : Machine W) (o o' : Options) (hstrict : o.strict = o'.strict) (input output : Text) :
    (lib.assembleIn s o input output).Alike (lib.assembleIn s o' input output) := by
  refine assembleIn_related .refl ?_ fun s p => alike_deliverIn hlossless s o o' output p
  intro source p _ _
  simp only [strictFault?, hstrict]

theorem shown_deliverIn {s : Machine W} {o : Options} {output : Text} {p : Program}
    (h : (lib.deliverIn s o output p).error = none) :
    shown (lib.deliverIn s o output p).stdout =
      shown s.stdout ++ (lib.requested o p).flatten ++ successLine p output := by
  obtain ⟨w, hprint, hshown⟩ := printAll_of_lossless hlossless s.stdout (lib.requested o p)
  rcases hreplace : lib.replace s.tree output (HexImage.write p.words) with ⟨tree, _ | reason⟩
  · rw [deliverIn_of_written hprint hreplace]
    exact (hlossless.appends w _).trans (by rw [hshown])
  · rw [deliverIn_of_unwritten hprint hreplace] at h
    cases h

/-- what a successful assembly prints: what was asked for, and the report -/
theorem shown_assembleIn {s : Machine W} {o : Options} {input output source : Text} {p : Program}
    (hread : s.tree.read input = .ok source) (hassemble : assemble source = .ok p)
    (h : (lib.assembleIn s o input output).error = none) :
    shown (lib.assembleIn s o input output).stdout =
      shown s.stdout ++ (lib.requested o p).flatten ++ successLine p output := by
  cases hfault : strictFault? o p with
  | some fault =>
    rw [assembleIn_of_strictFault o output hread hassemble hfault] at h
    cases h
  | none =>
    rw [assembleIn_of_program o output hread hassemble hfault] at h ⊢
    exact shown_deliverIn hlossless h

end

/-! ## Strictness -/

section
variable {s : Machine W} {input : Text} (o : Options) (output : Text)

/-- strictness changes nothing if there is nothing to warn of -/
theorem assembleIn_strict_of_quiet
    (h : ∀ source p, s.tree.read input = .ok source → assemble source = .ok p → p.warnings = []) :
    lib.assembleIn s { o with strict := true } input output =
      lib.assembleIn s { o with strict := false } input output := by
  refine assembleIn_related (R := Eq) (fun _ => rfl) ?_ fun _ _ => rfl
  intro source p hread hassemble
  rw [strictFault?_eq_none_iff.2 fun _ => h source p hread hassemble]
  rfl

/-- a strict assembly of a program with warnings fails with the first of them; it logs the warnings and no more -/
theorem assembleIn_strict_of_warning {source : Text} {p : Program} {w : Warning} {rest : List Warning}
    (hread : s.tree.read input = .ok source) (hassemble : assemble source = .ok p) (hwarnings : p.warnings = w :: rest) :
    lib.assembleIn s { o with strict := true } input output =
      ⟨{ s with log := s.log ++ warningRecords input p }, some (.assembly input w.fault)⟩ := by
  refine assembleIn_of_strictFault _ output hread hassemble ?_
  rw [strictFault?, hwarnings]
  rfl

theorem log_deliverIn (s : Machine W) (p : Program) : (lib.deliverIn s o output p).log = s.log := by
  rcases hprint : lib.printAll s.stdout (lib.requested o p) with ⟨w, _ | reason⟩
  · rcases hreplace : lib.replace s.tree output (HexImage.write p.words) with ⟨tree, _ | reason⟩
    · rw [deliverIn_of_written hprint hreplace]
    · rw [deliverIn_of_unwritten hprint hreplace]
  · rw [deliverIn_of_unprinted hprint]

/-- an assembly that is not strict logs the warnings, and then how large the program is -/
theorem log_assembleIn_lax {source : Text} {p : Program} (hread : s.tree.read input = .ok source)
    (hassemble : assemble source = .ok p) :
    (lib.assembleIn s { o with strict := false } input output).log =
      s.log ++ warningRecords input p ++ [sizeRecord input p] := by
  rw [assembleIn_of_program _ output hread hassemble rfl, log_deliverIn]

/-- a strict assembly succeeds exactly if all values of the program fit, and the image can be written -/
theorem error_assembleIn_strict_eq_none_iff {shown : W → Text} (hlossless : Lossless lib.print shown) :
    (lib.assembleIn s { o with strict := true } input output).error = none ↔
      ∃ source p, s.tree.read input = .ok source ∧ assemble source = .ok p ∧ p.Fits ∧
        (lib.replace s.tree output (HexImage.write p.words)).2 = none := by
  rw [error_assembleIn_eq_none_iff]
  refine exists_congr fun source => exists_congr fun p => and_congr_right fun _ => and_congr_right fun hassemble => ?_
  obtain ⟨labels, _, hencode⟩ := assemble_eq_ok_iff.1 hassemble
  rw [← warnings_eq_nil_iff_fits hencode, forall_prop_of_true rfl]
  simp [printed_of_lossless hlossless]

end

end Libraries

/-- **Options do not change what is assembled**, for any libraries whose output takes all that is printed, and for any
files and paths. Asking for the listing or the symbols changes neither the failure of an assembly nor its log nor the
files; on success the symbols are printed if asked for, then the listing if asked for, then the same report. Strictness
makes no difference at all to a program without warnings. A strict assembly of a program with warnings fails with the
first of them, prints nothing, logs the warnings that are logged otherwise, and leaves the files as they were. So a
strict assembly succeeds only if all values of the program fit a byte. -/
theorem options_keep_program {W : Type} (lib : Libraries W) (shown : W → Text) (hlossless : Lossless lib.print shown)
    (s : Machine W) (o : Options) (input output : Text) :
    (∀ listing symbols : Bool,
      (lib.assembleIn s { o with listing, symbols } input output).Alike (lib.assembleIn s o input output)) ∧
    ((lib.assembleIn s o input output).error = none →
      ∃ source p, s.tree.read input = .ok source ∧ assemble source = .ok p ∧ ∀ listing symbols : Bool,
        shown (lib.assembleIn s { o with listing, symbols } input output).stdout =
          shown s.stdout ++ ((if symbols then (lib.dump p.labels.symbols).flatten else []) ++
            (if listing then p.listing else [])) ++ successLine p output) ∧
    ((∀ source p, s.tree.read input = .ok source → assemble source = .ok p → p.warnings = []) →
      lib.assembleIn s { o with strict := true } input output =
        lib.assembleIn s { o with strict := false } input output) ∧
    (∀ source p w rest, s.tree.read input = .ok source → assemble source = .ok p → p.warnings = w :: rest →
      lib.assembleIn s { o with strict := true } input output =
        ⟨⟨s.tree, s.stdout, s.log ++ warningRecords input p⟩, some (.assembly input w.fault)⟩ ∧
      (lib.assembleIn s { o with strict := false } input output).log =
        s.log ++ warningRecords input p ++ [sizeRecord input p]) ∧
    ((lib.assembleIn s { o with strict := true } input output).error = none ↔
      ∃ source p, s.tree.read input = .ok source ∧ assemble source = .ok p ∧ p.Fits ∧
        (lib.replace s.tree output (HexImage.write p.words)).2 = none) := by
  have halike : ∀ listing symbols : Bool,
      (lib.assembleIn s { o with listing, symbols } input output).Alike (lib.assembleIn s o input output) :=
    fun listing symbols => Libraries.alike_assembleIn hlossless s { o with listing, symbols } o rfl input output
  refine ⟨halike, fun h => ?_, Libraries.assembleIn_strict_of_quiet o output, ?_,
    Libraries.error_assembleIn_strict_eq_none_iff o output hlossless⟩
  · obtain ⟨source, p, hread, hassemble, _⟩ := Libraries.error_assembleIn_eq_none_iff.1 h
    refine ⟨source, p, hread, hassemble, fun listing symbols => ?_⟩
    have herror := (halike listing symbols).error.trans h
    rw [Libraries.shown_assembleIn hlossless hread hassemble herror, Libraries.flatten_requested]
  · intro source p w rest hread hassemble hwarnings
    exact ⟨Libraries.assembleIn_strict_of_warning o output hread hassemble hwarnings,
      Libraries.log_assembleIn_lax o output hread hassemble⟩

theorem lossless_program : Lossless program.print fun texts => texts.reverse.flatten where
  never_fails _ _ := rfl
  appends _ _ := by simp [program]

/-- a program without warnings is printed with its listing, strict or not; a value that does not fit ends a strict
assembly with nothing printed -/
theorem options_keep_program_two_sources :
    (∃ p, assemble (ascii "halt") = .ok p ∧
      (program.assembleIn ⟨twoSources, [], []⟩ ⟨true, false, false⟩ (ascii "p.asm")
        (ascii "p.hex")).stdout.reverse.flatten = p.listing ++ successLine p (ascii "p.hex")) ∧
    program.assembleIn ⟨twoSources, [], []⟩ ⟨false, false, true⟩ (ascii "p.asm") (ascii "p.hex") =
      program.assembleIn ⟨twoSources, [], []⟩ ⟨false, false, false⟩ (ascii "p.asm") (ascii "p.hex") ∧
    (∃ p w, assemble (ascii "jmp 300") = .ok p ∧ p.warnings = [w] ∧
      program.assembleIn ⟨twoSources, [], []⟩ ⟨false, false, true⟩ (ascii "w.asm") (ascii "w.hex") =
        ⟨⟨twoSources, [], warningRecords (ascii "w.asm") p⟩, some (.assembly (ascii "w.asm") w.fault)⟩ ∧ ¬ p.Fits) := by
  have hread : twoSources.read (ascii "p.asm") = .ok (ascii "halt") := by decide
  have hreadWide : twoSources.read (ascii "w.asm") = .ok (ascii "jmp 300") := by decide
  obtain ⟨_, hprints, hquiet, _⟩ := options_keep_program program _ lossless_program ⟨twoSources, [], []⟩
    ⟨false, false, false⟩ (ascii "p.asm") (ascii "p.hex")
  obtain ⟨_, _, _, hwarns, hstrict⟩ := options_keep_program program _ lossless_program ⟨twoSources, [], []⟩
    ⟨false, false, false⟩ (ascii "w.asm") (ascii "w.hex")
  refine ⟨?_, hquiet ?_, ?_⟩
  · obtain ⟨source, p, hsource, hassemble, houtput⟩ := hprints (by decide)
    obtain rfl : ascii "halt" = source := Except.ok.inj (hread.symm.trans hsource)
    exact ⟨p, hassemble, houtput true false⟩
  · intro source p hsource hassemble
    obtain rfl : ascii "halt" = source := Except.ok.inj (hread.symm.trans hsource)
    obtain ⟨q, hq, hnone⟩ : ∃ q, assemble (ascii "halt") = .ok q ∧ q.warnings = [] := ⟨_, rfl, by decide⟩
    obtain rfl : q = p := Except.ok.inj (hq.symm.trans hassemble)
    exact hnone
  · obtain ⟨p, w, hp, hw⟩ : ∃ p w, assemble (ascii "jmp 300") = .ok p ∧ p.warnings = [w] := ⟨_, _, rfl, rfl⟩
    obtain ⟨hfails, _⟩ := hwarns _ p w [] hreadWide hp hw
    refine ⟨p, w, hp, hw, hfails, fun hfits => ?_⟩
    have hnone := hstrict.2 ⟨_, p, hreadWide, hp, hfits, rfl⟩
    rw [hfails] at hnone
    cases hnone

end Command

end TwoPass
