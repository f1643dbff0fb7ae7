/-
The two passes agree on addresses. The first pass gives a label the number of words that it has counted so far; the
second pass has emitted just as many when it comes to the same line.

- `LabelPass.step_eq_ok`: all that one step of the first pass can do
- `counter_of_labelPass`, `address_of_labelPass`: the counter at the end of the first pass, and the address it gives to
  each label
- `passes_agree`: labels stand where the words of the next instruction begin, or at the end of the program
-/
import Mathlib.Tactic
import TwoPass.Proofs.Emission

namespace TwoPass

/-! ## The first pass -/

@[simp] theorem LabelTable.address?_insert_self (table : LabelTable) (name : Text) (address : Nat) :
    (table.insert name address).address? name = some address := by
  simp [LabelTable.insert, LabelTable.address?]

theorem LabelTable.address?_insert_of_ne (table : LabelTable) {name other : Text} (address : Nat) (h : name ≠ other) :
    (table.insert name address).address? other = table.address? other := by
  simp [LabelTable.insert, LabelTable.address?, h]

namespace LabelPass

/-- all that a step can do: enter a label that is not there yet, or count the words of another line -/
theorem step_eq_ok {s s' : LabelPass} {line : Line} (h : s.step line = .ok s') :
    (∃ name, line.token = .label name ∧ s.table.address? name = none ∧
        s' = ⟨s.counter, s.table.insert name s.counter⟩) ∨
      ((∀ name, line.token ≠ .label name) ∧ s' = ⟨s.counter + line.token.size, s.table⟩) := by
  unfold step at h
  split at h
  · rename_i name htoken
    split_ifs at h with hname
    · left
      simp only [Except.ok.injEq] at h
      exact ⟨name, htoken, by simpa using hname, h.symm⟩
  · rename_i hnot
    right
    simp only [Except.ok.injEq] at h
    exact ⟨hnot, h.symm⟩

/-- a label that is not there yet is entered -/
theorem step_of_label {s : LabelPass} {line : Line} {name : Text} (htoken : line.token = .label name)
    (hname : s.table.address? name = none) : s.step line = .ok ⟨s.counter, s.table.insert name s.counter⟩ := by
  simp [step, htoken, hname]

/-- other lines are counted -/
theorem step_of_not_label {s : LabelPass} {line : Line} (h : ∀ name, line.token ≠ .label name) :
    s.step line = .ok ⟨s.counter + line.token.size, s.table⟩ := by
  unfold step
  split
  · rename_i name htoken
    exact absurd htoken (h name)
  · rfl

theorem counter_step {s s' : LabelPass} {line : Line} (h : s.step line = .ok s') :
    s'.counter = s.counter + line.token.size := by
  rcases step_eq_ok h with ⟨name, htoken, _, rfl⟩ | ⟨_, rfl⟩
  · rw [htoken]; rfl
  · rfl

/-- a label keeps its address -/
theorem address?_step {s s' : LabelPass} {line : Line} (h : s.step line = .ok s') {name : Text} {address : Nat}
    (hname : s.table.address? name = some address) : s'.table.address? name = some address := by
  rcases step_eq_ok h with ⟨other, _, hother, rfl⟩ | ⟨_, rfl⟩
  · have hne : other ≠ name := by rintro rfl; simp [hother] at hname
    rw [LabelTable.address?_insert_of_ne _ _ hne, hname]
  · exact hname

/-- what a run of the first pass keeps: it counts every line, and no label changes its address -/
theorem run_eq_ok {s s' : LabelPass} {lines : List Line} (h : lines.foldlM step s = .ok s') :
    s'.counter = s.counter + linesSize lines ∧
      ∀ name address, s.table.address? name = some address → s'.table.address? name = some address := by
  induction lines generalizing s with
  | nil =>
    obtain rfl : s = s' := by simpa [pure, Except.pure] using h
    exact ⟨rfl, fun _ _ h => h⟩
  | cons line lines ih =>
    rw [List.foldlM_cons] at h
    obtain ⟨middle, hstep, hrun⟩ := bind_eq_ok_iff.1 h
    obtain ⟨hcounter, hkeep⟩ := ih hrun
    refine ⟨?_, fun name address hname => hkeep name address (address?_step hstep hname)⟩
    rw [hcounter, counter_step hstep, linesSize_cons, Nat.add_assoc]

/-- a run over lines without labels only counts -/
theorem run_of_no_label (s : LabelPass) {lines : List Line} (h : ∀ line ∈ lines, ∀ name, line.token ≠ .label name) :
    lines.foldlM step s = .ok ⟨s.counter + linesSize lines, s.table⟩ := by
  induction lines generalizing s with
  | nil => rfl
  | cons line lines ih =>
    rw [List.foldlM_cons, step_of_not_label (h line List.mem_cons_self), linesSize_cons, ← Nat.add_assoc]
    exact ih _ fun line' hline' => h line' (List.mem_cons_of_mem line hline')

end LabelPass

theorem labelsOf_eq_ok_iff {lines : List Line} {table : LabelTable} :
    labelsOf lines = .ok table ↔ ∃ pass, labelPass lines = .ok pass ∧ pass.table = table :=
  map_eq_ok_iff

theorem assemble_eq_ok_iff {source : Text} {p : Program} :
    assemble source = .ok p ↔ ∃ table, labelsOf (scan source) = .ok table ∧ encode (scan source) table = .ok p := by
  unfold assemble
  cases labelsOf (scan source) <;> simp

/-- lines count from one -/
theorem number_of_scan {source : Text} {place : Nat} {line : Line} (h : (scan source)[place]? = some line) :
    line.number = place + 1 := by
  rw [scan, List.getElem?_map, List.getElem?_zipIdx, Option.map_map] at h
  obtain ⟨raw, _, rfl⟩ := Option.map_eq_some_iff.1 h
  change ((1 + place : Nat) : Int) = place + 1
  omega

theorem pairwise_scan (source : Text) : (scan source).Pairwise fun a b => a.number < b.number := by
  rw [List.pairwise_iff_getElem]
  intro i j hi hj hij
  rw [number_of_scan (List.getElem?_eq_getElem hi), number_of_scan (List.getElem?_eq_getElem hj)]
  omega

theorem counter_of_labelPass {lines : List Line} {pass : LabelPass} (h : labelPass lines = .ok pass) :
    pass.counter = linesSize lines := by
  rw [(LabelPass.run_eq_ok h).1, Nat.zero_add]

/-- a label has the number of words that were counted before it -/
theorem address_of_labelPass {before after : List Line} {line : Line} {name : Text} {pass : LabelPass}
    (h : labelPass (before ++ line :: after) = .ok pass) (htoken : line.token = .label name) :
    pass.table.address? name = some (linesSize before) := by
  rw [labelPass, List.foldlM_append] at h
  obtain ⟨atLabel, hbefore, h⟩ := bind_eq_ok_iff.1 h
  rw [List.foldlM_cons] at h
  obtain ⟨behind, hstep, hafter⟩ := bind_eq_ok_iff.1 h
  apply (LabelPass.run_eq_ok hafter).2
  rcases LabelPass.step_eq_ok hstep with ⟨other, hother, _, rfl⟩ | ⟨hnot, _⟩
  · obtain rfl : name = other := by simpa [htoken] using hother
    rw [LabelTable.address?_insert_self, counter_of_labelPass hbefore]
  · exact absurd htoken (hnot name)

/-! ## The instruction behind a label -/

theorem Line.instruction?_eq_some {line : Line} {number : Int} {fields : List Text}
    (h : line.instruction? = some (number, fields)) : line.number = number ∧ line.token = .instruction fields := by
  unfold Line.instruction? at h
  split at h
  · simp only [Option.some.injEq, Prod.mk.injEq] at h
    obtain ⟨rfl, rfl⟩ := h
    exact ⟨rfl, by assumption⟩
  · simp at h

/-- a line that is no instruction takes no words -/
theorem Line.size_eq_zero {line : Line} (h : line.instruction? = none) : line.token.size = 0 := by
  obtain ⟨number, text, token⟩ := line
  cases token <;> simp_all [Line.instruction?, Token.size]

theorem linesSize_eq_zero {lines : List Line} (h : ∀ line ∈ lines, line.instruction? = none) : linesSize lines = 0 := by
  induction lines with
  | nil => rfl
  | cons line lines ih =>
    rw [linesSize_cons, Line.size_eq_zero (h line List.mem_cons_self),
      ih fun line' hline' => h line' (List.mem_cons_of_mem line hline')]

/-- the number and the fields of the first instruction among lines -/
def firstInstruction? (lines : List Line) : Option (Int × List Text) := lines.findSome? Line.instruction?

/-- the lines before the first instruction take no words -/
theorem firstInstruction?_eq_some {lines : List Line} {number : Int} {fields : List Text}
    (h : firstInstruction? lines = some (number, fields)) :
    ∃ skipped line rest, lines = skipped ++ line :: rest ∧ skipped.filterMap Line.instruction? = [] ∧
      linesSize skipped = 0 ∧ line.number = number ∧ line.token = .instruction fields := by
  obtain ⟨skipped, line, rest, rfl, hline, hskipped⟩ := List.findSome?_eq_some_iff.1 h
  obtain ⟨hnumber, htoken⟩ := Line.instruction?_eq_some hline
  exact ⟨skipped, line, rest, rfl, List.filterMap_eq_nil_iff.2 hskipped, linesSize_eq_zero hskipped, hnumber, htoken⟩

theorem firstInstruction?_eq_none {lines : List Line} (h : firstInstruction? lines = none) : linesSize lines = 0 :=
  linesSize_eq_zero (List.findSome?_eq_none_iff.1 h)

/-- where the words of the lines after a label begin: at the first instruction among them, or at the end -/
def Program.Continues (p : Program) (address : Nat) (after : List Line) : Prop :=
  match firstInstruction? after with
  | some (number, fields) => p.Begins address number fields
  | none => address = p.words.length

/-- behind any lines, the program continues with the words of the lines that follow -/
theorem continues_of_encode {before after : List Line} {line : Line} {name : Text} {labels : LabelTable} {p : Program}
    (h : encode (before ++ line :: after) labels = .ok p) (htoken : line.token = .label name) :
    p.Continues (linesSize before) after := by
  have hzero : line.token.size = 0 := by rw [htoken]; rfl
  unfold Program.Continues
  split
  · rename_i number fields hnext
    obtain ⟨skipped, next, rest, rfl, _, hskipped, rfl, hfields⟩ := firstInstruction?_eq_some hnext
    have hsplit : before ++ line :: (skipped ++ next :: rest) = (before ++ line :: skipped) ++ next :: rest := by simp
    rw [hsplit] at h
    have hbegins := begins_of_encode h hfields
    rwa [linesSize_append, linesSize_cons, hzero, hskipped] at hbegins
  · rename_i hnone
    rw [length_words_of_encode h, linesSize_append, linesSize_cons, hzero, firstInstruction?_eq_none hnone]
    rfl

/-! ## Agreement -/

/-- the words of lines on both sides of a label -/
theorem encode_append_label {before after : List Line} {line : Line} {name : Text} {labels : LabelTable} {p : Program}
    (h : encode (before ++ line :: after) labels = .ok p) (htoken : line.token = .label name) :
    ∃ first rest, encode before labels = .ok first ∧ encode after labels = .ok rest ∧
      p.words = first.words ++ rest.words := by
  obtain ⟨emissions, hemit, rfl⟩ := encode_eq_ok_iff.1 h
  obtain ⟨first, rest, hfirst, hrest, rfl⟩ := emit_append_eq_ok hemit
  have hline : line.instruction? = none := by simp [Line.instruction?, htoken]
  rw [emit, List.filterMap_cons_none hline] at hrest
  exact ⟨_, _, encode_eq_ok_iff.2 ⟨first, hfirst, rfl⟩, encode_eq_ok_iff.2 ⟨rest, hrest, rfl⟩, wordsOf_append _ _⟩

/-- **The two passes agree on every address.** Whatever the lines are and whatever labels the second pass is given: the
address of a label is the number of words emitted for the lines before it. There the words of the next instruction
begin, or the program ends if no instruction follows. The first pass ends with the number of all words. -/
theorem passes_agree (lines : List Line) (labels table : LabelTable) (p : Program)
    (hlabels : labelsOf lines = .ok table) (hencode : encode lines labels = .ok p) :
    (∀ before line after name, lines = before ++ line :: after → line.token = .label name →
      ∃ first rest, encode before labels = .ok first ∧ encode after labels = .ok rest ∧
        p.words = first.words ++ rest.words ∧ table.address? name = some first.words.length ∧
        p.Continues first.words.length after) ∧
    ∃ pass, labelPass lines = .ok pass ∧ pass.table = table ∧ pass.counter = p.words.length := by
  obtain ⟨pass, hpass, rfl⟩ := labelsOf_eq_ok_iff.1 hlabels
  refine ⟨?_, pass, hpass, rfl, ?_⟩
  · rintro before line after name rfl htoken
    obtain ⟨first, rest, hfirst, hrest, hwords⟩ := encode_append_label hencode htoken
    have haddress := address_of_labelPass hpass htoken
    have hcontinues := continues_of_encode hencode htoken
    rw [← length_words_of_encode hfirst] at haddress hcontinues
    exact ⟨first, rest, hfirst, hrest, hwords, haddress, hcontinues⟩
  · rw [counter_of_labelPass hpass, length_words_of_encode hencode]

/-- a jump over a label to another one at the end, in lines that carry any numbers -/
def jumpLines : List Line :=
  [⟨7, [], .instruction [ascii "jmp", ascii "end"]⟩, ⟨-3, [], .label (ascii "skipped")⟩, ⟨0, [], .unknown⟩,
   ⟨7, [], .instruction [ascii "Ldi", ascii "r1", ascii "-1"]⟩, ⟨9, [], .label (ascii "end")⟩]

/-- the labels agree with the words also where the second pass is given other labels -/
theorem passes_agree_jump :
    labelsOf jumpLines = .ok ⟨[⟨ascii "end", 4⟩, ⟨ascii "skipped", 2⟩]⟩ ∧
    ∃ p, encode jumpLines ⟨[⟨ascii "end", 300⟩]⟩ = .ok p ∧ p.words = [0x8000, 44, 0x5200, 255] ∧
      p.Begins 2 7 [ascii "Ldi", ascii "r1", ascii "-1"] ∧
      ∃ pass, labelPass jumpLines = .ok pass ∧ pass.counter = 4 := by
  have hlabels : labelsOf jumpLines = .ok ⟨[⟨ascii "end", 4⟩, ⟨ascii "skipped", 2⟩]⟩ := by decide
  obtain ⟨p, hencode, hwords⟩ : ∃ p, encode jumpLines ⟨[⟨ascii "end", 300⟩]⟩ = .ok p ∧
      p.words = [0x8000, 44, 0x5200, 255] := ⟨_, rfl, by decide⟩
  obtain ⟨hlabel, pass, hpass, _, hcounter⟩ := passes_agree jumpLines _ _ p hlabels hencode
  obtain ⟨first, rest, _, _, _, haddress, hcontinues⟩ :=
    hlabel (jumpLines.take 1) _ (jumpLines.drop 2) (ascii "skipped") rfl rfl
  have hfirst : some 2 = some first.words.length := haddress
  rw [← Option.some.inj hfirst] at hcontinues
  exact ⟨hlabels, p, hencode, hwords, hcontinues, pass, hpass, by rw [hcounter, hwords]; rfl⟩

end TwoPass
