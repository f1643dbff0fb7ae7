/-
Sources laid out anew. Lines may be written anew and lines that say nothing be put between them: the program stays the
same, and so do its warnings, its source map and its failures, up to the numbers of the lines. Both passes are run side
by side over the two sources and compared line by line.

- `Edit`, `newNumber`: what becomes of the lines of a source, and of their numbers
- `textLines_edited`, `exists_newNumber`: the lines of the new source, and the place of each old line among them
- `statementLines_edited`: the statements of the two sources correspond, line by line
- `LabelPass.run_alike`, `emit_alike`: the passes on statements that correspond, from one line to all
- `layout_keeps_program`: both runs succeed, with the same program, or both fail, in the same way
-/
import Mathlib.Tactic
import TwoPass.Proofs.Spelling

namespace TwoPass

/-! ## Edits -/

/-- a line with nothing but blanks and perhaps a comment behind them -/
def SaysNothing (line : Text) : Prop :=
  byte '\n' ∉ line ∧ ∃ blanks comment, line = blanks ++ comment ∧ (∀ r ∈ runes blanks, r.isBlank = true) ∧
    ∀ mark ∈ comment.head?, beginsComment mark = true

/-- what becomes of a source at one place: a line stays, perhaps written anew, or a line that says nothing comes in -/
inductive Edit where
  | keep (line line' : Text) (h : Respelled line line')
  | insert (line : Text) (h : SaysNothing line)

namespace Edit

/-- the line that an edit starts from -/
def before? : Edit → Option Text
  | keep line _ _ => some line
  | insert _ _ => none

/-- the line that an edit leaves -/
def after : Edit → Text
  | keep _ line' _ => line'
  | insert line _ => line

end Edit

/-- the source that edits leave -/
def edited (edits : List Edit) : Text := Text.join [byte '\n'] (edits.map Edit.after)

/-- the number of a line after the edits, from its number before them -/
def newNumber : List Edit → Int → Int
  | [], number => number
  | .keep _ _ _ :: edits, number => if number = 1 then 1 else newNumber edits (number - 1) + 1
  | .insert _ _ :: edits, number => newNumber edits number + 1

/-! ## The new source -/

theorem not_mem_of_respelled {line line' : Text} (h : Respelled line line') (hline : byte '\n' ∉ line) :
    byte '\n' ∉ line' := by
  have hletter : ∀ {u v : Text} {c c' : UInt8}, AsciiLetter c' → byte '\n' ∉ u ++ c :: v →
      byte '\n' ∉ u ++ c' :: v := by
    intro u v c c' hc' hmem
    simp only [List.mem_append, List.mem_cons, not_or] at hmem ⊢
    exact ⟨hmem.1, hc'.not_lineEnd.symm, hmem.2.2⟩
  induction h with
  | refl => exact hline
  | trans _ _ ih ih' => exact ih' (ih hline)
  | lineEnd line => simpa [hline] using (by decide : byte '\n' ≠ byte '\r')
  | @comment line mark text tail hmark htext htail =>
    have hne : byte '\n' ≠ mark := by
      rintro rfl
      cases hmark
    simp only [List.mem_append, List.mem_cons, not_or] at hline ⊢
    exact ⟨⟨hline.1, hne, htext⟩, hline.2⟩
  | mnemonic _ _ _ hsame => exact hletter hsame.right hline
  | register _ _ _ _ _ _ hc hc' => exact hletter (sameLetter_of_mem hc hc').right hline

/-- the lines of the new source are those that the edits leave -/
theorem textLines_edited {source : Text} {edits : List Edit} (h : edits.filterMap Edit.before? = textLines source) :
    textLines (edited edits) = edits.map Edit.after := by
  have hne : edits.map Edit.after ≠ [] := by
    intro hnil
    rw [List.map_eq_nil_iff.1 hnil] at h
    exact pieces_ne_nil _ _ h.symm
  refine textLines_join hne fun line hline => ?_
  obtain ⟨edit, hedit, rfl⟩ := List.mem_map.1 hline
  cases edit with
  | insert line hnothing => exact hnothing.1
  | keep line line' hsame =>
    have hmem : line ∈ textLines source := by
      rw [← h]
      exact List.mem_filterMap.2 ⟨_, hedit, rfl⟩
    refine not_mem_of_respelled hsame fun hfeed => ?_
    have hsolid := (mem_pieces hmem).2 _ hfeed
    cases hsolid

/-- a line is found again, perhaps written anew, under its new number -/
theorem exists_newNumber (edits : List Edit) (place : Nat) (line : Text)
    (h : (edits.filterMap Edit.before?)[place]? = some line) :
    ∃ (place' : Nat) (line' : Text), newNumber edits (place + 1) = place' + 1 ∧
      (edits.map Edit.after)[place']? = some line' ∧ Respelled line line' := by
  induction edits generalizing place with
  | nil => cases h
  | cons edit edits ih =>
    cases edit with
    | insert inserted hnothing =>
      obtain ⟨place', line', hnumber, hline', hsame⟩ := ih place h
      refine ⟨place' + 1, line', ?_, hline', hsame⟩
      rw [newNumber, hnumber]
      push_cast
      rfl
    | keep kept kept' hkept =>
      cases place with
      | zero =>
        obtain rfl : kept = line := Option.some.inj h
        exact ⟨0, kept', rfl, rfl, hkept⟩
      | succ place =>
        obtain ⟨place', line', hnumber, hline', hsame⟩ := ih place h
        refine ⟨place' + 1, line', ?_, hline', hsame⟩
        have hlater : ((place + 1 : Nat) : Int) + 1 ≠ 1 := by omega
        rw [newNumber, if_neg hlater, Int.add_sub_cancel]
        push_cast
        rw [hnumber]

/-! ## Statements that correspond -/

theorem tokenize_of_saysNothing {line : Text} (h : SaysNothing line) : tokenize line = .empty := by
  obtain ⟨_, blanks, comment, rfl, hblanks, hcomment⟩ := h
  have hcode : tokenize (blanks ++ comment) = tokenize blanks := by
    cases comment with
    | nil => rw [List.append_nil]
    | cons mark text => exact tokenize_append_mark (hcomment mark rfl) blanks text
  have hclean : withoutComment blanks = blanks := by
    refine List.takeWhile_eq_self_iff.2 fun b hb => ?_
    have hforms : ∀ mark, beginsComment mark = true → mark < 0x80 ∧ (Rune.ofAscii mark).isBlank = false := by
      intro mark hmark
      simp only [beginsComment, Bool.or_eq_true, beq_iff_eq] at hmark
      rcases hmark with rfl | rfl <;> decide
    by_contra hmark
    obtain ⟨hascii, hsolid⟩ := hforms b (by simpa using hmark)
    rw [hblanks _ (ofAscii_mem_runes hascii hb)] at hsolid
    cases hsolid
  rw [hcode, tokenize, hclean, Text.trim, trimRunes_eq_nil hblanks]
  rfl

/-- lines read one after another, from a number on -/
def readLines (number : Nat) (raws : List Text) : List Line :=
  (raws.zipIdx number).map fun (raw, n) => Line.read n raw

theorem scan_eq_readLines (source : Text) : scan source = readLines 1 (textLines source) := rfl

theorem readLines_cons (number : Nat) (raw : Text) (raws : List Text) :
    readLines number (raw :: raws) = Line.read number raw :: readLines (number + 1) raws := rfl

/-- a line and its counterpart in another source: the number is mapped, the token alike -/
structure Line.Alike (number : Int → Int) (line line' : Line) : Prop where
  number : line'.number = number line.number
  token : line.token.Alike line'.token

theorem Token.Alike.isStatement {t t' : Token} (h : t.Alike t') : t'.isStatement = t.isStatement := by
  cases h <;> rfl

theorem le_number_of_mem_readLines {number : Nat} {raws : List Text} {line : Line} (h : line ∈ readLines number raws) :
    (number : Int) ≤ line.number := by
  obtain ⟨⟨raw, n⟩, hmem, rfl⟩ := List.mem_map.1 h
  exact Int.ofNat_le.2 (List.le_snd_of_mem_zipIdx hmem)

/-- **The statements of the two sources correspond.** Lines that say nothing are in neither list; the sources begin at
the numbers `first` and `first'`. -/
theorem statementLines_edited (edits : List Edit) (first first' : Nat) :
    List.Forall₂ (Line.Alike fun number => newNumber edits (number - first + 1) + first' - 1)
      (statementLines (readLines first (edits.filterMap Edit.before?)))
      (statementLines (readLines first' (edits.map Edit.after))) := by
  induction edits generalizing first first' with
  | nil => exact .nil
  | cons edit edits ih =>
    cases edit with
    | insert line h =>
      -- the new source has one line more, and no statement on it
      have hempty : (Line.read first' line).token.isStatement = false := by
        rw [Line.read, tokenize_dropReturn, tokenize_of_saysNothing h]
        rfl
      rw [List.filterMap_cons_none rfl, List.map_cons, Edit.after, readLines_cons, statementLines_cons_of_neg hempty]
      refine (ih first (first' + 1)).imp fun line line' halike => ⟨?_, halike.token⟩
      rw [halike.number, newNumber]
      push_cast
      omega
    | keep line line' h =>
      have htoken : (Line.read first line).token.Alike (Line.read first' line').token := by
        rw [Line.read, Line.read, tokenize_dropReturn, tokenize_dropReturn]
        exact h.alike
      have hrest : List.Forall₂
          (Line.Alike fun number => newNumber (.keep line line' h :: edits) (number - first + 1) + first' - 1)
          (statementLines (readLines (first + 1) (edits.filterMap Edit.before?)))
          (statementLines (readLines (first' + 1) (edits.map Edit.after))) := by
        have hbelow : ∀ l ∈ statementLines (readLines (first + 1) (edits.filterMap Edit.before?)),
            (first : Int) + 1 ≤ l.number := fun l hl =>
          le_number_of_mem_readLines (List.mem_of_mem_filter hl)
        refine ((List.forall₂_and_left _ _).2 ⟨hbelow, ih (first + 1) (first' + 1)⟩).imp fun l l' hl => ?_
        refine ⟨?_, hl.2.token⟩
        -- the lines below are numbered from the next number on, so none of them is the first
        have hlater : l.number - first + 1 ≠ 1 := by
          have := hl.1
          omega
        rw [hl.2.number, newNumber, if_neg hlater]
        push_cast
        rw [show l.number - ((first : Int) + 1) + 1 = l.number - first + 1 - 1 by omega]
        omega
      have hbefore : (Edit.keep line line' h).before? = some line := rfl
      rw [List.filterMap_cons_some hbefore, List.map_cons, Edit.after, readLines_cons, readLines_cons]
      cases hstatement : (Line.read first line).token.isStatement with
      | true =>
        rw [statementLines_cons_of_pos hstatement,
          statementLines_cons_of_pos (htoken.isStatement.trans hstatement)]
        refine .cons ⟨?_, htoken⟩ hrest
        simp [Line.read, newNumber]
      | false =>
        rw [statementLines_cons_of_neg hstatement,
          statementLines_cons_of_neg (htoken.isStatement.trans hstatement)]
        exact hrest

/-! ## The first pass -/

/-- what is compared of a fault: its line, mapped, and its kind -/
def Fault.seen (number : Int → Int) (fault : Fault) : Int × Text := (number fault.line, fault.cause.kind)

section
variable {number : Int → Int}

theorem LabelPass.step_alike {line line' : Line} (h : line.Alike number line') (s : LabelPass) :
    (s.step line').mapError (Fault.seen id) = (s.step line).mapError (Fault.seen number) := by
  obtain ⟨n, text, token⟩ := line
  obtain ⟨n', text', token'⟩ := line'
  obtain ⟨hnumber, htoken⟩ := h
  simp only at hnumber htoken
  cases htoken with
  | instruction size _ =>
    simp only [step, size]
    rfl
  | refl =>
    cases token with
    | label name =>
      simp only [step, hnumber]
      cases (s.table.address? name).isSome with
      | true => rfl
      | false => rfl
    | empty | instruction _ | unknown => rfl

/-- **The first pass on statements that correspond**: the same labels, or the same fault on the line that corresponds -/
theorem LabelPass.run_alike {lines lines' : List Line} (h : List.Forall₂ (Line.Alike number) lines lines')
    (s : LabelPass) :
    (lines'.foldlM step s).mapError (Fault.seen id) = (lines.foldlM step s).mapError (Fault.seen number) := by
  induction h generalizing s with
  | nil => rfl
  | cons hline _ ih =>
    rw [List.foldlM_cons, List.foldlM_cons, mapError_bind, mapError_bind, step_alike hline]
    simp only [ih]

/-! ## The second pass -/

/-- a warning on another line -/
def Warning.renumber (number : Int → Int) (w : Warning) : Warning := { w with line := number w.line }

/-- an emission of another line -/
def Emission.renumber (number : Int → Int) (e : Emission) : Emission :=
  ⟨number e.line, e.words, e.warnings.map (Warning.renumber number)⟩

theorem warnings_renumber (line : Int) (arguments : List Argument) :
    arguments.filterMap (Argument.warning? (number line)) =
      (arguments.filterMap (Argument.warning? line)).map (Warning.renumber number) := by
  rw [List.map_filterMap]
  refine List.filterMap_congr fun a _ => ?_
  cases a with
  | register r => rfl
  | value role v =>
    simp only [Argument.warning?]
    split_ifs
    · rfl
    · rfl

theorem emitInstruction_alike {labels : LabelTable} {fields fields' : List Text}
    (h : (readInstruction labels fields').mapError Cause.kind = (readInstruction labels fields).mapError Cause.kind)
    (line : Int) :
    (emitInstruction labels (number line) fields').mapError (Fault.seen id) =
      ((emitInstruction labels line fields).map (Emission.renumber number)).mapError (Fault.seen number) := by
  unfold emitInstruction
  cases hread : readInstruction labels fields with
  | error cause =>
    rw [hread] at h
    obtain ⟨cause', hread', hkind⟩ := mapError_eq_error_iff.1 h
    rw [hread']
    exact congrArg (fun kind => Except.error (number line, kind)) hkind
  | ok read =>
    rw [hread] at h
    rw [mapError_eq_ok_iff.1 h]
    obtain ⟨m, arguments⟩ := read
    simp only [warnings_renumber]
    rfl

/-- the instructions of statements that correspond are read alike -/
theorem instructions_alike {lines lines' : List Line} (h : List.Forall₂ (Line.Alike number) lines lines')
    (labels : LabelTable) :
    List.Forall₂ (fun x x' => (emitInstruction labels x'.1 x'.2).mapError (Fault.seen id) =
        ((emitInstruction labels x.1 x.2).map (Emission.renumber number)).mapError (Fault.seen number))
      (lines.filterMap Line.instruction?) (lines'.filterMap Line.instruction?) := by
  induction h with
  | nil => exact .nil
  | @cons line line' lines lines' hline _ ih =>
    obtain ⟨n, text, token⟩ := line
    obtain ⟨n', text', token'⟩ := line'
    obtain ⟨hnumber, htoken⟩ := hline
    simp only at hnumber htoken
    subst hnumber
    cases htoken with
    | instruction _ read => exact .cons (emitInstruction_alike (read labels) n) ih
    | refl =>
      cases token with
      | instruction fields => exact .cons (emitInstruction_alike rfl n) ih
      | empty | label _ | unknown => exact ih

/-- **The second pass on statements that correspond**: the same emissions, or the same fault, on the lines that
correspond -/
theorem emit_alike {lines lines' : List Line} (h : List.Forall₂ (Line.Alike number) lines lines')
    (labels : LabelTable) :
    (emit lines' labels).mapError (Fault.seen id) =
      ((emit lines labels).map (List.map (Emission.renumber number))).mapError (Fault.seen number) := by
  rw [emit, emit, map_mapM, mapError_mapM, mapError_mapM]
  exact mapM_eq_of_forall₂ (instructions_alike h labels)

theorem emit_statementLines (lines : List Line) (labels : LabelTable) :
    emit (statementLines lines) labels = emit lines labels := by
  rw [emit, filterMap_statementLines, emit]

theorem words_renumber (emissions : List Emission) :
    wordsOf (emissions.map (Emission.renumber number)) = wordsOf emissions := by
  rw [wordsOf, List.flatMap_map]
  rfl

theorem flatMap_warnings_renumber (emissions : List Emission) :
    (emissions.map (Emission.renumber number)).flatMap Emission.warnings =
      (emissions.flatMap Emission.warnings).map (Warning.renumber number) := by
  rw [List.flatMap_map, List.map_flatMap]
  rfl

theorem placeFrom_renumber (address : Nat) (emissions : List Emission) :
    placeFrom address (emissions.map (Emission.renumber number)) [] =
      (placeFrom address emissions []).map fun entry => (entry.1, number entry.2) := by
  induction emissions generalizing address with
  | nil => rfl
  | cons e emissions ih =>
    rw [List.map_cons, placeFrom_cons, placeFrom_cons, List.map_cons, ← ih]
    rfl

end

/-! ## Both passes -/

/-- a program and its counterpart: all is the same, up to the numbers of lines -/
structure Program.Alike (number : Int → Int) (p p' : Program) : Prop where
  words : p'.words = p.words
  labels : p'.labels = p.labels
  warnings : p'.warnings = p.warnings.map (Warning.renumber number)
  sourceMap : p'.sourceMap = p.sourceMap.map fun entry => (entry.1, number entry.2)

/-- a fault and its counterpart: the kind is the same, and the lines correspond -/
structure Fault.Alike (number : Int → Int) (fault fault' : Fault) : Prop where
  kind : fault'.cause.kind = fault.cause.kind
  line : fault'.line = number fault.line

section
variable {number : Int → Int} {source source' : Text}
  (h : List.Forall₂ (Line.Alike number) (statementLines (scan source)) (statementLines (scan source')))
include h

theorem labelPass_alike :
    (labelPass (scan source')).mapError (Fault.seen id) = (labelPass (scan source)).mapError (Fault.seen number) := by
  rw [labelPass, labelPass, ← LabelPass.run_statementLines _ (scan source'),
    ← LabelPass.run_statementLines _ (scan source)]
  exact LabelPass.run_alike h _

theorem labelPass_alike_of_ok {pass : LabelPass} (hpass : labelPass (scan source) = .ok pass) :
    labelPass (scan source') = .ok pass := by
  have hseen := labelPass_alike h
  rw [hpass] at hseen
  exact mapError_eq_ok_iff.1 hseen

theorem emit_scan_alike (labels : LabelTable) :
    (emit (scan source') labels).mapError (Fault.seen id) =
      ((emit (scan source) labels).map (List.map (Emission.renumber number))).mapError (Fault.seen number) := by
  rw [← emit_statementLines (scan source'), ← emit_statementLines (scan source)]
  exact emit_alike h labels

theorem assemble_alike_of_ok {p : Program} (hp : assemble source = .ok p) :
    ∃ p', assemble source' = .ok p' ∧ p.Alike number p' := by
  obtain ⟨table, htable, hencode⟩ := assemble_eq_ok_iff.1 hp
  obtain ⟨pass, hpass, rfl⟩ := labelsOf_eq_ok_iff.1 htable
  obtain ⟨emissions, hemit, rfl⟩ := encode_eq_ok_iff.1 hencode
  have hpass' := labelPass_alike_of_ok h hpass
  have hemit' : emit (scan source') pass.table = .ok (emissions.map (Emission.renumber number)) := by
    have hseen := emit_scan_alike h pass.table
    rw [hemit] at hseen
    exact mapError_eq_ok_iff.1 hseen
  have hencode' := encode_eq_ok_iff.2 ⟨_, hemit', rfl⟩
  refine ⟨_, assemble_eq_ok_iff.2 ⟨_, labelsOf_eq_ok_iff.2 ⟨pass, hpass', rfl⟩, hencode'⟩, ?_⟩
  exact ⟨words_renumber emissions, rfl, flatMap_warnings_renumber emissions, placeFrom_renumber 0 emissions⟩

theorem assemble_alike_of_error {fault : Fault} (hfault : assemble source = .error fault) :
    ∃ fault', assemble source' = .error fault' ∧ fault.Alike number fault' := by
  have halike : ∀ {fault' : Fault}, fault'.seen id = fault.seen number → fault.Alike number fault' := by
    intro fault' hseen
    obtain ⟨hline, hkind⟩ := Prod.mk.inj hseen
    exact ⟨hkind, hline⟩
  rcases assemble_eq_error hfault with hpass | ⟨pass, hpass, hemit⟩
  · have hseen := labelPass_alike h
    rw [hpass] at hseen
    obtain ⟨fault', hpass', hsame⟩ := mapError_eq_error_iff.1 hseen
    exact ⟨fault', by rw [assemble, labelsOf, hpass']; rfl, halike hsame⟩
  · have hseen := emit_scan_alike h pass.table
    rw [hemit] at hseen
    obtain ⟨fault', hemit', hsame⟩ := mapError_eq_error_iff.1 hseen
    refine ⟨fault', ?_, halike hsame⟩
    rw [assemble, labelsOf, labelPass_alike_of_ok h hpass]
    simp only [Except.map, encode, hemit']

end

/-- **Layout never changes the program.** The lines of a source may end in carriage returns or not, have comments or
not, and use letters of either case in mnemonics and register names; lines that say nothing may stand anywhere between
them. Each line has a new number, under which it is found again. The new source assembles exactly if the old one does.
The program has the same words and labels, and the same warnings and source map with the new numbers of lines. A failure
stays of the same kind, on the line with the new number. -/
theorem layout_keeps_program (source : Text) (edits : List Edit)
    (h : edits.filterMap Edit.before? = textLines source) :
    (∀ (place : Nat) (line : Text), (textLines source)[place]? = some line →
      ∃ (place' : Nat) (line' : Text), newNumber edits (place + 1) = place' + 1 ∧
        (textLines (edited edits))[place']? = some line' ∧ Respelled line line') ∧
    ((∃ p', assemble (edited edits) = .ok p') ↔ ∃ p, assemble source = .ok p) ∧
    (∀ p, assemble source = .ok p →
      ∃ p', assemble (edited edits) = .ok p' ∧ p.Alike (newNumber edits) p') ∧
    ∀ fault, assemble source = .error fault →
      ∃ fault', assemble (edited edits) = .error fault' ∧ fault.Alike (newNumber edits) fault' := by
  have hlines : List.Forall₂ (Line.Alike (newNumber edits)) (statementLines (scan source))
      (statementLines (scan (edited edits))) := by
    have halike := statementLines_edited edits 1 1
    rw [h, ← textLines_edited h, ← scan_eq_readLines, ← scan_eq_readLines] at halike
    simpa using halike
  refine ⟨fun place line hline => ?_, ⟨?_, ?_⟩, fun p => assemble_alike_of_ok hlines,
    fun fault => assemble_alike_of_error hlines⟩
  · rw [textLines_edited h]
    exact exists_newNumber edits place line (by rw [h, hline])
  · rintro ⟨p', hp'⟩
    cases hsource : assemble source with
    | ok p => exact ⟨p, rfl⟩
    | error fault =>
      obtain ⟨fault', hfault', _⟩ := assemble_alike_of_error hlines hsource
      rw [hp'] at hfault'
      cases hfault'
  · rintro ⟨p, hp⟩
    obtain ⟨p', hp', _⟩ := assemble_alike_of_ok hlines hp
    exact ⟨p', hp'⟩

/-- a line with capitals, a comment and a carriage return -/
theorem respelled_load : Respelled (ascii "ld r1, 300") (ascii "Ld R1, 300;b\r") := by
  have hmnemonic : Respelled (ascii "ld r1, 300") (ascii "Ld r1, 300") :=
    @Respelled.mnemonic [] (ascii "d r1, 300") [] (byte 'l') (byte 'L') _ rfl (by simp) (by decide)
      ⟨11, by decide, by decide, by decide⟩
  have hcode : ∀ b ∈ ascii "Ld ", beginsComment b = false := by
    have hall : (ascii "Ld ").all (fun b => !beginsComment b) = true := by decide
    simpa using hall
  have hregister : Respelled (ascii "Ld r1, 300") (ascii "Ld R1, 300") :=
    @Respelled.register (ascii "Ld ") (ascii "1, 300") (ascii "Ld") (byte 'r') (byte 'R') _ [] .ld _ rfl hcode
      (by decide) (by decide) rfl (by decide) (by decide) (by decide)
  have hcomment : Respelled (ascii "Ld R1, 300") (ascii "Ld R1, 300;b") :=
    @Respelled.comment (ascii "Ld R1, 300") (byte ';') (ascii "b") [] (by decide) (by decide) (Or.inl rfl)
  exact ((hmnemonic.trans hregister).trans hcomment).trans (.lineEnd _)

/-- a comment in front of one line -/
def commented {line line' : Text} (h : Respelled line line') : List Edit :=
  [.insert (ascii " ;a") ⟨by decide, ascii " ", ascii ";a", rfl, by decide, by rintro _ ⟨⟩; decide⟩, .keep line line' h]

/-- the warning of a line that was laid out anew, and the fault of another, are on the line below -/
theorem layout_keeps_program_commented :
    edited (commented respelled_load) = ascii " ;a\nLd R1, 300;b\r" ∧
    (∃ p p', assemble (ascii "ld r1, 300") = .ok p ∧ assemble (edited (commented respelled_load)) = .ok p' ∧
      p.Alike (newNumber (commented respelled_load)) p' ∧ p'.words = [0x6200, 44] ∧
      p'.warnings.map Warning.line = [2]) ∧
    ∃ fault', assemble (edited (commented (.refl (ascii "x")))) = .error fault' ∧
      fault'.cause.kind = ascii "unknown mnemonic" ∧ fault'.line = 2 := by
  refine ⟨by decide, ?_, ?_⟩
  · obtain ⟨p, hp, hwords, hwarnings⟩ : ∃ p, assemble (ascii "ld r1, 300") = .ok p ∧ p.words = [0x6200, 44] ∧
        p.warnings.map Warning.line = [1] := ⟨_, rfl, by decide, by decide⟩
    obtain ⟨p', hp', halike⟩ := (layout_keeps_program _ (commented respelled_load) (by decide)).2.2.1 p hp
    refine ⟨p, p', hp, hp', halike, halike.words.trans hwords, ?_⟩
    have hnumbers : (p.warnings.map Warning.line).map (newNumber (commented respelled_load)) = [2] := by
      rw [hwarnings]
      decide
    rw [halike.warnings, ← hnumbers, List.map_map, List.map_map]
    rfl
  · have hx : assemble (ascii "x") = .error ⟨1, .unknownMnemonic (ascii "x")⟩ := rfl
    obtain ⟨fault', hfault', halike⟩ :=
      (layout_keeps_program (ascii "x") (commented (.refl (ascii "x"))) (by decide)).2.2.2 _ hx
    exact ⟨fault', hfault', halike.kind, halike.line⟩

end TwoPass
