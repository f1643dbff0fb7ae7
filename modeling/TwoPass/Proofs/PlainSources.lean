/-
Listings as sources. The last column of a listing has the statements of a program in plain form. Taken as a source of
its own it is the same program, unless an instruction refers to a label whose name ends in a colon: with a comma behind
it such a reference can be written, but in plain form its line ends in the colon and declares a label.

- `Token.Readable`: what the statements of a source file have in common, so that they can be read again
- `Token.Readable.tokenize_text`: a statement in plain form is read as itself
- `assemble_of_plainForm`: both passes look at nothing but the statements
- `plain_source_agrees`: the plain source is the same program exactly if no instruction ends in a colon
-/
import Mathlib.Algebra.Order.BigOperators.Group.List
import Mathlib.Tactic
import TwoPass.Assembly.Listing
import TwoPass.Proofs.Correspondence
import TwoPass.Proofs.Faults
import TwoPass.Proofs.Statements
import TwoPass.Proofs.TextParts

namespace TwoPass

/-! ## Statements -/

/-- the fields of an instruction with the mnemonic in capitals -/
def plainFields (fields : List Text) : List Text := (mnemonicField fields).capitals :: operandFields fields

namespace Token

/-- is a token a label or an instruction -/
def isStatement : Token → Bool
  | label _ | instruction _ => true
  | empty | unknown => false

/-- the statement of a token in plain form -/
def text : Token → Text
  | label name => name ++ ascii ":"
  | instruction fields => plainStatement fields
  | empty | unknown => []

/-- the token that the plain form of a statement stands for -/
def plain : Token → Token
  | instruction fields => instruction (plainFields fields)
  | token => token

end Token

/-- the lines that hold statements -/
def statementLines (lines : List Line) : List Line := lines.filter fun line => line.token.isStatement

/-- a source of the statements of lines, one a line in plain form -/
def plainSource (lines : List Line) : Text := (statementLines lines).flatMap fun line => line.token.text ++ ascii "\n"

theorem statementLines_cons_of_pos {line : Line} (h : line.token.isStatement = true) (lines : List Line) :
    statementLines (line :: lines) = line :: statementLines lines :=
  List.filter_cons_of_pos h

theorem statementLines_cons_of_neg {line : Line} (h : line.token.isStatement = false) (lines : List Line) :
    statementLines (line :: lines) = statementLines lines :=
  List.filter_cons_of_neg (by simp [h])

/-- the rows of a listing end with the lines of the plain source -/
theorem listingRows_statements (p : Program) :
    List.Forall₂ (fun row line => line.token.text ++ ascii "\n" <:+ row) p.listingRows (statementLines p.lines) := by
  unfold Program.listingRows
  generalize p.lines = lines
  induction lines with
  | nil => exact .nil
  | cons line lines ih =>
    obtain ⟨number, text, token⟩ := line
    cases token with
    | label name =>
      have hrow : name ++ ascii ":" ++ ascii "\n" <:+ labelRow p.labels number name := by
        have hend : ascii ":\n" = ascii ":" ++ ascii "\n" := rfl
        rw [labelRow, hend, List.append_assoc _ name, ← List.append_assoc name]
        exact List.suffix_append _ _
      exact .cons hrow ih
    | instruction fields =>
      refine .cons ?_ ih
      rw [instructionRow, List.append_assoc]
      exact List.suffix_append _ _
    | empty | unknown => exact ih

/-! ## Statements of a source file -/

/-- the names that labels have in a source file: trimmed, on one line and outside of comments -/
structure IsLabelName (name : Text) : Prop where
  trimmed : Text.trim name = name
  code : ∀ b ∈ name, beginsComment b = false
  line : byte '\n' ∉ name

/-- what the statements of a source file have in common, so that they can be read again: names as labels have them, and
fields behind a mnemonic of the table -/
inductive Token.Readable : Token → Prop where
  | label {name : Text} (hname : IsLabelName name) : Token.Readable (.label name)
  | instruction {fields : List Text} {m : Mnemonic} (hname : Mnemonic.ofName? (mnemonicField fields) = some m)
      (hoperands : ∀ o ∈ operandFields fields, IsField o) : Token.Readable (.instruction fields)

theorem mem_withoutComment {t : Text} {b : UInt8} (h : b ∈ withoutComment t) : b ∈ t ∧ beginsComment b = false :=
  ⟨(List.takeWhile_sublist _).subset h, by simpa using List.mem_takeWhile_imp h⟩

theorem isLabelName_of_tokenize {t name : Text} (hline : byte '\n' ∉ t) (h : tokenize t = .label name) :
    IsLabelName name := by
  unfold tokenize tokenizeCode at h
  split_ifs at h
  rw [Token.label.injEq] at h
  subst h
  have hcode : ∀ b ∈ Text.trim (Text.trim (withoutComment t)).dropLast, b ∈ withoutComment t := fun b hb =>
    mem_of_mem_trim (List.mem_of_mem_dropLast (mem_of_mem_trim hb))
  exact ⟨trim_trim _, fun b hb => (mem_withoutComment (hcode b hb)).2,
    fun hb => hline (mem_withoutComment (hcode _ hb)).1⟩

theorem isField_of_tokenize {t : Text} {fields : List Text} (h : tokenize t = .instruction fields) :
    ∀ f ∈ fields, IsField f := by
  unfold tokenize tokenizeCode at h
  split_ifs at h
  rw [Token.instruction.injEq] at h
  subst h
  intro f hf
  obtain ⟨hne, hsolid, hmem⟩ := mem_fieldsBy hf
  exact ⟨hne, hsolid, fun b hb => (mem_withoutComment (mem_of_mem_trim (hmem b hb))).2⟩

/-- the token of a line is read from a text without line feeds -/
theorem token_of_scan {source : Text} {line : Line} (h : line ∈ scan source) :
    ∃ t, byte '\n' ∉ t ∧ line.token = tokenize t := by
  obtain ⟨⟨raw, number⟩, hmem, rfl⟩ := List.mem_map.1 h
  have hsolid := (mem_pieces (List.fst_mem_of_mem_zipIdx hmem)).2
  refine ⟨dropReturn raw, fun hfeed => ?_, rfl⟩
  have hraw : byte '\n' ∈ raw := by
    unfold dropReturn at hfeed
    split_ifs at hfeed
    · exact List.mem_of_mem_dropLast hfeed
    · exact hfeed
  exact absurd (hsolid _ hraw) (by decide)

/-- the statements of a source file that can be assembled can be read again -/
theorem readable_of_assemble {source : Text} {p : Program} (h : assemble source = .ok p) {line : Line}
    (hline : line ∈ statementLines (scan source)) : line.token.Readable := by
  obtain ⟨hmem, hstatement⟩ := List.mem_filter.1 hline
  obtain ⟨t, hfeed, htoken⟩ := token_of_scan hmem
  cases hcase : line.token with
  | label name => exact .label (isLabelName_of_tokenize hfeed (htoken.symm.trans hcase))
  | instruction fields =>
    obtain ⟨table, _, hencode⟩ := assemble_eq_ok_iff.1 h
    obtain ⟨emissions, hemit, _⟩ := encode_eq_ok_iff.1 hencode
    obtain ⟨place, hplace⟩ := List.mem_iff_getElem?.1 hmem
    obtain ⟨m, arguments, hread⟩ := exists_read_of_emit hemit ⟨line, hplace, hcase⟩
    have hfields := isField_of_tokenize (htoken.symm.trans hcase)
    exact .instruction (readInstruction_eq_ok_iff.1 hread).1 fun o ho => hfields o (List.mem_of_mem_tail ho)
  | empty | unknown =>
    rw [hcase] at hstatement
    cases hstatement

/-! ## Reading statements again -/

theorem IsLabelName.tokenize {name : Text} (h : IsLabelName name) : tokenize (name ++ ascii ":") = .label name := by
  have hcolon : ascii ":" = [byte ':'] := rfl
  have hcode : withoutComment (name ++ ascii ":") = name ++ ascii ":" := by
    refine List.takeWhile_eq_self_iff.2 fun b hb => ?_
    rcases List.mem_append.1 hb with hb | hb
    · simp [h.code b hb]
    · rw [List.mem_singleton.1 hb]
      decide
  have hrunes : runes (name ++ ascii ":") = runes name ++ [Rune.ofAscii (byte ':')] :=
    runes_append_ascii (by decide) name []
  have htrim : Text.trim (name ++ ascii ":") = name ++ ascii ":" := by
    rw [Text.trim, trimRunes_eq_self, bytesOf_runes]
    · intro r hr
      rw [hrunes, List.head?_append] at hr
      -- the first rune is the first of the name, or the colon if the name is empty
      cases hfirst : (runes name).head? with
      | none =>
        rw [hfirst] at hr
        obtain rfl : Rune.ofAscii (byte ':') = r := by simpa using hr
        decide
      | some first =>
        rw [hfirst] at hr
        obtain rfl : first = r := by simpa using hr
        rw [← h.trimmed, runes_trim] at hfirst
        exact head?_trimRunes _ first hfirst
    · intro r hr
      rw [hrunes, List.getLast?_append] at hr
      obtain rfl : Rune.ofAscii (byte ':') = r := by simpa using hr
      decide
  rw [TwoPass.tokenize, hcode, htrim, tokenizeCode, hcolon, if_neg (by simp), if_pos (by simp [endsInColon]),
    List.dropLast_concat, h.trimmed]

/-- blank and comma are in no field, and neither are the ends of lines -/
theorem IsField.not_mem {t : Text} (h : IsField t) {b : UInt8} (hb : b < 0x80)
    (hseparates : (Rune.ofAscii b).separates = true) : b ∉ t := by
  intro hmem
  rw [h.solid _ (ofAscii_mem_runes hb hmem)] at hseparates
  cases hseparates

theorem isField_cons_name (m : Mnemonic) {operands : List Text} (h : ∀ o ∈ operands, IsField o) :
    ∀ f ∈ m.name :: operands, IsField f := by
  intro f hf
  rcases List.mem_cons.1 hf with rfl | hf
  · exact (plainText_name m).isField
  · exact h f hf

section
variable {fields : List Text} {m : Mnemonic} (hname : Mnemonic.ofName? (mnemonicField fields) = some m)
include hname

theorem plainFields_eq : plainFields fields = m.name :: operandFields fields := by
  rw [plainFields, Mnemonic.ofName?_eq_some_iff.1 hname]

theorem plainStatement_eq : plainStatement fields = plainStatement (m.name :: operandFields fields) := by
  have hcapitals : m.name.capitals = (mnemonicField fields).capitals := by
    rw [capitals_name, Mnemonic.ofName?_eq_some_iff.1 hname]
  change _ = if (operandFields fields).isEmpty then m.name.capitals
    else m.name.capitals ++ byte ' ' :: Text.join (ascii ", ") (operandFields fields)
  rw [hcapitals]
  rfl

theorem size_instruction : (Token.instruction fields).size = m.size := by
  rw [Token.size, hname]
  rfl

variable (hoperands : ∀ o ∈ operandFields fields, IsField o)
include hoperands

/-- a plain statement is on one line -/
theorem not_mem_plainStatement {b : UInt8} (hb : b = byte '\n' ∨ b = byte '\r') : b ∉ plainStatement fields := by
  have hblank : b < 0x80 ∧ (Rune.ofAscii b).separates = true ∧ b ≠ byte ',' ∧ b ≠ byte ' ' := by
    rcases hb with rfl | rfl <;> decide
  intro hmem
  rw [plainStatement_eq hname] at hmem
  rcases mem_plainStatement (capitals_name m) hmem with h | h | ⟨f, hf, hmem⟩
  · exact hblank.2.2.1 h
  · exact hblank.2.2.2 h
  · exact (isField_cons_name m hoperands f hf).not_mem hblank.1 hblank.2.1 hmem

/-- an instruction in plain form is read as a label if it ends like one, and else as itself -/
theorem tokenize_instruction :
    tokenize (plainStatement fields) =
      if endsInColon (plainStatement fields) then .label (Text.trim (plainStatement fields).dropLast)
      else .instruction (plainFields fields) := by
  rw [plainFields_eq hname, plainStatement_eq hname]
  exact tokenize_plainStatement_eq (capitals_name m) (isField_cons_name m hoperands)

end

/-- is a token an instruction that ends in a colon in plain form, like a label -/
def Token.looksLikeLabel : Token → Bool
  | .instruction fields => endsInColon (plainStatement fields)
  | _ => false

namespace Token.Readable
variable {token : Token} (h : token.Readable)
include h

theorem not_mem_text : byte '\n' ∉ token.text := by
  cases h with
  | label hname => simpa [Token.text, ascii] using ⟨hname.line, by decide⟩
  | instruction hname hoperands => exact not_mem_plainStatement hname hoperands (.inl rfl)

theorem dropReturn_text : dropReturn token.text = token.text := by
  cases h with
  | label hname =>
    have hreturn : byte ':' ≠ byte '\r' := by decide
    simp [Token.text, dropReturn, ascii, hreturn]
  | instruction hname hoperands => exact dropReturn_eq_self (not_mem_plainStatement hname hoperands (.inr rfl))

/-- **A statement in plain form is read as itself**, if it is no instruction that ends in a colon -/
theorem tokenize_text (hcolon : token.looksLikeLabel = false) : tokenize token.text = token.plain := by
  cases h with
  | label hname => exact hname.tokenize
  | instruction hname hoperands =>
    rw [Token.looksLikeLabel] at hcolon
    rw [Token.text, tokenize_instruction hname hoperands, hcolon]
    rfl

theorem plain_isStatement : token.plain.isStatement = true := by
  cases h <;> rfl

/-- the plain form takes as many words, or none if it is read as a label -/
theorem size_tokenize_text : (tokenize token.text).size = if token.looksLikeLabel then 0 else token.size := by
  cases h with
  | label hname => rw [Token.text, hname.tokenize]; rfl
  | @instruction fields m hname hoperands =>
    rw [Token.text, tokenize_instruction hname hoperands, Token.looksLikeLabel, size_instruction hname]
    split_ifs
    · rfl
    · rw [plainFields_eq hname]
      exact size_instruction (Mnemonic.ofName?_name m)

theorem size_pos (hcolon : token.looksLikeLabel = true) : 0 < token.size := by
  cases h with
  | label hname => cases hcolon
  | @instruction fields m hname hoperands =>
    rw [size_instruction hname]
    have hsize := m.size_eq_one_or_two
    omega

/-- to the first pass a statement and its plain form are one -/
theorem corresponds_plain : Token.Corresponds id token token.plain := by
  cases h with
  | @label name hname => exact .label name
  | @instruction fields m hname hoperands =>
    refine .other (by simp) (by simp [Token.plain]) ?_
    rw [Token.plain, plainFields_eq hname, size_instruction hname]
    exact size_instruction (Mnemonic.ofName?_name m)

end Token.Readable

/-! ## Both passes -/

theorem LabelPass.run_statementLines (s : LabelPass) (lines : List Line) :
    (statementLines lines).foldlM step s = lines.foldlM step s := by
  induction lines generalizing s with
  | nil => rfl
  | cons line lines ih =>
    cases h : line.token.isStatement with
    | true =>
      rw [statementLines_cons_of_pos h, List.foldlM_cons, List.foldlM_cons]
      exact congrArg (s.step line >>= ·) (funext ih)
    | false =>
      have hskip : s.step line = .ok s := by
        unfold step
        cases htoken : line.token with
        | label name | instruction fields => rw [htoken] at h; cases h
        | empty | unknown => rfl
      rw [statementLines_cons_of_neg h, List.foldlM_cons, hskip, ih]
      rfl

theorem filterMap_statementLines (lines : List Line) :
    (statementLines lines).filterMap Line.instruction? = lines.filterMap Line.instruction? := by
  rw [statementLines, List.filterMap_filter]
  refine List.filterMap_congr fun line _ => ?_
  obtain ⟨number, text, token⟩ := line
  cases token <;> rfl

theorem linesSize_statementLines (lines : List Line) : linesSize (statementLines lines) = linesSize lines := by
  induction lines with
  | nil => rfl
  | cons line lines ih =>
    obtain ⟨number, text, token⟩ := line
    cases token with
    | label name | instruction fields => rw [statementLines_cons_of_pos rfl, linesSize_cons, linesSize_cons, ih]
    | empty | unknown =>
      rw [statementLines_cons_of_neg rfl, linesSize_cons, ih]
      exact (Nat.zero_add _).symm

/-- what a warning says, without the line that it is about -/
def Warning.report (w : Warning) : Text × Int × UInt8 := (w.role, w.value, w.kept)

/-- emissions of the same words and, up to line numbers, the same warnings -/
structure Emission.Agrees (e e' : Emission) : Prop where
  words : e'.words = e.words
  warnings : e'.warnings.map Warning.report = e.warnings.map Warning.report

/-- programs with the same words, the same labels and, up to line numbers, the same warnings -/
structure Program.Agrees (p q : Program) : Prop where
  words : q.words = p.words
  labels : q.labels = p.labels
  warnings : q.warnings.map Warning.report = p.warnings.map Warning.report

theorem map_report_warnings (line : Int) (arguments : List Argument) :
    (arguments.filterMap (Argument.warning? line)).map Warning.report =
      (arguments.filterMap (Argument.warning? 0)).map Warning.report := by
  rw [List.map_filterMap, List.map_filterMap]
  refine List.filterMap_congr fun a _ => ?_
  cases a with
  | register r => rfl
  | value role v =>
    simp only [Argument.warning?]
    split_ifs <;> rfl

theorem emitInstruction_plainFields {labels : LabelTable} {number number' : Int} {fields : List Text} {e : Emission}
    (h : emitInstruction labels number fields = .ok e) :
    ∃ e', emitInstruction labels number' (plainFields fields) = .ok e' ∧ e.Agrees e' := by
  obtain ⟨m, arguments, hread, rfl⟩ := emitInstruction_eq_ok_iff.1 h
  obtain ⟨hname, hcount, hoperands⟩ := readInstruction_eq_ok_iff.1 hread
  have hread' : readInstruction labels (plainFields fields) = .ok (m, arguments) := by
    rw [plainFields_eq hname]
    exact readInstruction_eq_ok_iff.2 ⟨Mnemonic.ofName?_name m, hcount, hoperands⟩
  refine ⟨_, emitInstruction_eq_ok_iff.2 ⟨m, arguments, hread', rfl⟩, rfl, ?_⟩
  exact (map_report_warnings number' arguments).trans (map_report_warnings number arguments).symm

/-- the statements of some lines are the plain forms of the statements of others, one by one -/
def PlainForm (lines lines' : List Line) : Prop :=
  List.Forall₂ (fun line line' => line'.token = line.token.plain) (statementLines lines) (statementLines lines')

theorem labelPass_of_plainForm {lines lines' : List Line} {pass : LabelPass} (hform : PlainForm lines lines')
    (hreadable : ∀ line ∈ statementLines lines, line.token.Readable) (h : labelPass lines = .ok pass) :
    labelPass lines' = .ok pass := by
  have htokens : List.Forall₂ (fun line line' => Token.Corresponds id line.token line'.token)
      (statementLines lines) (statementLines lines') := by
    refine ((List.forall₂_and_left _ _).2 ⟨hreadable, hform⟩).imp fun line line' hline => ?_
    rw [hline.2]
    exact hline.1.corresponds_plain
  rw [labelPass, ← LabelPass.run_statementLines] at h ⊢
  have hrun := (LabelPass.run_moved (Set.injOn_id Set.univ) 0 (LabelTable.within_empty _)
    (fun _ _ name _ => Set.mem_univ name) htokens h).1
  simpa [LabelPass.moved] using hrun

theorem instructions_of_plainForm {lines lines' : List Line} (hform : PlainForm lines lines') :
    List.Forall₂ (fun x x' => x'.2 = plainFields x.2) (lines.filterMap Line.instruction?)
      (lines'.filterMap Line.instruction?) := by
  rw [← filterMap_statementLines lines, ← filterMap_statementLines lines']
  unfold PlainForm at hform
  generalize statementLines lines = statements at hform ⊢
  generalize statementLines lines' = statements' at hform ⊢
  induction hform with
  | nil => exact .nil
  | @cons line line' lines lines' hline _ ih =>
    obtain ⟨number, text, token⟩ := line
    obtain ⟨number', text', token'⟩ := line'
    obtain rfl : token' = token.plain := hline
    cases token with
    | instruction fields => exact .cons rfl ih
    | label name | empty | unknown => exact ih

theorem emissions_agree {emissions emissions' : List Emission} (h : List.Forall₂ Emission.Agrees emissions emissions') :
    emissions'.flatMap Emission.words = emissions.flatMap Emission.words ∧
      (emissions'.flatMap Emission.warnings).map Warning.report =
        (emissions.flatMap Emission.warnings).map Warning.report := by
  induction h with
  | nil => exact ⟨rfl, rfl⟩
  | cons he _ ih =>
    simp only [List.flatMap_cons, List.map_append]
    rw [he.words, he.warnings, ih.1, ih.2]
    exact ⟨rfl, rfl⟩

/-- **Both passes look at nothing but the statements**, and read them in plain form as before -/
theorem assemble_of_plainForm {source source' : Text} {p : Program} (hform : PlainForm (scan source) (scan source'))
    (h : assemble source = .ok p) : ∃ q, assemble source' = .ok q ∧ p.Agrees q := by
  obtain ⟨table, hlabels, hencode⟩ := assemble_eq_ok_iff.1 h
  obtain ⟨pass, hpass, rfl⟩ := labelsOf_eq_ok_iff.1 hlabels
  obtain ⟨emissions, hemit, rfl⟩ := encode_eq_ok_iff.1 hencode
  have hpass' := labelPass_of_plainForm hform (fun _ => readable_of_assemble h) hpass
  obtain ⟨emissions', hemit', hagree⟩ := emit_of_forall₂ hemit
    ((instructions_of_plainForm hform).imp fun x x' hx e he => hx ▸ emitInstruction_plainFields he)
  obtain ⟨hwords, hwarnings⟩ := emissions_agree hagree
  exact ⟨_, assemble_eq_ok_iff.2 ⟨pass.table, labelsOf_eq_ok_iff.2 ⟨pass, hpass', rfl⟩,
    encode_eq_ok_iff.2 ⟨emissions', hemit', rfl⟩⟩, hwords, rfl, hwarnings⟩

/-! ## The plain source -/

section
variable {lines : List Line} (hreadable : ∀ line ∈ statementLines lines, line.token.Readable)
include hreadable

/-- the plain source has a line for each statement, and an empty one at its end -/
theorem tokens_plainSource :
    (scan (plainSource lines)).map Line.token =
      (statementLines lines).map (fun line => tokenize line.token.text) ++ [.empty] := by
  have hfeed : ∀ t ∈ (statementLines lines).map fun line => line.token.text, byte '\n' ∉ t := by
    intro t ht
    obtain ⟨line, hline, rfl⟩ := List.mem_map.1 ht
    exact (hreadable line hline).not_mem_text
  have hsource : plainSource lines =
      ((statementLines lines).map fun line => line.token.text).flatMap fun t => t ++ ascii "\n" := by
    rw [plainSource, List.flatMap_map]
  rw [hsource, scan_flatMap hfeed, List.map_append, List.map_map, List.zipIdx_map, List.map_map]
  congr 1
  conv_rhs => rw [← List.zipIdx_map_fst 1 (statementLines lines), List.map_map]
  refine List.map_congr_left fun x hx => ?_
  have hreturn := (hreadable x.1 (List.fst_mem_of_mem_zipIdx hx)).dropReturn_text
  simp only [Function.comp_apply, Prod.map_fst, Line.read, hreturn]

theorem plainForm_plainSource (hcolon : ∀ line ∈ statementLines lines, line.token.looksLikeLabel = false) :
    PlainForm lines (scan (plainSource lines)) := by
  have htokens : (statementLines (scan (plainSource lines))).map Line.token =
      (statementLines lines).map fun line => line.token.plain := by
    have hplain : (statementLines lines).map (fun line => tokenize line.token.text) =
        (statementLines lines).map fun line => line.token.plain :=
      List.map_congr_left fun line hline => (hreadable line hline).tokenize_text (hcolon line hline)
    have hall : ((statementLines lines).map fun line => line.token.plain).filter Token.isStatement =
        (statementLines lines).map fun line => line.token.plain := by
      rw [List.filter_eq_self]
      intro token htoken
      obtain ⟨line, hline, rfl⟩ := List.mem_map.1 htoken
      exact (hreadable line hline).plain_isStatement
    have hfilter : (statementLines (scan (plainSource lines))).map Line.token =
        ((scan (plainSource lines)).map Line.token).filter Token.isStatement := by
      rw [List.filter_map]
      rfl
    rw [hfilter, tokens_plainSource hreadable, hplain, List.filter_append, hall]
    exact List.append_nil _
  have hpairs : List.Forall₂ Eq ((statementLines lines).map fun line => line.token.plain)
      ((statementLines (scan (plainSource lines))).map Line.token) := by
    rw [List.forall₂_eq_eq_eq, htokens]
  rw [List.forall₂_map_left_iff, List.forall₂_map_right_iff] at hpairs
  exact hpairs.imp fun _ _ => Eq.symm

/-- words are lost if an instruction is read as a label -/
theorem linesSize_plainSource_lt {line : Line} (hline : line ∈ statementLines lines)
    (hcolon : line.token.looksLikeLabel = true) : linesSize (scan (plainSource lines)) < linesSize lines := by
  have hsize : linesSize (scan (plainSource lines)) =
      ((statementLines lines).map fun line => (tokenize line.token.text).size).sum := by
    have hsum : linesSize (scan (plainSource lines)) =
        (((scan (plainSource lines)).map Line.token).map Token.size).sum := by rw [List.map_map]; rfl
    rw [hsum, tokens_plainSource hreadable]
    simp [Token.size, Function.comp_def]
  rw [hsize, ← linesSize_statementLines, linesSize]
  refine List.sum_lt_sum _ _ (fun other hother => ?_) ⟨line, hline, ?_⟩
  · rw [(hreadable other hother).size_tokenize_text]
    split_ifs
    · exact Nat.zero_le _
    · exact le_rfl
  · rw [(hreadable line hline).size_tokenize_text, if_pos hcolon]
    exact (hreadable line hline).size_pos hcolon

end

/-- **A listing means the same program.** Its rows end with the statements of the program, one a line of the plain source.
The plain source can be assembled, with the same words, the same labels and the same warnings up to line numbers,
exactly if no instruction ends in a colon there. -/
theorem plain_source_agrees (source : Text) (p : Program) (h : assemble source = .ok p) :
    List.Forall₂ (fun row line => line.token.text ++ ascii "\n" <:+ row) p.listingRows
      (statementLines (scan source)) ∧
    ((∃ q, assemble (plainSource (scan source)) = .ok q ∧ p.Agrees q) ↔
      ∀ line ∈ statementLines (scan source), line.token.looksLikeLabel = false) := by
  have hreadable : ∀ line ∈ statementLines (scan source), line.token.Readable := fun _ => readable_of_assemble h
  obtain ⟨table, _, hencode⟩ := assemble_eq_ok_iff.1 h
  refine ⟨?_, ?_, fun hcolon => assemble_of_plainForm (plainForm_plainSource hreadable hcolon) h⟩
  · rw [← lines_of_encode hencode]
    exact listingRows_statements p
  · rintro ⟨q, hq, hagrees⟩ line hline
    rw [← Bool.not_eq_true]
    intro hcolon
    obtain ⟨table', _, hencode'⟩ := assemble_eq_ok_iff.1 hq
    have hlt := linesSize_plainSource_lt hreadable hline hcolon
    rw [← length_words_of_encode hencode, ← length_words_of_encode hencode', hagrees.words] at hlt
    exact absurd hlt (lt_irrefl _)

/-- a label with a comma in its name, a label that is a number, and what else plain form leaves out -/
def looseSource : Text := ascii "a, b: ;x\n\nldi r1,,300\n5:\njmp 5#"

/-- its plain form is the same program; the warning is now about the second line -/
theorem plain_source_agrees_loose :
    ∃ p q, assemble looseSource = .ok p ∧ p.words = [0x5200, 44, 0x8000, 2] ∧
      p.warnings = [⟨3, ascii "immediate", 300, 44⟩] ∧
      plainSource (scan looseSource) = ascii "a, b:\nLDI r1, 300\n5:\nJMP 5\n" ∧
      assemble (plainSource (scan looseSource)) = .ok q ∧ p.Agrees q := by
  obtain ⟨p, hp, hwords, hwarnings⟩ : ∃ p, assemble looseSource = .ok p ∧ p.words = [0x5200, 44, 0x8000, 2] ∧
      p.warnings = [⟨3, ascii "immediate", 300, 44⟩] := ⟨_, rfl, by decide, by decide⟩
  have hplain : plainSource (scan looseSource) = ascii "a, b:\nLDI r1, 300\n5:\nJMP 5\n" := by decide
  have hcolon : ∀ line ∈ statementLines (scan looseSource), line.token.looksLikeLabel = false := by decide
  obtain ⟨q, hq, hagrees⟩ := (plain_source_agrees looseSource p hp).2.2 hcolon
  exact ⟨p, q, hp, hwords, hwarnings, hplain, hq, hagrees⟩

/-- a label whose name ends in a colon, and a jump to it -/
def colonSource : Text := ascii "foo::\nJMP foo:,\n"

/-- in plain form the jump is a label, and the program has no words -/
theorem colonSource_differs :
    ∃ p q, assemble colonSource = .ok p ∧ p.words = [0x8000, 0] ∧
      plainSource (scan colonSource) = ascii "foo::\nJMP foo:\n" ∧
      assemble (plainSource (scan colonSource)) = .ok q ∧ q.words = [] ∧
      q.labels = ⟨[⟨ascii "JMP foo", 0⟩, ⟨ascii "foo:", 0⟩]⟩ ∧ ¬ p.Agrees q := by
  obtain ⟨p, hp, hwords⟩ : ∃ p, assemble colonSource = .ok p ∧ p.words = [0x8000, 0] := ⟨_, rfl, by decide⟩
  have hplain : plainSource (scan colonSource) = ascii "foo::\nJMP foo:\n" := by decide
  obtain ⟨q, hq, hnone, hlabels⟩ : ∃ q, assemble (ascii "foo::\nJMP foo:\n") = .ok q ∧ q.words = [] ∧
      q.labels = ⟨[⟨ascii "JMP foo", 0⟩, ⟨ascii "foo:", 0⟩]⟩ := ⟨_, rfl, by decide, by decide⟩
  refine ⟨p, q, hp, hwords, hplain, hplain ▸ hq, hnone, hlabels, fun hagrees => ?_⟩
  have hsame := hagrees.words
  rw [hwords, hnone] at hsame
  cases hsame

end TwoPass
