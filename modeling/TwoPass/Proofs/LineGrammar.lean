/-
The grammar of lines. A line is code and perhaps a comment. Its code is blank, or a name with a colon behind it, or
fields with blanks and commas between them; the tokenizer tells these apart on any bytes.

- `withoutComment_eq_iff`: the code of a line is what stands before its comment
- `trim_eq_nil_iff`, `trim_colon_iff`: code of blanks only, and code that ends in a colon, by what trimming leaves
- `tokenize_eq_empty_iff`, `tokenize_eq_label_iff`, `tokenize_eq_instruction_iff`: what each kind of token is read from
- `line_grammar`: the tokenizer recognises exactly this grammar, and a rendered list of fields is read back
-/
import Mathlib.Tactic
import TwoPass.Proofs.PlainSources
import TwoPass.Proofs.Separators

namespace TwoPass

/-! ## Code and comments -/

/-- the part of a line before the first semicolon or number sign, or all of it if there is none -/
def IsCodeOf (code line : Text) : Prop :=
  ∃ comment, line = code ++ comment ∧ (∀ b ∈ code, b ∉ ascii ";#") ∧ ∀ b ∈ comment.head?, b ∈ ascii ";#"

theorem beginsComment_iff {b : UInt8} : beginsComment b = true ↔ b ∈ ascii ";#" := by
  simp [beginsComment, ascii]

theorem isCodeOf_withoutComment (line : Text) : IsCodeOf (withoutComment line) line := by
  refine ⟨line.dropWhile fun b => !beginsComment b, List.takeWhile_append_dropWhile.symm, fun b hb hmem => ?_, ?_⟩
  · have hcode := (mem_withoutComment hb).2
    rw [beginsComment_iff.2 hmem] at hcode
    cases hcode
  · intro b hb
    have hfirst := List.head?_dropWhile_not (fun b => !beginsComment b) line
    rw [Option.mem_def.1 hb] at hfirst
    exact beginsComment_iff.1 (by simpa using hfirst)

theorem IsCodeOf.withoutComment_eq {code line : Text} (h : IsCodeOf code line) : withoutComment line = code := by
  obtain ⟨comment, rfl, hcode, hcomment⟩ := h
  have hfront : ∀ b ∈ code, (!beginsComment b) = true := by
    intro b hb
    have hnot := mt beginsComment_iff.1 (hcode b hb)
    simpa using hnot
  rw [withoutComment, List.takeWhile_append_of_pos hfront]
  cases comment with
  | nil => exact List.append_nil code
  | cons b comment =>
    have hmark := beginsComment_iff.2 (hcomment b rfl)
    rw [List.takeWhile_cons_of_neg (by simp [hmark]), List.append_nil]

theorem withoutComment_eq_iff {line code : Text} : withoutComment line = code ↔ IsCodeOf code line := by
  refine ⟨?_, IsCodeOf.withoutComment_eq⟩
  rintro rfl
  exact isCodeOf_withoutComment line

/-! ## Code that ends in a colon -/

/-- a name and a colon, with blanks where they do not belong to the name -/
def IsLabelCode (code name : Text) : Prop :=
  ∃ lead gap tail, code = lead ++ (name ++ (gap ++ byte ':' :: tail)) ∧ IsRun isBlank lead ∧ IsRun isBlank gap ∧
    IsRun isBlank tail ∧ IsTrimmed name

theorem isTrimmed_nil : IsTrimmed [] := by
  intro c _
  obtain ⟨a, more, hbytes, _⟩ := exists_start c
  simp [hbytes]

/-- nothing is left of blanks, and of nothing else -/
theorem trim_eq_nil_iff {t : Text} : Text.trim t = [] ↔ IsRun isBlank t := by
  rw [trim_eq_iff]
  constructor
  · rintro ⟨lead, tail, rfl, hlead, htail, _⟩
    exact hlead.append htail
  · intro h
    exact ⟨t, [], by simp, h, isRun_nil, isTrimmed_nil⟩

theorem trimRunes_trimFront (rs : List Rune) : trimRunes (trimFront rs) = trimRunes rs := by
  rw [trimRunes, trimRunes, trimFront_eq_self (head?_trimFront rs)]

/-- a colon with blanks behind it stays at the end, and what is before it can be trimmed again -/
theorem trim_append_colon (u : Text) {tail : Text} (htail : IsRun isBlank tail) :
    ∃ front, Text.trim (u ++ byte ':' :: tail) = front ++ [byte ':'] ∧ Text.trim front = Text.trim u := by
  have hpart : trimFront (runes u) <:+: runes u := (List.dropWhile_suffix _).isInfix
  have hback : trimBack (runes tail) = [] := by
    have hall : ∀ r ∈ (runes tail).reverse, r.isBlank = true := fun r hr => isRun_iff.1 htail r (List.mem_reverse.1 hr)
    rw [trimBack, trimFront, List.dropWhile_eq_nil_iff.2 hall]
    rfl
  refine ⟨bytesOf (trimFront (runes u)), ?_, ?_⟩
  · rw [Text.trim, runes_append_ascii (by decide), trimRunes_append_cons (by decide), hback, bytesOf_append]
    rfl
  · rw [Text.trim, runes_of_infix hpart, trimRunes_trimFront]
    rfl

/-- trimmed code ends in a colon exactly if it is that of a label -/
theorem trim_colon_iff {code name : Text} :
    (∃ front, Text.trim code = front ++ [byte ':'] ∧ Text.trim front = name) ↔ IsLabelCode code name := by
  constructor
  · rintro ⟨front, hcode, hfront⟩
    obtain ⟨lead, tail, hcode, hlead, htail, _⟩ := trim_eq_iff.1 hcode
    obtain ⟨lead', gap, rfl, hlead', hgap, hname⟩ := trim_eq_iff.1 hfront
    exact ⟨lead ++ lead', gap, tail, by simp [hcode], hlead.append hlead', hgap, htail, hname⟩
  · rintro ⟨lead, gap, tail, rfl, hlead, hgap, htail, hname⟩
    obtain ⟨front, htrim, hfront⟩ := trim_append_colon (lead ++ (name ++ gap)) htail
    refine ⟨front, ?_, ?_⟩
    · simpa using htrim
    · rw [hfront]
      exact trim_eq_iff.2 ⟨lead, gap, rfl, hlead, hgap, hname⟩

/-! ## Tokens -/

/-- blanks and the comma -/
def isSeparator (n : Nat) : Bool := isBlank n || n == 0x2C

theorem Rune.separates_eq : Rune.separates = Rune.satisfies isSeparator := by
  funext r
  obtain ⟨code, bytes⟩ := r
  cases code with
  | none => rfl
  | some n => rfl

theorem endsInColon_iff {t : Text} : endsInColon t = true ↔ ∃ front, t = front ++ [byte ':'] := by
  rw [endsInColon, beq_iff_eq, List.getLast?_eq_some_iff]

theorem tokenize_eq_empty_iff {line : Text} : tokenize line = .empty ↔ IsRun isBlank (withoutComment line) := by
  rw [← trim_eq_nil_iff, tokenize, tokenizeCode]
  split_ifs with hempty hcolon
  · simpa using hempty
  · simpa using hempty
  · simpa using hempty

theorem tokenize_eq_label_iff {line name : Text} :
    tokenize line = .label name ↔ IsLabelCode (withoutComment line) name := by
  rw [← trim_colon_iff, tokenize, tokenizeCode]
  split_ifs with hempty hcolon
  · rw [List.isEmpty_iff.1 hempty]
    simp
  · obtain ⟨front, hfront⟩ := endsInColon_iff.1 hcolon
    rw [hfront, List.dropLast_concat, Token.label.injEq]
    simp
  · have hnot : ¬ ∃ front, Text.trim (withoutComment line) = front ++ [byte ':'] := mt endsInColon_iff.2 hcolon
    simp only [false_iff]
    rintro ⟨front, hfront, _⟩
    exact hnot ⟨front, hfront⟩

/-- what is neither blank nor a label is an instruction -/
theorem tokenize_of_not_label {line : Text} (hblank : ¬ IsRun isBlank (withoutComment line))
    (hlabel : ∀ name, ¬ IsLabelCode (withoutComment line) name) :
    tokenize line = .instruction (Text.fieldsBy (Rune.satisfies isSeparator) (withoutComment line)) := by
  rw [tokenize, tokenizeCode]
  split_ifs with hempty hcolon
  · exact absurd (trim_eq_nil_iff.1 (List.isEmpty_iff.1 hempty)) hblank
  · obtain ⟨front, hfront⟩ := endsInColon_iff.1 hcolon
    exact absurd (trim_colon_iff.1 ⟨front, hfront, rfl⟩) (hlabel _)
  · rw [fieldsBy_trim, Rune.separates_eq]

theorem tokenize_eq_instruction_iff {line : Text} {fields : List Text} :
    tokenize line = .instruction fields ↔
      ¬ IsRun isBlank (withoutComment line) ∧ (∀ name, ¬ IsLabelCode (withoutComment line) name) ∧
        Spaced isSeparator (withoutComment line) fields := by
  constructor
  · intro h
    have hblank : ¬ IsRun isBlank (withoutComment line) := by
      intro hrun
      rw [tokenize_eq_empty_iff.2 hrun] at h
      cases h
    have hlabel : ∀ name, ¬ IsLabelCode (withoutComment line) name := by
      intro name hname
      rw [tokenize_eq_label_iff.2 hname] at h
      cases h
    rw [tokenize_of_not_label hblank hlabel, Token.instruction.injEq] at h
    exact ⟨hblank, hlabel, fieldsBy_eq_iff.1 h⟩
  · rintro ⟨hblank, hlabel, hspaced⟩
    rw [tokenize_of_not_label hblank hlabel, fieldsBy_eq_iff.2 hspaced]

theorem tokenize_ne_unknown (line : Text) : tokenize line ≠ .unknown := by
  intro h
  unfold tokenize tokenizeCode at h
  split_ifs at h

/-! ## Nothing but separators is lost -/

/-- a text without its separators -/
def withoutSeparators (t : Text) : Text := bytesOf ((runes t).filter fun r => !r.separates)

theorem flatten_pieces {α : Type} (cut : α → Bool) (l : List α) :
    (pieces cut l).flatten = l.filter fun a => !cut a := by
  induction l with
  | nil => rfl
  | cons a l ih =>
    rw [pieces_cons]
    cases ha : cut a with
    | true => simpa [ha] using ih
    | false =>
      cases hpieces : pieces cut l with
      | nil => exact absurd hpieces (pieces_ne_nil cut l)
      | cons piece rest =>
        rw [hpieces] at ih
        simpa [ha, extendFirst] using ih

theorem bytesOf_flatten (parts : List (List Rune)) : bytesOf parts.flatten = (parts.map bytesOf).flatten := by
  induction parts with
  | nil => rfl
  | cons part parts ih => rw [List.flatten_cons, bytesOf_append, ih, List.map_cons, List.flatten_cons]

/-- the fields of a text, one behind the other, are the text without its separators -/
theorem flatten_fieldsBy (t : Text) : (Text.fieldsBy Rune.separates t).flatten = withoutSeparators t := by
  calc (Text.fieldsBy Rune.separates t).flatten = bytesOf (fieldRunes Rune.separates (runes t)).flatten := by
        rw [fieldsBy_eq, bytesOf_flatten]
    _ = bytesOf (pieces Rune.separates (runes t)).flatten := by rw [fieldRunes, List.flatten_filter_not_isEmpty]
    _ = withoutSeparators t := by rw [flatten_pieces, withoutSeparators]

theorem isSolid_of_mem_fields {line field : Text} {fields : List Text} (h : tokenize line = .instruction fields)
    (hfield : field ∈ fields) : IsSolid isSeparator field ∧ ∀ b ∈ field, b ∉ ascii ";#" := by
  have hisField := isField_of_tokenize h field hfield
  refine ⟨?_, fun b hb hmem => ?_⟩
  · rw [isSolid_iff, ← Rune.separates_eq]
    exact hisField.solid
  · have hcode := hisField.code b hb
    rw [beginsComment_iff.2 hmem] at hcode
    cases hcode

theorem flatten_fields_of_tokenize {line : Text} {fields : List Text} (h : tokenize line = .instruction fields) :
    fields.flatten = withoutSeparators (withoutComment line) := by
  obtain ⟨_, _, hspaced⟩ := tokenize_eq_instruction_iff.1 h
  rw [← hspaced.fieldsBy_eq, ← Rune.separates_eq, flatten_fieldsBy]

/-! ## Rendering fields -/

/-- fields that were written with any separators and any comment are read back, if the code does not end like that of a
label; where there is no field and no comma, nothing is read -/
theorem tokenize_of_spaced {line : Text} {fields : List Text} (h : Spaced isSeparator (withoutComment line) fields)
    (hcolon : ¬ [byte ':'] <:+ Text.trim (withoutComment line)) :
    (tokenize line).fields = fields ∧
      (¬ IsRun isBlank (withoutComment line) → tokenize line = .instruction fields) := by
  have hlabel : ∀ name, ¬ IsLabelCode (withoutComment line) name := by
    intro name hname
    obtain ⟨front, hfront, _⟩ := trim_colon_iff.2 hname
    exact hcolon ⟨front, hfront.symm⟩
  have hread : ¬ IsRun isBlank (withoutComment line) → tokenize line = .instruction fields :=
    fun hblank => tokenize_eq_instruction_iff.2 ⟨hblank, hlabel, h⟩
  refine ⟨?_, hread⟩
  -- blanks are separators, so a blank line has no fields either
  by_cases hblank : IsRun isBlank (withoutComment line)
  · have hnone : Text.fieldsBy Rune.separates (withoutComment line) = [] := by
      rw [← fieldsBy_trim, trim_eq_nil_iff.2 hblank]
      rfl
    rw [tokenize_eq_empty_iff.2 hblank, ← h.fieldsBy_eq, ← Rune.separates_eq, hnone]
    rfl
  · rw [hread hblank, Token.fields]

/-- **The tokenizer recognises exactly the grammar of lines.** A line has one code: what stands before its comment. The
line says nothing exactly if its code is blank, and is a label of a name exactly if its code is the name and a colon,
with blanks around each. Any other line is an instruction, with the fields that stand between the separators of its
code. So no field holds a separator or begins a comment, and the code without its separators is the fields one behind
the other; and fields that are written with any separators and any comment are read back, unless the trimmed code ends
in a colon. -/
theorem line_grammar (line : Text) :
    (∃! code, IsCodeOf code line) ∧
    ∀ code, IsCodeOf code line →
      (tokenize line = .empty ↔ IsRun isBlank code) ∧
      (∀ name, tokenize line = .label name ↔ IsLabelCode code name) ∧
      (∀ fields, tokenize line = .instruction fields ↔
        ¬ IsRun isBlank code ∧ (∀ name, ¬ IsLabelCode code name) ∧ Spaced isSeparator code fields) ∧
      tokenize line ≠ .unknown ∧
      (∀ fields, tokenize line = .instruction fields →
        (∀ field ∈ fields, IsSolid isSeparator field ∧ ∀ b ∈ field, b ∉ ascii ";#") ∧
        fields.flatten = withoutSeparators code) ∧
      ∀ fields, Spaced isSeparator code fields → ¬ [byte ':'] <:+ Text.trim code →
        (tokenize line).fields = fields ∧ (¬ IsRun isBlank code → tokenize line = .instruction fields) := by
  refine ⟨⟨withoutComment line, withoutComment_eq_iff.1 rfl, fun code h => h.withoutComment_eq.symm⟩, fun code h => ?_⟩
  rw [← h.withoutComment_eq]
  exact ⟨tokenize_eq_empty_iff, fun _ => tokenize_eq_label_iff, fun _ => tokenize_eq_instruction_iff,
    tokenize_ne_unknown line, fun _ h => ⟨fun _ => isSolid_of_mem_fields h, flatten_fields_of_tokenize h⟩,
    fun _ => tokenize_of_spaced⟩

/-- a no-break space, a stray byte and a colon at the end of a mnemonic, commas and an ideographic space, and a comma at
the end -/
def foreignCode : Text :=
  [0xC2, 0xA0] ++
    ((ascii "ldi" ++ [0xFF, byte ':']) ++ ((ascii ",," ++ [0xE3, 0x80, 0x80]) ++ (ascii "R1" ++ ascii ",")))

theorem spaced_foreignCode : Spaced isSeparator foreignCode [ascii "ldi" ++ [0xFF, byte ':'], ascii "R1"] := by
  have hlead : IsRun isSeparator [0xC2, 0xA0] := isRun_iff.2 (by decide)
  have hgap : IsRun isSeparator (ascii ",," ++ [0xE3, 0x80, 0x80]) := isRun_iff.2 (by decide)
  have hcomma : IsRun isSeparator (ascii ",") := isRun_iff.2 (by decide)
  have hmnemonic : IsSolid isSeparator (ascii "ldi" ++ [0xFF, byte ':']) := isSolid_iff.2 (by decide)
  have hregister : IsSolid isSeparator (ascii "R1") := isSolid_iff.2 (by decide)
  exact ⟨_, _, rfl, hlead, .cons (by decide) hmnemonic hgap (by decide) (.last (by decide) hregister hcomma)⟩

/-- that code with a comment is an instruction, since a comma is behind the colon; a name with a comma in it is a label
where the colon comes last -/
theorem line_grammar_foreign :
    tokenize (foreignCode ++ ascii ";a:") = .instruction [ascii "ldi" ++ [0xFF, byte ':'], ascii "R1"] ∧
    withoutSeparators foreignCode = ascii "ldi" ++ [0xFF, byte ':'] ++ ascii "R1" ∧
    IsLabelCode (ascii " a, b\t: ") (ascii "a, b") ∧ tokenize (ascii " a, b\t: #") = .label (ascii "a, b") := by
  have hcode : IsCodeOf foreignCode (foreignCode ++ ascii ";a:") := withoutComment_eq_iff.1 (by decide)
  have hnotBlank : ¬ IsRun isBlank foreignCode := mt isRun_iff.1 (by decide)
  obtain ⟨_, _, _, _, hfields, hrendered⟩ := (line_grammar (foreignCode ++ ascii ";a:")).2 foreignCode hcode
  have hread := (hrendered _ spaced_foreignCode (by decide)).2 hnotBlank
  have hlabelCode : IsCodeOf (ascii " a, b\t: ") (ascii " a, b\t: #") := withoutComment_eq_iff.1 (by decide)
  have hlabel : IsLabelCode (ascii " a, b\t: ") (ascii "a, b") :=
    trim_colon_iff.1 ⟨ascii "a, b\t", by decide, by decide⟩
  refine ⟨hread, (hfields _ hread).2.symm, hlabel, ?_⟩
  exact (((line_grammar (ascii " a, b\t: #")).2 _ hlabelCode).2.1 _).2 hlabel

end TwoPass
