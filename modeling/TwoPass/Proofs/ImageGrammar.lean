/-
The grammar of images. An image is lines between line feeds. A line, up to its comment and without the blanks at its
ends, is numerals of words with blanks between them; anything else is an offence, and the first offence is what reading
the image fails with.

- `textLines_eq_iff`: the lines of an image
- `hasText_iff`: the text of a line, without its comment and the blanks around it
- `word?_eq_some_iff`: the numerals that are words
- `readLine_eq_ok_iff`, `readLine_eq_error_iff`: lines that can be read, and what is wrong with the others
- `image_grammar`: the reader accepts exactly this grammar and blames the first offence
-/
import Mathlib.Tactic
import TwoPass.Proofs.Images
import TwoPass.Proofs.Separators
import TwoPass.Proofs.Spelling

namespace TwoPass.HexImage

/-! ## Lines -/

/-- texts without line feeds that are an image if a line feed is put between each two of them -/
def SplitsInto (image : Text) (lines : List Text) : Prop :=
  lines ≠ [] ∧ image = Text.join [byte '\n'] lines ∧ ∀ line ∈ lines, byte '\n' ∉ line

theorem join_cons (sep part : Text) {parts : List Text} (hne : parts ≠ []) :
    Text.join sep (part :: parts) = part ++ (sep ++ Text.join sep parts) := by
  cases parts with
  | nil => exact absurd rfl hne
  | cons next parts => simp [Text.join]

theorem join_extendFirst (sep : Text) (b : UInt8) {parts : List Text} (hne : parts ≠ []) :
    Text.join sep (extendFirst b parts) = b :: Text.join sep parts := by
  cases parts with
  | nil => exact absurd rfl hne
  | cons part parts =>
    cases parts with
    | nil => simp [Text.join, extendFirst]
    | cons next parts => simp [Text.join, extendFirst]

theorem join_textLines (image : Text) : Text.join [byte '\n'] (textLines image) = image := by
  induction image with
  | nil => rfl
  | cons b image ih =>
    have hne : textLines image ≠ [] := pieces_ne_nil isLineEnd image
    rw [textLines, pieces_cons]
    split_ifs with hend
    · rw [eq_of_beq hend]
      exact (join_cons _ [] hne).trans (congrArg (byte '\n' :: ·) ih)
    · exact (join_extendFirst _ b hne).trans (congrArg _ ih)

theorem textLines_eq_iff {image : Text} {lines : List Text} : textLines image = lines ↔ SplitsInto image lines := by
  constructor
  · rintro rfl
    refine ⟨pieces_ne_nil isLineEnd image, (join_textLines image).symm, fun line hline hmem => ?_⟩
    have hsolid := (mem_pieces hline).2 _ hmem
    exact absurd hsolid (by decide)
  · rintro ⟨hne, rfl, hlines⟩
    exact textLines_join hne hlines

/-! ## The text of a line -/

/-- the part of a line before the first two slashes, or all of it if there are none -/
def IsImageCode (code line : Text) : Prop :=
  ∃ comment, line = code ++ comment ∧ (comment ≠ [] → ascii "//" <+: comment) ∧ ¬ ascii "//" <:+: code ++ comment.take 1

/-- the text of a line is its code without the blanks at its ends -/
def HasText (line text : Text) : Prop := ∃ code, IsImageCode code line ∧ TrimsTo code text

theorem slashes_isPrefix_iff {b : UInt8} {rest : Text} :
    ascii "//" <+: b :: rest ↔ b = byte '/' ∧ rest.head? = some (byte '/') := by
  have hslashes : ascii "//" = [byte '/', byte '/'] := rfl
  cases rest with
  | nil => simp [hslashes]
  | cons c rest => simp [hslashes, eq_comm]

theorem withoutSlashes_cons (b : UInt8) (rest : Text) :
    withoutSlashes (b :: rest) = if ascii "//" <+: b :: rest then [] else b :: withoutSlashes rest := by
  rw [withoutSlashes]
  exact if_congr (by simp [slashes_isPrefix_iff]) rfl rfl

theorem head?_append_take (code comment : Text) : (code ++ comment.take 1).head? = (code ++ comment).head? := by
  cases code with
  | nil => cases comment <;> rfl
  | cons b code => rfl

theorem isImageCode_withoutSlashes (line : Text) : IsImageCode (withoutSlashes line) line := by
  induction line with
  | nil => exact ⟨[], rfl, by simp, by decide⟩
  | cons b rest ih =>
    rw [withoutSlashes_cons]
    split_ifs with hslashes
    · refine ⟨b :: rest, rfl, fun _ => hslashes, fun hpart => ?_⟩
      have hlength : 2 ≤ 1 := hpart.length_le
      omega
    · obtain ⟨comment, hrest, hcomment, hfirst⟩ := ih
      -- two slashes at the front would be those of the line: one byte of the comment is enough to see them
      refine ⟨comment, congrArg (b :: ·) hrest, hcomment, fun hpart => ?_⟩
      rw [List.cons_append, List.infix_cons_iff, slashes_isPrefix_iff, head?_append_take, ← hrest,
        ← slashes_isPrefix_iff] at hpart
      exact hpart.elim hslashes hfirst

theorem IsImageCode.withoutSlashes_eq {code line : Text} (h : IsImageCode code line) : withoutSlashes line = code := by
  obtain ⟨comment, rfl, hcomment, hfirst⟩ := h
  induction code with
  | nil =>
    cases comment with
    | nil => rfl
    | cons b comment => exact (withoutSlashes_cons b comment).trans (if_pos (hcomment (List.cons_ne_nil b comment)))
  | cons b code ih =>
    rw [List.cons_append, List.infix_cons_iff, slashes_isPrefix_iff, head?_append_take, ← slashes_isPrefix_iff,
      not_or] at hfirst
    rw [List.cons_append, withoutSlashes_cons, if_neg hfirst.1, ih hfirst.2]

/-- a carriage return behind a line is behind its code, or in its comment -/
theorem withoutSlashes_append_return (line : Text) :
    withoutSlashes (line ++ [byte '\r']) = withoutSlashes line ++ [byte '\r'] ∨
      withoutSlashes (line ++ [byte '\r']) = withoutSlashes line := by
  induction line with
  | nil => exact Or.inl rfl
  | cons b rest ih =>
    have hreturn : byte '\r' ≠ byte '/' := by decide
    have hslashes : ascii "//" <+: b :: (rest ++ [byte '\r']) ↔ ascii "//" <+: b :: rest := by
      cases rest with
      | nil => simp [slashes_isPrefix_iff, hreturn]
      | cons c rest => simp [slashes_isPrefix_iff]
    rw [List.cons_append, withoutSlashes_cons, withoutSlashes_cons, if_congr hslashes rfl rfl]
    split_ifs
    · exact Or.inr rfl
    · exact ih.imp (congrArg (b :: ·)) (congrArg (b :: ·))

theorem trim_withoutSlashes_dropReturn (line : Text) :
    Text.trim (withoutSlashes (dropReturn line)) = Text.trim (withoutSlashes line) := by
  unfold dropReturn
  split_ifs with h
  · obtain ⟨front, rfl⟩ := List.getLast?_eq_some_iff.1 (eq_of_beq h)
    rw [List.dropLast_concat]
    rcases withoutSlashes_append_return front with hcode | hcode
    · rw [hcode, trim_append_return]
    · rw [hcode]
  · rfl

/-- a line has one text, whether or not a carriage return ends it -/
theorem hasText_iff {line text : Text} : Text.trim (withoutSlashes (dropReturn line)) = text ↔ HasText line text := by
  rw [trim_withoutSlashes_dropReturn, trim_eq_iff]
  constructor
  · intro h
    exact ⟨_, isImageCode_withoutSlashes line, h⟩
  · rintro ⟨code, hcode, htrim⟩
    rwa [hcode.withoutSlashes_eq]

/-! ## Numerals of words -/

/-- hexadecimal digits of either case, as many as there are, of a value that fits a word -/
structure IsWordNumeral (field : Text) : Prop where
  digits : IsDigits .hex field
  fits : placeValue .hex field ≤ 0xFFFF

/-- the word that a numeral stands for -/
def numeralWord (field : Text) : Word := UInt16.ofNat (placeValue .hex field)

theorem word?_eq_some_iff {field : Text} {w : Word} :
    word? field = some w ↔ IsWordNumeral field ∧ numeralWord field = w := by
  have hread : ∀ n, readDigits? 16 field = some n ↔ IsDigits .hex field ∧ placeValue .hex field = n :=
    fun n => readDigits?_eq_some_iff (r := .hex)
  simp only [word?, Option.map_eq_some_iff, Option.filter_eq_some_iff, hread, decide_eq_true_eq]
  constructor
  · rintro ⟨_, ⟨⟨hdigits, rfl⟩, hlt⟩, hw⟩
    exact ⟨⟨hdigits, Nat.le_of_lt_succ hlt⟩, hw⟩
  · rintro ⟨⟨hdigits, hfits⟩, hw⟩
    exact ⟨_, ⟨⟨hdigits, rfl⟩, Nat.lt_succ_of_le hfits⟩, hw⟩

theorem readField_eq_ok_iff {number : Nat} {field : Text} {w : Word} :
    readField number field = .ok w ↔ IsWordNumeral field ∧ numeralWord field = w := by
  rw [← word?_eq_some_iff, readField]
  cases word? field <;> simp

theorem readField_eq_error_iff {number : Nat} {field : Text} {e : ImageError} :
    readField number field = .error e ↔ ¬ IsWordNumeral field ∧ .invalidWord field number = e := by
  have hword : IsWordNumeral field ↔ ∃ w, word? field = some w := by simp [word?_eq_some_iff]
  rw [hword, readField]
  cases word? field <;> simp

/-! ## Lines of words -/

/-- a line that can be read, with the fields on it -/
structure Readable (line : Text) (fields : List Text) : Prop where
  short : line.length < 65536
  spaced : ∃ text, HasText line text ∧ text.head? ≠ some (byte '@') ∧ Spaced isBlank text fields
  numerals : ∀ field ∈ fields, IsWordNumeral field

/-- what is wrong with a line that has this number: it is too long, or else it is a directive, or else one of its fields
is no word and those before it are -/
inductive Offends (number : Nat) (line : Text) : ImageError → Prop where
  | tooLong (hlong : 65536 ≤ line.length) : Offends number line .lineTooLong
  | directive {text : Text} (hshort : line.length < 65536) (htext : HasText line text)
      (hat : text.head? = some (byte '@')) : Offends number line (.addressDirective text number)
  | field {text field : Text} {fields : List Text} {i : Nat} (hshort : line.length < 65536) (htext : HasText line text)
      (hat : text.head? ≠ some (byte '@')) (hspaced : Spaced isBlank text fields) (hfield : fields[i]? = some field)
      (hnumeral : ¬ IsWordNumeral field) (hbefore : ∀ f ∈ fields.take i, IsWordNumeral f) :
      Offends number line (.invalidWord field number)

theorem readLine_of_hasText {number : Nat} {line text : Text} (hshort : line.length < 65536) (htext : HasText line text) :
    readLine number line = readCode number text := by
  have hmax : ¬ maxLine ≤ line.length := Nat.not_le_of_lt hshort
  rw [readLine, if_neg hmax, hasText_iff.2 htext]

theorem readCode_of_spaced {number : Nat} {text : Text} {fields : List Text} (hat : text.head? ≠ some (byte '@'))
    (hspaced : Spaced isBlank text fields) : readCode number text = fields.mapM (readField number) := by
  have hfields : Text.fieldsBy Rune.isBlank text = fields := hspaced.fieldsBy_eq
  rw [readCode, if_neg (by simpa using hat), hfields]

theorem mapM_readField_eq_ok_iff {number : Nat} {fields : List Text} {words : List Word} :
    fields.mapM (readField number) = .ok words ↔
      (∀ field ∈ fields, IsWordNumeral field) ∧ fields.map numeralWord = words := by
  simp only [mapM_eq_ok_iff, readField_eq_ok_iff]
  rw [List.forall₂_and_left, ← List.forall₂_map_left_iff, List.forall₂_eq_eq_eq]

/-- the lines that can be read, and their words -/
theorem readLine_eq_ok_iff {number : Nat} {line : Text} {words : List Word} :
    readLine number line = .ok words ↔ ∃ fields, Readable line fields ∧ fields.map numeralWord = words := by
  constructor
  · intro h
    unfold readLine readCode at h
    split_ifs at h with hlong hat
    obtain ⟨hnumerals, hwords⟩ := mapM_readField_eq_ok_iff.1 h
    refine ⟨_, ⟨Nat.lt_of_not_le hlong, ⟨_, hasText_iff.1 rfl, ?_, fieldsBy_eq_iff.1 rfl⟩, hnumerals⟩, hwords⟩
    simpa using hat
  · rintro ⟨fields, ⟨hshort, ⟨text, htext, hat, hspaced⟩, hnumerals⟩, hwords⟩
    rw [readLine_of_hasText hshort htext, readCode_of_spaced hat hspaced]
    exact mapM_readField_eq_ok_iff.2 ⟨hnumerals, hwords⟩

/-- the lines that cannot be read, and what is wrong with them -/
theorem readLine_eq_error_iff {number : Nat} {line : Text} {e : ImageError} :
    readLine number line = .error e ↔ Offends number line e := by
  constructor
  · intro h
    unfold readLine readCode at h
    split_ifs at h with hlong hat
    · cases h
      exact .tooLong hlong
    · cases h
      exact .directive (Nat.lt_of_not_le hlong) (hasText_iff.1 rfl) (eq_of_beq hat)
    · obtain ⟨i, field, hfield, herror, hbefore⟩ := mapM_eq_error h
      obtain ⟨hnumeral, rfl⟩ := readField_eq_error_iff.1 herror
      refine .field (Nat.lt_of_not_le hlong) (hasText_iff.1 rfl) (by simpa using hat) (fieldsBy_eq_iff.1 rfl) hfield
        hnumeral fun f hf => ?_
      obtain ⟨w, hw⟩ := hbefore f hf
      exact (readField_eq_ok_iff.1 hw).1
  · intro h
    cases h with
    | tooLong hlong => exact if_pos hlong
    | directive hshort htext hat => rw [readLine_of_hasText hshort htext, readCode, if_pos (by simpa using hat)]
    | @field text field fields i hshort htext hat hspaced hfield hnumeral hbefore =>
      rw [readLine_of_hasText hshort htext, readCode_of_spaced hat hspaced, mapM_eq_error_iff]
      refine ⟨i, field, hfield, readField_eq_error_iff.2 ⟨hnumeral, rfl⟩, fun f hf => ?_⟩
      exact ⟨_, readField_eq_ok_iff.2 ⟨hbefore f hf, rfl⟩⟩

/-! ## Images -/

theorem read_eq_ok_iff {image : Text} {words : List Word} :
    read image = .ok words ↔
      ∃ fields, List.Forall₂ Readable (textLines image) fields ∧ words = fields.flatten.map numeralWord := by
  have hlines : ∀ parts : List (List Word),
      List.Forall₂ (fun (s : Text × Nat) part => readLine s.2 s.1 = .ok part) ((textLines image).zipIdx 1) parts ↔
        ∃ fields, List.Forall₂ Readable (textLines image) fields ∧ fields.map (List.map numeralWord) = parts := by
    intro parts
    rw [← forall₂_exists_map_iff]
    conv_rhs => rw [← List.zipIdx_map_fst 1 (textLines image), List.forall₂_map_left_iff]
    simp only [readLine_eq_ok_iff]
  rw [read, map_eq_ok_iff]
  simp only [mapM_eq_ok_iff, hlines]
  constructor
  · rintro ⟨_, ⟨fields, hfields, rfl⟩, rfl⟩
    exact ⟨fields, hfields, List.map_flatten.symm⟩
  · rintro ⟨fields, hfields, rfl⟩
    exact ⟨_, ⟨fields, hfields, rfl⟩, List.map_flatten.symm⟩

theorem read_eq_error_iff {image : Text} {e : ImageError} :
    read image = .error e ↔ ∃ i line, (textLines image)[i]? = some line ∧ Offends (i + 1) line e ∧
      ∀ before ∈ (textLines image).take i, ∃ fields, Readable before fields := by
  have htake : ∀ i, (textLines image).take i = (((textLines image).zipIdx 1).take i).map Prod.fst := by
    intro i
    rw [List.map_take, List.zipIdx_map_fst]
  rw [read, map_eq_error_iff, mapM_eq_error_iff]
  constructor
  · rintro ⟨i, ⟨line, number⟩, hline, herror, hbefore⟩
    rw [List.getElem?_zipIdx, Option.map_eq_some_iff] at hline
    obtain ⟨_, hline, hpair⟩ := hline
    cases hpair
    rw [Nat.add_comm] at herror
    refine ⟨i, line, hline, readLine_eq_error_iff.1 herror, fun before hmem => ?_⟩
    rw [htake] at hmem
    obtain ⟨s, hs, rfl⟩ := List.mem_map.1 hmem
    obtain ⟨words, hwords⟩ := hbefore s hs
    obtain ⟨fields, hfields, _⟩ := readLine_eq_ok_iff.1 hwords
    exact ⟨fields, hfields⟩
  · rintro ⟨i, line, hline, hoffends, hbefore⟩
    refine ⟨i, (line, i + 1), ?_, readLine_eq_error_iff.2 hoffends, fun s hs => ?_⟩
    · rw [List.getElem?_zipIdx, hline, Nat.add_comm]
      rfl
    · obtain ⟨fields, hfields⟩ := hbefore s.1 (htake i ▸ List.mem_map_of_mem hs)
      exact ⟨_, readLine_eq_ok_iff.2 ⟨fields, hfields, rfl⟩⟩

theorem Readable.not_offends {line : Text} {fields : List Text} (h : Readable line fields) (number : Nat)
    (e : ImageError) : ¬ Offends number line e := by
  intro hoffends
  have hread : readLine number line = .ok (fields.map numeralWord) := readLine_eq_ok_iff.2 ⟨fields, h, rfl⟩
  rw [readLine_eq_error_iff.2 hoffends] at hread
  cases hread

/-- an image can be read if each of its lines can -/
theorem exists_read_eq_ok_iff {image : Text} :
    (∃ words, read image = .ok words) ↔ ∀ line ∈ textLines image, ∃ fields, Readable line fields := by
  constructor
  · rintro ⟨words, hread⟩ line hline
    obtain ⟨fields, hfields, _⟩ := read_eq_ok_iff.1 hread
    obtain ⟨onLine, _, hreadable⟩ := exists_of_mem_forall₂ hfields.flip hline
    exact ⟨onLine, hreadable⟩
  · intro h
    -- a failure would have a line to blame
    cases hread : read image with
    | ok words => exact ⟨words, rfl⟩
    | error e =>
      obtain ⟨i, line, hline, hoffends, _⟩ := read_eq_error_iff.1 hread
      obtain ⟨fields, hreadable⟩ := h line (List.mem_of_getElem? hline)
      exact absurd hoffends (hreadable.not_offends _ _)

/-- **The reader accepts exactly the grammar of images and blames the first offence.** An image has one list of lines.
It can be read exactly if each line can: if the line is short enough, and its text does not begin with an at sign and is
numerals of words with blanks between them. The words are then those of the numerals, in the order of lines and fields.
In all other cases reading fails with what is wrong with the first line that cannot be read, where lines are counted
from one, blank lines and comments included. -/
theorem image_grammar (image : Text) :
    (∃! lines, SplitsInto image lines) ∧
    ∀ lines, SplitsInto image lines →
      ((∃ words, read image = .ok words) ↔ ∀ line ∈ lines, ∃ fields, Readable line fields) ∧
      (∀ words, read image = .ok words ↔
        ∃ fields, List.Forall₂ Readable lines fields ∧ words = fields.flatten.map numeralWord) ∧
      ∀ e, read image = .error e ↔ ∃ i line, lines[i]? = some line ∧ Offends (i + 1) line e ∧
        ∀ before ∈ lines.take i, ∃ fields, Readable before fields := by
  refine ⟨⟨textLines image, textLines_eq_iff.1 rfl, fun lines h => (textLines_eq_iff.2 h).symm⟩, fun lines h => ?_⟩
  rw [← textLines_eq_iff.2 h]
  exact ⟨exists_read_eq_ok_iff, fun _ => read_eq_ok_iff, fun _ => read_eq_error_iff⟩

/-- a directive in a comment, a blank line, a directive behind a word and one that is alone -/
def directiveLines : List Text := [ascii "// @0\r", [0xC2, 0xA0], ascii "\t00012 @7 zz", ascii "@8"]

theorem offends_directive : Offends 3 (ascii "\t00012 @7 zz") (.invalidWord (ascii "@7") 3) := by
  have htext : HasText (ascii "\t00012 @7 zz") (ascii "00012 @7 zz") := hasText_iff.1 (by decide)
  have hspaced : Spaced isBlank (ascii "00012 @7 zz") [ascii "00012", ascii "@7", ascii "zz"] :=
    fieldsBy_eq_iff.1 (by decide)
  have hword : word? (ascii "00012") = some 0x12 := by decide
  refine .field (i := 1) (by decide) htext (by decide) hspaced rfl (fun h => ?_) ?_
  · exact absurd (h.digits.digits (byte '@') (by decide)) (by decide)
  · simpa using (word?_eq_some_iff.1 hword).1

theorem readable_of_hasText_nil {line : Text} (hshort : line.length < 65536) (htext : HasText line []) : Readable line [] :=
  ⟨hshort, ⟨[], htext, by simp, fieldsBy_eq_iff.1 rfl⟩, by simp⟩

/-- of all these only the third line is blamed, and of it the second field; a line of 65536 digits is too long -/
theorem image_grammar_directives :
    read (Text.join [byte '\n'] directiveLines) = .error (.invalidWord (ascii "@7") 3) ∧
    ImageError.message (.invalidWord (ascii "@7") 3) = ascii "hexfile: invalid word '@7' on line 3" ∧
    read (List.replicate 65536 (byte '0')) = .error .lineTooLong := by
  have hsplits : SplitsInto (Text.join [byte '\n'] directiveLines) directiveLines := textLines_eq_iff.1 (by decide)
  have hbefore : ∀ before ∈ directiveLines.take 2, ∃ fields, Readable before fields := by
    simp only [directiveLines, List.take_succ_cons, List.take_zero, List.forall_mem_cons]
    refine ⟨⟨[], readable_of_hasText_nil (by decide) ?_⟩, ⟨[], readable_of_hasText_nil (by decide) ?_⟩, by simp⟩
    · exact hasText_iff.1 (by decide)
    · exact hasText_iff.1 (by decide)
  have hlong : ∀ line, byte '\n' ∉ line → 65536 ≤ line.length → read line = .error .lineTooLong := by
    intro line hmem hlength
    have hone : SplitsInto line [line] := textLines_eq_iff.1 (textLines_eq_singleton hmem)
    exact (((image_grammar line).2 [line] hone).2.2 _).2 ⟨0, line, rfl, .tooLong hlength, by simp⟩
  refine ⟨?_, by decide, ?_⟩
  · exact (((image_grammar _).2 _ hsplits).2.2 _).2 ⟨2, _, rfl, offends_directive, hbefore⟩
  · refine hlong _ (fun hmem => ?_) (List.length_replicate ..).ge
    exact absurd (List.eq_of_mem_replicate hmem) (by decide)

end TwoPass.HexImage
