/-
Images joined by a line feed. The line feed ends the last line of the first image, whatever that line is: empty, a
comment, or one with a carriage return at its end. So the lines of the whole are those of the one image and then those
of the other. What is on a line does not depend on the lines around it, and its number is seen in errors only.

- `length_textLines`: a text has one line more than it has line feeds
- `readLine_add`, `readFrom_add`: lines with greater numbers, from one line to all
- `readFrom_append`: lines are read one after the other, up to the first that cannot be read
- `read_joined`: reading the whole is reading the one image and then the other, further down
- `joined_images`: the words of the whole, and its error
-/
import Mathlib.Tactic
import TwoPass.Proofs.ImageGrammar

namespace TwoPass

/-- an error with lines put in front of all; a line that is too long is blamed without its number -/
def ImageError.movedBy (lines : Nat) : ImageError → ImageError
  | lineTooLong => lineTooLong
  | addressDirective text line => addressDirective text (line + lines)
  | invalidWord field line => invalidWord field (line + lines)

theorem length_textLines (t : Text) : (textLines t).length = 1 + t.count (byte '\n') := by
  induction t with
  | nil => rfl
  | cons b t ih =>
    rw [textLines, pieces_cons]
    by_cases hend : isLineEnd b = true
    · have hb : b = byte '\n' := eq_of_beq hend
      rw [if_pos hend, hb, List.count_cons_self, List.length_cons]
      exact congrArg (· + 1) ih
    · have hb : b ≠ byte '\n' := fun h => hend (beq_iff_eq.2 h)
      rw [if_neg hend, List.count_cons_of_ne hb, ← ih]
      cases hlines : pieces isLineEnd t with
      | nil => exact absurd hlines (pieces_ne_nil isLineEnd t)
      | cons line lines => simp [extendFirst, textLines, hlines]

namespace HexImage

/-! ## One line -/

theorem readField_add (number offset : Nat) (field : Text) :
    readField (number + offset) field = (readField number field).mapError (ImageError.movedBy offset) := by
  unfold readField
  cases word? field <;> rfl

theorem readCode_add (number offset : Nat) (code : Text) :
    readCode (number + offset) code = (readCode number code).mapError (ImageError.movedBy offset) := by
  have hfields : readField (number + offset) = fun field =>
      (readField number field).mapError (ImageError.movedBy offset) := funext (readField_add number offset)
  unfold readCode
  by_cases hat : (code.head? == some (byte '@')) = true
  · rw [if_pos hat, if_pos hat]
    rfl
  · rw [if_neg hat, if_neg hat, mapError_mapM, hfields]

theorem readLine_add (number offset : Nat) (line : Text) :
    readLine (number + offset) line = (readLine number line).mapError (ImageError.movedBy offset) := by
  unfold readLine
  by_cases hlong : maxLine ≤ line.length
  · rw [if_pos hlong, if_pos hlong]
    rfl
  · rw [if_neg hlong, if_neg hlong, readCode_add]

/-! ## Lines one after another -/

/-- the words of lines that are numbered from a number on -/
def readFrom (number : Nat) (lines : List Text) : Except ImageError (List Word) :=
  ((lines.zipIdx number).mapM fun s => readLine s.2 s.1).map List.flatten

theorem read_eq_readFrom (image : Text) : read image = readFrom 1 (textLines image) := rfl

theorem readFrom_cons (number : Nat) (line : Text) (lines : List Text) :
    readFrom number (line :: lines) = (do
      let words ← readLine number line
      let more ← readFrom (number + 1) lines
      return words ++ more) := by
  simp only [readFrom, List.zipIdx_cons, List.mapM_cons]
  cases readLine number line with
  | error e => rfl
  | ok words => cases (lines.zipIdx (number + 1)).mapM fun s => readLine s.2 s.1 <;> rfl

theorem readFrom_add (number offset : Nat) (lines : List Text) :
    readFrom (number + offset) lines = (readFrom number lines).mapError (ImageError.movedBy offset) := by
  induction lines generalizing number with
  | nil => rfl
  | cons line lines ih =>
    have hnext : number + offset + 1 = number + 1 + offset := Nat.add_right_comm number offset 1
    rw [readFrom_cons, readFrom_cons, hnext, ih, readLine_add]
    simp only [mapError_bind]
    rfl

theorem readFrom_append (number : Nat) (lines below : List Text) :
    readFrom number (lines ++ below) = (do
      let words ← readFrom number lines
      let more ← readFrom (number + lines.length) below
      return words ++ more) := by
  induction lines generalizing number with
  | nil => exact (bind_pure (readFrom number below)).symm
  | cons line lines ih =>
    have hnext : number + (line :: lines).length = number + 1 + lines.length := by
      rw [List.length_cons]
      omega
    rw [List.cons_append, readFrom_cons, readFrom_cons, ih, hnext]
    simp only [bind_assoc, pure_bind, List.append_assoc]

/-! ## Two images -/

/-- **Reading two images is reading the one and then the other**, with the lines of the one above it -/
theorem read_joined (front back : Text) :
    read (front ++ byte '\n' :: back) = (do
      let words ← read front
      let more ← (read back).mapError (ImageError.movedBy (1 + front.count (byte '\n')))
      return words ++ more) := by
  have hlines : textLines (front ++ byte '\n' :: back) = textLines front ++ textLines back :=
    pieces_append_cons isLineEnd (byte '\n') (by decide) front back
  rw [read_eq_readFrom, hlines, readFrom_append, readFrom_add, length_textLines]
  rfl

/-- **Images can be joined.** Two images with a line feed between them, whatever their last lines: if the first cannot be
read, the whole fails with the same error. If both can be read, the whole has the words of the one and then those of the
other. If only the second cannot be read, the whole fails with its error, and the line that is blamed is as many lines
further down as the first image has, which is one more than its line feeds. -/
theorem joined_images (front back : Text) :
    (∀ e, read front = .error e → read (front ++ byte '\n' :: back) = .error e) ∧
    (∀ words more, read front = .ok words → read back = .ok more →
      read (front ++ byte '\n' :: back) = .ok (words ++ more)) ∧
    ∀ words e, read front = .ok words → read back = .error e →
      read (front ++ byte '\n' :: back) = .error (e.movedBy (1 + front.count (byte '\n'))) := by
  rw [read_joined]
  refine ⟨fun e hfront => ?_, fun words more hfront hback => ?_, fun words e hfront hback => ?_⟩
  · rw [hfront]
    rfl
  · rw [hfront, hback]
    rfl
  · rw [hfront, hback]
    rfl

/-! A line of slashes is a comment, if it is short enough to be held. -/

theorem textLines_slashes (n : Nat) : textLines (List.replicate n (byte '/')) = [List.replicate n (byte '/')] := by
  apply textLines_eq_singleton
  intro hmem
  exact absurd (List.eq_of_mem_replicate hmem) (by decide)

theorem read_slashes {n : Nat} (htwo : 2 ≤ n) (hshort : n < 65536) : read (List.replicate n (byte '/')) = .ok [] := by
  have hcomment : ascii "//" <+: List.replicate n (byte '/') := by
    obtain ⟨more, rfl⟩ := Nat.exists_eq_add_of_le htwo
    exact ⟨List.replicate more (byte '/'), (List.replicate_add 2 more (byte '/')).symm⟩
  have hcode : IsImageCode [] (List.replicate n (byte '/')) := by
    refine ⟨_, rfl, fun _ => hcomment, fun hpart => ?_⟩
    have hlength := hpart.length_le
    simp [ascii] at hlength
  have htext : HasText (List.replicate n (byte '/')) [] := ⟨[], hcode, trim_eq_iff.1 rfl⟩
  have hline : Readable (List.replicate n (byte '/')) [] := readable_of_hasText_nil (by simpa using hshort) htext
  rw [read_eq_ok_iff, textLines_slashes]
  exact ⟨[[]], .cons hline .nil, rfl⟩

theorem read_long_slashes {n : Nat} (hlong : 65536 ≤ n) : read (List.replicate n (byte '/')) = .error .lineTooLong := by
  rw [read_eq_error_iff, textLines_slashes]
  exact ⟨0, _, rfl, .tooLong (by simpa using hlong), by simp⟩

/-- the lines in front of a directive: one with a comment and a carriage return, an empty one that ends the first image
and one more carriage return; and a comment of 65535 bytes, which can be followed by words, beside one of 65536 -/
theorem joined_images_edges :
    read (ascii "2a // top\r\n" ++ byte '\n' :: ascii "\r\n @8") = .error (.addressDirective (ascii "@8") 4) ∧
    ImageError.message (.addressDirective (ascii "@8") 4) =
      ascii "hexfile: address directive '@8' not supported on line 4" ∧
    read (List.replicate 65535 (byte '/') ++ byte '\n' :: ascii "f00f 7") = .ok [0xF00F, 7] ∧
    read (List.replicate 65536 (byte '/') ++ byte '\n' :: ascii "zz") = .error .lineTooLong := by
  have hfront : read (ascii "2a // top\r\n") = .ok [0x2A] := by rfl
  have hback : read (ascii "\r\n @8") = .error (.addressDirective (ascii "@8") 2) := by rfl
  have hwords : read (ascii "f00f 7") = .ok [0xF00F, 7] := by rfl
  refine ⟨(joined_images _ _).2.2 _ _ hfront hback, by decide, ?_, ?_⟩
  · exact (joined_images _ _).2.1 _ _ (read_slashes (by decide) (by decide)) hwords
  · exact (joined_images _ _).1 _ (read_long_slashes le_rfl)

end HexImage

end TwoPass
