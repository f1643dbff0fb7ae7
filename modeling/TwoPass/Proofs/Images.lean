/-
Images read back. An image has a line for each word and an empty one at its end; each line is read as its word.

- `textLines_write`: the lines of an image
- `read_write`: an image is read as the words that it was written from
- `isImageOf_write`: what is written is a line of four digits for each word
- `images_round_trip`: writing and reading again changes no words, whatever the form of the image they came from
-/
import Mathlib.Tactic
import TwoPass.HexImage
import TwoPass.Proofs.Literals
import TwoPass.Proofs.Runs
import TwoPass.Proofs.Statements

namespace TwoPass

/-- four digits are enough for a word -/
theorem length_wordText (w : Word) : (wordText w).length = 4 := by
  have hdigits : (Nat.toDigits 16 w.toNat).length ≤ 4 := by
    rw [Nat.length_toDigits_le_iff (by decide) (by decide)]
    exact w.toNat_lt
  simp only [wordText, Text.hexPadded, Text.padLeft, Text.hex, List.length_append, List.length_replicate,
    List.length_map]
  omega

/-! ## Lines of one field -/

theorem IsField.not_isBlank {t : Text} (h : IsField t) : ∀ r ∈ runes t, r.isBlank = false :=
  fun r hr => Rune.isBlank_of_not_separates (h.solid r hr)

theorem IsField.trim {t : Text} (h : IsField t) : Text.trim t = t := by
  rw [Text.trim, trimRunes_eq_self, bytesOf_runes]
  · intro r hr
    exact h.not_isBlank r (List.mem_of_mem_head? hr)
  · intro r hr
    exact h.not_isBlank r (List.mem_of_mem_getLast? hr)

theorem IsField.fieldsBy_isBlank {t : Text} (h : IsField t) : Text.fieldsBy Rune.isBlank t = [t] := by
  rw [fieldsBy_eq, fieldRunes_eq_singleton h.runes_ne_nil h.not_isBlank, List.map_singleton, bytesOf_runes]

namespace HexImage

theorem withoutSlashes_eq_self {t : Text} (h : byte '/' ∉ t) : withoutSlashes t = t := by
  induction t with
  | nil => rfl
  | cons b t ih =>
    rw [List.mem_cons, not_or] at h
    rw [withoutSlashes, ih h.2, if_neg]
    simp [Ne.symm h.1]

theorem word?_wordText (w : Word) : word? (wordText w) = some w := by
  rw [word?, wordText, readDigits?_hexPadded]
  have hlt : w.toNat < 65536 := w.toNat_lt
  simp [hlt]

theorem readLine_wordText (n : Nat) (w : Word) : readLine n (wordText w) = .ok [w] := by
  have hfield : IsField (wordText w) := (plainText_hexPadded 4 w.toNat).isField
  have hshort : ¬ maxLine ≤ (wordText w).length := by
    rw [length_wordText]
    decide
  have hreturn : byte '\r' ∉ wordText w := not_mem_hexPadded (by decide) 4 w.toNat
  have hslash : byte '/' ∉ wordText w := not_mem_hexPadded (by decide) 4 w.toNat
  have hat : (wordText w).head? ≠ some (byte '@') := by
    intro hhead
    exact not_mem_hexPadded (by decide) 4 w.toNat (List.mem_of_mem_head? hhead)
  rw [readLine, if_neg hshort, dropReturn_eq_self hreturn, withoutSlashes_eq_self hslash, hfield.trim, readCode,
    if_neg (by simpa using hat), hfield.fieldsBy_isBlank]
  simp [readField, word?_wordText]

theorem textLines_write (words : List Word) : textLines (write words) = words.map wordText ++ [[]] := by
  have hsolid : ∀ t ∈ words.map wordText, byte '\n' ∉ t := by
    intro t ht
    obtain ⟨w, _, rfl⟩ := List.mem_map.1 ht
    exact not_mem_hexPadded (by decide) 4 w.toNat
  rw [← textLines_flatMap hsolid, write, List.flatMap_map]
  rfl

theorem readLines_wordTexts (words : List Word) (n : Nat) :
    List.Forall₂ (fun (s : Text × Nat) read => readLine s.2 s.1 = .ok read)
      ((words.map wordText ++ [[]]).zipIdx n) (words.map (fun w => [w]) ++ [[]]) := by
  induction words generalizing n with
  | nil => exact List.Forall₂.cons rfl List.Forall₂.nil
  | cons w words ih => exact List.Forall₂.cons (readLine_wordText n w) (ih (n + 1))

/-- **An image is read as the words that it was written from** -/
theorem read_write (words : List Word) : read (write words) = .ok words := by
  have hlines := readLines_wordTexts words 1
  rw [← textLines_write] at hlines
  rw [read, map_eq_ok_iff]
  refine ⟨_, mapM_eq_ok_iff.2 hlines, ?_⟩
  simp [← List.flatMap_def]

/-! ## The form of an image -/

/-- the line of a word: four digits, letters among them in upper case, that stand for the word -/
structure IsWordLine (line : Text) (w : Word) : Prop where
  length : line.length = 4
  digits : ∀ b ∈ line, b ∈ ascii "0123456789ABCDEF"
  value : placeValue .hex line = w.toNat

/-- one such line for each word, and a line feed behind each line -/
def IsImageOf (image : Text) (words : List Word) : Prop :=
  ∃ lines, List.Forall₂ IsWordLine lines words ∧ image = lines.flatMap fun line => line ++ [byte '\n']

theorem isWordLine_wordText (w : Word) : IsWordLine (wordText w) w where
  length := length_wordText w
  digits := by
    have hdigits : ∀ d < 16, byte (Nat.digitChar d).toUpper ∈ ascii "0123456789ABCDEF" := by decide
    intro b hb
    obtain ⟨d, hd, rfl⟩ := mem_hexPadded hb
    exact hdigits d hd
  value := by
    have hread : readDigits? Radix.hex.base (wordText w) = some w.toNat := readDigits?_hexPadded 4 w.toNat
    exact (readDigits?_eq_some_iff.1 hread).2

theorem isImageOf_write (words : List Word) : IsImageOf (write words) words := by
  refine ⟨words.map wordText, ?_, ?_⟩
  · rw [List.forall₂_map_left_iff, List.forall₂_same]
    exact fun w _ => isWordLine_wordText w
  · rw [write, List.flatMap_map]
    rfl

/-- **Images round-trip.** Words that are written are read again, however many they are. The words of any image that can
be read, with comments, blank lines and numerals of any width, are written as one line of four digits for each word, and
that image is read as the same words. -/
theorem images_round_trip :
    (∀ words, read (write words) = .ok words) ∧
    ∀ image words, read image = .ok words → IsImageOf (write words) words ∧ read (write words) = .ok words :=
  ⟨read_write, fun _ words _ => ⟨isImageOf_write words, read_write words⟩⟩

/-- an image in no particular form: a comment, several words on a line, short and long numerals, no line feed at the
end -/
def looseImage : Text := ascii "// start\n 8000  2a\r\n\n0000f00f//HALT\n0"

/-- its words, and the form that writing gives to them -/
theorem images_round_trip_loose :
    read looseImage = .ok [0x8000, 0x2A, 0xF00F, 0] ∧
    write [0x8000, 0x2A, 0xF00F, 0] = ascii "8000\n002A\nF00F\n0000\n" ∧
    IsImageOf (write [0x8000, 0x2A, 0xF00F, 0]) [0x8000, 0x2A, 0xF00F, 0] ∧
    read (write [0x8000, 0x2A, 0xF00F, 0]) = .ok [0x8000, 0x2A, 0xF00F, 0] := by
  have hread : read looseImage = .ok [0x8000, 0x2A, 0xF00F, 0] := by rfl
  exact ⟨hread, by decide, images_round_trip.2 looseImage _ hread⟩

end HexImage

end TwoPass
