/-
Other ways to write a line. A line may get a carriage return at its end, a comment behind it, and letters of the other
case in its mnemonic and in the `R` of its registers. It is then read as the same token, or as an instruction that does
the same and fails in the same way.

- `Respelled`: the ways in which a line may be written anew
- `fields_of_letter`: a letter in place of another changes one field of an instruction
- `Token.Alike`: tokens that are one to both passes, up to the wording of failures
- `Respelled.alike`: a line that is written anew has a token alike
-/
import Mathlib.Tactic
import TwoPass.Proofs.PlainSources

namespace TwoPass

/-! ## Ends of lines -/

theorem withoutComment_append_mark {mark : UInt8} (hmark : beginsComment mark = true) (line text : Text) :
    withoutComment (line ++ mark :: text) = withoutComment line := by
  rw [withoutComment, withoutComment, List.takeWhile_append, List.takeWhile_cons_of_neg (by simp [hmark]),
    List.append_nil]
  split_ifs with h
  · exact ((List.takeWhile_prefix _).eq_of_length h).symm
  · rfl

/-- a comment behind a line does not change what the line says -/
theorem tokenize_append_mark {mark : UInt8} (hmark : beginsComment mark = true) (line text : Text) :
    tokenize (line ++ mark :: text) = tokenize line := by
  rw [tokenize, withoutComment_append_mark hmark, tokenize]

theorem trim_append_return (t : Text) : Text.trim (t ++ [byte '\r']) = Text.trim t := by
  have hblank : (Rune.ofAscii (byte '\r')).isBlank = true := by decide
  rw [Text.trim, runes_append_ascii (by decide)]
  exact congrArg bytesOf (trimRunes_append_blank hblank (runes t))

/-- a carriage return behind a line does not change what the line says -/
theorem tokenize_append_return (line : Text) : tokenize (line ++ [byte '\r']) = tokenize line := by
  have hcode : withoutComment (line ++ [byte '\r']) = withoutComment line ++ [byte '\r'] ∨
      withoutComment (line ++ [byte '\r']) = withoutComment line := by
    rw [withoutComment, withoutComment, List.takeWhile_append]
    split_ifs with h
    · left
      rw [(List.takeWhile_prefix _).eq_of_length h]
      rfl
    · exact Or.inr rfl
  rw [tokenize, tokenize]
  rcases hcode with hcode | hcode
  · rw [hcode, trim_append_return]
  · rw [hcode]

theorem tokenize_dropReturn (raw : Text) : tokenize (dropReturn raw) = tokenize raw := by
  unfold dropReturn
  split_ifs with h
  · obtain ⟨line, rfl⟩ := List.getLast?_eq_some_iff.1 (eq_of_beq h)
    rw [List.dropLast_concat, tokenize_append_return]
  · rfl

/-! ## Letters -/

/-- a letter of the ASCII alphabet by its place, as a capital and as a small letter -/
def letterForms (place : Nat) : List UInt8 := [UInt8.ofNat (0x41 + place), UInt8.ofNat (0x61 + place)]

/-- the same letter, in the same case or the other -/
def SameLetter (c c' : UInt8) : Prop := ∃ place < 26, c ∈ letterForms place ∧ c' ∈ letterForms place

/-- what matters of a letter: it is one byte and no separator, begins no comment, and ends no label and no line -/
structure AsciiLetter (c : UInt8) : Prop where
  lt : c < 0x80
  solid : (Rune.ofAscii c).separates = false
  code : beginsComment c = false
  not_colon : c ≠ byte ':'
  not_lineEnd : c ≠ byte '\n'

theorem asciiLetter_of_mem {place : Nat} (hplace : place < 26) {c : UInt8} (h : c ∈ letterForms place) :
    AsciiLetter c := by
  have hforms : ∀ place < 26, (letterForms place).all (fun c =>
      decide (c < 0x80) && !(Rune.ofAscii c).separates && !beginsComment c && c != byte ':' && c != byte '\n') := by
    decide
  have hc := List.all_eq_true.1 (hforms place hplace) c h
  simp only [Bool.and_eq_true, decide_eq_true_eq, Bool.not_eq_true', bne_iff_ne] at hc
  obtain ⟨⟨⟨⟨hlt, hsolid⟩, hcode⟩, hcolon⟩, hend⟩ := hc
  exact ⟨hlt, hsolid, hcode, hcolon, hend⟩

namespace SameLetter
variable {c c' : UInt8} (h : SameLetter c c')
include h

theorem left : AsciiLetter c := by
  obtain ⟨place, hplace, hc, _⟩ := h
  exact asciiLetter_of_mem hplace hc

theorem right : AsciiLetter c' := by
  obtain ⟨place, hplace, _, hc'⟩ := h
  exact asciiLetter_of_mem hplace hc'

theorem capital : (Rune.ofAscii c).capital = (Rune.ofAscii c').capital := by
  have hforms : ∀ place < 26, (letterForms place).all (fun c =>
      (Rune.ofAscii c).capital == [UInt8.ofNat (0x41 + place)]) := by decide
  obtain ⟨place, hplace, hc, hc'⟩ := h
  have hall := List.all_eq_true.1 (hforms place hplace)
  rw [eq_of_beq (hall c hc), eq_of_beq (hall c' hc')]

end SameLetter

theorem capitals_append_ascii {c : UInt8} (hc : c < 0x80) (t u : Text) :
    Text.capitals (t ++ c :: u) = Text.capitals t ++ ((Rune.ofAscii c).capital ++ Text.capitals u) := by
  rw [Text.capitals, runes_append_ascii hc, List.flatMap_append, List.flatMap_cons]
  rfl

/-- the case of a letter does not matter to a mnemonic -/
theorem ofName?_append_letter {c c' : UInt8} (h : SameLetter c c') (front more : Text) :
    Mnemonic.ofName? (front ++ c' :: more) = Mnemonic.ofName? (front ++ c :: more) := by
  rw [Mnemonic.ofName?, capitals_append_ascii h.right.lt, ← h.capital, ← capitals_append_ascii h.left.lt]
  rfl

/-! ## Reading a line with another letter in it -/

theorem withoutComment_append_letter {c : UInt8} (hc : AsciiLetter c) {u : Text} (hu : ∀ b ∈ u, beginsComment b = false)
    (v : Text) : withoutComment (u ++ c :: v) = u ++ c :: withoutComment v := by
  have hfront : ∀ b ∈ u, (!beginsComment b) = true := fun b hb => by simp [hu b hb]
  rw [withoutComment, List.takeWhile_append_of_pos hfront, List.takeWhile_cons_of_pos (by simp [hc.code])]
  rfl

/-- a line with a letter in its code says something: a label if there is a colon at the end, else an instruction -/
theorem tokenize_append_letter {u : Text} (hu : ∀ b ∈ u, beginsComment b = false) (v : Text) :
    ∃ front back, ∀ c, AsciiLetter c → tokenize (u ++ c :: v) =
      if endsInColon back then .label (Text.trim (front ++ c :: back).dropLast)
      else .instruction (Text.fieldsBy Rune.separates (u ++ c :: withoutComment v)) := by
  refine ⟨bytesOf (trimFront (runes u)), bytesOf (trimBack (runes (withoutComment v))), fun c hc => ?_⟩
  have htrim : Text.trim (u ++ c :: withoutComment v) =
      bytesOf (trimFront (runes u)) ++ c :: bytesOf (trimBack (runes (withoutComment v))) := by
    rw [Text.trim, runes_append_ascii hc.lt, trimRunes_append_cons (Rune.isBlank_of_not_separates hc.solid)]
    simp [Rune.ofAscii]
  have hcolon : endsInColon (bytesOf (trimFront (runes u)) ++ c :: bytesOf (trimBack (runes (withoutComment v)))) =
      endsInColon (bytesOf (trimBack (runes (withoutComment v)))) := by
    rw [endsInColon, endsInColon, List.getLast?_append, List.getLast?_cons]
    cases (bytesOf (trimBack (runes (withoutComment v)))).getLast? with
    | none => simpa using hc.not_colon
    | some b => rfl
  rw [tokenize, withoutComment_append_letter hc hu, tokenizeCode, fieldsBy_trim, htrim, hcolon]
  simp

/-- a letter in place of another changes one field of an instruction, and whether it is one does not change -/
theorem fields_of_letter {u v : Text} {c c' : UInt8} {fields : List Text} (hu : ∀ b ∈ u, beginsComment b = false)
    (hc : AsciiLetter c) (hc' : AsciiLetter c') (h : tokenize (u ++ c :: v) = .instruction fields) :
    ∃ done front more rest, Text.fieldsBy Rune.separates (u ++ [c]) = done ++ [front ++ [c]] ∧
      fields = done ++ (front ++ c :: more) :: rest ∧
      tokenize (u ++ c' :: v) = .instruction (done ++ (front ++ c' :: more) :: rest) := by
  obtain ⟨start, back, htoken⟩ := tokenize_append_letter hu v
  obtain ⟨done, front, more, rest, hfields⟩ := fieldsBy_append_solid Rune.separates u (withoutComment v)
  rw [htoken c hc] at h
  split_ifs at h with hcolon
  rw [Token.instruction.injEq] at h
  refine ⟨done, front, more, rest, (hfields c hc.lt hc.solid).1, ?_, ?_⟩
  · rw [← h, (hfields c hc.lt hc.solid).2]
  · rw [htoken c' hc', if_neg hcolon, (hfields c' hc'.lt hc'.solid).2]

/-! ## Tokens alike -/

/-- tokens that are one to both passes: equal, or instructions of one size that are read alike under any labels, up to
the wording of failures -/
inductive Token.Alike : Token → Token → Prop where
  | refl (token : Token) : Token.Alike token token
  | instruction {fields fields' : List Text}
      (size : (Token.instruction fields').size = (Token.instruction fields).size)
      (read : ∀ labels, (readInstruction labels fields').mapError Cause.kind =
        (readInstruction labels fields).mapError Cause.kind) :
      Token.Alike (.instruction fields) (.instruction fields')

theorem Token.Alike.trans {t t' t'' : Token} (h : t.Alike t') (h' : t'.Alike t'') : t.Alike t'' := by
  cases h with
  | refl => exact h'
  | instruction size read =>
    cases h' with
    | refl => exact .instruction size read
    | instruction size' read' => exact .instruction (size'.trans size) fun labels => (read' labels).trans (read labels)

/-- mnemonics that name the same instruction, or none -/
theorem alike_of_ofName? {name name' : Text} (h : Mnemonic.ofName? name' = Mnemonic.ofName? name) (rest : List Text) :
    (Token.instruction (name :: rest)).Alike (.instruction (name' :: rest)) := by
  refine .instruction ?_ fun labels => ?_
  · simp only [Token.size, mnemonicField, List.headD_cons, h]
  · simp only [readInstruction, mnemonicField, operandFields, List.headD_cons, List.tail_cons, h]
    cases Mnemonic.ofName? name with
    | none => rfl
    | some m => rfl

theorem register?_of_mem {c : UInt8} (hc : c ∈ ascii "Rr") (more : Text) :
    register? (c :: more) = register? (byte 'R' :: more) := by
  have hforms : c = byte 'R' ∨ c = byte 'r' := by simpa [ascii] using hc
  rcases hforms with rfl | rfl
  · rfl
  · rcases more with _ | ⟨n, _ | ⟨n', more⟩⟩
    · rfl
    · rfl
    · rfl

/-- a register slot reads both cases alike -/
theorem readOperand_register {o : Operand} (ho : o.isRegister = true) {c c' : UInt8} (hc : c ∈ ascii "Rr")
    (hc' : c' ∈ ascii "Rr") (labels : LabelTable) (m : Mnemonic) (more : Text) (position : Nat) :
    (readOperand labels m o (c' :: more) position).mapError Cause.kind =
      (readOperand labels m o (c :: more) position).mapError Cause.kind := by
  have hkind : o.kind = .register := by simpa [Operand.isRegister] using ho
  simp only [readOperand, hkind, register?_of_mem hc, register?_of_mem hc']
  cases register? (byte 'R' :: more) with
  | none => rfl
  | some r => rfl

/-- operands that differ in the case of one register are read alike; `before` holds the tokens before it -/
theorem readOperands_register {operands : List Operand} {before : List Text} {o : Operand}
    (hslot : operands[before.length]? = some o) (ho : o.isRegister = true) {c c' : UInt8} (hc : c ∈ ascii "Rr")
    (hc' : c' ∈ ascii "Rr") (labels : LabelTable) (m : Mnemonic) (more : Text) (rest : List Text) (position : Nat) :
    List.Forall₂
      (fun (s s' : (Operand × Text) × Nat) => (readOperand labels m s'.1.1 s'.1.2 s'.2).mapError Cause.kind =
        (readOperand labels m s.1.1 s.1.2 s.2).mapError Cause.kind)
      ((operands.zip (before ++ (c :: more) :: rest)).zipIdx position)
      ((operands.zip (before ++ (c' :: more) :: rest)).zipIdx position) := by
  induction operands generalizing before position with
  | nil => exact .nil
  | cons o' operands ih =>
    cases before with
    | nil =>
      obtain rfl : o' = o := Option.some.inj hslot
      exact .cons (readOperand_register ho hc hc' labels m more position) (List.forall₂_same.2 fun _ _ => rfl)
    | cons token before => exact .cons rfl (ih hslot (position + 1))

theorem alike_of_register {name : Text} {m : Mnemonic} (hname : Mnemonic.ofName? name = some m) {before : List Text}
    {o : Operand} (hslot : m.operands[before.length]? = some o) (ho : o.isRegister = true) {c c' : UInt8}
    (hc : c ∈ ascii "Rr") (hc' : c' ∈ ascii "Rr") (more : Text) (rest : List Text) :
    (Token.instruction (name :: before ++ (c :: more) :: rest)).Alike
      (.instruction (name :: before ++ (c' :: more) :: rest)) := by
  refine .instruction rfl fun labels => ?_
  have hoperands : (readOperands labels m (before ++ (c' :: more) :: rest)).mapError Cause.kind =
      (readOperands labels m (before ++ (c :: more) :: rest)).mapError Cause.kind := by
    rw [readOperands, readOperands, mapError_mapM, mapError_mapM]
    exact mapM_eq_of_forall₂ (readOperands_register hslot ho hc hc' labels m more rest 1)
  have hlength : (before ++ (c' :: more) :: rest).length = (before ++ (c :: more) :: rest).length := by simp
  have harguments : (readArguments labels m (before ++ (c' :: more) :: rest)).mapError Cause.kind =
      (readArguments labels m (before ++ (c :: more) :: rest)).mapError Cause.kind := by
    rw [readArguments, readArguments, hlength]
    split_ifs
    · exact hoperands
    · rfl
  simp only [readInstruction, mnemonicField, operandFields, List.cons_append, List.headD_cons, List.tail_cons, hname,
    mapError_map, harguments]

/-! ## Lines written anew -/

/-- the ways in which a line may be written anew, one change after another -/
inductive Respelled : Text → Text → Prop where
  | refl (line : Text) : Respelled line line
  | trans {line line' line'' : Text} (h : Respelled line line') (h' : Respelled line' line'') : Respelled line line''
  /-- a carriage return at the end -/
  | lineEnd (line : Text) : Respelled line (line ++ [byte '\r'])
  /-- a comment at the end, behind a carriage return or before it -/
  | comment (line : Text) {mark : UInt8} {text tail : Text} (hmark : beginsComment mark = true)
      (htext : byte '\n' ∉ text) (htail : tail = [] ∨ tail = [byte '\r']) :
      Respelled (line ++ tail) (line ++ mark :: text ++ tail)
  /-- the other case for a letter of the first field of an instruction -/
  | mnemonic {u v front : Text} {c c' : UInt8} {fields : List Text}
      (hline : tokenize (u ++ c :: v) = .instruction fields) (hcode : ∀ b ∈ u, beginsComment b = false)
      (hplace : Text.fieldsBy Rune.separates (u ++ [c]) = [front ++ [c]]) (hletter : SameLetter c c') :
      Respelled (u ++ c :: v) (u ++ c' :: v)
  /-- the other case for the `R` that begins an operand in a register slot -/
  | register {u v name : Text} {c c' : UInt8} {fields before : List Text} {m : Mnemonic} {o : Operand}
      (hline : tokenize (u ++ c :: v) = .instruction fields) (hcode : ∀ b ∈ u, beginsComment b = false)
      (hplace : Text.fieldsBy Rune.separates (u ++ [c]) = name :: before ++ [[c]])
      (hname : Mnemonic.ofName? name = some m) (hslot : m.operands[before.length]? = some o)
      (ho : o.isRegister = true) (hc : c ∈ ascii "Rr") (hc' : c' ∈ ascii "Rr") :
      Respelled (u ++ c :: v) (u ++ c' :: v)

theorem sameLetter_of_mem {c c' : UInt8} (hc : c ∈ ascii "Rr") (hc' : c' ∈ ascii "Rr") : SameLetter c c' :=
  ⟨17, by decide, hc, hc'⟩

/-- **A line that is written anew has a token alike** -/
theorem Respelled.alike {line line' : Text} (h : Respelled line line') : (tokenize line).Alike (tokenize line') := by
  induction h with
  | refl line => exact .refl _
  | trans _ _ ih ih' => exact ih.trans ih'
  | lineEnd line =>
    rw [tokenize_append_return]
    exact .refl _
  | @comment line mark text tail hmark htext htail =>
    have hline : tokenize (line ++ tail) = tokenize line := by
      rcases htail with rfl | rfl
      · rw [List.append_nil]
      · exact tokenize_append_return line
    rw [hline, List.append_assoc, List.cons_append, tokenize_append_mark hmark]
    exact .refl _
  | mnemonic hline hcode hplace hletter =>
    obtain ⟨done, front, more, rest, hfront, hfields, hline'⟩ :=
      fields_of_letter hcode hletter.left hletter.right hline
    -- the letter is in the only field so far, so no field is before its own
    obtain rfl : done = [] := by
      have hlength := congrArg List.length (hfront.symm.trans hplace)
      simpa using hlength
    rw [hline, hline', hfields]
    exact alike_of_ofName? (ofName?_append_letter hletter front more) rest
  | @register u v name c c' fields before m o hline hcode hplace hname hslot ho hc hc' =>
    have hletter := sameLetter_of_mem hc hc'
    obtain ⟨done, front, more, rest, hfront, hfields, hline'⟩ :=
      fields_of_letter hcode hletter.left hletter.right hline
    obtain ⟨rfl, hlast⟩ : done = name :: before ∧ front ++ [c] = [c] := by
      have hsplit := List.append_inj' (hfront.symm.trans hplace) rfl
      exact ⟨hsplit.1, List.singleton_inj.1 hsplit.2⟩
    obtain rfl : front = [] := by simpa using hlast
    rw [hline, hline', hfields]
    exact alike_of_register hname hslot ho hc hc' more rest

end TwoPass
