/-
Statements that were written are read back. A statement in plain form gives the tokenizer its own fields again, and the
source of a disassembly gives one instruction line for each entry.

- `tokenize_plainStatement`: a plain statement has the fields it was made of
- `PlainText.isField`: texts of letters, digits and the like are fields
- `scan_sourceOf`: the lines of the source of a disassembly
-/
import Mathlib.Data.List.TakeWhile
import Mathlib.Tactic
import TwoPass.Disassembly
import TwoPass.Proofs.Numerals
import TwoPass.Proofs.Runes
import TwoPass.Source

namespace TwoPass

/-! ## Plain statements -/

/-- a text that can stand as one field on a line: it is not empty and holds neither a separator nor a comment -/
structure IsField (t : Text) : Prop where
  ne_nil : t ≠ []
  solid : ∀ r ∈ runes t, r.separates = false
  code : ∀ b ∈ t, beginsComment b = false

theorem Rune.isBlank_of_not_separates {r : Rune} (h : r.separates = false) : r.isBlank = false :=
  (Bool.or_eq_false_iff.1 h).1

theorem IsField.runes_ne_nil {t : Text} (h : IsField t) : runes t ≠ [] := fun hnil => h.ne_nil (runes_eq_nil_iff.1 hnil)

theorem IsField.fieldRunes {t : Text} (h : IsField t) : fieldRunes Rune.separates (runes t) = [runes t] :=
  fieldRunes_eq_singleton h.runes_ne_nil h.solid

theorem join_cons_cons (first second : Text) (rest : List Text) :
    Text.join (ascii ", ") (first :: second :: rest) =
      first ++ byte ',' :: byte ' ' :: Text.join (ascii ", ") (second :: rest) := by
  simp [Text.join, List.intercalate, show ascii ", " = [byte ',', byte ' '] from rfl]

theorem join_singleton (t : Text) : Text.join (ascii ", ") [t] = t := by
  simp [Text.join, List.intercalate]

/-- the runes of fields with commas and blanks between them -/
theorem runes_join_cons_cons (first second : Text) (rest : List Text) :
    runes (Text.join (ascii ", ") (first :: second :: rest)) =
      runes first ++ Rune.ofAscii (byte ',') :: Rune.ofAscii (byte ' ') ::
        runes (Text.join (ascii ", ") (second :: rest)) := by
  rw [join_cons_cons, runes_append_ascii (by decide), runes_cons_ascii (by decide)]

theorem fieldRunes_join {operands : List Text} (h : ∀ o ∈ operands, IsField o) :
    fieldRunes Rune.separates (runes (Text.join (ascii ", ") operands)) = operands.map runes := by
  induction operands with
  | nil => rfl
  | cons first rest ih =>
    have hfirst := (h first List.mem_cons_self).fieldRunes
    have hrest := ih fun o ho => h o (List.mem_cons_of_mem first ho)
    cases rest with
    | nil => rw [join_singleton, hfirst]; rfl
    | cons second rest =>
      rw [runes_join_cons_cons, fieldRunes_append_cons (by decide), fieldRunes_cons (by decide), hfirst, hrest]
      rfl

/-- joined fields end with a field -/
theorem runes_join_eq_append {operands : List Text} (h : operands ≠ []) :
    ∃ rs last, last ∈ operands ∧ runes (Text.join (ascii ", ") operands) = rs ++ runes last := by
  induction operands with
  | nil => exact absurd rfl h
  | cons first rest ih =>
    cases rest with
    | nil => exact ⟨[], first, List.mem_cons_self, by rw [join_singleton, List.nil_append]⟩
    | cons second rest =>
      obtain ⟨rs, last, hlast, hruns⟩ := ih (List.cons_ne_nil _ _)
      refine ⟨runes first ++ Rune.ofAscii (byte ',') :: Rune.ofAscii (byte ' ') :: rs, last,
        List.mem_cons_of_mem first hlast, ?_⟩
      rw [runes_join_cons_cons, hruns]
      simp

/-- the runes of a statement: those of its mnemonic, and those of its operands behind a blank -/
theorem runes_plainStatement {m : Text} {operands : List Text} (hcapitals : m.capitals = m) :
    runes (plainStatement (m :: operands)) =
      runes m ++ if operands = [] then [] else
        Rune.ofAscii (byte ' ') :: runes (Text.join (ascii ", ") operands) := by
  cases operands with
  | nil => simp [plainStatement, mnemonicField, operandFields, hcapitals]
  | cons o operands =>
    have hstatement : plainStatement (m :: o :: operands) =
        m ++ byte ' ' :: Text.join (ascii ", ") (o :: operands) := by
      simp [plainStatement, mnemonicField, operandFields, hcapitals]
    rw [hstatement, runes_append_ascii (by decide)]
    simp

theorem fieldsBy_plainStatement {m : Text} {operands : List Text} (hcapitals : m.capitals = m) (hm : IsField m)
    (hoperands : ∀ o ∈ operands, IsField o) :
    Text.fieldsBy Rune.separates (plainStatement (m :: operands)) = m :: operands := by
  have hbytes : ∀ ts : List Text, (ts.map runes).map bytesOf = ts := by
    intro ts
    rw [List.map_map]
    exact (List.map_congr_left fun t _ => bytesOf_runes t).trans (List.map_id ts)
  have hfields : fieldRunes Rune.separates (runes (plainStatement (m :: operands))) = (m :: operands).map runes := by
    rw [runes_plainStatement hcapitals]
    split_ifs with hnil
    · rw [List.append_nil, hm.fieldRunes, hnil]
      rfl
    · rw [fieldRunes_append_cons (by decide), hm.fieldRunes, fieldRunes_join hoperands]
      rfl
  rw [fieldsBy_eq, hfields, hbytes]

/-- a statement begins and ends with a field, so there is nothing to trim -/
theorem trim_plainStatement {m : Text} {operands : List Text} (hcapitals : m.capitals = m) (hm : IsField m)
    (hoperands : ∀ o ∈ operands, IsField o) :
    Text.trim (plainStatement (m :: operands)) = plainStatement (m :: operands) := by
  -- the last field is the mnemonic if there are no operands
  have hends : ∃ rs last, IsField last ∧ runes (plainStatement (m :: operands)) = rs ++ runes last := by
    rw [runes_plainStatement hcapitals]
    split_ifs with hnil
    · exact ⟨[], m, hm, by simp⟩
    · obtain ⟨rs, last, hlast, hruns⟩ := runes_join_eq_append hnil
      exact ⟨runes m ++ Rune.ofAscii (byte ' ') :: rs, last, hoperands last hlast, by rw [hruns]; simp⟩
  have hfirst : ∀ r ∈ (runes (plainStatement (m :: operands))).head?, r.isBlank = false := by
    intro r hr
    rw [runes_plainStatement hcapitals, List.head?_append_of_ne_nil _ hm.runes_ne_nil] at hr
    exact Rune.isBlank_of_not_separates (hm.solid r (List.mem_of_head? hr))
  have hlast : ∀ r ∈ (runes (plainStatement (m :: operands))).getLast?, r.isBlank = false := by
    intro r hr
    obtain ⟨rs, last, hfield, hruns⟩ := hends
    rw [hruns, List.getLast?_append_of_ne_nil _ hfield.runes_ne_nil] at hr
    exact Rune.isBlank_of_not_separates (hfield.solid r (List.mem_of_getLast? hr))
  rw [Text.trim, trimRunes_eq_self hfirst hlast, bytesOf_runes]

theorem mem_join {operands : List Text} {b : UInt8} (h : b ∈ Text.join (ascii ", ") operands) :
    b = byte ',' ∨ b = byte ' ' ∨ ∃ o ∈ operands, b ∈ o := by
  induction operands with
  | nil => exact absurd h List.not_mem_nil
  | cons first rest ih =>
    cases rest with
    | nil =>
      rw [join_singleton] at h
      exact Or.inr (Or.inr ⟨first, List.mem_cons_self, h⟩)
    | cons second rest =>
      rw [join_cons_cons, List.mem_append, List.mem_cons, List.mem_cons] at h
      rcases h with h | h | h | h
      · exact Or.inr (Or.inr ⟨first, List.mem_cons_self, h⟩)
      · exact Or.inl h
      · exact Or.inr (Or.inl h)
      · rcases ih h with h | h | ⟨o, ho, hb⟩
        · exact Or.inl h
        · exact Or.inr (Or.inl h)
        · exact Or.inr (Or.inr ⟨o, List.mem_cons_of_mem first ho, hb⟩)

/-- the bytes of a statement are those of its fields, blanks and commas -/
theorem mem_plainStatement {m : Text} {operands : List Text} (hcapitals : m.capitals = m) {b : UInt8}
    (h : b ∈ plainStatement (m :: operands)) : b = byte ',' ∨ b = byte ' ' ∨ ∃ f ∈ m :: operands, b ∈ f := by
  have hm : b ∈ m → b = byte ',' ∨ b = byte ' ' ∨ ∃ f ∈ m :: operands, b ∈ f :=
    fun hb => Or.inr (Or.inr ⟨m, List.mem_cons_self, hb⟩)
  simp only [plainStatement, mnemonicField, operandFields, List.headD_cons, List.tail_cons, hcapitals] at h
  split_ifs at h
  · exact hm h
  · rw [List.mem_append, List.mem_cons] at h
    rcases h with h | h | h
    · exact hm h
    · exact Or.inr (Or.inl h)
    · rcases mem_join h with h | h | ⟨o, ho, hb⟩
      · exact Or.inl h
      · exact Or.inr (Or.inl h)
      · exact Or.inr (Or.inr ⟨o, List.mem_cons_of_mem m ho, hb⟩)

/-- a plain statement is read as a label if it ends like one, and else as the fields it was made of -/
theorem tokenize_plainStatement_eq {m : Text} {operands : List Text} (hcapitals : m.capitals = m)
    (hfields : ∀ f ∈ m :: operands, IsField f) :
    tokenize (plainStatement (m :: operands)) =
      if endsInColon (plainStatement (m :: operands)) then
        .label (Text.trim (plainStatement (m :: operands)).dropLast)
      else .instruction (m :: operands) := by
  have hm := hfields m List.mem_cons_self
  have hoperands : ∀ o ∈ operands, IsField o := fun o ho => hfields o (List.mem_cons_of_mem m ho)
  have hcode : withoutComment (plainStatement (m :: operands)) = plainStatement (m :: operands) := by
    refine List.takeWhile_eq_self_iff.2 fun b hb => ?_
    rcases mem_plainStatement hcapitals hb with rfl | rfl | ⟨f, hf, hb⟩
    · decide
    · decide
    · simp [(hfields f hf).code b hb]
  have hne : (plainStatement (m :: operands)).isEmpty = false := by
    rw [List.isEmpty_eq_false_iff]
    intro hnil
    have hfields := fieldsBy_plainStatement hcapitals hm hoperands
    rw [hnil] at hfields
    exact absurd hfields (by simp [Text.fieldsBy, runes, readRunes])
  rw [tokenize, hcode, trim_plainStatement hcapitals hm hoperands, tokenizeCode, hne,
    fieldsBy_plainStatement hcapitals hm hoperands]
  rfl

/-- **A plain statement is read as the fields it was made of**, if it does not end like a label -/
theorem tokenize_plainStatement {m : Text} {operands : List Text} (hcapitals : m.capitals = m)
    (hfields : ∀ f ∈ m :: operands, IsField f) (hcolon : endsInColon (plainStatement (m :: operands)) = false) :
    tokenize (plainStatement (m :: operands)) = .instruction (m :: operands) := by
  rw [tokenize_plainStatement_eq hcapitals hfields, hcolon]
  rfl

/-! ## Plain fields -/

/-- characters that mean nothing to the tokenizer: those from the full stop on that print, without colon and semicolon -/
def isPlain (b : UInt8) : Bool := 0x2D < b && b < 0x7F && b != byte ':' && b != byte ';'

/-- a text of such characters -/
structure PlainText (t : Text) : Prop where
  ne_nil : t ≠ []
  plain : ∀ b ∈ t, isPlain b = true

theorem plainText_of_all {t : Text} (hne : t ≠ []) (hall : t.all isPlain = true) : PlainText t :=
  ⟨hne, List.all_eq_true.1 hall⟩

theorem isPlain_iff {b : UInt8} :
    isPlain b = true ↔ 0x2D < b.toNat ∧ b.toNat < 0x7F ∧ b.toNat ≠ 0x3A ∧ b.toNat ≠ 0x3B := by
  simp only [isPlain, Bool.and_eq_true, decide_eq_true_eq, bne_iff_ne, ne_eq, UInt8.lt_iff_toNat_lt,
    ← UInt8.toNat_inj, and_assoc]
  rfl

theorem separates_of_isPlain {b : UInt8} (h : isPlain b = true) : (Rune.ofAscii b).separates = false := by
  obtain ⟨hlow, hhigh, -, -⟩ := isPlain_iff.1 h
  simp [Rune.separates, Rune.isBlank, Rune.satisfies, Rune.ofAscii, isBlank, inRanges, blankRanges]
  omega

theorem runes_of_plain {t : Text} (h : ∀ b ∈ t, isPlain b = true) : runes t = t.map Rune.ofAscii := by
  induction t with
  | nil => rfl
  | cons b t ih =>
    have hb : b < 0x80 := by
      have := isPlain_iff.1 (h b List.mem_cons_self)
      rw [UInt8.lt_iff_toNat_lt]
      exact lt_trans this.2.1 (by decide)
    rw [runes_cons_ascii hb, ih fun b' hb' => h b' (List.mem_cons_of_mem b hb'), List.map_cons]

theorem PlainText.isField {t : Text} (h : PlainText t) : IsField t where
  ne_nil := h.ne_nil
  solid := by
    intro r hr
    rw [runes_of_plain h.plain] at hr
    obtain ⟨b, hb, rfl⟩ := List.mem_map.1 hr
    exact separates_of_isPlain (h.plain b hb)
  code := by
    intro b hb
    have := isPlain_iff.1 (h.plain b hb)
    simp only [beginsComment, Bool.or_eq_false_iff, beq_eq_false_iff_ne, ne_eq, ← UInt8.toNat_inj]
    constructor
    · exact this.2.2.2
    · intro hhash
      have : b.toNat = 0x23 := hhash
      omega

/-! ## The source of a disassembly -/

theorem dropReturn_eq_self {t : Text} (h : byte '\r' ∉ t) : dropReturn t = t := by
  rw [dropReturn, if_neg]
  intro hlast
  exact h (List.mem_of_mem_getLast? (by simpa using hlast))

/-- the fields of the statement of a content -/
def Content.fields : Content → List Text
  | .instruction m registers value => m.name :: operandTexts m.operands registers (value.getD 0)
  | .data w => [ascii ".WORD", ascii "0x" ++ wordText w]

theorem capitals_name (m : Mnemonic) : m.name.capitals = m.name := by cases m <;> decide

theorem Content.capitals_mnemonicField (c : Content) : (mnemonicField c.fields).capitals = mnemonicField c.fields := by
  cases c with
  | instruction m registers value => exact capitals_name m
  | data w => rfl

theorem Content.text_eq_plainStatement (c : Content) : c.text = plainStatement c.fields := by
  cases c with
  | instruction m registers value => rfl
  | data w =>
    have hword : (ascii ".WORD").capitals = ascii ".WORD" := by decide
    simp [Content.text, Content.fields, plainStatement, mnemonicField, operandFields, hword, join_singleton]
    rfl

theorem plainText_decimal (n : Nat) : PlainText (Text.decimal n) where
  ne_nil := decimal_ne_nil n
  plain := by
    have hdigits : ∀ d, d < 10 → isPlain (byte (Nat.digitChar d)) = true := by decide
    intro b hb
    obtain ⟨d, hd, rfl⟩ := mem_decimal hb
    exact hdigits d hd

theorem plainText_hexPadded (width n : Nat) : PlainText (Text.hexPadded width n) where
  ne_nil := hexPadded_ne_nil width n
  plain := by
    have hdigits : ∀ d, d < 16 → isPlain (byte (Nat.digitChar d).toUpper) = true := by decide
    intro b hb
    obtain ⟨d, hd, rfl⟩ := mem_hexPadded hb
    exact hdigits d hd

theorem PlainText.append {t u : Text} (ht : PlainText t) (hu : PlainText u) : PlainText (t ++ u) where
  ne_nil := by simp [ht.ne_nil]
  plain := by
    intro b hb
    rcases List.mem_append.1 hb with hb | hb
    · exact ht.plain b hb
    · exact hu.plain b hb

theorem plainText_hexMark : PlainText (ascii "0x") := plainText_of_all (by decide) (by decide)

theorem plainText_operandTexts (operands : List Operand) (registers : List Word) (v : Word) :
    ∀ t ∈ Content.operandTexts operands registers v, PlainText t := by
  have hR : PlainText [byte 'R'] := plainText_of_all (by decide) (by decide)
  induction operands generalizing registers with
  | nil => intro t ht; simp [Content.operandTexts] at ht
  | cons o operands ih =>
    intro t ht
    rw [Content.operandTexts] at ht
    split at ht
    · rcases List.mem_cons.1 ht with rfl | ht
      · exact hR.append (plainText_decimal _)
      · exact ih _ t ht
    · rcases List.mem_cons.1 ht with rfl | ht
      · exact plainText_decimal _
      · exact ih _ t ht
    · rcases List.mem_cons.1 ht with rfl | ht
      · exact plainText_hexMark.append (plainText_hexPadded 2 _)
      · exact ih _ t ht

theorem plainText_name (m : Mnemonic) : PlainText m.name := by
  cases m <;> exact plainText_of_all (by decide) (by decide)

/-- the fields of every statement are plain -/
theorem Content.plainText_fields (c : Content) : ∀ f ∈ c.fields, PlainText f := by
  intro f hf
  cases c with
  | instruction m registers value =>
    rcases List.mem_cons.1 hf with rfl | hf
    · exact plainText_name m
    · exact plainText_operandTexts _ _ _ f hf
  | data w =>
    rcases List.mem_cons.1 hf with rfl | hf
    · exact plainText_of_all (by decide) (by decide)
    · rw [List.mem_singleton.1 hf]
      exact plainText_hexMark.append (plainText_hexPadded 4 _)

theorem Content.fields_eq_cons (c : Content) : c.fields = mnemonicField c.fields :: operandFields c.fields := by
  cases c <;> rfl

/-- characters that neither stand in plain fields nor between them are not in a statement -/
theorem Content.not_mem_text (c : Content) {b : UInt8} (hplain : isPlain b = false) (hcomma : b ≠ byte ',')
    (hblank : b ≠ byte ' ') : b ∉ c.text := by
  intro hb
  rw [c.text_eq_plainStatement, c.fields_eq_cons] at hb
  rcases mem_plainStatement c.capitals_mnemonicField hb with rfl | rfl | ⟨f, hf, hb⟩
  · exact hcomma rfl
  · exact hblank rfl
  · rw [← c.fields_eq_cons] at hf
    simp [(c.plainText_fields f hf).plain b hb] at hplain

/-- the statement of a content is read as an instruction with its fields -/
theorem Content.tokenize_text (c : Content) : tokenize c.text = .instruction c.fields := by
  have hcolon : endsInColon c.text = false := by
    rw [endsInColon, beq_eq_false_iff_ne]
    exact fun hlast => c.not_mem_text (by decide) (by decide) (by decide) (List.mem_of_getLast? hlast)
  rw [c.text_eq_plainStatement, c.fields_eq_cons] at hcolon ⊢
  refine tokenize_plainStatement c.capitals_mnemonicField (fun f hf => ?_) hcolon
  rw [← c.fields_eq_cons] at hf
  exact (c.plainText_fields f hf).isField

theorem Content.dropReturn_text (c : Content) : dropReturn c.text = c.text :=
  dropReturn_eq_self (c.not_mem_text (by decide) (by decide) (by decide))

/-- the numbered lines of texts that were written one a line -/
theorem scan_flatMap {texts : List Text} (h : ∀ t ∈ texts, byte '\n' ∉ t) :
    scan (texts.flatMap fun t => t ++ ascii "\n") =
      (texts.zipIdx 1).map (fun (t, number) => Line.read number t) ++ [⟨texts.length + 1, [], .empty⟩] := by
  have hlast : ∀ number, Line.read number [] = ⟨number, [], .empty⟩ := fun _ => rfl
  rw [scan, textLines_flatMap h, List.zipIdx_append, List.map_append]
  simp [hlast, Nat.add_comm]

/-- the line of an entry -/
def Entry.line (e : Entry) (number : Nat) : Line := ⟨number, e.text, .instruction e.content.fields⟩

theorem Line.read_text (e : Entry) (number : Nat) : Line.read number e.text = e.line number := by
  rw [Line.read, Entry.line, Entry.text, e.content.dropReturn_text, e.content.tokenize_text]

/-- **The source of a disassembly is read as one instruction line for each entry**, and an empty line behind them -/
theorem scan_sourceOf (entries : List Entry) :
    scan (sourceOf entries) =
      (entries.zipIdx 1).map (fun (e, number) => e.line number) ++ [⟨entries.length + 1, [], .empty⟩] := by
  have hsolid : ∀ t ∈ entries.map Entry.text, byte '\n' ∉ t := by
    intro t ht
    obtain ⟨e, _, rfl⟩ := List.mem_map.1 ht
    exact e.content.not_mem_text (by decide) (by decide) (by decide)
  have hsource : sourceOf entries = (entries.map Entry.text).flatMap fun t => t ++ ascii "\n" := by
    rw [sourceOf, List.flatMap_map]
  rw [hsource, scan_flatMap hsolid, List.zipIdx_map, List.map_map, List.length_map]
  congr 1
  exact List.map_congr_left fun x _ => Line.read_text x.1 x.2

end TwoPass
