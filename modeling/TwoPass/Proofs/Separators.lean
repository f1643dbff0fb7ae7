/-
Separators in a text. Trimming a text and cutting it into fields were defined on its runes. Here both are grammars over
the bytes: a separator is the encoding of a character, a field is any bytes in which no such encoding stands, and no
text is assumed to be well-formed.

- `isRun_iff`, `isSolid_iff`: runs of separators, and texts without separators, by their runes
- `trim_eq_iff`: what trimming leaves is the text between two runs of blanks, with no blank at its ends
- `fieldsBy_eq_iff`: the fields of a text are those between its runs of separators
-/
import Mathlib.Tactic
import TwoPass.Proofs.TextParts

namespace TwoPass

/-! ## Characters in a text -/

/-- encodings of characters that all pass a test, one behind the other -/
def IsRun (test : Nat → Bool) (t : Text) : Prop :=
  ∃ cs : List Char, t = cs.flatMap String.utf8EncodeChar ∧ ∀ c ∈ cs, test c.toNat = true

/-- a text in which no character that passes a test is encoded -/
def IsSolid (test : Nat → Bool) (t : Text) : Prop :=
  ∀ c : Char, test c.toNat = true → ¬ String.utf8EncodeChar c <:+: t

theorem runes_nil : runes [] = [] := rfl

theorem Encodes.isContinuation {n : Nat} {a : UInt8} {more : Text} (h : Encodes n (a :: more)) :
    isContinuation a = false := by
  rw [Bool.eq_false_iff, ne_eq, isContinuation_iff]
  cases h <;> omega

/-- an encoding begins with a byte that continues no character -/
theorem exists_start (c : Char) : ∃ a more, String.utf8EncodeChar c = a :: more ∧ isContinuation a = false := by
  have hencodes := encodes_utf8EncodeChar c
  obtain ⟨a, more, hbytes, _⟩ := hencodes.head []
  rw [hbytes] at hencodes
  exact ⟨a, more, hbytes, hencodes.isContinuation⟩

/-- **A character divides the runes of a text**, wherever it stands -/
theorem runes_append_char (t : Text) (c : Char) (u : Text) :
    runes (t ++ (String.utf8EncodeChar c ++ u)) = runes t ++ Rune.ofChar c :: runes u := by
  obtain ⟨a, more, hbytes, hstart⟩ := exists_start c
  rw [← runes_utf8EncodeChar_append, hbytes, List.cons_append, runes_append_start hstart]

theorem eq_ofChar_of_mem_runes {t : Text} {r : Rune} (h : r ∈ runes t) (hcode : r.code.isSome) :
    ∃ c, r = Rune.ofChar c := by
  obtain ⟨a, rest, rfl⟩ := mem_readRunes h
  obtain ⟨n, hn⟩ := Option.isSome_iff_exists.1 hcode
  exact Rune.head_eq_ofChar hn

/-- the characters that are encoded in a text are its runes -/
theorem ofChar_mem_runes_iff {t : Text} {c : Char} : Rune.ofChar c ∈ runes t ↔ String.utf8EncodeChar c <:+: t := by
  constructor
  · intro h
    obtain ⟨before, after, hsplit⟩ := List.append_of_mem h
    refine ⟨bytesOf before, bytesOf after, ?_⟩
    rw [← bytesOf_runes t, hsplit, bytesOf_append, bytesOf_cons, List.append_assoc]
    rfl
  · rintro ⟨before, after, rfl⟩
    rw [List.append_assoc, runes_append_char]
    simp

section
variable {test : Nat → Bool}

theorem isRun_iff {t : Text} : IsRun test t ↔ ∀ r ∈ runes t, r.satisfies test = true := by
  constructor
  · rintro ⟨cs, rfl, hcs⟩ r hr
    rw [runes_flatMap_utf8EncodeChar] at hr
    obtain ⟨c, hc, rfl⟩ := List.mem_map.1 hr
    exact hcs c hc
  · intro h
    obtain ⟨cs, hruns, rfl⟩ := exists_chars_of_runes fun r hr => code_of_satisfies (h r hr)
    refine ⟨cs, rfl, fun c hc => ?_⟩
    apply h (Rune.ofChar c)
    rw [hruns]
    exact List.mem_map_of_mem hc

theorem isSolid_iff {t : Text} : IsSolid test t ↔ ∀ r ∈ runes t, r.satisfies test = false := by
  constructor
  · intro h r hr
    rw [Bool.eq_false_iff]
    intro hsatisfies
    obtain ⟨c, rfl⟩ := eq_ofChar_of_mem_runes hr (code_of_satisfies hsatisfies)
    exact h c hsatisfies (ofChar_mem_runes_iff.1 hr)
  · intro h c hc hpart
    have hfalse : test c.toNat = false := h _ (ofChar_mem_runes_iff.2 hpart)
    rw [hc] at hfalse
    cases hfalse

theorem isRun_nil : IsRun test [] := ⟨[], rfl, by simp⟩

theorem IsRun.append {s s' : Text} (h : IsRun test s) (h' : IsRun test s') : IsRun test (s ++ s') := by
  obtain ⟨cs, rfl, hcs⟩ := h
  obtain ⟨cs', rfl, hcs'⟩ := h'
  refine ⟨cs ++ cs', List.flatMap_append.symm, fun c hc => ?_⟩
  rcases List.mem_append.1 hc with hc | hc
  · exact hcs c hc
  · exact hcs' c hc

/-- a run is read by itself, whatever follows -/
theorem IsRun.runes_append {s : Text} (h : IsRun test s) (u : Text) : runes (s ++ u) = runes s ++ runes u := by
  obtain ⟨cs, rfl, -⟩ := h
  induction cs with
  | nil => rfl
  | cons c cs ih =>
    rw [List.flatMap_cons, List.append_assoc, runes_utf8EncodeChar_append, runes_utf8EncodeChar_append, ih]
    rfl

/-- a text in front of a run is read by itself -/
theorem IsRun.runes_append_append {s : Text} (h : IsRun test s) (hne : s ≠ []) (t u : Text) :
    runes (t ++ (s ++ u)) = runes t ++ (runes s ++ runes u) := by
  rw [← h.runes_append]
  obtain ⟨cs, rfl, -⟩ := h
  cases cs with
  | nil => exact absurd rfl hne
  | cons c cs => rw [List.flatMap_cons, List.append_assoc, runes_append_char, runes_utf8EncodeChar_append]

theorem IsRun.runes_behind {s : Text} (h : IsRun test s) (t : Text) : runes (t ++ s) = runes t ++ runes s := by
  by_cases hne : s = []
  · rw [hne, List.append_nil]
    exact (List.append_nil _).symm
  · simpa [runes_nil] using h.runes_append_append hne t []

end

/-! ## Trimming -/

/-- a text with no blank at either end -/
def IsTrimmed (t : Text) : Prop :=
  ∀ c : Char, isBlank c.toNat = true → ¬ String.utf8EncodeChar c <+: t ∧ ¬ String.utf8EncodeChar c <:+ t

/-- a text is what another is without the blanks at its ends -/
def TrimsTo (t inner : Text) : Prop :=
  ∃ lead tail, t = lead ++ (inner ++ tail) ∧ IsRun isBlank lead ∧ IsRun isBlank tail ∧ IsTrimmed inner

theorem head?_runes_of_isTrimmed {t : Text} (h : IsTrimmed t) : ∀ r ∈ (runes t).head?, r.isBlank = false := by
  intro r hr
  rw [Bool.eq_false_iff]
  intro hblank
  obtain ⟨c, rfl⟩ := eq_ofChar_of_mem_runes (List.mem_of_mem_head? hr) (code_of_satisfies hblank)
  obtain ⟨rest, hrest⟩ := List.head?_eq_some_iff.1 hr
  refine (h c hblank).1 ⟨bytesOf rest, ?_⟩
  rw [← bytesOf_runes t, hrest, bytesOf_cons]
  rfl

theorem getLast?_runes_of_isTrimmed {t : Text} (h : IsTrimmed t) : ∀ r ∈ (runes t).getLast?, r.isBlank = false := by
  intro r hr
  rw [Bool.eq_false_iff]
  intro hblank
  obtain ⟨c, rfl⟩ := eq_ofChar_of_mem_runes (List.mem_of_mem_getLast? hr) (code_of_satisfies hblank)
  obtain ⟨front, hfront⟩ := List.getLast?_eq_some_iff.1 hr
  refine (h c hblank).2 ⟨bytesOf front, ?_⟩
  rw [← bytesOf_runes t, hfront, bytesOf_append, bytesOf_cons, bytesOf_nil, List.append_nil]
  rfl

theorem isTrimmed_trim (t : Text) : IsTrimmed (Text.trim t) := by
  intro c hc
  constructor
  · rintro ⟨rest, hrest⟩
    have hhead : Rune.ofChar c ∈ (runes (Text.trim t)).head? := by
      rw [← hrest, runes_utf8EncodeChar_append]
      rfl
    rw [runes_trim] at hhead
    exact Bool.false_ne_true ((head?_trimRunes _ _ hhead).symm.trans hc)
  · rintro ⟨front, hfront⟩
    have hlast : Rune.ofChar c ∈ (runes (Text.trim t)).getLast? := by
      have hdivided := runes_append_char front c []
      rw [List.append_nil, hfront] at hdivided
      rw [hdivided]
      simp [runes_nil]
    rw [runes_trim] at hlast
    exact Bool.false_ne_true ((getLast?_trimRunes _ _ hlast).symm.trans hc)

theorem trimRunes_append_blanks {ls ts : List Rune} (hls : ∀ r ∈ ls, r.isBlank = true)
    (hts : ∀ r ∈ ts, r.isBlank = true) (rs : List Rune) : trimRunes (ls ++ (rs ++ ts)) = trimRunes rs := by
  have htail : trimRunes (rs ++ ts) = trimRunes rs := by
    induction ts using List.reverseRecOn with
    | nil => rw [List.append_nil]
    | append_singleton ts r ih =>
      rw [← List.append_assoc, trimRunes_append_blank (hts r (by simp))]
      exact ih fun r' hr' => hts r' (List.mem_append_left _ hr')
  have hlead : trimFront (ls ++ (rs ++ ts)) = trimFront (rs ++ ts) := List.dropWhile_append_of_pos hls
  rw [← htail, trimRunes, trimRunes, hlead]

/-- the parts of a text that trimming divides it into -/
theorem exists_blanks (rs : List Rune) :
    ∃ ls ts, rs = ls ++ (trimRunes rs ++ ts) ∧ (∀ r ∈ ls, r.isBlank = true) ∧ ∀ r ∈ ts, r.isBlank = true := by
  have hback : trimFront rs = trimRunes rs ++ ((trimFront rs).reverse.takeWhile Rune.isBlank).reverse := by
    calc trimFront rs = (trimFront rs).reverse.reverse := (List.reverse_reverse _).symm
      _ = ((trimFront rs).reverse.takeWhile Rune.isBlank ++ trimFront (trimFront rs).reverse).reverse :=
        congrArg List.reverse List.takeWhile_append_dropWhile.symm
      _ = trimRunes rs ++ ((trimFront rs).reverse.takeWhile Rune.isBlank).reverse := List.reverse_append
  refine ⟨rs.takeWhile Rune.isBlank, ((trimFront rs).reverse.takeWhile Rune.isBlank).reverse, ?_, ?_, ?_⟩
  · rw [← hback]
    exact List.takeWhile_append_dropWhile.symm
  · exact fun r hr => List.mem_takeWhile_imp hr
  · exact fun r hr => List.mem_takeWhile_imp (List.mem_reverse.1 hr)

theorem trimsTo_trim (t : Text) : TrimsTo t (Text.trim t) := by
  obtain ⟨ls, ts, hrs, hls, hts⟩ := exists_blanks (runes t)
  have hlead := (runes_of_append hrs).1
  have htail := (runes_of_append (runes_of_append hrs).2).2
  refine ⟨bytesOf ls, bytesOf ts, ?_, ?_, ?_, isTrimmed_trim t⟩
  · conv_lhs => rw [← bytesOf_runes t, hrs, bytesOf_append, bytesOf_append]
    rfl
  · rw [isRun_iff, hlead]
    exact hls
  · rw [isRun_iff, htail]
    exact hts

/-- **What trimming leaves** is the text between two runs of blanks, if it has no blank at its ends -/
theorem trim_eq_iff {t inner : Text} : Text.trim t = inner ↔ TrimsTo t inner := by
  constructor
  · rintro rfl
    exact trimsTo_trim t
  · rintro ⟨lead, tail, rfl, hlead, htail, hinner⟩
    rw [Text.trim, hlead.runes_append, htail.runes_behind,
      trimRunes_append_blanks (isRun_iff.1 hlead) (isRun_iff.1 htail),
      trimRunes_eq_self (head?_runes_of_isTrimmed hinner) (getLast?_runes_of_isTrimmed hinner), bytesOf_runes]

/-! ## Fields -/

/-- fields, each with the run of separators behind it; only behind the last may that be empty -/
inductive FieldsAndGaps (test : Nat → Bool) : Text → List Text → Prop where
  | nil : FieldsAndGaps test [] []
  | last {field gap : Text} (hne : field ≠ []) (hsolid : IsSolid test field) (hgap : IsRun test gap) :
      FieldsAndGaps test (field ++ gap) [field]
  | cons {field gap rest : Text} {fields : List Text} (hne : field ≠ []) (hsolid : IsSolid test field)
      (hgap : IsRun test gap) (hgapNe : gap ≠ []) (hrest : FieldsAndGaps test rest fields) :
      FieldsAndGaps test (field ++ (gap ++ rest)) (field :: fields)

/-- a text with these fields, with separators between them and possibly at both ends -/
def Spaced (test : Nat → Bool) (t : Text) (fields : List Text) : Prop :=
  ∃ lead rest, t = lead ++ rest ∧ IsRun test lead ∧ FieldsAndGaps test rest fields

theorem fieldRunes_append_run {isSeparator : Rune → Bool} {rs : List Rune} (h : ∀ r ∈ rs, isSeparator r = true)
    (ss : List Rune) : fieldRunes isSeparator (rs ++ ss) = fieldRunes isSeparator ss := by
  induction rs with
  | nil => rfl
  | cons r rs ih =>
    rw [List.cons_append, fieldRunes_cons (h r List.mem_cons_self)]
    exact ih fun r' hr' => h r' (List.mem_cons_of_mem r hr')

/-- a field with a run behind it, which may be empty if nothing else follows -/
theorem fieldRunes_field_append {isSeparator : Rune → Bool} {fs rs ss : List Rune} (hne : fs ≠ [])
    (hsolid : ∀ r ∈ fs, isSeparator r = false) (hrs : ∀ r ∈ rs, isSeparator r = true) (hss : rs = [] → ss = []) :
    fieldRunes isSeparator (fs ++ (rs ++ ss)) = fs :: fieldRunes isSeparator ss := by
  cases rs with
  | nil =>
    rw [hss rfl, List.append_nil, List.append_nil, fieldRunes_eq_singleton hne hsolid]
    rfl
  | cons r rs =>
    have hrest := fieldRunes_append_run (fun r' hr' => hrs r' (List.mem_cons_of_mem r hr')) ss
    rw [List.cons_append, fieldRunes_append_cons (hrs r List.mem_cons_self), fieldRunes_eq_singleton hne hsolid, hrest]
    rfl

section
variable {test : Nat → Bool}

/-- fields are found again between their gaps -/
theorem FieldsAndGaps.fieldRunes_eq {t : Text} {fields : List Text} (h : FieldsAndGaps test t fields) :
    fieldRunes (Rune.satisfies test) (runes t) = fields.map runes := by
  have hne' : ∀ {field : Text}, field ≠ [] → runes field ≠ [] := fun hne hnil => hne (runes_eq_nil_iff.1 hnil)
  induction h with
  | nil => rfl
  | @last field gap hne hsolid hgap =>
    have hsplit : runes (field ++ gap) = runes field ++ (runes gap ++ []) := by rw [hgap.runes_behind, List.append_nil]
    rw [hsplit, fieldRunes_field_append (hne' hne) (isSolid_iff.1 hsolid) (isRun_iff.1 hgap) fun _ => rfl]
    rfl
  | @cons field gap rest fields hne hsolid hgap hgapNe hrest ih =>
    rw [hgap.runes_append_append hgapNe, fieldRunes_field_append (hne' hne) (isSolid_iff.1 hsolid) (isRun_iff.1 hgap)
      fun hnil => absurd hnil (hne' hgapNe), ih]
    rfl

theorem Spaced.fieldsBy_eq {t : Text} {fields : List Text} (h : Spaced test t fields) :
    Text.fieldsBy (Rune.satisfies test) t = fields := by
  obtain ⟨lead, rest, rfl, hlead, hrest⟩ := h
  rw [TwoPass.fieldsBy_eq, hlead.runes_append, fieldRunes_append_run (isRun_iff.1 hlead), hrest.fieldRunes_eq,
    List.map_map]
  exact (List.map_congr_left fun t _ => bytesOf_runes t).trans (List.map_id fields)

/-- a rune that is no separator can be put in front of a field, if it is read from the text that they begin -/
theorem isSolid_bytes_append {r : Rune} {field more : Text} (hr : r.satisfies test = false)
    (hread : runes (r.bytes ++ (field ++ more)) = r :: (runes field ++ runes more)) (h : IsSolid test field) :
    IsSolid test (r.bytes ++ field) := by
  have hsplit : runes (r.bytes ++ (field ++ more)) = (r :: runes field) ++ runes more := hread
  have hfield := (runes_of_append hsplit).1
  rw [bytesOf_cons, bytesOf_runes] at hfield
  rw [isSolid_iff, hfield]
  intro r' hr'
  rcases List.mem_cons.1 hr' with rfl | hr'
  · exact hr
  · exact isSolid_iff.1 h r' hr'

/-- a rune that is no separator lengthens the first field, or is a field of its own in front of a separator -/
theorem FieldsAndGaps.cons_solid {r : Rune} {lead rest : Text} {fields : List Text} (hr : r.satisfies test = false)
    (hread : runes (r.bytes ++ (lead ++ rest)) = r :: runes (lead ++ rest)) (hlead : IsRun test lead)
    (h : FieldsAndGaps test rest fields) : ∃ fields', FieldsAndGaps test (r.bytes ++ (lead ++ rest)) fields' := by
  have hone : runes r.bytes = [r] := by
    have hsplit : runes (r.bytes ++ (lead ++ rest)) = [r] ++ runes (lead ++ rest) := hread
    have hfirst := (runes_of_append hsplit).1
    rwa [bytesOf_cons, bytesOf_nil, List.append_nil] at hfirst
  have hne : r.bytes ≠ [] := by
    intro hnil
    rw [hnil] at hone
    cases hone
  have hsolid : IsSolid test r.bytes := by
    rw [isSolid_iff, hone]
    simpa using hr
  -- where no separator is between, the rune may not be cut off from the field: it is read with it or not at all
  by_cases hgap : lead = []
  · subst hgap
    rw [List.nil_append] at hread ⊢
    cases h with
    | nil => exact ⟨_, .last hne hsolid isRun_nil⟩
    | @last field gap hne' hsolid' hgap =>
      rw [hgap.runes_behind] at hread
      rw [← List.append_assoc]
      exact ⟨_, .last (by simp [hne']) (isSolid_bytes_append hr hread hsolid') hgap⟩
    | @cons field gap rest fields hne' hsolid' hgap hgapNe hrest =>
      rw [hgap.runes_append_append hgapNe, ← hgap.runes_append] at hread
      rw [← List.append_assoc]
      exact ⟨_, .cons (by simp [hne']) (isSolid_bytes_append hr hread hsolid') hgap hgapNe hrest⟩
  · exact ⟨_, .cons hne hsolid hlead hgap h⟩

/-- every text has fields and gaps -/
theorem exists_spaced_bytesOf (test : Nat → Bool) {rs : List Rune} (hread : runes (bytesOf rs) = rs) :
    ∃ fields, Spaced test (bytesOf rs) fields := by
  induction rs with
  | nil => exact ⟨[], [], [], rfl, isRun_nil, .nil⟩
  | cons r rs ih =>
    have hsplit : runes (bytesOf (r :: rs)) = [r] ++ rs := hread
    have hrest := (runes_of_append hsplit).2
    obtain ⟨fields, lead, rest, hrs, hlead, hfields⟩ := ih hrest
    rw [bytesOf_cons, hrs] at hread ⊢
    -- a separator lengthens the run in front; anything else lengthens the first field or begins one
    cases hr : r.satisfies test with
    | true =>
      obtain ⟨c, rfl⟩ := eq_ofChar_of_mem_runes (hread ▸ List.mem_cons_self) (code_of_satisfies hr)
      have hone : IsRun test (Rune.ofChar c).bytes :=
        ⟨[c], by simp [Rune.ofChar], fun c' hc' => List.mem_singleton.1 hc' ▸ hr⟩
      exact ⟨fields, _, rest, (List.append_assoc _ _ _).symm, hone.append hlead, hfields⟩
    | false =>
      rw [← hrest, hrs] at hread
      obtain ⟨fields', hfields'⟩ := hfields.cons_solid hr hread hlead
      exact ⟨fields', [], _, rfl, isRun_nil, hfields'⟩

/-- **The fields of a text are those between its runs of separators** -/
theorem fieldsBy_eq_iff {t : Text} {fields : List Text} :
    Text.fieldsBy (Rune.satisfies test) t = fields ↔ Spaced test t fields := by
  refine ⟨?_, Spaced.fieldsBy_eq⟩
  rintro rfl
  obtain ⟨fields, h⟩ := exists_spaced_bytesOf test (congrArg runes (bytesOf_runes t))
  rw [bytesOf_runes] at h
  rwa [h.fieldsBy_eq]

end

end TwoPass
