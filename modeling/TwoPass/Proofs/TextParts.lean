/-
Parts of texts. Trimming and cutting into fields work on the runes of a text; a part that is taken out is a text again,
and its own runes are those that were taken, also where bytes form no characters.

- `Rune.head_of_prefix`: a rune is read from its own bytes, wherever the text is cut off behind them
- `runes_of_infix`: runes that stand side by side in a text are the runes of their bytes
- `runes_trim`, `trim_trim`: a trimmed text has nothing left to trim
- `trimRunes_append_cons`: what is not blank divides the trimming of a text
- `mem_fieldsBy`: a field is not empty, holds no separator and is part of the text
- `fieldsBy_append_solid`: a character that is no separator belongs to one field, the same whatever it is
-/
import Mathlib.Data.List.TakeWhile
import Mathlib.Tactic
import TwoPass.Proofs.Identifiers

namespace TwoPass

/-! ## Runes side by side -/

theorem runes_cons (b : UInt8) (rest : Text) :
    runes (b :: rest) = Rune.head b rest :: runes (rest.drop ((Rune.head b rest).bytes.length - 1)) := by
  rw [runes, readRunes_cons, readRunes_used]

namespace Rune

theorem ofCode?_eq_stray {code : Option Nat} {a : UInt8} {more : Text} (h : (ofCode? code a more).code = none) :
    ofCode? code a more = stray a := by
  cases code with
  | none => rfl
  | some n => cases h

/-- a rune without a code point is one stray byte -/
theorem head_eq_stray {b : UInt8} {rest : Text} (h : (head b rest).code = none) : head b rest = stray b := by
  revert h
  unfold head
  split_ifs
  · intro h
    cases h
  · exact fun _ => rfl
  · split
    · exact ofCode?_eq_stray
    · exact fun _ => rfl
  · split
    · exact ofCode?_eq_stray
    · exact fun _ => rfl
  · split
    · exact ofCode?_eq_stray
    · exact fun _ => rfl
  · exact fun _ => rfl

/-- a character stays what it is if more bytes follow -/
theorem head_append_of_code {b : UInt8} {front : Text} {n : Nat} (h : (head b front).code = some n) (more : Text) :
    head b (front ++ more) = head b front := by
  obtain ⟨used, hbytes, tail, rfl⟩ := head_bytes b front
  have hencodes := encodes_of_head h
  rw [hbytes] at hencodes
  obtain ⟨a, others, hcons, hhead⟩ := hencodes.head (tail ++ more)
  cases hcons
  rw [List.append_assoc, hhead, ← hbytes, ← h]

/-- the rune at the head of a text does not change if the text is cut off behind it -/
theorem head_of_prefix {b : UInt8} {front rest used : Text} (hfront : front <+: rest)
    (hbytes : (head b rest).bytes = b :: used) (hused : used <+: front) : head b front = head b rest := by
  obtain ⟨more, rfl⟩ := hfront
  cases hfrontCode : (head b front).code with
  | some n => exact (head_append_of_code hfrontCode more).symm
  | none =>
    cases hcode : (head b (front ++ more)).code with
    | none => rw [head_eq_stray hfrontCode, head_eq_stray hcode]
    | some n =>
      -- all bytes of the character are in front of the cut, so it is read there too
      obtain ⟨tail, rfl⟩ := hused
      have hencodes := encodes_of_head hcode
      rw [hbytes] at hencodes
      obtain ⟨a, others, hcons, hhead⟩ := hencodes.head tail
      cases hcons
      rw [hhead] at hfrontCode
      cases hfrontCode

end Rune

/-- both parts of the runes of a text are the runes of their bytes -/
theorem runes_of_append {t : Text} {rs ss : List Rune} (h : runes t = rs ++ ss) :
    runes (bytesOf rs) = rs ∧ runes (bytesOf ss) = ss := by
  induction rs generalizing t with
  | nil =>
    refine ⟨rfl, ?_⟩
    rw [List.nil_append] at h
    rw [← h, bytesOf_runes]
  | cons r rs ih =>
    cases t with
    | nil => cases h
    | cons b rest =>
      obtain ⟨used, hbytes, tail, rfl⟩ := Rune.head_bytes b rest
      rw [runes_cons, hbytes, List.length_cons, Nat.add_sub_cancel, List.drop_left, List.cons_append,
        List.cons.injEq] at h
      obtain ⟨rfl, htail⟩ := h
      obtain ⟨hrs, hss⟩ := ih htail
      have htext : tail = bytesOf rs ++ bytesOf ss := by rw [← bytesOf_append, ← htail, bytesOf_runes]
      have hhead : Rune.head b (used ++ bytesOf rs) = Rune.head b (used ++ tail) := by
        refine Rune.head_of_prefix ?_ hbytes (List.prefix_append used _)
        rw [htext]
        exact (List.prefix_append_right_inj used).2 (List.prefix_append _ _)
      refine ⟨?_, hss⟩
      rw [bytesOf_cons, hbytes, List.cons_append, runes_cons, hhead, hbytes, List.length_cons, Nat.add_sub_cancel,
        List.drop_left, hrs]

/-- **Runes that stand side by side in a text are the runes of their bytes** -/
theorem runes_of_infix {t : Text} {rs : List Rune} (h : rs <:+: runes t) : runes (bytesOf rs) = rs := by
  obtain ⟨before, after, h⟩ := h
  exact (runes_of_append (runes_of_append h.symm).1).2

/-- an ASCII byte of a text is one of its runes -/
theorem ofAscii_mem_runes {t : Text} {a : UInt8} (ha : a < 0x80) (h : a ∈ t) : Rune.ofAscii a ∈ runes t := by
  obtain ⟨before, after, rfl⟩ := List.append_of_mem h
  rw [runes_append_ascii ha]
  simp

theorem mem_of_mem_bytesOf {t : Text} {rs : List Rune} (h : rs <:+: runes t) {b : UInt8} (hb : b ∈ bytesOf rs) :
    b ∈ t := by
  obtain ⟨before, after, h⟩ := h
  rw [← bytesOf_runes t, ← h, bytesOf_append, bytesOf_append]
  exact List.mem_append_left _ (List.mem_append_right _ hb)

/-! ## Trimming -/

theorem isPrefix_trimRunes (rs : List Rune) : trimRunes rs <+: trimFront rs := by
  rw [trimRunes, ← List.reverse_suffix, List.reverse_reverse]
  exact List.dropWhile_suffix _

theorem isInfix_trimRunes (rs : List Rune) : trimRunes rs <:+: rs :=
  (isPrefix_trimRunes rs).isInfix.trans (List.dropWhile_suffix _).isInfix

theorem head?_trimFront (rs : List Rune) : ∀ r ∈ (trimFront rs).head?, r.isBlank = false := by
  intro r hr
  have hfirst := List.head?_dropWhile_not Rune.isBlank rs
  rw [← trimFront, hr] at hfirst
  exact hfirst

theorem head?_trimRunes (rs : List Rune) : ∀ r ∈ (trimRunes rs).head?, r.isBlank = false := by
  intro r hr
  obtain ⟨more, hmore⟩ := isPrefix_trimRunes rs
  refine head?_trimFront rs r ?_
  rw [← hmore, List.head?_append, Option.mem_def.1 hr]
  rfl

theorem getLast?_trimRunes (rs : List Rune) : ∀ r ∈ (trimRunes rs).getLast?, r.isBlank = false := by
  rw [trimRunes, List.getLast?_reverse]
  exact head?_trimFront _

theorem runes_trim (t : Text) : runes (Text.trim t) = trimRunes (runes t) := runes_of_infix (isInfix_trimRunes _)

/-- a trimmed text has nothing left to trim -/
theorem trim_trim (t : Text) : Text.trim (Text.trim t) = Text.trim t := by
  rw [Text.trim, runes_trim, trimRunes_eq_self (head?_trimRunes _) (getLast?_trimRunes _)]
  rfl

theorem mem_of_mem_trim {t : Text} {b : UInt8} (h : b ∈ Text.trim t) : b ∈ t :=
  mem_of_mem_bytesOf (isInfix_trimRunes _) h

/-- runes without the blank ones at the end -/
def trimBack (rs : List Rune) : List Rune := (trimFront rs.reverse).reverse

theorem trimFront_append_blank {r : Rune} (hr : r.isBlank = true) {rs : List Rune} :
    trimFront (rs ++ [r]) = if (trimFront rs).isEmpty then [] else trimFront rs ++ [r] := by
  rw [trimFront, List.dropWhile_append, List.dropWhile_cons_of_pos hr]
  rfl

theorem trimRunes_append_blank {r : Rune} (hr : r.isBlank = true) (rs : List Rune) :
    trimRunes (rs ++ [r]) = trimRunes rs := by
  rw [trimRunes, trimRunes, trimFront_append_blank hr]
  split_ifs with h
  · rw [List.isEmpty_iff.1 h]
  · rw [List.reverse_append, List.reverse_singleton, List.singleton_append, trimFront, List.dropWhile_cons_of_pos hr]
    rfl

theorem trimFront_append_cons {r : Rune} (hr : r.isBlank = false) (rs ss : List Rune) :
    trimFront (rs ++ r :: ss) = trimFront rs ++ r :: ss := by
  rw [trimFront, List.dropWhile_append, List.dropWhile_cons_of_neg (by simp [hr])]
  split_ifs with h
  · rw [← trimFront] at h
    rw [List.isEmpty_iff.1 h, List.nil_append]
  · rfl

/-- a rune that is not blank divides the trimming of a text -/
theorem trimRunes_append_cons {r : Rune} (hr : r.isBlank = false) (rs ss : List Rune) :
    trimRunes (rs ++ r :: ss) = trimFront rs ++ r :: trimBack ss := by
  rw [trimRunes, trimFront_append_cons hr, List.reverse_append, List.reverse_cons, List.append_assoc,
    List.singleton_append, trimFront_append_cons hr]
  simp [trimBack]

theorem trimRunes_eq_nil {rs : List Rune} (h : ∀ r ∈ rs, r.isBlank = true) : trimRunes rs = [] := by
  have hfront : trimFront rs = [] := List.dropWhile_eq_nil_iff.2 h
  rw [trimRunes, hfront]
  rfl

/-! ## Fields -/

/-- the pieces of a list: the first is where the list begins, all are parts of it, and no cut is in any -/
theorem pieces_eq_cons {α : Type} (cut : α → Bool) (l : List α) :
    ∃ first rest, pieces cut l = first :: rest ∧ first <+: l ∧ (∀ a ∈ first, cut a = false) ∧
      ∀ piece ∈ rest, piece <:+: l ∧ ∀ a ∈ piece, cut a = false := by
  induction l with
  | nil => exact ⟨[], [], rfl, List.nil_prefix, by simp, by simp⟩
  | cons a l ih =>
    obtain ⟨first, rest, hpieces, hfirst, hsolid, hrest⟩ := ih
    have hbehind : ∀ piece ∈ rest, piece <:+: a :: l ∧ ∀ b ∈ piece, cut b = false := fun piece hpiece =>
      ⟨(hrest piece hpiece).1.trans (List.suffix_cons a l).isInfix, (hrest piece hpiece).2⟩
    rw [pieces_cons, hpieces]
    cases ha : cut a with
    | true =>
      refine ⟨[], first :: rest, rfl, List.nil_prefix, by simp, fun piece hpiece => ?_⟩
      rcases List.mem_cons.1 hpiece with rfl | hpiece
      · exact ⟨hfirst.isInfix.trans (List.suffix_cons a l).isInfix, hsolid⟩
      · exact hbehind piece hpiece
    | false =>
      refine ⟨a :: first, rest, rfl, (List.prefix_cons_inj a).2 hfirst, fun b hb => ?_, hbehind⟩
      rcases List.mem_cons.1 hb with rfl | hb
      · exact ha
      · exact hsolid b hb

theorem mem_pieces {α : Type} {cut : α → Bool} {l piece : List α} (h : piece ∈ pieces cut l) :
    piece <:+: l ∧ ∀ a ∈ piece, cut a = false := by
  obtain ⟨first, rest, hpieces, hfirst, hsolid, hrest⟩ := pieces_eq_cons cut l
  rw [hpieces] at h
  rcases List.mem_cons.1 h with rfl | h
  · exact ⟨hfirst.isInfix, hsolid⟩
  · exact hrest piece h

/-- **A field is a part of the text, not empty and without separators** -/
theorem mem_fieldsBy {isSeparator : Rune → Bool} {t field : Text} (h : field ∈ Text.fieldsBy isSeparator t) :
    field ≠ [] ∧ (∀ r ∈ runes field, isSeparator r = false) ∧ ∀ b ∈ field, b ∈ t := by
  obtain ⟨piece, hpiece, rfl⟩ := List.mem_map.1 h
  obtain ⟨hmem, hne⟩ := List.mem_filter.1 hpiece
  obtain ⟨hpart, hsolid⟩ := mem_pieces hmem
  have hrunes := runes_of_infix hpart
  refine ⟨?_, ?_, fun b hb => mem_of_mem_bytesOf hpart hb⟩
  · intro hnil
    rw [hnil] at hrunes
    rw [← hrunes] at hne
    cases hne
  · rw [hrunes]
    exact hsolid

section
variable {isSeparator : Rune → Bool} (hblank : ∀ r : Rune, r.isBlank = true → isSeparator r = true)
include hblank

theorem fieldRunes_trimFront (rs : List Rune) : fieldRunes isSeparator (trimFront rs) = fieldRunes isSeparator rs := by
  induction rs with
  | nil => rfl
  | cons r rs ih =>
    cases hr : r.isBlank with
    | true =>
      rw [trimFront, List.dropWhile_cons_of_pos hr, fieldRunes_cons (hblank r hr)]
      exact ih
    | false => rw [trimFront_eq_self (by simpa using hr)]

theorem fieldRunes_trimRunes (rs : List Rune) : fieldRunes isSeparator (trimRunes rs) = fieldRunes isSeparator rs := by
  obtain ⟨back, hback⟩ : ∃ back : List Rune, trimFront rs = back.reverse := ⟨_, (List.reverse_reverse _).symm⟩
  rw [← fieldRunes_trimFront hblank rs, trimRunes, hback, List.reverse_reverse]
  clear hback
  induction back with
  | nil => rfl
  | cons r back ih =>
    cases hr : r.isBlank with
    | true =>
      have hlast := fieldRunes_append_cons (hblank r hr) back.reverse []
      rw [trimFront, List.dropWhile_cons_of_pos hr, List.reverse_cons, hlast]
      exact ih.trans (List.append_nil _).symm
    | false => rw [trimFront_eq_self (by simpa using hr)]

end

theorem Rune.separates_of_isBlank (r : Rune) (h : r.isBlank = true) : r.separates = true := by
  rw [separates, h, Bool.true_or]

theorem fieldsBy_trim (t : Text) : Text.fieldsBy Rune.separates (Text.trim t) = Text.fieldsBy Rune.separates t := by
  rw [fieldsBy_eq, fieldsBy_eq, runes_trim, fieldRunes_trimRunes Rune.separates_of_isBlank]

/-- an element that is no cut lengthens the last piece of what is before it by the first piece of what is behind it -/
theorem pieces_append_solid {α : Type} (cut : α → Bool) (l : List α) :
    ∃ before last, pieces cut l = before ++ [last] ∧ ∀ m after rest, pieces cut m = after :: rest →
      ∀ a, cut a = false → pieces cut (l ++ a :: m) = before ++ (last ++ a :: after) :: rest := by
  induction l with
  | nil =>
    refine ⟨[], [], rfl, fun m after rest hm a ha => ?_⟩
    rw [List.nil_append, pieces_cons, ha, hm]
    rfl
  | cons b l ih =>
    obtain ⟨before, last, hl, hsolid⟩ := ih
    cases hb : cut b with
    | true =>
      refine ⟨[] :: before, last, ?_, fun m after rest hm a ha => ?_⟩
      · rw [pieces_cons, hb, hl]
        rfl
      · rw [List.cons_append, pieces_cons, hb, hsolid m after rest hm a ha]
        rfl
    | false =>
      cases before with
      | nil =>
        refine ⟨[], b :: last, ?_, fun m after rest hm a ha => ?_⟩
        · rw [pieces_cons, hb, hl]
          rfl
        · rw [List.cons_append, pieces_cons, hb, hsolid m after rest hm a ha]
          rfl
      | cons first before =>
        refine ⟨(b :: first) :: before, last, ?_, fun m after rest hm a ha => ?_⟩
        · rw [pieces_cons, hb, hl]
          rfl
        · rw [List.cons_append, pieces_cons, hb, hsolid m after rest hm a ha]
          rfl

/-- **A character that is no separator belongs to one field.** The other fields, and the rest of its own, are the same
whatever the character is. -/
theorem fieldsBy_append_solid (isSeparator : Rune → Bool) (u v : Text) :
    ∃ done front more rest, ∀ c : UInt8, c < 0x80 → isSeparator (Rune.ofAscii c) = false →
      Text.fieldsBy isSeparator (u ++ [c]) = done ++ [front ++ [c]] ∧
      Text.fieldsBy isSeparator (u ++ c :: v) = done ++ (front ++ c :: more) :: rest := by
  obtain ⟨before, last, _, hsolid⟩ := pieces_append_solid isSeparator (runes u)
  obtain ⟨after, rest, hafter, _⟩ := pieces_eq_cons isSeparator (runes v)
  refine ⟨(before.filter fun piece => !piece.isEmpty).map bytesOf, bytesOf last, bytesOf after,
    (rest.filter fun piece => !piece.isEmpty).map bytesOf, fun c hc hsolidC => ⟨?_, ?_⟩⟩
  · rw [fieldsBy_eq, runes_append_ascii hc, fieldRunes, hsolid (runes []) [] [] rfl _ hsolidC]
    simp [Rune.ofAscii]
  · rw [fieldsBy_eq, runes_append_ascii hc, fieldRunes, hsolid _ _ _ hafter _ hsolidC]
    simp [Rune.ofAscii]

end TwoPass
