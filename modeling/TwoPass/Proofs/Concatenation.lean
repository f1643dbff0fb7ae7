/-
Images one behind the other. The disassembler looks one word ahead, so words that are put behind an image could change
how its end is read. They do so only where the image ends in the first word of an instruction of two.

- `Content.head_append`: words behind an image change what stands at its head only if that dangles
- `readEntries_append`, `readEntries_moved`: reading two images is reading the one and then the other, further on
- `images_concatenate`: which images can be followed by any other, and that programs are among them
-/
import Mathlib.Tactic
import TwoPass.Proofs.Partition

namespace TwoPass

/-! ## The end of an image -/

/-- an entry with other words in front of all -/
def Entry.movedBy (offset : Nat) (e : Entry) : Entry := ⟨e.address + offset, e.content⟩

/-- a word that the assembler writes in front of the value of an instruction -/
def LeadsValue (w : Word) : Prop := ∃ (m : Mnemonic) (registers : List Word), m.size = 2 ∧ w = m.encode registers

/-- a word of data that would be an instruction if a value were behind it -/
def Content.Dangles (c : Content) : Prop := ∃ w, c = .data w ∧ LeadsValue w

/-- an image whose last entry dangles -/
def EndsDangling (words : List Word) : Prop := ∃ e, (disassemble words).getLast? = some e ∧ e.content.Dangles

/-! ## Looking ahead -/

namespace Content

/-- a word that leads no value is read the same whatever is behind it -/
theorem head_of_not_leadsValue {w : Word} (h : ¬ LeadsValue w) (more : List Word) : head w more = head w [] := by
  unfold head
  cases hcanonical : canonical? w with
  | none => rfl
  | some found =>
    obtain ⟨m, registers⟩ := found
    obtain ⟨hw, _⟩ := canonical?_eq_some hcanonical
    have hsize : m.size = 1 := (m.size_eq_one_or_two).resolve_right fun htwo => h ⟨m, registers, htwo, hw⟩
    simp [hsize]

theorem dangles_of_leadsValue {w : Word} (h : LeadsValue w) : (head w []).Dangles := by
  refine ⟨w, head_eq_data ?_, h⟩
  obtain ⟨m, registers, hsize, rfl⟩ := h
  simp [head, canonical?_encode, hsize, mnemonic?]

/-- **There is one way to interfere.** Words behind an image change what stands at its head only if that is all of the
image, and dangles. -/
theorem head_append {w : Word} {rest : List Word} (h : rest = [] → ¬ (head w rest).Dangles) (more : List Word) :
    head w (rest ++ more) = head w rest := by
  cases rest with
  | nil => exact head_of_not_leadsValue (fun hleads => h rfl (dangles_of_leadsValue hleads)) more
  | cons v rest => rfl

theorem length_words_head_le (w : Word) (rest : List Word) : (head w rest).words.length - 1 ≤ rest.length := by
  obtain ⟨used, hwords, hused⟩ := head_words w rest
  rw [hwords, List.length_cons, Nat.add_sub_cancel]
  exact hused.length_le

end Content

/-! ## Reading two images -/

/-- reading goes on behind an image as if it began there, if the last entry of the image does not dangle -/
theorem readEntries_append {address used : Nat} {words : List Word} (hused : used ≤ words.length)
    (h : ∀ e ∈ (readEntries address used words []).getLast?, ¬ e.content.Dangles) (more : List Word) :
    readEntries address used (words ++ more) [] =
      readEntries address used words [] ++ readEntries (address + words.length) 0 more [] := by
  induction words generalizing address used with
  | nil =>
    obtain rfl : used = 0 := by simpa using hused
    rfl
  | cons w rest ih =>
    have hnext : address + (w :: rest).length = address + 1 + rest.length := by rw [List.length_cons]; omega
    -- a word that belongs to the entry before it is passed over in both images
    cases used with
    | succ used =>
      rw [List.cons_append, readEntries, readEntries, hnext]
      exact ih (by simpa using hused) h
    | zero =>
      rw [readEntries_cons, List.getLast?_cons] at h
      have hhead : Content.head w (rest ++ more) = Content.head w rest := by
        refine Content.head_append (fun hrest => ?_) more
        subst hrest
        exact h _ rfl
      have hbehind : ∀ e ∈ (readEntries (address + 1) ((Content.head w rest).words.length - 1) rest []).getLast?,
          ¬ e.content.Dangles := by
        intro e he
        rw [Option.mem_def.1 he] at h
        exact h e rfl
      rw [List.cons_append, readEntries_cons, readEntries_cons, hhead, List.cons_append, hnext]
      rw [ih (Content.length_words_head_le w rest) hbehind]

/-- where reading begins changes the addresses and nothing else -/
theorem readEntries_moved (offset address used : Nat) (words : List Word) :
    readEntries (address + offset) used words [] = (readEntries address used words []).map (Entry.movedBy offset) := by
  induction words generalizing address used with
  | nil => rfl
  | cons w rest ih =>
    have hnext : address + offset + 1 = address + 1 + offset := by omega
    cases used with
    | succ used => rw [readEntries, readEntries, hnext, ih]
    | zero =>
      rw [readEntries_cons, readEntries_cons, hnext, ih, List.map_cons]
      rfl

theorem disassemble_append {front : List Word} (h : ¬ EndsDangling front) (back : List Word) :
    disassemble (front ++ back) = disassemble front ++ (disassemble back).map (Entry.movedBy front.length) := by
  have hlast : ∀ e ∈ (readEntries 0 0 front []).getLast?, ¬ e.content.Dangles := by
    intro e he hdangles
    exact h ⟨e, he, hdangles⟩
  rw [disassemble, readEntries_append (Nat.zero_le _) hlast, readEntries_moved]
  rfl

/-! ## Images that cannot be followed by any other -/

/-- the last entry of an image ends where the image ends -/
theorem address_of_getLast? {words : List Word} {e : Entry} (h : (disassemble words).getLast? = some e) :
    e.address + e.words.length = words.length := by
  have hlast := h
  rw [List.getLast?_eq_getElem?] at hlast
  have haddress := address_disassemble hlast
  have hwords := words_disassemble words
  rw [eq_take_append_cons hlast, List.flatMap_append, List.flatMap_cons] at hwords
  have hbehind : (disassemble words).drop ((disassemble words).length - 1 + 1) = [] := by
    apply List.drop_eq_nil_of_le
    omega
  rw [← hwords, hbehind, List.length_append, haddress]
  simp

/-- a value behind an image that ends dangling makes its last word part of an instruction -/
theorem standsAt_append_value {front : List Word} {e : Entry} {m : Mnemonic} {registers : List Word} {v : Word}
    (hlast : (disassemble front).getLast? = some e) (hdata : e.content = .data (m.encode registers))
    (hv : v.toNat ≤ 0xFF) : StandsAt m (front ++ [v]) e.address := by
  have hwords : e.words = [m.encode registers] := by rw [Entry.words, hdata, Content.words]
  have hend := address_of_getLast? hlast
  rw [hwords, List.length_singleton] at hend
  have hword : front[e.address]? = some (m.encode registers) := by
    have hfits := fits_of_mem_disassemble (List.mem_of_getLast? hlast)
    obtain ⟨w, _, hat, hone, _⟩ := hfits.data (by rw [Entry.mnemonic?, hdata, Content.mnemonic?])
    rw [hat, ← List.singleton_inj.1 (hwords.symm.trans hone)]
  refine ⟨m.held registers, fun r hr => Mnemonic.lt_of_mem_fill hr, ?_, fun _ => ⟨v, ?_, hv⟩⟩
  · rw [List.getElem?_append_left (by omega), hword, Mnemonic.encode_held]
  · rw [hend, List.getElem?_concat_length]

theorem disassemble_append_value {front : List Word} (h : EndsDangling front) {v : Word} (hv : v.toNat ≤ 0xFF) :
    disassemble (front ++ [v]) ≠ disassemble front ++ (disassemble [v]).map (Entry.movedBy front.length) := by
  obtain ⟨e, hlast, _, hdata, m, registers, _, rfl⟩ := h
  intro hjoined
  -- the entry would still be there as data, and an instruction stands at its address now
  have hmem : e ∈ disassemble (front ++ [v]) := by
    rw [hjoined]
    exact List.mem_append_left _ (List.mem_of_getLast? hlast)
  have hsome := ((fits_of_mem_disassemble hmem).instruction m).2 (standsAt_append_value hlast hdata hv)
  rw [Entry.mnemonic?, hdata] at hsome
  cases hsome

/-! ## Images one behind the other -/

theorem not_endsDangling_of_assemble {source : Text} {p : Program} (h : assemble source = .ok p) :
    ¬ EndsDangling p.words := by
  rintro ⟨e, hlast, w, hdata, _⟩
  have hsome := isSome_mnemonic?_of_assemble h e (List.mem_of_getLast? hlast)
  rw [Entry.mnemonic?, hdata] at hsome
  cases hsome

/-- **Images concatenate.** The entries of two images, one behind the other, are those of the first and then those of
the second, moved on by the words of the first. This holds whatever the second image is, exactly if the first does not
end in a word of data that is the first word of an instruction of two. So it holds of every program. -/
theorem images_concatenate :
    (∀ front, ¬ EndsDangling front ↔ ∀ back,
      disassemble (front ++ back) = disassemble front ++ (disassemble back).map (Entry.movedBy front.length)) ∧
    ∀ source p, assemble source = .ok p → ∀ back,
      disassemble (p.words ++ back) = disassemble p.words ++ (disassemble back).map (Entry.movedBy p.words.length) := by
  refine ⟨fun front => ⟨fun h back => disassemble_append h back, fun h hdangling => ?_⟩, fun source p h back => ?_⟩
  · exact disassemble_append_value hdangling (v := 0) (by decide) (h [0])
  · exact disassemble_append (not_endsDangling_of_assemble h) back

/-- a loop that ends in a jump back can be followed by data; a load whose value is in the next image cannot -/
theorem images_concatenate_jump :
    (∃ p, assemble (ascii "top:\njnz r7, top\n") = .ok p ∧
      disassemble (p.words ++ [0x0100, 0xF000]) =
        [⟨0, .instruction .jnz [7] (some 0)⟩, ⟨2, .data 0x0100⟩, ⟨3, .instruction .halt [] none⟩]) ∧
    EndsDangling [0xF000, 0x5200] ∧
    ¬ ∀ back, disassemble ([0xF000, 0x5200] ++ back) =
      disassemble [0xF000, 0x5200] ++ (disassemble back).map (Entry.movedBy 2) := by
  obtain ⟨p, hp, hwords⟩ : ∃ p, assemble (ascii "top:\njnz r7, top\n") = .ok p ∧ p.words = [0x9E00, 0] :=
    ⟨_, rfl, by decide⟩
  have hdangling : EndsDangling [0xF000, 0x5200] :=
    ⟨⟨1, .data 0x5200⟩, by decide, 0x5200, rfl, .ldi, [1], by decide, by decide⟩
  refine ⟨⟨p, hp, ?_⟩, hdangling, fun h => (images_concatenate.1 [0xF000, 0x5200]).2 h hdangling⟩
  rw [images_concatenate.2 _ p hp, hwords]
  decide

end TwoPass
