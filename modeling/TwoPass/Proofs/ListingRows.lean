/-
The listing of a program beside its disassembly. The one is made from the source lines, with addresses looked up by line
number and words cut out by size, the other from the words alone; where line numbers differ they show the same columns.

- `getD_addresses`: the address under a line number is that of the source map
- `instructionRow_of_encode`: the row of an instruction line has the columns of the entry at the same place
- `listings_agree`: rows of the listing and of the disassembly, place by place
-/
import Mathlib.Tactic
import TwoPass.Assembly.Listing
import TwoPass.Proofs.Addresses
import TwoPass.Proofs.Alignment
import TwoPass.Proofs.Numerals

namespace TwoPass

/-! ## Columns -/

/-- the columns of the address and the words, with the blanks behind each -/
def rowColumns (address : Nat) (words : List Word) : Text :=
  addressColumn address ++ ascii "  " ++ wordsColumn words ++ ascii "  "

theorem instructionRow_eq (address : Nat) (words : List Word) (number : Int) (fields : List Text) :
    instructionRow address words number fields =
      rowColumns address words ++ (numberColumn number ++ ascii "      " ++ plainStatement fields ++ ascii "\n") := by
  simp [instructionRow, rowColumns]

theorem labelRow_eq (labels : LabelTable) (number : Int) (name : Text) :
    labelRow labels number name =
      rowColumns ((labels.address? name).getD 0) [] ++ (numberColumn number ++ ascii "  " ++ name ++ ascii ":\n") := by
  simp [labelRow, rowColumns]

theorem Entry.row_eq (entry : Entry) :
    entry.row = rowColumns entry.address entry.words ++ (entry.text ++ ascii "\n") := by
  simp [Entry.row, rowColumns]

/-- does a row have words: is there no blank where the words column begins, behind the address and two blanks -/
def hasWords (row : Text) : Bool := ((row.dropWhile (· != byte ' ')).drop 2).head? != some (byte ' ')

theorem head?_wordsColumn_cons (w : Word) (words : List Word) :
    ∃ b, (wordsColumn (w :: words)).head? = some b ∧ b ≠ byte ' ' := by
  obtain ⟨b, digits, hdigits⟩ := List.exists_cons_of_ne_nil (hexPadded_ne_nil 4 w.toNat)
  refine ⟨b, ?_, ?_⟩
  · have hcolumn : wordText w = b :: digits := hdigits
    cases words <;> simp [wordsColumn, Text.padRight, Text.join, hcolumn]
  · rintro rfl
    exact not_mem_hexPadded (by decide) 4 w.toNat (hdigits ▸ List.mem_cons_self)

/-- behind the address come two blanks and the words column -/
theorem dropWhile_rowColumns (address : Nat) (words : List Word) (rest : Text) :
    (rowColumns address words ++ rest).dropWhile (· != byte ' ') =
      byte ' ' :: byte ' ' :: (wordsColumn words ++ (ascii "  " ++ rest)) := by
  have hrow : rowColumns address words ++ rest =
      addressColumn address ++ byte ' ' :: byte ' ' :: (wordsColumn words ++ (ascii "  " ++ rest)) := by
    simp [rowColumns, ascii]
  have haddress : ∀ b ∈ addressColumn address, (b != byte ' ') = true := by
    intro b hb
    rw [bne_iff_ne]
    rintro rfl
    exact not_mem_hexPadded (by decide) 4 address hb
  rw [hrow, List.dropWhile_append_of_pos haddress]
  rfl

/-- the rows with words are told by the words column -/
theorem hasWords_rowColumns (address : Nat) (words : List Word) (rest : Text) :
    hasWords (rowColumns address words ++ rest) = !words.isEmpty := by
  rw [hasWords, dropWhile_rowColumns]
  cases words with
  | nil => rfl
  | cons w words =>
    obtain ⟨b, hb, hne⟩ := head?_wordsColumn_cons w words
    simp [List.head?_append, hb, hne]

/-! ## Rows of instructions -/

/-- the rows that a listing has for instruction lines -/
def Program.instructionRows (p : Program) : List Text :=
  (p.lines.filter fun line => line.instruction?.isSome).filterMap (row? p.labels p.addresses p.words.toArray)

/-- the row for an instruction on a line -/
def Program.instructionRow (p : Program) (line : Int × List Text) : Text :=
  let address := p.addresses.getD line.1 0
  let words := p.words.toArray.extract address (address + (Token.instruction line.2).size)
  TwoPass.instructionRow address words.toList line.1 line.2

theorem Program.instructionRows_eq_map (p : Program) :
    p.instructionRows = (p.lines.filterMap Line.instruction?).map p.instructionRow := by
  rw [instructionRows, List.filterMap_filter, List.map_filterMap]
  apply List.filterMap_congr
  intro line _
  obtain ⟨number, text, token⟩ := line
  cases token <;> rfl

theorem getD_addresses {p : Program} (hnumbers : (p.sourceMap.map Prod.snd).Nodup) {address : Nat} {number : Int}
    (h : (address, number) ∈ p.sourceMap) : p.addresses.getD number 0 = address := by
  rw [Program.addresses]
  apply Std.HashMap.getD_ofList_of_mem (k := number) (by simp)
  · rw [List.pairwise_map]
    rw [List.Nodup, List.pairwise_map] at hnumbers
    exact hnumbers.imp fun hne => by simpa using hne
  · exact List.mem_map.2 ⟨(address, number), h, rfl⟩

/-- the row of an instruction line has the address and the words of the entry at the same place -/
theorem instructionRow_of_encode {lines : List Line} {labels : LabelTable} {p : Program}
    (h : encode lines labels = .ok p) (hnumbers : ((lines.filterMap Line.instruction?).map Prod.fst).Nodup) {i : Nat}
    {number : Int} {fields : List Text} (hi : (lines.filterMap Line.instruction?)[i]? = some (number, fields)) :
    ∃ entry, (disassemble p.words)[i]? = some entry ∧
      p.instructionRow (number, fields) = instructionRow entry.address entry.words number fields := by
  obtain ⟨entry, hentry, hshows, hmap⟩ := entry_of_encode h hi
  rw [← numbers_sourceMap h] at hnumbers
  have haddress := getD_addresses hnumbers (List.mem_of_getElem? hmap)
  have hsize := hshows.length_words
  have hwords : (p.words.toArray.extract entry.address (entry.address + entry.words.length)).toList = entry.words := by
    simpa using words_at_entry hentry
  refine ⟨entry, hentry, ?_⟩
  simp only [Program.instructionRow, haddress, ← hsize, hwords]

/-- the rows of instruction lines are those that have words -/
theorem filter_listingRows_of_encode {lines : List Line} {labels : LabelTable} {p : Program}
    (h : encode lines labels = .ok p) (hnumbers : ((lines.filterMap Line.instruction?).map Prod.fst).Nodup) :
    p.listingRows.filter hasWords = p.instructionRows := by
  rw [Program.listingRows, Program.instructionRows, List.filter_filterMap, List.filterMap_filter, lines_of_encode h]
  apply List.filterMap_congr
  intro line hline
  obtain ⟨number, text, token⟩ := line
  cases token with
  | empty | unknown => rfl
  | label name =>
    have hblank : hasWords (labelRow p.labels number name) = false := by
      rw [labelRow_eq, hasWords_rowColumns]
      rfl
    exact Option.filter_some_neg (by rw [hblank])
  | instruction fields =>
    have hmem : (number, fields) ∈ lines.filterMap Line.instruction? := List.mem_filterMap.2 ⟨_, hline, rfl⟩
    obtain ⟨i, hi⟩ := List.mem_iff_getElem?.1 hmem
    obtain ⟨entry, _, hrow⟩ := instructionRow_of_encode h hnumbers hi
    have hfilled : hasWords (p.instructionRow (number, fields)) = true := by
      rw [hrow, instructionRow_eq, hasWords_rowColumns]
      simpa using entry.words_ne_nil
    exact Option.filter_some_pos hfilled

theorem nodup_numbers_scan (source : Text) :
    (((scan source).filterMap Line.instruction?).map Prod.fst).Nodup := by
  rw [List.Nodup, List.pairwise_map, List.pairwise_filterMap]
  refine (pairwise_scan source).imp fun {line line'} hlt => ?_
  intro x hx x' hx'
  rw [← (Line.instruction?_eq_some hx).1, ← (Line.instruction?_eq_some hx').1]
  exact hlt.ne

/-- **The two listings of a program agree.** The rows for instructions in the listing, which are the rows with words,
and the rows of the disassembly are as many, and the two at each place begin with the same columns. -/
theorem listings_agree (source : Text) (p : Program) (h : assemble source = .ok p) :
    p.listingRows.filter hasWords = p.instructionRows ∧
    p.instructionRows.length = (disassemblyRows (disassemble p.words)).length ∧
    ∀ (i : Nat) (row row' : Text), p.instructionRows[i]? = some row →
      (disassemblyRows (disassemble p.words))[i]? = some row' →
      ∃ (entry : Entry) (number : Int) (fields : List Text), (disassemble p.words)[i]? = some entry ∧
        ((scan source).filterMap Line.instruction?)[i]? = some (number, fields) ∧
        row = rowColumns entry.address entry.words ++
          (numberColumn number ++ ascii "      " ++ plainStatement fields ++ ascii "\n") ∧
        row' = rowColumns entry.address entry.words ++ (entry.text ++ ascii "\n") := by
  obtain ⟨labels, _, hencode⟩ := assemble_eq_ok_iff.1 h
  have hnumbers := nodup_numbers_scan source
  refine ⟨filter_listingRows_of_encode hencode hnumbers, ?_, ?_⟩
  · rw [Program.instructionRows_eq_map, disassemblyRows, List.length_map, List.length_map, lines_of_encode hencode,
      length_disassemble_of_encode hencode]
  · intro i row row' hrow hrow'
    rw [Program.instructionRows_eq_map, lines_of_encode hencode, List.getElem?_map] at hrow
    obtain ⟨⟨number, fields⟩, hline, rfl⟩ := Option.map_eq_some_iff.1 hrow
    obtain ⟨entry, hentry, hcolumns⟩ := instructionRow_of_encode hencode hnumbers hline
    rw [disassemblyRows, List.getElem?_map, hentry] at hrow'
    cases hrow'
    refine ⟨entry, number, fields, hentry, hline, ?_, entry.row_eq⟩
    rw [hcolumns, instructionRow_eq]

/-- a jump over a label -/
def jumpOverLabel : Text := ascii "jmp L\nL:\nhalt"

/-- the second rows are those of the last line, which the label does not count for -/
theorem listings_agree_jump :
    ∃ p, assemble jumpOverLabel = .ok p ∧ p.instructionRows.length = 2 ∧
      ∃ row row', p.instructionRows[1]? = some row ∧ (disassemblyRows (disassemble p.words))[1]? = some row' ∧
        ascii "0002  F000       " <+: row ∧ ascii "0002  F000       " <+: row' := by
  obtain ⟨p, hassemble, hwords⟩ : ∃ p, assemble jumpOverLabel = .ok p ∧ p.words = [0x8000, 2, 0xF000] :=
    ⟨_, rfl, by decide⟩
  obtain ⟨_, hlength, hrows⟩ := listings_agree jumpOverLabel p hassemble
  have htwo : p.instructionRows.length = 2 := by
    rw [hlength, hwords]
    decide
  have hat := List.getElem?_eq_getElem (l := p.instructionRows) (i := 1) (by omega)
  have hat' := List.getElem?_eq_getElem (l := disassemblyRows (disassemble p.words)) (i := 1) (by omega)
  obtain ⟨entry, number, fields, hentry, _, hrow, hrow'⟩ := hrows 1 _ _ hat hat'
  have hcolumns : rowColumns entry.address entry.words = ascii "0002  F000       " := by
    have hlast : (disassemble p.words)[1]? = some ⟨2, .instruction .halt [] none⟩ := by
      rw [hwords]
      decide
    obtain rfl := Option.some.inj (hentry.symm.trans hlast)
    decide
  refine ⟨p, hassemble, htwo, _, _, hat, hat', ?_, ?_⟩
  · rw [hrow, hcolumns]
    exact List.prefix_append _ _
  · rw [hrow', hcolumns]
    exact List.prefix_append _ _

end TwoPass
