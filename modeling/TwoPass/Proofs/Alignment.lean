/-
The disassembler on the words of the assembler. A value word may look like any instruction, so what is read depends on
where reading begins: it stays on the boundaries of the instructions because each is read back with its own length.

- `readEntries_words_append`: an instruction at the head of some words is read whole, and reading goes on behind it
- `sound_of_mnemonic?`: every instruction that is read has the form in which the assembler writes it
- `disassembly_simulates`: the entries of an assembled program are its instruction lines, one for one and in order
-/
import Mathlib.Tactic
import TwoPass.Proofs.Emission

namespace TwoPass

/-! ## Instructions as the assembler writes them -/

/-- contents with a form in memory of their own: the register numbers fill the fields, and there is a byte for a value if
the instruction takes one -/
inductive Content.Sound : Content → Prop where
  | single {m : Mnemonic} {registers : List Word} (held : m.held registers = registers) (size : m.size = 1) :
      Content.Sound (.instruction m registers none)
  | double {m : Mnemonic} {registers : List Word} {v : Word} (held : m.held registers = registers) (size : m.size = 2)
      (fits : fitsByte v = true) : Content.Sound (.instruction m registers (some v))

/-- a sound content is what stands at the head of its words, whatever follows -/
theorem Content.Sound.head_words {c : Content} (h : c.Sound) (rest : List Word) :
    ∃ w more, c.words = w :: more ∧ Content.head w (more ++ rest) = c := by
  cases h with
  | single held size => exact ⟨_, [], rfl, by simp [Content.head, canonical?_encode, held, size]⟩
  | double held size fits =>
    exact ⟨_, [_], rfl, by simp [Content.head, canonical?_encode, held, size, fits]⟩

/-- an instruction that was found at the head of some words is sound -/
theorem Content.sound_of_mnemonic? (w : Word) (rest : List Word) (h : (Content.head w rest).mnemonic?.isSome) :
    (Content.head w rest).Sound := by
  unfold Content.head at h ⊢
  split
  · rename_i hw; simp [hw, Content.mnemonic?] at h
  · rename_i m registers hw
    obtain ⟨-, hheld⟩ := canonical?_eq_some hw
    simp only [hw] at h
    split_ifs at h ⊢ with hsize
    · exact .single hheld (by simpa using hsize)
    · have htwo : m.size = 2 := (m.size_eq_one_or_two).resolve_left (by simpa using hsize)
      cases rest with
      | nil => simp [Content.mnemonic?] at h
      | cons v rest =>
        simp only at h ⊢
        split_ifs at h ⊢ with hfits
        · exact .double hheld htwo hfits
        · simp [Content.mnemonic?] at h

/-! ## Reading on -/

theorem readEntries_eq_append (address used : Nat) (words : List Word) (done : List Entry) :
    readEntries address used words done = done.reverse ++ readEntries address used words [] := by
  induction words generalizing address used done with
  | nil => simp [readEntries]
  | cons w rest ih =>
    cases used with
    | succ used => rw [readEntries, readEntries, ih]
    | zero =>
      rw [readEntries, readEntries, ih, ih _ _ [_]]
      simp

/-- words that have been used are passed over -/
theorem readEntries_used (address used : Nat) (words : List Word) :
    readEntries address used words [] = readEntries (address + used) 0 (words.drop used) [] := by
  induction words generalizing address used with
  | nil => simp [readEntries]
  | cons w rest ih =>
    cases used with
    | zero => rfl
    | succ used =>
      rw [readEntries, ih, List.drop_succ_cons]
      congr 1
      omega

theorem readEntries_cons (address : Nat) (w : Word) (rest : List Word) :
    readEntries address 0 (w :: rest) [] =
      ⟨address, Content.head w rest⟩ ::
        readEntries (address + 1) ((Content.head w rest).words.length - 1) rest [] := by
  rw [readEntries, readEntries_eq_append]
  rfl

/-- an entry is what stands at the head of the words from its address on -/
theorem content_of_mem_readEntries {address used : Nat} {words : List Word} {entry : Entry}
    (h : entry ∈ readEntries address used words []) :
    ∃ w rest, address ≤ entry.address ∧ words.drop (entry.address - address) = w :: rest ∧
      entry.content = Content.head w rest := by
  induction words generalizing address used with
  | nil => simp [readEntries] at h
  | cons w rest ih =>
    have hbehind : ∀ used', entry ∈ readEntries (address + 1) used' rest [] → ∃ w' rest', address ≤ entry.address ∧
        (w :: rest).drop (entry.address - address) = w' :: rest' ∧ entry.content = Content.head w' rest' := by
      intro used' hmem
      obtain ⟨w', rest', hle, hdrop, hcontent⟩ := ih hmem
      have hstep : entry.address - address = entry.address - (address + 1) + 1 := by omega
      exact ⟨w', rest', by omega, by rw [hstep, List.drop_succ_cons, hdrop], hcontent⟩
    cases used with
    | succ used => exact hbehind used h
    | zero =>
      rw [readEntries_cons, List.mem_cons] at h
      rcases h with rfl | h
      · exact ⟨w, rest, le_rfl, by simp, rfl⟩
      · exact hbehind _ h

/-- a sound content is read whole, and reading goes on behind it -/
theorem readEntries_words_append {c : Content} (h : c.Sound) (address : Nat) (rest : List Word) :
    readEntries address 0 (c.words ++ rest) [] = ⟨address, c⟩ :: readEntries (address + c.words.length) 0 rest [] := by
  obtain ⟨w, more, hwords, hhead⟩ := h.head_words rest
  have hlen : c.words.length - 1 = more.length := by rw [hwords]; simp
  rw [hwords, List.cons_append, readEntries_cons, hhead, hlen, readEntries_used, List.drop_left, List.length_cons,
    Nat.add_assoc, Nat.add_comm 1]

/-! ## Boundaries -/

/-- an entry stands behind the words of the entries before it -/
theorem address_readEntries {address used i : Nat} {words : List Word} {entry : Entry}
    (h : (readEntries address used words [])[i]? = some entry) :
    entry.address = address + used + (((readEntries address used words []).take i).flatMap Entry.words).length := by
  induction words generalizing address used i with
  | nil => simp [readEntries] at h
  | cons w rest ih =>
    cases used with
    | succ used =>
      rw [readEntries] at h ⊢
      rw [ih h]
      omega
    | zero =>
      rw [readEntries_cons] at h ⊢
      -- the words that the first entry has used are counted in `used` for those behind it
      obtain ⟨more, hwords, -⟩ := Content.head_words w rest
      cases i with
      | zero =>
        obtain rfl : _ = entry := by simpa using h
        rfl
      | succ i =>
        rw [List.getElem?_cons_succ] at h
        rw [ih h, List.take_succ_cons, List.flatMap_cons, List.length_append, Entry.words, hwords]
        simp only [List.length_cons]
        omega

theorem address_disassemble {words : List Word} {i : Nat} {entry : Entry} (h : (disassemble words)[i]? = some entry) :
    entry.address = (((disassemble words).take i).flatMap Entry.words).length := by
  rw [address_readEntries h, disassemble, Nat.zero_add]

theorem words_disassemble (words : List Word) : (disassemble words).flatMap Entry.words = words := by
  rw [disassemble, words_readEntries]
  simp

/-- the words of an entry stand at its address -/
theorem words_at_entry {words : List Word} {i : Nat} {entry : Entry} (h : (disassemble words)[i]? = some entry) :
    (words.drop entry.address).take entry.words.length = entry.words := by
  obtain ⟨before, after, hwords, hlen⟩ : ∃ before after, before ++ (entry.words ++ after) = words ∧
      before.length = entry.address := by
    have hwords := words_disassemble words
    rw [eq_take_append_cons h, List.flatMap_append, List.flatMap_cons] at hwords
    exact ⟨_, _, hwords, (address_disassemble h).symm⟩
  rw [← hwords, ← hlen, List.drop_left, List.take_left]

theorem Entry.words_ne_nil (entry : Entry) : entry.words ≠ [] := by
  rw [Entry.words]
  cases entry.content with
  | instruction m registers value => exact List.cons_ne_nil _ _
  | data w => exact List.cons_ne_nil _ _

/-- an address is a boundary of a disassembly if no entry reaches across it -/
def Boundary (words : List Word) (address : Nat) : Prop :=
  address ≤ words.length ∧
    ∀ entry ∈ disassemble words, ¬(entry.address < address ∧ address < entry.address + entry.words.length)

/-- the words of the first entries of a disassembly end at a boundary -/
theorem boundary_take (words : List Word) (k : Nat) :
    Boundary words (((disassemble words).take k).flatMap Entry.words).length := by
  have hmono : ∀ i j, i ≤ j → (((disassemble words).take i).flatMap Entry.words).length ≤
      (((disassemble words).take j).flatMap Entry.words).length := by
    intro i j hij
    obtain ⟨d, rfl⟩ := Nat.exists_eq_add_of_le hij
    rw [List.take_add, List.flatMap_append, List.length_append]
    exact Nat.le_add_right _ _
  constructor
  · conv_rhs => rw [← words_disassemble words]
    conv_rhs => rw [← List.take_append_drop k (disassemble words), List.flatMap_append, List.length_append]
    exact Nat.le_add_right _ _
  · rintro entry hentry ⟨hbelow, habove⟩
    obtain ⟨j, hj⟩ := List.mem_iff_getElem?.1 hentry
    have haddress := address_disassemble hj
    have hend : (((disassemble words).take (j + 1)).flatMap Entry.words).length =
        entry.address + entry.words.length := by
      rw [List.take_add_one, hj, List.flatMap_append, List.length_append, haddress]
      simp
    -- an entry among the first ends before the address, any other begins behind it
    rcases Nat.lt_or_ge j k with hlt | hge
    · have := hmono (j + 1) k hlt
      omega
    · have := hmono k j hge
      omega

/-! ## Entries and lines -/

/-- the content of the words that an instruction with these arguments has -/
def contentOf (m : Mnemonic) (arguments : List Argument) : Content :=
  .instruction m (arguments.filterMap Argument.register?) (arguments.filterMap Argument.word?).head?

/-- an entry shows an instruction line: it has the mnemonic of the line, the registers of its register tokens, and the
value of its value token modulo 256 if there is one -/
def Entry.Shows (entry : Entry) (labels : LabelTable) (fields : List Text) : Prop :=
  ∃ (m : Mnemonic) (registers : List Word) (word? : Option Word), entry.content = .instruction m registers word? ∧
    Mnemonic.ofName? (mnemonicField fields) = some m ∧ (operandFields fields).length = m.operands.length ∧
    (registerTokens m (operandFields fields)).map register? = registers.map some ∧
    ∃ values : List Int, (valueTokens m (operandFields fields)).map (value labels) = values.map .ok ∧
      word?.toList.map (fun w => (w.toNat : Int)) = values.map (· % 256)

section
variable {labels : LabelTable} {fields : List Text} {m : Mnemonic} {arguments : List Argument}

/-- an instruction has at most one value -/
theorem toList_head?_word? (h : readInstruction labels fields = .ok (m, arguments)) :
    (arguments.filterMap Argument.word?).head?.toList = arguments.filterMap Argument.word? := by
  rw [filterMap_word?]
  rcases values_of_readInstruction h with ⟨hvalues, -⟩ | ⟨v, hvalues, -⟩
  · rw [hvalues]; rfl
  · rw [hvalues]; rfl

theorem words_contentOf (h : readInstruction labels fields = .ok (m, arguments)) :
    (contentOf m arguments).words = argumentWords m arguments := by
  rw [contentOf, Content.words, toList_head?_word? h, argumentWords]

theorem fitsByte_valueWord (v : Int) : fitsByte (valueWord v) = true := by
  have hword := toNat_valueWord v
  have hlt : v % 256 < 256 := Int.emod_lt_of_pos v (by decide)
  have hle : (valueWord v).toNat ≤ 255 := by omega
  simpa [fitsByte] using UInt16.le_iff_toNat_le.2 hle

theorem sound_contentOf (h : readInstruction labels fields = .ok (m, arguments)) : (contentOf m arguments).Sound := by
  have hheld := held_of_readInstruction h
  rw [contentOf, filterMap_word?]
  rcases values_of_readInstruction h with ⟨hvalues, hsize⟩ | ⟨v, hvalues, hsize⟩
  · rw [hvalues]
    exact .single hheld hsize
  · rw [hvalues]
    exact .double hheld hsize (fitsByte_valueWord v)

theorem shows_contentOf (h : readInstruction labels fields = .ok (m, arguments)) (address : Nat) :
    Entry.Shows ⟨address, contentOf m arguments⟩ labels fields := by
  obtain ⟨hname, hcount, -⟩ := readInstruction_eq_ok_iff.1 h
  refine ⟨m, _, _, rfl, hname, hcount, registerTokens_of_readInstruction h, _, valueTokens_of_readInstruction h, ?_⟩
  rw [toList_head?_word? h, filterMap_word?, List.map_map]
  exact List.map_congr_left fun v _ => toNat_valueWord v

end

/-- the entries of emitted words, read from an address on: the run of the disassembler stays level with the run of the
second pass -/
theorem readEntries_wordsOf {labels : LabelTable} {lines : List (Int × List Text)} {emissions : List Emission}
    (h : List.Forall₂ (fun line e => emitInstruction labels line.1 line.2 = .ok e) lines emissions) (address : Nat) :
    List.Forall₂ (fun line entry => Entry.Shows entry labels line.2) lines
        (readEntries address 0 (wordsOf emissions) []) ∧
      placeFrom address emissions [] =
        List.zipWith (fun line entry => (entry.address, line.1)) lines
          (readEntries address 0 (wordsOf emissions) []) := by
  induction h generalizing address with
  | nil => exact ⟨.nil, rfl⟩
  | @cons line e lines emissions he _ ih =>
    obtain ⟨m, arguments, hread, rfl⟩ := emitInstruction_eq_ok_iff.1 he
    have hwords := words_contentOf hread
    -- the words of the line are those of a sound content, so the next entry begins where the next line does
    have hentries := readEntries_words_append (sound_contentOf hread) address (wordsOf emissions)
    rw [hwords] at hentries
    obtain ⟨hshows, hplaced⟩ := ih (address + (argumentWords m arguments).length)
    rw [wordsOf_cons, hentries, placeFrom_cons, hplaced]
    exact ⟨.cons (shows_contentOf hread address) hshows, rfl⟩

/-- a program has an entry for each instruction line and no other -/
theorem length_disassemble_of_encode {lines : List Line} {labels : LabelTable} {p : Program}
    (h : encode lines labels = .ok p) :
    (disassemble p.words).length = (lines.filterMap Line.instruction?).length := by
  obtain ⟨emissions, hemit, rfl⟩ := encode_eq_ok_iff.1 h
  exact (readEntries_wordsOf (emit_eq_ok_iff.1 hemit) 0).1.length_eq.symm

/-- the entry of an instruction line stands at the same place as the line, and the source map has both there -/
theorem entry_of_encode {lines : List Line} {labels : LabelTable} {p : Program} (h : encode lines labels = .ok p)
    {i : Nat} {number : Int} {fields : List Text}
    (hi : (lines.filterMap Line.instruction?)[i]? = some (number, fields)) :
    ∃ entry, (disassemble p.words)[i]? = some entry ∧ entry.Shows labels fields ∧
      p.sourceMap[i]? = some (entry.address, number) := by
  have hlen := length_disassemble_of_encode h
  obtain ⟨hlt, hget⟩ := List.getElem?_eq_some_iff.1 hi
  obtain ⟨emissions, hemit, rfl⟩ := encode_eq_ok_iff.1 h
  obtain ⟨hshows, hplaced⟩ := readEntries_wordsOf (emit_eq_ok_iff.1 hemit) 0
  have hentry := List.getElem?_eq_getElem (hlen ▸ hlt)
  have hshow := (List.forall₂_iff_get.1 hshows).2 i hlt (hlen ▸ hlt)
  simp only [List.get_eq_getElem, hget] at hshow
  refine ⟨_, hentry, hshow, ?_⟩
  rw [sourceMapOf, hplaced, List.getElem?_zipWith, hi, ← disassemble, hentry]

/-- an entry has as many words as the line that it shows -/
theorem Entry.Shows.length_words {entry : Entry} {labels : LabelTable} {fields : List Text}
    (h : entry.Shows labels fields) : entry.words.length = (Token.instruction fields).size := by
  obtain ⟨m, registers, word?, hcontent, hname, hcount, _, values, hvalues, hwords⟩ := h
  have htokens := congrArg List.length hvalues
  have hword := congrArg List.length hwords
  rw [List.length_map, List.length_map] at htokens hword
  rw [Entry.words, hcontent, Content.words, Token.size, hname, List.length_cons, hword, ← htokens]
  exact length_valueTokens m _ hcount

theorem Entry.Shows.isSome_mnemonic? {entry : Entry} {labels : LabelTable} {fields : List Text}
    (h : entry.Shows labels fields) : entry.mnemonic?.isSome := by
  obtain ⟨m, registers, word?, hcontent, -⟩ := h
  simp [Entry.mnemonic?, hcontent, Content.mnemonic?]

/-- **The disassembly of a program simulates its source.** Its entries are instructions, as many as there are instruction
lines. The entry at each place shows the line at that place, and the source map has its address, the keys ascending,
with the number of the line. -/
theorem disassembly_simulates (lines : List Line) (labels : LabelTable) (p : Program)
    (h : encode lines labels = .ok p) :
    (disassemble p.words).length = (lines.filterMap Line.instruction?).length ∧
    p.sourceMap.length = (lines.filterMap Line.instruction?).length ∧
    p.sourceMap.Pairwise (fun a b => a.1 < b.1) ∧
    ∀ (i : Nat) (number : Int) (fields : List Text), (lines.filterMap Line.instruction?)[i]? = some (number, fields) →
      ∃ entry : Entry, (disassemble p.words)[i]? = some entry ∧ entry.mnemonic?.isSome ∧ entry.Shows labels fields ∧
        p.sourceMap[i]? = some (entry.address, number) ∧ p.sourceMap.lookup entry.address = some number := by
  refine ⟨length_disassemble_of_encode h, length_sourceMap_of_encode h, pairwise_sourceMap h, ?_⟩
  intro i number fields hi
  obtain ⟨entry, hentry, hshows, hmap⟩ := entry_of_encode h hi
  have hlookup := lookup_of_mem (pairwise_sourceMap h) (List.mem_of_getElem? hmap)
  exact ⟨entry, hentry, hshows.isSome_mnemonic?, hshows, hmap, hlookup⟩

/-- three instructions whose value words, two of them zero, could be instructions as well -/
def storeLines : List Line :=
  [⟨4, [], .instruction [ascii "ldi", ascii "R3", ascii "0"]⟩, ⟨4, [], .empty⟩,
   ⟨-1, [], .instruction [ascii "ST", ascii "r5", ascii "256"]⟩,
   ⟨9, [], .instruction [ascii "jnz", ascii "R7", ascii "there"]⟩]

/-- the value words are not taken for instructions -/
theorem disassembly_simulates_store :
    ∃ p, encode storeLines ⟨[⟨ascii "there", 511⟩]⟩ = .ok p ∧ p.words = [0x5600, 0, 0x7140, 0, 0x9E00, 255] ∧
      (disassemble p.words).length = 3 ∧
      ∃ entry : Entry, (disassemble p.words)[2]? = some entry ∧
        entry.Shows ⟨[⟨ascii "there", 511⟩]⟩ [ascii "jnz", ascii "R7", ascii "there"] ∧
        p.sourceMap[2]? = some (entry.address, 9) := by
  obtain ⟨p, hencode, hwords⟩ : ∃ p, encode storeLines ⟨[⟨ascii "there", 511⟩]⟩ = .ok p ∧
      p.words = [0x5600, 0, 0x7140, 0, 0x9E00, 255] := ⟨_, rfl, by decide⟩
  obtain ⟨hlen, _, _, hentries⟩ := disassembly_simulates storeLines _ p hencode
  obtain ⟨entry, hentry, _, hshows, hmap, _⟩ := hentries 2 9 _ rfl
  exact ⟨p, hencode, hwords, hlen, entry, hentry, hshows, hmap⟩

end TwoPass
