/-
Where references to labels lead. In a program without warnings the value word of a reference is the address of the
label, and that address is the beginning of an instruction or the end of the program.

- `values_eq_of_label`: an operand that names a label has the address of the label for its value
- `landsBetween_of_encode`: labels stand at the boundaries of instructions
- `branch_targets`: references land on the instruction behind the label, never inside one
-/
import Mathlib.Tactic
import TwoPass.Proofs.Addresses
import TwoPass.Proofs.Alignment

namespace TwoPass

/-! ## The value of a reference -/

theorem value_of_address? {labels : LabelTable} {token : Text} {address : Nat}
    (h : labels.address? token = some address) : value labels token = .ok address := by
  simp [value, h]

/-- an instruction has no value but the label that it refers to -/
theorem values_eq_of_label {labels : LabelTable} {fields : List Text} {m : Mnemonic} {arguments : List Argument}
    {name : Text} {address : Nat} (h : readInstruction labels fields = .ok (m, arguments))
    (hname : name ∈ valueTokens m (operandFields fields)) (haddress : labels.address? name = some address) :
    arguments.filterMap Argument.value? = [(address : Int)] := by
  have hmem : Except.ok (address : Int) ∈ (valueTokens m (operandFields fields)).map (value labels) := by
    rw [← value_of_address? haddress]; exact List.mem_map_of_mem hname
  rw [valueTokens_of_readInstruction h] at hmem
  obtain ⟨v, hv, hok⟩ := List.mem_map.1 hmem
  obtain rfl : v = address := by simpa using hok
  rcases values_of_readInstruction h with ⟨hvalues, -⟩ | ⟨v, hvalues, -⟩
  · simp [hvalues] at hv
  · simpa [hvalues, eq_comm] using hv

/-- a program has the warnings of its lines -/
theorem warnings_of_encode {before after : List Line} {line : Line} {labels : LabelTable} {p : Program}
    {fields : List Text} {e : Emission} (h : encode (before ++ line :: after) labels = .ok p)
    (htoken : line.token = .instruction fields) (he : emitInstruction labels line.number fields = .ok e) :
    ∀ warning ∈ e.warnings, warning ∈ p.warnings := by
  obtain ⟨emissions, hemit, rfl⟩ := encode_eq_ok_iff.1 h
  obtain ⟨first, more, _, hmore, rfl⟩ := emit_append_eq_ok hemit
  obtain ⟨e', rest, he', _, rfl⟩ := emit_cons_instruction htoken hmore
  obtain rfl : e = e' := by simpa [he] using he'
  intro warning hwarning
  simp only [List.flatMap_append, List.flatMap_cons, List.mem_append]
  exact Or.inr (Or.inl hwarning)

/-! ## Where it leads -/

/-- what stands at the address of a label declared between `above` and `below`: the entry of the first instruction line
below it, or the end of the program if there is none -/
def Program.LandsBetween (p : Program) (target : Nat) (above below : List Line) : Prop :=
  match firstInstruction? below with
  | some (number, fields) =>
    ∃ entry : Entry, (disassemble p.words)[(above.filterMap Line.instruction?).length]? = some entry ∧
      entry.address = target ∧ entry.Shows p.labels fields ∧ p.sourceMap.lookup target = some number
  | none => target = p.words.length

/-- the first instruction line below a label has its entry at the address of the label -/
theorem entry_below_label {above below : List Line} {declaration : Line} {name : Text} {labels : LabelTable}
    {p : Program} {number : Int} {fields : List Text} (h : encode (above ++ declaration :: below) labels = .ok p)
    (hlabel : declaration.token = .label name) (hnext : firstInstruction? below = some (number, fields)) :
    ∃ entry : Entry, (disassemble p.words)[(above.filterMap Line.instruction?).length]? = some entry ∧
      entry.address = linesSize above ∧ entry.Shows labels fields ∧
        p.sourceMap.lookup (linesSize above) = some number := by
  obtain ⟨skipped, line, rest, rfl, hskipped, hsize, rfl, hfields⟩ := firstInstruction?_eq_some hnext
  have hnone : declaration.instruction? = none := by simp [Line.instruction?, hlabel]
  have hline : line.instruction? = some (line.number, fields) := by simp [Line.instruction?, hfields]
  have hcount : (above ++ declaration :: skipped).filterMap Line.instruction? =
      above.filterMap Line.instruction? := by
    simp [hnone, hskipped]
  have hwords : linesSize (above ++ declaration :: skipped) = linesSize above := by
    simp [hsize, hlabel, Token.size]
  -- the lines between the declaration and the instruction have neither words nor entries
  have hsplit : above ++ declaration :: (skipped ++ line :: rest) =
      (above ++ declaration :: skipped) ++ line :: rest := by simp
  rw [hsplit] at h
  have hat : (((above ++ declaration :: skipped) ++ line :: rest).filterMap
      Line.instruction?)[(above.filterMap Line.instruction?).length]? = some (line.number, fields) := by
    rw [List.filterMap_append, hcount, List.filterMap_cons_some hline, List.getElem?_append_right le_rfl]
    simp
  obtain ⟨entry, hentry, hshows, hmap⟩ := entry_of_encode h hat
  have hplace := sourceMap_of_encode h hfields
  rw [hcount, hwords, hmap] at hplace
  simp only [Option.some.injEq, Prod.mk.injEq] at hplace
  have hlookup := (begins_of_encode h hfields).mapped
  rw [hwords] at hlookup
  exact ⟨entry, hentry, hplace.1, hshows, hlookup⟩

/-- labels stand at boundaries -/
theorem landsBetween_of_encode {above below : List Line} {declaration : Line} {name : Text} {labels : LabelTable}
    {p : Program} (h : encode (above ++ declaration :: below) labels = .ok p)
    (hlabel : declaration.token = .label name) :
    p.LandsBetween (linesSize above) above below ∧ Boundary p.words (linesSize above) := by
  unfold Program.LandsBetween
  cases hnext : firstInstruction? below with
  | some numbered =>
    obtain ⟨number, fields⟩ := numbered
    obtain ⟨entry, hentry, haddress, hshows, hlookup⟩ := entry_below_label h hlabel hnext
    refine ⟨⟨entry, hentry, haddress, labels_of_encode h ▸ hshows, hlookup⟩, ?_⟩
    rw [← haddress, address_disassemble hentry]
    exact boundary_take _ _
  | none =>
    have hend := continues_of_encode h hlabel
    simp only [Program.Continues, hnext] at hend
    have hboundary := boundary_take p.words (disassemble p.words).length
    rw [List.take_length, words_disassemble] at hboundary
    exact ⟨hend, hend ▸ hboundary⟩

/-- **Branch targets are right.** In a program that assembles without a warning, take any instruction line with a label
in its value slot. The value word emitted for the line is the address of the label. That address is where the entry of
the first instruction line below the declaration stands, or the end of the program, so the reference leads neither into
the middle of an instruction nor beyond the end. -/
theorem branch_targets (source : Text) (p : Program) (h : assemble source = .ok p) (hwarnings : p.warnings = [])
    (before after above below : List Line) (line declaration : Line) (fields : List Text) (m : Mnemonic) (name : Text)
    (hline : scan source = before ++ line :: after) (hfields : line.token = .instruction fields)
    (hm : Mnemonic.ofName? (mnemonicField fields) = some m) (hname : name ∈ valueTokens m (operandFields fields))
    (hdeclaration : scan source = above ++ declaration :: below) (hlabel : declaration.token = .label name) :
    ∃ (position target : Nat) (first word : Word),
      emitInstruction p.labels line.number fields = .ok ⟨line.number, [first, word], []⟩ ∧
      p.Begins position line.number fields ∧ p.words[position + 1]? = some word ∧
      p.labels.address? name = some target ∧ word.toNat = target ∧
      p.LandsBetween target above below ∧ Boundary p.words target := by
  obtain ⟨table, hlabels, hencode⟩ := assemble_eq_ok_iff.1 h
  obtain ⟨pass, hpass, rfl⟩ := labelsOf_eq_ok_iff.1 hlabels
  have haddress := address_of_labelPass (hdeclaration ▸ hpass) hlabel
  obtain ⟨hlands, hboundary⟩ := landsBetween_of_encode (hdeclaration ▸ hencode) hlabel
  rw [hline] at hencode
  have hbegins := begins_of_encode hencode hfields
  obtain ⟨e, he, -, hwords⟩ := hbegins.emitted
  rw [labels_of_encode hencode] at he ⊢
  -- a value that was cut down would have left a warning in the program
  have hquiet : e.warnings = [] := by
    have hsub := warnings_of_encode hencode hfields he
    rw [hwarnings] at hsub
    exact List.eq_nil_iff_forall_not_mem.2 fun warning hwarning => List.not_mem_nil (hsub warning hwarning)
  obtain ⟨m', arguments, hread, rfl⟩ := emitInstruction_eq_ok_iff.1 he
  obtain rfl : m = m' := by simpa [hm] using (readInstruction_eq_ok_iff.1 hread).1
  replace hquiet : arguments.filterMap (Argument.warning? line.number) = [] := hquiet
  have hvalues := values_eq_of_label hread hname haddress
  have hfits := warnings_eq_nil_iff.1 hquiet (linesSize above) (by rw [hvalues]; exact List.mem_singleton_self _)
  have hpair : argumentWords m arguments =
      [m.encode (arguments.filterMap Argument.register?), valueWord (linesSize above)] := by
    rw [argumentWords, filterMap_word?, hvalues]; rfl
  have htarget : (valueWord (linesSize above)).toNat = linesSize above := by
    have := toNat_valueWord (linesSize above)
    omega
  rw [hpair, hquiet] at he
  simp only [hpair] at hwords
  obtain ⟨rest, hrest⟩ := hwords
  have hword : p.words[linesSize before + 1]? = some (valueWord (linesSize above)) := by
    rw [← List.getElem?_drop, ← hrest]; rfl
  exact ⟨linesSize before, linesSize above, _, _, he, hbegins, hword, haddress, htarget, hlands, hboundary⟩

/-- a jump to a label below it, whose name is a numeral -/
def numberedLabel : Text := ascii "JMP 5\n5:\nHALT"

/-- the jump leads to the label and not to the number -/
theorem branch_targets_numbered :
    ∃ p, assemble numberedLabel = .ok p ∧ p.warnings = [] ∧ p.words[1]? = some 2 ∧
      p.labels.address? (ascii "5") = some 2 ∧ Boundary p.words 2 ∧
      ∃ entry : Entry, (disassemble p.words)[1]? = some entry ∧ entry.address = 2 ∧
        entry.Shows p.labels [ascii "HALT"] := by
  obtain ⟨p, hassemble, hwarnings, hword, hlabel⟩ : ∃ p, assemble numberedLabel = .ok p ∧ p.warnings = [] ∧
      p.words[1]? = some 2 ∧ p.labels.address? (ascii "5") = some 2 := ⟨_, rfl, by decide, by decide, by decide⟩
  have hscan : scan numberedLabel =
      [⟨1, ascii "JMP 5", .instruction [ascii "JMP", ascii "5"]⟩, ⟨2, ascii "5:", .label (ascii "5")⟩,
       ⟨3, ascii "HALT", .instruction [ascii "HALT"]⟩] := by decide
  obtain ⟨_, target, _, _, _, _, _, htarget, _, hlands, hboundary⟩ :=
    branch_targets numberedLabel p hassemble hwarnings [] _ [⟨1, ascii "JMP 5", .instruction [ascii "JMP", ascii "5"]⟩] _
      _ _ _ .jmp (ascii "5") hscan rfl (by decide) (by decide) hscan rfl
  obtain rfl : 2 = target := Option.some.inj (hlabel.symm.trans htarget)
  obtain ⟨entry, hentry, haddress, hshows, _⟩ := hlands
  exact ⟨p, hassemble, hwarnings, hword, hlabel, hboundary, entry, hentry, haddress, hshows⟩

end TwoPass
