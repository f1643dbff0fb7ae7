/-
Programs behind other code. Lines without labels in front of a program move all of its labels on by the number of their
words; in its words nothing changes but the references to labels.

- `value_of_moved`: what a token stands for after the move
- `relocates_instruction`, `relocates_of_emit`: the words of one line, and those of all lines, before and after
- `relocation`: the labels and the words of a program behind lines without labels
-/
import Mathlib.Tactic
import TwoPass.Proofs.Correspondence
import TwoPass.Proofs.Truncation

namespace TwoPass

/-! ## Words before and after -/

/-- the word of a value operand where all labels are `k` words further on: the address of a label is put in anew, and the
word of a literal stays -/
def relocatedWord (table : LabelTable) (k : Nat) (token : Text) (w : Word) : Word :=
  match table.address? token with
  | some target => valueWord ((target + k : Nat) : Int)
  | none => w

/-- the words of some lines that begin at an address, before and after the move -/
structure Relocates (table : LabelTable) (k address : Nat) (operands : List ValueOperand) (words moved : List Word) :
    Prop where
  length : moved.length = words.length
  values : ∀ o ∈ operands, ∃ i w, o.place = address + i ∧ words[i]? = some w ∧
    moved[i]? = some (relocatedWord table k o.token w)
  others : ∀ i, (∀ o ∈ operands, o.place = address + i → table.address? o.token = none) → moved[i]? = words[i]?

theorem Relocates.refl (table : LabelTable) (k address : Nat) (words : List Word) :
    Relocates table k address [] words words := by
  constructor <;> simp

theorem Relocates.append {table : LabelTable} {k address : Nat} {operands more : List ValueOperand}
    {words moved behind movedBehind : List Word} (h : Relocates table k address operands words moved)
    (hmore : Relocates table k (address + words.length) more behind movedBehind) :
    Relocates table k address (operands ++ more) (words ++ behind) (moved ++ movedBehind) := by
  refine ⟨?_, ?_, ?_⟩
  · rw [List.length_append, List.length_append, h.length, hmore.length]
  · intro o ho
    rcases List.mem_append.1 ho with ho | ho
    · obtain ⟨i, w, hplace, hword, hmoved⟩ := h.values o ho
      obtain ⟨hi, _⟩ := List.getElem?_eq_some_iff.1 hword
      refine ⟨i, w, hplace, ?_, ?_⟩
      · rw [List.getElem?_append_left hi, hword]
      · rw [List.getElem?_append_left (h.length ▸ hi), hmoved]
    · obtain ⟨i, w, hplace, hword, hmoved⟩ := hmore.values o ho
      refine ⟨words.length + i, w, by rw [hplace, Nat.add_assoc], ?_, ?_⟩
      · rw [List.getElem?_append_right (Nat.le_add_right _ _), Nat.add_sub_cancel_left, hword]
      · rw [← h.length, List.getElem?_append_right (Nat.le_add_right _ _), Nat.add_sub_cancel_left, hmoved]
  · intro i hi
    rcases Nat.lt_or_ge i words.length with hlt | hge
    · rw [List.getElem?_append_left hlt, List.getElem?_append_left (h.length ▸ hlt)]
      exact h.others i fun o ho => hi o (List.mem_append_left more ho)
    · rw [List.getElem?_append_right hge, List.getElem?_append_right (h.length ▸ hge), h.length]
      refine hmore.others (i - words.length) fun o ho hplace => hi o (List.mem_append_right operands ho) ?_
      rw [hplace, Nat.add_assoc, Nat.add_sub_cancel' hge]

theorem Relocates.place_lt {table : LabelTable} {k address : Nat} {operands : List ValueOperand}
    {words moved : List Word} (h : Relocates table k address operands words moved) {o : ValueOperand}
    (ho : o ∈ operands) : o.place < address + words.length := by
  obtain ⟨i, w, hplace, hword, _⟩ := h.values o ho
  obtain ⟨hi, _⟩ := List.getElem?_eq_some_iff.1 hword
  omega

/-! ## Lines -/

section
variable {table table' : LabelTable} {k : Nat}
  (hmoved : ∀ name, table'.address? name = (table.address? name).map (· + k))
include hmoved

/-- a label stands for its address moved on, and a literal for the same number as before -/
theorem value_of_moved (token : Text) :
    value table' token = match table.address? token with
      | some target => .ok ((target + k : Nat) : Int)
      | none => value table token := by
  cases htarget : table.address? token with
  | some target => simp [value, hmoved, htarget]
  | none => simp [value, hmoved, htarget]

/-- the words of values, one behind the other from an address on -/
theorem relocates_values (line : Int) (slots : List (Operand × Text)) (address : Nat) (values values' : List Int)
    (h : (slots.map Prod.snd).map (value table) = values.map .ok)
    (h' : (slots.map Prod.snd).map (value table') = values'.map .ok) :
    Relocates table k address (placeOperands line address slots) (values.map valueWord) (values'.map valueWord) := by
  induction slots generalizing address values values' with
  | nil =>
    obtain rfl : values = [] := by simpa using h.symm
    obtain rfl : values' = [] := by simpa using h'.symm
    exact Relocates.refl table k address []
  | cons slot slots ih =>
    obtain ⟨o, token⟩ := slot
    obtain ⟨v, values, rfl⟩ : ∃ v rest, values = v :: rest := by
      cases values with
      | nil => simp at h
      | cons v rest => exact ⟨v, rest, rfl⟩
    obtain ⟨v', values', rfl⟩ : ∃ v rest, values' = v :: rest := by
      cases values' with
      | nil => simp at h'
      | cons v rest => exact ⟨v, rest, rfl⟩
    simp only [List.map_cons, List.cons.injEq] at h h'
    have hhead : Relocates table k address [⟨line, o, token, address⟩] [valueWord v] [valueWord v'] := by
      have hword : valueWord v' = relocatedWord table k token (valueWord v) := by
        have hvalue := value_of_moved hmoved token
        rw [h'.1, h.1] at hvalue
        unfold relocatedWord
        split at hvalue
        · cases hvalue
          rfl
        · cases hvalue
          rfl
      refine ⟨rfl, ?_, ?_⟩
      · intro operand hoperand
        obtain rfl := List.mem_singleton.1 hoperand
        exact ⟨0, valueWord v, rfl, rfl, congrArg some hword⟩
      · intro i hi
        cases i with
        | succ i => rfl
        | zero =>
          have hnone : table.address? token = none := hi _ List.mem_cons_self rfl
          rw [hword, relocatedWord, hnone]
    rw [placeOperands_cons]
    exact hhead.append (ih (address + 1) values values' h.2 h'.2)

/-- one instruction line: its registers and so its instruction word are the same under both tables -/
theorem relocates_instruction {line : Line} {fields : List Text} {e e' : Emission}
    (htoken : line.token = .instruction fields) (he : emitInstruction table line.number fields = .ok e)
    (he' : emitInstruction table' line.number fields = .ok e') (address : Nat) :
    Relocates table k address (line.valueOperands address) e.words e'.words := by
  obtain ⟨m, arguments, hread, rfl⟩ := emitInstruction_eq_ok_iff.1 he
  obtain ⟨m', arguments', hread', rfl⟩ := emitInstruction_eq_ok_iff.1 he'
  have hname := (readInstruction_eq_ok_iff.1 hread).1
  obtain rfl : m = m' := by simpa [hname] using (readInstruction_eq_ok_iff.1 hread').1
  have hregisters : arguments.filterMap Argument.register? = arguments'.filterMap Argument.register? := by
    have htokens := registerTokens_of_readInstruction hread
    rw [registerTokens_of_readInstruction hread'] at htokens
    exact ((Option.some_injective Word).list_map htokens).symm
  have hline : line.valueOperands address =
      placeOperands line.number (address + 1) (valueSlots m.operands (operandFields fields)) := by
    simp only [Line.valueOperands, htoken, hname]
  have hvalues := relocates_values hmoved line.number (valueSlots m.operands (operandFields fields)) (address + 1) _ _
    (valueTokens_of_readInstruction hread) (valueTokens_of_readInstruction hread')
  simp only [argumentWords, filterMap_word?, hregisters, hline]
  exact (Relocates.refl table k address [_]).append hvalues

/-- all lines from an address on -/
theorem relocates_of_emit {lines : List Line} {emissions emissions' : List Emission}
    (h : emit lines table = .ok emissions) (h' : emit lines table' = .ok emissions') (address : Nat) :
    Relocates table k address (valueOperands address lines) (wordsOf emissions) (wordsOf emissions') := by
  induction lines generalizing address emissions emissions' with
  | nil =>
    obtain rfl : emissions = [] := by simpa using emit_eq_ok_iff.1 h
    obtain rfl : emissions' = [] := by simpa using emit_eq_ok_iff.1 h'
    exact Relocates.refl table k address []
  | cons line lines ih =>
    obtain ⟨number, text, token⟩ := line
    cases token with
    | instruction fields =>
      obtain ⟨e, rest, he, hrest, rfl⟩ := emit_cons_instruction rfl h
      obtain ⟨e', rest', he', hrest', rfl⟩ := emit_cons_instruction rfl h'
      have hline := relocates_instruction hmoved rfl he he' address
      have hlines := ih hrest hrest' (address + e.words.length)
      rw [wordsOf_cons, wordsOf_cons, valueOperands, ← length_words_of_emitInstruction he]
      exact hline.append hlines
    | empty | label _ | unknown =>
      -- the line has no words, so the lines below it begin at the same address
      have hrest : emit lines table = .ok emissions := h
      have hrest' : emit lines table' = .ok emissions' := h'
      exact ih hrest hrest' address

end

/-! ## Instruction words -/

/-- the words of value operands stand behind an instruction word -/
theorem lt_place_of_mem_valueOperands {address : Nat} {lines : List Line} {o : ValueOperand}
    (h : o ∈ valueOperands address lines) : address < o.place := by
  induction lines generalizing address with
  | nil => exact absurd h List.not_mem_nil
  | cons line lines ih =>
    rcases List.mem_append.1 h with h | h
    · unfold Line.valueOperands at h
      split at h
      · split at h
        · obtain ⟨⟨slot, place⟩, hslot, rfl⟩ := List.mem_map.1 h
          exact List.le_snd_of_mem_zipIdx hslot
        · exact absurd h List.not_mem_nil
      · exact absurd h List.not_mem_nil
    · exact lt_of_le_of_lt (Nat.le_add_right _ _) (ih h)

/-- no value operand has its word where the source map has the instruction of a line -/
theorem place_ne_of_mem_placeFrom {lines : List Line} {labels : LabelTable} {emissions : List Emission}
    (h : emit lines labels = .ok emissions) {address : Nat} {o : ValueOperand} (ho : o ∈ valueOperands address lines)
    {entry : Nat × Int} (hentry : entry ∈ placeFrom address emissions []) : o.place ≠ entry.1 := by
  induction lines generalizing address emissions with
  | nil => exact absurd ho List.not_mem_nil
  | cons line lines ih =>
    obtain ⟨number, text, token⟩ := line
    cases token with
    | instruction fields =>
      obtain ⟨e, rest, he, hrest, rfl⟩ := emit_cons_instruction rfl h
      have hafter := lt_place_of_mem_valueOperands ho
      have hsize := length_words_of_emitInstruction he
      rw [placeFrom_cons, List.mem_cons] at hentry
      rcases hentry with rfl | hentry
      · exact hafter.ne'
      · rcases List.mem_append.1 ho with ho | ho
        · -- the word belongs to this line, the entry to a line below
          have hline := relocates_instruction (k := 0) (by simp) rfl he he address
          have hbefore := hline.place_lt ho
          have hbelow := le_of_mem_placeFrom hentry
          omega
        · rw [← hsize] at ho
          exact ih hrest ho hentry
    | empty | label _ | unknown =>
      have hrest : emit lines labels = .ok emissions := h
      exact ih hrest ho hentry

/-! ## Programs -/

/-- lines without labels in front move the labels of a program on by their words -/
theorem labelsOf_append {pre body : List Line} {table table' : LabelTable}
    (hpre : ∀ line ∈ pre, ∀ name, line.token ≠ .label name) (h : labelsOf body = .ok table)
    (h' : labelsOf (pre ++ body) = .ok table') : table' = table.moved id (linesSize pre) := by
  obtain ⟨pass, hpass, rfl⟩ := labelsOf_eq_ok_iff.1 h
  obtain ⟨pass', hpass', rfl⟩ := labelsOf_eq_ok_iff.1 h'
  have htokens : List.Forall₂ (fun line line' => Token.Corresponds id line.token line'.token) body body := by
    rw [List.forall₂_same]
    intro line _
    cases htoken : line.token with
    | label name => exact .label name
    | empty | instruction _ | unknown => exact .other (by simp) (by simp) rfl
  have hrun := (LabelPass.run_moved (Set.injOn_id Set.univ) (linesSize pre) (LabelTable.within_empty Set.univ)
    (fun _ _ _ _ => Set.mem_univ _) htokens hpass).1
  rw [labelPass, List.foldlM_append, LabelPass.run_of_no_label _ hpre] at hpass'
  have hpass'' : pass' = pass.moved id (linesSize pre) := Except.ok.inj (hpass'.symm.trans hrun)
  rw [hpass'']
  rfl

/-- what becomes of the words of a program whose labels are `k` words further on: the word of a reference is the new
address of the label modulo 256; instruction words, which hold the registers, and the words of literals stay, as does any
word that is no reference -/
structure Relocated (lines : List Line) (table : LabelTable) (p : Program) (k : Nat) (moved : List Word) : Prop where
  length : moved.length = p.words.length
  references : ∀ o ∈ valueOperands 0 lines, ∀ target, table.address? o.token = some target →
    ∃ w, moved[o.place]? = some w ∧ w.toNat = (target + k) % 256
  literals : ∀ o ∈ valueOperands 0 lines, table.address? o.token = none → moved[o.place]? = p.words[o.place]?
  instructions : ∀ entry ∈ p.sourceMap, moved[entry.1]? = p.words[entry.1]?
  others : ∀ i, (∀ o ∈ valueOperands 0 lines, o.place = i → table.address? o.token = none) → moved[i]? = p.words[i]?

theorem relocated_of_emit {lines : List Line} {table table' : LabelTable} {k : Nat} {p : Program}
    {emissions : List Emission} (hmoved : ∀ name, table'.address? name = (table.address? name).map (· + k))
    (h : encode lines table = .ok p) (h' : emit lines table' = .ok emissions) :
    Relocated lines table p k (wordsOf emissions) := by
  obtain ⟨before, hbefore, rfl⟩ := encode_eq_ok_iff.1 h
  have hwords := relocates_of_emit hmoved hbefore h' 0
  refine ⟨hwords.length, ?_, ?_, ?_, ?_⟩
  · intro o ho target htarget
    obtain ⟨i, w, hplace, _, hword⟩ := hwords.values o ho
    rw [Nat.zero_add] at hplace
    rw [relocatedWord, htarget] at hword
    refine ⟨valueWord ((target + k : Nat) : Int), hplace ▸ hword, ?_⟩
    have hvalue := toNat_valueWord ((target + k : Nat) : Int)
    omega
  · intro o ho hnone
    obtain ⟨i, w, hplace, hword, hword'⟩ := hwords.values o ho
    rw [Nat.zero_add] at hplace
    rw [relocatedWord, hnone, ← hword] at hword'
    exact hplace ▸ hword'
  · intro entry hentry
    refine hwords.others entry.1 fun o ho hplace => ?_
    exact absurd (hplace.trans (Nat.zero_add _)) (place_ne_of_mem_placeFrom hbefore ho hentry)
  · intro i hi
    exact hwords.others i fun o ho hplace => hi o ho (by rw [hplace, Nat.zero_add])

/-- **A program can be moved.** Let lines without labels stand in front of a program, and let `k` be the number of words
that they emit. Every label of the program is then `k` words further on, and no label is added or lost. Behind the first
`k` words stand the words of the program, with nothing changed in them but the references to labels. -/
theorem relocation (pre body : List Line) (table table' : LabelTable) (p p' : Program)
    (hpre : ∀ line ∈ pre, ∀ name, line.token ≠ .label name)
    (hlabels : labelsOf body = .ok table) (hencode : encode body table = .ok p)
    (hlabels' : labelsOf (pre ++ body) = .ok table') (hencode' : encode (pre ++ body) table' = .ok p') :
    ∃ (first : Program) (k : Nat), encode pre table' = .ok first ∧ first.words = p'.words.take k ∧
      first.words.length = k ∧ (∀ name, table'.address? name = (table.address? name).map (· + k)) ∧
      Relocated body table p k (p'.words.drop k) := by
  obtain ⟨both, hboth, rfl⟩ := encode_eq_ok_iff.1 hencode'
  obtain ⟨first, rest, hfirst, hrest, rfl⟩ := emit_append_eq_ok hboth
  have hlength := length_wordsOf_of_emit hfirst
  have hmoved : ∀ name, table'.address? name = (table.address? name).map (· + linesSize pre) := by
    intro name
    rw [labelsOf_append hpre hlabels hlabels']
    exact LabelTable.address?_moved (Set.injOn_id Set.univ) _ (fun _ _ => Set.mem_univ _) (Set.mem_univ name)
  refine ⟨_, linesSize pre, encode_eq_ok_iff.2 ⟨first, hfirst, rfl⟩, ?_, hlength, hmoved, ?_⟩
  · rw [wordsOf_append, List.take_left' hlength]
  · rw [wordsOf_append, List.drop_left' hlength]
    exact relocated_of_emit hmoved hencode hrest

/-- a loop to a label above, a literal, and a jump to a label at the end -/
def loopLines : List Line :=
  [⟨1, [], .label (ascii "loop")⟩, ⟨2, [], .instruction [ascii "JNZ", ascii "R1", ascii "loop"]⟩,
   ⟨3, [], .instruction [ascii "LDI", ascii "R2", ascii "7"]⟩, ⟨4, [], .instruction [ascii "JMP", ascii "end"]⟩,
   ⟨5, [], .label (ascii "end")⟩]

def loopLabels : LabelTable := ⟨[⟨ascii "end", 6⟩, ⟨ascii "loop", 0⟩]⟩

/-- many words to put in front of it -/
def idleLines : List Line := List.replicate 254 ⟨0, [], .instruction [ascii "NOP"]⟩

set_option maxRecDepth 4000 in
/-- the loop behind them: the label at the end is further on than a byte can say, and the jump to it wraps -/
theorem relocation_loop :
    ∃ p p', labelsOf loopLines = .ok loopLabels ∧ encode loopLines loopLabels = .ok p ∧
      labelsOf (idleLines ++ loopLines) = .ok (loopLabels.moved id 254) ∧
      encode (idleLines ++ loopLines) (loopLabels.moved id 254) = .ok p' ∧
      p.words = [0x9200, 0, 0x5400, 7, 0x8000, 6] ∧ Relocated loopLines loopLabels p 254 (p'.words.drop 254) ∧
      ∃ w, (p'.words.drop 254)[5]? = some w ∧ w.toNat = 4 := by
  have hidle : ∀ line ∈ idleLines, ∀ name, line.token ≠ .label name := by
    intro line hline name
    rw [List.eq_of_mem_replicate hline]
    exact Token.noConfusion
  have hlabels : labelsOf loopLines = .ok loopLabels := by rfl
  have hlabels' : labelsOf (idleLines ++ loopLines) = .ok (loopLabels.moved id 254) := by rfl
  obtain ⟨p, hencode, hwords⟩ : ∃ p, encode loopLines loopLabels = .ok p ∧
      p.words = [0x9200, 0, 0x5400, 7, 0x8000, 6] := ⟨_, rfl, by decide⟩
  obtain ⟨p', hencode'⟩ : ∃ p', encode (idleLines ++ loopLines) (loopLabels.moved id 254) = .ok p' := ⟨_, rfl⟩
  obtain ⟨first, k, _, _, _, haddress, hmoved⟩ :=
    relocation idleLines loopLines _ _ p p' hidle hlabels hencode hlabels' hencode'
  obtain rfl : 254 = k := by simpa using Option.some.inj (haddress (ascii "loop"))
  obtain ⟨w, hw, hwrapped⟩ := hmoved.references ⟨4, ⟨ascii "addr8", .address⟩, ascii "end", 5⟩ (by decide) 6 rfl
  exact ⟨p, p', hlabels, hencode, hlabels', hencode', hwords, hmoved, w, hw, hwrapped⟩

end TwoPass
