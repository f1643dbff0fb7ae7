/-
Values that do not fit. Every value operand of a program has its word in memory, which holds the value modulo 256; a
value outside 0..255 is reported by a warning, and no other value is.

- `valueOperands`: the value operands of a list of lines, and the places of their words
- `resolved_of_emit`: what the second pass makes of the value operands of some lines, by induction over the lines
- `truncation_reported`: warnings and value words of a program
-/
import Mathlib.Tactic
import TwoPass.Proofs.Emission
import TwoPass.Proofs.Literals

namespace TwoPass

/-! ## Value operands -/

/-- a value operand: where it is written, and the place of its word -/
structure ValueOperand where
  line : Int
  slot : Operand
  token : Text
  place : Nat
deriving DecidableEq, Repr

/-- the slots of an instruction that take a value, with their tokens -/
def valueSlots (operands : List Operand) (tokens : List Text) : List (Operand × Text) :=
  (operands.zip tokens).filter fun s => !s.1.isRegister

/-- value operands with their words one behind the other, from a place on -/
def placeOperands (line : Int) (place : Nat) (slots : List (Operand × Text)) : List ValueOperand :=
  (slots.zipIdx place).map fun s => ⟨line, s.1.1, s.1.2, s.2⟩

/-- the value operands of a line that begins at an address; their words follow that of the instruction -/
def Line.valueOperands (address : Nat) (line : Line) : List ValueOperand :=
  match line.token with
  | .instruction fields =>
    match Mnemonic.ofName? (mnemonicField fields) with
    | some m => placeOperands line.number (address + 1) (valueSlots m.operands (operandFields fields))
    | none => []
  | _ => []

def valueOperands : Nat → List Line → List ValueOperand
  | _, [] => []
  | address, line :: lines => line.valueOperands address ++ valueOperands (address + line.token.size) lines

theorem placeOperands_cons (line : Int) (place : Nat) (o : Operand) (t : Text) (slots : List (Operand × Text)) :
    placeOperands line place ((o, t) :: slots) = ⟨line, o, t, place⟩ :: placeOperands line (place + 1) slots := by
  simp [placeOperands, List.zipIdx_cons]

theorem valueSlots_cons (o : Operand) (operands : List Operand) (t : Text) (tokens : List Text) :
    valueSlots (o :: operands) (t :: tokens) =
      if o.isRegister then valueSlots operands tokens else (o, t) :: valueSlots operands tokens := by
  cases ho : o.isRegister with
  | true => simp [valueSlots, ho]
  | false => simp [valueSlots, ho]

/-! ## What becomes of them -/

/-- the warning for a value in an operand, if it does not fit -/
def ValueOperand.warning? (o : ValueOperand) (v : Int) : Option Warning :=
  (Argument.value o.slot.role v).warning? o.line

/-- value operands with their values, as the second pass found them: the words in memory, and the warnings met -/
structure Resolved (labels : LabelTable) (operands : List ValueOperand) (words : List Word) (warnings : List Warning)
    (resolved : List (ValueOperand × Int)) : Prop where
  operands : resolved.map Prod.fst = operands
  values : ∀ x ∈ resolved, value labels x.1.token = .ok x.2
  words : ∀ x ∈ resolved, words[x.1.place]? = some (valueWord x.2)
  warnings : warnings = resolved.filterMap fun x => x.1.warning? x.2

theorem Resolved.nil (labels : LabelTable) (words : List Word) : Resolved labels [] words [] [] := by
  constructor <;> simp

/-- what stands in memory behind the words of some operands does not matter to them -/
theorem Resolved.append {labels : LabelTable} {operands more : List ValueOperand} {words behind : List Word}
    {warnings others : List Warning} {resolved rest : List (ValueOperand × Int)}
    (h : Resolved labels operands words warnings resolved)
    (hrest : Resolved labels more (words ++ behind) others rest) :
    Resolved labels (operands ++ more) (words ++ behind) (warnings ++ others) (resolved ++ rest) := by
  refine ⟨?_, ?_, ?_, ?_⟩
  · rw [List.map_append, h.operands, hrest.operands]
  · intro x hx
    rcases List.mem_append.1 hx with hx | hx
    · exact h.values x hx
    · exact hrest.values x hx
  · intro x hx
    rcases List.mem_append.1 hx with hx | hx
    · have hplace := h.words x hx
      obtain ⟨hlt, _⟩ := List.getElem?_eq_some_iff.1 hplace
      rw [List.getElem?_append_left hlt, hplace]
    · exact hrest.words x hx
  · rw [List.filterMap_append, h.warnings, hrest.warnings]

/-- the operands of an instruction; `front` holds the words before those of its values -/
theorem resolved_of_readOperands {labels : LabelTable} {m : Mnemonic} (line : Int) (front : List Word)
    (operands : List Operand) (tokens : List Text) (position : Nat) (arguments : List Argument)
    (h : List.Forall₂ (fun (s : (Operand × Text) × Nat) a => readOperand labels m s.1.1 s.1.2 s.2 = .ok a)
      ((operands.zip tokens).zipIdx position) arguments) :
    ∃ resolved, Resolved labels (placeOperands line front.length (valueSlots operands tokens))
      (front ++ arguments.filterMap Argument.word?) (arguments.filterMap (Argument.warning? line)) resolved := by
  induction operands generalizing front tokens position arguments with
  | nil =>
    obtain rfl : arguments = [] := by simpa using h
    exact ⟨[], Resolved.nil labels _⟩
  | cons o operands ih =>
    cases tokens with
    | nil =>
      obtain rfl : arguments = [] := by simpa using h
      exact ⟨[], Resolved.nil labels _⟩
    | cons t tokens =>
      rw [List.zip_cons_cons, List.zipIdx_cons] at h
      obtain ⟨a, rest, ha, hrest, rfl⟩ := List.forall₂_cons_left_iff.1 h
      rcases readOperand_eq_ok ha with ⟨ho, r, hr, rfl⟩ | ⟨ho, v, hv, rfl⟩
      · -- a register has neither a word of its own nor a warning
        obtain ⟨resolved, hresolved⟩ := ih front tokens (position + 1) rest hrest
        refine ⟨resolved, ?_⟩
        rw [valueSlots_cons, if_pos ho]
        exact hresolved
      · obtain ⟨resolved, hresolved⟩ := ih (front ++ [valueWord v]) tokens (position + 1) rest hrest
        refine ⟨(⟨line, o, t, front.length⟩, v) :: resolved, ?_⟩
        have hhead : Resolved labels [⟨line, o, t, front.length⟩] (front ++ [valueWord v])
            ([Argument.value o.role v].filterMap (Argument.warning? line)) [(⟨line, o, t, front.length⟩, v)] := by
          refine ⟨rfl, ?_, ?_, rfl⟩
          · simpa using hv
          · simp
        have hwords : front ++ (Argument.value o.role v :: rest).filterMap Argument.word? =
            (front ++ [valueWord v]) ++ rest.filterMap Argument.word? := by
          rw [List.append_assoc]
          rfl
        have hwarnings : (Argument.value o.role v :: rest).filterMap (Argument.warning? line) =
            [Argument.value o.role v].filterMap (Argument.warning? line) ++
              rest.filterMap (Argument.warning? line) := by
          rw [← List.filterMap_append]
          rfl
        rw [List.length_append, List.length_singleton] at hresolved
        rw [valueSlots_cons, if_neg (by simp [ho]), placeOperands_cons, hwords, hwarnings]
        exact hhead.append hresolved

/-- one instruction line, with the words before it in `front` -/
theorem resolved_of_emitInstruction {labels : LabelTable} {line : Line} {fields : List Text} {e : Emission}
    (htoken : line.token = .instruction fields) (he : emitInstruction labels line.number fields = .ok e)
    (front : List Word) :
    ∃ resolved, Resolved labels (line.valueOperands front.length) (front ++ e.words) e.warnings resolved := by
  obtain ⟨m, arguments, hread, rfl⟩ := emitInstruction_eq_ok_iff.1 he
  obtain ⟨hname, _, hoperands⟩ := readInstruction_eq_ok_iff.1 hread
  obtain ⟨resolved, hresolved⟩ := resolved_of_readOperands line.number
    (front ++ [m.encode (arguments.filterMap Argument.register?)]) m.operands (operandFields fields) 1 arguments
    (mapM_eq_ok_iff.1 hoperands)
  have hline : line.valueOperands front.length =
      placeOperands line.number (front.length + 1) (valueSlots m.operands (operandFields fields)) := by
    simp only [Line.valueOperands, htoken, hname]
  refine ⟨resolved, ?_⟩
  rw [List.length_append, List.length_singleton, List.append_assoc] at hresolved
  rw [hline]
  exact hresolved

/-- a list of lines, with the words of the lines before them in `front` -/
theorem resolved_of_emit {lines : List Line} {labels : LabelTable} {emissions : List Emission}
    (h : emit lines labels = .ok emissions) (front : List Word) :
    ∃ resolved, Resolved labels (valueOperands front.length lines) (front ++ wordsOf emissions)
      (emissions.flatMap Emission.warnings) resolved := by
  induction lines generalizing front emissions with
  | nil =>
    obtain rfl : emissions = [] := by simpa using emit_eq_ok_iff.1 h
    exact ⟨[], Resolved.nil labels _⟩
  | cons line lines ih =>
    obtain ⟨number, text, token⟩ := line
    cases token with
    | instruction fields =>
      obtain ⟨e, rest, he, hrest, rfl⟩ := emit_cons_instruction rfl h
      obtain ⟨first, hfirst⟩ := resolved_of_emitInstruction rfl he front
      obtain ⟨more, hmore⟩ := ih hrest (front ++ e.words)
      rw [List.length_append, length_words_of_emitInstruction he] at hmore
      refine ⟨first ++ more, ?_⟩
      rw [wordsOf_cons, ← List.append_assoc, List.flatMap_cons]
      exact hfirst.append hmore
    | empty | label _ | unknown =>
      -- the line has no words, so the lines below it begin at the same address
      have hrest : emit lines labels = .ok emissions := h
      exact ih hrest front

/-! ## Warnings -/

/-- what a warning says of the value in an operand -/
structure Warning.Reports (w : Warning) (o : ValueOperand) (v : Int) : Prop where
  line : w.line = o.line
  role : w.role = o.slot.role
  original : Canonical w.original v
  kept : (w.kept.toNat : Int) = v % 256

theorem ValueOperand.warning?_of_fits (o : ValueOperand) {v : Int} (hv : 0 ≤ v ∧ v ≤ 255) : o.warning? v = none := by
  have hkept : ((Argument.lowByte v).toNat : Int) = v := by
    rw [toNat_lowByte]
    omega
  simp [warning?, Argument.warning?, hkept]

theorem ValueOperand.exists_warning (o : ValueOperand) {v : Int} (hv : v < 0 ∨ 255 < v) :
    ∃ w, o.warning? v = some w ∧ w.Reports o v := by
  have hkept : ((Argument.lowByte v).toNat : Int) ≠ v := by
    rw [toNat_lowByte]
    omega
  refine ⟨⟨o.line, o.slot.role, v, Argument.lowByte v⟩, ?_, rfl, rfl, canonical_decimalInt v, toNat_lowByte v⟩
  simp [warning?, Argument.warning?, hkept]

theorem ValueOperand.warning?_eq_none_iff (o : ValueOperand) {v : Int} : o.warning? v = none ↔ 0 ≤ v ∧ v ≤ 255 := by
  refine ⟨fun hnone => ?_, o.warning?_of_fits⟩
  by_contra hrange
  obtain ⟨w, hw, _⟩ := o.exists_warning (v := v) (by omega)
  rw [hnone] at hw
  cases hw

/-- there is a warning for each value that does not fit, in the order of the operands -/
theorem reports_filterMap (resolved : List (ValueOperand × Int)) :
    List.Forall₂ (fun w x => w.Reports x.1 x.2) (resolved.filterMap fun x => x.1.warning? x.2)
      (resolved.filter fun x => x.2 < 0 ∨ 255 < x.2) := by
  induction resolved with
  | nil => exact List.Forall₂.nil
  | cons x resolved ih =>
    by_cases hx : x.2 < 0 ∨ 255 < x.2
    · obtain ⟨w, hw, hreports⟩ := x.1.exists_warning hx
      rw [List.filterMap_cons, hw, List.filter_cons_of_pos (by simpa using hx)]
      exact List.Forall₂.cons hreports ih
    · have hnone : x.1.warning? x.2 = none := x.1.warning?_of_fits (by omega)
      rw [List.filterMap_cons, hnone, List.filter_cons_of_neg (by simpa using hx)]
      exact ih

/-- the word at a place, read as a number -/
def Program.HoldsAt (p : Program) (place : Nat) (n : Int) : Prop :=
  ∃ w, p.words[place]? = some w ∧ (w.toNat : Int) = n

theorem Program.HoldsAt.eq {p : Program} {place : Nat} {n n' : Int} (h : p.HoldsAt place n) (h' : p.HoldsAt place n') :
    n = n' := by
  obtain ⟨w, hw, rfl⟩ := h
  obtain ⟨w', hw', rfl⟩ := h'
  rw [hw] at hw'
  cases hw'
  rfl

/-- **Truncation is reported exactly.** In a program, every value operand resolves to an integer, and its word is that
integer modulo 256. The warnings are one for each value outside 0..255 and no more, in the order of the operands; each
names the line and the role, gives the integer as a canonical numeral, and the byte that was kept. So a program has no
warnings exactly if every value word equals the value of its operand. -/
theorem truncation_reported (lines : List Line) (labels : LabelTable) (p : Program) (h : encode lines labels = .ok p) :
    ∃ resolved : List (ValueOperand × Int),
      resolved.map Prod.fst = valueOperands 0 lines ∧
      (∀ x ∈ resolved, Resolves labels x.1.token x.2 ∧ p.HoldsAt x.1.place (x.2 % 256)) ∧
      List.Forall₂ (fun w x => w.Reports x.1 x.2) p.warnings (resolved.filter fun x => x.2 < 0 ∨ 255 < x.2) ∧
      (p.warnings = [] ↔ ∀ x ∈ resolved, p.HoldsAt x.1.place x.2) := by
  obtain ⟨emissions, hemit, rfl⟩ := encode_eq_ok_iff.1 h
  obtain ⟨resolved, hresolved⟩ := resolved_of_emit hemit []
  have hholds : ∀ x ∈ resolved, Program.HoldsAt ⟨lines, labels, wordsOf emissions,
      emissions.flatMap Emission.warnings, sourceMapOf emissions⟩ x.1.place (x.2 % 256) :=
    fun x hx => ⟨valueWord x.2, hresolved.words x hx, toNat_valueWord x.2⟩
  refine ⟨resolved, hresolved.operands, fun x hx => ⟨value_eq_ok_iff.1 (hresolved.values x hx), hholds x hx⟩, ?_, ?_⟩
  · rw [hresolved.warnings]
    exact reports_filterMap resolved
  · rw [hresolved.warnings, List.filterMap_eq_nil_iff]
    refine forall₂_congr fun x hx => ⟨fun hnone => ?_, fun hwhole => ?_⟩
    · have hfits : ¬ (x.2 < 0 ∨ 255 < x.2) := by
        intro hwide
        obtain ⟨w, hw, _⟩ := x.1.exists_warning hwide
        rw [hnone] at hw
        cases hw
      have hwhole : x.2 % 256 = x.2 := by omega
      exact hwhole ▸ hholds x hx
    · have hwhole : x.2 % 256 = x.2 := (hholds x hx).eq hwhole
      exact x.1.warning?_of_fits (by omega)

/-- a negative value, one that fits, one beyond 64 bits, and a label -/
def wideValues : List Line :=
  [⟨3, [], .instruction [ascii "LDI", ascii "R1", ascii "-1"]⟩,
   ⟨4, [], .instruction [ascii "LDI", ascii "R2", ascii "255"]⟩,
   ⟨7, [], .instruction [ascii "LDI", ascii "R3", ascii "18446744073709551872"]⟩,
   ⟨7, [], .instruction [ascii "JMP", ascii "far"]⟩]

/-- a label further on than a byte can say -/
def farLabel : LabelTable := LabelTable.empty.insert (ascii "far") 600

/-- of the four values three do not fit, and the program shows it -/
theorem truncation_reported_wide :
    ∃ p, encode wideValues farLabel = .ok p ∧ p.warnings.map Warning.line = [3, 7, 7] ∧
      ∃ resolved : List (ValueOperand × Int),
        resolved.map (fun x => (x.1.line, x.1.place)) = [(3, 1), (4, 3), (7, 5), (7, 7)] ∧
        (∀ x ∈ resolved, Resolves farLabel x.1.token x.2 ∧ p.HoldsAt x.1.place (x.2 % 256)) ∧
        List.Forall₂ (fun w x => w.Reports x.1 x.2) p.warnings (resolved.filter fun x => x.2 < 0 ∨ 255 < x.2) ∧
        ¬ ∀ x ∈ resolved, p.HoldsAt x.1.place x.2 := by
  obtain ⟨p, hencode, hlines⟩ : ∃ p, encode wideValues farLabel = .ok p ∧
      p.warnings.map Warning.line = [3, 7, 7] := ⟨_, rfl, by decide⟩
  obtain ⟨resolved, hoperands, hvalues, hreports, hwhole⟩ :=
    truncation_reported wideValues farLabel p hencode
  refine ⟨p, hencode, hlines, resolved, ?_, hvalues, hreports, ?_⟩
  · have hplaces : (valueOperands 0 wideValues).map (fun o => (o.line, o.place)) =
        [(3, 1), (4, 3), (7, 5), (7, 7)] := by decide
    rw [← hplaces, ← hoperands, List.map_map]
    rfl
  · intro hall
    rw [hwhole.2 hall] at hlines
    cases hlines

end TwoPass
