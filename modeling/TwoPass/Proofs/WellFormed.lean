/-
Instructions as a grammar. An instruction is well-formed if its mnemonic is in the table and each slot accepts its
token; otherwise it has a first defect, in the order in which the checks are made.

- `Operand.Accepts`, `WellFormed`: the tokens of a slot, and the fields of an instruction
- `Defect`: the cause that the first failing check gives
- `DefectKind`, `Defect.kind`: the kind of fault that each check is for, and that the first failing one decides it
- `wellFormed_of_readInstruction`, `defect_of_readInstruction`: the second pass reads the well-formed instructions, and
  fails on the others with their defect
-/
import Mathlib.Tactic
import TwoPass.Proofs.Emission
import TwoPass.Proofs.Identifiers
import TwoPass.Proofs.Literals

namespace TwoPass

/-! ## Well-formed instructions -/

/-- `[Rr][0-7]` -/
def IsRegisterName (t : Text) : Prop := ∃ r ∈ ascii "Rr", ∃ n ∈ ascii "01234567", t = [r, n]

/-- the tokens that a slot accepts, where the labels that are declared are known -/
def Operand.Accepts (declared : Text → Prop) (o : Operand) (t : Text) : Prop :=
  match o.kind with
  | .register => IsRegisterName t
  | .immediate | .address => declared t ∨ ∃ v, Literal t v

/-- an instruction of the table, with as many operands as it has slots, each accepted by its slot -/
def WellFormed (declared : Text → Prop) (fields : List Text) : Prop :=
  ∃ m : Mnemonic, m.name = (mnemonicField fields).capitals ∧
    List.Forall₂ (fun o t => o.Accepts declared t) m.operands (operandFields fields)

/-- why the slot at a position refuses a token -/
inductive Operand.Refuses (declared : Text → Prop) (m : Mnemonic) (o : Operand) (t : Text) (position : Nat) :
    Cause → Prop where
  | register (hkind : o.kind = .register) (h : ¬ IsRegisterName t) :
      Refuses declared m o t position (.invalidRegister o t position m)
  | undefinedLabel (hkind : o.kind ≠ .register) (h : ¬ declared t) (hliteral : ∀ v, ¬ Literal t v)
      (hname : IsIdentifier t) : Refuses declared m o t position (.undefinedLabel t)
  | invalidNumber (hkind : o.kind ≠ .register) (h : ¬ declared t) (hliteral : ∀ v, ¬ Literal t v)
      (hname : ¬ IsIdentifier t) : Refuses declared m o t position (.invalidNumber (radixOf t) t)

/-- the first thing that is wrong with an instruction: its mnemonic, the number of its operands, or the leftmost operand
that its slot refuses -/
inductive Defect (declared : Text → Prop) (fields : List Text) : Cause → Prop where
  | mnemonic (h : ∀ m : Mnemonic, m.name ≠ (mnemonicField fields).capitals) :
      Defect declared fields (.unknownMnemonic (mnemonicField fields))
  | count {m : Mnemonic} (hname : m.name = (mnemonicField fields).capitals)
      (h : (operandFields fields).length ≠ m.operands.length) :
      Defect declared fields (.operandCount m (operandFields fields).length)
  | operand {m : Mnemonic} {i : Nat} {o : Operand} {t : Text} {cause : Cause}
      (hname : m.name = (mnemonicField fields).capitals)
      (hcount : (operandFields fields).length = m.operands.length)
      (hslot : m.operands[i]? = some o) (htoken : (operandFields fields)[i]? = some t)
      (hleft : List.Forall₂ (fun o t => o.Accepts declared t) (m.operands.take i) ((operandFields fields).take i))
      (h : o.Refuses declared m t (i + 1) cause) : Defect declared fields cause

theorem register?_isSome_iff {t : Text} : (register? t).isSome ↔ IsRegisterName t := by
  have hletter : ∀ {r : UInt8}, r ∈ ascii "Rr" ↔ r = byte 'R' ∨ r = byte 'r' := by simp [ascii]
  have hnumber : ∀ {n : UInt8}, n ∈ ascii "01234567" ↔ byte '0' ≤ n ∧ n ≤ byte '7' := by
    intro n
    have hall : ∀ k < 256, UInt8.ofNat k ∈ ascii "01234567" ↔ byte '0' ≤ UInt8.ofNat k ∧ UInt8.ofNat k ≤ byte '7' := by
      decide +kernel
    simpa using hall n.toNat n.toNat_lt
  constructor
  · intro h
    unfold register? at h
    split at h
    · rename_i r n
      split_ifs at h with hread
      · simp only [Bool.and_eq_true, Bool.or_eq_true, beq_iff_eq, decide_eq_true_eq] at hread
        exact ⟨r, hletter.2 hread.1.1, n, hnumber.2 ⟨hread.1.2, hread.2⟩, rfl⟩
      · cases h
    · cases h
  · rintro ⟨r, hr, n, hn, rfl⟩
    have hread := hnumber.1 hn
    rcases hletter.1 hr with rfl | rfl
    · simp [register?, hread]
    · simp [register?, hread]

theorem Mnemonic.ofName?_eq_some_iff {t : Text} {m : Mnemonic} : ofName? t = some m ↔ m.name = t.capitals := by
  constructor
  · intro h
    simpa using List.find?_some h
  · intro h
    rw [ofName?, ← h]
    cases m <;> decide

theorem Mnemonic.ofName?_eq_none_iff {t : Text} : ofName? t = none ↔ ∀ m : Mnemonic, m.name ≠ t.capitals := by
  rw [Option.eq_none_iff_forall_ne_some]
  exact forall_congr' fun m => not_congr ofName?_eq_some_iff

theorem Mnemonic.eq_of_name {m m' : Mnemonic} {t : Text} (h : m.name = t.capitals) (h' : m'.name = t.capitals) :
    m = m' := by
  have hfound := ofName?_eq_some_iff.2 h
  rw [ofName?_eq_some_iff.2 h'] at hfound
  exact (Option.some.inj hfound).symm

/-- no slot refuses what it accepts -/
theorem Operand.Refuses.not_accepts {declared : Text → Prop} {m : Mnemonic} {o : Operand} {t : Text} {position : Nat}
    {cause : Cause} (h : o.Refuses declared m t position cause) : ¬ o.Accepts declared t := by
  intro haccepts
  unfold Operand.Accepts at haccepts
  cases h with
  | register hkind h =>
    rw [hkind] at haccepts
    exact h haccepts
  | undefinedLabel hkind h hliteral _ | invalidNumber hkind h hliteral _ =>
    split at haccepts
    · rename_i hregister
      exact hkind hregister
    all_goals
      rcases haccepts with hdeclared | ⟨v, hv⟩
      · exact h hdeclared
      · exact hliteral v hv

/-- an instruction with a defect is not well-formed -/
theorem Defect.not_wellFormed {declared : Text → Prop} {fields : List Text} {cause : Cause}
    (h : Defect declared fields cause) : ¬ WellFormed declared fields := by
  rintro ⟨m, hname, haccepts⟩
  cases h with
  | mnemonic h => exact h m hname
  | count hname' h =>
    obtain rfl := Mnemonic.eq_of_name hname hname'
    exact h haccepts.length_eq.symm
  | @operand m' i o t cause hname' hcount hslot htoken hleft h =>
    obtain rfl := Mnemonic.eq_of_name hname hname'
    obtain ⟨hi, rfl⟩ := List.getElem?_eq_some_iff.1 hslot
    obtain ⟨hj, rfl⟩ := List.getElem?_eq_some_iff.1 htoken
    exact h.not_accepts ((List.forall₂_iff_get.1 haccepts).2 i hi hj)

/-- the leftmost operand that its slot refuses -/
structure FirstRefused (declared : Text → Prop) (m : Mnemonic) (tokens : List Text) (i : Nat) (o : Operand) (t : Text) :
    Prop where
  slot : m.operands[i]? = some o
  token : tokens[i]? = some t
  left : List.Forall₂ (fun o t => o.Accepts declared t) (m.operands.take i) (tokens.take i)
  refused : ¬ o.Accepts declared t

theorem FirstRefused.le {declared : Text → Prop} {m : Mnemonic} {tokens : List Text} {i j : Nat} {o o' : Operand}
    {t t' : Text} (h : FirstRefused declared m tokens i o t) (h' : FirstRefused declared m tokens j o' t') : j ≤ i := by
  by_contra hlt
  rw [Nat.not_le] at hlt
  have hslot : (m.operands.take j)[i]? = some o := by rw [List.getElem?_take_of_lt hlt, h.slot]
  have htoken : (tokens.take j)[i]? = some t := by rw [List.getElem?_take_of_lt hlt, h.token]
  obtain ⟨hi, rfl⟩ := List.getElem?_eq_some_iff.1 hslot
  obtain ⟨hi', rfl⟩ := List.getElem?_eq_some_iff.1 htoken
  exact h.refused ((List.forall₂_iff_get.1 h'.left).2 i hi hi')

theorem FirstRefused.unique {declared : Text → Prop} {m : Mnemonic} {tokens : List Text} {i j : Nat} {o o' : Operand}
    {t t' : Text} (h : FirstRefused declared m tokens i o t) (h' : FirstRefused declared m tokens j o' t') :
    o = o' ∧ t = t' := by
  obtain rfl : i = j := le_antisymm (h'.le h) (h.le h')
  exact ⟨Option.some.inj (h.slot.symm.trans h'.slot), Option.some.inj (h.token.symm.trans h'.token)⟩

/-- the kind of fault of an instruction, one check after another: the mnemonic, the number of operands, and the leftmost
operand that is refused -/
structure DefectKind (declared : Text → Prop) (fields : List Text) (kind : Text) : Prop where
  mnemonic : (∀ m : Mnemonic, m.name ≠ (mnemonicField fields).capitals) → kind = ascii "unknown mnemonic"
  count : ∀ m : Mnemonic, m.name = (mnemonicField fields).capitals →
    (operandFields fields).length ≠ m.operands.length → kind = ascii "wrong operand count"
  operand : ∀ (m : Mnemonic) (i : Nat) (o : Operand) (t : Text), m.name = (mnemonicField fields).capitals →
    (operandFields fields).length = m.operands.length → FirstRefused declared m (operandFields fields) i o t →
      (o.kind = .register → kind = ascii "invalid register") ∧
      (o.kind ≠ .register → IsIdentifier t → kind = ascii "undefined label") ∧
      (o.kind ≠ .register → ¬ IsIdentifier t → kind = ascii "invalid number")

theorem Operand.Refuses.kind {declared : Text → Prop} {m : Mnemonic} {o : Operand} {t : Text} {position : Nat}
    {cause : Cause} (h : o.Refuses declared m t position cause) :
    (o.kind = .register → cause.kind = ascii "invalid register") ∧
      (o.kind ≠ .register → IsIdentifier t → cause.kind = ascii "undefined label") ∧
      (o.kind ≠ .register → ¬ IsIdentifier t → cause.kind = ascii "invalid number") := by
  cases h with
  | register hkind _ => exact ⟨fun _ => rfl, fun hnot => absurd hkind hnot, fun hnot => absurd hkind hnot⟩
  | undefinedLabel hkind _ _ hname =>
    exact ⟨fun hregister => absurd hregister hkind, fun _ _ => rfl, fun _ hnot => absurd hname hnot⟩
  | invalidNumber hkind _ _ hname =>
    exact ⟨fun hregister => absurd hregister hkind, fun _ hidentifier => absurd hidentifier hname, fun _ _ => rfl⟩

/-- **The first failing check decides the kind of a defect** -/
theorem Defect.kind {declared : Text → Prop} {fields : List Text} {cause : Cause} (h : Defect declared fields cause) :
    DefectKind declared fields cause.kind := by
  cases h with
  | mnemonic h =>
    exact ⟨fun _ => rfl, fun m hname => absurd hname (h m), fun m _ _ _ hname => absurd hname (h m)⟩
  | @count m' hname' h =>
    refine ⟨fun hnone => absurd hname' (hnone m'), fun _ _ _ => rfl, fun m _ _ _ hname hcount => ?_⟩
    obtain rfl := Mnemonic.eq_of_name hname hname'
    exact absurd hcount h
  | @operand m' i' o' t' cause hname' hcount' hslot htoken hleft h =>
    refine ⟨fun hnone => absurd hname' (hnone m'), fun m hname hcount => ?_, fun m i o t hname _ hfirst => ?_⟩
    · obtain rfl := Mnemonic.eq_of_name hname hname'
      exact absurd hcount' hcount
    · obtain rfl := Mnemonic.eq_of_name hname hname'
      obtain ⟨rfl, rfl⟩ := hfirst.unique ⟨hslot, htoken, hleft, h.not_accepts⟩
      exact h.kind

/-! ## Reading an instruction -/

section
variable {labels : LabelTable} {declared : Text → Prop} (hlabels : ∀ t, declared t ↔ (labels.address? t).isSome)
include hlabels

theorem declared_or_literal_of_value {t : Text} {v : Int} (h : value labels t = .ok v) :
    declared t ∨ ∃ v, Literal t v := by
  rcases value_eq_ok_iff.1 h with haddress | ⟨_, hliteral⟩
  · left
    rw [hlabels]
    simp [haddress]
  · exact Or.inr ⟨v, hliteral⟩

/-- a token without a value is neither a label nor a literal, and its shape tells the cause -/
theorem value_eq_error {t : Text} {cause : Cause} (h : value labels t = .error cause) :
    ¬ declared t ∧ (∀ v, ¬ Literal t v) ∧
      cause = if isName t then .undefinedLabel t else .invalidNumber (radixOf t) t := by
  unfold value at h
  cases haddress : labels.address? t with
  | some address =>
    rw [haddress] at h
    cases h
  | none =>
    cases hnumber : number? t with
    | some n =>
      rw [haddress, hnumber] at h
      cases h
    | none =>
      rw [haddress, hnumber] at h
      cases h
      refine ⟨?_, number?_eq_none_iff.1 hnumber, rfl⟩
      rw [hlabels, haddress]
      simp

/-- a slot reads the tokens that it accepts -/
theorem Operand.accepts_of_readOperand {m : Mnemonic} {o : Operand} {t : Text} {position : Nat} {a : Argument}
    (h : readOperand labels m o t position = .ok a) : o.Accepts declared t := by
  unfold readOperand at h
  unfold Operand.Accepts
  cases hkind : o.kind with
  | register =>
    rw [hkind] at h
    apply register?_isSome_iff.1
    cases hregister : register? t with
    | none => simp [hregister] at h
    | some r => rfl
  | immediate | address =>
    rw [hkind] at h
    obtain ⟨v, hv, _⟩ := map_eq_ok_iff.1 h
    exact declared_or_literal_of_value hlabels hv

/-- and refuses the others with the cause -/
theorem Operand.refuses_of_readOperand {m : Mnemonic} {o : Operand} {t : Text} {position : Nat} {cause : Cause}
    (h : readOperand labels m o t position = .error cause) : o.Refuses declared m t position cause := by
  unfold readOperand at h
  cases hkind : o.kind with
  | register =>
    rw [hkind] at h
    cases hregister : register? t with
    | some r => simp [hregister] at h
    | none =>
      rw [hregister] at h
      cases h
      refine .register hkind fun hname => ?_
      have hsome := register?_isSome_iff.2 hname
      rw [hregister] at hsome
      cases hsome
  | immediate | address =>
    have hnot : o.kind ≠ .register := by rw [hkind]; exact OperandKind.noConfusion
    rw [hkind] at h
    obtain ⟨hdeclared, hliteral, rfl⟩ := value_eq_error hlabels (map_eq_error h)
    by_cases hname : isName t = true
    · rw [if_pos hname]
      exact .undefinedLabel hnot hdeclared hliteral (isName_iff.1 hname)
    · rw [if_neg hname]
      exact .invalidNumber hnot hdeclared hliteral fun h => hname (isName_iff.2 h)

/-- slots that read their tokens, at whatever positions, accept them -/
theorem accepts_of_readOperand {m : Mnemonic} {operands : List Operand} {tokens : List Text}
    {slots : List ((Operand × Text) × Nat)} (hlen : operands.length = tokens.length)
    (hslots : slots.map Prod.fst = operands.zip tokens)
    (h : ∀ s ∈ slots, ∃ a, readOperand labels m s.1.1 s.1.2 s.2 = .ok a) :
    List.Forall₂ (fun o t => o.Accepts declared t) operands tokens := by
  refine List.forall₂_iff_zip.2 ⟨hlen, fun {o t} hmem => ?_⟩
  rw [← hslots] at hmem
  obtain ⟨s, hs, heq⟩ := List.mem_map.1 hmem
  obtain ⟨a, ha⟩ := h s hs
  rw [heq] at ha
  exact Operand.accepts_of_readOperand hlabels ha

theorem wellFormed_of_readInstruction {fields : List Text} {m : Mnemonic} {arguments : List Argument}
    (h : readInstruction labels fields = .ok (m, arguments)) : WellFormed declared fields := by
  obtain ⟨hname, hcount, hread⟩ := readInstruction_eq_ok_iff.1 h
  refine ⟨m, Mnemonic.ofName?_eq_some_iff.1 hname, ?_⟩
  exact accepts_of_readOperand hlabels hcount.symm (List.zipIdx_map_fst _ _) (exists_ok_of_mapM hread)

/-- reading stops at the first defect -/
theorem defect_of_readInstruction {fields : List Text} {cause : Cause}
    (h : readInstruction labels fields = .error cause) : Defect declared fields cause := by
  unfold readInstruction at h
  cases hname : Mnemonic.ofName? (mnemonicField fields) with
  | none =>
    rw [hname] at h
    cases h
    exact .mnemonic (Mnemonic.ofName?_eq_none_iff.1 hname)
  | some m =>
    have hm := Mnemonic.ofName?_eq_some_iff.1 hname
    rw [hname] at h
    replace h := map_eq_error h
    unfold readArguments at h
    by_cases hcount : (operandFields fields).length = m.operands.length
    · rw [if_pos (by simpa using hcount)] at h
      obtain ⟨i, ⟨⟨o, t⟩, position⟩, hi, herror, hleft⟩ := mapM_eq_error h
      -- the slots are numbered from one, so the one at place `i` is called `i + 1`
      rw [List.getElem?_zipIdx, Option.map_eq_some_iff] at hi
      obtain ⟨pair, hpair, heq⟩ := hi
      cases heq
      obtain ⟨hslot, htoken⟩ := List.getElem?_zip_eq_some.1 hpair
      refine .operand hm hcount hslot htoken ?_ ?_
      · refine accepts_of_readOperand hlabels (by simp [hcount]) ?_ hleft
        rw [List.map_take, List.zipIdx_map_fst, List.zip, List.take_zipWith]
      · have hrefuses := Operand.refuses_of_readOperand hlabels herror
        rwa [Nat.add_comm] at hrefuses
    · rw [if_neg (by simpa using hcount)] at h
      cases h
      exact .count hm hcount

end

end TwoPass
