/-
The instruction table. It gives each register operand of an instruction a field of three bits, and with it a weight in
the instruction word. Two instructions with one register each have it in different fields: a store lower down than a
branch.

- `Mnemonic.fieldsApart`: no two fields share a bit, and none reaches into the operation code
- `Mnemonic.held_eq_slotNumbers`: a word holds a number for each register operand, whatever numbers are given
- `Mnemonic.encode_eq_encode_iff`: what two words that are the same have in common
- `exists_encode_iff`: the words of instructions
- `packed_fields`: packing and unpacking as the table describes them
-/
import Mathlib.Tactic
import TwoPass.Proofs.Emission

namespace TwoPass

/-! ## The table -/

namespace Mnemonic

/-- the number of register operands of an instruction -/
def registerSlots (m : Mnemonic) : Nat := (m.operands.filter Operand.isRegister).length

/-- what the register number of each register operand weighs in the word of an instruction -/
def weights : Mnemonic → List Nat
  | nop | jmp | halt => []
  | add | sub | and | or => [512, 64, 8]
  | ldi | ld | jnz => [512]
  | st => [64]

/-- the register number given for an operand: modulo eight, and zero if there is none -/
def slotNumber (registers : List Word) (i : Nat) : Word := registers.getD i 0 % 8

/-- the register numbers given for the register operands of an instruction -/
def slotNumbers (m : Mnemonic) (registers : List Word) : List Word :=
  (List.range m.registerSlots).map (slotNumber registers)

/-- the sum of register numbers, each times its weight -/
def weighted (registers : List Word) (weights : List Nat) : Nat :=
  (List.zipWith (fun r weight => r.toNat * weight) registers weights).sum

/-- an operation code of four bits, and fields of three that share no bit with each other or with it -/
structure FieldsApart (m : Mnemonic) : Prop where
  opcode : m.opcode.toNat < 16
  disjoint : (0xF000 :: m.weights.map (7 * ·)).Pairwise fun mask mask' => mask &&& mask' = 0

theorem fieldsApart (m : Mnemonic) : m.FieldsApart := by
  constructor
  · cases m <;> decide
  · cases m <;> decide

theorem weights_eq (m : Mnemonic) : m.weights = m.fields.map fun bit => 2 ^ bit.toNat := by cases m <;> rfl

theorem length_weights (m : Mnemonic) : m.weights.length = m.registerSlots := by
  rw [weights_eq, List.length_map, length_fields, registerSlots]

/-! ## What a word holds -/

theorem slotNumber_zero (registers : List Word) : slotNumber registers 0 = registers.headD 0 &&& 7 := by
  rw [← UInt16.toNat_inj, toNat_and_seven]
  cases registers <;> rfl

theorem slotNumber_succ (registers : List Word) (i : Nat) :
    slotNumber registers (i + 1) = slotNumber registers.tail i := by
  cases registers <;> rfl

theorem fill_eq_map_slotNumber (fields registers : List Word) :
    fill fields registers = (List.range fields.length).map (slotNumber registers) := by
  induction fields generalizing registers with
  | nil => rfl
  | cons bit fields ih =>
    have hbehind : slotNumber registers ∘ Nat.succ = slotNumber registers.tail := funext (slotNumber_succ registers)
    rw [fill, ih, List.length_cons, List.range_succ_eq_map, List.map_cons, List.map_map, slotNumber_zero, hbehind]

/-- what a word holds is what the table has room for -/
theorem held_eq_slotNumbers (m : Mnemonic) (registers : List Word) : m.held registers = m.slotNumbers registers := by
  rw [held, fill_eq_map_slotNumber, length_fields, slotNumbers, registerSlots]

theorem registerSum_eq_weighted (fields registers : List Word) :
    registerSum fields registers = weighted (fill fields registers) (fields.map fun bit => 2 ^ bit.toNat) := by
  induction fields generalizing registers with
  | nil => rfl
  | cons bit fields ih =>
    rw [registerSum_cons, ih, fill, List.map_cons, weighted, weighted, List.zipWith_cons_cons, List.sum_cons,
      toNat_and_seven]

theorem toNat_encode_eq_weighted (m : Mnemonic) (registers : List Word) :
    (m.encode registers).toNat = m.opcode.toNat * 4096 + weighted (m.slotNumbers registers) m.weights := by
  rw [toNat_encode, registerSum_eq_weighted, weights_eq, ← held_eq_slotNumbers, held]

/-! ## Words of instructions -/

/-- two words are the same only if they are of the same instruction and hold the same register numbers -/
theorem encode_eq_encode_iff {m m' : Mnemonic} {registers registers' : List Word} :
    m.encode registers = m'.encode registers' ↔ m = m' ∧ m.held registers = m'.held registers' := by
  constructor
  · intro h
    -- unpacking tells the two apart if anything does
    have hdecode := congrArg decode h
    rw [decode_encode, decode_encode] at hdecode
    simpa using hdecode
  · intro ⟨hm, hheld⟩
    rw [← encode_held m, hheld, hm, encode_held]

end Mnemonic

/-- the words that some instruction is written as -/
theorem exists_encode_iff (w : Word) :
    (∃ (m : Mnemonic) (registers : List Word), w = m.encode registers) ↔
      ∃ m registers, decode w = some (m, registers) ∧ m.encode registers = w := by
  constructor
  · intro ⟨m, registers, hw⟩
    rw [hw]
    exact ⟨m, m.held registers, decode_encode m registers, Mnemonic.encode_held m registers⟩
  · intro ⟨m, registers, _, hw⟩
    exact ⟨m, registers, hw.symm⟩

/-- **Fields do not interfere.** There is a weight for each register operand, and the fields are apart. Whatever
register numbers are given, a word is its operation code times 4096 and, for each register operand, the number given for
it times its weight; unpacking gives the instruction and exactly these numbers, and two words are the same exactly if
they agree in both. A word is that of an instruction exactly if unpacking it and packing again gives it back. -/
theorem packed_fields :
    (∀ m : Mnemonic, m.weights.length = m.registerSlots ∧ m.FieldsApart) ∧
    (∀ (m : Mnemonic) (registers : List Word),
      (m.encode registers).toNat = m.opcode.toNat * 4096 + Mnemonic.weighted (m.slotNumbers registers) m.weights ∧
      decode (m.encode registers) = some (m, m.slotNumbers registers)) ∧
    (∀ (m m' : Mnemonic) (registers registers' : List Word), m.encode registers = m'.encode registers' ↔
      m = m' ∧ m.slotNumbers registers = m'.slotNumbers registers') ∧
    ∀ w : Word, (∃ (m : Mnemonic) (registers : List Word), w = m.encode registers) ↔
      ∃ m registers, decode w = some (m, registers) ∧ m.encode registers = w := by
  refine ⟨fun m => ⟨m.length_weights, m.fieldsApart⟩, fun m registers => ⟨m.toNat_encode_eq_weighted registers, ?_⟩,
    fun m m' registers registers' => ?_, exists_encode_iff⟩
  · rw [decode_encode, Mnemonic.held_eq_slotNumbers]
  · rw [Mnemonic.encode_eq_encode_iff, Mnemonic.held_eq_slotNumbers, Mnemonic.held_eq_slotNumbers]

/-- a store keeps its register, the last of eight, lower than a branch does and ignores a second one; a word with a bit
set that belongs to no field is unpacked as a store but is the word of none -/
theorem packed_fields_store :
    (Mnemonic.st.encode [0xFFFF, 3]).toNat = 0x71C0 ∧ decode (Mnemonic.st.encode [0xFFFF, 3]) = some (.st, [7]) ∧
    (Mnemonic.jnz.encode [0xFFFF, 3]).toNat = 0x9E00 ∧ Mnemonic.st.encode [0xFFFF, 3] = Mnemonic.st.encode [7] ∧
    decode 0x71C1 = some (.st, [7]) ∧ ¬ ∃ (m : Mnemonic) (registers : List Word), 0x71C1 = m.encode registers := by
  obtain ⟨_, hpack, hsame, hwords⟩ := packed_fields
  have hdecode : decode 0x71C1 = some (.st, [7]) := by decide
  refine ⟨(hpack .st [0xFFFF, 3]).1, (hpack .st [0xFFFF, 3]).2, (hpack .jnz [0xFFFF, 3]).1,
    (hsame .st .st [0xFFFF, 3] [7]).2 (by decide), hdecode, fun hword => ?_⟩
  obtain ⟨m, registers, hfound, hback⟩ := (hwords 0x71C1).1 hword
  rw [hdecode] at hfound
  cases hfound
  exact absurd hback (by decide)

end TwoPass
