/-
Instruction words as numbers. The fields of a word lie apart, so putting a register number into one of them adds a
multiple of a power of two and disturbs nothing else. Everything that is read back from a word follows from this sum.

- `Mnemonic.toNat_encode`: a word is its operation code times 4096 and each register number times the weight of its field
- `decode_encode`: a word gives back its instruction and the register numbers that it holds
- `canonical?_encode`: a word of the assembler is one that the disassembler accepts
- `canonical?_eq_some`: and no other word is
-/
import Mathlib.Tactic
import TwoPass.Disassembly

namespace TwoPass

theorem toNat_and_seven (r : Word) : (r &&& 7).toNat = r.toNat % 8 := by
  rw [UInt16.toNat_and]
  exact Nat.and_two_pow_sub_one_eq_mod r.toNat 3

/-- the register number that stands in the field at a bit -/
theorem toNat_field (w bit : Word) (hbit : bit.toNat < 16) :
    ((w >>> bit) &&& 7).toNat = w.toNat / 2 ^ bit.toNat % 8 := by
  rw [toNat_and_seven, UInt16.toNat_shiftRight, Nat.mod_eq_of_lt hbit, Nat.shiftRight_eq_div_pow]

namespace Mnemonic

/-! ## Words as sums -/

/-- what register numbers, each modulo eight, add to a word in the given fields -/
def registerSum (fields registers : List Word) : Nat :=
  ((fields.zip registers).map fun f => f.2.toNat % 8 * 2 ^ f.1.toNat).sum

@[simp] theorem registerSum_nil (registers : List Word) : registerSum [] registers = 0 := rfl

theorem registerSum_cons (bit : Word) (fields registers : List Word) :
    registerSum (bit :: fields) registers =
      (registers.headD 0).toNat % 8 * 2 ^ bit.toNat + registerSum fields registers.tail := by
  cases registers <;> simp [registerSum]

/-- each field lies below the one before it -/
def Descending (fields : List Word) : Prop := fields.Pairwise fun high low => low.toNat + 3 ≤ high.toNat

/-- the bits of a number below the end of a field are clear -/
def ClearBelow (n : Nat) (fields : List Word) : Prop := ∀ bit ∈ fields, 2 ^ (bit.toNat + 3) ∣ n

/-- filling the highest field leaves the others empty -/
theorem clearBelow_fill {n : Nat} {bit : Word} {fields : List Word} (r : Nat) (hfields : Descending (bit :: fields))
    (hn : ClearBelow n (bit :: fields)) : ClearBelow (n + r * 2 ^ bit.toNat) fields := by
  intro low hlow
  have hpow : 2 ^ (low.toNat + 3) ∣ 2 ^ bit.toNat := Nat.pow_dvd_pow 2 ((List.pairwise_cons.1 hfields).1 low hlow)
  exact Nat.dvd_add (hn low (List.mem_cons_of_mem bit hlow)) (Dvd.dvd.mul_left hpow r)

/-- a field below all the bits that are set is filled by an addition -/
theorem toNat_setField (w bit r : Word) (hbit : bit.toNat ≤ 12) (hw : 2 ^ (bit.toNat + 3) ∣ w.toNat) :
    (setField w (bit, r)).toNat = w.toNat + r.toNat % 8 * 2 ^ bit.toNat := by
  obtain ⟨k, hk⟩ := hw
  have hr : r.toNat % 8 < 8 := Nat.mod_lt _ (by decide)
  have hpow : 2 ^ (bit.toNat + 3) = 8 * 2 ^ bit.toNat := by rw [pow_add]; ring
  have hsmall : r.toNat % 8 * 2 ^ bit.toNat < 2 ^ (bit.toNat + 3) := by
    rw [hpow]; exact Nat.mul_lt_mul_of_pos_right hr (Nat.two_pow_pos _)
  have hword : 2 ^ (bit.toNat + 3) ≤ 2 ^ 16 := Nat.pow_le_pow_right (by omega) (by omega)
  have hshift : (r.toNat % 8) <<< (bit.toNat % 16) % 2 ^ 16 = r.toNat % 8 * 2 ^ bit.toNat := by
    rw [Nat.mod_eq_of_lt (by omega : bit.toNat < 16), Nat.shiftLeft_eq]
    exact Nat.mod_eq_of_lt (lt_of_lt_of_le hsmall hword)
  have hleft : w.toNat = k <<< (bit.toNat + 3) := by rw [hk, Nat.shiftLeft_eq, Nat.mul_comm]
  rw [setField, UInt16.toNat_or, UInt16.toNat_shiftLeft, toNat_and_seven, hshift, hleft,
    Nat.shiftLeft_add_eq_or_of_lt hsmall]

theorem toNat_foldl_setField (fields registers : List Word) (w : Word) (hfields : Descending fields)
    (hbits : ∀ bit ∈ fields, bit.toNat ≤ 12) (hw : ClearBelow w.toNat fields) :
    ((fields.zip registers).foldl setField w).toNat = w.toNat + registerSum fields registers := by
  induction fields generalizing registers w with
  | nil => simp
  | cons bit fields ih =>
    cases registers with
    | nil => simp [registerSum]
    | cons r registers =>
      have hset := toNat_setField w bit r (hbits bit List.mem_cons_self) (hw bit List.mem_cons_self)
      have hnext : ClearBelow (setField w (bit, r)).toNat fields := by
        rw [hset]; exact clearBelow_fill _ hfields hw
      rw [List.zip_cons_cons, List.foldl_cons,
        ih registers _ (List.pairwise_cons.1 hfields).2 (fun b hb => hbits b (List.mem_cons_of_mem bit hb)) hnext,
        hset, registerSum_cons]
      exact Nat.add_assoc _ _ _

theorem descending_fields (m : Mnemonic) : Descending m.fields := by unfold Descending; cases m <;> decide

theorem fields_le (m : Mnemonic) : ∀ bit ∈ m.fields, bit.toNat + 3 ≤ 12 := by
  have hall : m.fields.all (fun bit => bit.toNat + 3 ≤ 12) = true := by cases m <;> decide
  simpa using hall

theorem clearBelow_opcode (m : Mnemonic) : ClearBelow (m.opcode.toNat * 4096) m.fields := by
  intro bit hbit
  exact Dvd.dvd.mul_left (Nat.pow_dvd_pow 2 (fields_le m bit hbit)) _

/-- **Words are sums.** The operation code weighs 4096, and each register number, modulo eight, the weight of its
field -/
theorem toNat_encode (m : Mnemonic) (registers : List Word) :
    (m.encode registers).toNat = m.opcode.toNat * 4096 + registerSum m.fields registers := by
  have hshift : (m.opcode <<< 12).toNat = m.opcode.toNat * 4096 := by cases m <;> rfl
  have hclear : ClearBelow (m.opcode <<< 12).toNat m.fields := by rw [hshift]; exact clearBelow_opcode m
  have hbits : ∀ bit ∈ m.fields, bit.toNat ≤ 12 := fun bit hbit => by have := fields_le m bit hbit; omega
  rw [encode, toNat_foldl_setField m.fields registers _ (descending_fields m) hbits hclear, hshift]

/-! ## Reading fields back -/

/-- the register numbers that fields hold: modulo eight, and zero where none is given -/
def fill : List Word → List Word → List Word
  | [], _ => []
  | _ :: fields, registers => (registers.headD 0 &&& 7) :: fill fields registers.tail

/-- the register numbers that a word of the instruction holds -/
def held (m : Mnemonic) (registers : List Word) : List Word := fill m.fields registers

theorem fill_eq_self (fields registers : List Word) (hlen : registers.length = fields.length)
    (hlt : ∀ r ∈ registers, r.toNat < 8) : fill fields registers = registers := by
  induction fields generalizing registers with
  | nil => rw [List.eq_nil_of_length_eq_zero hlen]; rfl
  | cons bit fields ih =>
    cases registers with
    | nil => simp at hlen
    | cons r registers =>
      have hr : r &&& 7 = r := by
        rw [← UInt16.toNat_inj, toNat_and_seven]; exact Nat.mod_eq_of_lt (hlt r List.mem_cons_self)
      have htail := ih registers (by simpa using hlen) fun r' hr' => hlt r' (List.mem_cons_of_mem r hr')
      simp only [fill, List.headD_cons, List.tail_cons, hr, htail]

theorem length_fill (fields registers : List Word) : (fill fields registers).length = fields.length := by
  induction fields generalizing registers with
  | nil => rfl
  | cons bit fields ih => simp [fill, ih]

theorem lt_of_mem_fill {fields registers : List Word} {r : Word} (h : r ∈ fill fields registers) : r.toNat < 8 := by
  induction fields generalizing registers with
  | nil => simp [fill] at h
  | cons bit fields ih =>
    rcases List.mem_cons.1 h with rfl | h
    · rw [toNat_and_seven]; exact Nat.mod_lt _ (by decide)
    · exact ih h

theorem registerSum_fill (fields registers : List Word) :
    registerSum fields (fill fields registers) = registerSum fields registers := by
  induction fields generalizing registers with
  | nil => rfl
  | cons bit fields ih => simp only [fill, registerSum_cons, List.headD_cons, List.tail_cons, ih, toNat_and_seven,
      Nat.mod_mod]

/-- fields that end below a bit hold less than the weight of that bit -/
theorem registerSum_lt (fields registers : List Word) (top : Nat) (hfields : Descending fields)
    (htop : ∀ bit ∈ fields, bit.toNat + 3 ≤ top) : registerSum fields registers < 2 ^ top := by
  induction fields generalizing registers top with
  | nil => simp
  | cons bit fields ih =>
    obtain ⟨hbelow, hrest⟩ := List.pairwise_cons.1 hfields
    have hlow := ih registers.tail bit.toNat hrest hbelow
    have hr : (registers.headD 0).toNat % 8 ≤ 7 := by omega
    have hmul := Nat.mul_le_mul_right (2 ^ bit.toNat) hr
    have hpow : 2 ^ (bit.toNat + 3) ≤ 2 ^ top := Nat.pow_le_pow_right (by omega) (htop bit List.mem_cons_self)
    rw [pow_add] at hpow
    rw [registerSum_cons]
    omega

/-- the fields of a sum read as the register numbers that were put in -/
theorem map_field_registerSum (fields registers : List Word) (n : Nat) (hfields : Descending fields)
    (hn : ClearBelow n fields) :
    fields.map (fun bit => (n + registerSum fields registers) / 2 ^ bit.toNat % 8) =
      (fill fields registers).map UInt16.toNat := by
  induction fields generalizing registers n with
  | nil => rfl
  | cons bit fields ih =>
    obtain ⟨hbelow, hrest⟩ := List.pairwise_cons.1 hfields
    have hlow := registerSum_lt fields registers.tail bit.toNat hrest hbelow
    have hhead : (n + registerSum (bit :: fields) registers) / 2 ^ bit.toNat % 8 =
        (registers.headD 0 &&& 7).toNat := by
      obtain ⟨k, hk⟩ := hn bit List.mem_cons_self
      have hsplit : n + registerSum (bit :: fields) registers =
          2 ^ bit.toNat * (8 * k + (registers.headD 0).toNat % 8) + registerSum fields registers.tail := by
        rw [registerSum_cons, hk, pow_add]; ring
      rw [hsplit, Nat.mul_add_div (Nat.two_pow_pos _), Nat.div_eq_of_lt hlow, toNat_and_seven]
      omega
    have htail := ih registers.tail _ hrest
      (clearBelow_fill ((registers.headD 0).toNat % 8) hfields hn)
    rw [List.map_cons, hhead, fill, List.map_cons, ← htail]
    simp only [registerSum_cons, Nat.add_assoc]

theorem registersOf_encode (m : Mnemonic) (registers : List Word) :
    m.registersOf (m.encode registers) = m.held registers := by
  have hread := map_field_registerSum m.fields registers _ (descending_fields m) (clearBelow_opcode m)
  apply List.map_injective_iff.2 fun a b hab => UInt16.toNat_inj.1 hab
  rw [held, ← hread, registersOf, List.map_map]
  apply List.map_congr_left
  intro bit hbit
  have hle := fields_le m bit hbit
  rw [Function.comp_apply, toNat_field _ _ (by omega), toNat_encode]

theorem opcode_encode (m : Mnemonic) (registers : List Word) : m.encode registers >>> 12 = m.opcode := by
  have hlt := registerSum_lt m.fields registers 12 (descending_fields m) (fields_le m)
  have hshift : (m.encode registers >>> 12).toNat = (m.encode registers).toNat / 4096 := by
    rw [UInt16.toNat_shiftRight, Nat.shiftRight_eq_div_pow]; rfl
  rw [← UInt16.toNat_inj, hshift, toNat_encode]
  omega

theorem encode_held (m : Mnemonic) (registers : List Word) : m.encode (m.held registers) = m.encode registers := by
  rw [← UInt16.toNat_inj, toNat_encode, toNat_encode, held, registerSum_fill]

end Mnemonic

/-- **Unpacking inverts packing**: the instruction, and the register numbers that its fields hold -/
theorem decode_encode (m : Mnemonic) (registers : List Word) :
    decode (m.encode registers) = some (m, m.held registers) := by
  rw [decode, Mnemonic.opcode_encode, Mnemonic.ofOpcode?_opcode, Option.map_some, Mnemonic.registersOf_encode]

/-- every word of the assembler is in the form that the disassembler takes for an instruction -/
theorem canonical?_encode (m : Mnemonic) (registers : List Word) :
    canonical? (m.encode registers) = some (m, m.held registers) := by
  rw [canonical?, decode_encode]
  simp [Mnemonic.encode_held]

/-- a word that is taken for an instruction is the one that the assembler writes for it, with register numbers that fit
their fields -/
theorem canonical?_eq_some {w : Word} {m : Mnemonic} {registers : List Word} (h : canonical? w = some (m, registers)) :
    w = m.encode registers ∧ m.held registers = registers := by
  have hw : m.encode registers = w := by simpa using (Option.filter_eq_some_iff.1 h).2
  have hback := canonical?_encode m registers
  rw [hw, h] at hback
  exact ⟨hw.symm, by simpa using hback.symm⟩

end TwoPass
