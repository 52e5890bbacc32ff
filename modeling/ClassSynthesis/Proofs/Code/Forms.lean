import ClassSynthesis.ClassFile.Assembler
import ClassSynthesis.Emission.ValueKind
import ClassSynthesis.Proofs.Code.Disassembler

/-!
# ClassSynthesis.Proofs.Code.Forms

The byte forms of instructions are read back. An instruction is `WellFormed` if its operands are
of the kind that its opcode takes; each form that the assembler picks for such an instruction
`Encodes` it, whatever the slot and the pool index are.
-/

namespace ClassSynthesis

open Disassembler

namespace Instruction

def WellFormed : Instruction → Prop
  | .plain op => shape? op = some .plain
  | .immediate op operand =>
    op = .bipush ∨ op = .sipush ∨ op = .newarray ∧ 0 ≤ operand.toInt ∧ operand.toInt < 256
  | .push _ => True
  | .slot op _ => ∃ kind : ValueKind, op = kind.loadOpcode ∨ op = kind.storeOpcode
  | .type op _ => shape? op = some .type
  | .field op _ _ _ => shape? op = some .field
  | .method op _ _ _ _ => op = .invokeinterface ∨ shape? op = some .method

end Instruction

namespace Assembler

variable {pool : ConstantPool} {op : Opcode}

theorem encodes_plain (h : shape? op = some .plain) : Encodes pool (.plain op) [op] := by
  refine ⟨op, [], rfl, fun rest => ?_⟩
  simp [instruction?, h, operands?]

/-! ## Immediates -/

theorem encodes_bipush {v : Int32} (hv : v.toInt8.toInt32 = v) :
    Encodes pool (.immediate .bipush v) [Opcode.bipush, v.toInt8.toUInt8] := by
  refine ⟨_, [v.toInt8.toUInt8], rfl, fun rest => ?_⟩
  have hs : shape? Opcode.bipush = some .signedByte := by decide
  simp [instruction?, hs, operands?, hv]

theorem encodes_sipush {v : Int32} (hv : v.toInt16.toInt32 = v) :
    Encodes pool (.immediate .sipush v) (Opcode.sipush :: u2 v.toInt16.toUInt16) := by
  refine ⟨_, u2 v.toInt16.toUInt16, rfl, fun rest => ?_⟩
  have hs : shape? Opcode.sipush = some .signedShort := by decide
  simp [instruction?, hs, operands?, hv]

/-- The byte is the operand cut off, which loses nothing below 256. -/
theorem low_byte {v : Int32} (hv : 0 ≤ v.toInt) (hlt : v.toInt < 256) :
    Int32.ofNat v.toInt8.toUInt8.toNat = v := by
  obtain ⟨n, hn⟩ := Int.eq_ofNat_of_zero_le hv
  have hv' : v = Int32.ofNat n := by
    rw [← Int32.ofInt_toInt v, hn]
    rfl
  have hn' : n < 256 := by omega
  have hb : (Int8.ofNat n).toUInt8 = UInt8.ofNat n := rfl
  rw [hv', Int32.toInt8_ofNat', hb, UInt8.toNat_ofNat', Nat.mod_eq_of_lt hn']

theorem encodes_newarray {v : Int32} (hv : 0 ≤ v.toInt) (hlt : v.toInt < 256) :
    Encodes pool (.immediate .newarray v) [Opcode.newarray, v.toInt8.toUInt8] := by
  refine ⟨_, [v.toInt8.toUInt8], rfl, fun rest => ?_⟩
  have hs : shape? Opcode.newarray = some .arrayType := by decide
  simp [instruction?, hs, operands?, low_byte hv hlt]

/-! ## Local variables -/

theorem cases_of_le_three {index : UInt16} (h : index ≤ 3) :
    index = 0 ∨ index = 1 ∨ index = 2 ∨ index = 3 := by
  simp only [UInt16.le_iff_toNat_le, ← UInt16.toNat_inj] at h ⊢
  simp at h ⊢
  omega

theorem toUInt16_toUInt8 {v : UInt16} (h : v ≤ 255) : v.toUInt8.toUInt16 = v := by
  simp [← UInt16.toNat_inj, UInt16.le_iff_toNat_le] at h ⊢
  omega

theorem encodes_slot (kind : ValueKind) (h : op = kind.loadOpcode ∨ op = kind.storeOpcode)
    (index : UInt16) : Encodes pool (.slot op index) (slotForm op index) := by
  have hs : shape? op = some .slot := by
    cases kind <;> rcases h with rfl | rfl <;> decide
  unfold slotForm
  split
  · rename_i hle
    refine ⟨_, [], rfl, fun rest => ?_⟩
    rcases cases_of_le_three hle with rfl | rfl | rfl | rfl <;> cases kind <;>
      rcases h with rfl | rfl <;> rfl
  · split
    · rename_i hle
      refine ⟨op, [index.toUInt8], rfl, fun rest => ?_⟩
      simp [instruction?, hs, operands?, toUInt16_toUInt8 hle]
    · refine ⟨Opcode.wide, op :: u2 index, rfl, fun rest => ?_⟩
      have hw : shape? Opcode.wide = some .wide := by decide
      simp [instruction?, hw, operands?, wide?_u2 hs]

/-! ## Pool indices -/

theorem loadable?_request {i : UInt16} {c : Loadable} (hi : pool.requestAt? i = some (request c)) :
    loadable? pool (constantSlots c) i = some c := by
  cases c <;> simp [loadable?, hi, request]

theorem constantSlots_of_isWide {c : Loadable} :
    constantSlots c = if c.isWide then 2 else 1 := by
  cases c with
  | number n => cases n <;> rfl
  | _ => rfl

theorem encodes_push {i : UInt16} {c : Loadable} (hi : pool.requestAt? i = some (request c)) :
    Encodes pool (.push c) (pushForm c.isWide i) := by
  have hc := loadable?_request hi
  rw [constantSlots_of_isWide] at hc
  unfold pushForm
  split
  · rename_i hw
    rw [if_pos hw] at hc
    refine ⟨_, u2 i, rfl, fun rest => ?_⟩
    have hs : shape? Opcode.ldc2W = some (.constantWide 2) := by decide
    simp [instruction?, hs, operands?, hc]
  · rename_i hw
    rw [if_neg hw] at hc
    split
    · rename_i hle
      refine ⟨_, [i.toUInt8], rfl, fun rest => ?_⟩
      have hs : shape? Opcode.ldc = some .constant := by decide
      simp [instruction?, hs, operands?, toUInt16_toUInt8 hle, hc]
    · refine ⟨_, u2 i, rfl, fun rest => ?_⟩
      have hs : shape? Opcode.ldcW = some (.constantWide 1) := by decide
      simp [instruction?, hs, operands?, hc]

theorem encodes_type (h : shape? op = some .type) {i : UInt16} {name : String}
    (hi : pool.requestAt? i = some (.classRef name)) :
    Encodes pool (.type op name) (op :: u2 i) := by
  refine ⟨op, u2 i, rfl, fun rest => ?_⟩
  simp [instruction?, h, operands?, type?, hi]

theorem encodes_field (h : shape? op = some .field) {i : UInt16} {owner name descriptor : String}
    (hi : pool.requestAt? i = some (.fieldRef owner name descriptor)) :
    Encodes pool (.field op owner name descriptor) (op :: u2 i) := by
  refine ⟨op, u2 i, rfl, fun rest => ?_⟩
  simp [instruction?, h, operands?, field?, hi]

/-- What the pool is asked for to call a method. -/
def methodRequest (owner name descriptor : String) (onInterface : Bool) : Request :=
  if onInterface then .interfaceMethodRef owner name descriptor
  else .methodRef owner name descriptor

theorem method?_request (op : Opcode) {i : UInt16} {owner name descriptor : String}
    {onInterface : Bool}
    (hi : pool.requestAt? i = some (methodRequest owner name descriptor onInterface)) :
    method? pool op i = some (.method op owner name descriptor onInterface) := by
  cases onInterface <;> simp [method?, hi, methodRequest]

theorem encodes_method (h : op = .invokeinterface ∨ shape? op = some .method) {i : UInt16}
    {owner name descriptor : String} {onInterface : Bool}
    (hi : pool.requestAt? i = some (methodRequest owner name descriptor onInterface)) :
    Encodes pool (.method op owner name descriptor onInterface) (methodForm op descriptor i) := by
  have hm := method?_request op hi
  unfold methodForm
  split
  · rename_i hop
    refine ⟨op, u2 i ++ [UInt8.ofNat (argumentSlots descriptor + 1), 0], rfl, fun rest => ?_⟩
    have hs : shape? op = some .interfaceMethod := by
      rw [hop]
      decide
    simp [instruction?, hs, operands?, hm]
  · rename_i hop
    have hs := h.resolve_left hop
    refine ⟨op, u2 i, rfl, fun rest => ?_⟩
    simp [instruction?, hs, operands?, hm]

end Assembler
end ClassSynthesis
