import ClassSynthesis.ClassFile.Instruction
import ClassSynthesis.Proofs.BigEndian
import ClassSynthesis.Proofs.Pool.Resolution

/-!
# ClassSynthesis.Proofs.Code.Disassembler

Reading a `code` array back. What follows an opcode is its `Shape`, which goes by the opcode's
number alone; `instruction?` reads the operands and looks their pool indices up, `disassemble` goes
from one instruction to the next until the bytes are used up.

Only the opcodes without jumps are known: there are no branches in generated code. The bytes of an
unknown opcode, of an instruction that is cut off, or of one whose pool entry has the wrong kind
are not code.

* `Encodes pool i bytes`: at the front of any bytes, `bytes` read as the instruction `i`.
* `disassemble_append`: such bytes put `i` in front of the instructions after them.
-/

namespace ClassSynthesis
namespace Disassembler

/-- What follows an opcode. -/
inductive Shape where
  | plain
  | signedByte
  | signedShort
  /-- A byte that names a primitive type. -/
  | arrayType
  /-- A one-byte pool index. The constant takes one slot. -/
  | constant
  | constantWide (slots : Nat)
  | slot
  /-- The slot is part of the opcode: there are four for each of `family`, from `first` on. -/
  | slotInside (first family : Opcode)
  | wide
  | type
  | field
  | method
  | interfaceMethod
  deriving DecidableEq

/-- Opcode ranges, ends included, and what follows their opcodes. -/
def shapes : List (Opcode × Opcode × Shape) :=
  [ (0x00, 0x0f, .plain),
    (0x10, 0x10, .signedByte),
    (0x11, 0x11, .signedShort),
    (0x12, 0x12, .constant),
    (0x13, 0x13, .constantWide 1),
    (0x14, 0x14, .constantWide 2),
    (0x15, 0x19, .slot),
    (0x1a, 0x2d, .slotInside 0x1a 0x15),
    (0x2e, 0x35, .plain),
    (0x36, 0x3a, .slot),
    (0x3b, 0x4e, .slotInside 0x3b 0x36),
    (0x4f, 0x83, .plain),
    (0x85, 0x98, .plain),
    (0xac, 0xb1, .plain),
    (0xb2, 0xb5, .field),
    (0xb6, 0xb8, .method),
    (0xb9, 0xb9, .interfaceMethod),
    (0xbb, 0xbb, .type),
    (0xbc, 0xbc, .arrayType),
    (0xbd, 0xbd, .type),
    (0xbe, 0xbf, .plain),
    (0xc0, 0xc1, .type),
    (0xc2, 0xc3, .plain),
    (0xc4, 0xc4, .wide) ]

def shape? (op : Opcode) : Option Shape :=
  match shapes.find? fun (first, last, _) => first ≤ op && op ≤ last with
  | some (_, _, shape) => some shape
  | none => none

/-! ## Operands -/

/-- The value of a `u2` field. -/
def joined (hi lo : UInt8) : UInt16 := .ofNat (bigEndian [hi, lo])

/-- Operand stack slots of a constant. -/
def constantSlots : Loadable → Nat
  | .number (.long _) | .number (.double _) => 2
  | _ => 1

/-- The constant that an entry pushes, if it takes as many slots as said. -/
def loadable? (pool : ConstantPool) (slots : Nat) (i : UInt16) : Option Loadable :=
  let c : Option Loadable := match pool.requestAt? i with
    | some (.number n) => some (.number n)
    | some (.string s) => some (.string s)
    | some (.classRef name) => some (.type name)
    | some (.methodType d) => some (.methodType d)
    | _ => none
  c.filter fun c => constantSlots c == slots

def type? (pool : ConstantPool) (op : Opcode) (i : UInt16) : Option Instruction :=
  match pool.requestAt? i with
  | some (.classRef name) => some (.type op name)
  | _ => none

def field? (pool : ConstantPool) (op : Opcode) (i : UInt16) : Option Instruction :=
  match pool.requestAt? i with
  | some (.fieldRef owner name d) => some (.field op owner name d)
  | _ => none

def method? (pool : ConstantPool) (op : Opcode) (i : UInt16) : Option Instruction :=
  match pool.requestAt? i with
  | some (.methodRef owner name d) => some (.method op owner name d false)
  | some (.interfaceMethodRef owner name d) => some (.method op owner name d true)
  | _ => none

/-- An instruction with a one-byte operand, and the number of its operand bytes. -/
def byte? (rest : List UInt8) (f : UInt8 → Option Instruction) : Option (Instruction × Nat) :=
  match rest with
  | b :: _ => (f b).map fun i => (i, 1)
  | [] => none

def short? (rest : List UInt8) (f : UInt16 → Option Instruction) : Option (Instruction × Nat) :=
  match rest with
  | hi :: lo :: _ => (f (joined hi lo)).map fun i => (i, 2)
  | _ => none

/-- The opcode after the one that says so has a `u2` operand. -/
def wide? : List UInt8 → Option (Instruction × Nat)
  | op :: hi :: lo :: _ =>
    if shape? op = some .slot then some (.slot op (joined hi lo), 3) else none
  | _ => none

/-- The count is not looked at, the byte after it is zero. -/
def interfaceMethod? (pool : ConstantPool) (op : Opcode) :
    List UInt8 → Option (Instruction × Nat)
  | hi :: lo :: _ :: zero :: _ =>
    if zero = 0 then (method? pool op (joined hi lo)).map fun i => (i, 4) else none
  | _ => none

/-- The instruction of an opcode with operands at the front of `rest`. -/
def operands? (pool : ConstantPool) (op : Opcode) (rest : List UInt8) :
    Shape → Option (Instruction × Nat)
  | .plain => some (.plain op, 0)
  | .signedByte => byte? rest fun b => some (.immediate op b.toInt8.toInt32)
  | .signedShort => short? rest fun v => some (.immediate op v.toInt16.toInt32)
  | .arrayType => byte? rest fun b => some (.immediate op (.ofNat b.toNat))
  | .constant => byte? rest fun b => (loadable? pool 1 b.toUInt16).map .push
  | .constantWide slots => short? rest fun i => (loadable? pool slots i).map .push
  | .slot => byte? rest fun b => some (.slot op b.toUInt16)
  | .slotInside first family =>
    some (.slot (family + (op - first) / 4) ((op - first) % 4).toUInt16, 0)
  | .wide => wide? rest
  | .type => short? rest (type? pool op)
  | .field => short? rest (field? pool op)
  | .method => short? rest (method? pool op)
  | .interfaceMethod => interfaceMethod? pool op rest

def instruction? (pool : ConstantPool) (op : Opcode) (rest : List UInt8) :
    Option (Instruction × Nat) :=
  match shape? op with
  | some shape => operands? pool op rest shape
  | none => none

/-- The instructions that bytes hold, none of them left over. -/
def disassemble (pool : ConstantPool) : List UInt8 → Option (List Instruction)
  | [] => some []
  | op :: rest =>
    match instruction? pool op rest with
    | some (i, n) => (disassemble pool (rest.drop n)).map (i :: ·)
    | none => none
termination_by bytes => bytes.length

/-! ## One instruction -/

/-- Bytes that are read as an instruction, whatever stands after them. -/
def Encodes (pool : ConstantPool) (i : Instruction) (bytes : List UInt8) : Prop :=
  ∃ op operands, bytes = op :: operands ∧
    ∀ rest, instruction? pool op (operands ++ rest) = some (i, operands.length)

theorem disassemble_append {pool : ConstantPool} {i : Instruction} {bytes : List UInt8}
    (h : Encodes pool i bytes) (rest : List UInt8) :
    disassemble pool (bytes ++ rest) = (disassemble pool rest).map (i :: ·) := by
  obtain ⟨op, operands, rfl, hr⟩ := h
  rw [List.cons_append, disassemble, hr rest]
  simp

@[simp] theorem joined_u2 (v : UInt16) : joined (v >>> 8).toUInt8 v.toUInt8 = v := by
  have hv : bigEndian [(v >>> 8).toUInt8, v.toUInt8] = v.toNat := bigEndian_u2 v
  simp [joined, hv]

@[simp] theorem byte?_cons (b : UInt8) (rest : List UInt8) (f : UInt8 → Option Instruction) :
    byte? (b :: rest) f = (f b).map fun i => (i, 1) := rfl

@[simp] theorem short?_u2 (v : UInt16) (rest : List UInt8) (f : UInt16 → Option Instruction) :
    short? (u2 v ++ rest) f = (f v).map fun i => (i, 2) := by
  simp [short?, u2]

@[simp] theorem interfaceMethod?_u2 (pool : ConstantPool) (op : Opcode) (v : UInt16)
    (count : UInt8) (rest : List UInt8) :
    interfaceMethod? pool op (u2 v ++ count :: 0 :: rest) =
      (method? pool op v).map fun i => (i, 4) := by
  simp [interfaceMethod?, u2]

theorem wide?_u2 {op : Opcode} (h : shape? op = some .slot) (v : UInt16) (rest : List UInt8) :
    wide? (op :: (u2 v ++ rest)) = some (.slot op v, 3) := by
  simp [wide?, u2, h]

end Disassembler
end ClassSynthesis
