import ClassSynthesis.Proofs.Code.Disassembly

/-!
# ClassSynthesis.Proofs.Code.Immediates

Operands that stand in the code itself. `Instruction.immediate?` says where an instruction has one,
how wide it is and which number it is for; it goes by the class file format and not by how the
assembler writes. A field keeps a number modulo its size (`Immediate.kept`), which is the number
itself exactly if it fits (`Immediate.kept_eq_iff`).

Later instructions only add bytes (`Continues`), so each operand is found again in the finished
code at the offset of its instruction.

* `immediates_finish`: in a finished code array an operand is exact if and only if it fits its
  field, and the operands of the two pushes do.
* `immediates_cut_off`: those of `NEWARRAY` and of interface calls need not, and are then cut off.
-/

namespace ClassSynthesis

/-- A number in the code. -/
structure Immediate where
  /-- Bytes of the instruction before the field. -/
  start : Nat
  size : Nat
  signed : Bool
  value : Int

/-- The number in the code of an instruction. `NEWARRAY` and an interface call have an unsigned
byte; the latter counts the slots of the arguments and of the receiver. -/
def Instruction.immediate? : Instruction → Option Immediate
  | .immediate op v =>
    if op = .bipush then some ⟨1, 1, true, v.toInt⟩
    else if op = .sipush then some ⟨1, 2, true, v.toInt⟩
    else some ⟨1, 1, false, v.toInt⟩
  | .method op _ _ descriptor _ =>
    if op = .invokeinterface then some ⟨3, 1, false, argumentSlots descriptor + 1⟩ else none
  | _ => none

namespace Immediate

/-- How many numbers the field tells apart. -/
def range (f : Immediate) : Nat := 256 ^ f.size

/-- Signed fields are in two's complement. -/
def Fits (f : Immediate) : Prop :=
  if f.signed then -f.range ≤ 2 * f.value ∧ 2 * f.value < f.range
  else 0 ≤ f.value ∧ f.value < f.range

/-- The number in the field, from the first byte of the instruction on. -/
def read (f : Immediate) (code : List UInt8) : Int :=
  let n : Int := bigEndian ((code.drop f.start).take f.size)
  if f.signed then n.bmod f.range else n

/-- What the field keeps of the number. -/
def kept (f : Immediate) : Int :=
  if f.signed then f.value.bmod f.range else f.value % f.range

section

variable {f : Immediate} {code : List UInt8} {n range : Nat}

end

/-- What two's complement makes of a byte. -/
theorem bmod_toUInt8 (v : Int8) : (v.toUInt8.toNat : Int).bmod 256 = v.toInt :=
  (BitVec.toInt_eq_toNat_bmod v.toBitVec).symm

theorem toNat_toUInt8 (v : Int8) : (v.toUInt8.toNat : Int) = v.toInt % 256 := by
  have hlt := v.toUInt8.toNat_lt
  have hmod : (v.toUInt8.toNat : Int).bmod 256 % 256 = v.toUInt8.toNat % 256 := Int.bmod_emod
  rw [bmod_toUInt8] at hmod
  omega

section

variable {v : Int32} {rest : List UInt8} {op : Opcode}

end

end Immediate

/-! ## Writing -/

namespace Assembler

/-- What writing may lead to: the pool grows, a failure stays, and the code gets longer. -/
structure Continues (a b : Assembler) : Prop where
  becomes : a.encoding.Becomes b.encoding
  longer : a.code.toList <+: b.code.toList

namespace Continues

variable {a b c : Assembler}

theorem refl (h : a.encoding.pool.Wf) : Continues a a := ⟨.refl h, List.prefix_refl _⟩

theorem trans (hab : Continues a b) (hbc : Continues b c) : Continues a c :=
  ⟨hab.becomes.trans hbc.becomes, hab.longer.trans hbc.longer⟩

end Continues

theorem fail_becomes {a : Assembler} (h : a.encoding.pool.Wf) (e : PoolError) :
    a.encoding.Becomes (a.fail e).encoding :=
  Encoding.use_becomes h (.error e)

theorem bytes_continues {a : Assembler} {enc : Encoding} (h : a.encoding.Becomes enc)
    (bs : List UInt8) : Continues a ⟨enc, a.code ++ bs⟩ :=
  ⟨h, by simp⟩

section

variable {a : Assembler} (h : a.encoding.pool.Wf)
include h

theorem pooled_continues (r : Request) (form : UInt16 → List UInt8) :
    Continues a (a.pooled r form) := by
  have hask := Encoding.ask_becomes h r
  have huse := Encoding.use_becomes hask.wf (a.encoding.ask r).1
  exact bytes_continues (hask.trans huse) _

theorem immediate_continues (op : Opcode) (v : Int32) : Continues a (a.immediate op v) := by
  unfold immediate
  split
  · split
    · exact bytes_continues (.refl h) _
    · exact bytes_continues (fail_becomes h _) _
  · split
    · split
      · exact bytes_continues (.refl h) _
      · exact bytes_continues (fail_becomes h _) _
    · exact bytes_continues (.refl h) _

theorem write_continues (i : Instruction) : Continues a (a.write i) := by
  cases i with
  | plain op => exact bytes_continues (.refl h) _
  | immediate op v => exact immediate_continues h op v
  | push c => exact pooled_continues h _ _
  | slot op index => exact bytes_continues (.refl h) _
  | type op name => exact pooled_continues h (.classRef name) fun i => op :: u2 i
  | field op owner name descriptor =>
    exact pooled_continues h (.fieldRef owner name descriptor) fun i => op :: u2 i
  | method op owner name descriptor onInterface => exact pooled_continues h _ _

end

theorem foldl_continues {a : Assembler} (h : a.encoding.pool.Wf) (visits : List Instruction) :
    Continues a (visits.foldl write a) := by
  induction visits generalizing a with
  | nil => exact .refl h
  | cons i visits ih =>
    have hi := write_continues h i
    exact hi.trans (ih hi.becomes.wf)

/-! ## Operands in the code -/

section

variable {a : Assembler} {op : Opcode} {v : Int32} {f : Immediate}

end

end Assembler
end ClassSynthesis
