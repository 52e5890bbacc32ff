import ClassSynthesis.ClassFile.Opcode
import ClassSynthesis.Types.Number

/-!
# ClassSynthesis.ClassFile.Instruction

Instructions with symbolic operands: types and members by name, pooled constants by value, local
variables by slot. Which of the short or wide byte forms an instruction takes is left to the
assembler.
-/

namespace ClassSynthesis

/-- A constant that `ldc` pushes. `type` holds an internal name, `methodType` a descriptor. -/
inductive Loadable where
  | number (n : Number)
  | string (s : String)
  | type (internalName : String)
  | methodType (descriptor : String)
  deriving DecidableEq

/-- Operand stack slots of the constant. -/
def Loadable.width : Loadable → Width
  | .number n => n.width
  | _ => .single

def Loadable.isWide (c : Loadable) : Bool := c.width == .double

inductive Instruction where
  /-- An instruction without operands. -/
  | plain (op : Opcode)
  /-- `BIPUSH`, `SIPUSH` or `NEWARRAY`. -/
  | immediate (op : Opcode) (operand : Int32)
  | push (constant : Loadable)
  | slot (op : Opcode) (index : UInt16)
  | type (op : Opcode) (internalName : String)
  | field (op : Opcode) (owner name descriptor : String)
  | method (op : Opcode) (owner name descriptor : String) (onInterface : Bool)
  deriving DecidableEq

namespace Instruction

def opcode : Instruction → Opcode
  | .plain op => op
  | .immediate op _ => op
  | .push c => if c.isWide then .ldc2W else .ldc
  | .slot op _ => op
  | .type op _ => op
  | .field op _ _ _ => op
  | .method op _ _ _ _ => op

end Instruction

end ClassSynthesis
