import ClassSynthesis.ClassFile.Opcode
import ClassSynthesis.Types.TypeDesc

/-!
# ClassSynthesis.Emission.ValueKind

How values are held in local variables and on the operand stack. Each kind has its own load,
store and return instruction; the small integer types share one.
-/

namespace ClassSynthesis

inductive ValueKind where
  | int
  | long
  | float
  | double
  | reference
  deriving DecidableEq

namespace ValueKind

/-- There is no value of type `void`. -/
def of (t : TypeDesc) : Option ValueKind :=
  match t.asPrimitive with
  | some .void => none
  | some .long => some .long
  | some .float => some .float
  | some .double => some .double
  | some _ => some .int
  | none => some .reference

def width : ValueKind → Width
  | .long | .double => .double
  | _ => .single

/-- Distance of the kind's instruction from the first of its family. -/
def offset : ValueKind → UInt8
  | .int => 0
  | .long => 1
  | .float => 2
  | .double => 3
  | .reference => 4

def loadOpcode (k : ValueKind) : Opcode := Opcode.iload + k.offset

def storeOpcode (k : ValueKind) : Opcode := Opcode.istore + k.offset

def returnOpcode : Option ValueKind → Opcode
  | none => .vreturn
  | some .int => .ireturn
  | some .long => .lreturn
  | some .float => .freturn
  | some .double => .dreturn
  | some .reference => .areturn

end ValueKind

end ClassSynthesis
