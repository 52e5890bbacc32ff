import ClassSynthesis.ClassFile.Version
import ClassSynthesis.Emission.CallSite
import ClassSynthesis.Emission.ValueKind

/-!
# ClassSynthesis.Emission.Operation

The single steps that code is put together from: constants, access to fields, local variables and
array elements, calls, conversions. Each step has the instructions that perform it, its effect on
the operand stack, and a condition under which it makes sense.

* `Operation.instructions` picks the shortest form of a constant; which form that is depends on the
  value and, for class literals, on the class file version.
* `Operation.misuse?` names the steps for which there are no instructions at all. Such a step is
  invalid, but a step may be invalid and still have instructions, such as `NEW` of an interface.
-/

namespace ClassSynthesis

inductive Operation where
  | number (n : Number)
  | text (s : String)
  | null
  | classLiteral (t : TypeDesc)
  | methodType (descriptor : String)
  /-- Zero, `null`, or nothing for `void`. -/
  | defaultValue (t : TypeDesc)
  | getField (f : FieldDesc)
  | putField (f : FieldDesc)
  | loadSlot (kind : ValueKind) (slot : UInt16)
  | storeSlot (kind : ValueKind) (slot : UInt16)
  | leave (kind : Option ValueKind)
  | duplicate (w : Width)
  | remove (w : Width)
  /-- Allocation, with the instance still to be constructed. -/
  | create (t : TypeDesc)
  | cast (t : TypeDesc)
  | throw
  | loadElement (component : TypeDesc)
  | storeElement (component : TypeDesc)
  | call (c : CallSite)
  /-- A primitive conversion in one instruction. -/
  | convert (op : Opcode) (impact : Int)
  | nothing
  | illegal

/-- What is wrong with emitting code that does not exist. -/
inductive Misuse where
  | illegalOperation
  | voidElement
  deriving DecidableEq

namespace Misuse

def message : Misuse → String
  | .illegalOperation => "An illegal stack manipulation must not be applied"
  | .voidElement => "An array of void cannot be accessed"

end Misuse

namespace Operation

/-! ## Choice of instructions -/

/-- `ICONST_M1` to `ICONST_5`, then one byte, then two, then the pool. -/
def pushInt (v : Int32) : Instruction :=
  if -1 ≤ v ∧ v ≤ 5 then .plain (Opcode.iconst0 + v.toInt8.toUInt8)
  else if v.toInt8.toInt32 = v then .immediate .bipush v
  else if v.toInt16.toInt32 = v then .immediate .sipush v
  else .push (.number (.int v))

def pushLong (v : Int64) : Instruction :=
  if v = 0 then .plain .lconst0
  else if v = 1 then .plain .lconst1
  else .push (.number (.long v))

/-- Goes by the bits, so that negative zero is pooled: 0.0, 1.0 and 2.0 have instructions. -/
def pushFloat (bits : UInt32) : Instruction :=
  if bits = 0 then .plain .fconst0
  else if bits = 0x3f800000 then .plain .fconst1
  else if bits = 0x40000000 then .plain .fconst2
  else .push (.number (.float bits))

/-- 0.0 and 1.0 have instructions. -/
def pushDouble (bits : UInt64) : Instruction :=
  if bits = 0 then .plain .dconst0
  else if bits = 0x3ff0000000000000 then .plain .dconst1
  else .push (.number (.double bits))

def pushNumber : Number → Instruction
  | .int v => pushInt v
  | .long v => pushLong v
  | .float bits => pushFloat bits
  | .double bits => pushDouble bits

/-- Internal name of the class that holds the class object of a primitive. -/
def typeFieldOwner (p : Primitive) : String :=
  TypeDesc.slashed (p.wrapperName.getD "java.lang.Void")

/-- The class object of a primitive is in a static field; that of any other type is pooled, or
looked up by name for class files whose `ldc` cannot push it. -/
def pushClass (version : ClassFileVersion) (t : TypeDesc) : List Instruction :=
  match t.asPrimitive with
  | some p => [.field .getstatic (typeFieldOwner p) "TYPE" "Ljava/lang/Class;"]
  | none =>
    if version.supportsClassConstants then [.push (.type t.internalName)]
    else [.push (.string t.name),
      .method .invokestatic "java/lang/Class" "forName" "(Ljava/lang/String;)Ljava/lang/Class;"
        false]

def pushDefault (t : TypeDesc) : List Instruction :=
  match ValueKind.of t with
  | none => []
  | some .int => [.plain .iconst0]
  | some .long => [.plain .lconst0]
  | some .float => [.plain .fconst0]
  | some .double => [.plain .dconst0]
  | some .reference => [.plain .aconstNull]

/-- The element load of an array with the given component type. -/
def elementLoad? (component : TypeDesc) : Option Opcode :=
  match component.asPrimitive with
  | none => some .aaload
  | some .boolean | some .byte => some .baload
  | some .char => some .caload
  | some .short => some .saload
  | some .int => some .iaload
  | some .long => some .laload
  | some .float => some .faload
  | some .double => some .daload
  | some .void => none

/-- Element stores are numbered like the loads. -/
def elementStore? (component : TypeDesc) : Option Opcode :=
  (elementLoad? component).map (· + (Opcode.iastore - Opcode.iaload))

def fieldInstruction (op : Opcode) (f : FieldDesc) : Instruction :=
  .field op f.owner.internalName f.name f.descriptor

/-- Slots of the object that holds a field. -/
def holderSlots (f : FieldDesc) : Nat :=
  if f.isStatic then 0 else 1

def duplicateInstructions : Width → List Instruction
  | .zero => []
  | .single => [.plain .dup]
  | .double => [.plain .dup2]

def removeInstructions : Width → List Instruction
  | .zero => []
  | .single => [.plain .pop]
  | .double => [.plain .pop2]

/-! ## The three views of an operation -/

/-- Steps that have no instructions. -/
def misuse? : Operation → Option Misuse
  | .illegal => some .illegalOperation
  | .loadElement c | .storeElement c => if c.isVoid then some .voidElement else none
  | _ => none

def isValid : Operation → Bool
  | .illegal => false
  | .loadElement c | .storeElement c => !c.isVoid
  | .create t =>
    !t.isPrimitive && !t.isArray && !t.modifiers.has .abstract && !t.modifiers.has .interface
  | .cast t => !t.isPrimitive
  | _ => true

def instructions (version : ClassFileVersion) : Operation → List Instruction
  | .number n => [pushNumber n]
  | .text s => [.push (.string s)]
  | .null => [.plain .aconstNull]
  | .classLiteral t => pushClass version t
  | .methodType descriptor => [.push (.methodType descriptor)]
  | .defaultValue t => pushDefault t
  | .getField f => [fieldInstruction (if f.isStatic then .getstatic else .getfield) f]
  | .putField f => [fieldInstruction (if f.isStatic then .putstatic else .putfield) f]
  | .loadSlot kind slot => [.slot kind.loadOpcode slot]
  | .storeSlot kind slot => [.slot kind.storeOpcode slot]
  | .leave kind => [.plain (ValueKind.returnOpcode kind)]
  | .duplicate w => duplicateInstructions w
  | .remove w => removeInstructions w
  | .create t => [.type .new t.internalName]
  | .cast t => [.type .checkcast t.internalName]
  | .throw => [.plain .athrow]
  | .loadElement c => (elementLoad? c).toList.map .plain
  | .storeElement c => (elementStore? c).toList.map .plain
  | .call c => [c.instruction]
  | .convert op _ => [.plain op]
  | .nothing => []
  | .illegal => []

def effect : Operation → StackEffect
  | .number n => .push n.width
  | .text _ | .null | .classLiteral _ | .methodType _ => .push .single
  | .defaultValue t => .push t.width
  | .getField f => .shift (f.type.width.slots - holderSlots f)
  | .putField f => .shift (-(f.type.width.slots + holderSlots f))
  | .loadSlot kind _ => .push kind.width
  | .storeSlot kind _ => .pop kind.width
  | .leave kind => .pop ((kind.map ValueKind.width).getD .zero)
  | .duplicate w => .push w
  | .remove w => .pop w
  | .create _ => .push .single
  | .cast _ => .zero
  | .throw => .pop .single
  | .loadElement c => .shift (c.width.slots - 2)
  | .storeElement c => .shift (-(2 + c.width.slots))
  | .call c => c.effect
  | .convert _ impact => .shift impact
  | .nothing => .zero
  | .illegal => .zero

end Operation

end ClassSynthesis
