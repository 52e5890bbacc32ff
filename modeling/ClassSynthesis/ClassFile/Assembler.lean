import ClassSynthesis.ClassFile.ArgumentSlots
import ClassSynthesis.ClassFile.Encoding
import ClassSynthesis.ClassFile.Instruction

/-!
# ClassSynthesis.ClassFile.Assembler

The bytes of a `code` array. The assembler writes one instruction after another, resolving
symbolic operands against a constant pool, and picks the shortest form of loads, stores and
pooled constants. It never stops: the first failure is kept and reported by `finish`.
-/

namespace ClassSynthesis

structure Assembler where
  encoding : Encoding
  code : Array UInt8

namespace Assembler

def start (pool : ConstantPool) : Assembler := ⟨.start pool, #[]⟩

/-- Offset of the next instruction. -/
def offset (a : Assembler) : Nat := a.code.size

/-- The code array, or the first failure. -/
def finish (a : Assembler) : Except PoolError (Array UInt8) :=
  match a.encoding.failure with
  | some e => .error e
  | none => .ok a.code

def bytes (a : Assembler) (bs : List UInt8) : Assembler :=
  { a with code := a.code ++ bs }

def fail (a : Assembler) (e : PoolError) : Assembler :=
  { a with encoding := a.encoding.fail e }

/-- An instruction whose bytes depend on the pool index of a request. -/
def pooled (a : Assembler) (r : Request) (form : UInt16 → List UInt8) : Assembler :=
  match a with
  | ⟨encoding, code⟩ =>
    match encoding.resolve r with
    | (i, encoding) => ⟨encoding, code ++ form i⟩

/-- What the pool is asked for to push a constant. -/
def request : Loadable → Request
  | .number n => .number n
  | .string s => .string s
  | .type internalName => .classRef internalName
  | .methodType descriptor => .methodType descriptor

/-- Wide constants have one form; of the other two the short one reaches index 255. -/
def pushForm (wide : Bool) (index : UInt16) : List UInt8 :=
  if wide then Opcode.ldc2W :: u2 index
  else if index ≤ 255 then [Opcode.ldc, index.toUInt8]
  else Opcode.ldcW :: u2 index

/-- The first four slots have forms without operand, four to a kind of value. -/
def slotForm (op : Opcode) (index : UInt16) : List UInt8 :=
  if index ≤ 3 then
    let first :=
      if Opcode.istore ≤ op then Opcode.istore0 + (op - Opcode.istore) * 4
      else Opcode.iload0 + (op - Opcode.iload) * 4
    [first + index.toUInt8]
  else if index ≤ 255 then [op, index.toUInt8]
  else Opcode.wide :: op :: u2 index

/-- An interface call also states its argument slots, receiver included, and a zero byte. -/
def methodForm (op : Opcode) (descriptor : String) (index : UInt16) : List UInt8 :=
  if op = .invokeinterface then
    op :: u2 index ++ [UInt8.ofNat (argumentSlots descriptor + 1), 0]
  else op :: u2 index

/-- An operand that its field cannot hold is a failure for the two pushes and is cut off
silently elsewhere. -/
def immediate (a : Assembler) (op : Opcode) (operand : Int32) : Assembler :=
  if op = .bipush then
    let a := if operand.toInt8.toInt32 = operand then a
      else a.fail (.operandOutOfRange op operand.toInt)
    a.bytes [op, operand.toInt8.toUInt8]
  else if op = .sipush then
    let a := if operand.toInt16.toInt32 = operand then a
      else a.fail (.operandOutOfRange op operand.toInt)
    a.bytes (op :: u2 operand.toInt16.toUInt16)
  else a.bytes [op, operand.toInt8.toUInt8]

def write (a : Assembler) : Instruction → Assembler
  | .plain op => a.bytes [op]
  | .immediate op operand => a.immediate op operand
  | .push c => a.pooled (request c) (pushForm c.isWide)
  | .slot op index => a.bytes (slotForm op index)
  | .type op internalName => a.pooled (.classRef internalName) fun i => op :: u2 i
  | .field op owner name descriptor =>
    a.pooled (.fieldRef owner name descriptor) fun i => op :: u2 i
  | .method op owner name descriptor onInterface =>
    let r := if onInterface then .interfaceMethodRef owner name descriptor
      else Request.methodRef owner name descriptor
    a.pooled r (methodForm op descriptor)

def writeAll (a : Assembler) (code : Array Instruction) : Assembler :=
  code.foldl write a

end Assembler

end ClassSynthesis
