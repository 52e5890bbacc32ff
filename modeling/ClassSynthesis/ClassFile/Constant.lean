import ClassSynthesis.ClassFile.ModifiedUtf8
import ClassSynthesis.Types.Number

/-!
# ClassSynthesis.ClassFile.Constant

Constant pool entries and their `cp_info` bytes: a tag, then the content in big-endian order.
Entries refer to each other by pool index.
-/

namespace ClassSynthesis

/-- Big-endian bytes of a `u2`. -/
def u2 (v : UInt16) : List UInt8 :=
  [(v >>> 8).toUInt8, v.toUInt8]

/-- Big-endian bytes of a `u4`. -/
def u4 (v : UInt32) : List UInt8 :=
  [(v >>> 24).toUInt8, (v >>> 16).toUInt8, (v >>> 8).toUInt8, v.toUInt8]

/-- Big-endian bytes of eight octets. -/
def u8 (v : UInt64) : List UInt8 :=
  [(v >>> 56).toUInt8, (v >>> 48).toUInt8, (v >>> 40).toUInt8, (v >>> 32).toUInt8,
    (v >>> 24).toUInt8, (v >>> 16).toUInt8, (v >>> 8).toUInt8, v.toUInt8]

/-- An entry of the pool. -/
inductive Constant where
  | utf8 (s : String)
  | number (n : Number)
  | classRef (name : UInt16)
  | string (text : UInt16)
  | fieldRef (owner nameAndType : UInt16)
  | methodRef (owner nameAndType : UInt16)
  | interfaceMethodRef (owner nameAndType : UInt16)
  | nameAndType (name descriptor : UInt16)
  | methodType (descriptor : UInt16)
  deriving DecidableEq

namespace Constant

def tag : Constant → UInt8
  | .utf8 _ => 1
  | .number (.int _) => 3
  | .number (.float _) => 4
  | .number (.long _) => 5
  | .number (.double _) => 6
  | .classRef _ => 7
  | .string _ => 8
  | .fieldRef .. => 9
  | .methodRef .. => 10
  | .interfaceMethodRef .. => 11
  | .nameAndType .. => 12
  | .methodType _ => 16

def content : Constant → List UInt8
  | .utf8 s =>
    let encoded := ModifiedUtf8.encode s
    u2 (.ofNat encoded.length) ++ encoded
  | .number (.int v) => u4 v.toUInt32
  | .number (.float bits) => u4 bits
  | .number (.long v) => u8 v.toUInt64
  | .number (.double bits) => u8 bits
  | .classRef i | .string i | .methodType i => u2 i
  | .fieldRef i j | .methodRef i j | .interfaceMethodRef i j | .nameAndType i j => u2 i ++ u2 j

def bytes (c : Constant) : List UInt8 := c.tag :: c.content

/-- Pool indices that the entry takes: two for `long` and `double`. -/
def width : Constant → UInt16
  | .number (.long _) | .number (.double _) => 2
  | _ => 1

end Constant

end ClassSynthesis
