/-!
# ClassSynthesis.ClassFile.AccessFlags

The `access_flags` word of classes, fields and methods: a set of flags in sixteen bits. Some bits
mean different things on different carriers (`0x0040` is `bridge` on a method); only the readings
that decide how code is generated have a name here, the other bits are carried along.
-/

namespace ClassSynthesis

inductive AccessFlag where
  | pub
  | priv
  | static
  | final
  | super
  | bridge
  | interface
  | abstract
  | annotationType
  deriving DecidableEq

namespace AccessFlag

def mask : AccessFlag → UInt16
  | .pub => 0x0001
  | .priv => 0x0002
  | .static => 0x0008
  | .final => 0x0010
  | .super => 0x0020
  | .bridge => 0x0040
  | .interface => 0x0200
  | .abstract => 0x0400
  | .annotationType => 0x2000

end AccessFlag

structure Modifiers where
  bits : UInt16
  deriving DecidableEq

namespace Modifiers

def ofList (flags : List AccessFlag) : Modifiers :=
  ⟨flags.foldl (fun bits flag => bits ||| flag.mask) 0⟩

def has (m : Modifiers) (flag : AccessFlag) : Bool :=
  m.bits &&& flag.mask != 0

/-- What a class carries when nothing else is said. -/
def ofClass : Modifiers := ofList [.pub, .super]

def ofInterface : Modifiers := ofList [.pub, .interface, .abstract]

end Modifiers

end ClassSynthesis
