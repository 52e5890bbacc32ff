/-!
# ClassSynthesis.Types.Primitive

The primitive types, `void` among them, and the number of slots that a value takes on the operand
stack and in the local variable array.
-/

namespace ClassSynthesis

/-- How many operand stack or local variable slots a value takes. -/
inductive Width where
  | zero
  | single
  | double
  deriving DecidableEq

namespace Width

def slots : Width → Nat
  | .zero => 0
  | .single => 1
  | .double => 2

def max (a b : Width) : Width :=
  if a.slots < b.slots then b else a

end Width

inductive Primitive where
  | boolean
  | byte
  | char
  | short
  | int
  | long
  | float
  | double
  | void
  deriving DecidableEq

namespace Primitive

def all : List Primitive :=
  [.boolean, .byte, .char, .short, .int, .long, .float, .double, .void]

def name : Primitive → String
  | .boolean => "boolean"
  | .byte => "byte"
  | .char => "char"
  | .short => "short"
  | .int => "int"
  | .long => "long"
  | .float => "float"
  | .double => "double"
  | .void => "void"

def descriptor : Primitive → Char
  | .boolean => 'Z'
  | .byte => 'B'
  | .char => 'C'
  | .short => 'S'
  | .int => 'I'
  | .long => 'J'
  | .float => 'F'
  | .double => 'D'
  | .void => 'V'

def width : Primitive → Width
  | .void => .zero
  | .long | .double => .double
  | _ => .single

/-- Binary name of the class whose instances box the primitive; `void` is not boxed. -/
def wrapperName : Primitive → Option String
  | .boolean => some "java.lang.Boolean"
  | .byte => some "java.lang.Byte"
  | .char => some "java.lang.Character"
  | .short => some "java.lang.Short"
  | .int => some "java.lang.Integer"
  | .long => some "java.lang.Long"
  | .float => some "java.lang.Float"
  | .double => some "java.lang.Double"
  | .void => none

/-- The primitive that the class of the given binary name boxes. -/
def ofWrapperName (name : String) : Option Primitive :=
  all.find? fun p => p.wrapperName == some name

/-- The primitive of the given keyword. -/
def ofName (name : String) : Option Primitive :=
  all.find? fun p => p.name == name

end Primitive

end ClassSynthesis
