import ClassSynthesis.ClassFile.AccessFlags
import ClassSynthesis.Types.Number

/-!
# ClassSynthesis.Types.TypeDesc

Descriptions of types and of the annotations that types carry. A `TypeDesc` is a primitive, an
array, or a declared class or interface. A declared type is described by what code generation
needs to know of it, so the class itself need not exist anywhere.

Annotations are typed member tables: a `Value` is typed by its constructor, and a member whose
value could not be obtained is `Member.unreadable`, with the reason.

* `TypeDesc.descriptor`, `internalName`, `name`, `sourceName` are the four spellings of a type.
* `TypeDesc.same` is equality of types: declared types are equal when their names are.
-/

namespace ClassSynthesis

/-- How long an annotation is kept. -/
inductive Retention where
  | source
  | classFile
  | runtime
  deriving DecidableEq

/-- A constant that does not mention a type. -/
inductive Scalar where
  | boolean (b : Bool)
  | byte (v : Int8)
  | char (unit : UInt16)
  | short (v : Int16)
  | number (n : Number)
  | string (s : String)
  deriving DecidableEq

mutual

inductive TypeDesc where
  | primitive (p : Primitive)
  | array (component : TypeDesc)
  | declared (name : String) (modifiers : Modifiers) (superclass : Option TypeDesc)
      (interfaces : List TypeDesc) (annotations : List Annotation)

/-- An annotation instance: its type, the retention that type declares, and its members in
declaration order. -/
inductive Annotation where
  | mk (type : TypeDesc) (retention : Option Retention) (members : List Member)

inductive Member where
  | readable (name : String) (value : Value)
  | unreadable (name reason : String)

inductive Value where
  | scalar (s : Scalar)
  | type (t : TypeDesc)
  | enum (type : TypeDesc) (constant : String)
  | nested (a : Annotation)
  | array (elements : List Value)

end

namespace Annotation

def type : Annotation → TypeDesc
  | .mk t _ _ => t

def retention : Annotation → Option Retention
  | .mk _ r _ => r

def members : Annotation → List Member
  | .mk _ _ ms => ms

def isRuntimeRetained (a : Annotation) : Bool :=
  a.retention == some .runtime

end Annotation

namespace TypeDesc

instance : Inhabited TypeDesc := ⟨.primitive .void⟩

def void : TypeDesc := .primitive .void

/-! ## Spellings -/

/-- A binary name as class files write it. -/
def slashed (name : String) : String :=
  name.map fun c => if c = '.' then '/' else c

/-- Undoes `slashed` on a name that holds no slash. -/
def dotted (name : String) : String :=
  name.map fun c => if c = '/' then '.' else c

def descriptor : TypeDesc → String
  | .primitive p => p.descriptor.toString
  | .array c => "[" ++ c.descriptor
  | .declared name _ _ _ _ => "L" ++ slashed name ++ ";"

/-- How constant pool entries name a type: an array is named by its descriptor. -/
def internalName : TypeDesc → String
  | .primitive p => p.name
  | .array c => (TypeDesc.array c).descriptor
  | .declared name _ _ _ _ => slashed name

/-- The binary name, as reflection reports it. -/
def name : TypeDesc → String
  | .primitive p => p.name
  | .array c => dotted (TypeDesc.array c).descriptor
  | .declared name _ _ _ _ => name

/-- The name as source code writes it. -/
def sourceName : TypeDesc → String
  | .primitive p => p.name
  | .array c => c.sourceName ++ "[]"
  | .declared name _ _ _ _ => name

/-! ## Properties -/

def width : TypeDesc → Width
  | .primitive p => p.width
  | _ => .single

def asPrimitive : TypeDesc → Option Primitive
  | .primitive p => some p
  | _ => none

def isPrimitive (t : TypeDesc) : Bool := t.asPrimitive.isSome

def isVoid (t : TypeDesc) : Bool := t.asPrimitive == some .void

def component : TypeDesc → Option TypeDesc
  | .array c => some c
  | _ => none

def isArray (t : TypeDesc) : Bool := t.component.isSome

/-- Primitives and arrays count as public, final and abstract. -/
def modifiers : TypeDesc → Modifiers
  | .declared _ m _ _ _ => m
  | _ => .ofList [.pub, .final, .abstract]

def isInterface (t : TypeDesc) : Bool := t.modifiers.has .interface

def isAnnotation (t : TypeDesc) : Bool := t.modifiers.has .annotationType

/-- Annotations declared on the type, whatever their retention. -/
def annotations : TypeDesc → List Annotation
  | .declared _ _ _ _ as => as
  | _ => []

/-! ## Equality -/

def same : TypeDesc → TypeDesc → Bool
  | .primitive p, .primitive q => p == q
  | .array a, .array b => a.same b
  | .declared m _ _ _ _, .declared n _ _ _ _ => m == n
  | _, _ => false

instance : BEq TypeDesc := ⟨same⟩

/-- Equal types have equal descriptors, so a hash may go by those. -/
instance : Hashable TypeDesc := ⟨fun t => hash t.descriptor⟩

/-- An array of `t` with the given number of dimensions. -/
def arrayOf (t : TypeDesc) : Nat → TypeDesc
  | 0 => t
  | n + 1 => .array (arrayOf t n)

end TypeDesc

end ClassSynthesis
