import ClassSynthesis.Types.Assignable

/-!
# ClassSynthesis.Types.Member

Descriptions of methods and fields. A method is known by its signature, the name followed by the
descriptor; constructors and type initializers are methods with reserved names.
-/

namespace ClassSynthesis

def constructorName : String := "<init>"

def typeInitializerName : String := "<clinit>"

/-- Operand stack slots of a list of values. -/
def slotsOf (types : List TypeDesc) : Nat :=
  types.foldl (fun n t => n + t.width.slots) 0

def descriptorsOf (types : List TypeDesc) : String :=
  String.join (types.map TypeDesc.descriptor)

/-- Internal names of the types, if there are any. -/
def internalNamesOf (types : List TypeDesc) : Option (List String) :=
  if types.isEmpty then none else some (types.map TypeDesc.internalName)

/-- Whether two lists hold equal types in the same order. -/
def sameTypes (ts us : List TypeDesc) : Bool :=
  ts.length == us.length && (ts.zip us).all fun (t, u) => t == u

def methodDescriptor (parameters : List TypeDesc) (returns : TypeDesc) : String :=
  "(" ++ descriptorsOf parameters ++ ")" ++ returns.descriptor

structure MethodDesc where
  owner : TypeDesc
  name : String
  returns : TypeDesc
  parameters : List TypeDesc
  modifiers : Modifiers
  exceptions : List TypeDesc := []

namespace MethodDesc

def constructor (owner : TypeDesc) (parameters : List TypeDesc) (modifiers : Modifiers) :
    MethodDesc :=
  { owner, name := constructorName, returns := .void, parameters, modifiers }

def typeInitializer (owner : TypeDesc) : MethodDesc :=
  { owner, name := typeInitializerName, returns := .void, parameters := [],
    modifiers := .ofList [.static] }

def descriptor (m : MethodDesc) : String := methodDescriptor m.parameters m.returns

/-- Name and descriptor, which tell a method from the others of its type. -/
def signature (m : MethodDesc) : String := m.name ++ m.descriptor

def isStatic (m : MethodDesc) : Bool := m.modifiers.has .static

def isPrivate (m : MethodDesc) : Bool := m.modifiers.has .priv

def isAbstract (m : MethodDesc) : Bool := m.modifiers.has .abstract

def isBridge (m : MethodDesc) : Bool := m.modifiers.has .bridge

def isConstructor (m : MethodDesc) : Bool := m.name == constructorName

def isTypeInitializer (m : MethodDesc) : Bool := m.name == typeInitializerName

/-- A method with a body that an interface hands to the classes implementing it. -/
def isDefault (m : MethodDesc) : Bool :=
  m.owner.isInterface && !m.isAbstract && !m.isStatic && !m.isPrivate && !m.isBridge &&
    !m.isTypeInitializer

/-- Slots that a call takes from the operand stack: the arguments, and the receiver if any. -/
def argumentSlots (m : MethodDesc) : Nat :=
  slotsOf m.parameters + if m.isStatic then 0 else 1

/-- Whether the method may be called on `target` without dynamic dispatch. -/
def isSpecializableFor (m : MethodDesc) (target : TypeDesc) : Bool :=
  if m.isStatic || m.isTypeInitializer then false
  else if m.isPrivate || m.isConstructor || m.isDefault then m.owner == target
  else !m.isAbstract && m.owner.isAssignableFrom target

def text (m : MethodDesc) : String :=
  m.returns.sourceName ++ " " ++ m.owner.sourceName ++ "." ++ m.name ++ "(" ++
    ", ".intercalate (m.parameters.map TypeDesc.sourceName) ++ ")"

/-- Equality of every part, types being compared as types. -/
def same (m n : MethodDesc) : Bool :=
  m.owner == n.owner && m.name == n.name && m.returns == n.returns &&
    sameTypes m.parameters n.parameters && sameTypes m.exceptions n.exceptions &&
    m.modifiers == n.modifiers

instance : BEq MethodDesc := ⟨same⟩

instance : Hashable MethodDesc :=
  ⟨fun m => hash (m.owner, m.name, m.returns, m.parameters, m.exceptions, m.modifiers.bits)⟩

end MethodDesc

structure FieldDesc where
  owner : TypeDesc
  name : String
  type : TypeDesc
  modifiers : Modifiers

namespace FieldDesc

def descriptor (f : FieldDesc) : String := f.type.descriptor

def isStatic (f : FieldDesc) : Bool := f.modifiers.has .static

def text (f : FieldDesc) : String :=
  f.type.sourceName ++ " " ++ f.owner.sourceName ++ "." ++ f.name

end FieldDesc

end ClassSynthesis
