import ClassSynthesis.ClassFile.Version
import ClassSynthesis.Draft.Initializer
import ClassSynthesis.Draft.Naming
import ClassSynthesis.Draft.TypeName
import ClassSynthesis.Types.Member

/-!
# ClassSynthesis.Draft.Snapshot

A type under construction. It starts as a subclass without members; each addition makes a new
snapshot with the next version and leaves the old one as it is. Fields are told apart by name and
descriptor, methods by signature.

* `Snapshot.describe` is the type as generated code sees it.
* `withField`, `withMethod`, `withInitializer` add to a snapshot, `detach` drops what is still to
  run after loading.
-/

namespace ClassSynthesis

structure FieldToken where
  name : String
  type : TypeDesc
  modifiers : Modifiers

namespace FieldToken

def descriptor (f : FieldToken) : String := f.type.descriptor

def signature (f : FieldToken) : String := f.name ++ ":" ++ f.descriptor

def clashesWith (f g : FieldToken) : Bool :=
  f.name == g.name && f.descriptor == g.descriptor

def describe (f : FieldToken) (owner : TypeDesc) : FieldDesc :=
  ⟨owner, f.name, f.type, f.modifiers⟩

end FieldToken

structure MethodToken where
  name : String
  returns : TypeDesc
  parameters : List TypeDesc
  exceptions : List TypeDesc
  modifiers : Modifiers

namespace MethodToken

def descriptor (m : MethodToken) : String := methodDescriptor m.parameters m.returns

def signature (m : MethodToken) : String := m.name ++ m.descriptor

def describe (m : MethodToken) (owner : TypeDesc) : MethodDesc :=
  ⟨owner, m.name, m.returns, m.parameters, m.modifiers, m.exceptions⟩

end MethodToken

structure Snapshot where
  version : Nat
  classFile : ClassFileVersion
  superclass : TypeDesc
  interfaces : List TypeDesc
  modifiers : Modifiers
  name : String
  fields : List FieldToken
  methods : List MethodToken
  initializer : Initializer

namespace Snapshot

/-- The first snapshot of a subclass with the given name. -/
def named (name : String) (classFile : ClassFileVersion) (superclass : TypeDesc)
    (interfaces : List TypeDesc) (modifiers : Modifiers) : Except Error Snapshot :=
  match TypeName.fault? name superclass interfaces with
  | some fault => .error (.illegalName name fault)
  | none =>
    .ok { version := 0, classFile, superclass, interfaces, modifiers, name, fields := [],
          methods := [], initializer := .nothing }

/-- The first snapshot of a subclass, and the naming of the types to come. A name that is refused
is used up all the same. -/
def subclass (classFile : ClassFileVersion) (superclass : TypeDesc) (interfaces : List TypeDesc)
    (modifiers : Modifiers) (naming : Naming) : Except Error Snapshot × Naming :=
  let (name, naming) := naming.next superclass
  (named name classFile superclass interfaces modifiers, naming)

def withField (s : Snapshot) (f : FieldToken) : Except Error Snapshot :=
  if s.fields.any fun g => g.clashesWith f then
    .error (.duplicateMember .field f.signature s.name)
  else .ok { s with version := s.version + 1, fields := s.fields ++ [f] }

def withMethod (s : Snapshot) (m : MethodToken) : Except Error Snapshot :=
  if s.methods.any fun n => n.signature == m.signature then
    .error (.duplicateMember .method m.signature s.name)
  else .ok { s with version := s.version + 1, methods := s.methods ++ [m] }

/-- What is to run already runs first. -/
def withInitializer (s : Snapshot) (i : Initializer) : Snapshot :=
  { s with version := s.version + 1, initializer := .sequence [s.initializer, i] }

def detach (s : Snapshot) : Snapshot := { s with initializer := .nothing }

def internalName (s : Snapshot) : String := TypeDesc.slashed s.name

def isInterface (s : Snapshot) : Bool := s.modifiers.has .interface

/-- An interface has no supertype. -/
def supertype (s : Snapshot) : Option TypeDesc :=
  if s.isInterface then none else some s.superclass

/-- The annotations that the type inherits: those of its superclass that are kept at run time. -/
def annotations (s : Snapshot) : List Annotation :=
  s.superclass.annotations.filter Annotation.isRuntimeRetained

def annotation? (s : Snapshot) (type : TypeDesc) : Option Annotation :=
  s.annotations.find? fun a => a.type == type

def describe (s : Snapshot) : TypeDesc :=
  Declaration.type {
    name := s.name
    modifiers := s.modifiers
    superclass := if s.isInterface then .nothing else .type s.superclass
    interfaces := s.interfaces
    annotations := s.annotations }

def fieldDescriptions (s : Snapshot) : List FieldDesc :=
  s.fields.map fun f => f.describe s.describe

def methodDescriptions (s : Snapshot) : List MethodDesc :=
  s.methods.map fun m => m.describe s.describe

/-- Whether anything is still to run after loading. -/
def isPending (s : Snapshot) : Bool := s.initializer.isAlive

/-- Runs what is pending against the type that was loaded. -/
def load (s : Snapshot) : Initializer.Run := s.initializer.run s.describe

def text (s : Snapshot) : String :=
  s.name ++ " extends " ++ s.superclass.sourceName ++ " (v" ++ toString s.version ++ ")"

end Snapshot

end ClassSynthesis
