import ClassSynthesis.Emission.Operation

/-!
# ClassSynthesis.Emission.Fragment

Fragments of code: operations, sequences of fragments, and arrays filled by fragments. Emitting a
fragment yields its instructions in order and its effect on the operand stack.

An `Emission` that met an operation without instructions stops there: it holds the instructions up
to that point and the `Misuse`. Emissions compose with `andThen`, so the emission of a sequence is
that of its parts one after another, however they are grouped.
-/

namespace ClassSynthesis

structure Emission where
  code : Array Instruction
  outcome : Except Misuse StackEffect

namespace Emission

def nothing : Emission := ⟨#[], .ok .zero⟩

/-- `b` after `a`, unless `a` was stopped. -/
def andThen (a b : Emission) : Emission :=
  match a with
  | ⟨code, .error e⟩ => ⟨code, .error e⟩
  | ⟨code, .ok s⟩ =>
    ⟨code ++ b.code, match b.outcome with
      | .ok s' => .ok (s.andThen s')
      | .error e => .error e⟩

end Emission

def Operation.emit (version : ClassFileVersion) (o : Operation) : Emission :=
  match o.misuse? with
  | some e => ⟨#[], .error e⟩
  | none => ⟨(o.instructions version).toArray, .ok o.effect⟩

inductive Fragment where
  | op (o : Operation)
  | sequence (items : List Fragment)
  /-- A new array of the component type, holding the values that the fragments push. -/
  | newArray (component : TypeDesc) (values : List Fragment)

namespace Fragment

def illegal : Fragment := .op .illegal

/-- A call on the declaring type moved to other receivers, illegal for a type initializer and after
a move that is refused. -/
def callVia (m : MethodDesc) (moves : List Retarget) : Fragment :=
  match CallSite.of m with
  | .ok c =>
    match c.retargetAll? moves with
    | some c => .op (.call c)
    | none => illegal
  | .error _ => illegal

/-- A call on the declaring type. -/
def call (m : MethodDesc) : Fragment := callVia m []

/-- There is no local variable of type `void`. -/
def load (t : TypeDesc) (slot : UInt16) : Fragment :=
  match ValueKind.of t with
  | some kind => .op (.loadSlot kind slot)
  | none => illegal

def store (t : TypeDesc) (slot : UInt16) : Fragment :=
  match ValueKind.of t with
  | some kind => .op (.storeSlot kind slot)
  | none => illegal

/-- Loads of consecutive variables of the given types, from a slot on. -/
def loadsFrom (slot : UInt16) : List TypeDesc → List Fragment
  | [] => []
  | t :: ts => load t slot :: loadsFrom (slot + .ofNat t.width.slots) ts

/-- Loads of the receiver, if there is one, and of every argument of a method. -/
def loadArguments (m : MethodDesc) : Fragment :=
  if m.isStatic then .sequence (loadsFrom 0 m.parameters)
  else .sequence (.op (.loadSlot .reference 0) :: loadsFrom 1 m.parameters)

/-- Return of a value of the given type. -/
def returning (t : TypeDesc) : Fragment := .op (.leave (ValueKind.of t))

/-! ## Validity -/

mutual

def isValid : Fragment → Bool
  | .op o => o.isValid
  | .sequence items => allValid items
  | .newArray component values => !component.isVoid && allValid values

def allValid : List Fragment → Bool
  | [] => true
  | f :: fs => f.isValid && allValid fs

end

/-! ## Emission -/

/-- Operand of `NEWARRAY` for a primitive component. -/
def arrayCode : Primitive → Int32
  | .boolean => 4
  | .char => 5
  | .float => 6
  | .double => 7
  | .byte => 8
  | .short => 9
  | .int => 10
  | .long => 11
  | .void => 0

/-- Turns the length on the operand stack into an array of that length. -/
def allocation (component : TypeDesc) : Instruction :=
  match component.asPrimitive with
  | some p => .immediate .newarray (arrayCode p)
  | none => .type .anewarray component.internalName

/-- The length is pushed and replaced by the array, which takes the same slot. -/
def emptyArray (component : TypeDesc) (length : Nat) : Emission :=
  ⟨#[Operation.pushInt (.ofNat length), allocation component],
    .ok (.push .single)⟩

mutual

def emit (version : ClassFileVersion) : Fragment → Emission
  | .op o => o.emit version
  | .sequence items => emitAll version .nothing items
  | .newArray component values =>
    emitElements version component 0 (emptyArray component values.length) values

/-- The fragments one after another, following `before`. -/
def emitAll (version : ClassFileVersion) (before : Emission) : List Fragment → Emission
  | [] => before
  | f :: fs => emitAll version (before.andThen (f.emit version)) fs

/-- Stores of the values from an index on, each between a copy of the array and its index. -/
def emitElements (version : ClassFileVersion) (component : TypeDesc) (index : Nat)
    (before : Emission) : List Fragment → Emission
  | [] => before
  | f :: fs =>
    let target := (before.andThen ((Operation.duplicate .single).emit version)).andThen
      ((Operation.number (.int (.ofNat index))).emit version)
    let stored := (target.andThen (f.emit version)).andThen
      ((Operation.storeElement component).emit version)
    emitElements version component (index + 1) stored fs

end

end Fragment

end ClassSynthesis
