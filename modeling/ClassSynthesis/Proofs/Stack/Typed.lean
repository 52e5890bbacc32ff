import Mathlib
import ClassSynthesis.Emission.Fragment
import ClassSynthesis.Proofs.Types.Sameness

/-!
# ClassSynthesis.Proofs.Stack.Typed

The operand stack by the types of its values. An instruction that meets an operand of another type
than it works on is stuck, and so is every instruction that is not among those below: constants,
the removal of a value, widening conversions, casts, and the two methods of a wrapper class, of
which one takes the primitive and the other a reference to the wrapper.

* `run types code stack`: the stack after the code. Casts find their type by its internal name in
  `types`.
* `Runs types e before after`: the code of an emission takes the operands `before` to `after`
  whatever is below them, and the effect that is accounted for is the difference in slots.
-/

namespace ClassSynthesis
namespace TypedMachine

/-- The type of an operand. The small integer types look like `int`. -/
inductive Operand where
  | int
  | long
  | float
  | double
  | null
  | reference (t : TypeDesc)
  deriving BEq

namespace Operand

def slots : Operand → Nat
  | .long | .double => 2
  | _ => 1

def ofPrimitive? : Primitive → Option Operand
  | .boolean | .byte | .char | .short | .int => some .int
  | .long => some .long
  | .float => some .float
  | .double => some .double
  | .void => none

@[simp] theorem beq_refl (o : Operand) : (o == o) = true := by
  cases o with
  | reference t => exact TypeDesc.beq_refl t
  | int | long | float | double | null => rfl

end Operand

/-- What the stack holds of one value of a type. -/
def valueOf : TypeDesc → List Operand
  | .primitive p => (Operand.ofPrimitive? p).toList
  | t => [.reference t]

def slots (stack : List Operand) : Nat := (stack.map Operand.slots).sum

theorem slots_valueOf (t : TypeDesc) : slots (valueOf t) = t.width.slots := by
  rcases t with p | c | _
  · cases p <;> rfl
  · rfl
  · rfl

theorem valueOf_of_asPrimitive {t : TypeDesc} (h : t.asPrimitive = none) :
    valueOf t = [.reference t] := by
  cases t with
  | primitive q => cases h
  | array c => rfl
  | declared => rfl

/-! ## Instructions -/

def constant? (op : Opcode) : Option Operand :=
  if op = 0x01 then some .null -- ACONST_NULL
  else if 0x02 ≤ op ∧ op ≤ 0x08 then some .int -- ICONST
  else if 0x09 ≤ op ∧ op ≤ 0x0a then some .long -- LCONST
  else if 0x0b ≤ op ∧ op ≤ 0x0d then some .float -- FCONST
  else if 0x0e ≤ op ∧ op ≤ 0x0f then some .double -- DCONST
  else none

/-- The conversions that keep the magnitude. -/
def converted? (op : Opcode) : Operand → Option Operand
  | .int =>
    if op = 0x85 then some .long -- I2L
    else if op = 0x86 then some .float -- I2F
    else if op = 0x87 then some .double -- I2D
    else none
  | .long =>
    if op = 0x89 then some .float -- L2F
    else if op = 0x8a then some .double -- L2D
    else none
  | .float => if op = 0x8d then some .double else none -- F2D
  | _ => none

/-- `POP` takes one slot, `POP2` both slots of one value or two values of one slot. -/
def dropped? (op : Opcode) : List Operand → Option (List Operand)
  | [] => none
  | o :: stack =>
    if op = 0x57 ∧ o.slots = 1 then some stack
    else if op = 0x58 ∧ o.slots = 2 then some stack
    else match stack with
      | o' :: stack =>
        if op = 0x58 ∧ o.slots = 1 ∧ o'.slots = 1 then some stack else none
      | [] => none

def plain? (op : Opcode) (stack : List Operand) : Option (List Operand) :=
  match constant? op, stack with
  | some o, stack => some (o :: stack)
  | none, [] => none
  | none, o :: stack =>
    match converted? op o with
    | some o' => some (o' :: stack)
    | none => dropped? op (o :: stack)

/-- A reference is cast to any type of references; `null` stays what it is. -/
def cast? (types : String → Option TypeDesc) (name : String) : Operand → Option Operand
  | .null => (types name).map fun _ => .null
  | .reference _ => (types name).map .reference
  | _ => none

/-- A wrapper class with the methods to the wrapper and back. -/
structure Wrapping where
  primitive : Primitive
  owner : String
  boxing : String
  accessor : String
  unboxing : String

def wrappings : List Wrapping :=
  [ ⟨.boolean, "java/lang/Boolean", "(Z)Ljava/lang/Boolean;", "booleanValue", "()Z"⟩,
    ⟨.byte, "java/lang/Byte", "(B)Ljava/lang/Byte;", "byteValue", "()B"⟩,
    ⟨.char, "java/lang/Character", "(C)Ljava/lang/Character;", "charValue", "()C"⟩,
    ⟨.short, "java/lang/Short", "(S)Ljava/lang/Short;", "shortValue", "()S"⟩,
    ⟨.int, "java/lang/Integer", "(I)Ljava/lang/Integer;", "intValue", "()I"⟩,
    ⟨.long, "java/lang/Long", "(J)Ljava/lang/Long;", "longValue", "()J"⟩,
    ⟨.float, "java/lang/Float", "(F)Ljava/lang/Float;", "floatValue", "()F"⟩,
    ⟨.double, "java/lang/Double", "(D)Ljava/lang/Double;", "doubleValue", "()D"⟩ ]

namespace Wrapping

/-- What the accessor may be called on. -/
def accepts (w : Wrapping) : Operand → Bool
  | .null => true
  | .reference t => w.primitive.wrapper.any fun wrapper => wrapper.isAssignableFrom t
  | _ => false

/-- The result of a call with one operand: the argument of `valueOf` or the receiver of the
accessor. -/
def call? (w : Wrapping) (op : Opcode) (name descriptor : String) (o : Operand) :
    Option Operand :=
  if op = 0xb8 ∧ name = "valueOf" ∧ descriptor = w.boxing then -- INVOKESTATIC
    if Operand.ofPrimitive? w.primitive == some o then w.primitive.wrapper.map .reference
    else none
  else if op = 0xb6 ∧ name = w.accessor ∧ descriptor = w.unboxing then -- INVOKEVIRTUAL
    if w.accepts o then Operand.ofPrimitive? w.primitive else none
  else none

theorem call?_boxing (w : Wrapping) {o : Operand}
    (ho : Operand.ofPrimitive? w.primitive = some o) :
    w.call? 0xb8 "valueOf" w.boxing o = w.primitive.wrapper.map .reference := by
  simp [call?, ho]

theorem call?_accessor (w : Wrapping) {o : Operand} (ho : w.accepts o = true) :
    w.call? 0xb6 w.accessor w.unboxing o = Operand.ofPrimitive? w.primitive := by
  simp [call?, ho]

end Wrapping

def wrapping? (owner : String) : Option Wrapping :=
  wrappings.find? fun w => w.owner == owner

/-- The operand that stands in the place of the topmost one. -/
def replace (stack : List Operand) (f : Operand → Option Operand) : Option (List Operand) :=
  match stack with
  | [] => none
  | o :: stack => (f o).map (· :: stack)

def step? (types : String → Option TypeDesc) : Instruction → List Operand → Option (List Operand)
  | .plain op, stack => plain? op stack
  | .type op name, stack =>
    if op = 0xc0 then replace stack (cast? types name) else none -- CHECKCAST
  | .method op owner name descriptor false, stack =>
    match wrapping? owner with
    | some w => replace stack (w.call? op name descriptor)
    | none => none
  | _, _ => none

def run (types : String → Option TypeDesc) : List Instruction → List Operand →
    Option (List Operand)
  | [], stack => some stack
  | i :: code, stack =>
    match step? types i stack with
    | some stack => run types code stack
    | none => none

/-! ## Code -/

variable {types : String → Option TypeDesc}

theorem step?_call {op : Opcode} {owner name descriptor : String} {w : Wrapping}
    (hw : wrapping? owner = some w) {o result : Operand}
    (hc : w.call? op name descriptor o = some result) (below : List Operand) :
    step? types (.method op owner name descriptor false) (o :: below) = some (result :: below) := by
  simp [step?, hw, replace, hc]

theorem run_append {code : List Instruction} {s t : List Operand}
    (h : run types code s = some t) (code' : List Instruction) :
    run types (code ++ code') s = run types code' t := by
  induction code generalizing s with
  | nil =>
    cases h
    rfl
  | cons i code ih =>
    rw [List.cons_append, run]
    rw [run] at h
    split at h
    · exact ih h
    · cases h

/-- Code that was emitted takes `before` off the stack and leaves `after`. -/
structure Runs (types : String → Option TypeDesc) (e : Emission) (before after : List Operand) :
    Prop where
  effect : ∃ s, e.outcome = .ok s ∧ s.impact = (slots after : Int) - slots before
  code : ∀ below, run types e.code.toList (before ++ below) = some (after ++ below)

namespace Runs

variable {a b : Emission} {version : ClassFileVersion} {before between after : List Operand}

theorem nothing (stack : List Operand) : Runs types .nothing stack stack :=
  ⟨⟨.zero, rfl, (Int.sub_self _).symm⟩, fun _ => rfl⟩

theorem andThen (ha : Runs types a before between) (hb : Runs types b between after) :
    Runs types (a.andThen b) before after := by
  obtain ⟨⟨s, hs, his⟩, hcode⟩ := ha
  obtain ⟨⟨s', hs', his'⟩, hcode'⟩ := hb
  obtain ⟨code, outcome⟩ := a
  obtain rfl : outcome = .ok s := hs
  refine ⟨⟨s.andThen s', by simp [Emission.andThen, hs'], ?_⟩, fun below => ?_⟩
  · simp only [StackEffect.andThen]
    omega
  · have hrun := run_append (hcode below) b.code.toList
    simpa [Emission.andThen, hcode' below] using hrun

/-- An operation that is done by one instruction. -/
theorem instruction {o : Operation} {i : Instruction} (hm : o.misuse? = none)
    (hi : o.instructions version = [i]) (he : o.effect.impact = (slots after : Int) - slots before)
    (hs : ∀ below, step? types i (before ++ below) = some (after ++ below)) :
    Runs types (o.emit version) before after := by
  have hemit : o.emit version = ⟨#[i], .ok o.effect⟩ := by simp [Operation.emit, hm, hi]
  rw [hemit]
  exact ⟨⟨o.effect, rfl, he⟩, fun below => by simp [run, hs below]⟩

/-- Two fragments one after the other. -/
theorem pair {f g : Fragment} (hf : Runs types (f.emit version) before between)
    (hg : Runs types (g.emit version) between after) :
    Runs types ((Fragment.sequence [f, g]).emit version) before after :=
  ((nothing before).andThen hf).andThen hg

end Runs
end TypedMachine
end ClassSynthesis
