import ClassSynthesis.ClassFile.Instruction
import ClassSynthesis.Emission.StackEffect
import ClassSynthesis.Error
import ClassSynthesis.Types.Member

/-!
# ClassSynthesis.Emission.CallSite

Calls of methods. How a method is dispatched follows from its own declaration (`Dispatch.of`); a
call can then be moved to another receiver type, virtually (`CallSite.virtualOn?`) or without
dynamic dispatch (`CallSite.specialOn?`), where the method allows it.
-/

namespace ClassSynthesis

inductive Dispatch where
  | static
  | special
  | virtual
  | interface
  deriving DecidableEq

namespace Dispatch

def opcode : Dispatch → Opcode
  | .static => .invokestatic
  | .special => .invokespecial
  | .virtual => .invokevirtual
  | .interface => .invokeinterface

/-- The dispatch that a method's declaration implies. A static method is called statically even
if it is private, and a default method is called without dynamic dispatch although an interface
declares it. The type initializer is never called. -/
def of (m : MethodDesc) : Except Error Dispatch :=
  if m.isTypeInitializer then .error (.typeInitializerCall m.text)
  else if m.isStatic then .ok .static
  else if m.isPrivate || m.isConstructor || m.isDefault then .ok .special
  else if m.owner.isInterface then .ok .interface
  else .ok .virtual

def text (d : Dispatch) : String := d.opcode.mnemonic

end Dispatch

/-- A move of a call to another receiver type. -/
inductive Retarget where
  | virtual (target : TypeDesc)
  | special (target : TypeDesc)

structure CallSite where
  dispatch : Dispatch
  method : MethodDesc
  receiver : TypeDesc

namespace CallSite

/-- A call on the type that declares the method. -/
def of (m : MethodDesc) : Except Error CallSite :=
  match Dispatch.of m with
  | .ok d => .ok ⟨d, m, m.owner⟩
  | .error e => .error e

def virtualOn? (c : CallSite) (target : TypeDesc) : Option CallSite :=
  if c.method.isPrivate || c.method.isConstructor || c.method.isStatic then none
  else some ⟨if target.isInterface then .interface else .virtual, c.method, target⟩

def specialOn? (c : CallSite) (target : TypeDesc) : Option CallSite :=
  if c.method.isSpecializableFor target then some ⟨.special, c.method, target⟩ else none

/-- The call moved to another receiver, where that is legal. -/
def retarget? (c : CallSite) : Retarget → Option CallSite
  | .virtual target => c.virtualOn? target
  | .special target => c.specialOn? target

/-- The call moved again and again, each move being legal. -/
def retargetAll? (c : CallSite) : List Retarget → Option CallSite
  | [] => some c
  | r :: rs =>
    match c.retarget? r with
    | some c => c.retargetAll? rs
    | none => none

/-- The calls that a history of moves leads to, a refused move leaving the call where it is. -/
def history (c : CallSite) : List Retarget → List (Option CallSite)
  | [] => []
  | r :: rs =>
    match c.retarget? r with
    | some c => some c :: c.history rs
    | none => none :: c.history rs

/-- The arguments are gone before the result is there, so only the result can be a peak. -/
def effect (c : CallSite) : StackEffect :=
  .shift (c.method.returns.width.slots - c.method.argumentSlots)

def instruction (c : CallSite) : Instruction :=
  .method c.dispatch.opcode c.receiver.internalName c.method.name c.method.descriptor
    c.receiver.isInterface

end CallSite

end ClassSynthesis
