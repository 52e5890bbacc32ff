import ClassSynthesis.Proofs.Code.Forms
import ClassSynthesis.Proofs.Emission.Built

/-!
# ClassSynthesis.Proofs.Code.Emitted

The instructions that fragments emit are well-formed: every opcode is used with the operands that
it takes.
-/

namespace ClassSynthesis

open Disassembler

namespace Operation

theorem pushInt_wellFormed (v : Int32) : (pushInt v).WellFormed := by
  unfold pushInt
  split
  · rename_i h
    rcases cases_of_small h with rfl | rfl | rfl | rfl | rfl | rfl | rfl <;> exact rfl
  · split
    · exact .inl rfl
    · split
      · exact .inr (.inl rfl)
      · trivial

theorem pushNumber_wellFormed (n : Number) : (pushNumber n).WellFormed := by
  cases n with
  | int v => exact pushInt_wellFormed v
  | long v =>
    simp only [pushNumber, pushLong]
    split_ifs <;> trivial
  | float bits =>
    simp only [pushNumber, pushFloat]
    split_ifs <;> trivial
  | double bits =>
    simp only [pushNumber, pushDouble]
    split_ifs <;> trivial

theorem pushClass_wellFormed {version : ClassFileVersion} {t : TypeDesc} :
    ∀ i ∈ pushClass version t, i.WellFormed := by
  unfold pushClass
  split
  · simp [Instruction.WellFormed]
    decide
  · split
    · simp [Instruction.WellFormed]
    · simp [Instruction.WellFormed]
      decide

theorem elementLoad_wellFormed {component : TypeDesc} {op : Opcode}
    (h : elementLoad? component = some op) : (Instruction.plain op).WellFormed := by
  unfold elementLoad? at h
  split at h <;> cases h <;> exact rfl

theorem elementStore_wellFormed {component : TypeDesc} {op : Opcode}
    (h : elementStore? component = some op) : (Instruction.plain op).WellFormed := by
  unfold elementStore? elementLoad? at h
  split at h <;> cases h <;> exact rfl

theorem fieldInstruction_wellFormed {op : Opcode} (h : shape? op = some .field) (f : FieldDesc) :
    (fieldInstruction op f).WellFormed := h

variable {methods : MethodDesc → Prop} {fields : FieldDesc → Prop}

theorem instructions_wellFormed {version : ClassFileVersion} {o : Operation}
    (h : o.Sound methods fields) : ∀ i ∈ o.instructions version, i.WellFormed := by
  cases o with
  | number n => simpa [instructions] using pushNumber_wellFormed n
  | classLiteral t => exact pushClass_wellFormed
  | defaultValue t =>
    simp only [instructions, pushDefault]
    split <;> simp [Instruction.WellFormed] <;> decide
  | getField f =>
    simp only [instructions, List.mem_singleton, forall_eq]
    split <;> exact fieldInstruction_wellFormed rfl f
  | putField f =>
    simp only [instructions, List.mem_singleton, forall_eq]
    split <;> exact fieldInstruction_wellFormed rfl f
  | loadSlot kind slot => simpa [instructions] using ⟨kind, .inl rfl⟩
  | storeSlot kind slot => simpa [instructions] using ⟨kind, .inr rfl⟩
  | leave kind =>
    simp only [instructions, List.mem_singleton, forall_eq]
    rcases kind with _ | kind
    · exact rfl
    · cases kind <;> exact rfl
  | duplicate w =>
    cases w <;> simp [instructions, duplicateInstructions, Instruction.WellFormed] <;> decide
  | remove w =>
    cases w <;> simp [instructions, removeInstructions, Instruction.WellFormed] <;> decide
  | loadElement c =>
    simp only [instructions, List.mem_map, Option.mem_toList]
    rintro _ ⟨op, hop, rfl⟩
    exact elementLoad_wellFormed hop
  | storeElement c =>
    simp only [instructions, List.mem_map, Option.mem_toList]
    rintro _ ⟨op, hop, rfl⟩
    exact elementStore_wellFormed hop
  | call c =>
    simp only [instructions, List.mem_singleton, forall_eq]
    obtain ⟨dispatch, m, receiver⟩ := c
    cases dispatch
    · exact .inr rfl
    · exact .inr rfl
    · exact .inr rfl
    · exact .inl rfl
  | convert op impact =>
    obtain ⟨p, q, hw⟩ := h.arises
    simp only [instructions, List.mem_singleton, forall_eq]
    cases p <;> cases q <;> simp [Widening.of] at hw <;> obtain ⟨rfl, -⟩ := hw <;> exact rfl
  | text _ | methodType _ => simp [instructions, Instruction.WellFormed]
  | nothing | illegal => simp [instructions]
  | null | create _ | cast _ | throw =>
    simp only [instructions, List.mem_singleton, forall_eq]
    exact rfl

end Operation

namespace Emission

/-- All instructions are well-formed. -/
def WellFormed (e : Emission) : Prop := ∀ i ∈ e.code, i.WellFormed

theorem WellFormed.andThen {a b : Emission} (ha : a.WellFormed) (hb : b.WellFormed) :
    (a.andThen b).WellFormed := by
  obtain ⟨code, _ | _⟩ := a
  · exact ha
  · intro i hi
    rcases Array.mem_append.mp hi with hi | hi
    · exact ha i hi
    · exact hb i hi

end Emission

namespace Fragment

theorem allocation_wellFormed (component : TypeDesc) : (allocation component).WellFormed := by
  unfold allocation
  split
  · rename_i p _
    exact .inr (.inr ⟨rfl, by cases p <;> decide, by cases p <;> decide⟩)
  · exact rfl

theorem emptyArray_wellFormed (component : TypeDesc) (n : Nat) :
    (emptyArray component n).WellFormed := by
  intro i hi
  have hi' : i = Operation.pushInt (.ofNat n) ∨ i = allocation component := by
    simpa [emptyArray] using hi
  rcases hi' with rfl | rfl
  · exact Operation.pushInt_wellFormed _
  · exact allocation_wellFormed component

variable {methods : MethodDesc → Prop} {fields : FieldDesc → Prop}

theorem operation_wellFormed {version : ClassFileVersion} {o : Operation}
    (h : o.Sound methods fields) : (o.emit version).WellFormed := by
  unfold Operation.emit
  split
  · simp [Emission.WellFormed]
  · simpa [Emission.WellFormed] using Operation.instructions_wellFormed h

theorem emit_wellFormed {f : Fragment} (version : ClassFileVersion)
    (h : f.Built methods fields) (hv : f.isValid = true) : (f.emit version).WellFormed := by
  -- The boxing methods need not be among the given ones, so nothing is asked of them here.
  have hb : f.Built (fun _ => True) (fun _ => True) :=
    h.mono (fun _ _ => trivial) fun _ _ => trivial
  have hm := hb.made (fun _ _ _ => trivial) (fun _ _ => trivial) hv
  exact hm.emission (by simp [Emission.WellFormed, Emission.nothing]) (fun _ _ => .andThen)
    (fun c n _ => emptyArray_wellFormed c n) fun _ => operation_wellFormed

end Fragment
end ClassSynthesis
