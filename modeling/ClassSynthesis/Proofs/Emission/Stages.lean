import ClassSynthesis.Proofs.Emission.Built

/-!
# ClassSynthesis.Proofs.Emission.Stages

What is computed on the way while a fragment is emitted. `Fragment.stages` lists it in order: the
emissions of the parts at any depth, and after each part the emission of all parts so far. The last
stage is the emission of the fragment (`getLast?_stages`).

A stage is `Safe` if it was not stopped and its effect is `Wf`, which `Emission.andThen` preserves.

* `stages_safe`: all stages of a valid fragment are safe.
* `isValid_of_mem_operations`: a fragment is valid only if all operations in it are, however deep.
* `emit_safe_throughout`: both, with what being safe means.
-/

namespace ClassSynthesis

namespace StackEffect

/-- The greatest height on the way is no lower than where the code starts and where it ends. -/
def Wf (e : StackEffect) : Prop := max 0 e.impact ≤ e.peak

theorem zero_wf : zero.Wf := Int.le_refl 0

theorem shift_wf (n : Int) : (shift n).Wf := by
  simp only [Wf, shift]
  omega

theorem Wf.andThen {a b : StackEffect} (ha : a.Wf) (hb : b.Wf) : (a.andThen b).Wf := by
  simp only [Wf, StackEffect.andThen] at ha hb ⊢
  omega

end StackEffect

namespace Emission

/-- The emission was not stopped, and its effect is well-formed. -/
def Safe (e : Emission) : Prop := ∃ s, e.outcome = .ok s ∧ s.Wf

theorem nothing_safe : nothing.Safe := ⟨.zero, rfl, StackEffect.zero_wf⟩

theorem Safe.andThen {a b : Emission} (ha : a.Safe) (hb : b.Safe) : (a.andThen b).Safe := by
  obtain ⟨code, outcome⟩ := a
  obtain ⟨s, rfl, hs⟩ := ha
  obtain ⟨t, ht, htw⟩ := hb
  exact ⟨s.andThen t, by simp [Emission.andThen, ht], hs.andThen htw⟩

end Emission

namespace Operation

theorem effect_wf (o : Operation) : o.effect.Wf := by
  cases o with
  | cast _ | nothing | illegal => exact StackEffect.zero_wf
  | _ => exact StackEffect.shift_wf _

theorem emit_safe {version : ClassFileVersion} {o : Operation} (h : o.isValid = true) :
    (o.emit version).Safe := by
  rw [emit, misuse?_of_isValid h]
  exact ⟨o.effect, rfl, o.effect_wf⟩

end Operation

namespace Fragment

/-! ## Operations -/

mutual

/-- The operations of a fragment at any depth, in order. -/
def operations : Fragment → List Operation
  | .op o => [o]
  | .sequence items => operationsOf items
  | .newArray _ values => operationsOf values

def operationsOf : List Fragment → List Operation
  | [] => []
  | f :: fs => f.operations ++ operationsOf fs

end

mutual

theorem isValid_of_mem_operations : ∀ f : Fragment, f.isValid = true →
    ∀ o ∈ f.operations, o.isValid = true
  | .op o, h => by
    rw [operations, List.forall_mem_singleton]
    exact h
  | .sequence items, h => by
    rw [operations]
    exact isValid_of_mem_operationsOf items h
  | .newArray component values, h => by
    simp only [isValid, Bool.and_eq_true] at h
    rw [operations]
    exact isValid_of_mem_operationsOf values h.2

theorem isValid_of_mem_operationsOf : ∀ fs : List Fragment, allValid fs = true →
    ∀ o ∈ operationsOf fs, o.isValid = true
  | [], _ => by
    rw [operationsOf]
    exact List.forall_mem_nil _
  | f :: fs, h => by
    obtain ⟨hf, hfs⟩ := Bool.and_eq_true_iff.mp h
    rw [operationsOf, List.forall_mem_append]
    exact ⟨isValid_of_mem_operations f hf, isValid_of_mem_operationsOf fs hfs⟩

end

/-! ## Stages -/

mutual

def stages (version : ClassFileVersion) : Fragment → List Emission
  | .op o => [o.emit version]
  | .sequence items => .nothing :: stagesAll version .nothing items
  | .newArray component values =>
    emptyArray component values.length ::
      stagesElements version component 0 (emptyArray component values.length) values

/-- The stages that follow `before`. -/
def stagesAll (version : ClassFileVersion) (before : Emission) : List Fragment → List Emission
  | [] => []
  | f :: fs =>
    let after := before.andThen (f.emit version)
    f.stages version ++ after :: stagesAll version after fs

/-- The stages that follow `before` in an array, from an index on. -/
def stagesElements (version : ClassFileVersion) (component : TypeDesc) (index : Nat)
    (before : Emission) : List Fragment → List Emission
  | [] => []
  | f :: fs =>
    let copy := (Operation.duplicate .single).emit version
    let number := (Operation.number (.int (.ofNat index))).emit version
    let store := (Operation.storeElement component).emit version
    let copied := before.andThen copy
    let target := copied.andThen number
    let filled := target.andThen (f.emit version)
    let stored := filled.andThen store
    [copy, copied, number, target] ++ f.stages version ++
      [filled, store] ++ stored :: stagesElements version component (index + 1) stored fs

end

variable {version : ClassFileVersion}

theorem getLast?_stagesAll (fs : List Fragment) (before : Emission) :
    (before :: stagesAll version before fs).getLast? = some (emitAll version before fs) := by
  induction fs generalizing before with
  | nil => rfl
  | cons f fs ih =>
    rw [stagesAll, emitAll, ← List.cons_append, List.getLast?_append_cons]
    exact ih _

theorem getLast?_stagesElements (component : TypeDesc) (fs : List Fragment) (index : Nat)
    (before : Emission) :
    (before :: stagesElements version component index before fs).getLast? =
      some (emitElements version component index before fs) := by
  induction fs generalizing index before with
  | nil => rfl
  | cons f fs ih =>
    rw [stagesElements, emitElements, ← List.cons_append, List.getLast?_append_cons]
    exact ih _ _

theorem getLast?_stages (f : Fragment) :
    (f.stages version).getLast? = some (f.emit version) := by
  cases f with
  | op o =>
    rw [stages, emit]
    rfl
  | sequence items =>
    rw [stages, emit]
    exact getLast?_stagesAll items .nothing
  | newArray component values =>
    rw [stages, emit]
    exact getLast?_stagesElements component values 0 _

theorem emit_mem_stages (f : Fragment) : f.emit version ∈ f.stages version :=
  List.mem_of_getLast? (getLast?_stages f)

theorem emptyArray_safe (component : TypeDesc) (length : Nat) :
    (emptyArray component length).Safe :=
  ⟨.push .single, rfl, StackEffect.shift_wf 1⟩

-- The emission of a part is among its stages, so it is safe where all of those are.
mutual

theorem stages_safe : ∀ f : Fragment, f.isValid = true → ∀ e ∈ f.stages version, e.Safe
  | .op o, h => by
    rw [stages, List.forall_mem_singleton]
    exact Operation.emit_safe h
  | .sequence items, h => by
    rw [stages, List.forall_mem_cons]
    exact ⟨Emission.nothing_safe, stagesAll_safe items h Emission.nothing_safe⟩
  | .newArray component values, h => by
    simp only [isValid, Bool.and_eq_true, Bool.not_eq_true'] at h
    have hempty := emptyArray_safe component values.length
    rw [stages, List.forall_mem_cons]
    exact ⟨hempty, stagesElements_safe values 0 h.1 h.2 hempty⟩

theorem stagesAll_safe : ∀ (fs : List Fragment), allValid fs = true →
    ∀ {before : Emission}, before.Safe → ∀ e ∈ stagesAll version before fs, e.Safe
  | [], _, before, _ => by
    rw [stagesAll]
    exact List.forall_mem_nil _
  | f :: fs, h, before, hb => by
    obtain ⟨hf, hfs⟩ := Bool.and_eq_true_iff.mp h
    have hparts := stages_safe f hf
    have hafter := hb.andThen (hparts _ (emit_mem_stages f))
    rw [stagesAll, List.forall_mem_append, List.forall_mem_cons]
    exact ⟨hparts, hafter, stagesAll_safe fs hfs hafter⟩

theorem stagesElements_safe {component : TypeDesc} : ∀ (fs : List Fragment) (index : Nat),
    component.isVoid = false → allValid fs = true → ∀ {before : Emission}, before.Safe →
      ∀ e ∈ stagesElements version component index before fs, e.Safe
  | [], index, _, _, before, _ => by
    rw [stagesElements]
    exact List.forall_mem_nil _
  | f :: fs, index, hc, h, before, hb => by
    obtain ⟨hf, hfs⟩ := Bool.and_eq_true_iff.mp h
    have hcopy : ((Operation.duplicate .single).emit version).Safe := Operation.emit_safe rfl
    have hnumber : ((Operation.number (.int (.ofNat index))).emit version).Safe :=
      Operation.emit_safe rfl
    have hstore : ((Operation.storeElement component).emit version).Safe :=
      Operation.emit_safe (by simp [Operation.isValid, hc])
    have hparts := stages_safe f hf
    have hcopied := hb.andThen hcopy
    have htarget := hcopied.andThen hnumber
    have hfilled := htarget.andThen (hparts _ (emit_mem_stages f))
    have hstored := hfilled.andThen hstore
    have hrest := stagesElements_safe fs (index + 1) hc hfs hstored
    simp only [stagesElements, List.forall_mem_append, List.forall_mem_cons, List.not_mem_nil,
      IsEmpty.forall_iff, implies_true, and_true]
    exact ⟨⟨⟨⟨hcopy, hcopied, hnumber, htarget⟩, hparts⟩, hfilled, hstore⟩, hstored, hrest⟩

end

end Fragment
end ClassSynthesis
