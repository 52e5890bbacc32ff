import ClassSynthesis.Proofs.Emission.Built
import ClassSynthesis.Proofs.Stack.Machine

/-!
# ClassSynthesis.Proofs.Emission.Valid

Valid fragments are emitted to their end. Their instructions are then given by recursion on the
fragment alone (`Fragment.instructions`), with no emission carried along, so that what holds of
every instruction of a fragment is shown by induction on the fragment.

* `emit_complete`: the emission of a valid fragment holds these instructions, is not stopped, and
  peaks at the height where it starts or above. Code without instructions has no effect.
* `forall_instructions`: what holds of the instructions of valid operations and of those that make
  arrays holds of all instructions of a valid fragment.
-/

namespace ClassSynthesis

theorem StackEffect.shift_peak_nonneg (n : Int) : 0 ≤ (shift n).peak := by
  simp only [shift]
  omega

namespace Emission

theorem andThen_outcome {a b : Emission} {s t : StackEffect} (ha : a.outcome = .ok s)
    (hb : b.outcome = .ok t) : (a.andThen b).outcome = .ok (s.andThen t) := by
  obtain ⟨code, outcome⟩ := a
  cases ha
  simp only [andThen, hb]

/-- The emission came to its end and wrote this code. -/
structure Complete (e : Emission) (code : List Instruction) : Prop where
  written : e.code.toList = code
  ended : ∃ s, e.outcome = .ok s ∧ 0 ≤ s.peak ∧ (code = [] → s = .zero)

variable {a b : Emission} {xs ys : List Instruction}

theorem Complete.andThen (ha : a.Complete xs) (hb : b.Complete ys) :
    (a.andThen b).Complete (xs ++ ys) := by
  obtain ⟨code, outcome⟩ := a
  obtain ⟨rfl, s, rfl, hs, hzero⟩ := ha
  obtain ⟨rfl, t, ht, -, hzero'⟩ := hb
  refine ⟨by simp [Emission.andThen], s.andThen t, by simp [Emission.andThen, ht], ?_, ?_⟩
  · simp only [StackEffect.andThen]
    omega
  · intro h
    obtain ⟨hx, hy⟩ := List.append_eq_nil_iff.mp h
    rw [hzero hx, hzero' hy]
    rfl

end Emission

namespace Operation

variable {version : ClassFileVersion} {o : Operation}

theorem peak_nonneg (o : Operation) : 0 ≤ o.effect.peak := by
  cases o with
  | cast _ | nothing | illegal => exact Int.le_refl 0
  | _ => exact StackEffect.shift_peak_nonneg _

theorem pushClass_ne_nil (t : TypeDesc) : pushClass version t ≠ [] := by
  unfold pushClass
  split
  · simp
  · split <;> simp

theorem effect_of_no_instructions (hv : o.isValid = true) (h : o.instructions version = []) :
    o.effect = .zero := by
  cases o with
  | classLiteral t => exact absurd h (pushClass_ne_nil t)
  | defaultValue t =>
    cases t with
    | primitive p =>
      cases p with
      | void => rfl
      | _ => cases h
    | _ => cases h
  | duplicate w | remove w =>
    cases w with
    | zero => rfl
    | _ => cases h
  | loadElement c | storeElement c =>
    cases c with
    | primitive p =>
      cases p with
      | void => cases hv
      | _ => cases h
    | _ => cases h
  | nothing => rfl
  | illegal => cases hv
  | _ => cases h

theorem emit_complete (h : o.isValid = true) :
    (o.emit version).Complete (o.instructions version) := by
  rw [emit, misuse?_of_isValid h]
  exact ⟨rfl, o.effect, rfl, o.peak_nonneg, effect_of_no_instructions h⟩

end Operation

namespace Fragment

/-! ## Instructions -/

mutual

/-- The instructions of a fragment that is emitted to its end. -/
def instructions (version : ClassFileVersion) : Fragment → List Instruction
  | .op o => o.instructions version
  | .sequence items => instructionsOf version items
  | .newArray component values =>
    [Operation.pushInt (.ofNat values.length), allocation component] ++
      stores version component 0 values

def instructionsOf (version : ClassFileVersion) : List Fragment → List Instruction
  | [] => []
  | f :: fs => f.instructions version ++ instructionsOf version fs

/-- Stores of the values from an index on. -/
def stores (version : ClassFileVersion) (component : TypeDesc) (index : Nat) :
    List Fragment → List Instruction
  | [] => []
  | f :: fs =>
    (Operation.duplicate .single).instructions version ++
      (Operation.number (.int (.ofNat index))).instructions version ++
      f.instructions version ++ (Operation.storeElement component).instructions version ++
      stores version component (index + 1) fs

end

/-! ## Emission -/

variable {version : ClassFileVersion}

theorem emptyArray_complete (component : TypeDesc) (length : Nat) :
    (emptyArray component length).Complete
      [Operation.pushInt (.ofNat length), allocation component] :=
  ⟨rfl, .push .single, rfl, StackEffect.shift_peak_nonneg 1, nofun⟩

-- What has been written stays in front, so lists are followed from any complete emission on.
mutual

theorem emit_complete : ∀ f : Fragment, f.isValid = true →
    (f.emit version).Complete (f.instructions version)
  | .op o, h => by
    rw [emit, instructions]
    exact Operation.emit_complete h
  | .sequence items, h => by
    have hnothing : Emission.nothing.Complete [] := ⟨rfl, .zero, rfl, Int.le_refl 0, fun _ => rfl⟩
    rw [emit, instructions]
    exact emitAll_complete items h hnothing
  | .newArray component values, h => by
    simp only [isValid, Bool.and_eq_true, Bool.not_eq_true'] at h
    rw [emit, instructions]
    exact emitElements_complete values 0 h.1 h.2 (emptyArray_complete component values.length)

theorem emitAll_complete : ∀ (fs : List Fragment), allValid fs = true →
    ∀ {before : Emission} {xs : List Instruction}, before.Complete xs →
      (emitAll version before fs).Complete (xs ++ instructionsOf version fs)
  | [], _, before, xs, hb => by
    rw [emitAll, instructionsOf, List.append_nil]
    exact hb
  | f :: fs, h, before, xs, hb => by
    obtain ⟨hf, hfs⟩ := Bool.and_eq_true_iff.mp h
    rw [emitAll, instructionsOf, ← List.append_assoc]
    exact emitAll_complete fs hfs (hb.andThen (emit_complete f hf))

theorem emitElements_complete {component : TypeDesc} : ∀ (fs : List Fragment) (index : Nat),
    component.isVoid = false → allValid fs = true →
    ∀ {before : Emission} {xs : List Instruction}, before.Complete xs →
      (emitElements version component index before fs).Complete
        (xs ++ stores version component index fs)
  | [], index, _, _, before, xs, hb => by
    rw [emitElements, stores, List.append_nil]
    exact hb
  | f :: fs, index, hc, h, before, xs, hb => by
    obtain ⟨hf, hfs⟩ := Bool.and_eq_true_iff.mp h
    have hcopy : ((Operation.duplicate .single).emit version).Complete _ :=
      Operation.emit_complete rfl
    have hindex : ((Operation.number (.int (.ofNat index))).emit version).Complete _ :=
      Operation.emit_complete rfl
    have hstore : ((Operation.storeElement component).emit version).Complete _ :=
      Operation.emit_complete (by simp [Operation.isValid, hc])
    have htarget := (hb.andThen hcopy).andThen hindex
    have hstored := (htarget.andThen (emit_complete f hf)).andThen hstore
    have hrest := emitElements_complete fs (index + 1) hc hfs hstored
    simpa only [emitElements, stores, List.append_assoc] using hrest

end

/-! ## What holds of every instruction -/

mutual

theorem forall_instructions {P : Instruction → Prop}
    (operation : ∀ o : Operation, o.isValid = true → ∀ i ∈ o.instructions version, P i)
    (array : ∀ component, P (allocation component)) :
    ∀ f : Fragment, f.isValid = true → ∀ i ∈ f.instructions version, P i
  | .op o, h => by
    rw [instructions]
    exact operation o h
  | .sequence items, h => by
    rw [instructions]
    exact forall_instructionsOf operation array items h
  | .newArray component values, h => by
    simp only [isValid, Bool.and_eq_true, Bool.not_eq_true'] at h
    have hlength := operation (.number (.int (.ofNat values.length))) rfl _ (.head [])
    have hvalues := forall_stores operation array values 0 h.1 h.2
    rw [instructions, List.forall_mem_append, List.forall_mem_cons, List.forall_mem_singleton]
    exact ⟨⟨hlength, array component⟩, hvalues⟩

theorem forall_instructionsOf {P : Instruction → Prop}
    (operation : ∀ o : Operation, o.isValid = true → ∀ i ∈ o.instructions version, P i)
    (array : ∀ component, P (allocation component)) :
    ∀ fs : List Fragment, allValid fs = true → ∀ i ∈ instructionsOf version fs, P i
  | [], _ => by
    rw [instructionsOf]
    exact List.forall_mem_nil _
  | f :: fs, h => by
    obtain ⟨hf, hfs⟩ := Bool.and_eq_true_iff.mp h
    rw [instructionsOf, List.forall_mem_append]
    exact ⟨forall_instructions operation array f hf,
      forall_instructionsOf operation array fs hfs⟩

theorem forall_stores {P : Instruction → Prop}
    (operation : ∀ o : Operation, o.isValid = true → ∀ i ∈ o.instructions version, P i)
    (array : ∀ component, P (allocation component)) {component : TypeDesc} :
    ∀ (fs : List Fragment) (index : Nat), component.isVoid = false → allValid fs = true →
      ∀ i ∈ stores version component index fs, P i
  | [], index, _, _ => by
    rw [stores]
    exact List.forall_mem_nil _
  | f :: fs, index, hc, h => by
    obtain ⟨hf, hfs⟩ := Bool.and_eq_true_iff.mp h
    have hcopy := operation (.duplicate .single) rfl
    have hindex := operation (.number (.int (.ofNat index))) rfl
    have hvalue := forall_instructions operation array f hf
    have hstore := operation (.storeElement component) (by simp [Operation.isValid, hc])
    have hrest := forall_stores operation array fs (index + 1) hc hfs
    simp only [stores, List.forall_mem_append]
    exact ⟨⟨⟨⟨hcopy, hindex⟩, hvalue⟩, hstore⟩, hrest⟩

end

end Fragment
end ClassSynthesis
