import ClassSynthesis.Proofs.Emission.Dispatch
import ClassSynthesis.Proofs.Emission.Locals

/-!
# ClassSynthesis.Proofs.Emission.Forwarding

Bodies that hand the arguments of a method on to the method itself. The receiver, if there is one,
counts as the first argument (`MethodDesc.arguments`). `Placed` is an argument with the variable
that it starts at, `Tiles start ps stop` says that the variables of `ps` follow each other from
`start` on and end at `stop`.

* `append_forwarding`: one load for each argument, in the order of the arguments, and the variables
  loaded tile the slots of the method. With the call and the return the operand stack is as high as
  the arguments or the result, and empty at the end.
-/

namespace ClassSynthesis

/-- The types of the arguments, the receiver's before the others. -/
def MethodDesc.arguments (m : MethodDesc) : List TypeDesc :=
  if m.isStatic then m.parameters else .object :: m.parameters

/-- ILOAD, LLOAD, FLOAD, DLOAD or ALOAD. -/
def loadOpcode (t : TypeDesc) : Opcode :=
  match t.asPrimitive with
  | some .long => 0x16
  | some .float => 0x17
  | some .double => 0x18
  | some _ => 0x15
  | none => 0x19

/-- An argument and the first of its local variables. -/
structure Placed where
  type : TypeDesc
  slot : UInt16

namespace Placed

/-- The first variable after those of the argument. -/
def stop (p : Placed) : Nat := p.slot.toNat + p.type.width.slots

def load (p : Placed) : Instruction := .slot (loadOpcode p.type) p.slot

end Placed

def Tiles : Nat → List Placed → Nat → Prop
  | start, [], stop => start = stop
  | start, p :: ps, stop => p.slot.toNat = start ∧ Tiles p.stop ps stop

namespace Tiles

variable {start stop : Nat} {ps : List Placed}

theorem le (h : Tiles start ps stop) : start ≤ stop := by
  induction ps generalizing start with
  | nil => exact Nat.le_of_eq h
  | cons p ps ih =>
    obtain ⟨rfl, h⟩ := h
    exact (Nat.le_add_right ..).trans (ih h)

theorem start_le (h : Tiles start ps stop) : ∀ p ∈ ps, start ≤ p.slot.toNat := by
  induction ps generalizing start with
  | nil => exact List.forall_mem_nil _
  | cons p ps ih =>
    obtain ⟨rfl, h⟩ := h
    exact List.forall_mem_cons.mpr
      ⟨Nat.le_refl _, fun q hq => (Nat.le_add_right ..).trans (ih h q hq)⟩

/-- No argument ends after a later one starts. -/
theorem ordered (h : Tiles start ps stop) : ps.Pairwise fun p q => p.stop ≤ q.slot.toNat := by
  induction ps generalizing start with
  | nil => exact .nil
  | cons p ps ih =>
    obtain ⟨rfl, h⟩ := h
    exact .cons h.start_le (ih h)

/-- The variables of the arguments are those from the start to the stop. -/
theorem covers (h : Tiles start ps stop) (k : Nat) :
    (∃ p ∈ ps, p.slot.toNat ≤ k ∧ k < p.stop) ↔ start ≤ k ∧ k < stop := by
  induction ps generalizing start with
  | nil =>
    obtain rfl : start = stop := h
    simp
  | cons p ps ih =>
    obtain ⟨rfl, h⟩ := h
    have hle := h.le
    have hstop : p.slot.toNat ≤ p.stop := Nat.le_add_right ..
    rw [List.exists_mem_cons_iff, ih h]
    omega

end Tiles

/-! ## Loads -/

/-- The types placed one after another. -/
def place (slot : UInt16) : List TypeDesc → List Placed
  | [] => []
  | t :: ts => ⟨t, slot⟩ :: place (slot + .ofNat t.width.slots) ts

theorem map_type_place (slot : UInt16) (ts : List TypeDesc) :
    (place slot ts).map Placed.type = ts := by
  induction ts generalizing slot with
  | nil => rfl
  | cons t ts ih => rw [place, List.map_cons, ih]

theorem tiles_place (slot : UInt16) (ts : List TypeDesc)
    (h : slot.toNat + slotsOf ts ≤ slotLimit) :
    Tiles slot.toNat (place slot ts) (slot.toNat + slotsOf ts) := by
  induction ts generalizing slot with
  | nil => rfl
  | cons t ts ih =>
    rw [slotsOf_cons] at h ⊢
    have hnext := Fragment.toNat_add_slots slot t.width (by omega)
    have hrest := ih (slot + .ofNat t.width.slots) (by omega)
    rw [hnext, Nat.add_assoc] at hrest
    exact ⟨rfl, hrest⟩

namespace ValueKind

theorem of_eq_none_iff {t : TypeDesc} : ValueKind.of t = none ↔ t.isVoid = true := by
  cases t with
  | primitive p => cases p <;> decide
  | _ => exact iff_of_false nofun nofun

theorem loadOpcode_of {t : TypeDesc} {kind : ValueKind} (h : ValueKind.of t = some kind) :
    kind.loadOpcode = ClassSynthesis.loadOpcode t := by
  cases t with
  | primitive p => cases p <;> cases h <;> rfl
  | _ =>
    cases h
    rfl

/-- Nothing is returned for `void`. -/
theorem width_of_map (t : TypeDesc) : ((ValueKind.of t).map width).getD .zero = t.width := by
  cases t with
  | primitive p => cases p <;> rfl
  | _ => rfl

end ValueKind

namespace Fragment

variable {version : ClassFileVersion}

theorem loadArguments_eq (m : MethodDesc) :
    loadArguments m = .sequence (loadsFrom 0 m.arguments) := by
  unfold loadArguments MethodDesc.arguments
  split <;> rfl

theorem isValid_load {t : TypeDesc} {slot : UInt16} :
    (load t slot).isValid = true ↔ t.isVoid = false := by
  unfold load
  cases hk : ValueKind.of t with
  | none => simp [illegal, isValid, Operation.isValid, ValueKind.of_eq_none_iff.mp hk]
  | some kind =>
    have hvoid : ¬t.isVoid = true := fun hv => by simp [ValueKind.of_eq_none_iff.mpr hv] at hk
    simp [isValid, Operation.isValid, hvoid]

theorem allValid_loadsFrom {ts : List TypeDesc} {slot : UInt16} :
    allValid (loadsFrom slot ts) = true ↔ ∀ t ∈ ts, t.isVoid = false := by
  induction ts generalizing slot with
  | nil => simp [loadsFrom, allValid]
  | cons t ts ih =>
    rw [loadsFrom, allValid, Bool.and_eq_true, isValid_load, ih, List.forall_mem_cons]

/-- A load of a variable that has a type is one instruction, and it pushes the variable. -/
theorem emit_load (version : ClassFileVersion) {t : TypeDesc} (h : t.isVoid = false)
    (slot : UInt16) :
    (load t slot).instructions version = [Placed.load ⟨t, slot⟩] ∧
      ((load t slot).emit version).outcome = .ok (.push t.width) := by
  unfold load
  cases hk : ValueKind.of t with
  | none => simp [ValueKind.of_eq_none_iff.mp hk] at h
  | some kind =>
    have hcode : Placed.load ⟨t, slot⟩ = .slot kind.loadOpcode slot := by
      rw [Placed.load, ValueKind.loadOpcode_of hk]
    rw [hcode, ← ValueKind.width_of hk]
    exact ⟨rfl, rfl⟩

theorem instructionsOf_loadsFrom {ts : List TypeDesc} (h : ∀ t ∈ ts, t.isVoid = false)
    (slot : UInt16) :
    instructionsOf version (loadsFrom slot ts) = (place slot ts).map Placed.load := by
  induction ts generalizing slot with
  | nil => rfl
  | cons t ts ih =>
    obtain ⟨ht, hts⟩ := List.forall_mem_cons.mp h
    rw [loadsFrom, instructionsOf, (emit_load version ht slot).1, ih hts, place, List.map_cons,
      List.singleton_append]

/-- Every load leaves its variable on the stack. -/
theorem emitAll_loadsFrom (version : ClassFileVersion) {ts : List TypeDesc}
    (h : ∀ t ∈ ts, t.isVoid = false) (slot : UInt16) {before : Emission} {height : Nat}
    (hb : before.outcome = .ok (.shift height)) :
    (emitAll version before (loadsFrom slot ts)).outcome =
      .ok (.shift (height + slotsOf ts : Nat)) := by
  induction ts generalizing slot before height with
  | nil => exact hb
  | cons t ts ih =>
    obtain ⟨ht, hts⟩ := List.forall_mem_cons.mp h
    have hload := Emission.andThen_outcome hb (emit_load version ht slot).2
    have hpush : (StackEffect.shift height).andThen (.push t.width) =
        .shift (height + t.width.slots : Nat) := by
      simp only [StackEffect.andThen, StackEffect.push, StackEffect.shift, StackEffect.mk.injEq]
      omega
    rw [hpush] at hload
    rw [loadsFrom, emitAll, ih hts _ hload, slotsOf_cons, Nat.add_assoc]

end Fragment

/-! ## Arguments -/

namespace MethodDesc

theorem slotsOf_arguments (m : MethodDesc) : slotsOf m.arguments = m.argumentSlots := by
  unfold arguments argumentSlots
  split
  · rfl
  · rw [slotsOf_cons, Nat.add_comm]
    rfl

/-- The receiver is never of type `void`. -/
theorem forall_arguments {m : MethodDesc} :
    (∀ t ∈ m.arguments, t.isVoid = false) ↔ ∀ t ∈ m.parameters, t.isVoid = false := by
  unfold arguments
  split
  · rfl
  · rw [List.forall_mem_cons]
    exact and_iff_right rfl

end MethodDesc

namespace Fragment

variable {version : ClassFileVersion} {m : MethodDesc}

theorem isValid_loadArguments :
    (loadArguments m).isValid = true ↔ ∀ t ∈ m.parameters, t.isVoid = false := by
  rw [loadArguments_eq, isValid, allValid_loadsFrom, MethodDesc.forall_arguments]

theorem emit_loadArguments (h : ∀ t ∈ m.parameters, t.isVoid = false) :
    (loadArguments m).emit version =
      ⟨((place 0 m.arguments).map Placed.load).toArray, .ok (.shift m.argumentSlots)⟩ := by
  have harguments := MethodDesc.forall_arguments.mpr h
  have hemit : (loadArguments m).emit version =
      emitAll version .nothing (loadsFrom 0 m.arguments) := by rw [loadArguments_eq, emit]
  have hnothing : Emission.nothing.outcome = .ok (.shift (0 : Nat)) := rfl
  have houtcome := emitAll_loadsFrom version harguments 0 hnothing
  have hcomplete : ((loadArguments m).emit version).Complete _ :=
    emit_complete _ (isValid_loadArguments.mpr h)
  have hcode := hcomplete.written
  rw [hemit, loadArguments_eq, instructions, instructionsOf_loadsFrom harguments] at hcode
  rw [MethodDesc.slotsOf_arguments, Nat.zero_add] at houtcome
  rw [hemit, ← hcode, ← houtcome]

theorem emit_call (version : ClassFileVersion) (hm : m.isTypeInitializer = false) :
    (call m).isValid = true ∧
      ((call m).emit version).outcome = .ok (.shift (m.returns.width.slots - m.argumentSlots)) := by
  obtain ⟨c, hc⟩ := CallSite.of_ok hm
  have hcall : call m = .op (.call c) := by
    rw [call, callVia, hc]
    rfl
  rw [hcall]
  refine ⟨rfl, ?_⟩
  rw [← CallSite.of_method hc]
  rfl

theorem emit_returning (version : ClassFileVersion) (t : TypeDesc) :
    ((returning t).emit version).outcome = .ok (.pop t.width) := by
  rw [← ValueKind.width_of_map t]
  rfl

/-- Load the arguments, call the method, return what it returns. -/
def forwarding (m : MethodDesc) : List Fragment := [loadArguments m, call m, returning m.returns]

theorem emit_forwarding (version : ClassFileVersion)
    (h : ∀ t ∈ m.parameters, t.isVoid = false) (hm : m.isTypeInitializer = false) :
    (sequence (forwarding m)).isValid = true ∧
      ((sequence (forwarding m)).emit version).outcome =
        .ok ⟨0, (max m.argumentSlots m.returns.width.slots : Nat)⟩ := by
  obtain ⟨hvalid, hcall⟩ := emit_call version hm
  constructor
  · simp [forwarding, isValid, allValid, isValid_loadArguments.mpr h, hvalid, returning,
      Operation.isValid]
  · have hload : ((loadArguments m).emit version).outcome = .ok (.shift m.argumentSlots) := by
      rw [emit_loadArguments h]
    have hnothing : Emission.nothing.outcome = .ok .zero := rfl
    have hloaded := Emission.andThen_outcome hnothing hload
    have hcalled := Emission.andThen_outcome hloaded hcall
    have hreturned := Emission.andThen_outcome hcalled (emit_returning version m.returns)
    refine hreturned.trans ?_
    simp only [StackEffect.andThen, StackEffect.zero, StackEffect.shift, StackEffect.pop,
      Except.ok.injEq, StackEffect.mk.injEq]
    omega

end Fragment

namespace MethodBody

open Fragment

/-- A valid body whose operand stack and arguments fit gets the frame that they need. -/
theorem append_framed {version : ClassFileVersion} {m : MethodDesc} {items : List Fragment}
    {impact : Int} {peak : Nat} (hf : (sequence items).isValid = true)
    (hm : m.argumentSlots ≤ slotLimit) (hp : peak ≤ slotLimit)
    (he : ((sequence items).emit version).outcome = .ok ⟨impact, peak⟩) :
    ∃ size, (append version m (.fragments items)).result = .ok size ∧
      size.stack.toNat = peak ∧ size.locals.toNat = m.argumentSlots := by
  have hfits : ∀ n ≤ slotLimit, (UInt16.ofNat n).toNat = n := by
    intro n hn
    rw [UInt16.toNat_ofNat']
    unfold slotLimit at hn
    omega
  have ho := appendFragment_outcome version m (.sequence items)
  rw [append]
  generalize appendFragment version m (.sequence items) = r at ho ⊢
  cases ho with
  | invalid hf' => exact absurd hf (by simp [hf'])
  | crowded _ hm' => exact absurd hm (Nat.not_le.mpr hm')
  | overflow _ _ he' hp' =>
    rw [he'] at he
    cases he
    exact absurd hp' (by simpa using hp)
  | framed _ _ he' _ =>
    rw [he'] at he
    cases he
    exact ⟨_, rfl, hfits peak hp, hfits m.argumentSlots hm⟩

theorem append_forwarding (version : ClassFileVersion) (m : MethodDesc) :
    ((loadArguments m).isValid = true ↔ ∀ t ∈ m.parameters, t.isVoid = false) ∧
    ((∀ t ∈ m.parameters, t.isVoid = false) → m.argumentSlots ≤ slotLimit →
      (∃ placed : List Placed, placed.map Placed.type = m.arguments ∧
        (loadArguments m).emit version = ⟨(placed.map Placed.load).toArray,
          .ok ⟨m.argumentSlots, m.argumentSlots⟩⟩ ∧
        Tiles 0 placed m.argumentSlots ∧
        (placed.Pairwise fun p q => p.stop ≤ q.slot.toNat) ∧
        ∀ k, (∃ p ∈ placed, p.slot.toNat ≤ k ∧ k < p.stop) ↔ k < m.argumentSlots) ∧
      (m.isTypeInitializer = false →
        ((sequence (forwarding m)).emit version).outcome =
            .ok ⟨0, (max m.argumentSlots m.returns.width.slots : Nat)⟩ ∧
          ∃ size, (append version m (.fragments (forwarding m))).result = .ok size ∧
            size.stack.toNat = max m.argumentSlots m.returns.width.slots ∧
            size.locals.toNat = m.argumentSlots)) := by
  refine ⟨isValid_loadArguments, fun h hm => ⟨?_, fun hinit => ?_⟩⟩
  · have htiles : Tiles 0 (place 0 m.arguments) m.argumentSlots := by
      have htiles := tiles_place 0 m.arguments
      simp only [m.slotsOf_arguments, UInt16.toNat_zero, Nat.zero_add] at htiles
      exact htiles hm
    refine ⟨place 0 m.arguments, map_type_place 0 m.arguments, ?_, htiles, htiles.ordered, ?_⟩
    · rw [emit_loadArguments h, StackEffect.shift, Int.max_eq_left (Int.natCast_nonneg _)]
    · intro k
      rw [htiles.covers]
      exact and_iff_right k.zero_le
  · obtain ⟨hvalid, houtcome⟩ := emit_forwarding version h hinit
    have hreturns : m.returns.width.slots ≤ slotLimit := by
      cases m.returns.width <;> decide
    exact ⟨houtcome, append_framed hvalid hm (Nat.max_le.mpr ⟨hm, hreturns⟩) houtcome⟩

/-- The receiver, an argument of two slots, a reference, and two slots again. -/
theorem append_forwarding_mixed :
    let m : MethodDesc := ⟨.classNamed "pkg.Foo", "bar", .string,
      [.primitive .long, .string, .primitive .double], .ofList [.pub], []⟩
    (∀ t ∈ m.parameters, t.isVoid = false) ∧ m.argumentSlots = 6 ∧
      ((loadArguments m).emit .standard).code =
        #[.slot 0x19 0, .slot 0x16 1, .slot 0x19 3, .slot 0x18 4] ∧
      ∃ size, (append .standard m (.fragments (forwarding m))).result = .ok size ∧
        size.stack.toNat = 6 ∧ size.locals.toNat = 6 := by
  intro m
  have h : ∀ t ∈ m.parameters, t.isVoid = false := by decide
  have hm : m.argumentSlots = 6 := by decide
  have hinit : m.isTypeInitializer = false := by decide
  obtain ⟨hloads, hbody⟩ := (append_forwarding .standard m).2 h (by rw [hm]; decide)
  obtain ⟨size, hsize, hstack, hlocals⟩ := (hbody hinit).2
  exact ⟨h, hm, by cbv, size, hsize, hstack.trans (by decide), hlocals.trans hm⟩

end MethodBody

end ClassSynthesis
