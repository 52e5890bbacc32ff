import ClassSynthesis.Emission.Coercion
import ClassSynthesis.Proofs.Stack.Typed
import ClassSynthesis.Proofs.Types.Sameness

/-!
# ClassSynthesis.Proofs.Emission.Coercion

The code of a valid coercion is well-typed: on a value of the source type it never gets stuck, and
it leaves a value of the target type. There is a lemma for each link of the chain and for each of
the conversions that a link puts together.

* `convert_sound`: the whole chain, with the effect that is accounted for.
-/

namespace ClassSynthesis

open TypedMachine TypeDesc

namespace TypeDesc

/-- The type may be called like a wrapper class only if it is that class. -/
def Standard (t : TypeDesc) : Prop :=
  ∀ p wrapper, Primitive.wrapper p = some wrapper → t.name = wrapper.name → t = wrapper

variable {t : TypeDesc} {p : Primitive}

theorem eq_of_asPrimitive (h : t.asPrimitive = some p) : t = .primitive p := by
  cases t with
  | primitive q =>
    cases h
    rfl
  | array c => cases h
  | declared => cases h

theorem eq_void (h : t.isVoid = true) : t = .void :=
  eq_of_asPrimitive (by simpa [isVoid] using h)

theorem isPrimitive_of_asPrimitive (h : t.asPrimitive = none) : t.isPrimitive = false := by
  simp [isPrimitive, h]

theorem width_of_isPrimitive (h : t.isPrimitive = false) : t.width = .single := by
  cases t with
  | primitive q => cases h
  | array c => rfl
  | declared => rfl

end TypeDesc

namespace Coercion

/-- A value of a type: that of a primitive, or a reference that is assignable to it. -/
inductive Leaves : TypeDesc → List Operand → Prop where
  | primitive (p : Primitive) : Leaves (.primitive p) (valueOf (.primitive p))
  | null {target : TypeDesc} (h : target.isPrimitive = false) : Leaves target [.null]
  | reference {target t : TypeDesc} (h : target.isPrimitive = false)
      (ha : target.isAssignableFrom t = true) : Leaves target [.reference t]

/-- The types that a cast may name: the target of the coercion and the wrapper classes. -/
def typesFor (target : TypeDesc) (name : String) : Option TypeDesc :=
  (target :: Primitive.all.filterMap Primitive.wrapper).find? fun t =>
    !t.isPrimitive && t.internalName == name

variable {types : String → Option TypeDesc} {version : ClassFileVersion} {dynamic : Bool}
  {source target wrapper : TypeDesc} {p q : Primitive}

/-! ## Wrapper classes -/

/-- A wrapper class by the methods that coercions call. -/
def wrapping (wrapper : TypeDesc) (p : Primitive) : Wrapping :=
  ⟨p, wrapper.internalName, (boxingMethod wrapper p).descriptor, (unboxingMethod wrapper p).name,
    (unboxingMethod wrapper p).descriptor⟩

/-- The machine knows these methods. -/
theorem wrapping?_of_wrapper (h : p.wrapper = some wrapper) :
    wrapping? wrapper.internalName = some (wrapping wrapper p) := by
  cases p <;> cases h <;> cbv

theorem of_boxingMethod (h : p.wrapper = some wrapper) :
    CallSite.of (boxingMethod wrapper p) = .ok ⟨.static, boxingMethod wrapper p, wrapper⟩ := by
  cases p <;> cases h <;> rfl

theorem of_unboxingMethod (h : p.wrapper = some wrapper) :
    CallSite.of (unboxingMethod wrapper p) = .ok ⟨.virtual, unboxingMethod wrapper p, wrapper⟩ := by
  cases p <;> cases h <;> rfl

theorem isInterface_wrapper (h : p.wrapper = some wrapper) : wrapper.isInterface = false := by
  cases p <;> cases h <;> rfl

theorem isPrimitive_wrapper (h : p.wrapper = some wrapper) : wrapper.isPrimitive = false := by
  cases p <;> cases h <;> rfl

/-- Only `void` has no value, and it has no wrapper class either. -/
theorem ofPrimitive?_of_wrapper (h : p.wrapper = some wrapper) :
    ∃ o, Operand.ofPrimitive? p = some o := by
  cases p <;> cases h <;> exact ⟨_, rfl⟩

/-! ## Conversions -/

theorem call_emit {m : MethodDesc} {c : CallSite} (h : CallSite.of m = .ok c) :
    (Fragment.call m).emit version = (Operation.call c).emit version := by
  simp [Fragment.call, Fragment.callVia, h, CallSite.retargetAll?, Fragment.emit]

theorem boxing_runs (h : p.wrapper = some wrapper) :
    Runs types ((Fragment.call (boxingMethod wrapper p)).emit version)
      (valueOf (.primitive p)) [.reference wrapper] := by
  rw [call_emit (of_boxingMethod h)]
  refine .instruction rfl rfl ?_ fun below => ?_
  · cases p <;> cases h <;> rfl
  · obtain ⟨o, ho⟩ := ofPrimitive?_of_wrapper h
    have hcall := (wrapping wrapper p).call?_boxing ho
    rw [wrapping, h] at hcall
    rw [CallSite.instruction, isInterface_wrapper h, valueOf, ho]
    exact step?_call (wrapping?_of_wrapper h) hcall below

/-- The accessor may be called on any reference that is assignable to the wrapper. -/
theorem unboxing_runs {t : TypeDesc} (h : p.wrapper = some wrapper)
    (ht : wrapper.isAssignableFrom t = true) :
    Runs types ((Fragment.call (unboxingMethod wrapper p)).emit version) [.reference t]
      (valueOf (.primitive p)) := by
  rw [call_emit (of_unboxingMethod h)]
  refine .instruction rfl rfl ?_ fun below => ?_
  · cases p <;> cases h <;> rfl
  · obtain ⟨o, ho⟩ := ofPrimitive?_of_wrapper h
    have haccepts : (wrapping wrapper p).accepts (.reference t) = true := by
      simp [wrapping, Wrapping.accepts, h, ht]
    have hcall := (wrapping wrapper p).call?_accessor haccepts
    rw [CallSite.instruction, isInterface_wrapper h, valueOf, ho]
    exact step?_call (wrapping?_of_wrapper h) (hcall.trans ho) below

/-- A conversion of one primitive to another: nothing to do, or one instruction. -/
theorem widening_cases (h : (Widening.of p q).operation.isValid = true) :
    Widening.of p q = .same ∧ Operand.ofPrimitive? p = Operand.ofPrimitive? q ∨
    ∃ op impact o o', Widening.of p q = .convert op impact ∧ Operand.ofPrimitive? p = some o ∧
      Operand.ofPrimitive? q = some o' ∧ constant? op = none ∧ converted? op o = some o' ∧
      impact = (o'.slots : Int) - o.slots := by
  cases p <;> cases q <;> first
    | exact .inl ⟨rfl, rfl⟩
    | exact .inr ⟨_, _, _, _, rfl, rfl, rfl, rfl, rfl, rfl⟩
    | cases h

theorem widening_runs (h : (Widening.of p q).operation.isValid = true) :
    Runs types ((Widening.of p q).operation.emit version) (valueOf (.primitive p))
      (valueOf (.primitive q)) := by
  rcases widening_cases h with ⟨hw, hpq⟩ | ⟨op, impact, o, o', hw, ho, ho', hc, hv, rfl⟩
  · rw [hw, valueOf, valueOf, hpq]
    exact .nothing _
  · rw [hw, valueOf, valueOf, ho, ho']
    refine .instruction rfl rfl ?_ fun below => ?_
    · simp [slots, Widening.operation, Operation.effect, StackEffect.shift]
    · simp [step?, plain?, hc, hv]

theorem cast_runs (hknown : types target.internalName = some target) :
    Runs types ((Operation.cast target).emit version) [.reference source] [.reference target] := by
  refine .instruction rfl rfl rfl fun below => ?_
  simp [step?, Opcode.checkcast, replace, cast?, hknown]

/-- References only: what comes out is assignable to the target, and known if it was cast. -/
theorem widenReference_runs (hs : source.isPrimitive = false) (ht : target.isPrimitive = false)
    (hknown : types target.internalName = some target)
    (hv : (widenReference source target dynamic).isValid = true) :
    ∃ t, target.isAssignableFrom t = true ∧
      Runs types ((widenReference source target dynamic).emit version) [.reference source]
        [.reference t] := by
  have hw : widenReference source target dynamic =
      if target.isAssignableFrom source then .op .nothing
      else if dynamic then .op (.cast target) else .illegal := by
    simp [widenReference, hs, ht]
  rw [hw] at hv ⊢
  by_cases ha : target.isAssignableFrom source = true
  · rw [if_pos ha]
    exact ⟨source, ha, .nothing _⟩
  · rw [if_neg ha] at hv ⊢
    cases dynamic with
    | false => cases hv
    | true =>
      exact ⟨target, isAssignableFrom_of_same (beq_refl target), cast_runs hknown⟩

theorem defaultValue_runs (ht : target.isVoid = false) : ∃ after, Leaves target after ∧
    Runs types ((Operation.defaultValue target).emit version) [] after := by
  rcases target with p | c | _
  case primitive =>
    refine ⟨_, .primitive p, ?_⟩
    cases p <;> first
      | exact .instruction rfl rfl rfl fun below => rfl
      | cases ht
  case array => exact ⟨_, .null rfl, .instruction rfl rfl rfl fun below => rfl⟩
  case declared => exact ⟨_, .null rfl, .instruction rfl rfl rfl fun below => rfl⟩

theorem remove_runs (hs : source.isVoid = false) :
    Runs types ((Operation.remove source.width).emit version) (valueOf source) [] := by
  rcases source with p | c | _
  case primitive =>
    cases p <;> first
      | exact .instruction rfl rfl rfl fun below => rfl
      | cases hs
  case array => exact .instruction rfl rfl rfl fun below => rfl
  case declared => exact .instruction rfl rfl rfl fun below => rfl

/-! ## Links of the chain -/

theorem typesFor_self (ht : target.isPrimitive = false) :
    typesFor target target.internalName = some target := by
  simp [typesFor, ht]

theorem typesFor_wrapper (h : p.wrapper = some wrapper) :
    typesFor (.primitive q) wrapper.internalName = some wrapper := by
  cases p <;> cases h <;> cbv

theorem wrapper_of_ofWrapperName {name : String} (h : Primitive.ofWrapperName name = some p) :
    ∃ wrapper, p.wrapper = some wrapper ∧ wrapper.name = name := by
  have hp : p.wrapperName = some name := by simpa using List.find?_some h
  unfold Primitive.wrapper
  rw [hp, Option.map_some]
  refine ⟨_, rfl, ?_⟩
  split <;> rfl

/-- Both parts of a pair are valid if the pair is. -/
theorem isValid_pair {f g : Fragment} (h : (Fragment.sequence [f, g]).isValid = true) :
    f.isValid = true ∧ g.isValid = true := by
  simpa [Fragment.isValid, Fragment.allValid] using h

section

variable (version)

/-- A primitive becomes a reference: its wrapper, brought to the target. -/
theorem boxed_runs (hs : source.asPrimitive = some p) (ht : target.asPrimitive = none)
    (hv : ((primitive reference).convert dynamic source target).isValid = true) :
    ∃ after, Leaves target after ∧
      Runs (typesFor target) (((primitive reference).convert dynamic source target).emit version)
        (valueOf source) after := by
  have htp := isPrimitive_of_asPrimitive ht
  obtain rfl := eq_of_asPrimitive hs
  cases hw : p.wrapper with
  | none =>
    simp only [convert, hs, ht, hw] at hv
    cases hv
  | some wrapper =>
    simp only [convert, hs, ht, hw] at hv ⊢
    obtain ⟨t, ha, hrun⟩ := widenReference_runs (isPrimitive_wrapper hw) htp
      (typesFor_self htp) (isValid_pair hv).2
    exact ⟨_, .reference htp ha, (boxing_runs hw).pair hrun⟩

/-- A reference becomes a primitive: a wrapper is unboxed and widened, anything else is cast to
the wrapper of the target. -/
theorem unboxed_runs (hsource : source.Standard) (hs : source.asPrimitive = none)
    (hv : ((primitive reference).convert dynamic source (.primitive q)).isValid = true) :
    Runs (typesFor (.primitive q))
      (((primitive reference).convert dynamic source (.primitive q)).emit version)
      (valueOf source) (valueOf (.primitive q)) := by
  have hsp := isPrimitive_of_asPrimitive hs
  have hq : (TypeDesc.primitive q).asPrimitive = some q := rfl
  rw [valueOf_of_asPrimitive hs]
  cases hn : Primitive.ofWrapperName source.name with
  | some p =>
    simp only [convert, hs, hq, hn] at hv ⊢
    obtain ⟨wrapper, hw, hname⟩ := wrapper_of_ofWrapperName hn
    obtain rfl := hsource p wrapper hw hname.symm
    have ha := isAssignableFrom_of_same (beq_refl source)
    exact (unboxing_runs hw ha).pair (widening_runs (isValid_pair hv).2)
  | none =>
    cases hw : q.wrapper with
    | none =>
      simp only [convert, hs, hq, hn, hw] at hv
      cases hv
    | some wrapper =>
      cases dynamic with
      | false =>
        simp only [convert, hs, hq, hn, hw] at hv
        cases hv
      | true =>
        simp only [convert, hs, hq, hn, hw] at hv ⊢
        obtain ⟨t, ha, hrun⟩ := widenReference_runs hsp
          (isPrimitive_wrapper hw) (typesFor_wrapper hw) (isValid_pair hv).1
        exact hrun.pair (unboxing_runs hw ha)

theorem primitive_runs (hsource : source.Standard)
    (hv : ((primitive reference).convert dynamic source target).isValid = true) :
    ∃ after, Leaves target after ∧
      Runs (typesFor target) (((primitive reference).convert dynamic source target).emit version)
        (valueOf source) after := by
  cases hs : source.asPrimitive with
  | some p =>
    cases ht : target.asPrimitive with
    | some q =>
      obtain rfl := eq_of_asPrimitive hs
      obtain rfl := eq_of_asPrimitive ht
      refine ⟨_, .primitive q, ?_⟩
      by_cases hpq : p = q
      · obtain rfl := hpq
        simp only [convert, hs, if_pos]
        exact .nothing _
      · simp only [convert, hs, ht, if_neg hpq] at hv ⊢
        exact widening_runs hv
    | none => exact boxed_runs version hs ht hv
  | none =>
    cases ht : target.asPrimitive with
    | some q =>
      obtain rfl := eq_of_asPrimitive ht
      exact ⟨_, .primitive q, unboxed_runs version hsource hs hv⟩
    | none =>
      have htp := isPrimitive_of_asPrimitive ht
      simp only [convert, hs, ht] at hv ⊢
      obtain ⟨t, ha, hrun⟩ := widenReference_runs
        (isPrimitive_of_asPrimitive hs) htp (typesFor_self htp) hv
      rw [valueOf_of_asPrimitive hs]
      exact ⟨_, .reference htp ha, hrun⟩

theorem standard_runs (hsource : source.Standard) {defaultValue : Bool}
    (hv : ((standard defaultValue).convert dynamic source target).isValid = true) :
    ∃ after, Leaves target after ∧
      Runs (typesFor target) (((standard defaultValue).convert dynamic source target).emit version)
        (valueOf source) after := by
  unfold standard convert at hv ⊢
  cases hs : source.isVoid with
  | true =>
    obtain rfl := eq_void hs
    cases ht : target.isVoid with
    | true =>
      obtain rfl := eq_void ht
      exact ⟨_, .primitive .void, .nothing _⟩
    | false =>
      cases defaultValue with
      | true => exact defaultValue_runs ht
      | false =>
        simp only [hs, ht] at hv
        cases hv
  | false =>
    cases ht : target.isVoid with
    | true =>
      obtain rfl := eq_void ht
      exact ⟨_, .primitive .void, remove_runs hs⟩
    | false =>
      simp only [hs, ht] at hv ⊢
      exact primitive_runs version hsource hv

end

theorem Leaves.slots {after : List Operand} (h : Leaves target after) :
    slots after = target.width.slots := by
  cases h with
  | primitive p => exact slots_valueOf (.primitive p)
  | null ht => rw [width_of_isPrimitive ht]; rfl
  | reference ht ha => rw [width_of_isPrimitive ht]; rfl

theorem convert_sound (version : ClassFileVersion) (defaultValue dynamic : Bool)
    (source target : TypeDesc) (hsource : source.Standard)
    (hvalid : ((standard defaultValue).convert dynamic source target).isValid = true) :
    let emission := ((standard defaultValue).convert dynamic source target).emit version
    (∃ s, emission.outcome = .ok s ∧
      s.impact = (target.width.slots : Int) - source.width.slots) ∧
    ∃ after, Leaves target after ∧ ∀ below,
      run (typesFor target) emission.code.toList (valueOf source ++ below) =
        some (after ++ below) := by
  obtain ⟨after, hafter, ⟨s, hs, himpact⟩, hcode⟩ := standard_runs version hsource hvalid
  refine ⟨⟨s, hs, ?_⟩, after, hafter, hcode⟩
  rw [himpact, hafter.slots, slots_valueOf]

/-- A reference that has to be cast before it is unboxed. -/
theorem convert_sound_cast :
    let emission := ((standard false).convert true .object (.primitive .long)).emit .standard
    (∃ s, emission.outcome = .ok s ∧ s.impact = (2 : Int) - 1) ∧
    ∃ after, Leaves (.primitive .long) after ∧ ∀ below,
      run (typesFor (.primitive .long)) emission.code.toList ([.reference .object] ++ below) =
        some (after ++ below) := by
  refine convert_sound .standard false true .object (.primitive .long) ?_ rfl
  intro p wrapper h hname
  cases p <;> cases h <;> exact absurd hname (by decide)

end Coercion
end ClassSynthesis
