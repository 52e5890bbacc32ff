import Mathlib.Logic.Relation
import ClassSynthesis.Proofs.Emission.Coercion
import ClassSynthesis.Proofs.Emission.Dispatch

/-!
# ClassSynthesis.Proofs.Emission.Conversions

Which conversions there are. `Converts` lists them without the chain of coercions: values that are
dropped, default values, primitives that are widened step by step, boxed or unboxed, and references
that are widened or cast. The standard chain makes these and no others.

* `Widening.isValid_of_iff`: the table of widenings is closed under steps, and holds nothing else.
* `isValid_standard_iff`: the chain's fragment is valid exactly for the conversions listed.
* `checked_standard_iff`: these are made, and the others are refused by the names of both types.
-/

namespace ClassSynthesis

namespace Primitive

/-- The type that a primitive is widened to in one step. -/
def next? : Primitive → Option Primitive
  | .byte => some .short
  | .short => some .int
  | .char => some .int
  | .int => some .long
  | .long => some .float
  | .float => some .double
  | _ => none

/-- Any number of steps, none included. -/
def WidensTo : Primitive → Primitive → Prop :=
  Relation.ReflTransGen fun p q => p.next? = some q

end Primitive

namespace Widening

variable {p q r : Primitive}

theorem isValid_of_self (h : p ≠ .void) : (of p p).operation.isValid = true := by
  cases p with
  | void => exact absurd rfl h
  | _ => rfl

/-- One step more at the front. -/
theorem isValid_of_next (hp : p.next? = some r) (h : (of r q).operation.isValid = true) :
    (of p q).operation.isValid = true := by
  cases p <;> cases hp <;> cases q <;> first | rfl | cases h

theorem widensTo_of_isValid (h : (of p q).operation.isValid = true) : p.WidensTo q := by
  -- The other entries of the table go up step by step to their target.
  cases p <;> cases q <;> first
    | (cases h; done)
    | repeat first
        | exact .refl
        | refine .head rfl ?_

theorem isValid_of_iff :
    (of p q).operation.isValid = true ↔ p ≠ .void ∧ p.WidensTo q := by
  constructor
  · intro h
    refine ⟨?_, widensTo_of_isValid h⟩
    rintro rfl
    cases q <;> cases h
  · rintro ⟨hp, h⟩
    induction h using Relation.ReflTransGen.head_induction_on with
    | refl => exact isValid_of_self hp
    | @head p r hr _ ih =>
      refine isValid_of_next hr (ih ?_)
      rintro rfl
      cases p <;> cases hr

end Widening

/-! ## Kinds of types -/

theorem Primitive.exists_wrapper {p : Primitive} (h : p ≠ .void) :
    ∃ wrapper, p.wrapper = some wrapper := by
  cases p with
  | void => exact absurd rfl h
  | _ => exact ⟨_, rfl⟩

namespace TypeDesc

variable {t : TypeDesc} {p : Primitive}

/-- The type is called like the class that boxes the primitive. -/
def Wraps (t : TypeDesc) (p : Primitive) : Prop :=
  ∃ wrapper, p.wrapper = some wrapper ∧ wrapper.name = t.name

theorem Wraps.ne_void (h : t.Wraps p) : p ≠ .void := by
  rintro rfl
  obtain ⟨wrapper, hw, -⟩ := h
  cases hw

theorem ofWrapperName_iff : Primitive.ofWrapperName t.name = some p ↔ t.Wraps p := by
  constructor
  · exact Coercion.wrapper_of_ofWrapperName
  · rintro ⟨wrapper, hw, hname⟩
    rw [← hname]
    cases p <;> cases hw <;> cbv

theorem ofWrapperName_eq_none_iff :
    Primitive.ofWrapperName t.name = none ↔ ∀ p, ¬t.Wraps p := by
  simp only [Option.eq_none_iff_forall_ne_some, ne_eq, ofWrapperName_iff]

theorem asPrimitive_of_isPrimitive (h : t.isPrimitive = false) : t.asPrimitive = none := by
  simpa [isPrimitive] using h

theorem isVoid_of_isPrimitive (h : t.isPrimitive = false) : t.isVoid = false := by
  simp [isVoid, asPrimitive_of_isPrimitive h]

theorem isVoid_primitive (h : p ≠ .void) : (primitive p).isVoid = false := by
  simp [isVoid, asPrimitive, h]

theorem cases_of_not_void (h : t.isVoid = false) :
    t.isPrimitive = false ∨ ∃ p, p ≠ .void ∧ t = .primitive p := by
  cases t with
  | primitive p =>
    refine .inr ⟨p, ?_, rfl⟩
    rintro rfl
    cases h
  | array => exact .inl rfl
  | declared => exact .inl rfl

end TypeDesc

namespace Coercion

open TypeDesc

variable {dynamic : Bool} {source target : TypeDesc} {p q : Primitive}

/-! ## Conversions -/

/-- What the standard chain is to convert. -/
inductive Converts (defaultValue dynamic : Bool) : TypeDesc → TypeDesc → Prop where
  | dropped {source target : TypeDesc} (ht : target.isVoid = true) :
      Converts defaultValue dynamic source target
  | defaulted {source target : TypeDesc} (hs : source.isVoid = true) (hd : defaultValue = true) :
      Converts defaultValue dynamic source target
  | widened {p q : Primitive} (hp : p ≠ .void) (hq : q ≠ .void) (hw : p.WidensTo q) :
      Converts defaultValue dynamic (.primitive p) (.primitive q)
  | boxed {p : Primitive} {target : TypeDesc} (hp : p ≠ .void) (ht : target.isPrimitive = false)
      (ha : dynamic = true ∨
        ∃ wrapper, p.wrapper = some wrapper ∧ target.isAssignableFrom wrapper = true) :
      Converts defaultValue dynamic (.primitive p) target
  | unboxed {source : TypeDesc} {p q : Primitive} (hs : source.isPrimitive = false)
      (hq : q ≠ .void) (hp : source.Wraps p) (hw : p.WidensTo q) :
      Converts defaultValue dynamic source (.primitive q)
  | unboxedAfterCast {source : TypeDesc} {q : Primitive} (hs : source.isPrimitive = false)
      (hq : q ≠ .void) (hn : ∀ p, ¬source.Wraps p) (hd : dynamic = true) :
      Converts defaultValue dynamic source (.primitive q)
  | reference {source target : TypeDesc} (hs : source.isPrimitive = false)
      (ht : target.isPrimitive = false)
      (ha : dynamic = true ∨ target.isAssignableFrom source = true) :
      Converts defaultValue dynamic source target

/-! ## Links of the chain -/

theorem isValid_call {m : MethodDesc} (h : m.isTypeInitializer = false) :
    (Fragment.call m).isValid = true := by
  obtain ⟨origin, ho⟩ := CallSite.of_ok h
  simp [Fragment.call, Fragment.callVia, ho, CallSite.retargetAll?, Fragment.isValid,
    Operation.isValid]

theorem isValid_boxing (wrapper : TypeDesc) (p : Primitive) :
    (Fragment.call (boxingMethod wrapper p)).isValid = true :=
  isValid_call rfl

theorem isValid_unboxing (wrapper : TypeDesc) (p : Primitive) :
    (Fragment.call (unboxingMethod wrapper p)).isValid = true :=
  isValid_call (by cases p <;> rfl)

theorem isValid_pair_iff {f g : Fragment} :
    (Fragment.sequence [f, g]).isValid = true ↔ f.isValid = true ∧ g.isValid = true := by
  refine ⟨isValid_pair, ?_⟩
  rintro ⟨hf, hg⟩
  simp [Fragment.isValid, Fragment.allValid, hf, hg]

theorem isValid_widenReference_iff (hs : source.isPrimitive = false)
    (ht : target.isPrimitive = false) :
    (widenReference source target dynamic).isValid = true ↔
      dynamic = true ∨ target.isAssignableFrom source = true := by
  unfold widenReference
  rw [if_neg (by simp [hs, ht])]
  by_cases ha : target.isAssignableFrom source = true
  · rw [if_pos ha]
    exact iff_of_true rfl (.inr ha)
  · rw [if_neg ha]
    cases dynamic with
    | false => simp [ha, Fragment.isValid, Fragment.illegal, Operation.isValid]
    | true => simp [ht, Fragment.isValid, Operation.isValid]

theorem isValid_widened_iff (hp : p ≠ .void) :
    ((primitive reference).convert dynamic (.primitive p) (.primitive q)).isValid = true ↔
      p.WidensTo q := by
  simp only [convert, TypeDesc.asPrimitive]
  by_cases hpq : p = q
  · obtain rfl := hpq
    rw [if_pos rfl]
    exact iff_of_true rfl .refl
  · rw [if_neg hpq, Fragment.isValid, Widening.isValid_of_iff]
    exact and_iff_right hp

theorem isValid_boxed_iff (hp : p ≠ .void) (ht : target.isPrimitive = false) :
    ((primitive reference).convert dynamic (.primitive p) target).isValid = true ↔
      dynamic = true ∨
        ∃ wrapper, p.wrapper = some wrapper ∧ target.isAssignableFrom wrapper = true := by
  obtain ⟨wrapper, hw⟩ := Primitive.exists_wrapper hp
  have hsource : (TypeDesc.primitive p).asPrimitive = some p := rfl
  simp only [convert, hsource, asPrimitive_of_isPrimitive ht, hw, Option.some.injEq,
    exists_eq_left']
  rw [isValid_pair_iff, isValid_widenReference_iff (isPrimitive_wrapper hw) ht]
  exact and_iff_right (isValid_boxing wrapper p)

theorem isValid_unboxed_iff (hs : source.isPrimitive = false) (hq : q ≠ .void) :
    ((primitive reference).convert dynamic source (.primitive q)).isValid = true ↔
      (∃ p, source.Wraps p ∧ p.WidensTo q) ∨ (∀ p, ¬source.Wraps p) ∧ dynamic = true := by
  have htarget : (TypeDesc.primitive q).asPrimitive = some q := rfl
  cases hn : Primitive.ofWrapperName source.name with
  | some p =>
    have hwraps := ofWrapperName_iff.mp hn
    simp only [convert, asPrimitive_of_isPrimitive hs, htarget, hn]
    rw [isValid_pair_iff, Fragment.isValid, Widening.isValid_of_iff]
    constructor
    · rintro ⟨-, -, h⟩
      exact .inl ⟨p, hwraps, h⟩
    · rintro (⟨p', hp', h⟩ | ⟨h, -⟩)
      · -- A name is that of one wrapper class at most.
        rw [ofWrapperName_iff.mpr hp'] at hn
        cases hn
        exact ⟨isValid_unboxing source p, hwraps.ne_void, h⟩
      · exact absurd hwraps (h p)
  | none =>
    have hwraps := ofWrapperName_eq_none_iff.mp hn
    obtain ⟨wrapper, hw⟩ := Primitive.exists_wrapper hq
    simp only [convert, asPrimitive_of_isPrimitive hs, htarget, hn, hw]
    cases dynamic with
    | false =>
      refine iff_of_false Bool.false_ne_true ?_
      rintro (⟨p, hp, -⟩ | ⟨-, h⟩)
      · exact hwraps p hp
      · cases h
    | true =>
      rw [if_pos rfl, isValid_pair_iff, isValid_widenReference_iff hs (isPrimitive_wrapper hw)]
      exact iff_of_true ⟨.inl rfl, isValid_unboxing wrapper q⟩ (.inr ⟨hwraps, rfl⟩)

theorem isValid_reference_iff (hs : source.isPrimitive = false) (ht : target.isPrimitive = false) :
    ((primitive reference).convert dynamic source target).isValid = true ↔
      dynamic = true ∨ target.isAssignableFrom source = true := by
  simp only [convert, asPrimitive_of_isPrimitive hs, asPrimitive_of_isPrimitive ht]
  exact isValid_widenReference_iff hs ht

/-! ## The standard chain -/

variable {defaultValue : Bool}

theorem standard_of_void_target (ht : target.isVoid = true) :
    ((standard defaultValue).convert dynamic source target).isValid = true := by
  unfold standard convert
  split_ifs <;> rfl

theorem standard_of_void_source (hs : source.isVoid = true) (ht : target.isVoid = false) :
    ((standard defaultValue).convert dynamic source target).isValid = defaultValue := by
  unfold standard convert
  rw [if_pos hs, if_neg (by simp [ht])]
  cases defaultValue <;> rfl

theorem standard_of_values (hs : source.isVoid = false) (ht : target.isVoid = false) :
    (standard defaultValue).convert dynamic source target =
      (primitive reference).convert dynamic source target := by
  simp only [standard, convert, hs, ht, Bool.false_eq_true, if_false]

theorem isValid_of_converts (h : Converts defaultValue dynamic source target) :
    ((standard defaultValue).convert dynamic source target).isValid = true := by
  cases h with
  | dropped ht => exact standard_of_void_target ht
  | defaulted hs hd =>
    cases ht : target.isVoid with
    | true => exact standard_of_void_target ht
    | false => rw [standard_of_void_source hs ht, hd]
  | widened hp hq hw =>
    rw [standard_of_values (isVoid_primitive hp) (isVoid_primitive hq)]
    exact (isValid_widened_iff hp).mpr hw
  | boxed hp ht ha =>
    rw [standard_of_values (isVoid_primitive hp) (isVoid_of_isPrimitive ht)]
    exact (isValid_boxed_iff hp ht).mpr ha
  | unboxed hs hq hp hw =>
    rw [standard_of_values (isVoid_of_isPrimitive hs) (isVoid_primitive hq)]
    exact (isValid_unboxed_iff hs hq).mpr (.inl ⟨_, hp, hw⟩)
  | unboxedAfterCast hs hq hn hd =>
    rw [standard_of_values (isVoid_of_isPrimitive hs) (isVoid_primitive hq)]
    exact (isValid_unboxed_iff hs hq).mpr (.inr ⟨hn, hd⟩)
  | reference hs ht ha =>
    rw [standard_of_values (isVoid_of_isPrimitive hs) (isVoid_of_isPrimitive ht)]
    exact (isValid_reference_iff hs ht).mpr ha

theorem converts_of_isValid
    (h : ((standard defaultValue).convert dynamic source target).isValid = true) :
    Converts defaultValue dynamic source target := by
  cases ht : target.isVoid with
  | true => exact .dropped ht
  | false =>
    cases hs : source.isVoid with
    | true =>
      rw [standard_of_void_source hs ht] at h
      exact .defaulted hs h
    | false =>
      rw [standard_of_values hs ht] at h
      rcases cases_of_not_void hs with hsp | ⟨p, hp, rfl⟩
      · rcases cases_of_not_void ht with htp | ⟨q, hq, rfl⟩
        · exact .reference hsp htp ((isValid_reference_iff hsp htp).mp h)
        · rcases (isValid_unboxed_iff hsp hq).mp h with ⟨p, hp, hw⟩ | ⟨hn, hd⟩
          · exact .unboxed hsp hq hp hw
          · exact .unboxedAfterCast hsp hq hn hd
      · rcases cases_of_not_void ht with htp | ⟨q, hq, rfl⟩
        · exact .boxed hp htp ((isValid_boxed_iff hp htp).mp h)
        · exact .widened hp hq ((isValid_widened_iff hp).mp h)

theorem isValid_standard_iff :
    ((standard defaultValue).convert dynamic source target).isValid = true ↔
      Converts defaultValue dynamic source target :=
  ⟨converts_of_isValid, isValid_of_converts⟩

theorem checked_standard_iff (defaultValue dynamic : Bool) (source target : TypeDesc) :
    (((standard defaultValue).convert dynamic source target).isValid = true ↔
      Converts defaultValue dynamic source target) ∧
    (∀ f, (standard defaultValue).checked dynamic source target = .ok f ↔
      Converts defaultValue dynamic source target ∧
        f = (standard defaultValue).convert dynamic source target) ∧
    ∀ e, (standard defaultValue).checked dynamic source target = .error e ↔
      ¬Converts defaultValue dynamic source target ∧
        e = .incompatibleTypes source.sourceName target.sourceName := by
  refine ⟨isValid_standard_iff, ?_⟩
  simp only [checked, ← isValid_standard_iff]
  by_cases hv : ((standard defaultValue).convert dynamic source target).isValid = true
  · simp [hv, eq_comm]
  · simp [hv, eq_comm]

end Coercion
end ClassSynthesis
