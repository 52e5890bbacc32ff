import Mathlib.Logic.Relation
import Mathlib.Order.WellFounded
import ClassSynthesis.Proofs.Types.Sameness

/-!
# ClassSynthesis.Proofs.Types.Hierarchy

The hierarchy as a relation. `DirectlyBelow` is one edge from a type to its superclass or to one of
its interfaces, `Below` any number of edges, at least one. A type is described together with
everything above it, so no path goes up for ever (`hierarchy_wf`) and none comes back
(`not_below_self`).

* `inheritsFrom_iff`: inheritance is a path to a type that is the same as the target.
* `isAssignableFrom_primitive`, `isAssignableFrom_array`, `isAssignableFrom_declared`: assignability
  by the kind of the target.
-/

namespace ClassSynthesis
namespace TypeDesc

def DirectlyBelow (t u : TypeDesc) : Prop := t.superclass = some u ∨ u ∈ t.interfaces

def Below : TypeDesc → TypeDesc → Prop := Relation.TransGen DirectlyBelow

variable {t u target source : TypeDesc}

/-! ## Edges -/

theorem not_directlyBelow_primitive {p : Primitive} : ¬ (primitive p).DirectlyBelow u := by
  simp [DirectlyBelow, superclass, interfaces]

theorem directlyBelow_array {c : TypeDesc} :
    (array c).DirectlyBelow u ↔ u ∈ [object, cloneable, serializable] := by
  simp [DirectlyBelow, superclass, interfaces, eq_comm]

/-- The types above arrays have nothing above them. -/
theorem not_directlyBelow_platform (h : t ∈ [object, cloneable, serializable]) :
    ¬ t.DirectlyBelow u := by
  simp only [List.mem_cons, List.not_mem_nil, or_false] at h
  rcases h with rfl | rfl | rfl <;> rintro (h | h) <;> cases h

/-- Paths upwards end: those of a declared type stay inside its description until they come to an
array, and those of an array have one edge. -/
theorem hierarchy_acc : ∀ t : TypeDesc, Acc (fun u t => DirectlyBelow t u) t
  | .primitive _ => ⟨_, fun _ h => absurd h not_directlyBelow_primitive⟩
  | .array _ => ⟨_, fun _ h => ⟨_, fun _ h' =>
      absurd h' (not_directlyBelow_platform (directlyBelow_array.mp h))⟩⟩
  | .declared _ _ s is _ => ⟨_, fun u _h => hierarchy_acc u⟩
termination_by t => sizeOf t
decreasing_by
  simp only [DirectlyBelow, superclass, interfaces] at _h
  rcases _h with rfl | hu
  · simp
    omega
  · have := List.sizeOf_lt_of_mem hu
    simp
    omega

theorem hierarchy_wf : WellFounded (fun u t => DirectlyBelow t u) := ⟨hierarchy_acc⟩

/-- What holds of a type as soon as it holds of all types directly above it. -/
@[elab_as_elim]
theorem hierarchy_induction {P : TypeDesc → Prop}
    (step : ∀ t, (∀ u, t.DirectlyBelow u → P u) → P t) (t : TypeDesc) : P t :=
  hierarchy_wf.induction t step

theorem not_below_self (t : TypeDesc) : ¬ t.Below t := fun h =>
  hierarchy_wf.transGen.irrefl.irrefl t (Relation.transGen_swap.mpr h)

/-! ## Inheritance -/

theorem reachesVia_iff {s : Option TypeDesc} :
    reachesVia s target = true ↔
      ∃ u, s = some u ∧ ((u == target) = true ∨ u.inheritsFrom target = true) := by
  cases s with
  | none => simp [reachesVia]
  | some u => simp [reachesVia]

theorem reachesViaAny_iff {is : List TypeDesc} :
    reachesViaAny is target = true ↔
      ∃ u ∈ is, (u == target) = true ∨ u.inheritsFrom target = true := by
  induction is with
  | nil => simp [reachesViaAny]
  | cons i is ih => simp [reachesViaAny, ih]

theorem not_inheritsFrom_platform (h : t ∈ [object, cloneable, serializable]) :
    t.inheritsFrom target = false := by
  simp only [List.mem_cons, List.not_mem_nil, or_false] at h
  rcases h with rfl | rfl | rfl <;> rfl

/-- The first edge of a path. -/
theorem inheritsFrom_step : t.inheritsFrom target = true ↔
    ∃ u, t.DirectlyBelow u ∧ ((u == target) = true ∨ u.inheritsFrom target = true) := by
  cases t with
  | primitive p => simp [inheritsFrom, not_directlyBelow_primitive]
  | array c =>
    rw [inheritsFrom, List.any_eq_true]
    constructor
    · rintro ⟨u, hu, he⟩
      exact ⟨u, directlyBelow_array.mpr hu, .inl he⟩
    · rintro ⟨u, hu, he | he⟩
      · exact ⟨u, directlyBelow_array.mp hu, he⟩
      · rw [not_inheritsFrom_platform (directlyBelow_array.mp hu)] at he
        cases he
  | declared name modifiers s is annotations =>
    rw [inheritsFrom, Bool.or_eq_true, reachesVia_iff, reachesViaAny_iff]
    constructor
    · rintro (⟨u, hu, he⟩ | ⟨u, hu, he⟩)
      · exact ⟨u, .inl hu, he⟩
      · exact ⟨u, .inr hu, he⟩
    · rintro ⟨u, hu | hu, he⟩
      · exact .inl ⟨u, hu, he⟩
      · exact .inr ⟨u, hu, he⟩

theorem inheritsFrom_iff :
    t.inheritsFrom target = true ↔ ∃ u, t.Below u ∧ (u == target) = true := by
  constructor
  · induction t using hierarchy_induction with
    | step t ih =>
      intro h
      obtain ⟨u, hu, he | hi⟩ := inheritsFrom_step.mp h
      · exact ⟨u, .single hu, he⟩
      · obtain ⟨v, hv, he⟩ := ih u hu hi
        exact ⟨v, .head hu hv, he⟩
  · rintro ⟨u, hu, he⟩
    induction hu using Relation.TransGen.head_induction_on with
    | single hu => exact inheritsFrom_step.mpr ⟨u, hu, .inl he⟩
    | head hu _ ih => exact inheritsFrom_step.mpr ⟨_, hu, .inr ih⟩

/-! ## Assignability by the kind of the target -/

theorem isAssignableFrom_primitive {p : Primitive} :
    (primitive p).isAssignableFrom source = true ↔ source = .primitive p := by
  cases source with
  | primitive q => simp [isAssignableFrom, @eq_comm _ p q]
  | array => simp [isAssignableFrom]
  | declared => simp [isAssignableFrom]

theorem isAssignableFrom_array {c : TypeDesc} :
    (array c).isAssignableFrom source = true ↔ ∃ d, source = .array d ∧ ((c == d) = true ∨
      c.isPrimitive = false ∧ d.isPrimitive = false ∧ c.isAssignableFrom d = true) := by
  cases source with
  | primitive p => simp [isAssignableFrom]
  | array d =>
    simp only [isAssignableFrom, Bool.or_eq_true, Bool.and_eq_true, Bool.not_eq_true', array.injEq,
      exists_eq_left', and_assoc]
    rfl
  | declared => simp [isAssignableFrom]

theorem isAssignableFrom_declared {name : String} {modifiers : Modifiers} {s : Option TypeDesc}
    {is : List TypeDesc} {annotations : List Annotation} :
    (declared name modifiers s is annotations).isAssignableFrom source = true ↔
      source.isPrimitive = false ∧ ((declared name modifiers s is annotations == source) = true ∨
        name = "java.lang.Object" ∨
        source.inheritsFrom (declared name modifiers s is annotations) = true) := by
  cases source with
  | primitive p => simp [isAssignableFrom, isPrimitive, asPrimitive]
  | array d =>
    simp only [isAssignableFrom, isObject, Bool.or_eq_true, beq_iff_eq, or_assoc, isPrimitive,
      asPrimitive, Option.isSome_none, true_and]
    rfl
  | declared =>
    simp only [isAssignableFrom, isObject, Bool.or_eq_true, beq_iff_eq, or_assoc, isPrimitive,
      asPrimitive, Option.isSome_none, true_and]
    rfl

end TypeDesc
end ClassSynthesis
