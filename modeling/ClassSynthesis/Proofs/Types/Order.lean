import Mathlib.Data.List.Pairwise
import Mathlib.Data.Set.Insert
import ClassSynthesis.Proofs.Types.Hierarchy

/-!
# ClassSynthesis.Proofs.Types.Order

Assignability as an order. Types are compared by name, so descriptions that give one name two
meanings break it. A set of types is `Coherent` when every class name met from it, through
components, superclasses and interfaces, is described in one way only, and the types above arrays
are the platform's. Then types that compare as the same are equal (`Coherent.eq_of_same`) and
inheritance is being below (`Coherent.inheritsFrom_iff_below`).

* `isAssignableFrom_partialOrder`: on a coherent set of types, assignability is reflexive,
  transitive and antisymmetric.
-/

namespace ClassSynthesis
namespace TypeDesc

/-- The second type is met on the way from the first through components, superclasses and
interfaces. -/
inductive Meets : TypeDesc → TypeDesc → Prop where
  | self (t : TypeDesc) : Meets t t
  | component {c u : TypeDesc} : Meets c u → Meets (.array c) u
  | above {t s u : TypeDesc} : t.DirectlyBelow s → Meets s u → Meets t u

def className? : TypeDesc → Option String
  | .declared name _ _ _ _ => some name
  | _ => none

/-- One of the types leads to `x`. -/
def MetFrom (types : Set TypeDesc) (x : TypeDesc) : Prop := ∃ t ∈ types, t.Meets x

/-- Every class name has one meaning. -/
structure Coherent (types : Set TypeDesc) : Prop where
  unique : ∀ x y name, MetFrom types x → MetFrom types y → x.className? = some name →
    y.className? = some name → x = y
  platform : ∀ x, MetFrom types x → ∀ p ∈ [object, cloneable, serializable],
    x.className? = p.className? → x = p

variable {types : Set TypeDesc} {a b c t u x y : TypeDesc}

/-! ## What is met -/

theorem Meets.trans (h : a.Meets b) (h' : b.Meets c) : a.Meets c := by
  induction h with
  | self => exact h'
  | component _ ih => exact .component (ih h')
  | above hs _ ih => exact .above hs (ih h')

theorem Meets.of_below (h : a.Below b) : a.Meets b := by
  induction h with
  | single h => exact .above h (.self _)
  | tail _ h ih => exact ih.trans (.above h (.self _))

/-- Nothing is met outside types that are closed. -/
theorem Meets.mem_of_closed {all : List TypeDesc} (component : ∀ c, .array c ∈ all → c ∈ all)
    (superclass : ∀ t ∈ all, ∀ s, t.superclass = some s → s ∈ all)
    (interfaces : ∀ t ∈ all, t.interfaces ⊆ all) (h : t.Meets x) (ht : t ∈ all) : x ∈ all := by
  induction h with
  | self => exact ht
  | component _ ih => exact ih (component _ ht)
  | @above t s _ hs _ ih =>
    rcases hs with hs | hs
    · exact ih (superclass t ht s hs)
    · exact ih (interfaces t ht hs)

namespace MetFrom

theorem of_mem (h : t ∈ types) : MetFrom types t := ⟨t, h, .self t⟩

theorem meets (h : MetFrom types t) (h' : t.Meets x) : MetFrom types x := by
  obtain ⟨s, hs, hst⟩ := h
  exact ⟨s, hs, hst.trans h'⟩

theorem component (h : MetFrom types (.array c)) : MetFrom types c :=
  h.meets (.component (.self c))

theorem below (h : MetFrom types t) (h' : t.Below u) : MetFrom types u := h.meets (.of_below h')

end MetFrom

/-! ## One meaning for each name -/

theorem className?_of_same (h : (x == y) = true) : x.className? = y.className? := by
  have hs : x.same y = true := h
  cases x <;> cases y <;> simp_all [same, className?]

/-- Primitives are assignable to nothing but themselves. -/
theorem isPrimitive_of_assignable (h : b.isAssignableFrom a = true)
    (hb : b.isPrimitive = false) : a.isPrimitive = false := by
  cases b with
  | primitive => cases hb
  | array =>
    obtain ⟨d, rfl, -⟩ := isAssignableFrom_array.mp h
    rfl
  | declared => exact (isAssignableFrom_declared.mp h).1

namespace Coherent

/-- A list that is closed and has every class name once holds what a coherent set leads to. -/
theorem of_closed (all : List TypeDesc) (subset : ∀ t ∈ types, t ∈ all)
    (component : ∀ c, .array c ∈ all → c ∈ all)
    (superclass : ∀ t ∈ all, ∀ s, t.superclass = some s → s ∈ all)
    (interfaces : ∀ t ∈ all, t.interfaces ⊆ all)
    (names : all.Pairwise fun x y => x.className? = none ∨ x.className? ≠ y.className?)
    (platform : ∀ p ∈ [object, cloneable, serializable], p ∈ all) : Coherent types := by
  have hmem : ∀ x, MetFrom types x → x ∈ all := fun x ⟨t, ht, hx⟩ =>
    hx.mem_of_closed component superclass interfaces (subset t ht)
  have hsymm : Std.Symm fun x y : TypeDesc => x.className? = none ∨ x.className? ≠ y.className? := by
    refine ⟨fun x y h => ?_⟩
    rcases h with h | h
    · by_cases hy : y.className? = none
      · exact .inl hy
      · exact .inr fun he => hy (he.trans h)
    · exact .inr h.symm
  have hunique : ∀ x ∈ all, ∀ y ∈ all, ∀ name, x.className? = some name →
      y.className? = some name → x = y := by
    intro x hx y hy name hxn hyn
    by_contra hne
    rcases names.forall hx hy hne with h | h
    · rw [hxn] at h
      cases h
    · exact h (hxn.trans hyn.symm)
  constructor
  · intro x y name hx hy
    exact hunique x (hmem x hx) y (hmem y hy) name
  · intro x hx p hp he
    obtain ⟨name, hn⟩ : ∃ name, p.className? = some name := by
      simp only [List.mem_cons, List.not_mem_nil, or_false] at hp
      rcases hp with rfl | rfl | rfl <;> exact ⟨_, rfl⟩
    exact hunique x (hmem x hx) p (platform p hp) name (he.trans hn) hn

theorem eq_of_same (h : Coherent types) (hx : MetFrom types x) (hy : MetFrom types y)
    (he : (x == y) = true) : x = y := by
  induction x using component_induction generalizing y with
  | primitive p =>
    cases y with
    | primitive q => rw [eq_of_beq (show (p == q) = true from he)]
    | array => cases he
    | declared => cases he
  | array c ih =>
    cases y with
    | primitive => cases he
    | array d => rw [ih hx.component hy.component he]
    | declared => cases he
  | declared name => exact h.unique _ _ name hx hy rfl (className?_of_same he).symm

theorem inheritsFrom_iff_below (h : Coherent types) (hx : MetFrom types x)
    (hy : MetFrom types y) : x.inheritsFrom y = true ↔ x.Below y := by
  rw [inheritsFrom_iff]
  constructor
  · rintro ⟨u, hu, he⟩
    rwa [← h.eq_of_same (hx.below hu) hy he]
  · intro hb
    exact ⟨y, hb, beq_refl y⟩

/-- Nothing is above the class at the top, whoever declares it. -/
theorem not_inheritsFrom_of_object (h : Coherent types) (hx : MetFrom types x)
    (ho : x.className? = some "java.lang.Object") : x.inheritsFrom y = false := by
  rw [h.platform x hx object (.head _) ho]
  exact not_inheritsFrom_platform (.head _)

/-! ## The order -/

/-- By induction on the dimensions of the last target. Below arrays there are classes and
interfaces, and paths between those compose. -/
theorem isAssignableFrom_trans (h : Coherent types) (ha : MetFrom types a) (hb : MetFrom types b)
    (hc : MetFrom types c) (hcb : c.isAssignableFrom b = true)
    (hba : b.isAssignableFrom a = true) : c.isAssignableFrom a = true := by
  induction c using component_induction generalizing a b with
  | primitive p =>
    obtain rfl := isAssignableFrom_primitive.mp hcb
    exact hba
  | array c ih =>
    obtain ⟨b, rfl, hs | ⟨hcp, hbp, hcb⟩⟩ := isAssignableFrom_array.mp hcb
    · rwa [h.eq_of_same hc.component hb.component hs]
    · obtain ⟨a, rfl, hs | ⟨-, hap, hba⟩⟩ := isAssignableFrom_array.mp hba
      · rw [← h.eq_of_same hb.component ha.component hs]
        exact isAssignableFrom_array.mpr ⟨b, rfl, .inr ⟨hcp, hbp, hcb⟩⟩
      · exact isAssignableFrom_array.mpr ⟨a, rfl, .inr ⟨hcp, hap,
          ih ha.component hb.component hc.component hcb hba⟩⟩
  | declared name modifiers s is annotations =>
    obtain ⟨hbp, hs | ho | hi⟩ := isAssignableFrom_declared.mp hcb
    · rwa [h.eq_of_same hc hb hs]
    · exact isAssignableFrom_declared.mpr ⟨isPrimitive_of_assignable hba hbp, .inr (.inl ho)⟩
    · refine isAssignableFrom_declared.mpr ⟨isPrimitive_of_assignable hba hbp, .inr (.inr ?_)⟩
      cases b with
      | primitive => cases hbp
      | array b =>
        -- All arrays have the same types above them.
        obtain ⟨a, rfl, -⟩ := isAssignableFrom_array.mp hba
        exact hi
      | declared =>
        obtain ⟨-, hs | ho | hab⟩ := isAssignableFrom_declared.mp hba
        · rwa [← h.eq_of_same hb ha hs]
        · rw [h.not_inheritsFrom_of_object hb (congrArg some ho)] at hi
          cases hi
        · have hab := (h.inheritsFrom_iff_below ha hb).mp hab
          have hbc := (h.inheritsFrom_iff_below hb hc).mp hi
          exact (h.inheritsFrom_iff_below ha hc).mpr (hab.trans hbc)

/-- By induction on the dimensions. Two classes cannot each be below the other. -/
theorem isAssignableFrom_antisymm (h : Coherent types) (ha : MetFrom types a)
    (hb : MetFrom types b) (hab : a.isAssignableFrom b = true)
    (hba : b.isAssignableFrom a = true) : a = b := by
  induction a using component_induction generalizing b with
  | primitive p => exact (isAssignableFrom_primitive.mp hab).symm
  | array a ih =>
    obtain ⟨b, rfl, hs | ⟨-, -, hab⟩⟩ := isAssignableFrom_array.mp hab
    · rw [h.eq_of_same ha.component hb.component hs]
    · obtain ⟨a', ha', hs | ⟨-, -, hba⟩⟩ := isAssignableFrom_array.mp hba
      · cases ha'
        rw [h.eq_of_same hb.component ha.component hs]
      · cases ha'
        rw [ih ha.component hb.component hab hba]
  | declared name =>
    cases b with
    | primitive q => cases isAssignableFrom_primitive.mp hba
    | array b =>
      obtain ⟨_, hd, -⟩ := isAssignableFrom_array.mp hba
      cases hd
    | declared name' =>
      obtain ⟨-, hs | hao | hbelow⟩ := isAssignableFrom_declared.mp hab
      · exact h.eq_of_same ha hb hs
      · obtain ⟨-, hs | hbo | hbelow'⟩ := isAssignableFrom_declared.mp hba
        · exact (h.eq_of_same hb ha hs).symm
        · exact h.unique _ _ name ha hb rfl (congrArg some (hbo.trans hao.symm))
        · rw [h.not_inheritsFrom_of_object ha (congrArg some hao)] at hbelow'
          cases hbelow'
      · obtain ⟨-, hs | hbo | hbelow'⟩ := isAssignableFrom_declared.mp hba
        · exact (h.eq_of_same hb ha hs).symm
        · rw [h.not_inheritsFrom_of_object hb (congrArg some hbo)] at hbelow
          cases hbelow
        · have hba := (h.inheritsFrom_iff_below hb ha).mp hbelow
          have hab := (h.inheritsFrom_iff_below ha hb).mp hbelow'
          exact absurd (hab.trans hba) (not_below_self _)

end Coherent

theorem isAssignableFrom_partialOrder (h : Coherent types) :
    (∀ a : TypeDesc, a.isAssignableFrom a = true) ∧
    (∀ a ∈ types, ∀ b ∈ types, ∀ c ∈ types, c.isAssignableFrom b = true →
      b.isAssignableFrom a = true → c.isAssignableFrom a = true) ∧
    ∀ a ∈ types, ∀ b ∈ types, a.isAssignableFrom b = true → b.isAssignableFrom a = true →
      (a == b) = true := by
  refine ⟨fun a => isAssignableFrom_of_same (beq_refl a), ?_, ?_⟩
  · intro a ha b hb c hc hcb hba
    exact h.isAssignableFrom_trans (.of_mem ha) (.of_mem hb) (.of_mem hc) hcb hba
  · intro a ha b hb hab hba
    rw [h.isAssignableFrom_antisymm (.of_mem ha) (.of_mem hb) hab hba]
    exact beq_refl b

/-- Exceptions are throwable and those are objects, so arrays of exceptions are arrays of objects. -/
theorem isAssignableFrom_partialOrder_arrays :
    let types : Set TypeDesc := {array exception, array throwable, array object}
    Coherent types ∧ (array object).isAssignableFrom (array exception) = true := by
  intro types
  have h : Coherent types := by
    refine .of_closed [array exception, array throwable, array object, exception, throwable, object,
      cloneable, serializable] ?_ ?_ ?_ ?_ ?_ ?_
    · rintro t (rfl | rfl | rfl) <;> simp
    · intro c hc
      simp only [List.mem_cons, List.not_mem_nil, or_false] at hc
      rcases hc with h | h | h | h | h | h | h | h <;> cases h <;> simp
    · intro t ht s hs
      simp only [List.mem_cons, List.not_mem_nil, or_false] at ht
      rcases ht with rfl | rfl | rfl | rfl | rfl | rfl | rfl | rfl <;> cases hs <;> simp
    · intro t ht
      simp only [List.mem_cons, List.not_mem_nil, or_false] at ht
      rcases ht with rfl | rfl | rfl | rfl | rfl | rfl | rfl | rfl <;>
        simp [interfaces, exception, throwable, object, cloneable, serializable, interfaceNamed,
          Declaration.type]
    · simp [className?, exception, throwable, object, cloneable, serializable, interfaceNamed,
        Declaration.type]
    · simp
  refine ⟨h, ?_⟩
  exact (isAssignableFrom_partialOrder h).2.1 (array exception) (by simp [types])
    (array throwable) (by simp [types]) (array object) (by simp [types]) (by rfl) (by rfl)

end TypeDesc
end ClassSynthesis
