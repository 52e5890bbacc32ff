import ClassSynthesis.Proofs.Types.Order

/-!
# ClassSynthesis.Proofs.Types.Dimensions

Assignability by elements and dimensions. Every type is an array of its `element` with so many
`dimensions`, none if it is no array (`exists_arrayOf`). Assignability strips one dimension off both
sides at a time, so it comes to a comparison of the two numbers and of the two elements.

* `isAssignableFrom_iff_widensTo`: by induction on the target.
* `isAssignableFrom_arrayOf_iff`: with equal dimensions the elements decide, going by names along
  the hierarchy; a source of more dimensions goes only into arrays of one of the three types that
  every array has above it. Nothing is assumed of how the types are declared.
-/

namespace ClassSynthesis
namespace TypeDesc

/-- The type below all dimensions. -/
def element : TypeDesc → TypeDesc
  | .array c => c.element
  | t => t

def dimensions : TypeDesc → Nat
  | .array c => c.dimensions + 1
  | _ => 0

variable {t u source target c d : TypeDesc}

theorem exists_arrayOf (t : TypeDesc) : ∃ e n, e.isArray = false ∧ arrayOf e n = t := by
  induction t using component_induction with
  | primitive p => exact ⟨_, 0, rfl, rfl⟩
  | array c ih =>
    obtain ⟨e, n, he, rfl⟩ := ih
    exact ⟨e, n + 1, he, rfl⟩
  | declared => exact ⟨_, 0, rfl, rfl⟩

theorem element_arrayOf (h : t.isArray = false) (n : Nat) : (arrayOf t n).element = t := by
  induction n with
  | zero =>
    cases t with
    | primitive => rfl
    | array => cases h
    | declared => rfl
  | succ n ih => exact ih

theorem dimensions_arrayOf (h : t.isArray = false) (n : Nat) : (arrayOf t n).dimensions = n := by
  induction n with
  | zero =>
    cases t with
    | primitive => rfl
    | array => cases h
    | declared => rfl
  | succ n ih => exact congrArg (· + 1) ih

theorem isPrimitive_of_element (h : t.element.isPrimitive = false) : t.isPrimitive = false := by
  cases t with
  | primitive => exact h
  | array => rfl
  | declared => rfl

theorem isPrimitive_of_dimensions (h : 0 < t.dimensions) : t.isPrimitive = false := by
  cases t with
  | primitive => cases h
  | array => rfl
  | declared => rfl

/-- The names of the types that every array has above it. -/
def aboveArrays : List String :=
  ["java.lang.Object", "java.lang.Cloneable", "java.io.Serializable"]

theorem isPrimitive_of_aboveArrays (h : t.name ∈ aboveArrays) : t.isPrimitive = false := by
  cases t with
  | primitive p => cases p <;> simp [name, Primitive.name, aboveArrays] at h
  | array => rfl
  | declared => rfl

/-! ## Declared types -/

variable {name : String} {modifiers : Modifiers} {s : Option TypeDesc} {is : List TypeDesc}
  {annotations : List Annotation}

theorem beq_declared_iff :
    (u == declared name modifiers s is annotations) = true ↔ u.className? = some name := by
  constructor
  · exact className?_of_same
  · intro h
    cases u with
    | primitive => cases h
    | array => cases h
    | declared name' => exact (beq_iff_eq (α := String)).mpr (Option.some.inj h)

theorem inheritsFrom_declared_iff :
    source.inheritsFrom (declared name modifiers s is annotations) = true ↔
      ∃ u, source.Below u ∧ u.className? = some name := by
  rw [inheritsFrom_iff]
  exact exists_congr fun u => and_congr_right fun _ => beq_declared_iff

theorem array_inheritsFrom_declared_iff :
    (array d).inheritsFrom (declared name modifiers s is annotations) = true ↔
      name ∈ aboveArrays := by
  have hobject : object.className? = some "java.lang.Object" := rfl
  have hcloneable : cloneable.className? = some "java.lang.Cloneable" := rfl
  have hserializable : serializable.className? = some "java.io.Serializable" := rfl
  rw [inheritsFrom, List.any_eq_true]
  simp only [List.mem_cons, List.not_mem_nil, or_false, exists_eq_or_imp, exists_eq_left,
    beq_declared_iff, hobject, hcloneable, hserializable, Option.some.injEq, aboveArrays,
    @eq_comm _ name]

/-! ## Elements and dimensions -/

/-- What makes a source assignable to a target that it is not the same as. -/
def WidensTo (source target : TypeDesc) : Prop :=
  source.dimensions = target.dimensions ∧ target.element.isPrimitive = false ∧
      source.element.isPrimitive = false ∧ (target.element.name = "java.lang.Object" ∨
        ∃ u, source.element.Below u ∧ u.className? = some target.element.name) ∨
    target.dimensions < source.dimensions ∧ target.element.name ∈ aboveArrays

theorem WidensTo.isPrimitive_source (h : source.WidensTo target) : source.isPrimitive = false := by
  rcases h with ⟨-, -, h, -⟩ | ⟨h, -⟩
  · exact isPrimitive_of_element h
  · exact isPrimitive_of_dimensions (by omega)

theorem WidensTo.isPrimitive_target (h : source.WidensTo target) : target.isPrimitive = false := by
  rcases h with ⟨-, h, -, -⟩ | ⟨-, h⟩
  · exact isPrimitive_of_element h
  · exact isPrimitive_of_element (isPrimitive_of_aboveArrays h)

theorem WidensTo.dimensions_le (h : source.WidensTo target) :
    target.dimensions ≤ source.dimensions := by
  rcases h with ⟨h, -⟩ | ⟨h, -⟩ <;> omega

/-- A dimension more on both sides changes nothing. -/
theorem widensTo_array : (array d).WidensTo (array c) ↔ d.WidensTo c := by
  simp [WidensTo, element, dimensions]

theorem widensTo_declared : source.WidensTo (declared name modifiers s is annotations) ↔
    source.isPrimitive = false ∧ (name = "java.lang.Object" ∨
      source.inheritsFrom (declared name modifiers s is annotations) = true) := by
  cases source with
  | primitive p => simp [WidensTo, element, dimensions, isPrimitive, asPrimitive]
  | array d =>
    have hobject : name = "java.lang.Object" → name ∈ aboveArrays := by
      rintro rfl
      simp [aboveArrays]
    rw [array_inheritsFrom_declared_iff, or_iff_right_of_imp hobject]
    simp [WidensTo, element, dimensions, isPrimitive, asPrimitive, TypeDesc.name]
  | declared =>
    rw [inheritsFrom_declared_iff]
    simp [WidensTo, element, dimensions, isPrimitive, asPrimitive, TypeDesc.name]

theorem isAssignableFrom_iff_widensTo (target source : TypeDesc) :
    target.isAssignableFrom source = true ↔
      (target == source) = true ∨ source.WidensTo target := by
  induction target using component_induction generalizing source with
  | primitive p =>
    rw [isAssignableFrom_primitive]
    constructor
    · rintro rfl
      exact .inl (beq_refl _)
    · rintro (h | h)
      · cases source with
        | primitive q => rw [eq_of_beq (show (p == q) = true from h)]
        | array => cases h
        | declared => cases h
      · cases h.isPrimitive_target
  | array c ih =>
    rw [isAssignableFrom_array]
    constructor
    · rintro ⟨d, rfl, h | ⟨-, -, h⟩⟩
      · exact .inl h
      · exact ((ih d).mp h).imp id widensTo_array.mpr
    · intro h
      cases source with
      | primitive =>
        rcases h with h | h
        · cases h
        · cases h.isPrimitive_source
      | array d =>
        refine ⟨d, rfl, h.imp id fun h => ?_⟩
        have hw := widensTo_array.mp h
        exact ⟨hw.isPrimitive_target, hw.isPrimitive_source, (ih d).mpr (.inr hw)⟩
      | declared =>
        rcases h with h | h
        · cases h
        · exact absurd h.dimensions_le (by simp [dimensions])
  | declared name modifiers s is annotations =>
    rw [isAssignableFrom_declared, widensTo_declared]
    constructor
    · rintro ⟨hp, h | h⟩
      · exact .inl h
      · exact .inr ⟨hp, h⟩
    · rintro (h | ⟨hp, h⟩)
      · refine ⟨?_, .inl h⟩
        cases source with
        | primitive => cases h
        | array => rfl
        | declared => rfl
      · exact ⟨hp, .inr h⟩

theorem isAssignableFrom_arrayOf_iff (ht : t.isArray = false) (hu : u.isArray = false)
    (n m : Nat) :
    (arrayOf t n).isAssignableFrom (arrayOf u m) = true ↔
      (arrayOf t n == arrayOf u m) = true ∨
      (m = n ∧ t.isPrimitive = false ∧ u.isPrimitive = false ∧
        (t.name = "java.lang.Object" ∨ ∃ v, u.Below v ∧ v.className? = some t.name)) ∨
      (n < m ∧ t.name ∈ aboveArrays) := by
  rw [isAssignableFrom_iff_widensTo, WidensTo, element_arrayOf ht, element_arrayOf hu,
    dimensions_arrayOf ht, dimensions_arrayOf hu]

/-- Texts are serializable and arrays of primitives are objects, but primitives are not. -/
theorem isAssignableFrom_arrayOf_iff_forms :
    (arrayOf serializable 2).isAssignableFrom (arrayOf string 2) = true ∧
      (arrayOf object 1).isAssignableFrom (arrayOf (primitive .int) 2) = true ∧
      (arrayOf object 1).isAssignableFrom (arrayOf (primitive .int) 1) = false := by
  have hserializable : serializable.isArray = false := rfl
  have hstring : string.isArray = false := rfl
  have hobject : object.isArray = false := rfl
  have hint : (primitive .int).isArray = false := rfl
  have hbelow : string.Below serializable := .single (.inr (.head _))
  refine ⟨?_, ?_, ?_⟩
  · rw [isAssignableFrom_arrayOf_iff hserializable hstring]
    exact .inr (.inl ⟨rfl, rfl, rfl, .inr ⟨serializable, hbelow, rfl⟩⟩)
  · rw [isAssignableFrom_arrayOf_iff hobject hint]
    exact .inr (.inr ⟨by omega, .head _⟩)
  · rw [← Bool.not_eq_true, isAssignableFrom_arrayOf_iff hobject hint]
    rintro (h | ⟨-, -, h, -⟩ | ⟨h, -⟩)
    · cases h
    · cases h
    · omega

end TypeDesc
end ClassSynthesis
