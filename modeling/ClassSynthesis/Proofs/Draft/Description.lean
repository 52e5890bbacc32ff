import ClassSynthesis.Proofs.Draft.Changes
import ClassSynthesis.Proofs.Draft.TypeNames
import ClassSynthesis.Proofs.Types.Order
import ClassSynthesis.Proofs.Types.Spelling

/-!
# ClassSynthesis.Proofs.Draft.Description

The type that a draft describes. It is put together anew from each draft (`describe_eq`), under a
name that was checked before the first one, so it is none of the types it is declared below, and
every spelling of it can be read back. What is assignable from it is what is assignable from a type
directly above it, besides the type itself and the root class
(`TypeDesc.isAssignableFrom_iff_directlyBelow`).

* `described_name_spelled`: which names are let through, and what their spellings say.
* `described_placed`: the description and its place in the hierarchy.
-/

namespace ClassSynthesis

namespace TypeDesc

variable {t u c : TypeDesc}

theorem isPrimitive_of_className? (h : t.className?.isSome = true) : t.isPrimitive = false := by
  cases t with
  | primitive => cases h
  | array => cases h
  | declared => rfl

theorem name_of_className? {name : String} (h : t.className? = some name) : t.name = name := by
  cases t with
  | primitive => cases h
  | array => cases h
  | declared => exact Option.some.inj h

/-- A value of a class or interface goes where a value of some type directly above it goes. -/
theorem isAssignableFrom_iff_directlyBelow (ht : t.className?.isSome = true)
    (habove : ∀ u, t.DirectlyBelow u → u.className?.isSome = true) :
    c.isAssignableFrom t = true ↔ (c == t) = true ∨ c.isObject = true ∨
      ∃ u, t.DirectlyBelow u ∧ c.isAssignableFrom u = true := by
  cases c with
  | primitive p =>
    rw [isAssignableFrom_primitive]
    constructor
    · rintro rfl
      cases ht
    · rintro (h | h | ⟨u, hu, h⟩)
      · rw [← className?_of_same h] at ht
        cases ht
      · cases h
      · rw [isAssignableFrom_primitive.mp h] at hu
        cases habove _ hu
  | array d =>
    rw [isAssignableFrom_array]
    constructor
    · rintro ⟨e, rfl, -⟩
      cases ht
    · rintro (h | h | ⟨u, hu, h⟩)
      · rw [← className?_of_same h] at ht
        cases ht
      · cases h
      · obtain ⟨e, rfl, -⟩ := isAssignableFrom_array.mp h
        cases habove _ hu
  | declared name modifiers s is annotations =>
    rw [isAssignableFrom_declared, inheritsFrom_step]
    -- Inheritance goes on from `u`, and so does assignability, since `u` is no primitive type.
    constructor
    · rintro ⟨-, h | h | ⟨u, hu, h⟩⟩
      · exact .inl h
      · exact .inr (.inl (beq_iff_eq.mpr h))
      · have hp := isPrimitive_of_className? (habove u hu)
        refine .inr (.inr ⟨u, hu, isAssignableFrom_declared.mpr ⟨hp, ?_⟩⟩)
        exact h.imp BEq.symm .inr
    · intro h
      refine ⟨isPrimitive_of_className? ht, ?_⟩
      rcases h with h | h | ⟨u, hu, h⟩
      · exact .inl h
      · exact .inr (.inl (beq_iff_eq.mp h))
      · obtain ⟨-, h | h | h⟩ := isAssignableFrom_declared.mp h
        · exact .inr (.inr ⟨u, hu, .inl (BEq.symm h)⟩)
        · exact .inr (.inl h)
        · exact .inr (.inr ⟨u, hu, .inr h⟩)

end TypeDesc

namespace Snapshot

variable {s first : Snapshot} {t c : TypeDesc}

/-! ## The description -/

theorem describe_eq (s : Snapshot) :
    s.describe = .declared s.name s.modifiers s.supertype s.interfaces s.annotations := by
  rw [describe, Declaration.type, supertype]
  have hmodifiers : s.modifiers.has .interface = s.isInterface := rfl
  cases hi : s.isInterface with
  | true => simp [hmodifiers, hi]
  | false => simp [hmodifiers, hi]

theorem className?_describe (s : Snapshot) : s.describe.className? = some s.name := by
  rw [describe_eq]
  rfl

theorem supertype_eq_some_iff : s.supertype = some t ↔ s.isInterface = false ∧ t = s.superclass := by
  cases hi : s.isInterface with
  | true => simp [supertype, hi]
  | false => simp [supertype, hi, eq_comm]

theorem describe_directlyBelow :
    s.describe.DirectlyBelow t ↔ s.isInterface = false ∧ t = s.superclass ∨ t ∈ s.interfaces := by
  rw [describe_eq, ← supertype_eq_some_iff]
  rfl

theorem describe_ne (h : t.name ≠ s.name) : (s.describe == t) = false := by
  rw [Bool.eq_false_iff]
  intro he
  refine h (TypeDesc.name_of_className? ?_)
  rw [← TypeDesc.className?_of_same he, className?_describe]

theorem isAssignableFrom_describe_iff (hsuper : s.superclass.className?.isSome = true)
    (hinterfaces : ∀ i ∈ s.interfaces, i.className?.isSome = true) :
    c.isAssignableFrom s.describe = true ↔
      (c == s.describe) = true ∨ c.isObject = true ∨
      (∃ i ∈ s.interfaces, c.isAssignableFrom i = true) ∨
      (s.isInterface = false ∧ c.isAssignableFrom s.superclass = true) := by
  have hself : s.describe.className?.isSome = true := by rw [className?_describe]; rfl
  have habove : ∀ u, s.describe.DirectlyBelow u → u.className?.isSome = true := by
    intro u hu
    rcases describe_directlyBelow.mp hu with ⟨-, rfl⟩ | hu
    · exact hsuper
    · exact hinterfaces u hu
  rw [TypeDesc.isAssignableFrom_iff_directlyBelow hself habove]
  refine or_congr_right (or_congr_right ?_)
  constructor
  · rintro ⟨u, hu, h⟩
    rcases describe_directlyBelow.mp hu with ⟨hi, rfl⟩ | hu
    · exact .inr ⟨hi, h⟩
    · exact .inl ⟨u, hu, h⟩
  · rintro (⟨i, hi, h⟩ | ⟨hi, h⟩)
    · exact ⟨i, describe_directlyBelow.mpr (.inr hi), h⟩
    · exact ⟨_, describe_directlyBelow.mpr (.inl ⟨hi, rfl⟩), h⟩

/-! ## Names -/

theorem described_name_spelled :
    (∀ (name : String) (superclass : TypeDesc) (interfaces : List TypeDesc),
      TypeName.fault? name superclass interfaces = none ↔
        TypeName.Legal name ∧ superclass.name ≠ name ∧ ∀ i ∈ interfaces, i.name ≠ name) ∧
    ∀ (classFile : ClassFileVersion) (superclass : TypeDesc) (interfaces : List TypeDesc)
      (modifiers : Modifiers) (naming : Naming) (first : Snapshot),
      (subclass classFile superclass interfaces modifiers naming).1 = .ok first →
      ∀ changes : List Change,
        let s := first.changed changes
        (∀ c ∈ s.name.toList, c ≠ '/' ∧ c ≠ ';' ∧ c ≠ '[') ∧
        TypeDesc.dotted s.internalName = s.name ∧
        readType? s.describe.descriptor.toList = some (.classNamed s.name, []) := by
  refine ⟨fun _ _ _ => TypeName.fault?_eq_none_iff, ?_⟩
  intro classFile superclass interfaces modifiers naming first h changes s
  have hname : s.name = first.name := (first.changed_grown changes).name
  obtain ⟨hlegal, -⟩ := TypeName.fault?_eq_none_iff.mp (subclass_name h)
  rw [← hname] at hlegal
  have hslash : '/' ∉ s.name.toList := hlegal.not_mem_separator (by decide) (by decide)
  have hsemicolon : ';' ∉ s.name.toList := hlegal.not_mem_separator (by decide) (by decide)
  have hbracket : '[' ∉ s.name.toList := hlegal.not_mem_separator (by decide) (by decide)
  have hdotted : TypeDesc.dotted (TypeDesc.slashed s.name) = s.name :=
    TypeDesc.dotted_slashed hslash
  refine ⟨?_, hdotted, ?_⟩
  · intro c hc
    exact ⟨fun he => hslash (he ▸ hc), fun he => hsemicolon (he ▸ hc),
      fun he => hbracket (he ▸ hc)⟩
  · have hplain : s.describe.Plain := by
      rw [describe_eq]
      exact ⟨hslash, hsemicolon⟩
    rw [TypeDesc.readType?_plain hplain, describe_eq, TypeDesc.respelled, hdotted]

/-- A name with three segments, one of them with a letter that is not in ASCII. -/
theorem described_name_spelled_unicode :
    let first : Snapshot :=
      { version := 0, classFile := .standard, superclass := .object, interfaces := [],
        modifiers := .ofClass, name := "org.größe.$Sub_1", fields := [], methods := [],
        initializer := .nothing }
    TypeName.Legal "org.größe.$Sub_1" ∧
    (subclass .standard .object [] .ofClass (.fixed "org.größe.$Sub_1")).1 = .ok first ∧
    TypeDesc.dotted first.internalName = "org.größe.$Sub_1" ∧
    readType? first.describe.descriptor.toList = some (.classNamed "org.größe.$Sub_1", []) := by
  intro first
  obtain ⟨hnames, hspelled⟩ := described_name_spelled
  have hfree : TypeName.fault? "org.größe.$Sub_1" .object [] = none := by decide +kernel
  have hfirst : (subclass .standard .object [] .ofClass (.fixed "org.größe.$Sub_1")).1 = .ok first :=
    subclass_eq_ok_iff.mpr ⟨hfree, rfl⟩
  obtain ⟨-, hinternal, hread⟩ := hspelled _ _ _ _ _ _ hfirst []
  exact ⟨((hnames _ _ _).mp hfree).1, hfirst, hinternal, hread⟩

/-! ## After any changes -/

section

variable {classFile : ClassFileVersion} {superclass : TypeDesc} {interfaces : List TypeDesc}
  {modifiers : Modifiers} {naming : Naming}

theorem described_placed
    (h : (subclass classFile superclass interfaces modifiers naming).1 = .ok first)
    (hsuper : superclass.className?.isSome = true)
    (hinterfaces : ∀ i ∈ interfaces, i.className?.isSome = true) (changes : List Change) :
    let s := first.changed changes
    let described := s.describe
    (described.name = s.name ∧ described.modifiers = s.modifiers ∧
      described.superclass = s.supertype ∧ described.interfaces = s.interfaces ∧
      described.annotations =
        superclass.annotations.filter fun a => a.retention == some .runtime) ∧
    (described == superclass) = false ∧ (∀ i ∈ interfaces, (described == i) = false) ∧
    ∀ c : TypeDesc, c.isAssignableFrom described = true ↔
      (c == described) = true ∨ c.isObject = true ∨
      (∃ i ∈ interfaces, c.isAssignableFrom i = true) ∨
      (s.isInterface = false ∧ c.isAssignableFrom superclass = true) := by
  intro s described
  have hgrown := first.changed_grown changes
  have hs : s.superclass = superclass := hgrown.superclass.trans (by rw [subclass_ok h])
  have hi : s.interfaces = interfaces := hgrown.interfaces.trans (by rw [subclass_ok h])
  obtain ⟨-, hname, hnames⟩ := TypeName.fault?_eq_none_iff.mp (subclass_name h)
  rw [← hgrown.name] at hname hnames
  refine ⟨?_, describe_ne hname, fun i hi => describe_ne (hnames i hi), ?_⟩
  · rw [← hs]
    simp only [described, describe_eq]
    exact ⟨rfl, rfl, rfl, rfl, rfl⟩
  · intro c
    have hplace := isAssignableFrom_describe_iff (s := s) (c := c) (hs ▸ hsuper) (hi ▸ hinterfaces)
    rwa [hs, hi] at hplace

/-- A class and an interface declared below the same types. -/
theorem described_placed_forms :
    let kept : Annotation := .mk (.classNamed "p.Kept") (some .runtime) []
    let compiled : Annotation := .mk (.classNamed "p.Compiled") (some .classFile) []
    let base : TypeDesc := Declaration.type {
      name := "p.Base", superclass := .type .exception, annotations := [compiled, kept] }
    let draft (modifiers : Modifiers) : Snapshot :=
      { version := 0, classFile := .standard, superclass := base, interfaces := [.comparable],
        modifiers, name := "p.Sub", fields := [], methods := [], initializer := .nothing }
    (subclass .standard base [.comparable] .ofClass (.fixed "p.Sub")).1 = .ok (draft .ofClass) ∧
    (subclass .standard base [.comparable] .ofInterface (.fixed "p.Sub")).1 =
      .ok (draft .ofInterface) ∧
    (draft .ofClass).describe.annotations = [kept] ∧
    ((draft .ofClass).describe == base) = false ∧
    TypeDesc.throwable.isAssignableFrom (draft .ofClass).describe = true ∧
    TypeDesc.comparable.isAssignableFrom (draft .ofInterface).describe = true ∧
    TypeDesc.throwable.isAssignableFrom (draft .ofInterface).describe = false := by
  intro kept compiled base draft
  have hclass : (subclass .standard base [.comparable] .ofClass (.fixed "p.Sub")).1 =
      .ok (draft .ofClass) := by rfl
  have hinterface : (subclass .standard base [.comparable] .ofInterface (.fixed "p.Sub")).1 =
      .ok (draft .ofInterface) := by rfl
  have hinterfaces : ∀ i ∈ [TypeDesc.comparable], i.className?.isSome = true :=
    List.forall_mem_singleton.mpr rfl
  obtain ⟨⟨-, -, -, -, hkept⟩, hne, -, hplace⟩ := described_placed hclass rfl hinterfaces []
  obtain ⟨-, -, -, hplace'⟩ := described_placed hinterface rfl hinterfaces []
  have hbase : TypeDesc.throwable.isAssignableFrom base = true := by decide +kernel
  have hsuper : (draft .ofClass).isInterface = false := by decide
  refine ⟨hclass, hinterface, hkept, hne, ?_, ?_, ?_⟩
  · exact (hplace _).mpr (.inr (.inr (.inr ⟨hsuper, hbase⟩)))
  · exact (hplace' _).mpr (.inr (.inr (.inl ⟨_, .head _, by rfl⟩)))
  · refine Bool.eq_false_iff.mpr fun h => ?_
    rcases (hplace' _).mp h with h | h | ⟨i, hi, h⟩ | ⟨h, -⟩
    · cases h
    · cases h
    · rw [List.mem_singleton.mp hi] at h
      cases h
    · exact absurd h (by decide)

end

end Snapshot
end ClassSynthesis
