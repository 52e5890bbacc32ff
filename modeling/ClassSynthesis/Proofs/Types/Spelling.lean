import ClassSynthesis.Proofs.Types.Sameness

/-!
# ClassSynthesis.Proofs.Types.Spelling

What a descriptor says. Types that are the same have the same descriptor, whatever their names. The
other way round the names have to be `Plain`: a semicolon ends a name, and a slash stands for a dot.

`readSignature?` reads the descriptors of methods by the grammar of `readMethod?`, except that it
takes `void` for a parameter like any other type, since nothing keeps it from being one
(`readMethod?_iff`).

* `readType?_plain`, `readSignature?_plain`: types and methods are read back.
* `descriptor_eq_iff`, `methodDescriptor_eq_iff`: equal descriptors are those of the same types.
-/

namespace ClassSynthesis

/-! ## Methods with any parameters -/

/-- Types up to the closing parenthesis, `void` among them, and what stands after that. -/
def readParameters? (cs : List Char) : Option (List TypeDesc × List Char) :=
  if cs.head? = some ')' then some ([], cs.tail)
  else
    match _h : readType? cs with
    | some (t, rest) => (readParameters? rest).map fun (ts, rest) => (t :: ts, rest)
    | none => none
termination_by cs.length
decreasing_by exact length_readType? ‹_›

/-- Parameters, read in a way of their own, and return type. -/
def readMethodBy? (read : List Char → Option (List TypeDesc × List Char)) (descriptor : String) :
    Option (List TypeDesc × TypeDesc) :=
  match descriptor.toList with
  | '(' :: cs =>
    match read cs with
    | some (parameters, rest) =>
      match readType? rest with
      | some (returns, []) => some (parameters, returns)
      | _ => none
    | none => none
  | _ => none

def readSignature? : String → Option (List TypeDesc × TypeDesc) := readMethodBy? readParameters?

theorem readMethodBy?_eq_some {read : List Char → Option (List TypeDesc × List Char)}
    {descriptor : String} {ts : List TypeDesc} {t : TypeDesc} :
    readMethodBy? read descriptor = some (ts, t) ↔ ∃ cs rest, descriptor.toList = '(' :: cs ∧
      read cs = some (ts, rest) ∧ readType? rest = some (t, []) := by
  constructor
  · intro h
    unfold readMethodBy? at h
    split at h
    · rename_i cs hd
      split at h
      · rename_i parameters rest hp
        split at h
        · rename_i returns hr
          cases h
          exact ⟨cs, rest, hd, hp, hr⟩
        · cases h
      · cases h
    · cases h
  · rintro ⟨cs, rest, hd, hp, hr⟩
    simp only [readMethodBy?, hd, hp, hr]

theorem readParameters?_close {cs : List Char} (h : cs.head? = some ')') :
    readParameters? cs = some ([], cs.tail) := by
  rw [readParameters?, if_pos h]

theorem readParameters?_type {cs rest : List Char} {t : TypeDesc} (h : cs.head? ≠ some ')')
    (ht : readType? cs = some (t, rest)) :
    readParameters? cs = (readParameters? rest).map fun (ts, rest) => (t :: ts, rest) := by
  rw [readParameters?, if_neg h]
  split
  · rename_i u r hu
    rw [ht] at hu
    cases hu
    rfl
  · rename_i hu
    rw [ht] at hu
    cases hu

theorem readTypes?_iff {cs rest : List Char} {ts : List TypeDesc} :
    readTypes? cs = some (ts, rest) ↔
      readParameters? cs = some (ts, rest) ∧ ∀ t ∈ ts, t.isVoid = false := by
  fun_induction readTypes? cs generalizing ts with
  | case1 cs h =>
    rw [readParameters?_close h]
    constructor
    · intro he
      cases he
      exact ⟨rfl, by simp⟩
    · exact And.left
  | case2 cs h t r ht hv =>
    rw [readParameters?_type h ht]
    constructor
    · intro he
      cases he
    · rintro ⟨he, hts⟩
      obtain ⟨⟨us, _⟩, -, hr⟩ := Option.map_eq_some_iff.mp he
      cases hr
      rw [hts t (.head us)] at hv
      cases hv
  | case3 cs h t r ht hv ih =>
    rw [readParameters?_type h ht]
    constructor
    · intro he
      obtain ⟨⟨us, _⟩, hu, hr⟩ := Option.map_eq_some_iff.mp he
      cases hr
      obtain ⟨hu, hus⟩ := ih.mp hu
      exact ⟨by rw [hu]; rfl, List.forall_mem_cons.mpr ⟨by simpa using hv, hus⟩⟩
    · rintro ⟨he, hts⟩
      obtain ⟨⟨us, _⟩, hu, hr⟩ := Option.map_eq_some_iff.mp he
      cases hr
      rw [ih.mpr ⟨hu, fun u hu => hts u (.tail t hu)⟩]
      rfl
  | case4 cs h ht =>
    have hnone : readParameters? cs = none := by
      rw [readParameters?, if_neg h]
      split
      · rename_i hu
        rw [ht] at hu
        cases hu
      · rfl
    simp [hnone]

/-- The grammar leaves out the methods that have a parameter of type `void`, and no others. -/
theorem readMethod?_iff {descriptor : String} {ts : List TypeDesc} {t : TypeDesc} :
    readMethod? descriptor = some (ts, t) ↔
      readSignature? descriptor = some (ts, t) ∧ ∀ u ∈ ts, u.isVoid = false := by
  have hgrammar : readMethod? descriptor = readMethodBy? readTypes? descriptor := rfl
  rw [hgrammar, readSignature?, readMethodBy?_eq_some, readMethodBy?_eq_some]
  constructor
  · rintro ⟨cs, rest, hd, hp, hr⟩
    obtain ⟨hp, hv⟩ := readTypes?_iff.mp hp
    exact ⟨⟨cs, rest, hd, hp, hr⟩, hv⟩
  · rintro ⟨⟨cs, rest, hd, hp, hr⟩, hv⟩
    exact ⟨cs, rest, hd, readTypes?_iff.mpr ⟨hp, hv⟩, hr⟩

namespace TypeDesc

/-- No class name in the type has a character that means something else in a descriptor. -/
def Plain : TypeDesc → Prop
  | .primitive _ => True
  | .array c => c.Plain
  | .declared name _ _ _ _ => '/' ∉ name.toList ∧ ';' ∉ name.toList

variable {t u : TypeDesc} {ts us : List TypeDesc}

theorem Plain.spellable (h : t.Plain) : t.Spellable := by
  induction t using component_induction with
  | primitive => trivial
  | array c ih => exact ih h
  | declared => exact h.2

theorem dotted_slashed {name : String} (h : '/' ∉ name.toList) : dotted (slashed name) = name := by
  apply String.toList_injective
  rw [dotted, slashed, String.toList_map, String.toList_map, List.map_map]
  refine (List.map_congr_left (g := id) ?_).trans (List.map_id _)
  intro c hc
  have hslash : c ≠ '/' := fun he => h (he ▸ hc)
  by_cases hdot : c = '.'
  · simp [hdot]
  · simp [hdot, hslash]

theorem Plain.respelled_beq (h : t.Plain) : (t.respelled == t) = true := by
  induction t using component_induction with
  | primitive => exact beq_refl _
  | array c ih => exact ih h
  | declared name => exact (beq_iff_eq (α := String)).mpr (dotted_slashed h.1)

theorem descriptor_of_beq (h : (t == u) = true) : t.descriptor = u.descriptor := by
  induction t using component_induction generalizing u with
  | primitive p =>
    cases u with
    | primitive q =>
      obtain rfl : p = q := eq_of_beq h
      rfl
    | array | declared => cases h
  | array c ih =>
    cases u with
    | array d => rw [descriptor, descriptor, ih h]
    | primitive | declared => cases h
  | declared name =>
    cases u with
    | declared name' =>
      obtain rfl : name = name' := eq_of_beq h
      rfl
    | primitive | array => cases h

/-- Plain types that read alike are the same. -/
theorem beq_of_respelled (ht : t.Plain) (hu : u.Plain) (h : t.respelled = u.respelled) :
    (t == u) = true := by
  have hs := ht.respelled_beq
  rw [h] at hs
  exact BEq.trans (BEq.symm hs) hu.respelled_beq

theorem readType?_plain (h : t.Plain) :
    readType? t.descriptor.toList = some (t.respelled, []) := by
  have hr := readType?_descriptor h.spellable []
  rwa [List.append_nil] at hr

theorem descriptor_eq_iff (ht : t.Plain) (hu : u.Plain) :
    t.descriptor = u.descriptor ↔ (t == u) = true := by
  constructor
  · intro h
    have hr := readType?_plain ht
    rw [h, readType?_plain hu] at hr
    obtain ⟨hreads, -⟩ := Prod.mk.inj (Option.some.inj hr)
    exact beq_of_respelled ht hu hreads.symm
  · exact descriptor_of_beq

/-! ## Lists of types -/

@[simp] theorem sameTypes_nil : sameTypes [] [] = true := rfl

theorem sameTypes_cons : sameTypes (t :: ts) (u :: us) = ((t == u) && sameTypes ts us) := by
  simp only [sameTypes, List.length_cons, List.zip_cons_cons, List.all_cons,
    Bool.and_left_comm (t == u)]
  congr 1
  exact Bool.eq_iff_iff.mpr (by simp)

theorem descriptorsOf_cons : descriptorsOf (t :: ts) = t.descriptor ++ descriptorsOf ts := by
  simp [descriptorsOf]

theorem descriptorsOf_of_sameTypes (h : sameTypes ts us = true) :
    descriptorsOf ts = descriptorsOf us := by
  induction ts generalizing us with
  | nil =>
    cases us with
    | nil => rfl
    | cons => cases h
  | cons t ts ih =>
    cases us with
    | nil => cases h
    | cons u us =>
      rw [sameTypes_cons, Bool.and_eq_true] at h
      rw [descriptorsOf_cons, descriptorsOf_cons, descriptor_of_beq h.1, ih h.2]

theorem sameTypes_of_respelled (hts : ∀ t ∈ ts, t.Plain) (hus : ∀ u ∈ us, u.Plain)
    (h : ts.map respelled = us.map respelled) : sameTypes ts us = true := by
  induction ts generalizing us with
  | nil =>
    obtain rfl := List.map_eq_nil_iff.mp h.symm
    rfl
  | cons t ts ih =>
    cases us with
    | nil => cases h
    | cons u us =>
      obtain ⟨ht, hts⟩ := List.forall_mem_cons.mp hts
      obtain ⟨hu, hus⟩ := List.forall_mem_cons.mp hus
      obtain ⟨hhead, htail⟩ := List.cons.inj h
      rw [sameTypes_cons, beq_of_respelled ht hu hhead, ih hts hus htail]
      rfl

theorem sameTypes_map_respelled (h : ∀ t ∈ ts, t.Plain) :
    sameTypes (ts.map respelled) ts = true := by
  induction ts with
  | nil => rfl
  | cons t ts ih =>
    obtain ⟨ht, hts⟩ := List.forall_mem_cons.mp h
    rw [List.map_cons, sameTypes_cons, ht.respelled_beq, ih hts]
    rfl

theorem readParameters?_plain (h : ∀ t ∈ ts, t.Plain) (rest : List Char) :
    readParameters? ((descriptorsOf ts).toList ++ ')' :: rest) =
      some (ts.map respelled, rest) := by
  induction ts with
  | nil => exact readParameters?_close rfl
  | cons t ts ih =>
    obtain ⟨ht, hts⟩ := List.forall_mem_cons.mp h
    have happ : (descriptorsOf (t :: ts)).toList ++ ')' :: rest =
        t.descriptor.toList ++ ((descriptorsOf ts).toList ++ ')' :: rest) := by
      rw [descriptorsOf_cons, String.toList_append, List.append_assoc]
    rw [happ, readParameters?_type (head?_descriptor t _) (readType?_descriptor ht.spellable _),
      ih hts]
    rfl

theorem readSignature?_plain (hts : ∀ t ∈ ts, t.Plain) (ht : t.Plain) :
    readSignature? (methodDescriptor ts t) = some (ts.map respelled, t.respelled) :=
  readMethodBy?_eq_some.mpr
    ⟨_, _, by simp [methodDescriptor], readParameters?_plain hts _, readType?_plain ht⟩

theorem methodDescriptor_eq_iff (hts : ∀ t ∈ ts, t.Plain) (ht : t.Plain)
    (hus : ∀ u ∈ us, u.Plain) (hu : u.Plain) :
    methodDescriptor ts t = methodDescriptor us u ↔
      sameTypes ts us = true ∧ (t == u) = true := by
  constructor
  · intro h
    have hr := readSignature?_plain hts ht
    rw [h, readSignature?_plain hus hu] at hr
    obtain ⟨hparameters, hreturns⟩ := Prod.mk.inj (Option.some.inj hr)
    exact ⟨sameTypes_of_respelled hts hus hparameters.symm, beq_of_respelled ht hu hreturns.symm⟩
  · rintro ⟨hparameters, hreturns⟩
    rw [methodDescriptor, methodDescriptor, descriptorsOf_of_sameTypes hparameters,
      descriptor_of_beq hreturns]

end TypeDesc
end ClassSynthesis
