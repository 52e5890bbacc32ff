import ClassSynthesis.Types.Member

/-!
# ClassSynthesis.Proofs.Descriptor

Reading descriptors by their grammar. `readType?` takes one type from the front of a text,
`readMethod?` and `readField?` take a whole descriptor. A class is known by its name only, so what
is read is the type `respelled`.

* `readType?_descriptor`: a type whose class names have no semicolon is read back, whatever stands
  after it.
* `readMethod?_descriptor`, `readField?_descriptor`: so are methods and fields that have no
  operand of type `void`.
-/

namespace ClassSynthesis

/-! ## Grammar -/

def readPrimitive? : Char → Option Primitive
  | 'B' => some .byte
  | 'C' => some .char
  | 'D' => some .double
  | 'F' => some .float
  | 'I' => some .int
  | 'J' => some .long
  | 'S' => some .short
  | 'V' => some .void
  | 'Z' => some .boolean
  | _ => none

/-- A class name, up to the semicolon, and what stands after that. -/
def readName? : List Char → Option (List Char × List Char)
  | [] => none
  | c :: cs =>
    if c = ';' then some ([], cs)
    else (readName? cs).map fun (name, rest) => (c :: name, rest)

/-- The type at the front, and what stands after it. -/
def readType? : List Char → Option (TypeDesc × List Char)
  | [] => none
  | c :: cs =>
    if c = '[' then (readType? cs).map fun (t, rest) => (.array t, rest)
    else if c = 'L' then
      (readName? cs).map fun (name, rest) =>
        (.classNamed (TypeDesc.dotted (String.ofList name)), rest)
    else (readPrimitive? c).map fun p => (.primitive p, cs)

theorem length_readName? {cs rest : List Char} {name : List Char}
    (h : readName? cs = some (name, rest)) : rest.length < cs.length := by
  induction cs generalizing name with
  | nil => cases h
  | cons c cs ih =>
    unfold readName? at h
    split at h
    · cases h
      simp
    · obtain ⟨⟨n, r⟩, hn, hr⟩ := Option.map_eq_some_iff.mp h
      cases hr
      have := ih hn
      simp only [List.length_cons]
      omega

theorem length_readType? {cs rest : List Char} {t : TypeDesc}
    (h : readType? cs = some (t, rest)) : rest.length < cs.length := by
  induction cs generalizing t with
  | nil => cases h
  | cons c cs ih =>
    unfold readType? at h
    split at h
    · obtain ⟨⟨u, r⟩, hu, hr⟩ := Option.map_eq_some_iff.mp h
      cases hr
      have := ih hu
      simp only [List.length_cons]
      omega
    · split at h
      · obtain ⟨⟨n, r⟩, hn, hr⟩ := Option.map_eq_some_iff.mp h
        cases hr
        have := length_readName? hn
        simp only [List.length_cons]
        omega
      · obtain ⟨p, hp, hr⟩ := Option.map_eq_some_iff.mp h
        cases hr
        simp

/-- Types up to the closing parenthesis, and what stands after that. -/
def readTypes? (cs : List Char) : Option (List TypeDesc × List Char) :=
  if cs.head? = some ')' then some ([], cs.tail)
  else
    match _h : readType? cs with
    | some (t, rest) =>
      if t.isVoid then none else (readTypes? rest).map fun (ts, rest) => (t :: ts, rest)
    | none => none
termination_by cs.length
decreasing_by exact length_readType? ‹_›

/-- Parameters and return type. -/
def readMethod? (descriptor : String) : Option (List TypeDesc × TypeDesc) :=
  match descriptor.toList with
  | '(' :: cs =>
    match readTypes? cs with
    | some (parameters, rest) =>
      match readType? rest with
      | some (returns, []) => some (parameters, returns)
      | _ => none
    | none => none
  | _ => none

def readField? (descriptor : String) : Option TypeDesc :=
  match readType? descriptor.toList with
  | some (t, []) => if t.isVoid then none else some t
  | _ => none

/-! ## Writing and reading -/

namespace TypeDesc

/-- Arrays nest; nothing else in a type matters to its spelling. -/
@[elab_as_elim]
theorem component_induction {P : TypeDesc → Prop} (primitive : ∀ p, P (.primitive p))
    (array : ∀ c, P c → P (.array c))
    (declared : ∀ name modifiers superclass interfaces annotations,
      P (.declared name modifiers superclass interfaces annotations)) : ∀ t, P t
  | .primitive p => primitive p
  | .array c => array c (component_induction primitive array declared c)
  | .declared .. => declared ..

/-- No class name in the descriptor has a semicolon. -/
def Spellable : TypeDesc → Prop
  | .primitive _ => True
  | .array c => c.Spellable
  | .declared name _ _ _ _ => ';' ∉ name.toList

/-- What is left of a type in its descriptor. -/
def respelled : TypeDesc → TypeDesc
  | .primitive p => .primitive p
  | .array c => .array c.respelled
  | .declared name _ _ _ _ => .classNamed (dotted (slashed name))

@[simp] theorem isVoid_respelled (t : TypeDesc) : t.respelled.isVoid = t.isVoid := by
  cases t <;> rfl

theorem not_mem_slashed {c : Char} {name : String} (hc : c ≠ '/') (h : c ∉ name.toList) :
    c ∉ (slashed name).toList := by
  rw [slashed, String.toList_map, List.mem_map]
  rintro ⟨d, hd, he⟩
  split at he
  · exact hc he.symm
  · rw [he] at hd
    exact h hd

theorem semicolon_slashed {name : String} (h : ';' ∉ name.toList) :
    ';' ∉ (slashed name).toList :=
  not_mem_slashed (by decide) h

end TypeDesc

open TypeDesc

theorem readName?_append {name : List Char} (h : ';' ∉ name) (rest : List Char) :
    readName? (name ++ ';' :: rest) = some (name, rest) := by
  induction name with
  | nil => simp [readName?]
  | cons c cs ih =>
    obtain ⟨hc, hcs⟩ := List.ne_and_not_mem_of_not_mem_cons h
    simp [readName?, ih hcs, Ne.symm hc]

theorem readType?_primitive (p : Primitive) (rest : List Char) :
    readType? (p.descriptor :: rest) = some (.primitive p, rest) := by
  have hp : readPrimitive? p.descriptor = some p := by cases p <;> rfl
  have ha : p.descriptor ≠ '[' := by cases p <;> decide
  have hl : p.descriptor ≠ 'L' := by cases p <;> decide
  simp [readType?, ha, hl, hp]

theorem readType?_descriptor {t : TypeDesc} (h : t.Spellable) (rest : List Char) :
    readType? (t.descriptor.toList ++ rest) = some (t.respelled, rest) := by
  induction t using component_induction with
  | primitive p => simp [descriptor, readType?_primitive, respelled]
  | array c ih => simp [descriptor, readType?, ih h, respelled]
  | declared name modifiers superclass interfaces annotations =>
    have hn := readName?_append (semicolon_slashed h) rest
    simp [descriptor, readType?, hn, respelled]

theorem head?_descriptor (t : TypeDesc) (rest : List Char) :
    (t.descriptor.toList ++ rest).head? ≠ some ')' := by
  cases t with
  | primitive p => cases p <;> simp [descriptor] <;> decide
  | array c => simp [descriptor]
  | declared name modifiers superclass interfaces annotations => simp [descriptor]

theorem readTypes?_descriptors {ts : List TypeDesc}
    (h : ∀ t ∈ ts, t.Spellable ∧ t.isVoid = false) (rest : List Char) :
    readTypes? ((descriptorsOf ts).toList ++ ')' :: rest) = some (ts.map respelled, rest) := by
  induction ts with
  | nil =>
    unfold readTypes?
    simp [descriptorsOf]
  | cons t ts ih =>
    obtain ⟨ht, hv⟩ := h t (.head ts)
    have hts := ih fun u hu => h u (.tail t hu)
    have happ : (descriptorsOf (t :: ts)).toList ++ ')' :: rest =
        t.descriptor.toList ++ ((descriptorsOf ts).toList ++ ')' :: rest) := by
      simp [descriptorsOf, String.toList_join]
    rw [happ, readTypes?, if_neg (head?_descriptor t _)]
    split
    · rename_i u r hu
      rw [readType?_descriptor ht] at hu
      cases hu
      simp [hv, hts]
    · rename_i hu
      rw [readType?_descriptor ht] at hu
      cases hu

/-- Methods whose descriptor says what their parameters are. -/
def MethodDesc.Unambiguous (m : MethodDesc) : Prop :=
  (∀ t ∈ m.parameters, t.Spellable ∧ t.isVoid = false) ∧ m.returns.Spellable

def FieldDesc.Unambiguous (f : FieldDesc) : Prop := f.type.Spellable ∧ f.type.isVoid = false

theorem readMethod?_descriptor {m : MethodDesc} (h : m.Unambiguous) :
    readMethod? m.descriptor = some (m.parameters.map respelled, m.returns.respelled) := by
  have hp := readTypes?_descriptors h.1 m.returns.descriptor.toList
  have hr := readType?_descriptor h.2 []
  rw [List.append_nil] at hr
  simp [readMethod?, MethodDesc.descriptor, methodDescriptor, hp, hr]

theorem readField?_descriptor {f : FieldDesc} (h : f.Unambiguous) :
    readField? f.descriptor = some f.type.respelled := by
  have hr := readType?_descriptor h.1 []
  rw [List.append_nil] at hr
  simp [readField?, FieldDesc.descriptor, hr, h.2]

end ClassSynthesis
