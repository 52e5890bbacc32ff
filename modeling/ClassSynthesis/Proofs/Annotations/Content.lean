import ClassSynthesis.Annotations.Call

/-!
# ClassSynthesis.Proofs.Annotations.Content

What an annotation says, as far as a class file can tell: types by their descriptors, members by
name and value. `Annotation.content?` is all of it, and nothing if any member at any depth is
unreadable.

`Annotation.Countable` holds of annotations whose members and arrays can be counted in a `u2`.

* `unreadableOf_iff`: the search for an unreadable member fails exactly on annotations with content.
* `delivery_unsuppressed`: it alone decides on a delivery, unless the annotation is suppressed.
-/

namespace ClassSynthesis

mutual

inductive AnnotationContent where
  | mk (descriptor : String) (members : List MemberContent)

inductive MemberContent where
  | mk (name : String) (value : ValueContent)

inductive ValueContent where
  | element (e : Element)
  | enum (descriptor constant : String)
  | nested (a : AnnotationContent)
  | array (elements : List ValueContent)

end

mutual

def memberContents? : List Member → Option (List MemberContent)
  | [] => some []
  | .readable name v :: ms =>
    match v.content?, memberContents? ms with
    | some v, some ms => some (.mk name v :: ms)
    | _, _ => none
  | .unreadable _ _ :: _ => none

def Annotation.content? : Annotation → Option AnnotationContent
  | .mk t _ members => (memberContents? members).map (.mk t.descriptor)

def Value.content? : Value → Option ValueContent
  | .scalar s => some (.element (.scalar s))
  | .type t => some (.element (.type t.descriptor))
  | .enum t constant => some (.enum t.descriptor constant)
  | .nested a => a.content?.map .nested
  | .array elements => (elementContents? elements).map .array

def elementContents? : List Value → Option (List ValueContent)
  | [] => some []
  | v :: vs =>
    match v.content?, elementContents? vs with
    | some v, some vs => some (v :: vs)
    | _, _ => none

end

mutual

def Annotation.Countable : Annotation → Prop
  | .mk _ _ members => members.length ≤ 65535 ∧ countableMembers members

def countableMembers : List Member → Prop
  | [] => True
  | .readable _ v :: ms => v.Countable ∧ countableMembers ms
  | .unreadable _ _ :: ms => countableMembers ms

def Value.Countable : Value → Prop
  | .nested a => a.Countable
  | .array elements => elements.length ≤ 65535 ∧ countableElements elements
  | _ => True

def countableElements : List Value → Prop
  | [] => True
  | v :: vs => v.Countable ∧ countableElements vs

end

/-! ## One member or element at a time -/

theorem memberContents?_cons {m : Member} {ms : List Member} {cs : List MemberContent}
    (h : memberContents? (m :: ms) = some cs) :
    ∃ name v c cs', m = .readable name v ∧ v.content? = some c ∧ memberContents? ms = some cs' ∧
      cs = .mk name c :: cs' := by
  cases m with
  | unreadable name reason => simp [memberContents?] at h
  | readable name v =>
    unfold memberContents? at h
    split at h
    · rename_i c cs' hc hcs
      exact ⟨name, v, c, cs', rfl, hc, hcs, (Option.some.inj h).symm⟩
    · cases h

theorem elementContents?_cons {v : Value} {vs : List Value} {cs : List ValueContent}
    (h : elementContents? (v :: vs) = some cs) :
    ∃ c cs', v.content? = some c ∧ elementContents? vs = some cs' ∧ cs = c :: cs' := by
  unfold elementContents? at h
  split at h
  · rename_i c cs' hc hcs
    exact ⟨c, cs', hc, hcs, (Option.some.inj h).symm⟩
  · cases h

theorem length_memberContents? {ms : List Member} {cs : List MemberContent}
    (h : memberContents? ms = some cs) : cs.length = ms.length := by
  induction ms generalizing cs with
  | nil =>
    cases h
    rfl
  | cons m ms ih =>
    obtain ⟨name, v, c, cs', rfl, -, hcs, rfl⟩ := memberContents?_cons h
    simp [ih hcs]

theorem length_elementContents? {vs : List Value} {cs : List ValueContent}
    (h : elementContents? vs = some cs) : cs.length = vs.length := by
  induction vs generalizing cs with
  | nil =>
    cases h
    rfl
  | cons v vs ih =>
    obtain ⟨c, cs', -, hcs, rfl⟩ := elementContents?_cons h
    simp [ih hcs]

/-! ## Unreadable members

The search for an unreadable member goes the way that the content is gathered. -/

mutual

theorem firstUnreadable_iff (owner : String) :
    ∀ ms, firstUnreadable owner ms = none ↔ memberContents? ms ≠ none
  | [] => by simp [firstUnreadable, memberContents?]
  | .unreadable _ _ :: _ => by simp [firstUnreadable, memberContents?]
  | .readable name v :: ms => by
    have hv := unreadableIn_iff v
    have hms := firstUnreadable_iff owner ms
    unfold firstUnreadable memberContents?
    cases hu : unreadableIn v <;> cases hc : v.content? <;> cases hcs : memberContents? ms <;>
      simp_all

theorem unreadableOf_iff : ∀ a : Annotation, unreadableOf a = none ↔ a.content? ≠ none
  | .mk t _ members => by
    simpa [unreadableOf, Annotation.content?] using firstUnreadable_iff t.name members

theorem unreadableIn_iff : ∀ v : Value, unreadableIn v = none ↔ v.content? ≠ none
  | .scalar _ => by simp [unreadableIn, Value.content?]
  | .type _ => by simp [unreadableIn, Value.content?]
  | .enum _ _ => by simp [unreadableIn, Value.content?]
  | .nested a => by simpa [unreadableIn, Value.content?] using unreadableOf_iff a
  | .array elements => by
    simpa [unreadableIn, Value.content?] using unreadableAmong_iff elements

theorem unreadableAmong_iff : ∀ vs, unreadableAmong vs = none ↔ elementContents? vs ≠ none
  | [] => by simp [unreadableAmong, elementContents?]
  | v :: vs => by
    have hv := unreadableIn_iff v
    have hvs := unreadableAmong_iff vs
    unfold unreadableAmong elementContents?
    cases hu : unreadableIn v <;> cases hc : v.content? <;> cases hcs : elementContents? vs <;>
      simp_all

end

/-! ## Delivery -/

section

variable {a : Annotation} {v : Visibility}

theorem delivery_suppressed : a.delivery .invisible = .ok none := rfl

theorem delivery_unsuppressed (hv : v ≠ .invisible) :
    a.delivery v =
      match unreadableOf a with
      | some e => .error e
      | none => .ok (some ⟨a.type.descriptor, v.isVisible, a.calls⟩) := by
  cases v with
  | invisible => exact absurd rfl hv
  | runtime | classFile => rfl

end

end ClassSynthesis
