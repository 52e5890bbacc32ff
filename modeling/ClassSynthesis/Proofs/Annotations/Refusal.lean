import ClassSynthesis.Proofs.Annotations.Parameters

/-!
# ClassSynthesis.Proofs.Annotations.Refusal

When an annotation is refused, and that nothing comes of it then. `Annotation.everyMember` lists all
members at all depths, a member before those inside its value, whether or not they could be read.
The search for an unreadable member stops early and goes through four kinds of nodes; what it finds
is the first unreadable one of that list (`unreadableOf_eq`).

* `append_refused`: an annotation is refused for the first unreadable member, unless it is
  suppressed; if it is refused or suppressed, a sink of any kind ends up as if it had never been
  appended, whatever else is appended before and after.
-/

namespace ClassSynthesis

/-- A member, and the type of the annotation that it belongs to. -/
structure OwnedMember where
  owner : TypeDesc
  member : Member

mutual

/-- All members at all depths, depth first and in declaration order. -/
def Annotation.everyMember : Annotation → List OwnedMember
  | .mk t _ members => membersOwnedBy t members

def membersOwnedBy (owner : TypeDesc) : List Member → List OwnedMember
  | [] => []
  | .readable name v :: ms => ⟨owner, .readable name v⟩ :: v.everyMember ++ membersOwnedBy owner ms
  | .unreadable name reason :: ms =>
    ⟨owner, .unreadable name reason⟩ :: membersOwnedBy owner ms

def Value.everyMember : Value → List OwnedMember
  | .nested a => a.everyMember
  | .array elements => membersAmong elements
  | _ => []

def membersAmong : List Value → List OwnedMember
  | [] => []
  | v :: vs => v.everyMember ++ membersAmong vs

end

namespace OwnedMember

def IsReadable (m : OwnedMember) : Prop := ∃ name v, m.member = .readable name v

/-- What is reported for a member that could not be read. -/
def fault? : OwnedMember → Option AnnotationError
  | ⟨owner, .unreadable name reason⟩ => some (.unreadable owner.name name reason)
  | ⟨_, .readable _ _⟩ => none

theorem fault?_eq_none_iff (m : OwnedMember) : m.fault? = none ↔ m.IsReadable := by
  obtain ⟨owner, name, v | ⟨name, reason⟩⟩ := m <;> simp [fault?, IsReadable]

theorem fault?_eq_some_iff {m : OwnedMember} {e : AnnotationError} :
    m.fault? = some e ↔
      ∃ name reason, m.member = .unreadable name reason ∧
        e = .unreadable m.owner.name name reason := by
  obtain ⟨owner, name, v | ⟨name, reason⟩⟩ := m <;> simp [fault?, eq_comm]

end OwnedMember

/-- No member at any depth is unreadable. -/
def Annotation.Readable (a : Annotation) : Prop := ∀ m ∈ a.everyMember, m.IsReadable

/-! ## The search -/

section

open OwnedMember (fault?)

theorem findSome?_append_eq (ms later : List OwnedMember) :
    (ms ++ later).findSome? fault? =
      match ms.findSome? fault? with
      | some e => some e
      | none => later.findSome? fault? := by
  rw [List.findSome?_append]
  cases ms.findSome? fault? <;> rfl

mutual

theorem unreadableOf_eq : ∀ a : Annotation, unreadableOf a = a.everyMember.findSome? fault?
  | .mk t _ members => firstUnreadable_eq t members

theorem firstUnreadable_eq (owner : TypeDesc) :
    ∀ ms, firstUnreadable owner.name ms = (membersOwnedBy owner ms).findSome? fault?
  | [] => rfl
  | .unreadable _ _ :: _ => rfl
  | .readable name v :: ms => by
    have hskip : (membersOwnedBy owner (.readable name v :: ms)).findSome? fault? =
      (v.everyMember ++ membersOwnedBy owner ms).findSome? fault? := rfl
    rw [hskip, findSome?_append_eq, ← unreadableIn_eq v, ← firstUnreadable_eq owner ms]
    rfl

theorem unreadableIn_eq : ∀ v : Value, unreadableIn v = v.everyMember.findSome? fault?
  | .scalar _ => rfl
  | .type _ => rfl
  | .enum _ _ => rfl
  | .nested a => unreadableOf_eq a
  | .array elements => unreadableAmong_eq elements

theorem unreadableAmong_eq :
    ∀ vs, unreadableAmong vs = (membersAmong vs).findSome? fault?
  | [] => rfl
  | v :: vs => by
    rw [membersAmong, findSome?_append_eq, ← unreadableIn_eq v, ← unreadableAmong_eq vs]
    rfl

end

end

theorem unreadableOf_eq_none_iff (a : Annotation) : unreadableOf a = none ↔ a.Readable := by
  rw [unreadableOf_eq, List.findSome?_eq_none_iff]
  exact forall₂_congr fun m _ => m.fault?_eq_none_iff

/-- The first unreadable member is the one reported. -/
theorem unreadableOf_eq_some_iff {a : Annotation} {e : AnnotationError} :
    unreadableOf a = some e ↔
      ∃ before owner name reason after,
        a.everyMember = before ++ ⟨owner, .unreadable name reason⟩ :: after ∧
        (∀ m ∈ before, m.IsReadable) ∧ e = .unreadable owner.name name reason := by
  rw [unreadableOf_eq, List.findSome?_eq_some_iff]
  constructor
  · rintro ⟨before, ⟨owner, member⟩, after, hsplit, hfault, hbefore⟩
    obtain ⟨name, reason, rfl, rfl⟩ := OwnedMember.fault?_eq_some_iff.mp hfault
    exact ⟨before, owner, name, reason, after, hsplit,
      fun m hm => m.fault?_eq_none_iff.mp (hbefore m hm), rfl⟩
  · rintro ⟨before, owner, name, reason, after, hsplit, hbefore, rfl⟩
    exact ⟨before, _, after, hsplit, rfl, fun m hm => m.fault?_eq_none_iff.mpr (hbefore m hm)⟩

theorem exists_unreadable_iff {a : Annotation} :
    (∃ e, unreadableOf a = some e) ↔ ∃ m ∈ a.everyMember, ¬m.IsReadable := by
  rw [← Option.ne_none_iff_exists', ne_eq, unreadableOf_eq_none_iff]
  unfold Annotation.Readable
  push Not
  rfl

/-! ## Delivery -/

section

variable {a : Annotation} {v : Visibility}

theorem delivery_eq_error_iff {e : AnnotationError} :
    a.delivery v = .error e ↔ v ≠ .invisible ∧ unreadableOf a = some e := by
  by_cases hv : v = .invisible
  · simp [hv, delivery_suppressed]
  · rw [delivery_unsuppressed hv]
    cases unreadableOf a <;> simp [hv]

theorem delivery_of_readable (hv : v ≠ .invisible) (ha : a.Readable) :
    a.delivery v = .ok (some ⟨a.type.descriptor, v.isVisible, a.calls⟩) := by
  rw [delivery_unsuppressed hv, (unreadableOf_eq_none_iff a).mpr ha]

/-- Only what is neither suppressed nor refused is delivered. -/
theorem delivery_eq_some_iff :
    (∃ d, a.delivery v = .ok (some d)) ↔ v ≠ .invisible ∧ a.Readable := by
  rw [← unreadableOf_eq_none_iff]
  by_cases hv : v = .invisible
  · simp [hv, delivery_suppressed]
  · rw [delivery_unsuppressed hv]
    cases unreadableOf a <;> simp [hv]

end

/-- All calls that a sink sees for an annotation, in order. -/
def Annotation.received (a : Annotation) (v : Visibility) (parameter : Option Nat) : List Event :=
  match a.delivery v with
  | .ok (some d) => (d.events parameter).toList
  | _ => []

theorem received_undelivered {a : Annotation} {v : Visibility}
    (h : ¬∃ d, a.delivery v = .ok (some d)) (parameter : Option Nat) :
    a.received v parameter = [] := by
  unfold Annotation.received
  split
  · rename_i d hd
    exact absurd ⟨d, hd⟩ h
  · rfl

namespace AnnotationTarget

theorem append_error_iff_delivery {t : AnnotationTarget} {index : Nat} {a : Annotation}
    {v : Visibility} {e : AnnotationError} :
    t.append index a v = .error e ↔ a.delivery v = .error e := by
  unfold append
  cases a.delivery v with
  | error e' => simp
  | ok d => cases d <;> simp

/-! ## Sinks of any kind -/

section

variable {Sink : Type} (receive : Sink → Nat → Delivery → Sink)

/-- A sink after one step: it learns of what is delivered and of nothing else. -/
def advance (s : Sink) (p : Placing) : Sink :=
  match p.2.1.delivery p.2.visibility with
  | .ok (some d) => receive s p.1 d
  | _ => s

/-- A sink after a history of appending. -/
def follow (s : Sink) (history : List Placing) : Sink := history.foldl (advance receive) s

theorem advance_undelivered {s : Sink} {p : Placing}
    (h : ¬∃ d, p.2.1.delivery p.2.visibility = .ok (some d)) : advance receive s p = s := by
  unfold advance
  split
  · rename_i d hd
    exact absurd ⟨d, hd⟩ h
  · rfl

theorem follow_undelivered {p : Placing}
    (h : ¬∃ d, p.2.1.delivery p.2.visibility = .ok (some d)) (s : Sink)
    (before after : List Placing) :
    follow receive s (before ++ p :: after) = follow receive s (before ++ after) := by
  rw [follow, follow, List.foldl_append, List.foldl_append, List.foldl_cons,
    advance_undelivered receive h]

end

theorem attempt_eq_advance (t : AnnotationTarget) (index : Nat) (step : Appending) :
    t.attempt index step = advance receive t (index, step) := by
  unfold attempt append advance
  cases step.1.delivery step.visibility with
  | error e => rfl
  | ok d => cases d <;> rfl

theorem placeAll_eq_follow (t : AnnotationTarget) (history : List Placing) :
    t.placeAll history = follow receive t history := by
  unfold placeAll follow
  exact congrArg (fun f => history.foldl f t)
    (funext fun t => funext fun p => attempt_eq_advance t p.1 p.2)

theorem append_refused (a : Annotation) (v : Visibility) (index : Nat) :
    (∀ (t : AnnotationTarget) (e : AnnotationError), t.append index a v = .error e ↔
      v ≠ .invisible ∧ ∃ before owner name reason after,
        a.everyMember = before ++ ⟨owner, .unreadable name reason⟩ :: after ∧
        (∀ m ∈ before, m.IsReadable) ∧ e = .unreadable owner.name name reason) ∧
    (∀ t : AnnotationTarget, (∃ e, t.append index a v = .error e) ↔
      v ≠ .invisible ∧ ∃ m ∈ a.everyMember, ¬m.IsReadable) ∧
    ((v = .invisible ∨ ∃ m ∈ a.everyMember, ¬m.IsReadable) →
      (∀ parameter, a.received v parameter = []) ∧
      (∀ t : AnnotationTarget, t.attempt index (a, some v) = t) ∧
      (∀ (t : AnnotationTarget) (before after : List Placing),
        t.placeAll (before ++ (index, a, some v) :: after) = t.placeAll (before ++ after)) ∧
      ∀ {Sink : Type} (receive : Sink → Nat → Delivery → Sink) (s : Sink)
        (before after : List Placing),
        follow receive s (before ++ (index, a, some v) :: after) =
          follow receive s (before ++ after)) := by
  refine ⟨fun t e => ?_, fun t => ?_, fun h => ?_⟩
  · rw [append_error_iff_delivery, delivery_eq_error_iff, unreadableOf_eq_some_iff]
  · simp only [append_error_iff_delivery, delivery_eq_error_iff, exists_and_left]
    rw [exists_unreadable_iff]
  · have hnone : ¬∃ d, a.delivery v = .ok (some d) := by
      rw [delivery_eq_some_iff]
      rintro ⟨hv, ha⟩
      rcases h with h | ⟨m, hm, hu⟩
      · exact hv h
      · exact hu (ha m hm)
    refine ⟨fun parameter => received_undelivered hnone parameter, fun t => ?_,
      fun t before after => ?_, fun receive s before after => ?_⟩
    · rw [attempt_eq_advance]
      exact advance_undelivered _ hnone
    · rw [placeAll_eq_follow, placeAll_eq_follow]
      exact follow_undelivered _ hnone t before after
    · exact follow_undelivered receive hnone s before after

/-- The unreadable member of a nested annotation comes before the later one of the outer. -/
theorem append_refused_nested :
    let inner : Annotation :=
      .mk (.classNamed "p.Inner") none [.unreadable "value" "access denied"]
    let outer : Annotation := .mk (.classNamed "p.Outer") (some .runtime)
      [.readable "n" (.array [.scalar (.byte 5), .nested inner]), .unreadable "m" "missing"]
    let table : AnnotationTarget := .declaration (.start ConstantPool.empty)
    table.append 0 outer .runtime = .error (.unreadable "p.Inner" "value" "access denied") ∧
    (∃ m ∈ outer.everyMember, ¬m.IsReadable) ∧ outer.received .runtime none = [] ∧
    table.attempt 0 (outer, some .runtime) = table := by
  intro inner outer table
  obtain ⟨herror, hiff, hleft⟩ := append_refused outer .runtime 0
  have happend : table.append 0 outer .runtime =
      .error (.unreadable "p.Inner" "value" "access denied") :=
    (herror table _).mpr ⟨by decide, [⟨.classNamed "p.Outer", .readable "n" _⟩],
      .classNamed "p.Inner", "value", "access denied", _, rfl,
      by simp [OwnedMember.IsReadable], rfl⟩
  have hsome := ((hiff table).mp ⟨_, happend⟩).2
  obtain ⟨hreceived, hattempt, -⟩ := hleft (.inr hsome)
  exact ⟨happend, hsome, hreceived none, hattempt table⟩

end AnnotationTarget
end ClassSynthesis
