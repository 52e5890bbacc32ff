import ClassSynthesis.Proofs.Annotations.Nesting
import ClassSynthesis.Proofs.Annotations.Refusal

/-!
# ClassSynthesis.Proofs.Annotations.Decoding

The record of a delivery tells the annotation and nothing else. `decode` rebuilds an annotation
call by call: it keeps the writers that are open, the innermost first, each with what it was given
so far, and a writer that is closed becomes a value of the one around it. It refuses a member
without a name, an element with one, and calls after the last writer is closed.

* `decode_eq_some_iff`: exactly one record decodes to given contents.
* `append_wellNested`: what is sent when an annotation is appended.
-/

namespace ClassSynthesis

/-! ## The record of contents -/

mutual

def AnnotationContent.events (name : Option String) : AnnotationContent → List Event
  | .mk descriptor members => .nested name descriptor :: (memberEvents members ++ [.close])

def memberEvents : List MemberContent → List Event
  | [] => []
  | .mk name v :: ms => v.events (some name) ++ memberEvents ms

def ValueContent.events (name : Option String) : ValueContent → List Event
  | .element e => [.value name e]
  | .enum descriptor constant => [.enum name descriptor constant]
  | .nested a => a.events name
  | .array vs => .array name :: (elementEvents vs ++ [.close])

def elementEvents : List ValueContent → List Event
  | [] => []
  | v :: vs => v.events none ++ elementEvents vs

end

/-- What a record says: where the annotation was delivered, as what, and its contents. -/
structure Recorded where
  parameter : Option Nat
  visible : Bool
  content : AnnotationContent

def Recorded.events : Recorded → List Event
  | ⟨parameter, visible, .mk descriptor members⟩ =>
    .opening descriptor visible parameter :: (memberEvents members ++ [.close])

/-! ## Decoding -/

/-- A writer that is open, with the values it was given so far. -/
inductive OpenWriter where
  | members (name : Option String) (descriptor : String) (members : List MemberContent)
  | elements (name : Option String) (elements : List ValueContent)

namespace OpenWriter

def take (w : OpenWriter) (name : Option String) (v : ValueContent) : Option OpenWriter :=
  match w, name with
  | .members outer descriptor ms, some name =>
    some (.members outer descriptor (ms ++ [.mk name v]))
  | .elements outer vs, none => some (.elements outer (vs ++ [v]))
  | _, _ => none

def name : OpenWriter → Option String
  | .members name _ _ | .elements name _ => name

/-- The value that a writer stands for when it is closed. -/
def value : OpenWriter → ValueContent
  | .members _ descriptor ms => .nested (.mk descriptor ms)
  | .elements _ vs => .array vs

/-- What the last open writer stands for when it is closed and only these calls are left. -/
def whole? : OpenWriter → List Event → Option AnnotationContent
  | .members none descriptor ms, [] => some (.mk descriptor ms)
  | _, _ => none

end OpenWriter

/-- The rest of a record, with the innermost open writer and those around it. -/
def decodeFrom (w : OpenWriter) (around : List OpenWriter) : List Event → Option AnnotationContent
  | .value name e :: es => (w.take name (.element e)).bind (decodeFrom · around es)
  | .enum name descriptor constant :: es =>
    (w.take name (.enum descriptor constant)).bind (decodeFrom · around es)
  | .nested name descriptor :: es => decodeFrom (.members name descriptor []) (w :: around) es
  | .array name :: es => decodeFrom (.elements name []) (w :: around) es
  | .close :: es =>
    match around with
    | outer :: around => (outer.take w.name w.value).bind (decodeFrom · around es)
    | [] => w.whole? es
  | _ => none

def decode : List Event → Option Recorded
  | .opened descriptor visible :: es =>
    (decodeFrom (.members none descriptor []) [] es).map (⟨none, visible, ·⟩)
  | .parameter index descriptor visible :: es =>
    (decodeFrom (.members none descriptor []) [] es).map (⟨some index, visible, ·⟩)
  | _ => none

/-! ## Decoding a record -/

mutual

theorem decodeFrom_nested : ∀ (a : AnnotationContent) (name : Option String) (w : OpenWriter)
    (around : List OpenWriter) (es : List Event),
    decodeFrom w around (a.events name ++ es) =
      (w.take name (.nested a)).bind (decodeFrom · around es)
  | .mk descriptor ms, name, w, around, es => by
    rw [AnnotationContent.events, List.cons_append, List.append_assoc, decodeFrom,
      decodeFrom_members ms]
    rfl

theorem decodeFrom_members : ∀ (ms : List MemberContent) (name : Option String)
    (descriptor : String) (before : List MemberContent) (around : List OpenWriter)
    (es : List Event),
    decodeFrom (.members name descriptor before) around (memberEvents ms ++ es) =
      decodeFrom (.members name descriptor (before ++ ms)) around es
  | [], _, _, _, _, _ => by simp [memberEvents]
  | .mk n v :: ms, name, descriptor, before, around, es => by
    have hrest := decodeFrom_members ms name descriptor (before ++ [.mk n v]) around es
    rw [memberEvents, List.append_assoc, decodeFrom_value v]
    simpa [OpenWriter.take] using hrest

theorem decodeFrom_value : ∀ (v : ValueContent) (name : Option String) (w : OpenWriter)
    (around : List OpenWriter) (es : List Event),
    decodeFrom w around (v.events name ++ es) = (w.take name v).bind (decodeFrom · around es)
  | .element _, _, _, _, _ => rfl
  | .enum _ _, _, _, _, _ => rfl
  | .nested a, name, w, around, es => decodeFrom_nested a name w around es
  | .array vs, name, w, around, es => by
    rw [ValueContent.events, List.cons_append, List.append_assoc, decodeFrom,
      decodeFrom_elements vs]
    rfl

theorem decodeFrom_elements : ∀ (vs : List ValueContent) (name : Option String)
    (before : List ValueContent) (around : List OpenWriter) (es : List Event),
    decodeFrom (.elements name before) around (elementEvents vs ++ es) =
      decodeFrom (.elements name (before ++ vs)) around es
  | [], _, _, _, _ => by simp [elementEvents]
  | v :: vs, name, before, around, es => by
    have hrest := decodeFrom_elements vs name (before ++ [v]) around es
    rw [elementEvents, List.append_assoc, decodeFrom_value v]
    simpa [OpenWriter.take] using hrest

end

/-! ## What decodes is a record -/

namespace OpenWriter

/-- The calls that made an open writer what it is. -/
def events : OpenWriter → List Event
  | .members name descriptor ms => .nested name descriptor :: memberEvents ms
  | .elements name vs => .array name :: elementEvents vs

theorem events_close (w : OpenWriter) : w.events ++ [.close] = w.value.events w.name := by
  cases w <;> rfl

theorem memberEvents_concat (ms : List MemberContent) (name : String) (v : ValueContent) :
    memberEvents (ms ++ [.mk name v]) = memberEvents ms ++ v.events (some name) := by
  induction ms with
  | nil => simp [memberEvents]
  | cons m ms ih =>
    cases m
    rw [List.cons_append, memberEvents, memberEvents, ih, List.append_assoc]

theorem elementEvents_concat (vs : List ValueContent) (v : ValueContent) :
    elementEvents (vs ++ [v]) = elementEvents vs ++ v.events none := by
  induction vs with
  | nil => simp [elementEvents]
  | cons u vs ih => rw [List.cons_append, elementEvents, elementEvents, ih, List.append_assoc]

theorem events_take {w w' : OpenWriter} {name : Option String} {v : ValueContent}
    (h : w.take name v = some w') : w'.events = w.events ++ v.events name := by
  cases w with
  | members outer descriptor ms =>
    cases name with
    | none => cases h
    | some name =>
      cases h
      rw [events, memberEvents_concat, events, List.cons_append]
  | elements outer vs =>
    cases name with
    | none =>
      cases h
      rw [events, elementEvents_concat, events, List.cons_append]
    | some name => cases h

/-- The calls that led to these open writers, the innermost first. -/
def eventsSoFar : List OpenWriter → List Event
  | [] => []
  | w :: around => eventsSoFar around ++ w.events

theorem eventsSoFar_take {w w' : OpenWriter} {name : Option String} {v : ValueContent}
    (h : w.take name v = some w') (around : List OpenWriter) :
    eventsSoFar (w' :: around) = eventsSoFar (w :: around) ++ v.events name := by
  rw [eventsSoFar, events_take h, eventsSoFar, List.append_assoc]

theorem whole?_eq_some {w : OpenWriter} {es : List Event} {c : AnnotationContent}
    (h : w.whole? es = some c) : es = [] ∧ w.name = none ∧ w.value = .nested c := by
  cases w with
  | members name descriptor ms => cases name <;> cases es <;> cases h; exact ⟨rfl, rfl, rfl⟩
  | elements name vs => cases h

end OpenWriter

open OpenWriter (eventsSoFar eventsSoFar_take events_close)

theorem decodeFrom_eq_some {c : AnnotationContent} : ∀ {es : List Event} {w : OpenWriter}
    {around : List OpenWriter}, decodeFrom w around es = some c →
    eventsSoFar (w :: around) ++ es = c.events none := by
  intro es
  induction es with
  | nil =>
    intro w around h
    cases h
  | cons e es ih =>
    intro w around h
    cases e with
    | value name e =>
      obtain ⟨w', htake, hrest⟩ := Option.bind_eq_some_iff.mp h
      rw [← ih hrest, eventsSoFar_take htake, List.append_assoc]
      rfl
    | enum name descriptor constant =>
      obtain ⟨w', htake, hrest⟩ := Option.bind_eq_some_iff.mp h
      rw [← ih hrest, eventsSoFar_take htake, List.append_assoc]
      rfl
    | nested name descriptor =>
      have hopened : eventsSoFar (.members name descriptor [] :: w :: around) =
        eventsSoFar (w :: around) ++ [.nested name descriptor] := rfl
      rw [← ih h, hopened, List.append_assoc]
      rfl
    | array name =>
      have hopened : eventsSoFar (.elements name [] :: w :: around) =
        eventsSoFar (w :: around) ++ [.array name] := rfl
      rw [← ih h, hopened, List.append_assoc]
      rfl
    | close =>
      cases around with
      | nil =>
        obtain ⟨rfl, hname, hvalue⟩ := OpenWriter.whole?_eq_some h
        rw [eventsSoFar, eventsSoFar, List.nil_append, events_close, hname, hvalue]
        rfl
      | cons outer around =>
        obtain ⟨outer', htake, hrest⟩ := Option.bind_eq_some_iff.mp h
        rw [← ih hrest, eventsSoFar_take htake, ← events_close, eventsSoFar]
        simp
    | opened descriptor visible => cases h
    | parameter index descriptor visible => cases h

theorem decodeFrom_eq_some_iff {descriptor : String} {es : List Event} {c : AnnotationContent} :
    decodeFrom (.members none descriptor []) [] es = some c ↔
      .nested none descriptor :: es = c.events none := by
  constructor
  · exact decodeFrom_eq_some
  · obtain ⟨d, ms⟩ := c
    intro h
    obtain ⟨hd, rfl⟩ := List.cons.inj h
    cases hd
    rw [decodeFrom_members]
    rfl

theorem decode_eq_some_iff {es : List Event} {r : Recorded} :
    decode es = some r ↔ es = r.events := by
  constructor
  · intro h
    unfold decode at h
    split at h
    · obtain ⟨⟨d, ms⟩, hc, rfl⟩ := Option.map_eq_some_iff.mp h
      obtain ⟨hd, rfl⟩ := List.cons.inj (decodeFrom_eq_some_iff.mp hc)
      cases hd
      rfl
    · obtain ⟨⟨d, ms⟩, hc, rfl⟩ := Option.map_eq_some_iff.mp h
      obtain ⟨hd, rfl⟩ := List.cons.inj (decodeFrom_eq_some_iff.mp hc)
      cases hd
      rfl
    · cases h
  · rintro rfl
    obtain ⟨parameter, visible, d, ms⟩ := r
    have hms : decodeFrom (.members none d []) [] (memberEvents ms ++ [.close]) =
        some (.mk d ms) := decodeFrom_eq_some_iff.mpr rfl
    cases parameter with
    | none => exact Option.map_eq_some_iff.mpr ⟨_, hms, rfl⟩
    | some index => exact Option.map_eq_some_iff.mpr ⟨_, hms, rfl⟩

/-! ## What is sent -/

mutual

theorem memberCalls_events : ∀ (ms : List Member) {cs : List MemberContent},
    memberContents? ms = some cs → ∀ (w : List Nat) (k : Nat),
    (sentAll w k (memberCalls ms)).map Sent.event = memberEvents cs ++ [.close]
  | [], _, rfl, _, _ => rfl
  | m :: ms, cs, hc, w, k => by
    obtain ⟨name, v, c, cs', rfl, hv, hcs, rfl⟩ := memberContents?_cons hc
    rw [memberCalls, sentAll, List.map_append, valueCall_events v hv,
      memberCalls_events ms hcs, memberEvents, List.append_assoc]

theorem valueCall_events : ∀ (v : Value) {c : ValueContent}, v.content? = some c →
    ∀ (name : Option String) (w : List Nat) (k : Nat),
    ((valueCall name v).sent w k).map Sent.event = c.events name
  | .scalar _, _, rfl, _, _, _ => rfl
  | .type _, _, rfl, _, _, _ => rfl
  | .enum _ _, _, rfl, _, _, _ => rfl
  | .nested (.mk t _ members), _, hc, name, w, k => by
    obtain ⟨c, ha, rfl⟩ := Option.map_eq_some_iff.mp hc
    obtain ⟨cs, hcs, rfl⟩ := Option.map_eq_some_iff.mp ha
    have hinner := memberCalls_events members hcs (k :: w) 0
    exact congrArg (.nested name t.descriptor :: ·) hinner
  | .array elements, _, hc, name, w, k => by
    obtain ⟨cs, hcs, rfl⟩ := Option.map_eq_some_iff.mp hc
    have hinner := elementCalls_events elements hcs (k :: w) 0
    exact congrArg (.array name :: ·) hinner

theorem elementCalls_events : ∀ (vs : List Value) {cs : List ValueContent},
    elementContents? vs = some cs → ∀ (w : List Nat) (k : Nat),
    (sentAll w k (elementCalls vs)).map Sent.event = elementEvents cs ++ [.close]
  | [], _, rfl, _, _ => rfl
  | v :: vs, cs, hc, w, k => by
    obtain ⟨c, cs', hv, hcs, rfl⟩ := elementContents?_cons hc
    rw [elementCalls, sentAll, List.map_append, valueCall_events v hv,
      elementCalls_events vs hcs, elementEvents, List.append_assoc]

end

theorem sent_events {a : Annotation} {c : AnnotationContent} (h : a.content? = some c)
    (visible : Bool) (parameter : Option Nat) :
    (Delivery.sent ⟨a.type.descriptor, visible, a.calls⟩ parameter).map Sent.event =
      Recorded.events ⟨parameter, visible, c⟩ := by
  obtain ⟨t, retention, members⟩ := a
  obtain ⟨cs, hcs, rfl⟩ := Option.map_eq_some_iff.mp h
  exact congrArg (.opening t.descriptor visible parameter :: ·) (memberCalls_events members hcs [0] 0)

theorem content?_of_readable {a : Annotation} (h : a.Readable) : ∃ c, a.content? = some c := by
  have hu := (unreadableOf_eq_none_iff a).mpr h
  exact Option.ne_none_iff_exists'.mp ((unreadableOf_iff a).mp hu)

namespace AnnotationTarget

theorem append_wellNested (a : Annotation) (v : Visibility) (hv : v ≠ .invisible)
    (ha : a.Readable) (parameter : Option Nat) :
    ∃ d c, a.delivery v = .ok (some d) ∧ a.content? = some c ∧
      (∀ (t : AnnotationTarget) (index : Nat), t.append index a v = .ok (t.receive index d)) ∧
      WellNested (d.sent parameter) ∧
      (d.sent parameter).map Sent.event = a.received v parameter ∧
      ∀ es, decode es = some ⟨parameter, v.isVisible, c⟩ ↔ es = a.received v parameter := by
  obtain ⟨c, hc⟩ := content?_of_readable ha
  have hd := delivery_of_readable hv ha
  have hreceived : a.received v parameter =
      (Delivery.sent ⟨a.type.descriptor, v.isVisible, a.calls⟩ parameter).map Sent.event := by
    unfold Annotation.received
    rw [hd]
    exact Delivery.events_toList _ parameter
  refine ⟨_, c, hd, hc, fun t index => append_readable hv hc,
    sent_wellNested a v.isVisible parameter, hreceived.symm, fun es => ?_⟩
  rw [decode_eq_some_iff, hreceived, sent_events hc]

/-- An empty annotation, an array that holds another one, and an empty array, for a parameter. -/
theorem append_wellNested_forms :
    let inner : Annotation := .mk (.classNamed "B") none []
    let a : Annotation := .mk (.classNamed "A") (some .runtime)
      [.readable "n" (.nested inner), .readable "v" (.array [.nested inner, .type .void]),
        .readable "w" (.array [])]
    let calls : List Event :=
      [.parameter 2 "LA;" true, .nested (some "n") "LB;", .close, .array (some "v"),
        .nested none "LB;", .close, .value none (.type "V"), .close, .array (some "w"), .close,
        .close]
    Visibility.runtime ≠ .invisible ∧ a.Readable ∧ a.received .runtime (some 2) = calls ∧
    (∃ d, a.delivery .runtime = .ok (some d) ∧ WellNested (d.sent (some 2)) ∧
      (d.sent (some 2)).map Sent.event = calls) ∧
    ∃ c, a.content? = some c ∧ decode calls = some ⟨some 2, true, c⟩ := by
  intro inner a calls
  have hv : Visibility.runtime ≠ .invisible := by decide
  have ha : a.Readable := by
    simp [a, inner, Annotation.Readable, Annotation.everyMember, membersOwnedBy,
      Value.everyMember, membersAmong, OwnedMember.IsReadable]
  have hcalls : a.received .runtime (some 2) = calls := by cbv
  obtain ⟨d, c, hd, hc, -, hnested, hsent, hdecode⟩ := append_wellNested a .runtime hv ha (some 2)
  rw [hcalls] at hsent
  exact ⟨hv, ha, hcalls, ⟨d, hd, hnested, hsent⟩, c, hc, (hdecode calls).mpr hcalls.symm⟩

end AnnotationTarget
end ClassSynthesis
