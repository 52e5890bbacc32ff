import ClassSynthesis.Annotations.Call

/-!
# ClassSynthesis.Proofs.Annotations.Nesting

Who gets which call while an annotation is handed over. A call is named by its path: `k :: w` is
the `k`-th call on the writer `w`. A writer is named by the call that opened it, so the sink is
`[]`, the writer of the annotation itself `[0]`, and writers opened inside `w` end in `w`.

`Bracketed` are the sequences of calls that a writer may get up to its end, those of the writers
inside it included. Annotations of all kinds produce such sequences (`memberCalls_bracketed`), and
in such a sequence writers are closed once and in time (`Bracketed.wellNested`).

* `Delivery.sent`: the calls of a delivery with their writers.
* `WellNested`: what holds of the opening, the naming and the closing of writers.
-/

namespace ClassSynthesis

namespace Event

/-- Whether the call opens a writer. -/
def opens : Event → Bool
  | .opened .. | .parameter .. | .nested .. | .array .. => true
  | .value .. | .enum .. | .close => false

/-- Whether the writer that is opened takes members, which have names, or elements. -/
def opensNamed : Event → Bool
  | .array .. => false
  | _ => true

def label : Event → Option String
  | .value name _ | .enum name _ _ | .nested name _ | .array name => name
  | .opened .. | .parameter .. | .close => none

end Event

/-- A call that was made on a writer. -/
structure Sent where
  writer : List Nat
  place : Nat
  event : Event

def Sent.path (s : Sent) : List Nat := s.place :: s.writer

mutual

/-- A call and those made on the writer that it opens. -/
def Call.sent (w : List Nat) (k : Nat) : Call → List Sent
  | .value name e => [⟨w, k, .value name e⟩]
  | .enum name descriptor constant => [⟨w, k, .enum name descriptor constant⟩]
  | .nested name descriptor calls => ⟨w, k, .nested name descriptor⟩ :: sentAll (k :: w) 0 calls
  | .array name calls => ⟨w, k, .array name⟩ :: sentAll (k :: w) 0 calls
  | .close => [⟨w, k, .close⟩]

/-- The calls on a writer from the `k`-th on. -/
def sentAll (w : List Nat) (k : Nat) : List Call → List Sent
  | [] => []
  | c :: cs => c.sent w k ++ sentAll w (k + 1) cs

end

/-- The call on the sink, which may be one for parameters. -/
def Event.opening (descriptor : String) (visible : Bool) : Option Nat → Event
  | none => .opened descriptor visible
  | some index => .parameter index descriptor visible

def Delivery.sent (d : Delivery) (parameter : Option Nat) : List Sent :=
  ⟨[], 0, .opening d.descriptor d.visible parameter⟩ :: sentAll [0] 0 d.calls

/-- A call on a writer, with a name exactly if that writer takes members. -/
structure Sent.On (s : Sent) (w : List Nat) (named : Bool) : Prop where
  writer : s.writer = w
  label : s.event ≠ .close → s.event.label.isSome = named

/-- A writer that is opened is closed once, by its last call. Up to then only it and the writers
inside it get calls, and they get none before or after. -/
def Closes (calls : List Sent) : Prop :=
  ∀ before s rest, calls = before ++ s :: rest → s.event.opens = true →
    ∃ inside k after, rest = inside ++ ⟨s.path, k, .close⟩ :: after ∧
      (∀ x ∈ inside, s.path <:+ x.writer ∧ (x.writer = s.path → x.event ≠ .close)) ∧
      ∀ x ∈ before ++ after, ¬s.path <:+ x.writer

/-- Writers are opened, used and closed in turn. Past the first call, which is on the sink, calls
are on writers opened before. -/
structure WellNested (calls : List Sent) : Prop where
  first : ∃ s rest, calls = s :: rest ∧ s.writer = [] ∧ s.event.opens = true
  received : ∀ before s rest, calls = before ++ s :: rest → before ≠ [] →
    ∃ o ∈ before, o.event.opens = true ∧ s.On o.path o.event.opensNamed
  closed : Closes calls

/-! ## The record

The record of a delivery is what was sent without the writers. -/

mutual

theorem record_toList (w : List Nat) (k : Nat) : ∀ (c : Call) (out : Array Event),
    (c.record out).toList = out.toList ++ (c.sent w k).map Sent.event
  | .value _ _, _ => Array.toList_push
  | .enum _ _ _, _ => Array.toList_push
  | .nested name descriptor calls, out => by
    rw [Call.record, recordAll_toList (k :: w) 0 calls, Array.toList_push, List.append_assoc]
    rfl
  | .array name calls, out => by
    rw [Call.record, recordAll_toList (k :: w) 0 calls, Array.toList_push, List.append_assoc]
    rfl
  | .close, _ => Array.toList_push

theorem recordAll_toList (w : List Nat) (k : Nat) : ∀ (cs : List Call) (out : Array Event),
    (recordAll out cs).toList = out.toList ++ (sentAll w k cs).map Sent.event
  | [], _ => (List.append_nil _).symm
  | c :: cs, out => by
    rw [recordAll, recordAll_toList w (k + 1) cs, record_toList w k c, sentAll, List.map_append,
      List.append_assoc]

end

theorem Delivery.events_toList (d : Delivery) (parameter : Option Nat) :
    (d.events parameter).toList = (d.sent parameter).map Sent.event := by
  have hrecord : (d.events parameter).toList =
      [.opening d.descriptor d.visible parameter] ++ (sentAll [0] 0 d.calls).map Sent.event := by
    cases parameter <;> exact recordAll_toList [0] 0 d.calls _
  rw [hrecord]
  rfl

/-! ## Brackets -/

/-- The calls on a writer from the `k`-th to the last, and those on writers inside it. -/
inductive Bracketed : Bool → List Nat → Nat → List Sent → Prop where
  | close {named : Bool} {w : List Nat} {k : Nat} : Bracketed named w k [⟨w, k, .close⟩]
  | piece {named : Bool} {w : List Nat} {k : Nat} {e : Event} {rest : List Sent}
      (hplain : e.opens = false) (hopen : e ≠ .close) (hname : e.label.isSome = named)
      (hrest : Bracketed named w (k + 1) rest) :
      Bracketed named w k (⟨w, k, e⟩ :: rest)
  | writer {named : Bool} {w : List Nat} {k : Nat} {e : Event} {inner rest : List Sent}
      (hopens : e.opens = true) (hname : e.label.isSome = named)
      (hinner : Bracketed e.opensNamed (k :: w) 0 inner)
      (hrest : Bracketed named w (k + 1) rest) :
      Bracketed named w k (⟨w, k, e⟩ :: (inner ++ rest))

mutual

theorem memberCalls_bracketed : ∀ (ms : List Member) (w : List Nat) (k : Nat),
    Bracketed true w k (sentAll w k (memberCalls ms))
  | [], _, _ => .close
  | .readable name v :: ms, w, k =>
    valueCall_bracketed v (some name) w k (memberCalls_bracketed ms w (k + 1))
  | .unreadable _ _ :: ms, w, k => memberCalls_bracketed ms w k

theorem valueCall_bracketed : ∀ (v : Value) (name : Option String) (w : List Nat) (k : Nat)
    {rest : List Sent}, Bracketed name.isSome w (k + 1) rest →
    Bracketed name.isSome w k ((valueCall name v).sent w k ++ rest)
  | .scalar _, _, _, _, _, h => .piece rfl (fun he => by cases he) rfl h
  | .type _, _, _, _, _, h => .piece rfl (fun he => by cases he) rfl h
  | .enum _ _, _, _, _, _, h => .piece rfl (fun he => by cases he) rfl h
  | .nested (.mk _ _ members), _, w, k, _, h =>
    .writer rfl rfl (memberCalls_bracketed members (k :: w) 0) h
  | .array elements, _, w, k, _, h =>
    .writer rfl rfl (elementCalls_bracketed elements (k :: w) 0) h

theorem elementCalls_bracketed : ∀ (vs : List Value) (w : List Nat) (k : Nat),
    Bracketed false w k (sentAll w k (elementCalls vs))
  | [], _, _ => .close
  | v :: vs, w, k => valueCall_bracketed v none w k (elementCalls_bracketed vs w (k + 1))

end

/-! ## Paths

What is sent on a writer or inside it has a path that ends in the path of a call on that writer.
Two calls on one writer have nothing in common below them. -/

theorem writer_suffix {w : List Nat} {k : Nat} {s : Sent} (h : (k :: w) <:+ s.path) :
    w <:+ s.writer := by
  rcases List.suffix_cons_iff.mp h with heq | hs
  · exact (List.cons.inj heq).2 ▸ List.suffix_refl w
  · exact (List.suffix_cons k w).trans hs

theorem place_unique {w l : List Nat} {j k : Nat} (hj : (j :: w) <:+ l) (hk : (k :: w) <:+ l) :
    j = k := by
  have heq := (List.suffix_of_suffix_length_le hj hk (Nat.le_refl _)).eq_of_length rfl
  exact (List.cons.inj heq).1

theorem apart {w : List Nat} {j k : Nat} {s x : Sent} (hs : (j :: w) <:+ s.path)
    (hx : (k :: w) <:+ x.path) (h : j ≠ k) : ¬s.path <:+ x.writer := by
  intro hsx
  exact h (place_unique ((hs.trans hsx).trans (List.suffix_cons _ _)) hx)

theorem not_path_suffix {s : Sent} {w : List Nat} (h : w <:+ s.writer) : ¬s.path <:+ w := by
  intro hs
  have hle := (hs.trans h).length_le
  simp only [Sent.path, List.length_cons] at hle
  omega

theorem Bracketed.path {named : Bool} {w : List Nat} {k : Nat} {calls : List Sent}
    (h : Bracketed named w k calls) : ∀ s ∈ calls, ∃ j, k ≤ j ∧ (j :: w) <:+ s.path := by
  induction h with
  | @close named w k => simpa using ⟨k, Nat.le_refl k, List.suffix_refl (k :: w)⟩
  | @piece named w k e rest _ _ _ _ ih =>
    intro s hs
    rcases List.mem_cons.mp hs with rfl | hs
    · exact ⟨k, Nat.le_refl k, List.suffix_refl (k :: w)⟩
    · obtain ⟨j, hj, hsuffix⟩ := ih s hs
      exact ⟨j, by omega, hsuffix⟩
  | @writer named w k e inner rest _ _ _ _ ihinner ihrest =>
    intro s hs
    rcases List.mem_cons.mp hs with rfl | hs
    · exact ⟨k, Nat.le_refl k, List.suffix_refl (k :: w)⟩
    · rcases List.mem_append.mp hs with hs | hs
      · obtain ⟨j, -, hsuffix⟩ := ihinner s hs
        exact ⟨k, Nat.le_refl k, (List.suffix_cons j (k :: w)).trans hsuffix⟩
      · obtain ⟨j, hj, hsuffix⟩ := ihrest s hs
        exact ⟨j, by omega, hsuffix⟩

/-! ## Closing -/

theorem split_append {α : Type} {xs ys before rest : List α} {a : α}
    (h : xs ++ ys = before ++ a :: rest) :
    (∃ middle, xs = before ++ a :: middle ∧ rest = middle ++ ys) ∨
    ∃ middle, before = xs ++ middle ∧ ys = middle ++ a :: rest := by
  rcases List.append_eq_append_iff.mp h with ⟨middle, hbefore, hys⟩ | ⟨middle, hxs, hrest⟩
  · exact .inr ⟨middle, hbefore, hys⟩
  · cases middle with
    | nil => exact .inr ⟨[], by simpa using hxs.symm, hrest.symm⟩
    | cons b middle =>
      rw [List.cons_append] at hrest
      obtain ⟨rfl, rfl⟩ := List.cons.inj hrest
      exact .inl ⟨middle, hxs, rfl⟩

theorem Closes.append {xs ys : List Sent} (hxs : Closes xs) (hys : Closes ys)
    (hxy : ∀ x ∈ xs, ∀ y ∈ ys, ¬x.path <:+ y.writer ∧ ¬y.path <:+ x.writer) :
    Closes (xs ++ ys) := by
  intro before s rest hsplit hopens
  rcases split_append hsplit with ⟨middle, hx, rfl⟩ | ⟨middle, rfl, hy⟩
  · obtain ⟨inside, k, after, rfl, hinside, houtside⟩ := hxs before s middle hx hopens
    refine ⟨inside, k, after ++ ys, by simp, hinside, ?_⟩
    rw [← List.append_assoc]
    refine List.forall_mem_append.mpr ⟨houtside, fun y hy => ?_⟩
    exact (hxy s (by simp [hx]) y hy).1
  · obtain ⟨inside, k, after, rfl, hinside, houtside⟩ := hys middle s rest hy hopens
    refine ⟨inside, k, after, rfl, hinside, ?_⟩
    rw [List.append_assoc]
    refine List.forall_mem_append.mpr ⟨fun x hx => ?_, houtside⟩
    exact (hxy x hx s (by simp [hy])).2

theorem Closes.single {s : Sent} (h : s.event.opens = false) : Closes [s] := by
  intro before t rest hsplit hopens
  have ht : t ∈ [s] := by simp [hsplit]
  rw [List.mem_singleton.mp ht, h] at hopens
  cases hopens

section

variable {named : Bool} {w : List Nat} {k : Nat} {calls : List Sent}

/-- The last call closes the writer, and no other does. -/
theorem Bracketed.last (h : Bracketed named w k calls) :
    ∃ body n, calls = body ++ [⟨w, n, .close⟩] ∧
      ∀ s ∈ body, s.writer = w → s.event ≠ .close := by
  induction h with
  | @close named w k => exact ⟨[], k, rfl, by simp⟩
  | piece hplain hopen hname hrest ih =>
    obtain ⟨body, n, rfl, hbody⟩ := ih
    exact ⟨_ :: body, n, rfl, List.forall_mem_cons.mpr ⟨fun _ => hopen, hbody⟩⟩
  | @writer named w k e inner rest hopens _ hinner _ _ ih =>
    obtain ⟨body, n, rfl, hbody⟩ := ih
    refine ⟨⟨w, k, e⟩ :: (inner ++ body), n, by simp, ?_⟩
    refine List.forall_mem_cons.mpr ⟨fun _ he => ?_, List.forall_mem_append.mpr ⟨?_, hbody⟩⟩
    · obtain rfl : e = .close := he
      cases hopens
    · -- Writers further inside are not this one.
      intro s hs hw
      obtain ⟨j, -, hsuffix⟩ := hinner.path s hs
      have hle := (writer_suffix hsuffix).length_le
      rw [hw, List.length_cons] at hle
      omega

/-- A call that opens a writer, and the calls on it. -/
theorem Closes.opened {e : Event} {inner : List Sent} (hinner : Bracketed named (k :: w) 0 inner)
    (hcloses : Closes inner) : Closes (⟨w, k, e⟩ :: inner) := by
  have hbelow : ∀ s ∈ inner, (k :: w) <:+ s.writer := by
    intro s hs
    obtain ⟨j, -, hsuffix⟩ := hinner.path s hs
    exact writer_suffix hsuffix
  intro before s rest hsplit hopens
  cases before with
  | nil =>
    obtain ⟨rfl, rfl⟩ := List.cons.inj hsplit
    obtain ⟨body, n, rfl, hbody⟩ := hinner.last
    refine ⟨body, n, [], rfl, fun x hx => ⟨hbelow x (by simp [hx]), hbody x hx⟩, by simp⟩
  | cons head before =>
    obtain ⟨rfl, htail⟩ := List.cons.inj hsplit
    obtain ⟨inside, n, after, rfl, hinside, houtside⟩ := hcloses before s rest htail hopens
    refine ⟨inside, n, after, rfl, hinside, List.forall_mem_cons.mpr ⟨?_, houtside⟩⟩
    have hs := hbelow s (by simp [htail])
    exact not_path_suffix ((List.suffix_cons k w).trans hs)

theorem Bracketed.closes (h : Bracketed named w k calls) : Closes calls := by
  induction h with
  | close => exact .single rfl
  | @piece named w k e rest hplain _ _ hrest ih =>
    have hhead : Closes [⟨w, k, e⟩] := .single hplain
    refine hhead.append ih fun x hx y hy => ?_
    obtain ⟨j, hj, hsuffix⟩ := hrest.path y hy
    rw [List.mem_singleton.mp hx]
    exact ⟨apart (List.suffix_refl (k :: w)) hsuffix (by omega),
      apart hsuffix (List.suffix_refl (k :: w)) (by omega)⟩
  | @writer named w k e inner rest _ _ hinner hrest ihinner ihrest =>
    rw [← List.cons_append]
    refine Closes.append (Closes.opened hinner ihinner) ihrest fun x hx y hy => ?_
    obtain ⟨j, hj, hsuffix⟩ := hrest.path y hy
    have hpath : (k :: w) <:+ x.path := by
      rcases List.mem_cons.mp hx with rfl | hx
      · exact List.suffix_refl (k :: w)
      · obtain ⟨i, -, hi⟩ := hinner.path x hx
        exact (List.suffix_cons i (k :: w)).trans hi
    exact ⟨apart hpath hsuffix (by omega), apart hsuffix hpath (by omega)⟩

end

/-! ## Receiving -/

theorem Bracketed.on {named : Bool} {w : List Nat} {k : Nat} {calls : List Sent}
    (h : Bracketed named w k calls) :
    ∀ before s rest, calls = before ++ s :: rest →
      s.On w named ∨ ∃ o ∈ before, o.event.opens = true ∧ s.On o.path o.event.opensNamed := by
  induction h with
  | close =>
    intro before s rest hsplit
    have hs := List.mem_singleton.mp (hsplit ▸ (by simp : s ∈ before ++ s :: rest))
    exact .inl ⟨by rw [hs], fun hne => absurd (by rw [hs]) hne⟩
  | @piece named w k e rest' _ _ hname _ ih =>
    intro before s rest hsplit
    cases before with
    | nil =>
      obtain ⟨rfl, rfl⟩ := List.cons.inj hsplit
      exact .inl ⟨rfl, fun _ => hname⟩
    | cons head before =>
      obtain ⟨rfl, htail⟩ := List.cons.inj hsplit
      exact (ih before s rest htail).imp id fun ⟨o, ho, h⟩ => ⟨o, .tail _ ho, h⟩
  | @writer named w k e inner rest' hopens hname _ _ ihinner ihrest =>
    intro before s rest hsplit
    cases before with
    | nil =>
      obtain ⟨rfl, -⟩ := List.cons.inj hsplit
      exact .inl ⟨rfl, fun _ => hname⟩
    | cons head before =>
      obtain ⟨rfl, htail⟩ := List.cons.inj hsplit
      rcases split_append htail with ⟨middle, hinner, -⟩ | ⟨middle, rfl, hrest⟩
      · rcases ihinner before s middle hinner with hon | ⟨o, ho, h⟩
        · exact .inr ⟨_, .head _, hopens, hon⟩
        · exact .inr ⟨o, .tail _ ho, h⟩
      · exact (ihrest middle s rest hrest).imp id fun ⟨o, ho, h⟩ =>
          ⟨o, .tail _ (List.mem_append_right _ ho), h⟩

/-- The calls on a writer that the sink opens, behind the call that opens it. -/
theorem Bracketed.wellNested {e : Event} {calls : List Sent} (hopens : e.opens = true)
    (h : Bracketed e.opensNamed [0] 0 calls) : WellNested (⟨[], 0, e⟩ :: calls) where
  first := ⟨_, calls, rfl, rfl, hopens⟩
  received := by
    intro before s rest hsplit hbefore
    cases before with
    | nil => exact absurd rfl hbefore
    | cons head before =>
      obtain ⟨rfl, htail⟩ := List.cons.inj hsplit
      rcases h.on before s rest htail with hon | ⟨o, ho, hoo, hon⟩
      · exact ⟨_, .head _, hopens, hon⟩
      · exact ⟨o, .tail _ ho, hoo, hon⟩
  closed := Closes.opened h h.closes

theorem sent_wellNested (a : Annotation) (visible : Bool) (parameter : Option Nat) :
    WellNested (Delivery.sent ⟨a.type.descriptor, visible, a.calls⟩ parameter) := by
  have hcalls := memberCalls_bracketed a.members [0] 0
  cases parameter with
  | none => exact hcalls.wellNested (e := .opened a.type.descriptor visible) rfl
  | some index => exact hcalls.wellNested (e := .parameter index a.type.descriptor visible) rfl

end ClassSynthesis
