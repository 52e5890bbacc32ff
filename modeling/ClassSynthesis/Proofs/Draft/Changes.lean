import Mathlib.Data.List.Forall2
import ClassSynthesis.Draft.Snapshot

/-!
# ClassSynthesis.Proofs.Draft.Changes

A draft under any sequence of changes. A change that would add a member a second time is refused,
and the draft stays as it is. `change_cases` says all that a change can do when it is made, and
`Grown` how a draft relates to an earlier one and to the changes made in between.

* `changed_members`: members, version and descriptions after any changes, and which changes are
  refused then.
-/

namespace ClassSynthesis

inductive Change where
  | field (f : FieldToken)
  | method (m : MethodToken)
  | initializer (i : Initializer)
  | detach

namespace Change

def field? : Change → Option FieldToken
  | .field f => some f
  | _ => none

def method? : Change → Option MethodToken
  | .method m => some m
  | _ => none

/-- Whether the change makes a new version. -/
def isAddition : Change → Bool
  | .detach => false
  | _ => true

end Change

/-- Two fields that a type cannot have both. -/
def FieldToken.Clash (f g : FieldToken) : Prop := f.name = g.name ∧ f.descriptor = g.descriptor

/-- Two methods that a type cannot have both. -/
def MethodToken.Clash (m n : MethodToken) : Prop := m.signature = n.signature

theorem FieldToken.clashesWith_iff (f g : FieldToken) : f.clashesWith g = true ↔ f.Clash g := by
  simp [clashesWith, Clash]

theorem MethodToken.Clash.of_parts {m n : MethodToken} (hn : m.name = n.name)
    (hd : m.descriptor = n.descriptor) : m.Clash n := by
  simp only [Clash, signature, hn, hd]

/-- A description that says of a field of `owner` what its token says. -/
structure FieldToken.Described (owner : TypeDesc) (f : FieldToken) (d : FieldDesc) : Prop where
  owner : d.owner = owner
  name : d.name = f.name
  type : d.type = f.type
  descriptor : d.descriptor = f.descriptor
  modifiers : d.modifiers = f.modifiers

/-- A description that says of a method of `owner` what its token says. -/
structure MethodToken.Described (owner : TypeDesc) (m : MethodToken) (d : MethodDesc) : Prop where
  owner : d.owner = owner
  name : d.name = m.name
  returns : d.returns = m.returns
  parameters : d.parameters = m.parameters
  descriptor : d.descriptor = m.descriptor
  modifiers : d.modifiers = m.modifiers
  exceptions : d.exceptions = m.exceptions

namespace Snapshot

variable {s t u first : Snapshot}

def change (s : Snapshot) : Change → Except Error Snapshot
  | .field f => s.withField f
  | .method m => s.withMethod m
  | .initializer i => .ok (s.withInitializer i)
  | .detach => .ok s.detach

/-- The draft after the changes, a refused change leaving it as it is. -/
def changed (s : Snapshot) : List Change → Snapshot
  | [] => s
  | c :: cs =>
    match s.change c with
    | .ok t => t.changed cs
    | .error _ => s.changed cs

/-- Those of the changes that are made, in order. -/
def made (s : Snapshot) : List Change → List Change
  | [] => []
  | c :: cs =>
    match s.change c with
    | .ok t => c :: t.made cs
    | .error _ => s.made cs

/-! ## One change -/

theorem guarded_error_iff {b : Bool} {P : Prop} {e e' : Error} (hb : b = true ↔ P) :
    (if b then .error e' else .ok t : Except Error Snapshot) = .error e ↔ P ∧ e = e' := by
  rw [← hb]
  cases b <;> simp [eq_comm]

theorem guarded_ok_iff {b : Bool} {P : Prop} {e : Error} (hb : b = true ↔ P) :
    (if b then .error e else .ok t : Except Error Snapshot) = .ok u ↔ ¬ P ∧ u = t := by
  rw [← hb]
  cases b <;> simp [eq_comm]

theorem any_clashesWith_iff (s : Snapshot) (f : FieldToken) :
    (s.fields.any fun g => g.clashesWith f) = true ↔ ∃ g ∈ s.fields, g.Clash f := by
  simp only [List.any_eq_true, FieldToken.clashesWith_iff]

theorem any_signature_iff (s : Snapshot) (m : MethodToken) :
    (s.methods.any fun n => n.signature == m.signature) = true ↔ ∃ n ∈ s.methods, n.Clash m := by
  simp only [List.any_eq_true, beq_iff_eq, MethodToken.Clash]

theorem withField_error_iff (s : Snapshot) (f : FieldToken) (e : Error) :
    s.withField f = .error e ↔
      (∃ g ∈ s.fields, g.Clash f) ∧ e = .duplicateMember .field f.signature s.name :=
  guarded_error_iff (s.any_clashesWith_iff f)

theorem withMethod_error_iff (s : Snapshot) (m : MethodToken) (e : Error) :
    s.withMethod m = .error e ↔
      (∃ n ∈ s.methods, n.Clash m) ∧ e = .duplicateMember .method m.signature s.name :=
  guarded_error_iff (s.any_signature_iff m)

/-- All that a change can do when it is made. -/
theorem change_cases {c : Change} (h : s.change c = .ok t) :
    (∃ f, c = .field f ∧ (∀ g ∈ s.fields, ¬ g.Clash f) ∧
      t = { s with version := s.version + 1, fields := s.fields ++ [f] }) ∨
    (∃ m, c = .method m ∧ (∀ n ∈ s.methods, ¬ n.Clash m) ∧
      t = { s with version := s.version + 1, methods := s.methods ++ [m] }) ∨
    (∃ i, c = .initializer i ∧ t = s.withInitializer i) ∨
    (c = .detach ∧ t = s.detach) := by
  cases c with
  | field f =>
    obtain ⟨hnone, rfl⟩ := (guarded_ok_iff (s.any_clashesWith_iff f)).mp h
    exact .inl ⟨f, rfl, fun g hg hc => hnone ⟨g, hg, hc⟩, rfl⟩
  | method m =>
    obtain ⟨hnone, rfl⟩ := (guarded_ok_iff (s.any_signature_iff m)).mp h
    exact .inr (.inl ⟨m, rfl, fun n hn hc => hnone ⟨n, hn, hc⟩, rfl⟩)
  | initializer i =>
    cases h
    exact .inr (.inr (.inl ⟨i, rfl, rfl⟩))
  | detach =>
    cases h
    exact .inr (.inr (.inr ⟨rfl, rfl⟩))

/-! ## Growth -/

/-- What a draft has of an earlier one, and what it owes to the changes made since. -/
structure Grown (first : Snapshot) (made : List Change) (s : Snapshot) : Prop where
  fields : s.fields = first.fields ++ made.filterMap Change.field?
  methods : s.methods = first.methods ++ made.filterMap Change.method?
  version : s.version = first.version + made.countP Change.isAddition
  name : s.name = first.name
  superclass : s.superclass = first.superclass
  interfaces : s.interfaces = first.interfaces
  modifiers : s.modifiers = first.modifiers
  classFile : s.classFile = first.classFile

namespace Grown

variable {cs ds : List Change}

theorem refl (s : Snapshot) : s.Grown [] s := by
  constructor <;> simp

theorem trans (h : s.Grown cs t) (h' : t.Grown ds u) : s.Grown (cs ++ ds) u where
  fields := by rw [h'.fields, h.fields, List.filterMap_append, List.append_assoc]
  methods := by rw [h'.methods, h.methods, List.filterMap_append, List.append_assoc]
  version := by rw [h'.version, h.version, List.countP_append, Nat.add_assoc]
  name := h'.name.trans h.name
  superclass := h'.superclass.trans h.superclass
  interfaces := h'.interfaces.trans h.interfaces
  modifiers := h'.modifiers.trans h.modifiers
  classFile := h'.classFile.trans h.classFile

theorem change {c : Change} (h : s.change c = .ok t) : s.Grown [c] t := by
  obtain ⟨f, rfl, -, rfl⟩ | ⟨m, rfl, -, rfl⟩ | ⟨i, rfl, rfl⟩ | ⟨rfl, rfl⟩ := change_cases h
  · constructor <;> simp [Change.field?, Change.method?, Change.isAddition]
  · constructor <;> simp [Change.field?, Change.method?, Change.isAddition]
  · constructor <;>
      simp [withInitializer, Change.field?, Change.method?, Change.isAddition]
  · constructor <;> simp [Snapshot.detach, Change.field?, Change.method?, Change.isAddition]

end Grown

theorem changed_grown (s : Snapshot) (changes : List Change) :
    s.Grown (s.made changes) (s.changed changes) := by
  induction changes generalizing s with
  | nil => exact .refl s
  | cons c cs ih =>
    unfold changed made
    cases hc : s.change c with
    | ok t => exact (Grown.change hc).trans (ih t)
    | error e => exact ih s

theorem changed_append (s : Snapshot) (changes later : List Change) :
    s.changed (changes ++ later) = (s.changed changes).changed later := by
  induction changes generalizing s with
  | nil => rfl
  | cons c cs ih =>
    rw [List.cons_append, changed, changed]
    cases s.change c with
    | ok t => exact ih t
    | error e => exact ih s

/-- What changes preserve one by one when they are made, all changes preserve. -/
theorem changed_induction {P : Snapshot → Prop} (step : ∀ s c t, P s → s.change c = .ok t → P t)
    (hs : P s) (changes : List Change) : P (s.changed changes) := by
  induction changes generalizing s with
  | nil => exact hs
  | cons c cs ih =>
    unfold changed
    cases hc : s.change c with
    | ok t => exact ih (step s c t hs hc)
    | error e => exact ih hs

/-! ## Members -/

/-- No member is there twice. -/
structure Distinct (s : Snapshot) : Prop where
  fields : s.fields.Pairwise fun f g => ¬ f.Clash g
  methods : s.methods.Pairwise fun m n => ¬ m.Clash n

theorem pairwise_concat {α : Type} {R : α → α → Prop} {xs : List α} {x : α} (h : xs.Pairwise R)
    (hx : ∀ y ∈ xs, R y x) : (xs ++ [x]).Pairwise R := by
  rw [List.pairwise_append]
  exact ⟨h, List.pairwise_singleton R x, fun y hy z hz => List.mem_singleton.mp hz ▸ hx y hy⟩

theorem Distinct.change {c : Change} (h : s.Distinct) (hc : s.change c = .ok t) : t.Distinct := by
  obtain ⟨f, -, hf, rfl⟩ | ⟨m, -, hm, rfl⟩ | ⟨i, -, rfl⟩ | ⟨-, rfl⟩ := change_cases hc
  · exact ⟨pairwise_concat h.fields hf, h.methods⟩
  · exact ⟨h.fields, pairwise_concat h.methods hm⟩
  · exact ⟨h.fields, h.methods⟩
  · exact ⟨h.fields, h.methods⟩

theorem fieldDescriptions_described (s : Snapshot) :
    List.Forall₂ (FieldToken.Described s.describe) s.fields s.fieldDescriptions := by
  rw [fieldDescriptions, List.forall₂_map_right_iff, List.forall₂_same]
  exact fun f _ => ⟨rfl, rfl, rfl, rfl, rfl⟩

theorem methodDescriptions_described (s : Snapshot) :
    List.Forall₂ (MethodToken.Described s.describe) s.methods s.methodDescriptions := by
  rw [methodDescriptions, List.forall₂_map_right_iff, List.forall₂_same]
  exact fun m _ => ⟨rfl, rfl, rfl, rfl, rfl, rfl, rfl⟩

/-! ## From the first snapshot on -/

section

variable {classFile : ClassFileVersion} {superclass : TypeDesc} {interfaces : List TypeDesc}
  {modifiers : Modifiers} {naming : Naming}

theorem subclass_eq_ok_iff :
    (subclass classFile superclass interfaces modifiers naming).1 = .ok first ↔
      TypeName.fault? (naming.next superclass).1 superclass interfaces = none ∧
      first = { version := 0, classFile, superclass, interfaces, modifiers,
                name := (naming.next superclass).1, fields := [], methods := [],
                initializer := .nothing } := by
  simp only [subclass, named]
  cases TypeName.fault? (naming.next superclass).1 superclass interfaces with
  | some fault => simp
  | none => simp [eq_comm]

theorem subclass_ok (h : (subclass classFile superclass interfaces modifiers naming).1 = .ok first) :
    first = { version := 0, classFile, superclass, interfaces, modifiers,
              name := (naming.next superclass).1, fields := [], methods := [],
              initializer := .nothing } :=
  (subclass_eq_ok_iff.mp h).2

/-- The name was checked before the draft was started. -/
theorem subclass_name (h : (subclass classFile superclass interfaces modifiers naming).1 = .ok first) :
    TypeName.fault? first.name superclass interfaces = none := by
  obtain ⟨hname, rfl⟩ := subclass_eq_ok_iff.mp h
  exact hname

theorem changed_members
    (h : (subclass classFile superclass interfaces modifiers naming).1 = .ok first)
    (changes : List Change) :
    let s := first.changed changes
    let made := first.made changes
    s.fields = made.filterMap Change.field? ∧
    s.methods = made.filterMap Change.method? ∧
    s.fields.Pairwise (fun f g => ¬ (f.name = g.name ∧ f.descriptor = g.descriptor)) ∧
    s.methods.Pairwise (fun m n => ¬ (m.name = n.name ∧ m.descriptor = n.descriptor)) ∧
    s.version = made.countP Change.isAddition ∧
    (s.name = first.name ∧ s.supertype = first.supertype ∧ s.interfaces = first.interfaces ∧
      s.modifiers = first.modifiers ∧ s.classFile = first.classFile) ∧
    (∀ f e, s.withField f = .error e ↔
      (∃ g ∈ s.fields, g.Clash f) ∧ e = .duplicateMember .field f.signature s.name) ∧
    (∀ m e, s.withMethod m = .error e ↔
      (∃ n ∈ s.methods, n.Clash m) ∧ e = .duplicateMember .method m.signature s.name) ∧
    List.Forall₂ (FieldToken.Described s.describe) s.fields s.fieldDescriptions ∧
    List.Forall₂ (MethodToken.Described s.describe) s.methods s.methodDescriptions := by
  intro s made
  have hfirst := subclass_ok h
  have hfields : first.fields = [] := by rw [hfirst]
  have hmethods : first.methods = [] := by rw [hfirst]
  have hversion : first.version = 0 := by rw [hfirst]
  have hgrown : first.Grown made s := first.changed_grown changes
  have hdistinct : s.Distinct :=
    changed_induction (fun _ _ _ => Distinct.change) (by constructor <;> simp [hfields, hmethods])
      changes
  have hsupertype : s.supertype = first.supertype := by
    unfold supertype isInterface
    rw [hgrown.modifiers, hgrown.superclass]
  refine ⟨?_, ?_, hdistinct.fields, ?_, ?_, ?_, s.withField_error_iff, s.withMethod_error_iff,
    s.fieldDescriptions_described, s.methodDescriptions_described⟩
  · simpa [hfields] using hgrown.fields
  · simpa [hmethods] using hgrown.methods
  · exact hdistinct.methods.imp fun hne heq => hne (.of_parts heq.1 heq.2)
  · simpa [hversion] using hgrown.version
  · exact ⟨hgrown.name, hsupertype, hgrown.interfaces, hgrown.modifiers, hgrown.classFile⟩

/-- The second field clashes with the first, the third has another type; dropping what is to run
makes no version. -/
theorem changed_members_refused :
    let x : FieldToken := ⟨"x", .primitive .int, .ofList []⟩
    let wide : FieldToken := ⟨"x", .primitive .long, .ofList []⟩
    let first : Snapshot :=
      { version := 0, classFile := .standard, superclass := .object, interfaces := [],
        modifiers := .ofClass, name := "p.Sub", fields := [], methods := [],
        initializer := .nothing }
    let changes : List Change := [.field x, .field x, .field wide, .detach]
    (subclass .standard .object [] .ofClass (.fixed "p.Sub")).1 = .ok first ∧
    (first.changed changes).fields = [x, wide] ∧ (first.changed changes).version = 2 ∧
    (first.changed changes).withField x = .error (.duplicateMember .field "x:I" "p.Sub") := by
  intro x wide first changes
  have hfirst : (subclass .standard .object [] .ofClass (.fixed "p.Sub")).1 = .ok first := by rfl
  have hmade : first.made changes = [.field x, .field wide, .detach] := by rfl
  obtain ⟨hfields, -, -, -, hversion, hkept, herror, -⟩ := changed_members hfirst changes
  rw [hmade] at hfields hversion
  refine ⟨hfirst, hfields, hversion, (herror x _).mpr ⟨⟨x, ?_, rfl, rfl⟩, ?_⟩⟩
  · rw [hfields]
    exact .head _
  · rw [hkept.1]
    rfl

end

end Snapshot
end ClassSynthesis
