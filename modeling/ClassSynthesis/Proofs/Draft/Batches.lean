import Mathlib.Data.List.Perm.Basic
import ClassSynthesis.Proofs.Draft.Changes

/-!
# ClassSynthesis.Proofs.Draft.Batches

Members added in a batch, one after another, up to the first that is refused. A draft blocks an
addition when it has a member that clashes with it; `blocks_extended` says that an addition that is
made blocks what clashes with it and nothing else. So a batch goes through when nothing in it
clashes with the draft or with something else in it (`addAll_eq_ok_iff`), and neither half of that
depends on the order: clashing is symmetric, and fields and methods never clash.

* `addAll_order`: when a batch goes through, and what its order can change.
-/

namespace ClassSynthesis

inductive Addition where
  | field (f : FieldToken)
  | method (m : MethodToken)

namespace Addition

variable {a b : Addition} {as bs : List Addition}

def field? : Addition → Option FieldToken
  | .field f => some f
  | .method _ => none

def method? : Addition → Option MethodToken
  | .field _ => none
  | .method m => some m

/-- Two members that a type cannot have both. -/
def Clash : Addition → Addition → Prop
  | .field f, .field g => f.Clash g
  | .method m, .method n => m.Clash n
  | _, _ => False

theorem Clash.symm (h : a.Clash b) : b.Clash a := by
  cases a with
  | field f =>
    cases b with
    | field g => exact ⟨h.1.symm, h.2.symm⟩
    | method n => exact h
  | method m =>
    cases b with
    | field g => exact h
    | method n => exact Eq.symm h

/-- A batch can be sorted into its fields and its methods. -/
theorem perm_fields_methods (as : List Addition) :
    as.Perm ((as.filterMap field?).map .field ++ (as.filterMap method?).map .method) := by
  induction as with
  | nil => exact .nil
  | cons a as ih =>
    cases a with
    | field f => exact ih.cons _
    | method m => exact (ih.cons _).trans List.perm_middle.symm

theorem perm_of_filterMap_eq (hfields : as.filterMap field? = bs.filterMap field?)
    (hmethods : as.filterMap method? = bs.filterMap method?) : as.Perm bs := by
  have has := perm_fields_methods as
  rw [hfields, hmethods] at has
  exact has.trans (perm_fields_methods bs).symm

/-- The additions can all be made to one type. -/
def Compatible (as : List Addition) : Prop := as.Pairwise fun a b => ¬ a.Clash b

theorem compatible_cons : Compatible (a :: as) ↔ (∀ b ∈ as, ¬ a.Clash b) ∧ Compatible as :=
  List.pairwise_cons

theorem Compatible.perm (h : as.Perm bs) : Compatible as ↔ Compatible bs :=
  h.pairwise_iff fun hab hba => hab hba.symm

end Addition

namespace Snapshot

open Addition (Compatible compatible_cons)

variable {s t u : Snapshot} {a b : Addition} {as bs : List Addition}

def add (s : Snapshot) : Addition → Except Error Snapshot
  | .field f => s.withField f
  | .method m => s.withMethod m

/-- Adds the members one after another and stops at the first that is refused. -/
def addAll (s : Snapshot) : List Addition → Except Error Snapshot
  | [] => .ok s
  | a :: as =>
    match s.add a with
    | .ok t => t.addAll as
    | .error e => .error e

/-- The draft has a member that clashes with the addition. -/
def Blocks (s : Snapshot) : Addition → Prop
  | .field f => ∃ g ∈ s.fields, g.Clash f
  | .method m => ∃ n ∈ s.methods, n.Clash m

/-- The draft with the members after its own, whether they clash or not. -/
def extended (s : Snapshot) (as : List Addition) : Snapshot :=
  { s with
    version := s.version + as.length
    fields := s.fields ++ as.filterMap Addition.field?
    methods := s.methods ++ as.filterMap Addition.method? }

@[simp] theorem extended_nil (s : Snapshot) : s.extended [] = s := by
  simp [extended]

theorem extended_append (s : Snapshot) (as bs : List Addition) :
    s.extended (as ++ bs) = (s.extended as).extended bs := by
  simp [extended, Nat.add_assoc]

theorem blocks_extended : (s.extended [a]).Blocks b ↔ s.Blocks b ∨ a.Clash b := by
  cases a with
  | field f =>
    cases b with
    | field g => simp [Blocks, extended, Addition.field?, Addition.Clash, or_and_right, exists_or]
    | method n => simp [Blocks, extended, Addition.method?, Addition.Clash]
  | method m =>
    cases b with
    | field g => simp [Blocks, extended, Addition.field?, Addition.Clash]
    | method n =>
      simp [Blocks, extended, Addition.method?, Addition.Clash, or_and_right, exists_or]

theorem add_eq_ok_iff : s.add a = .ok t ↔ ¬ s.Blocks a ∧ t = s.extended [a] := by
  cases a with
  | field f =>
    have hext : s.extended [.field f] =
        { s with version := s.version + 1, fields := s.fields ++ [f] } := by
      simp [extended, Addition.field?, Addition.method?]
    rw [hext]
    exact guarded_ok_iff (s.any_clashesWith_iff f)
  | method m =>
    have hext : s.extended [.method m] =
        { s with version := s.version + 1, methods := s.methods ++ [m] } := by
      simp [extended, Addition.field?, Addition.method?]
    rw [hext]
    exact guarded_ok_iff (s.any_signature_iff m)

theorem addAll_cons_eq_ok_iff : s.addAll (a :: as) = .ok t ↔
    ¬ s.Blocks a ∧ (s.extended [a]).addAll as = .ok t := by
  rw [addAll]
  constructor
  · intro h
    cases ha : s.add a with
    | error e =>
      rw [ha] at h
      cases h
    | ok u =>
      rw [ha] at h
      obtain ⟨hfree, rfl⟩ := add_eq_ok_iff.mp ha
      exact ⟨hfree, h⟩
  · rintro ⟨hfree, h⟩
    rw [add_eq_ok_iff.mpr ⟨hfree, rfl⟩]
    exact h

theorem addAll_eq_ok_iff : s.addAll as = .ok t ↔
    (∀ a ∈ as, ¬ s.Blocks a) ∧ Compatible as ∧ t = s.extended as := by
  induction as generalizing s with
  | nil => simp [addAll, Compatible, eq_comm]
  | cons a as ih =>
    have hext : s.extended (a :: as) = (s.extended [a]).extended as := s.extended_append [a] as
    -- The draft that has `a` blocks what clashes with `a`: the rest of the batch must not.
    have hrest : (∀ b ∈ as, ¬ (s.extended [a]).Blocks b) ↔
        (∀ b ∈ as, ¬ s.Blocks b) ∧ ∀ b ∈ as, ¬ a.Clash b := by
      simp only [blocks_extended, not_or, forall_and]
    rw [addAll_cons_eq_ok_iff, ih, hext, hrest, compatible_cons, List.forall_mem_cons]
    constructor
    · rintro ⟨ha, ⟨has, hclash⟩, hcompatible, ht⟩
      exact ⟨⟨ha, has⟩, ⟨hclash, hcompatible⟩, ht⟩
    · rintro ⟨⟨ha, has⟩, ⟨hclash, hcompatible⟩, ht⟩
      exact ⟨ha, ⟨has, hclash⟩, hcompatible, ht⟩

theorem exists_addAll_iff :
    (∃ t, s.addAll as = .ok t) ↔ (∀ a ∈ as, ¬ s.Blocks a) ∧ Compatible as := by
  simp [addAll_eq_ok_iff]

theorem addAll_order (s : Snapshot) (as : List Addition) :
    ((∃ t, s.addAll as = .ok t) ↔
      (∀ a ∈ as, ¬ s.Blocks a) ∧ as.Pairwise fun a b => ¬ a.Clash b) ∧
    (∀ t, s.addAll as = .ok t → t = s.extended as) ∧
    (∀ bs, as.Perm bs →
      ((∃ t, s.addAll as = .ok t) ↔ ∃ u, s.addAll bs = .ok u) ∧
      ∀ t u, s.addAll as = .ok t → s.addAll bs = .ok u →
        t.fields.Perm u.fields ∧ t.methods.Perm u.methods ∧ t.version = u.version) ∧
    ∀ bs, as.filterMap Addition.field? = bs.filterMap Addition.field? →
      as.filterMap Addition.method? = bs.filterMap Addition.method? →
      ∀ t, s.addAll as = .ok t ↔ s.addAll bs = .ok t := by
  have hperm : ∀ bs, as.Perm bs → ((∀ a ∈ as, ¬ s.Blocks a) ∧ Compatible as ↔
      (∀ b ∈ bs, ¬ s.Blocks b) ∧ Compatible bs) := by
    intro bs h
    exact and_congr (forall_congr' fun a => imp_congr_left h.mem_iff) (Compatible.perm h)
  refine ⟨exists_addAll_iff, fun t h => (addAll_eq_ok_iff.mp h).2.2, ?_, ?_⟩
  · intro bs h
    refine ⟨?_, ?_⟩
    · rw [exists_addAll_iff, exists_addAll_iff, hperm bs h]
    · intro t u ht hu
      obtain ⟨-, -, rfl⟩ := addAll_eq_ok_iff.mp ht
      obtain ⟨-, -, rfl⟩ := addAll_eq_ok_iff.mp hu
      refine ⟨(h.filterMap _).append_left _, (h.filterMap _).append_left _, ?_⟩
      exact congrArg (s.version + ·) h.length_eq
  · intro bs hfields hmethods t
    have h := Addition.perm_of_filterMap_eq hfields hmethods
    have hext : s.extended as = s.extended bs := by
      simp only [extended, hfields, hmethods, h.length_eq]
    rw [addAll_eq_ok_iff, addAll_eq_ok_iff, ← and_assoc, ← and_assoc, hperm bs h, hext]

/-- The batch in another order, and the batch with its methods last. -/
theorem addAll_order_shuffled :
    let x : FieldToken := ⟨"x", .primitive .int, .ofList []⟩
    let wide : FieldToken := ⟨"x", .primitive .long, .ofList []⟩
    let y : FieldToken := ⟨"y", .primitive .int, .ofList []⟩
    let run : MethodToken := ⟨"run", .void, [], [], .ofList [.pub]⟩
    let s : Snapshot :=
      { version := 1, classFile := .standard, superclass := .object, interfaces := [],
        modifiers := .ofClass, name := "p.Sub", fields := [x], methods := [],
        initializer := .nothing }
    let as : List Addition := [.field wide, .method run, .field y]
    let bs : List Addition := [.field y, .field wide, .method run]
    let cs : List Addition := [.field wide, .field y, .method run]
    as.Perm bs ∧ as.filterMap Addition.field? = cs.filterMap Addition.field? ∧
    as.filterMap Addition.method? = cs.filterMap Addition.method? ∧
    ((∀ a ∈ as, ¬ s.Blocks a) ∧ as.Pairwise fun a b => ¬ a.Clash b) ∧
    (∃ u, s.addAll bs = .ok u ∧ [x, wide, y].Perm u.fields ∧ [run].Perm u.methods ∧
      4 = u.version) ∧
    s.addAll cs = .ok (s.extended as) := by
  intro x wide y run s as bs cs
  have hbs : as.Perm bs :=
    List.perm_append_singleton (Addition.field y) [.field wide, .method run]
  have has : s.addAll as = .ok (s.extended as) := by rfl
  obtain ⟨hfree, -, hperm, hsplit⟩ := addAll_order s as
  obtain ⟨hsame, hequal⟩ := hperm bs hbs
  obtain ⟨u, hu⟩ := hsame.mp ⟨_, has⟩
  obtain ⟨hfields, hmethods, hversion⟩ := hequal _ u has hu
  exact ⟨hbs, rfl, rfl, hfree.mp ⟨_, has⟩, ⟨u, hu, hfields, hmethods, hversion⟩,
    (hsplit cs rfl rfl _).mp has⟩

end Snapshot
end ClassSynthesis
