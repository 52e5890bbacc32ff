import Mathlib.Data.List.DropRight
import ClassSynthesis.Proofs.Draft.Changes

/-!
# ClassSynthesis.Proofs.Draft.Loading

What runs once the type that a draft describes is loaded. An addition wraps what was pending before
it, so what is pending is nested as deeply as there were additions. `Initializer.Performs` relates
it to the plain list of what was added: every change keeps the two in step (`change_performs`), so
any sequence of changes does (`changed_performs`), and the nesting is gone from there on.

* `Initializer.runAll_calls`: a list of initializers is called in order up to the first failure.
* `Snapshot.changed_load`: what runs after any changes, and whether anything is pending.
-/

namespace ClassSynthesis

namespace Initializer

/-- Initializers to be called in order, those of them that are called, and how that ends. -/
inductive Calls (loaded : TypeDesc) :
    List Initializer → List Initializer → Except Error Unit → Prop where
  | all {items : List Initializer} (h : ∀ i ∈ items, (i.run loaded).result = .ok ()) :
      Calls loaded items items (.ok ())
  | stopped {before after : List Initializer} {last : Initializer} {e : Error}
      (h : ∀ i ∈ before, (i.run loaded).result = .ok ())
      (hlast : (last.run loaded).result = .error e) :
      Calls loaded (before ++ last :: after) (before ++ [last]) (.error e)

section

variable {loaded : TypeDesc} {i : Initializer} {items called : List Initializer}
  {result : Except Error Unit}

theorem Calls.cons (hi : (i.run loaded).result = .ok ()) (h : Calls loaded items called result) :
    Calls loaded (i :: items) (i :: called) result := by
  cases h with
  | all h => exact .all (List.forall_mem_cons.mpr ⟨hi, h⟩)
  | stopped h hlast =>
    rw [← List.cons_append, ← List.cons_append]
    exact .stopped (List.forall_mem_cons.mpr ⟨hi, h⟩) hlast

end

namespace Run

variable {r next : Run}

theorem andThen_of_ok (h : r.result = .ok ()) :
    r.andThen next = ⟨r.started ++ next.started, next.result⟩ := by
  obtain ⟨started, result⟩ := r
  cases h
  rfl

theorem andThen_of_error {e : Error} (h : r.result = .error e) : r.andThen next = r := by
  obtain ⟨started, result⟩ := r
  cases h
  rfl

theorem andThen_assoc (a b c : Run) : (a.andThen b).andThen c = a.andThen (b.andThen c) := by
  obtain ⟨as, e | u⟩ := a
  · rfl
  · obtain ⟨bs, e | u⟩ := b
    · rfl
    · simp only [andThen, List.append_assoc]

end Run

theorem runAll_append (loaded : TypeDesc) (is js : List Initializer) :
    runAll loaded (is ++ js) = (runAll loaded is).andThen (runAll loaded js) := by
  induction is with
  | nil => rfl
  | cons i is ih => rw [List.cons_append, runAll, runAll, ih, Run.andThen_assoc]

theorem runAll_calls (loaded : TypeDesc) (items : List Initializer) :
    ∃ called, Calls loaded items called (runAll loaded items).result ∧
      (runAll loaded items).started = called.flatMap fun i => (i.run loaded).started := by
  induction items with
  | nil => exact ⟨[], .all (by simp), rfl⟩
  | cons i items ih =>
    rw [runAll]
    cases hi : (i.run loaded).result with
    | error e =>
      rw [Run.andThen_of_error hi, hi]
      have hcalls : Calls loaded ([] ++ i :: items) ([] ++ [i]) (.error e) := .stopped (by simp) hi
      exact ⟨[i], hcalls, by simp⟩
    | ok u =>
      obtain ⟨called, hcalls, hstarted⟩ := ih
      rw [Run.andThen_of_ok hi]
      exact ⟨i :: called, hcalls.cons hi, by rw [hstarted, List.flatMap_cons]⟩

theorem anyAlive_iff (items : List Initializer) :
    anyAlive items = true ↔ ∃ i ∈ items, i.isAlive = true := by
  induction items with
  | nil => simp [anyAlive]
  | cons i items ih => simp [anyAlive, ih]

/-- `i` does what the initializers do one after another. -/
structure Performs (i : Initializer) (items : List Initializer) : Prop where
  run : ∀ loaded, i.run loaded = runAll loaded items
  alive : i.isAlive = true ↔ ∃ j ∈ items, j.isAlive = true

theorem nothing_performs : nothing.Performs [] :=
  ⟨fun _ => rfl, by simp [isAlive]⟩

theorem Performs.add {i : Initializer} {items : List Initializer} (h : i.Performs items)
    (added : Initializer) : (sequence [i, added]).Performs (items ++ [added]) where
  run loaded := by
    have hpair : (sequence [i, added]).run loaded =
      (i.run loaded).andThen (runAll loaded [added]) := rfl
    rw [hpair, h.run, runAll_append]
  alive := by
    have hpair : (sequence [i, added]).isAlive = anyAlive [i, added] := rfl
    rw [hpair, anyAlive_iff]
    simp [h.alive, or_and_right, exists_or]

end Initializer

namespace Change

def initializer? : Change → Option Initializer
  | .initializer i => some i
  | _ => none

/-- The initializers that were added since they were last dropped. -/
def initializersLeft (changes : List Change) : List Initializer :=
  (changes.rtakeWhile isAddition).filterMap initializer?

theorem initializersLeft_concat (changes : List Change) (c : Change) :
    initializersLeft (changes ++ [c]) =
      if c.isAddition then initializersLeft changes ++ c.initializer?.toList else [] := by
  rw [initializersLeft, List.rtakeWhile_concat]
  cases c.isAddition with
  | true => cases hi : c.initializer? <;> simp [initializersLeft, hi]
  | false => rfl

end Change

namespace Snapshot

open Initializer (Performs Calls)
open Change (initializersLeft)

variable {s t first : Snapshot} {changes : List Change}

theorem change_performs {c : Change} (h : s.initializer.Performs (initializersLeft changes)) :
    (s.changed [c]).initializer.Performs (initializersLeft (changes ++ [c])) := by
  rw [Change.initializersLeft_concat, changed]
  cases hc : s.change c with
  | ok t =>
    obtain ⟨f, rfl, -, rfl⟩ | ⟨m, rfl, -, rfl⟩ | ⟨i, rfl, rfl⟩ | ⟨rfl, rfl⟩ := change_cases hc
    · simpa [changed, Change.isAddition, Change.initializer?] using h
    · simpa [changed, Change.isAddition, Change.initializer?] using h
    · exact h.add i
    · exact Initializer.nothing_performs
  | error e =>
    -- Only a member can be refused.
    cases c with
    | field f | method m => simpa [changed, Change.isAddition, Change.initializer?] using h
    | initializer i | detach => cases hc

theorem changed_performs (h : first.initializer = .nothing) (changes : List Change) :
    (first.changed changes).initializer.Performs (initializersLeft changes) := by
  induction changes using List.reverseRecOn with
  | nil =>
    rw [changed, h]
    exact Initializer.nothing_performs
  | append_singleton changes c ih =>
    rw [changed_append]
    exact change_performs ih

section

variable {classFile : ClassFileVersion} {superclass : TypeDesc} {interfaces : List TypeDesc}
  {modifiers : Modifiers} {naming : Naming}

theorem changed_load
    (h : (subclass classFile superclass interfaces modifiers naming).1 = .ok first)
    (changes : List Change) :
    let s := first.changed changes
    let pending := initializersLeft changes
    (∃ called, Calls s.describe pending called s.load.result ∧
      s.load.started = called.flatMap fun i => (i.run s.describe).started) ∧
    (s.isPending = true ↔ ∃ i ∈ pending, i.isAlive = true) ∧
    s.detach.detach = s.detach ∧
    s.detach.fields = s.fields ∧ s.detach.methods = s.methods ∧ s.detach.name = s.name ∧
    s.detach.version = s.version := by
  intro s pending
  have hfirst : first.initializer = .nothing := by rw [subclass_ok h]
  have hs : s.initializer.Performs pending := changed_performs hfirst changes
  have hload : s.load = Initializer.runAll s.describe pending := hs.run s.describe
  refine ⟨?_, hs.alive, rfl, rfl, rfl, rfl, rfl⟩
  rw [hload]
  exact Initializer.runAll_calls s.describe pending

/-- The first initializer was dropped; the second is a sequence and fails, so the last is not
called. -/
theorem changed_load_stopped :
    let quiet (label : String) : Initializer := .action ⟨label, false, fun _ => .ok ()⟩
    let failing : Initializer :=
      .sequence [quiet "b", .action ⟨"c", true, fun t => .error (.initializer t.name "c")⟩]
    let first : Snapshot :=
      { version := 0, classFile := .standard, superclass := .object, interfaces := [],
        modifiers := .ofClass, name := "p.Sub", fields := [], methods := [],
        initializer := .nothing }
    let s := first.changed [.initializer (quiet "a"), .detach, .initializer failing,
      .field ⟨"x", .primitive .int, .ofList []⟩, .initializer (quiet "d")]
    (subclass .standard .object [] .ofClass (.fixed "p.Sub")).1 = .ok first ∧
    (∃ called, Calls s.describe [failing, quiet "d"] called (.error (.initializer "p.Sub" "c")) ∧
      s.load.started = called.flatMap fun i => (i.run s.describe).started) ∧
    s.load.started.map LoadAction.label = ["b", "c"] ∧ s.isPending = true := by
  intro quiet failing first s
  have hfirst : (subclass .standard .object [] .ofClass (.fixed "p.Sub")).1 = .ok first := by rfl
  obtain ⟨hcalls, halive, -⟩ := changed_load hfirst [.initializer (quiet "a"), .detach,
    .initializer failing, .field ⟨"x", .primitive .int, .ofList []⟩, .initializer (quiet "d")]
  exact ⟨hfirst, hcalls, rfl, halive.mpr ⟨failing, .head _, rfl⟩⟩

end

end Snapshot
end ClassSynthesis
