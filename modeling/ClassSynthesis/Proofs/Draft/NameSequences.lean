import Mathlib.Algebra.Group.Nat.Defs
import Mathlib.Data.List.DropRight
import Mathlib.Data.List.Nodup
import ClassSynthesis.Settings

/-!
# ClassSynthesis.Proofs.Draft.NameSequences

Names drawn from a sequence. Whatever the supertype and the suffix are, a name ends in a dollar sign
and the decimal digits of its number, and digits are no dollar signs: `serial` reads the number
back. So names are apart because their numbers are.

A sequence is shared by all copies of the settings that refer to it. A list of `Use`s is an order
in which the holders of such copies, and others, come to the session; to draw a number is a single
step, and nothing else of a request touches the session. Seen from one sequence, any such list is a
list of draws (`answers_asked`), and what happens to the other sequences makes no difference.

* `names_never_repeat`: fewer than `2 ^ 64` names of one sequence are pairwise distinct, drawn
  directly or through copies of settings, the refused ones among them.
-/

namespace ClassSynthesis

namespace NameSequence

variable {q : NameSequence}

/-- The names for the given supertypes, drawn one after another. -/
def names (q : NameSequence) : List TypeDesc → List String
  | [] => []
  | t :: ts => (q.next t).1 :: (q.next t).2.names ts

/-- The number that a name ends in. -/
def serial (name : String) : Nat :=
  Nat.ofDigitChars 10 (name.toList.rtakeWhile (· ≠ '$')) 0

theorem dollar_not_mem_toString (n : Nat) : '$' ∉ (toString n).toList := by
  rw [Nat.toString_eq_ofList_toDigits, String.toList_ofList]
  intro h
  have hdigit := Nat.isDigit_of_mem_toDigits (by decide) (by decide) h
  exact absurd hdigit (by decide)

theorem rtakeWhile_append_cons {α : Type} [DecidableEq α] {x : α} {xs ys : List α} (h : x ∉ ys) :
    (xs ++ x :: ys).rtakeWhile (· ≠ x) = ys := by
  have hys : ∀ y ∈ ys.reverse, decide (y ≠ x) = true := by
    intro y hy
    exact decide_eq_true fun he => h (he ▸ List.mem_reverse.mp hy)
  rw [List.rtakeWhile, List.reverse_append, List.reverse_cons, List.append_assoc,
    List.takeWhile_append_of_pos hys]
  simp

/-- The stem may end in a dollar sign and digits itself. -/
theorem serial_append (stem : String) (n : Nat) : serial (stem ++ "$" ++ toString n) = n := by
  have hchars : (stem ++ "$" ++ toString n).toList =
      stem.toList ++ '$' :: (toString n).toList := by simp
  rw [serial, hchars, rtakeWhile_append_cons (dollar_not_mem_toString n),
    Nat.toString_eq_ofList_toDigits, String.toList_ofList]
  exact Nat.ofDigitChars_ten_toDigits

theorem toNat_issued_next (q : NameSequence) (t : TypeDesc) :
    (q.next t).2.issued.toNat = (q.issued.toNat + 1) % 2 ^ 64 := by
  change (q.issued + 1).toNat = _
  rw [UInt64.toNat_add]
  rfl

theorem serial_next (q : NameSequence) (t : TypeDesc) :
    serial (q.next t).1 = (q.next t).2.issued.toNat :=
  serial_append _ _

/-- Names are numbered one by one, and round the corner after `2 ^ 64` of them. -/
theorem map_serial_names (q : NameSequence) (ts : List TypeDesc) : (q.names ts).map serial =
    (List.range ts.length).map fun i => (q.issued.toNat + (i + 1)) % 2 ^ 64 := by
  induction ts generalizing q with
  | nil => rfl
  | cons t ts ih =>
    rw [names, List.map_cons, serial_next, ih, toNat_issued_next, List.length_cons,
      List.range_succ_eq_map, List.map_cons, List.map_map]
    congr 1
    refine List.map_congr_left fun i _ => ?_
    rw [Nat.mod_add_mod, Function.comp_apply]
    congr 1
    omega

theorem names_nodup {ts : List TypeDesc} (h : ts.length < 2 ^ 64) : (q.names ts).Nodup := by
  refine List.Nodup.of_map serial ?_
  rw [map_serial_names]
  refine List.Nodup.map_on ?_ List.nodup_range
  intro i hi j hj he
  rw [List.mem_range] at hi hj
  omega

end NameSequence

namespace Session

/-- What the holders of settings do to a session. -/
inductive Use where
  | request (settings : Settings) (superclass : TypeDesc) (interfaces : List TypeDesc)
  | newSequence (suffix : String)

/-- The supertype of a request for a name of the sequence `k`. -/
def Use.superclass? (k : Nat) : Use → Option TypeDesc
  | .request settings superclass _ => if settings.naming = k then some superclass else none
  | .newSequence _ => none

/-- The name that a draft was to have, whether it was let through or refused. -/
def requestedName? : Except Error Snapshot → Option String
  | .ok first => some first.name
  | .error (.illegalName name _) => some name
  | .error _ => none

variable {s : Session} {k : Nat} {settings : Settings} {superclass : TypeDesc}
  {interfaces : List TypeDesc} {suffix : String}

/-- The answers to the requests for names of the sequence `k`, in the order of the uses. -/
def answers (s : Session) (k : Nat) : List Use → List (Except Error Snapshot)
  | [] => []
  | .newSequence suffix :: uses => (s.addSequence suffix).2.answers k uses
  | .request settings superclass interfaces :: uses =>
    let drawn := s.subclass settings superclass interfaces
    if settings.naming = k then drawn.1 :: drawn.2.answers k uses else drawn.2.answers k uses

theorem requestedName?_named (name : String) (classFile : ClassFileVersion) (superclass : TypeDesc)
    (interfaces : List TypeDesc) (modifiers : Modifiers) :
    requestedName? (Snapshot.named name classFile superclass interfaces modifiers) = some name := by
  rw [Snapshot.named]
  cases TypeName.fault? name superclass interfaces with
  | some fault => rfl
  | none => rfl

theorem requestedName?_subclass : requestedName? (s.subclass settings superclass interfaces).1 =
    some ((s.sequence settings.naming).next superclass).1 :=
  requestedName?_named _ _ _ _ _

theorem size_subclass :
    (s.subclass settings superclass interfaces).2.sequences.size = s.sequences.size :=
  Array.size_setIfInBounds

/-- A request draws from the sequence of its settings and leaves the others alone. -/
theorem sequence_subclass (hk : k < s.sequences.size) :
    (s.subclass settings superclass interfaces).2.sequence k =
      if settings.naming = k then ((s.sequence k).next superclass).2 else s.sequence k := by
  have hset : (s.subclass settings superclass interfaces).2 = ⟨s.sequences.setIfInBounds
      settings.naming ((s.sequence settings.naming).next superclass).2⟩ := rfl
  rw [hset, sequence, Array.getElem?_setIfInBounds]
  by_cases hn : settings.naming = k
  · rw [if_pos hn, if_pos hn, hn, if_pos hk]
    rfl
  · rw [if_neg hn, if_neg hn]
    rfl

theorem sequence_addSequence (hk : k < s.sequences.size) :
    (s.addSequence suffix).2.sequence k = s.sequence k := by
  have hpush : (s.addSequence suffix).2 = ⟨s.sequences.push { suffix }⟩ := rfl
  rw [hpush, sequence, Array.getElem?_push_lt hk, sequence, Array.getElem?_eq_getElem hk]

theorem size_addSequence : (s.addSequence suffix).2.sequences.size = s.sequences.size + 1 :=
  Array.size_push _

/-- What is asked for is what the sequence issues to the supertypes in question. -/
theorem answers_asked (hk : k < s.sequences.size) (uses : List Use) :
    (s.answers k uses).map requestedName? =
      ((s.sequence k).names (uses.filterMap (Use.superclass? k))).map some := by
  induction uses generalizing s with
  | nil => rfl
  | cons use uses ih =>
    cases use with
    | newSequence suffix =>
      have hsize : k < (s.addSequence suffix).2.sequences.size := by
        rw [size_addSequence]
        omega
      rw [answers, ih hsize, sequence_addSequence hk]
      rfl
    | request settings superclass interfaces =>
      have hsize : k < (s.subclass settings superclass interfaces).2.sequences.size := by
        rwa [size_subclass]
      have hrest := ih hsize
      rw [sequence_subclass hk] at hrest
      simp only [answers]
      by_cases hn : settings.naming = k
      · have huse : (Use.request settings superclass interfaces).superclass? k =
            some superclass := if_pos hn
        rw [if_pos hn] at hrest
        rw [if_pos hn, List.map_cons, hrest, requestedName?_subclass, hn,
          List.filterMap_cons_some huse]
        rfl
      · have huse : (Use.request settings superclass interfaces).superclass? k = none :=
          if_neg hn
        rw [if_neg hn] at hrest
        rw [if_neg hn, hrest, List.filterMap_cons_none huse]

theorem names_never_repeat :
    (∀ (q : NameSequence) (supers : List TypeDesc), supers.length < 2 ^ 64 →
      (q.names supers).Nodup) ∧
    ∀ (s : Session) (k : Nat) (uses : List Use), k < s.sequences.size →
      (uses.filterMap (Use.superclass? k)).length < 2 ^ 64 →
      ∃ names : List String, (s.answers k uses).map requestedName? = names.map some ∧
        names.Nodup := by
  refine ⟨fun q supers h => NameSequence.names_nodup h, ?_⟩
  intro s k uses hk hcount
  exact ⟨_, answers_asked hk uses, NameSequence.names_nodup hcount⟩

/-- Through two copies of the same settings, around a request through others. The second supertype
bears a name that was generated before, the third has no legal name for a subclass. -/
theorem names_never_repeat_shared :
    let settings : Settings := ⟨.standard, .ofClass, false, false, 0⟩
    let copy : Settings := { settings with dynamicTyping := true }
    let s : Session := ⟨#[{ suffix := "1" }]⟩
    let uses : List Use :=
      [ .request settings (.classNamed "p.A") [], .newSequence "1",
        .request { settings with naming := 1 } (.classNamed "p.A") [],
        .request copy (.classNamed "p.A$$1$1") [],
        .request settings (.array (.classNamed "p.A")) [] ]
    (s.answers 0 uses).map requestedName? =
      [some "p.A$$1$1", some "p.A$$1$1$$1$2", some "[Lp.A;$$1$3"] ∧
    (∃ names : List String, (s.answers 0 uses).map requestedName? = names.map some ∧
      names.Nodup) ∧
    (NameSequence.names { suffix := "", platformPackage := "$" } [.object, .object]).Nodup := by
  intro settings copy s uses
  have hk : 0 < s.sequences.size := by decide
  have hcount : (uses.filterMap (Use.superclass? 0)).length < 2 ^ 64 := by decide
  obtain ⟨hdirect, hshared⟩ := names_never_repeat
  refine ⟨?_, hshared s 0 uses hk hcount, hdirect _ _ (by decide)⟩
  rw [answers_asked hk]
  decide +kernel

end Session

end ClassSynthesis
