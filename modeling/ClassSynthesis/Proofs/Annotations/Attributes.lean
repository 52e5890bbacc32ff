import ClassSynthesis.Annotations.Target
import ClassSynthesis.Proofs.Annotations.Writing
import ClassSynthesis.Proofs.Pool.History
import ClassSynthesis.Types.WellKnown

/-!
# ClassSynthesis.Proofs.Annotations.Attributes

The annotation attributes of a class, field or method tell what was appended. `Section.Holds` is
what is known of the annotations of one attribute while there was no failure; appending one
annotation keeps it for both attributes (`append_holds`), so a history of appending keeps it
(`appendAll_holds`).

* `append_error_iff`: what is refused, for targets of both kinds.
* `appendAll_finish`: the bodies of the attributes are read as the annotations that were appended
  with their visibility, in order. An annotation that was refused or suppressed is in neither.
-/

namespace ClassSynthesis

/-! ## Sections -/

namespace Section

/-- The annotations of a section, in a pool and every pool that extends it. -/
structure Holds (s : Section) (pool : ConstantPool) (as : List AnnotationContent) : Prop where
  count : s.count = .ofNat as.length
  reads : ∀ later, pool.Extends later → ∀ depth, s.bytes.size ≤ depth →
    Reads (Reader.times (AnnotationParser.entry later (AnnotationParser.value later depth))
      as.length) s.bytes.toList as

variable {s : Section} {pool : ConstantPool} {as : List AnnotationContent}

theorem empty_holds (pool : ConstantPool) : empty.Holds pool [] :=
  ⟨rfl, fun _ _ _ _ => .pure []⟩

theorem Holds.mono {later : ConstantPool} (h : s.Holds pool as) (hx : pool.Extends later) :
    s.Holds later as :=
  ⟨h.count, fun _ hx' => h.reads _ (hx.trans hx')⟩

theorem Holds.toNat_count (h : s.Holds pool as) (hn : as.length ≤ 65535) :
    s.count.toNat = as.length := by
  rw [h.count, UInt16.toNat_ofNat', Nat.mod_eq_of_lt (by omega)]

/-- The annotations behind their number. -/
theorem Holds.reads_body {later : ConstantPool} (h : s.Holds pool as) (hn : as.length ≤ 65535)
    (hx : pool.Extends later) {depth : Nat} (hd : s.bytes.size ≤ depth) :
    Reads (Reader.counted (AnnotationParser.entry later (AnnotationParser.value later depth)))
      s.body.toList as := by
  have hbody : s.body.toList = u2 s.count ++ s.bytes.toList := by simp [body]
  rw [hbody]
  refine Reads.counted ?_
  rw [h.toNat_count hn]
  exact h.reads later hx depth hd

theorem write_holds {enc : Encoding} (h : enc.pool.Wf)
    (hs : enc.failure = none → s.Holds enc.pool as) {a : Annotation} {c : AnnotationContent}
    (ha : a.content? = some c) (hn : a.Countable) :
    let after := s.write enc a.type.descriptor a.calls
    enc.Becomes after.2 ∧ (after.2.failure = none → after.1.Holds after.2.pool (as ++ [c])) := by
  intro after
  have hw := ElementWriter.block_wrote a ha hn (w := ⟨enc, s.bytes, 0, 0⟩) h
  refine ⟨hw.becomes, fun hf => ?_⟩
  have hs := hs (hw.becomes.unfailed hf)
  obtain ⟨bs, hbs, hread⟩ := hw.written hf
  have hbytes : after.1.bytes.toList = s.bytes.toList ++ bs := hbs
  have hsize : after.1.bytes.size = s.bytes.size + bs.length := by
    rw [← Array.length_toList, hbytes, List.length_append, Array.length_toList]
  constructor
  · show s.count + 1 = _
    rw [hs.count, List.length_append, UInt16.ofNat_add]
    rfl
  · intro later hx depth hd
    rw [hbytes, List.length_append]
    have hlast := hread later hx depth (by omega)
    have hfirst := hs.reads later (hw.becomes.grows.trans hx) depth (by omega)
    exact hfirst.times_append hlast.times_one

end Section

/-- A body is there unless there are no annotations. In the pool after any later requests, all of
its bytes are read as the annotations. -/
structure Tells (body : Option (Array UInt8)) (pool : ConstantPool) (as : List AnnotationContent) :
    Prop where
  absent : body = none ↔ as = []
  read : ∀ bytes, body = some bytes → ∀ later,
    AnnotationParser.annotations (pool.after later) bytes.toList = some as

namespace AnnotationTable

theorem body?_tells {s : Section} {pool : ConstantPool} {as : List AnnotationContent}
    (h : s.Holds pool as) (hwf : pool.Wf) (hn : as.length ≤ 65535) : Tells (body? s) pool as := by
  constructor
  · rw [body?, ← List.length_eq_zero_iff, ← h.toNat_count hn]
    simp [UInt16.lt_iff_toNat_lt]
  · intro bytes hb later
    unfold body? at hb
    split at hb
    · cases hb
      have hx := ConstantPool.extends_after hwf later
      have hd : s.bytes.size ≤ s.body.toList.length := by simp [Section.body]
      exact (h.reads_body hn hx hd).whole
    · cases hb

/-- What the attributes hold, as long as there was no failure. -/
structure Holds (t : AnnotationTable) (visible invisible : List AnnotationContent) : Prop where
  wf : t.encoding.pool.Wf
  visible : t.encoding.failure = none → t.visible.Holds t.encoding.pool visible
  invisible : t.encoding.failure = none → t.invisible.Holds t.encoding.pool invisible

variable {t : AnnotationTable} {vs us : List AnnotationContent}

theorem start_holds {pool : ConstantPool} (h : pool.Wf) : (start pool).Holds [] [] :=
  ⟨h, fun _ => Section.empty_holds pool, fun _ => Section.empty_holds pool⟩

section

variable (h : t.Holds vs us) {a : Annotation} {c : AnnotationContent} (ha : a.content? = some c)
  (hn : a.Countable)
include h ha hn

theorem Holds.receive_visible :
    (t.receive ⟨a.type.descriptor, true, a.calls⟩).Holds (vs ++ [c]) us := by
  obtain ⟨hb, hs⟩ := Section.write_holds h.wf h.visible ha hn
  exact ⟨hb.wf, hs, fun hf => (h.invisible (hb.unfailed hf)).mono hb.grows⟩

theorem Holds.receive_invisible :
    (t.receive ⟨a.type.descriptor, false, a.calls⟩).Holds vs (us ++ [c]) := by
  obtain ⟨hb, hs⟩ := Section.write_holds h.wf h.invisible ha hn
  exact ⟨hb.wf, fun hf => (h.visible (hb.unfailed hf)).mono hb.grows, hs⟩

end

theorem finish_ok {attributes : AnnotationAttributes} (h : t.finish = .ok attributes) :
    t.encoding.failure = none ∧ attributes = ⟨body? t.visible, body? t.invisible⟩ := by
  unfold finish at h
  split at h
  · cases h
  · rename_i hf
    exact ⟨hf, (Except.ok.inj h).symm⟩

end AnnotationTable

/-! ## Appending -/

namespace AnnotationTarget

variable {t : AnnotationTarget} {parameter : Nat} {a : Annotation} {v : Visibility}

theorem append_suppressed : t.append parameter a .invisible = .ok t := rfl

theorem append_readable {c : AnnotationContent} (hv : v ≠ .invisible) (ha : a.content? = some c) :
    t.append parameter a v =
      .ok (t.receive parameter ⟨a.type.descriptor, v.isVisible, a.calls⟩) := by
  have hr := (unreadableOf_iff a).mpr (by simp [ha])
  rw [append, delivery_unsuppressed hv, hr]

theorem append_unreadable (hv : v ≠ .invisible) (ha : a.content? = none) :
    ∃ e, t.append parameter a v = .error e := by
  have hr : unreadableOf a ≠ none := fun hn => (unreadableOf_iff a).mp hn ha
  obtain ⟨e, he⟩ := Option.ne_none_iff_exists'.mp hr
  exact ⟨e, by rw [append, delivery_unsuppressed hv, he]⟩

theorem append_error_iff :
    (∃ e, t.append parameter a v = .error e) ↔ v ≠ .invisible ∧ a.content? = none := by
  constructor
  · rintro ⟨e, he⟩
    have hv : v ≠ .invisible := by
      rintro rfl
      cases he
    refine ⟨hv, ?_⟩
    cases ha : a.content? with
    | none => rfl
    | some c =>
      rw [append_readable hv ha] at he
      cases he
  · rintro ⟨hv, ha⟩
    exact append_unreadable hv ha

/-- An annotation to append, with the visibility given or else the one of its retention. -/
abbrev Appending := Annotation × Option Visibility

def Appending.visibility : Appending → Visibility
  | (a, given) => given.getD (.of a)

/-- A history of appending. Where it is refused, the target stays. -/
def appendAll (t : AnnotationTarget) (history : List Appending) : AnnotationTarget :=
  history.foldl (fun t step =>
    match t.append 0 step.1 step.visibility with
    | .ok t => t
    | .error _ => t) t

/-- What was appended with a visibility. -/
def appended (v : Visibility) (history : List Appending) : List AnnotationContent :=
  history.filterMap fun step => if step.visibility = v then step.1.content? else none

/-- The target after one step, whatever becomes of it. -/
def attempt (t : AnnotationTarget) (parameter : Nat) (step : Appending) : AnnotationTarget :=
  match t.append parameter step.1 step.visibility with
  | .ok t => t
  | .error _ => t

/-- All that a step can do: leave the target, or hand the annotation over to one attribute. -/
inductive Attempted (t : AnnotationTarget) (parameter : Nat) : Appending → AnnotationTarget → Prop
  where
  | kept {step : Appending} (h : step.visibility = .invisible ∨ step.1.content? = none) :
      Attempted t parameter step t
  | visible {step : Appending} {c : AnnotationContent} (hv : step.visibility = .runtime)
      (hc : step.1.content? = some c) :
      Attempted t parameter step
        (t.receive parameter ⟨step.1.type.descriptor, true, step.1.calls⟩)
  | invisible {step : Appending} {c : AnnotationContent} (hv : step.visibility = .classFile)
      (hc : step.1.content? = some c) :
      Attempted t parameter step
        (t.receive parameter ⟨step.1.type.descriptor, false, step.1.calls⟩)

theorem attempted (t : AnnotationTarget) (parameter : Nat) (step : Appending) :
    Attempted t parameter step (t.attempt parameter step) := by
  unfold attempt
  by_cases hs : step.visibility = .invisible
  · rw [hs, append_suppressed]
    exact .kept (.inl hs)
  · cases hc : step.1.content? with
    | none =>
      have hrefused : ∃ e, t.append parameter step.1 step.visibility = .error e :=
        append_unreadable hs hc
      obtain ⟨e, he⟩ := hrefused
      rw [he]
      exact .kept (.inr hc)
    | some c =>
      rw [append_readable hs hc]
      cases hv : step.visibility with
      | runtime => exact .visible hv hc
      | classFile => exact .invisible hv hc
      | invisible => exact absurd hv hs

theorem append_holds {table : AnnotationTable} {vs us : List AnnotationContent}
    (h : table.Holds vs us) {step : Appending} (hn : step.1.Countable) :
    ∃ table', appendAll (.declaration table) [step] = .declaration table' ∧
      table'.Holds (vs ++ appended .runtime [step]) (us ++ appended .classFile [step]) := by
  have hstep := attempted (.declaration table) 0 step
  have hrun : appendAll (.declaration table) [step] = attempt (.declaration table) 0 step := rfl
  rw [hrun]
  generalize attempt (.declaration table) 0 step = after at hstep
  cases hstep with
  | kept hk =>
    refine ⟨table, rfl, ?_⟩
    rcases hk with hv | hc
    · simpa [appended, hv] using h
    · simpa [appended, hc] using h
  | visible hv hc =>
    exact ⟨_, rfl, by simpa [appended, hv, hc] using h.receive_visible hc hn⟩
  | invisible hv hc =>
    exact ⟨_, rfl, by simpa [appended, hv, hc] using h.receive_invisible hc hn⟩

theorem appendAll_holds {history : List Appending} :
    ∀ {table : AnnotationTable} {vs us : List AnnotationContent}, table.Holds vs us →
      (∀ step ∈ history, step.1.Countable) →
      ∃ table', appendAll (.declaration table) history = .declaration table' ∧
        table'.Holds (vs ++ appended .runtime history) (us ++ appended .classFile history) := by
  induction history with
  | nil =>
    intro table vs us h _
    exact ⟨table, rfl, by simpa [appended] using h⟩
  | cons step history ih =>
    intro table vs us h hn
    obtain ⟨next, hnext, hstep⟩ := append_holds h (hn step (.head history))
    obtain ⟨last, hlast, hrest⟩ := ih hstep fun s hs => hn s (.tail step hs)
    have hsplit : ∀ v, appended v (step :: history) = appended v [step] ++ appended v history :=
      fun v => List.filterMap_append (l := [step])
    refine ⟨last, ?_, by simpa [hsplit] using hrest⟩
    rw [← hlast, ← hnext]
    rfl

theorem appendAll_finish (requests : List Request) (history : List Appending)
    (hcount : ∀ step ∈ history, step.1.Countable)
    (hvisible : (appended .runtime history).length ≤ 65535)
    (hinvisible : (appended .classFile history).length ≤ 65535)
    (attributes : AnnotationAttributes)
    (hfinish : (appendAll (.declaration (.start (ConstantPool.empty.after requests)))
      history).finish = .ok attributes) :
    let pool := (appendAll (.declaration (.start (ConstantPool.empty.after requests)))
      history).encoding.pool
    (∀ step ∈ history, ∀ (t : AnnotationTarget),
      (∃ e, t.append 0 step.1 step.visibility = .error e) ↔
        step.visibility ≠ .invisible ∧ step.1.content? = none) ∧
    Tells attributes.visible pool (appended .runtime history) ∧
    Tells attributes.invisible pool (appended .classFile history) := by
  intro pool
  refine ⟨fun _ _ _ => append_error_iff, ?_⟩
  have hstart := AnnotationTable.start_holds (ConstantPool.after_wf ConstantPool.empty_wf requests)
  obtain ⟨table, htable, hholds⟩ := appendAll_holds hstart hcount
  have hpool : pool = table.encoding.pool := congrArg (·.encoding.pool) htable
  rw [htable] at hfinish
  obtain ⟨hfail, rfl⟩ := AnnotationTable.finish_ok hfinish
  rw [hpool]
  exact ⟨AnnotationTable.body?_tells (hholds.visible hfail) hholds.wf hvisible,
    AnnotationTable.body?_tells (hholds.invisible hfail) hholds.wf hinvisible⟩

/-- A nested annotation and an array, then a refused, a suppressed and an invisible annotation. -/
theorem appendAll_finish_forms :
    let nested : Annotation := .mk (.classNamed "B") none []
    let a : Annotation := .mk (.classNamed "A") (some .runtime)
      [.readable "n" (.nested nested), .readable "v" (.array [.scalar (.byte 5), .type .void])]
    let refused : Annotation := .mk (.classNamed "A") (some .runtime) [.unreadable "v" "missing"]
    let history : List Appending :=
      [(a, none), (refused, none), (a, some .invisible), (nested, some .classFile)]
    let pool := (appendAll (.declaration (.start (ConstantPool.empty.after [.utf8 "n"])))
      history).encoding.pool
    (∀ step ∈ history, ∀ (t : AnnotationTarget),
      (∃ e, t.append 0 step.1 step.visibility = .error e) ↔
        step.visibility ≠ .invisible ∧ step.1.content? = none) ∧
    Tells (some #[0, 1, 0, 2, 0, 2, 0, 1, 64, 0, 3, 0, 0, 0, 4, 91, 0, 2, 66, 0, 5, 99, 0, 6]) pool
      (appended .runtime history) ∧
    Tells (some #[0, 1, 0, 3, 0, 0]) pool (appended .classFile history) := by
  intro nested a refused history
  refine appendAll_finish [.utf8 "n"] history ?_ (by cbv) (by cbv) ⟨some _, some _⟩ (by cbv)
  simp [history, a, nested, refused, Annotation.Countable, countableMembers, Value.Countable,
    countableElements]

end AnnotationTarget
end ClassSynthesis
