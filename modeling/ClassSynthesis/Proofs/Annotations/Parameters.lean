import Mathlib.Data.List.Basic
import ClassSynthesis.Proofs.Annotations.Attributes

/-!
# ClassSynthesis.Proofs.Annotations.Parameters

The annotation attributes of the parameters of a method tell what was appended, parameter by
parameter. The tables of one attribute are followed as a function from indices to annotations
(`HoldTables`): an index beyond the tables has none, so growing changes nothing but the number of
tables (`HoldTables.grow`), and writing changes one index (`HoldTables.writeAt`). Both attributes
grow in every step, so their numbers of tables stay equal (`attempt_holds`, `placeAll_holds`).

* `placeAll_finish`: the bodies of the attributes are read as one table of annotations for each
  parameter, as many as were declared or written to, each with the annotations that were appended
  at its index, in order.
-/

namespace ClassSynthesis

namespace AnnotationParser

/-- The number of tables in one byte, then the tables. -/
def parameterAnnotations (pool : ConstantPool) (bytes : List UInt8) :
    Option (List (List AnnotationContent)) :=
  Reader.whole (do
    let tables ← Reader.number 1
    Reader.times (Reader.counted (entry pool (value pool bytes.length))) tables) bytes

end AnnotationParser

namespace ParameterTable

/-! ## Tables of one attribute -/

/-- So many tables, and the annotations at each index, as long as there was no failure. -/
structure HoldTables (sections : Array Section) (enc : Encoding) (count : Nat)
    (as : Nat → List AnnotationContent) : Prop where
  size : sections.size = count
  holds : enc.failure = none → ∀ p, (sections.getD p .empty).Holds enc.pool (as p)

section

variable {sections : Array Section} {enc : Encoding} {count : Nat}
  {as : Nat → List AnnotationContent}

theorem getD_replicate_empty (count p : Nat) :
    (Array.replicate count Section.empty).getD p .empty = .empty := by
  rw [Array.getD_eq_getD_getElem?, Array.getElem?_replicate]
  split <;> rfl

theorem HoldTables.start (enc : Encoding) (count : Nat) :
    HoldTables (Array.replicate count .empty) enc count fun _ => [] := by
  refine ⟨Array.size_replicate, fun _ p => ?_⟩
  rw [getD_replicate_empty]
  exact Section.empty_holds enc.pool

theorem HoldTables.mono {later : Encoding} (h : HoldTables sections enc count as)
    (hb : enc.Becomes later) : HoldTables sections later count as :=
  ⟨h.size, fun hf p => (h.holds (hb.unfailed hf) p).mono hb.grows⟩

theorem getD_grow (size : Nat) (sections : Array Section) (p : Nat) :
    (grow size sections).getD p .empty = sections.getD p .empty := by
  simp only [grow, Array.getD_eq_getD_getElem?, Array.getElem?_append]
  split
  · rfl
  · rename_i hp
    rw [Array.getElem?_replicate, Array.getElem?_eq_none (Nat.le_of_not_lt hp)]
    split <;> rfl

theorem HoldTables.grow (h : HoldTables sections enc count as) (size : Nat) :
    HoldTables (grow size sections) enc (max count size) as := by
  constructor
  · rw [ParameterTable.grow, Array.size_append, Array.size_replicate, h.size]
    omega
  · intro hf p
    rw [getD_grow]
    exact h.holds hf p

theorem getD_setIfInBounds {p : Nat} (hp : p < sections.size) (s : Section) (q : Nat) :
    (sections.setIfInBounds p s).getD q .empty =
      if q = p then s else sections.getD q .empty := by
  rw [Array.getD_eq_getD_getElem?, Array.getElem?_setIfInBounds]
  by_cases hq : q = p
  · rw [if_pos hq.symm, if_pos hp, if_pos hq]
    rfl
  · rw [if_neg (Ne.symm hq), if_neg hq, Array.getD_eq_getD_getElem?]

/-- The table at one index gets one more annotation. -/
theorem HoldTables.writeAt (h : HoldTables sections enc count as) (hwf : enc.pool.Wf) {p : Nat}
    (hp : p < count) {a : Annotation} {c : AnnotationContent} (ha : a.content? = some c)
    (hn : a.Countable) (visible : Bool) :
    let after := writeAt sections p enc ⟨a.type.descriptor, visible, a.calls⟩
    enc.Becomes after.2 ∧
      HoldTables after.1 after.2 count fun q => as q ++ if q = p then [c] else [] := by
  intro after
  obtain ⟨hb, hs⟩ := Section.write_holds hwf (fun hf => h.holds hf p) ha hn
  refine ⟨hb, ?_, fun hf q => ?_⟩
  · rw [← h.size]
    exact Array.size_setIfInBounds
  · have hsize : p < sections.size := h.size ▸ hp
    have hget : after.1.getD q .empty = _ := getD_setIfInBounds hsize _ q
    rw [hget]
    by_cases hq : q = p
    · rw [if_pos hq, if_pos hq, hq]
      exact hs hf
    · rw [if_neg hq, if_neg hq, List.append_nil]
      exact (h.holds (hb.unfailed hf) q).mono hb.grows

end

/-! ## Reading the body -/

/-- A body is there unless all tables are empty. In the pool after any later requests, all of its
bytes are read as so many tables. -/
structure TellsTables (body : Option (Array UInt8)) (pool : ConstantPool) (count : Nat)
    (as : Nat → List AnnotationContent) : Prop where
  absent : body = none ↔ ∀ p, as p = []
  read : ∀ bytes, body = some bytes → ∀ later,
    AnnotationParser.parameterAnnotations (pool.after later) bytes.toList =
      some ((List.range count).map as)

section

variable {sections : Array Section} {enc : Encoding} {count : Nat}
  {as : Nat → List AnnotationContent}

theorem toList_eq_map_range (sections : Array Section) :
    sections.toList = (List.range sections.size).map (sections.getD · .empty) := by
  refine List.ext_getElem (by simp) fun p hp _ => ?_
  simp only [List.getElem_map, List.getElem_range, Array.getElem_toList]
  rw [Array.getD_eq_getD_getElem?, Array.getElem?_eq_getElem (by simpa using hp), Option.getD_some]

theorem all_empty_iff (h : HoldTables sections enc count as) (hf : enc.failure = none)
    (hn : ∀ p, (as p).length ≤ 65535) :
    (sections.all fun s => s.count == 0) = true ↔ ∀ p, as p = [] := by
  have hcount : ∀ p, (sections.getD p .empty).count = 0 ↔ as p = [] := by
    intro p
    rw [← List.length_eq_zero_iff, ← (h.holds hf p).toNat_count (hn p), ← UInt16.toNat_inj]
    rfl
  rw [← Array.all_toList, toList_eq_map_range]
  simp only [List.all_map, List.all_eq_true, List.mem_range, Function.comp_apply, beq_iff_eq,
    hcount]
  constructor
  · intro hall p
    by_cases hp : p < sections.size
    · exact hall p hp
    · -- There is no table at this index.
      rw [← hcount, Array.getD_eq_getD_getElem?, Array.getElem?_eq_none (Nat.le_of_not_lt hp)]
      rfl
  · intro hall p _
    exact hall p

/-- The bodies of all tables, one after another. -/
def bodies (sections : Array Section) : List UInt8 :=
  (List.range sections.size).flatMap fun p => (sections.getD p .empty).body.toList

theorem toList_body (sections : Array Section) :
    (sections.foldl (fun out s => out ++ s.body) #[UInt8.ofNat sections.size]).toList =
      [UInt8.ofNat sections.size] ++ bodies sections := by
  have htables := congrArg (List.map fun s => s.body.toList) (toList_eq_map_range sections)
  rw [List.map_map] at htables
  rw [Array.foldl_append_eq_append, Array.toList_append, Array.toList_flatten, Array.toList_map,
    List.map_map, bodies, List.flatMap_def]
  exact congrArg (fun bodies => [UInt8.ofNat sections.size] ++ bodies.flatten) htables

theorem size_bytes_le {p : Nat} (hp : p ∈ List.range sections.size) :
    (sections.getD p .empty).bytes.size ≤ (bodies sections).length := by
  have hbody : (sections.getD p .empty).body.toList.Sublist (bodies sections) := by
    rw [bodies, List.flatMap_def]
    exact List.sublist_flatten_of_mem (List.mem_map_of_mem hp)
  have hle := hbody.length_le
  simp only [Section.body, Array.toList_append, List.length_append, Array.length_toList] at hle
  omega

theorem HoldTables.reads_bodies (h : HoldTables sections enc count as) (hf : enc.failure = none)
    (hn : ∀ p, (as p).length ≤ 65535) {later : ConstantPool} (hx : enc.pool.Extends later)
    {depth : Nat} (hd : (bodies sections).length ≤ depth) :
    Reads (Reader.times (Reader.counted (AnnotationParser.entry later
      (AnnotationParser.value later depth))) count) (bodies sections)
      ((List.range count).map as) := by
  have htable : ∀ p ∈ List.range sections.size,
      Reads (Reader.counted (AnnotationParser.entry later (AnnotationParser.value later depth)))
        (sections.getD p .empty).body.toList (as p) := by
    intro p hp
    exact (h.holds hf p).reads_body (hn p) hx ((size_bytes_le hp).trans hd)
  have htables := Reads.times_flatMap htable
  rw [List.length_range, h.size] at htables
  rwa [bodies, h.size]

theorem body?_tells (h : HoldTables sections enc count as) (hf : enc.failure = none)
    (hwf : enc.pool.Wf) (hcount : count ≤ 255) (hn : ∀ p, (as p).length ≤ 65535) :
    TellsTables (body? sections) enc.pool count as := by
  have hall := all_empty_iff h hf hn
  constructor
  · rw [← hall, body?]
    split
    · rename_i he
      exact ⟨fun _ => he, fun _ => rfl⟩
    · rename_i he
      refine ⟨fun hb => ?_, fun ha => absurd ha he⟩
      cases hb
  · intro bytes hb later
    unfold body? at hb
    split at hb
    · cases hb
    · cases hb
      have hx := ConstantPool.extends_after hwf later
      have hsize : (UInt8.ofNat sections.size).toNat = count := by
        rw [UInt8.toNat_ofNat', h.size, Nat.mod_eq_of_lt (by omega)]
      refine Reads.whole ?_
      rw [toList_body]
      refine (Reads.number_byte _).bind ?_
      rw [hsize]
      exact h.reads_bodies hf hn hx (by simp)

end

/-! ## Both attributes -/

/-- So many tables in both attributes, and the annotations at each index. -/
structure Holds (t : ParameterTable) (count : Nat)
    (visible invisible : Nat → List AnnotationContent) : Prop where
  wf : t.encoding.pool.Wf
  visible : HoldTables t.visible t.encoding count visible
  invisible : HoldTables t.invisible t.encoding count invisible

variable {t : ParameterTable} {count : Nat} {vs us : Nat → List AnnotationContent}

theorem start_holds {pool : ConstantPool} (h : pool.Wf) (parameters : Nat) :
    (start pool parameters).Holds parameters (fun _ => []) fun _ => [] :=
  ⟨h, .start _ _, .start _ _⟩

section

variable (h : t.Holds count vs us) (p : Nat) {a : Annotation} {c : AnnotationContent}
  (ha : a.content? = some c) (hn : a.Countable)
include h ha hn

theorem Holds.receive_visible :
    (t.receive p ⟨a.type.descriptor, true, a.calls⟩).Holds (max count (p + 1))
      (fun q => vs q ++ if q = p then [c] else []) us := by
  have hp : p < max count (p + 1) := by omega
  obtain ⟨hb, hs⟩ := (h.visible.grow (p + 1)).writeAt h.wf hp ha hn true
  exact ⟨hb.wf, hs, (h.invisible.grow (p + 1)).mono hb⟩

theorem Holds.receive_invisible :
    (t.receive p ⟨a.type.descriptor, false, a.calls⟩).Holds (max count (p + 1)) vs
      (fun q => us q ++ if q = p then [c] else []) := by
  have hp : p < max count (p + 1) := by omega
  obtain ⟨hb, hs⟩ := (h.invisible.grow (p + 1)).writeAt h.wf hp ha hn false
  exact ⟨hb.wf, (h.visible.grow (p + 1)).mono hb, hs⟩

end

theorem finish_ok {attributes : AnnotationAttributes} (h : t.finish = .ok attributes) :
    t.encoding.failure = none ∧ attributes = ⟨body? t.visible, body? t.invisible⟩ := by
  unfold finish at h
  split at h
  · cases h
  · rename_i hf
    exact ⟨hf, (Except.ok.inj h).symm⟩

end ParameterTable

/-! ## Appending -/

namespace AnnotationTarget

open ParameterTable (TellsTables)

/-- An annotation to append to the parameter with an index. -/
abbrev Placing := Nat × Appending

/-- A history of appending to parameters. Where it is refused, the target stays. -/
def placeAll (t : AnnotationTarget) (history : List Placing) : AnnotationTarget :=
  history.foldl (fun t step => t.attempt step.1 step.2) t

/-- What was appended at an index with a visibility. -/
def placed (v : Visibility) (p : Nat) (history : List Placing) : List AnnotationContent :=
  appended v ((history.filter fun step => step.1 = p).map (·.2))

/-- The indices at which an annotation was written, neither suppressed nor refused. -/
def written (history : List Placing) : List Nat :=
  (history.filter fun step =>
    step.2.visibility ≠ .invisible ∧ step.2.1.content?.isSome).map (·.1)

/-- The number of declared parameters or one more than the highest index written to, whichever is
more. -/
def tableCount (declared : Nat) (history : List Placing) : Nat :=
  (written history).foldl (fun count p => max count (p + 1)) declared

theorem placed_cons (v : Visibility) (p : Nat) (step : Placing) (history : List Placing) :
    placed v p (step :: history) = placed v p [step] ++ placed v p history := by
  rw [← List.singleton_append, placed, List.filter_append, List.map_append, appended,
    List.filterMap_append]
  rfl

theorem tableCount_cons (declared : Nat) (step : Placing) (history : List Placing) :
    tableCount declared (step :: history) = tableCount (tableCount declared [step]) history := by
  rw [← List.singleton_append, tableCount, written, List.filter_append, List.map_append,
    List.foldl_append]
  rfl

theorem placed_single (v : Visibility) (p q : Nat) (step : Appending) :
    placed v q [(p, step)] = if q = p then appended v [step] else [] := by
  by_cases hq : q = p
  · simp [placed, hq]
  · have hp : ¬p = q := fun h => hq h.symm
    simp [placed, hq, hp, appended]

theorem length_placed_le (v : Visibility) (p : Nat) (history : List Placing) :
    (placed v p history).length ≤ history.length := by
  refine (List.length_filterMap_le _ _).trans ?_
  rw [List.length_map]
  exact List.length_filter_le _ _

/-- One step, whatever becomes of it. -/
theorem attempt_holds {table : ParameterTable} {count : Nat} {vs us : Nat → List AnnotationContent}
    (h : table.Holds count vs us) {step : Placing} (hn : step.2.1.Countable) :
    ∃ table', attempt (.parameters table) step.1 step.2 = .parameters table' ∧
      table'.Holds (tableCount count [step]) (fun q => vs q ++ placed .runtime q [step])
        (fun q => us q ++ placed .classFile q [step]) := by
  obtain ⟨p, step⟩ := step
  have hstep := attempted (.parameters table) p step
  simp only [placed_single]
  generalize attempt (.parameters table) p step = after at hstep
  cases hstep with
  | kept hk =>
    refine ⟨table, rfl, ?_⟩
    rcases hk with hv | hc
    · simpa [tableCount, written, appended, hv] using h
    · simpa [tableCount, written, appended, hc] using h
  | visible hv hc =>
    refine ⟨_, rfl, ?_⟩
    simpa [tableCount, written, appended, hv, hc] using h.receive_visible p hc hn
  | invisible hv hc =>
    refine ⟨_, rfl, ?_⟩
    simpa [tableCount, written, appended, hv, hc] using h.receive_invisible p hc hn

theorem placeAll_holds {history : List Placing} :
    ∀ {table : ParameterTable} {count : Nat} {vs us : Nat → List AnnotationContent},
      table.Holds count vs us → (∀ step ∈ history, step.2.1.Countable) →
      ∃ table', placeAll (.parameters table) history = .parameters table' ∧
        table'.Holds (tableCount count history) (fun p => vs p ++ placed .runtime p history)
          (fun p => us p ++ placed .classFile p history) := by
  induction history with
  | nil =>
    intro table count vs us h _
    exact ⟨table, rfl, by simpa [placed, appended, tableCount, written] using h⟩
  | cons step history ih =>
    intro table count vs us h hn
    obtain ⟨next, hnext, hstep⟩ := attempt_holds h (hn step (.head history))
    obtain ⟨last, hlast, hrest⟩ := ih hstep fun s hs => hn s (.tail step hs)
    refine ⟨last, ?_, ?_⟩
    · rw [← hlast, ← hnext]
      rfl
    · rw [tableCount_cons]
      simpa only [placed_cons _ _ step history, List.append_assoc] using hrest

theorem placeAll_finish (requests : List Request) (declared : Nat) (history : List Placing)
    (hcount : ∀ step ∈ history, step.2.1.Countable)
    (htables : tableCount declared history ≤ 255)
    (hvisible : ∀ p, (placed .runtime p history).length ≤ 65535)
    (hinvisible : ∀ p, (placed .classFile p history).length ≤ 65535)
    (attributes : AnnotationAttributes)
    (hfinish : (placeAll (.parameters (.start (ConstantPool.empty.after requests) declared))
      history).finish = .ok attributes) :
    let pool := (placeAll (.parameters (.start (ConstantPool.empty.after requests) declared))
      history).encoding.pool
    TellsTables attributes.visible pool (tableCount declared history)
      (placed .runtime · history) ∧
    TellsTables attributes.invisible pool (tableCount declared history)
      (placed .classFile · history) := by
  intro pool
  have hstart := ParameterTable.start_holds
    (ConstantPool.after_wf ConstantPool.empty_wf requests) declared
  obtain ⟨table, htable, hholds⟩ := placeAll_holds hstart hcount
  have hpool : pool = table.encoding.pool := congrArg (·.encoding.pool) htable
  rw [htable] at hfinish
  obtain ⟨hfail, rfl⟩ := ParameterTable.finish_ok hfinish
  simp only [List.nil_append] at hholds
  rw [hpool]
  exact ⟨ParameterTable.body?_tells hholds.visible hfail hholds.wf htables hvisible,
    ParameterTable.body?_tells hholds.invisible hfail hholds.wf htables hinvisible⟩

/-- Written beyond the declared parameter and then before it. What is suppressed or refused further
up makes no table. -/
theorem placeAll_finish_forms :
    let checked : Annotation := .mk (.classNamed "A") (some .classFile)
      [.readable "v" (.array [.scalar (.byte 5)])]
    let traced : Annotation := .mk (.classNamed "B") (some .runtime) []
    let refused : Annotation := .mk (.classNamed "B") (some .runtime) [.unreadable "v" "missing"]
    let history : List Placing :=
      [(2, checked, none), (0, traced, none), (9, traced, some .invisible), (7, refused, none),
        (2, traced, some .classFile)]
    let pool := (placeAll (.parameters (.start (ConstantPool.empty.after [.utf8 "v"]) 1))
      history).encoding.pool
    TellsTables (some #[3, 0, 1, 0, 4, 0, 0, 0, 0, 0, 0]) pool 3 (placed .runtime · history) ∧
    TellsTables (some #[3, 0, 0, 0, 0, 0, 2, 0, 2, 0, 1, 0, 1, 91, 0, 1, 66, 0, 3, 0, 4, 0, 0]) pool
      3 (placed .classFile · history) := by
  intro checked traced refused history
  have hcount : tableCount 1 history = 3 := by cbv
  have hshort : ∀ v p, (placed v p history).length ≤ 65535 :=
    fun v p => (length_placed_le v p history).trans (by decide)
  rw [← hcount]
  refine placeAll_finish [.utf8 "v"] 1 history ?_ (by rw [hcount]; decide) (hshort .runtime)
    (hshort .classFile) ⟨some _, some _⟩ (by cbv)
  simp [history, checked, traced, refused, Annotation.Countable, countableMembers,
    Value.Countable, countableElements]

end AnnotationTarget
end ClassSynthesis
