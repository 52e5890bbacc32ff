import ClassSynthesis.Proofs.Annotations.Parameters

/-!
# ClassSynthesis.Proofs.Annotations.TableCount

How many tables the annotation attributes of parameters have, and how many they declare. The number
of tables is not limited, and appending keeps it equal for both attributes whatever is appended
(`placeAll_sized`); it is declared in one byte.

* `placeAll_count`: the byte in front of the tables is their number exactly if there are at most
  255. A failure is never about their number.
* `declared_count_cut_off`: so the byte need not be the number of tables.
-/

namespace ClassSynthesis

namespace ParameterTable

/-- So many tables in both attributes. -/
structure Sized (t : ParameterTable) (count : Nat) : Prop where
  visible : t.visible.size = count
  invisible : t.invisible.size = count

variable {t : ParameterTable} {count : Nat}

theorem start_sized (pool : ConstantPool) (parameters : Nat) :
    (start pool parameters).Sized parameters :=
  ⟨Array.size_replicate, Array.size_replicate⟩

theorem size_grow (size : Nat) (sections : Array Section) :
    (grow size sections).size = max sections.size size := by
  rw [grow, Array.size_append, Array.size_replicate]
  omega

theorem size_writeAt (sections : Array Section) (p : Nat) (enc : Encoding) (d : Delivery) :
    (writeAt sections p enc d).1.size = sections.size :=
  Array.size_setIfInBounds

theorem Sized.receive (h : t.Sized count) (p : Nat) (d : Delivery) :
    (t.receive p d).Sized (max count (p + 1)) := by
  unfold ParameterTable.receive
  split
  · exact ⟨by simp only [size_writeAt, size_grow, h.visible],
      by simp only [size_grow, h.invisible]⟩
  · exact ⟨by simp only [size_grow, h.visible],
      by simp only [size_writeAt, size_grow, h.invisible]⟩

/-- The first annotation is encoded the same however many tables there are. -/
theorem start_receive_encoding (pool : ConstantPool) (parameters p : Nat) (d : Delivery) :
    ((start pool parameters).receive p d).encoding =
      (Section.empty.write (.start pool) d.descriptor d.calls).2 := by
  have hempty : (grow (p + 1) (Array.replicate parameters .empty)).getD p .empty = .empty := by
    rw [getD_grow, getD_replicate_empty]
  unfold ParameterTable.receive
  split <;> simp only [writeAt, start, hempty]

theorem finish_error_iff {e : PoolError} :
    t.finish = .error e ↔ t.encoding.failure = some e := by
  unfold finish
  cases t.encoding.failure <;> simp

/-- If there is a body, it is a byte and the tables. The byte is the number of tables exactly if
that fits. -/
def Counted (body : Option (Array UInt8)) (sections : Array Section) (count : Nat) : Prop :=
  ∀ bytes, body = some bytes → ∃ first, bytes.toList = first :: bodies sections ∧
    sections.size = count ∧ (first.toNat = count ↔ count ≤ 255)

theorem body?_counted {sections : Array Section} (h : sections.size = count) :
    Counted (body? sections) sections count := by
  intro bytes hb
  unfold body? at hb
  split at hb
  · cases hb
  · cases hb
    refine ⟨UInt8.ofNat sections.size, toList_body sections, h, ?_⟩
    rw [h, UInt8.toNat_ofNat']
    omega

end ParameterTable

namespace AnnotationTarget

open ParameterTable (Counted)

/-- One step, whatever becomes of it. -/
theorem attempt_sized {table : ParameterTable} {count : Nat} (h : table.Sized count)
    (step : Placing) :
    ∃ table', attempt (.parameters table) step.1 step.2 = .parameters table' ∧
      table'.Sized (tableCount count [step]) := by
  obtain ⟨p, step⟩ := step
  have hstep := attempted (.parameters table) p step
  generalize attempt (.parameters table) p step = after at hstep
  cases hstep with
  | kept hk =>
    refine ⟨table, rfl, ?_⟩
    rcases hk with hv | hc
    · simpa [tableCount, written, hv] using h
    · simpa [tableCount, written, hc] using h
  | visible hv hc =>
    exact ⟨_, rfl, by simpa [tableCount, written, hv, hc] using h.receive p _⟩
  | invisible hv hc =>
    exact ⟨_, rfl, by simpa [tableCount, written, hv, hc] using h.receive p _⟩

theorem placeAll_sized (history : List Placing) : ∀ {table : ParameterTable} {count : Nat},
    table.Sized count → ∃ table', placeAll (.parameters table) history = .parameters table' ∧
      table'.Sized (tableCount count history) := by
  induction history with
  | nil =>
    intro table count h
    exact ⟨table, rfl, h⟩
  | cons step history ih =>
    intro table count h
    obtain ⟨next, hnext, hstep⟩ := attempt_sized h step
    obtain ⟨last, hlast, hrest⟩ := ih hstep
    refine ⟨last, ?_, ?_⟩
    · rw [← hlast, ← hnext]
      rfl
    · rw [tableCount_cons]
      exact hrest

theorem placeAll_count (requests : List Request) (declared : Nat) (history : List Placing) :
    let start : AnnotationTarget := .parameters (.start (ConstantPool.empty.after requests) declared)
    ∃ table, start.placeAll history = .parameters table ∧
      (∀ e, table.finish = .error e ↔ table.encoding.failure = some e) ∧
      ∀ attributes, table.finish = .ok attributes →
        Counted attributes.visible table.visible (tableCount declared history) ∧
        Counted attributes.invisible table.invisible (tableCount declared history) := by
  intro start
  have hstart := ParameterTable.start_sized (ConstantPool.empty.after requests) declared
  obtain ⟨table, htable, hsized⟩ := placeAll_sized history hstart
  refine ⟨table, htable, fun e => ParameterTable.finish_error_iff, ?_⟩
  intro attributes hfinish
  obtain ⟨-, rfl⟩ := ParameterTable.finish_ok hfinish
  exact ⟨ParameterTable.body?_counted hsized.visible,
    ParameterTable.body?_counted hsized.invisible⟩

/-- Two tables before the only one that is written to. -/
theorem placeAll_count_beyond :
    let a : Annotation := .mk (.classNamed "A") (some .classFile) []
    let bytes : Array UInt8 := #[3, 0, 0, 0, 0, 0, 1, 0, 1, 0, 0]
    ∃ table, placeAll (.parameters (.start (ConstantPool.empty.after []) 1)) [(2, a, none)] =
        .parameters table ∧
      table.finish = .ok ⟨none, some bytes⟩ ∧ Counted (some bytes) table.invisible 3 := by
  intro a bytes
  obtain ⟨table, htable, -, hcounted⟩ := placeAll_count [] 1 [(2, a, none)]
  have hfinish : finish (.parameters table) = .ok ⟨none, some bytes⟩ := by
    rw [← htable]
    cbv
  exact ⟨table, htable, hfinish, (hcounted _ hfinish).2⟩

/-- In finished attributes, the byte in front of the tables is their number. -/
def DeclaredCountExact : Prop :=
  ∀ (requests : List Request) (declared : Nat) (history : List Placing) (table : ParameterTable),
    placeAll (.parameters (.start (ConstantPool.empty.after requests) declared)) history =
      .parameters table →
    ∀ attributes bytes, table.finish = .ok attributes →
      attributes.visible = some bytes ∨ attributes.invisible = some bytes →
      ∃ first rest, bytes.toList = first :: rest ∧ first.toNat = table.visible.size

/-- A method with 256 parameters, the first of them with an annotation. -/
theorem declared_count_cut_off : ¬DeclaredCountExact := by
  intro h
  let a : Annotation := .mk (.classNamed "A") (some .runtime) []
  let history : List Placing := [(0, a, none)]
  have hcountable : ∀ step ∈ history, step.2.1.Countable := by
    simp [history, a, Annotation.Countable, countableMembers]
  obtain ⟨table, htable, hholds⟩ :=
    placeAll_holds (ParameterTable.start_holds ConstantPool.empty_wf 256) hcountable
  have hfail : table.encoding.failure = none := by
    have hencoding : table.encoding =
        (Section.empty.write (.start ConstantPool.empty) a.type.descriptor a.calls).2 := by
      rw [← ParameterTable.start_receive_encoding _ 256 0 ⟨a.type.descriptor, true, a.calls⟩]
      exact congrArg encoding htable.symm
    rw [hencoding]
    cbv
  -- There is a body, since the first table is not empty.
  have hshort : ∀ p, ([] ++ placed .runtime p history).length ≤ 65535 :=
    fun p => (length_placed_le .runtime p history).trans (by decide)
  have hall : ¬(table.visible.all fun s => s.count == 0) = true := by
    rw [ParameterTable.all_empty_iff hholds.visible hfail hshort]
    intro hnone
    exact absurd (hnone 0) (by decide)
  have hfinish : table.finish =
      .ok ⟨ParameterTable.body? table.visible, ParameterTable.body? table.invisible⟩ := by
    unfold ParameterTable.finish
    rw [hfail]
  obtain ⟨first, rest, -, hfirst⟩ := h [] 256 history table htable _ _ hfinish (.inl (if_neg hall))
  have hsize : table.visible.size = 256 := hholds.visible.size
  have hlt : first.toNat < 256 := first.toNat_lt
  omega

end AnnotationTarget
end ClassSynthesis
