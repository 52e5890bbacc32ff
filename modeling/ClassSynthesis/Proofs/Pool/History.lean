import Mathlib
import ClassSynthesis.Proofs.Pool.Adding

/-!
# ClassSynthesis.Proofs.Pool.History

Pools after a history of requests. A request that is refused may leave entries of its parts behind,
so the pool is followed through refusals as well.

* `after_representation`: how entries, look-up table and count of such a pool hang together.
* `add_meaning`: an index that was answered stands for its request, for no other request, and for
  the same entry for ever after.
-/

namespace ClassSynthesis
namespace ConstantPool

/-- The pool after a history of requests, answered or refused. -/
def after (pool : ConstantPool) (history : List Request) : ConstantPool :=
  history.foldl (fun pool r => (pool.add r).2) pool

theorem after_wf {pool : ConstantPool} (h : pool.Wf) (history : List Request) :
    (pool.after history).Wf := by
  induction history generalizing pool with
  | nil => exact h
  | cons r rs ih => exact ih (add_sound h r).wf

theorem extends_after {pool : ConstantPool} (h : pool.Wf) (history : List Request) :
    pool.Extends (pool.after history) := by
  induction history generalizing pool with
  | nil => exact .refl pool
  | cons r rs ih => exact (add_sound h r).grows.trans (ih (add_sound h r).wf)

/-! ## Representation -/

/-- How the parts of a pool hang together. -/
structure Representation (pool : ConstantPool) : Prop where
  first : ∀ e : UInt16 × Constant, pool.entries[0]? = some e → e.1 = 1
  adjacent : ∀ (k : Nat) (e f : UInt16 × Constant), pool.entries[k]? = some e →
    pool.entries[k + 1]? = some f → f.1.toNat = e.1.toNat + e.2.width.toNat
  count_empty : pool.entries = #[] → pool.count = 1
  /-- The sum is taken in the natural numbers, so the count has not wrapped around. -/
  count_last : ∀ e : UInt16 × Constant, pool.entries.back? = some e →
    pool.count.toNat = e.1.toNat + e.2.width.toNat
  distinct : ∀ (j k : Nat) (e f : UInt16 × Constant), pool.entries[j]? = some e →
    pool.entries[k]? = some f → e.2.bytes = f.2.bytes → j = k
  lookup : ∀ key i, pool.indices[key]? = some i ↔ ∃ c, (i, c) ∈ pool.entries ∧ c.bytes = key
  text : ∀ i s, (i, .utf8 s) ∈ pool.entries → (ModifiedUtf8.encode s).length ≤ 65535
  /-- An entry refers to entries that stand before it. -/
  references : ∀ (k : Nat) (e : UInt16 × Constant), pool.entries[k]? = some e →
    e.2.RefersInto (pool.entries.toList.take k)
  entry?_iff : ∀ i c, pool.entry? i = .ok c ↔ (i, c) ∈ pool.entries
  entry?_zero : pool.entry? 0 = .error (.invalidIndex 0)
  /-- The second index of a wide entry. -/
  entry?_second : ∀ i c, (i, c) ∈ pool.entries → c.width = 2 →
    pool.entry? (i + 1) = .error (.invalidIndex (i + 1))
  entry?_end : ∀ i, pool.count ≤ i → pool.entry? i = .error (.invalidIndex i)

theorem entry?_error {pool : ConstantPool} {i : UInt16} (h : ∀ c, pool.entry? i ≠ .ok c) :
    pool.entry? i = .error (.invalidIndex i) := by
  unfold entry? at h ⊢
  split
  · rename_i c he
    rw [he] at h
    exact absurd rfl (h c)
  · rfl

namespace Wf

variable {pool : ConstantPool}

theorem entry?_error_of_unused (h : pool.Wf) {i : UInt16}
    (hi : ∀ c, (i, c) ∈ pool.entries.toList → False) :
    pool.entry? i = .error (.invalidIndex i) :=
  entry?_error fun c hc => hi c (h.entry?_iff.mp hc)

theorem adjacent (h : pool.Wf) {k : Nat} {e f : UInt16 × Constant}
    (he : pool.entries.toList[k]? = some e) (hf : pool.entries.toList[k + 1]? = some f) :
    f.1.toNat = e.1.toNat + e.2.width.toNat := by
  refine (h.layout.at_ hf).1.getLast? ?_
  rw [List.getLast?_take, if_neg (by omega), Nat.add_sub_cancel, he]
  rfl

theorem distinct (h : pool.Wf) {j k : Nat} {e f : UInt16 × Constant}
    (he : pool.entries.toList[j]? = some e) (hf : pool.entries.toList[k]? = some f) (hjk : j < k) :
    e.2.bytes ≠ f.2.bytes := by
  intro hb
  have hm : e ∈ pool.entries.toList.take k := by
    rw [List.mem_take_iff_getElem]
    obtain ⟨hj, rfl⟩ := List.getElem?_eq_some_iff.mp he
    exact ⟨j, by omega, rfl⟩
  exact (h.layout.at_ hf).2.2.2 e hm (Constant.bytes_inj hb)

theorem representation (h : pool.Wf) : pool.Representation where
  first e he := by
    rw [← Array.getElem?_toList] at he
    exact UInt16.toNat_inj.mp ((h.layout.at_ he).1.eq_one (List.take_zero ..))
  adjacent k e f he hf := by
    rw [← Array.getElem?_toList] at he hf
    exact h.adjacent he hf
  count_empty he := UInt16.toNat_inj.mp (h.layout.eq_one (by rw [he]))
  count_last e he := h.layout.getLast? (by rw [Array.getLast?_toList]; exact he)
  distinct j k e f he hf hb := by
    rw [← Array.getElem?_toList] at he hf
    rcases Nat.lt_trichotomy j k with hlt | heq | hlt
    · exact absurd hb (h.distinct he hf hlt)
    · exact heq
    · exact absurd hb.symm (h.distinct hf he hlt)
  lookup key i := by
    simp only [← Array.mem_toList_iff]
    exact h.lookup key i
  text i s hm := h.layout.fits (Array.mem_toList_iff.mpr hm)
  references k e he := by
    rw [← Array.getElem?_toList] at he
    exact (h.layout.at_ he).2.2.1
  entry?_iff i c := by
    rw [← Array.mem_toList_iff]
    exact h.entry?_iff
  entry?_zero := by
    refine h.entry?_error_of_unused fun c hm => ?_
    have hb := (h.layout.bounds hm).1
    exact absurd hb (by decide)
  entry?_second i c hm hw := by
    -- An entry at the second index would share it with the wide entry.
    refine h.entry?_error_of_unused fun d hd => ?_
    have hm := Array.mem_toList_iff.mpr hm
    have hn := (h.layout.bounds hm).2
    have hlt := pool.next.toNat_lt
    have hi : (i + 1).toNat = i.toNat + 1 := by
      rw [hw] at hn
      rw [UInt16.toNat_add]
      exact Nat.mod_eq_of_lt (by simp at hn ⊢; omega)
    have hpos := d.width_pos
    rw [hw] at hn
    rcases h.layout.apart hm hd with heq | hle | hle
    · have hii := congrArg UInt16.toNat (Prod.mk.inj heq).1
      omega
    · rw [hw] at hle; simp at hle; omega
    · omega
  entry?_end i hi := by
    refine h.entry?_error_of_unused fun c hm => ?_
    have hb := (h.layout.bounds hm).2
    have hpos := c.width_pos
    have hle : pool.next.toNat ≤ i.toNat := UInt16.le_iff_toNat_le.mp hi
    omega

end Wf

theorem after_representation (history : List Request) : (empty.after history).Representation :=
  (after_wf empty_wf history).representation

/-! ## Meaning -/

theorem entry?_of_requestAt? {pool : ConstantPool} {i : UInt16} {r : Request}
    (hi : pool.requestAt? i = some r) : ∃ c, pool.entry? i = .ok c := by
  unfold requestAt? at hi
  cases he : pool.entry? i with
  | ok c => exact ⟨c, rfl⟩
  | error e => rw [he] at hi; cases hi

theorem add_meaning (history : List Request) (r : Request) (i : UInt16)
    (h : ((empty.after history).add r).1 = .ok i) :
    let pool := ((empty.after history).add r).2
    pool.requestAt? i = some r ∧
    (∀ later s j, ((pool.after later).add s).1 = .ok j → (i = j ↔ r = s)) ∧
    ∀ later, entry? (pool.after later) i = pool.entry? i ∧
      (pool.after later).requestAt? i = some r ∧
      (pool.after later).add r = (.ok i, pool.after later) := by
  intro pool
  have hs := add_sound (after_wf empty_wf history) r
  have hi : pool.requestAt? i = some r := hs.answered i h
  have hpool : pool.Wf := hs.wf
  refine ⟨hi, ?_, ?_⟩
  · -- Both indices are read in the pool after the second request.
    intro later s j hj
    have hlater := after_wf hpool later
    have hs' := add_sound hlater s
    have hjs := hs'.answered j hj
    have hir := ((extends_after hpool later).trans hs'.grows).requestAt? hi
    constructor
    · rintro rfl
      exact Option.some.inj (hir.symm.trans hjs)
    · rintro rfl
      have hadd := (add_of_requestAt? hs'.wf hir).symm.trans (add_of_requestAt? hs'.wf hjs)
      exact Except.ok.inj (Prod.mk.inj hadd).1
  · intro later
    have hx := extends_after hpool later
    obtain ⟨c, hc⟩ := entry?_of_requestAt? hi
    have hc' := hx.entry? hc
    exact ⟨hc'.trans hc.symm, hx.requestAt? hi,
      add_of_requestAt? (after_wf hpool later) (hx.requestAt? hi)⟩

/-- The wide number takes the indices 1 and 2, the method's parts those from 3 to 7. -/
theorem add_meaning_methodRef :
    let pool := ((empty.after [.number (.long 5)]).add (.methodRef "A" "f" "()V")).2
    pool.requestAt? 8 = some (.methodRef "A" "f" "()V") ∧
    (∀ later s j, ((pool.after later).add s).1 = .ok j →
      (8 = j ↔ Request.methodRef "A" "f" "()V" = s)) ∧
    ∀ later, entry? (pool.after later) 8 = pool.entry? 8 ∧
      (pool.after later).requestAt? 8 = some (.methodRef "A" "f" "()V") ∧
      (pool.after later).add (.methodRef "A" "f" "()V") = (.ok 8, pool.after later) :=
  add_meaning [.number (.long 5)] (.methodRef "A" "f" "()V") 8 (by cbv)

end ConstantPool
end ClassSynthesis
