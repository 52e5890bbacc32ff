import Mathlib
import ClassSynthesis.Proofs.Pool.Parser

/-!
# ClassSynthesis.Proofs.Pool.Contents

What a pool holds, apart from the indices: the set of the requests that its entries satisfy. Every
entry satisfies exactly one request, and no two entries the same one, so that whatever is summed up
over the entries may be summed up over the contents.

* `mem_contents_of_mem_parts`: with a request, the pool holds what its entry is made of.
* `count_eq_sum`, `size_bytes_eq_sum`: the contents determine the count of a pool and the number of
  its bytes, although the bytes themselves contain indices.
-/

namespace ClassSynthesis

/-! ## The entry of a request -/

namespace Request

/-- Indices that the entry takes, without those of its parts. -/
def slots : Request → Nat
  | .number n => (Constant.number n).width.toNat
  | _ => 1

/-- Bytes of the entry, without those of its parts. -/
def size : Request → Nat
  | .utf8 s => (Constant.utf8 s).bytes.length
  | .number n => (Constant.number n).bytes.length
  | .classRef _ | .string _ | .methodType _ => 3
  | .nameAndType .. | .fieldRef .. | .methodRef .. | .interfaceMethodRef .. => 5

/-- The requests whose indices are in the entry. -/
def parts : Request → List Request
  | .utf8 _ | .number _ => []
  | .classRef s | .string s | .methodType s => [.utf8 s]
  | .nameAndType name descriptor => [.utf8 name, .utf8 descriptor]
  | .fieldRef owner name descriptor | .methodRef owner name descriptor
  | .interfaceMethodRef owner name descriptor =>
    [.classRef owner, .nameAndType name descriptor]

end Request

/-! ## Layouts -/

theorem Constant.RefersInto.mono {c : Constant} {xs es : List (UInt16 × Constant)}
    (h : c.RefersInto xs) (hsub : xs ⊆ es) : c.RefersInto es := by
  rcases c with s | n | i | i | ⟨i, j⟩ | ⟨i, j⟩ | ⟨i, j⟩ | ⟨i, j⟩ | i
  case utf8 | number => trivial
  case classRef | string | methodType =>
    obtain ⟨s, hs⟩ := h
    exact ⟨s, hsub hs⟩
  case nameAndType =>
    obtain ⟨⟨s, hs⟩, t, ht⟩ := h
    exact ⟨⟨s, hsub hs⟩, t, hsub ht⟩
  case fieldRef | methodRef | interfaceMethodRef =>
    obtain ⟨⟨k, hk⟩, l, m, hl⟩ := h
    exact ⟨⟨k, hsub hk⟩, l, m, hsub hl⟩

namespace Layout

variable {es : List (UInt16 × Constant)} {n : Nat}

theorem refersInto (h : Layout es n) {e : UInt16 × Constant} (hm : e ∈ es) :
    e.2.RefersInto es := by
  obtain ⟨xs, ys, he⟩ := List.append_of_mem hm
  refine (h.split he).2.2.1.mono ?_
  rw [he]
  exact List.subset_append_left ..

theorem nodup_indices (h : Layout es n) : (es.map Prod.fst).Nodup := by
  induction h with
  | nil => exact List.nodup_nil
  | @snoc es i c hes _ _ _ ih =>
    rw [List.map_append, List.map_singleton, List.nodup_append]
    refine ⟨ih, List.nodup_singleton i, ?_⟩
    intro j hj k hk hjk
    obtain ⟨e, he, rfl⟩ := List.mem_map.mp hj
    have hb := (hes.bounds he).2
    have hpos := e.2.width_pos
    have hki : k = i := List.mem_singleton.mp hk
    rw [hjk, hki] at hb
    omega

theorem eq_sum_width (h : Layout es n) : n = 1 + (es.map fun e => e.2.width.toNat).sum := by
  induction h with
  | nil => rfl
  | snoc _ _ _ _ ih => simp [ih, Nat.add_assoc]

end Layout

namespace ConstantPool

/-! ## Every entry satisfies a request -/

namespace Wf

variable {pool : ConstantPool} (h : pool.Wf)
include h

theorem textAt?_of_mem {i : UInt16} {s : String} (hm : (i, .utf8 s) ∈ pool.entries.toList) :
    pool.textAt? i = some s := by
  simp [textAt?, h.entry?_iff.mpr hm]

theorem textsAt?_of_mem {i j : UInt16} (hi : ∃ s, (i, .utf8 s) ∈ pool.entries.toList)
    (hj : ∃ s, (j, .utf8 s) ∈ pool.entries.toList) : ∃ s, pool.textsAt? i j = some s := by
  obtain ⟨s, hs⟩ := hi
  obtain ⟨t, ht⟩ := hj
  exact ⟨(s, t), by simp [textsAt?, h.textAt?_of_mem hs, h.textAt?_of_mem ht]⟩

theorem classAt?_of_mem {i j : UInt16} (hm : (i, .classRef j) ∈ pool.entries.toList) :
    ∃ s, pool.classAt? i = some s := by
  obtain ⟨s, hs⟩ := h.layout.refersInto hm
  exact ⟨s, by simp [classAt?, h.entry?_iff.mpr hm, h.textAt?_of_mem hs]⟩

theorem signatureAt?_of_mem {i j k : UInt16} (hm : (i, .nameAndType j k) ∈ pool.entries.toList) :
    ∃ s, pool.signatureAt? i = some s := by
  have href := h.layout.refersInto hm
  obtain ⟨s, hs⟩ := h.textsAt?_of_mem href.1 href.2
  exact ⟨s, by simp [signatureAt?, h.entry?_iff.mpr hm, hs]⟩

theorem memberAt?_of_mem {ref : String → String → String → Request} {i j : UInt16}
    (hi : ∃ k, (i, .classRef k) ∈ pool.entries.toList)
    (hj : ∃ k l, (j, .nameAndType k l) ∈ pool.entries.toList) :
    ∃ r, pool.memberAt? ref i j = some r := by
  obtain ⟨k, hk⟩ := hi
  obtain ⟨l, m, hl⟩ := hj
  obtain ⟨owner, howner⟩ := h.classAt?_of_mem hk
  obtain ⟨⟨name, descriptor⟩, hsignature⟩ := h.signatureAt?_of_mem hl
  exact ⟨ref owner name descriptor, by simp [memberAt?, howner, hsignature]⟩

theorem requestAt?_of_mem {i : UInt16} {c : Constant} (hm : (i, c) ∈ pool.entries.toList) :
    ∃ r, pool.requestAt? i = some r := by
  have href := h.layout.refersInto hm
  unfold requestAt?
  rw [h.entry?_iff.mpr hm]
  rcases c with s | n | j | j | ⟨j, k⟩ | ⟨j, k⟩ | ⟨j, k⟩ | ⟨j, k⟩ | j
  case utf8 => exact ⟨.utf8 s, rfl⟩
  case number => exact ⟨.number n, rfl⟩
  case classRef | string | methodType =>
    obtain ⟨s, hs⟩ := href
    exact ⟨_, Option.map_eq_some_iff.mpr ⟨s, h.textAt?_of_mem hs, rfl⟩⟩
  case nameAndType =>
    obtain ⟨s, hs⟩ := h.textsAt?_of_mem href.1 href.2
    exact ⟨_, Option.map_eq_some_iff.mpr ⟨s, hs, rfl⟩⟩
  case fieldRef | methodRef | interfaceMethodRef => exact h.memberAt?_of_mem href.1 href.2

/-- Requests that are satisfied are satisfied at one index only. -/
theorem requestAt?_inj {i j : UInt16} {r : Request} (hi : pool.requestAt? i = some r)
    (hj : pool.requestAt? j = some r) : i = j := by
  have hadd := (add_of_requestAt? h hi).symm.trans (add_of_requestAt? h hj)
  exact Except.ok.inj (Prod.mk.inj hadd).1

end Wf

/-- Slots and size of a request are those of its entry. -/
theorem measures_of_requestAt? {pool : ConstantPool} {i : UInt16} {c : Constant} {r : Request}
    (hc : pool.entry? i = .ok c) (hr : pool.requestAt? i = some r) :
    r.slots = c.width.toNat ∧ r.size = c.bytes.length := by
  unfold requestAt? at hr
  rw [hc] at hr
  rcases c with s | n | j | j | ⟨j, k⟩ | ⟨j, k⟩ | ⟨j, k⟩ | ⟨j, k⟩ | j
  case utf8 =>
    cases hr
    exact ⟨rfl, rfl⟩
  case number =>
    cases hr
    exact ⟨rfl, rfl⟩
  case classRef | string | methodType | nameAndType =>
    obtain ⟨s, -, rfl⟩ := Option.map_eq_some_iff.mp hr
    exact ⟨rfl, rfl⟩
  case fieldRef | methodRef | interfaceMethodRef =>
    obtain ⟨_, _, _, -, -, rfl⟩ := parts_of_memberAt? hr
    exact ⟨rfl, rfl⟩

/-! ## Contents -/

/-- The requests that the entries satisfy, in index order. -/
def requests (pool : ConstantPool) : List Request :=
  (pool.entries.toList.map Prod.fst).filterMap pool.requestAt?

def contents (pool : ConstantPool) : Finset Request := pool.requests.toFinset

namespace Wf

variable {pool : ConstantPool} (h : pool.Wf)
include h

theorem mem_contents {r : Request} : r ∈ pool.contents ↔ ∃ i, pool.requestAt? i = some r := by
  simp only [contents, requests, List.mem_toFinset, List.mem_filterMap]
  constructor
  · rintro ⟨i, -, hi⟩
    exact ⟨i, hi⟩
  · rintro ⟨i, hi⟩
    obtain ⟨c, hc⟩ := entry?_of_requestAt? hi
    exact ⟨i, List.mem_map_of_mem (h.entry?_iff.mp hc), hi⟩

theorem nodup_requests : pool.requests.Nodup :=
  h.layout.nodup_indices.filterMap fun _ _ _ hi hj => h.requestAt?_inj hi hj

/-- A measure of entries that the requests determine may be summed up over the contents. -/
theorem sum_contents {measure : Request → Nat} {size : Constant → Nat}
    (heq : ∀ i c r, pool.entry? i = .ok c → pool.requestAt? i = some r → measure r = size c) :
    ∑ r ∈ pool.contents, measure r = (pool.entries.toList.map fun e => size e.2).sum := by
  have hsum : ∀ es ⊆ pool.entries.toList,
      (((es.map Prod.fst).filterMap pool.requestAt?).map measure).sum =
        (es.map fun e => size e.2).sum := by
    intro es
    induction es with
    | nil => simp
    | cons e es ih =>
      intro hsub
      obtain ⟨hm, hes⟩ := List.cons_subset.mp hsub
      obtain ⟨r, hr⟩ := h.requestAt?_of_mem hm
      rw [List.map_cons, List.filterMap_cons_some hr, List.map_cons, List.sum_cons, ih hes,
        heq _ _ _ (h.entry?_iff.mpr hm) hr, List.map_cons, List.sum_cons]
  rw [contents, List.sum_toFinset _ h.nodup_requests]
  exact hsum _ (List.Subset.refl _)

theorem count_eq_sum : pool.count.toNat = 1 + ∑ r ∈ pool.contents, r.slots := by
  rw [h.sum_contents fun _ _ _ hc hr => (measures_of_requestAt? hc hr).1]
  exact h.layout.eq_sum_width

theorem size_bytes_eq_sum : pool.bytes.size = 2 + ∑ r ∈ pool.contents, r.size := by
  rw [h.sum_contents fun _ _ _ hc hr => (measures_of_requestAt? hc hr).2, ← Array.length_toList,
    toList_bytes, List.length_append, length_u2, List.length_flatMap]

/-- With a request, the pool holds what its entry is made of. -/
theorem mem_contents_of_mem_parts {r s : Request} (hr : r ∈ pool.contents) (hs : s ∈ r.parts) :
    s ∈ pool.contents := by
  obtain ⟨i, hi⟩ := h.mem_contents.mp hr
  refine h.mem_contents.mpr ?_
  unfold requestAt? at hi
  split at hi
  case h_1 | h_2 =>
    cases hi
    cases hs
  case h_3 j _ | h_4 j _ | h_5 j _ =>
    obtain ⟨t, ht, rfl⟩ := Option.map_eq_some_iff.mp hi
    rw [List.mem_singleton.mp hs]
    exact ⟨j, requestAt?_utf8 ht⟩
  case h_6 j k _ =>
    obtain ⟨⟨name, descriptor⟩, ht, rfl⟩ := Option.map_eq_some_iff.mp hi
    obtain ⟨hj, hk⟩ := textAt?_of_textsAt? ht
    rcases List.mem_pair.mp hs with rfl | rfl
    · exact ⟨j, requestAt?_utf8 hj⟩
    · exact ⟨k, requestAt?_utf8 hk⟩
  case h_7 j k _ | h_8 j k _ | h_9 j k _ =>
    obtain ⟨owner, name, descriptor, hj, hk, rfl⟩ := parts_of_memberAt? hi
    rcases List.mem_pair.mp hs with rfl | rfl
    · exact ⟨j, requestAt?_classRef hj⟩
    · exact ⟨k, requestAt?_nameAndType hk⟩
  case h_10 => cases hi

end Wf

end ConstantPool
end ClassSynthesis
