import Mathlib
import ClassSynthesis.Proofs.Pool.Contents

/-!
# ClassSynthesis.Proofs.Pool.Reordering

The same requests in another order. Indices differ from one order to the other, and so does the
moment at which an entry is added, which may be for one request or for another that shares it.
Both runs are compared with a pool `q` that holds everything that is asked for: a pool whose
contents are among those of `q` has room for any of it, and its contents stay among those of `q`.

* `answered_of_subset`: requests that `q` holds are answered in any order.
* `after_perm`: the order of requests does not matter to the contents.
-/

namespace ClassSynthesis
namespace ConstantPool

/-- The pool answers each of the requests, one after another. -/
def Answered (pool : ConstantPool) : List Request → Prop
  | [] => True
  | r :: rs => (∃ i, (pool.add r).1 = .ok i) ∧ (pool.add r).2.Answered rs

theorem mem_contents_of_answered {pool : ConstantPool} (h : pool.Wf) {rs : List Request}
    (hrs : pool.Answered rs) {r : Request} (hr : r ∈ rs) : r ∈ (pool.after rs).contents := by
  induction rs generalizing pool with
  | nil => cases hr
  | cons s rs ih =>
    have hs := add_sound h s
    obtain ⟨⟨i, hi⟩, hrest⟩ := hrs
    rcases List.mem_cons.mp hr with rfl | hr
    · have hx := extends_after hs.wf rs
      exact (after_wf hs.wf rs).mem_contents.mpr ⟨i, hx.requestAt? (hs.answered i hi)⟩
    · exact ih hs.wf hrest hr

/-! ## Contents that grow -/

theorem Extends.contents_subset {p q : ConstantPool} (h : p.Extends q) (hp : p.Wf) (hq : q.Wf) :
    p.contents ⊆ q.contents := by
  intro r hr
  obtain ⟨i, hi⟩ := hp.mem_contents.mp hr
  exact hq.mem_contents.mpr ⟨i, h.requestAt? hi⟩

/-- One more entry, and the request that it satisfies. -/
theorem contents_append_subset {pool : ConstantPool} {c : Constant} {r : Request} (h : pool.Wf)
    (h' : (pool.append c).Wf) (hr : (pool.append c).requestAt? pool.next = some r) :
    (pool.append c).contents ⊆ insert r pool.contents := by
  intro s hs
  obtain ⟨i, hi⟩ := h'.mem_contents.mp hs
  obtain ⟨d, hd⟩ := entry?_of_requestAt? hi
  have hm : (i, d) ∈ pool.entries.toList ++ [(pool.next, c)] := by
    simpa [append] using h'.entry?_iff.mp hd
  rcases List.mem_append.mp hm with hm | hm
  · -- An entry from before stands for what it stood for.
    obtain ⟨t, ht⟩ := h.requestAt?_of_mem hm
    have hst := hi.symm.trans ((pool.extends_append c).requestAt? ht)
    rw [Option.some.inj hst]
    exact Finset.mem_insert_of_mem (h.mem_contents.mpr ⟨i, ht⟩)
  · obtain ⟨rfl, -⟩ := Prod.mk.inj (List.mem_singleton.mp hm)
    rw [Option.some.inj (hi.symm.trans hr)]
    exact Finset.mem_insert_self r _

theorem count_add_slots_le {p q : ConstantPool} (hp : p.Wf) (hq : q.Wf) {r : Request}
    (hpq : p.contents ⊆ q.contents) (hr : r ∈ q.contents) (hnew : r ∉ p.contents) :
    p.count.toNat + r.slots ≤ q.count.toNat := by
  have hsum : ∑ s ∈ insert r p.contents, s.slots ≤ ∑ s ∈ q.contents, s.slots :=
    Finset.sum_le_sum_of_subset (Finset.insert_subset hr hpq)
  rw [Finset.sum_insert hnew] at hsum
  rw [hp.count_eq_sum, hq.count_eq_sum]
  omega

/-! ## Requests within a pool -/

/-- An answer that is an index, given by a pool whose contents are among those of `q`. -/
structure Granted (q : ConstantPool) (a : Answer) : Prop where
  index : ∃ i, a.1 = .ok i
  subset : a.2.contents ⊆ q.contents

theorem Granted.andThen {p q : ConstantPool} {P : UInt16 → ConstantPool → Prop} {a : Answer}
    {f : UInt16 → ConstantPool → Answer} (h : Granted q a) (hs : Sound p P a)
    (hf : ∀ i p', p'.Wf → p.Extends p' → p'.contents ⊆ q.contents → P i p' → Granted q (f i p')) :
    Granted q (a.andThen f) := by
  obtain ⟨a, p'⟩ := a
  obtain ⟨i, rfl⟩ := h.index
  exact hf i p' hs.wf hs.grows h.subset (hs.answered i rfl)

section

variable {q : ConstantPool} (hq : q.Wf)
include hq

/-- The last entry of a request, when its parts are there. -/
theorem intern_granted {p : ConstantPool} (hp : p.Wf) (hpq : p.contents ⊆ q.contents)
    {r : Request} {c : Constant} (hadd : p.add r = p.intern c) (hslots : r.slots = c.width.toNat)
    (hr : r ∈ q.contents) : Granted q (p.intern c) := by
  have hs := add_sound hp r
  rw [hadd] at hs
  rcases p.intern_cases c with ⟨i, -, he⟩ | ⟨-, -, he⟩ | ⟨-, hfull, he⟩
  · rw [he]
    exact ⟨⟨i, rfl⟩, hpq⟩
  · rw [he] at hs ⊢
    refine ⟨⟨p.next, rfl⟩, ?_⟩
    refine (contents_append_subset hp hs.wf (hs.answered _ rfl)).trans ?_
    exact Finset.insert_subset hr hpq
  · -- The pool `q` has room for everything in `p` and for `r`.
    have hnew : r ∉ p.contents := by
      intro hold
      obtain ⟨i, hi⟩ := hp.mem_contents.mp hold
      rw [add_of_requestAt? hp hi, he] at hadd
      cases hadd
    have hle := count_add_slots_le hp hq hpq hr hnew
    have hlt := q.count.toNat_lt
    have hcount : p.count = p.next := rfl
    rw [hcount, hslots] at hle
    omega

variable {p : ConstantPool} (hp : p.Wf) (hpq : p.contents ⊆ q.contents)
include hp hpq

theorem addUtf8_granted {s : String} (hs : .utf8 s ∈ q.contents) : Granted q (p.addUtf8 s) := by
  obtain ⟨i, hi⟩ := hq.mem_contents.mp hs
  have hanswer := add_of_requestAt? hq hi
  have hfit : ModifiedUtf8.length s ≤ 65535 := by
    by_contra hlong
    simp [add, addUtf8, hlong] at hanswer
  have hadd : p.addUtf8 s = p.intern (.utf8 s) := if_pos hfit
  rw [hadd]
  exact intern_granted hq hp hpq (r := .utf8 s) hadd rfl hs

/-- An entry that is made of a text and nothing else. -/
theorem addTextual_granted {ref : UInt16 → Constant} {s : String} {r : Request}
    (hadd : ∀ p : ConstantPool,
      p.add r = (p.addUtf8 s).andThen fun i pool => pool.intern (ref i))
    (hslots : ∀ i, r.slots = (ref i).width.toNat) (hs : .utf8 s ∈ r.parts)
    (hr : r ∈ q.contents) : Granted q (p.add r) := by
  rw [hadd]
  refine (addUtf8_granted hq hp hpq (hq.mem_contents_of_mem_parts hr hs)).andThen
    (addUtf8_sound hp s) ?_
  intro i p' hp' _ hpq' hi
  refine intern_granted hq hp' hpq' ?_ (hslots i) hr
  rw [hadd, addUtf8_of_textAt? hp' hi]
  rfl

theorem addClassRef_granted {name : String} (hr : .classRef name ∈ q.contents) :
    Granted q (p.addClassRef name) :=
  addTextual_granted hq hp hpq (r := .classRef name) (fun _ => rfl) (fun _ => rfl)
    (List.mem_singleton_self _) hr

theorem addNameAndType_granted {name descriptor : String}
    (hr : .nameAndType name descriptor ∈ q.contents) :
    Granted q (p.addNameAndType name descriptor) := by
  have hparts : ∀ s ∈ [Request.utf8 name, .utf8 descriptor], s ∈ q.contents :=
    fun _ hs => hq.mem_contents_of_mem_parts hr hs
  refine (addUtf8_granted hq hp hpq (hparts _ (by simp))).andThen (addUtf8_sound hp name) ?_
  intro i p' hp' _ hpq' hi
  refine (addUtf8_granted hq hp' hpq' (hparts _ (by simp))).andThen
    (addUtf8_sound hp' descriptor) ?_
  intro j p'' hp'' hx hpq'' hj
  refine intern_granted hq hp'' hpq'' (r := .nameAndType name descriptor) ?_ rfl hr
  simp only [add, addNameAndType, addUtf8_of_textAt? hp'' (hx.textAt? hi),
    addUtf8_of_textAt? hp'' hj, Answer.andThen]

theorem addMemberRef_granted {ref : UInt16 → UInt16 → Constant} {owner name descriptor : String}
    {r : Request} (hadd : ∀ p : ConstantPool, p.add r = p.addMemberRef ref owner name descriptor)
    (hslots : ∀ i j, r.slots = (ref i j).width.toNat)
    (hparts : r.parts = [.classRef owner, .nameAndType name descriptor])
    (hr : r ∈ q.contents) : Granted q (p.add r) := by
  have hparts : ∀ s ∈ [Request.classRef owner, .nameAndType name descriptor], s ∈ q.contents :=
    fun _ hs => hq.mem_contents_of_mem_parts hr (hparts ▸ hs)
  rw [hadd]
  refine (addClassRef_granted hq hp hpq (hparts _ (by simp))).andThen
    (addClassRef_sound hp owner) ?_
  intro i p' hp' _ hpq' hi
  refine (addNameAndType_granted hq hp' hpq' (hparts _ (by simp))).andThen
    (addNameAndType_sound hp' name descriptor) ?_
  intro j p'' hp'' hx hpq'' hj
  refine intern_granted hq hp'' hpq'' ?_ (hslots i j) hr
  simp only [hadd, addMemberRef, addClassRef_of_classAt? hp'' (hx.classAt? hi),
    addNameAndType_of_signatureAt? hp'' hj, Answer.andThen]

/-- What `q` holds can be asked of a pool whose contents are among those of `q`. -/
theorem add_granted {r : Request} (hr : r ∈ q.contents) : Granted q (p.add r) := by
  cases r with
  | utf8 s => exact addUtf8_granted hq hp hpq hr
  | number n => exact intern_granted hq hp hpq (r := .number n) rfl rfl hr
  | classRef name => exact addClassRef_granted hq hp hpq hr
  | string s =>
    exact addTextual_granted hq hp hpq (fun _ => rfl) (fun _ => rfl) (List.mem_singleton_self _) hr
  | methodType d =>
    exact addTextual_granted hq hp hpq (fun _ => rfl) (fun _ => rfl) (List.mem_singleton_self _) hr
  | nameAndType name descriptor => exact addNameAndType_granted hq hp hpq hr
  | fieldRef owner name descriptor =>
    exact addMemberRef_granted hq hp hpq (fun _ => rfl) (fun _ _ => rfl) rfl hr
  | methodRef owner name descriptor =>
    exact addMemberRef_granted hq hp hpq (fun _ => rfl) (fun _ _ => rfl) rfl hr
  | interfaceMethodRef owner name descriptor =>
    exact addMemberRef_granted hq hp hpq (fun _ => rfl) (fun _ _ => rfl) rfl hr

end

/-- The run within `q`, by induction on the requests: each is granted, and leaves a pool within `q`
to the rest. -/
theorem answered_of_subset {p q : ConstantPool} (hp : p.Wf) (hq : q.Wf)
    (hpq : p.contents ⊆ q.contents) {rs : List Request} (hrs : ∀ r ∈ rs, r ∈ q.contents) :
    p.Answered rs ∧ (p.after rs).contents ⊆ q.contents := by
  induction rs generalizing p with
  | nil => exact ⟨trivial, hpq⟩
  | cons r rs ih =>
    have hr := add_granted hq hp hpq (hrs r List.mem_cons_self)
    obtain ⟨hrest, hsub⟩ := ih (add_sound hp r).wf hr.subset
      fun s hs => hrs s (List.mem_cons_of_mem r hs)
    exact ⟨⟨hr.index, hrest⟩, hsub⟩

/-! ## Order -/

/-- Whatever pool answers some requests answers the requests among them, and ends within what it
would hold after all of them. -/
theorem answered_of_answered {pool : ConstantPool} (h : pool.Wf) {rs ss : List Request}
    (hrs : pool.Answered rs) (hsub : ss ⊆ rs) :
    pool.Answered ss ∧ (pool.after ss).contents ⊆ (pool.after rs).contents := by
  have hafter := after_wf h rs
  refine answered_of_subset h hafter ((extends_after h rs).contents_subset h hafter) ?_
  intro r hr
  exact mem_contents_of_answered h hrs (hsub hr)

theorem after_perm (history : List Request) {rs ss : List Request} (hperm : rs.Perm ss)
    (h : (empty.after history).Answered rs) :
    let pool := empty.after history
    pool.Answered ss ∧ (pool.after ss).count = (pool.after rs).count ∧
    (∀ r, (∃ i, (pool.after ss).requestAt? i = some r) ↔
      ∃ i, (pool.after rs).requestAt? i = some r) ∧
    (pool.after ss).bytes.size = (pool.after rs).bytes.size := by
  intro pool
  have hpool : pool.Wf := after_wf empty_wf history
  have hr := after_wf hpool rs
  have hs := after_wf hpool ss
  obtain ⟨hss, hsr⟩ := answered_of_answered hpool h hperm.symm.subset
  obtain ⟨-, hrs⟩ := answered_of_answered hpool hss hperm.subset
  have heq := hsr.antisymm hrs
  refine ⟨hss, ?_, ?_, ?_⟩
  · apply UInt16.toNat_inj.mp
    rw [hs.count_eq_sum, hr.count_eq_sum, heq]
  · intro r
    rw [← hs.mem_contents, ← hr.mem_contents, heq]
  · rw [hs.size_bytes_eq_sum, hr.size_bytes_eq_sum, heq]

/-- One order adds the owner first and the other the signature, so that the indices differ, and with
them the bytes. -/
theorem after_perm_shared :
    let pool := empty.after [.number (.long 5)]
    let rs := [Request.methodRef "A" "f" "()V", .nameAndType "f" "()V"]
    let ss := [Request.nameAndType "f" "()V", .methodRef "A" "f" "()V"]
    rs.Perm ss ∧ pool.Answered rs ∧ (pool.after ss).bytes ≠ (pool.after rs).bytes ∧
    pool.Answered ss ∧ (pool.after ss).count = (pool.after rs).count ∧
    (∀ r, (∃ i, (pool.after ss).requestAt? i = some r) ↔
      ∃ i, (pool.after rs).requestAt? i = some r) ∧
    (pool.after ss).bytes.size = (pool.after rs).bytes.size := by
  have h : (empty.after [.number (.long 5)]).Answered
      [.methodRef "A" "f" "()V", .nameAndType "f" "()V"] :=
    ⟨⟨8, by cbv⟩, ⟨7, by cbv⟩, trivial⟩
  refine ⟨.swap _ _ [], h, ?_, after_perm [.number (.long 5)] (.swap _ _ []) h⟩
  cbv
  decide

end ConstantPool
end ClassSynthesis
