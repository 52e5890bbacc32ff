import Mathlib
import ClassSynthesis.Proofs.Pool.Reordering

/-!
# ClassSynthesis.Proofs.Pool.Capacity

Which requests a pool answers, and what those leave behind that it refuses. A request comes to
adding its entries one after another, its own last (`add_eq_addEach`). When the parts of an entry
are there, the entry is there too, or is appended, or is refused and nothing changes (`Added`).
Adding a list of entries stops at the first that is refused (`Outcome`).

* `add_capacity`: a request is answered exactly if its texts fit and there is room for the entries
  that the pool does not have. A refused request leaves nothing but parts of its own behind, and
  is refused again in the same way.
-/

namespace ClassSynthesis

namespace Request

/-- The texts that have to be in the pool for the request. -/
def texts : Request → List String
  | .number _ => []
  | .utf8 s | .classRef s | .string s | .methodType s => [s]
  | .nameAndType name descriptor => [name, descriptor]
  | .fieldRef owner name descriptor | .methodRef owner name descriptor
  | .interfaceMethodRef owner name descriptor => [owner, name, descriptor]

/-- The byte count before a text is a `u2`. -/
def TextsFit (r : Request) : Prop := ∀ s ∈ r.texts, (ModifiedUtf8.encode s).length ≤ 65535

instance (r : Request) : Decidable r.TextsFit := inferInstanceAs (Decidable (∀ s ∈ r.texts, _))

/-- The parts of a request at any depth, in the order in which they are added. -/
def components (r : Request) : List Request := r.parts.flatMap fun p => p.parts ++ [p]

/-- All entries of a request in the order in which they are added. -/
def entries (r : Request) : List Request := r.components ++ [r]

theorem texts_subset {r p : Request} (hp : p ∈ r.parts) : p.texts ⊆ r.texts := by
  cases r with
  | utf8 | number => cases hp
  | classRef | string | methodType =>
    rw [List.mem_singleton.mp hp]
    exact List.Subset.refl _
  | nameAndType | fieldRef | methodRef | interfaceMethodRef =>
    rcases List.mem_pair.mp hp with rfl | rfl <;> simp [texts]

theorem mem_entries {r s : Request} :
    s ∈ r.entries ↔ (∃ p ∈ r.parts, s ∈ p.parts ∨ s = p) ∨ s = r := by
  simp [entries, components]

/-- What holds of a request and passes from requests to their parts holds of all its entries. -/
theorem entries_induction {P : Request → Prop} (step : ∀ r, P r → ∀ p ∈ r.parts, P p)
    {r s : Request} (hr : P r) (hs : s ∈ r.entries) : P s := by
  rcases mem_entries.mp hs with ⟨p, hp, hsp | rfl⟩ | rfl
  · exact step p (step r hr p hp) s hsp
  · exact step r hr s hp
  · exact hr

theorem TextsFit.entries {r s : Request} (h : r.TextsFit) (hs : s ∈ r.entries) : s.TextsFit :=
  entries_induction (fun _ hr _ hp t ht => hr t (texts_subset hp ht)) h hs

theorem utf8_mem_entries {r : Request} {s : String} (hs : s ∈ r.texts) : .utf8 s ∈ r.entries := by
  cases r <;> simp_all [texts, mem_entries, parts]

/-- A text of a request is the request itself or a text of one of its parts. -/
theorem mem_texts {r : Request} {s : String} (hs : s ∈ r.texts) :
    r = .utf8 s ∨ ∃ p ∈ r.parts, s ∈ p.texts := by
  cases r <;> simp_all [texts, parts]

end Request

namespace ConstantPool

/-! ## Requests whose parts are there -/

/-- A request whose parts are there is there as well, or its entry is put at the end, or it is
refused. -/
inductive Added (pool : ConstantPool) (r : Request) : Answer → Prop where
  | known {i : UInt16} (hr : r ∈ pool.contents) : Added pool r (.ok i, pool)
  | appended {c : Constant} (hr : r ∉ pool.contents) (fit : r.TextsFit)
      (room : pool.count.toNat + r.slots ≤ 65535) : Added pool r (.ok pool.next, pool.append c)
  | refused {e : PoolError} (hr : r ∉ pool.contents)
      (why : r.TextsFit → 65535 < pool.count.toNat + r.slots) : Added pool r (.error e, pool)

theorem add_utf8_of_long (pool : ConstantPool) {s : String}
    (hs : ¬(ModifiedUtf8.encode s).length ≤ 65535) :
    pool.add (.utf8 s) = (.error (.textTooLong (ModifiedUtf8.encode s).length), pool) := by
  simp only [add, addUtf8, ModifiedUtf8.length_eq, if_neg hs]

section

variable {pool : ConstantPool} (h : pool.Wf)
include h

theorem add_of_mem {r : Request} (hr : r ∈ pool.contents) : ∃ i, pool.add r = (.ok i, pool) := by
  obtain ⟨i, hi⟩ := h.mem_contents.mp hr
  exact ⟨i, add_of_requestAt? h hi⟩

theorem mem_contents_of_add {r : Request} {i : UInt16} (hi : pool.add r = (.ok i, pool)) :
    r ∈ pool.contents := by
  have hs := add_sound h r
  rw [hi] at hs
  exact h.mem_contents.mpr ⟨i, hs.answered i rfl⟩

theorem mem_contents_of_mem_entries {r s : Request} (hr : r ∈ pool.contents)
    (hs : s ∈ r.entries) : s ∈ pool.contents :=
  Request.entries_induction (fun _ hr _ hp => h.mem_contents_of_mem_parts hr hp) hr hs

theorem textsFit_of_mem {r : Request} (hr : r ∈ pool.contents) : r.TextsFit := by
  intro s hs
  have hmem := mem_contents_of_mem_entries h hr (Request.utf8_mem_entries hs)
  by_contra hlong
  obtain ⟨i, hi⟩ := add_of_mem h hmem
  rw [add_utf8_of_long pool hlong] at hi
  cases hi

theorem addTextual_of_mem (ref : UInt16 → Constant) {s : String} (hs : .utf8 s ∈ pool.contents) :
    ∃ i, (pool.addUtf8 s).andThen (fun i pool => pool.intern (ref i)) = pool.intern (ref i) := by
  obtain ⟨i, hi⟩ : ∃ i, pool.addUtf8 s = (.ok i, pool) := add_of_mem h hs
  exact ⟨i, by rw [hi, Answer.andThen]⟩

theorem addNameAndType_of_mem {name descriptor : String} (hn : .utf8 name ∈ pool.contents)
    (hd : .utf8 descriptor ∈ pool.contents) :
    ∃ i j, pool.addNameAndType name descriptor = pool.intern (.nameAndType i j) := by
  obtain ⟨i, hi⟩ : ∃ i, pool.addUtf8 name = (.ok i, pool) := add_of_mem h hn
  obtain ⟨j, hj⟩ : ∃ j, pool.addUtf8 descriptor = (.ok j, pool) := add_of_mem h hd
  exact ⟨i, j, by simp only [addNameAndType, hi, hj, Answer.andThen]⟩

theorem addMemberRef_of_mem (ref : UInt16 → UInt16 → Constant) {owner name descriptor : String}
    (ho : .classRef owner ∈ pool.contents) (hs : .nameAndType name descriptor ∈ pool.contents) :
    ∃ i j, pool.addMemberRef ref owner name descriptor = pool.intern (ref i j) := by
  obtain ⟨i, hi⟩ : ∃ i, pool.addClassRef owner = (.ok i, pool) := add_of_mem h ho
  obtain ⟨j, hj⟩ : ∃ j, pool.addNameAndType name descriptor = (.ok j, pool) := add_of_mem h hs
  exact ⟨i, j, by simp only [addMemberRef, hi, hj, Answer.andThen]⟩

/-- When its parts are there, all that is left of a request is its own entry. -/
theorem add_eq_intern {r : Request} (hparts : ∀ p ∈ r.parts, p ∈ pool.contents)
    (hfit : r.TextsFit) : ∃ c, pool.add r = pool.intern c ∧ r.slots = c.width.toNat := by
  cases r with
  | utf8 s =>
    refine ⟨.utf8 s, ?_, rfl⟩
    simp only [add, addUtf8, ModifiedUtf8.length_eq, if_pos (hfit s (.head _))]
  | number n => exact ⟨.number n, rfl, rfl⟩
  | classRef s =>
    obtain ⟨i, hi⟩ := addTextual_of_mem h .classRef (hparts _ (.head _))
    exact ⟨_, hi, rfl⟩
  | string s =>
    obtain ⟨i, hi⟩ := addTextual_of_mem h .string (hparts _ (.head _))
    exact ⟨_, hi, rfl⟩
  | methodType s =>
    obtain ⟨i, hi⟩ := addTextual_of_mem h .methodType (hparts _ (.head _))
    exact ⟨_, hi, rfl⟩
  | nameAndType name descriptor =>
    obtain ⟨i, j, hij⟩ :=
      addNameAndType_of_mem h (hparts _ (.head _)) (hparts _ (.tail _ (.head _)))
    exact ⟨_, hij, rfl⟩
  | fieldRef owner name descriptor =>
    obtain ⟨i, j, hij⟩ :=
      addMemberRef_of_mem h .fieldRef (hparts _ (.head _)) (hparts _ (.tail _ (.head _)))
    exact ⟨_, hij, rfl⟩
  | methodRef owner name descriptor =>
    obtain ⟨i, j, hij⟩ :=
      addMemberRef_of_mem h .methodRef (hparts _ (.head _)) (hparts _ (.tail _ (.head _)))
    exact ⟨_, hij, rfl⟩
  | interfaceMethodRef owner name descriptor =>
    obtain ⟨i, j, hij⟩ :=
      addMemberRef_of_mem h .interfaceMethodRef (hparts _ (.head _)) (hparts _ (.tail _ (.head _)))
    exact ⟨_, hij, rfl⟩

theorem add_added {r : Request} (hparts : ∀ p ∈ r.parts, p ∈ pool.contents) :
    Added pool r (pool.add r) := by
  by_cases hr : r ∈ pool.contents
  · obtain ⟨i, hi⟩ := add_of_mem h hr
    rw [hi]
    exact .known hr
  by_cases hfit : r.TextsFit
  · obtain ⟨c, hc, hslots⟩ := add_eq_intern h hparts hfit
    rcases pool.intern_cases c with ⟨i, -, he⟩ | ⟨-, hroom, he⟩ | ⟨-, hfull, he⟩
    · exact absurd (mem_contents_of_add h (hc.trans he)) hr
    · rw [hc, he]
      exact .appended hr hfit (hslots ▸ hroom)
    · rw [hc, he]
      exact .refused hr fun _ => hslots ▸ hfull
  · -- The texts of parts that are there fit, so the request is a text itself.
    obtain ⟨s, hs, hlong⟩ : ∃ s ∈ r.texts, ¬(ModifiedUtf8.encode s).length ≤ 65535 := by
      simpa [Request.TextsFit] using hfit
    rcases Request.mem_texts hs with rfl | ⟨p, hp, hsp⟩
    · rw [add_utf8_of_long pool hlong]
      exact .refused hr fun hfit => absurd (hfit s hs) hlong
    · exact absurd (textsFit_of_mem h (hparts p hp) s hsp) hlong

/-- The contents grow by the request that an entry is put at the end for. -/
theorem contents_of_add {r : Request} {i : UInt16} {c : Constant}
    (ha : pool.add r = (.ok i, pool.append c)) (hi : i = pool.next) :
    (pool.append c).Wf ∧ (pool.append c).contents = insert r pool.contents := by
  have hs := add_sound h r
  rw [ha] at hs
  have hr := hs.answered i rfl
  refine ⟨hs.wf, (contents_append_subset h hs.wf (hi ▸ hr)).antisymm ?_⟩
  exact Finset.insert_subset (hs.wf.mem_contents.mpr ⟨i, hr⟩) (hs.grows.contents_subset h hs.wf)

end

/-! ## Entry after entry -/

/-- The requests one after another, up to the first that is refused. The answer is that to the last
one, or `i` if there is none. -/
def addEach (i : UInt16) : List Request → ConstantPool → Answer
  | [], pool => (.ok i, pool)
  | r :: rs, pool => (pool.add r).andThen fun j pool => addEach j rs pool

/-- Every request comes after its parts, unless these are known. -/
def PartsFirst (known : Finset Request) : List Request → Prop
  | [] => True
  | r :: rs => (∀ p ∈ r.parts, p ∈ known) ∧ PartsFirst (insert r known) rs

theorem partsFirst_entries (known : Finset Request) (r : Request) : PartsFirst known r.entries := by
  cases r <;> simp [Request.entries, Request.components, Request.parts, PartsFirst]

/-- How adding a list of entries ends. -/
inductive Outcome (pool : ConstantPool) (rs : List Request) : Answer → Prop where
  | answered {i : UInt16} {p : ConstantPool} (wf : p.Wf)
      (contents : p.contents = pool.contents ∪ rs.toFinset) (fit : ∀ r ∈ rs, r.TextsFit) :
      Outcome pool rs (.ok i, p)
  | refused {e : PoolError} {p : ConstantPool} {xs ys : List Request} {r : Request}
      (split : rs = xs ++ r :: ys) (wf : p.Wf) (grows : pool.Extends p)
      (contents : p.contents = pool.contents ∪ xs.toFinset) (hr : r ∉ p.contents)
      (why : r.TextsFit → 65535 < p.count.toNat + r.slots) (again : p.add r = (.error e, p)) :
      Outcome pool rs (.error e, p)

/-- One request more at the front. -/
theorem Outcome.cons {pool p : ConstantPool} {r : Request} {rs : List Request} {a : Answer}
    (h : Outcome p rs a) (grows : pool.Extends p) (hp : p.contents = insert r pool.contents)
    (hr : r.TextsFit) : Outcome pool (r :: rs) a := by
  cases h with
  | answered wf contents fit =>
    refine .answered wf ?_ (List.forall_mem_cons.mpr ⟨hr, fit⟩)
    rw [contents, hp, List.toFinset_cons, Finset.insert_union, Finset.union_insert]
  | @refused e q xs ys s split wf grows' contents hs why again =>
    have hsplit : r :: rs = (r :: xs) ++ s :: ys := by rw [split, List.cons_append]
    refine .refused hsplit wf (grows.trans grows') ?_ hs why again
    rw [contents, hp, List.toFinset_cons, Finset.insert_union, Finset.union_insert]

theorem addEach_outcome {pool : ConstantPool} (h : pool.Wf) {rs : List Request} (i : UInt16)
    (hrs : PartsFirst pool.contents rs) : Outcome pool rs (addEach i rs pool) := by
  induction rs generalizing pool i with
  | nil => exact .answered h (by simp) (by simp)
  | cons r rs ih =>
    obtain ⟨hparts, hrest⟩ := hrs
    have hadded := add_added h hparts
    rw [addEach]
    generalize ha : pool.add r = a at hadded
    cases hadded with
    | @known j hr =>
      have heq : insert r pool.contents = pool.contents := Finset.insert_eq_of_mem hr
      exact (ih h j (heq ▸ hrest)).cons (.refl pool) heq.symm (textsFit_of_mem h hr)
    | @appended c hr fit room =>
      obtain ⟨hwf, hc⟩ := contents_of_add h ha rfl
      exact (ih hwf pool.next (hc ▸ hrest)).cons (pool.extends_append c) hc fit
    | refused hr why =>
      have hsplit : r :: rs = [] ++ r :: rs := rfl
      exact .refused hsplit h (.refl pool) (by simp) hr why ha

/-! ## A request as its entries -/

theorem Answer.andThen_assoc (a : Answer) (f g : UInt16 → ConstantPool → Answer) :
    (a.andThen f).andThen g = a.andThen fun i pool => (f i pool).andThen g := by
  obtain ⟨_ | i, pool⟩ := a <;> rfl

theorem Answer.andThen_ok (a : Answer) : (a.andThen fun i pool => (.ok i, pool)) = a := by
  obtain ⟨_ | i, pool⟩ := a <;> rfl

theorem addEach_singleton (i : UInt16) (r : Request) (pool : ConstantPool) :
    addEach i [r] pool = pool.add r := (pool.add r).andThen_ok

/-- What follows an answer may make use of what the answer means. -/
theorem Sound.andThen_congr {pool : ConstantPool} {P : UInt16 → ConstantPool → Prop} {a : Answer}
    {f g : UInt16 → ConstantPool → Answer} (h : Sound pool P a)
    (hfg : ∀ i p, p.Wf → pool.Extends p → P i p → f i p = g i p) : a.andThen f = a.andThen g := by
  obtain ⟨_ | i, p⟩ := a
  · rfl
  · exact hfg i p h.wf h.grows (h.answered i rfl)

section

variable {pool : ConstantPool} (h : pool.Wf)
include h

theorem addTextual_eq {ref : UInt16 → Constant} {s : String} {r : Request}
    (hadd : ∀ p : ConstantPool,
      p.add r = (p.addUtf8 s).andThen fun i pool => pool.intern (ref i)) :
    pool.add r = (pool.addUtf8 s).andThen fun _ p => p.add r := by
  rw [hadd]
  refine (addUtf8_sound h s).andThen_congr fun i p hp _ hi => ?_
  rw [hadd, addUtf8_of_textAt? hp hi, Answer.andThen]

theorem addNameAndType_eq (name descriptor : String) :
    pool.addNameAndType name descriptor = (pool.addUtf8 name).andThen fun _ p =>
      (p.addUtf8 descriptor).andThen fun _ p => p.addNameAndType name descriptor := by
  refine (addUtf8_sound h name).andThen_congr fun i p hp _ hi => ?_
  refine (addUtf8_sound hp descriptor).andThen_congr fun j q hq hx hj => ?_
  simp only [addNameAndType, addUtf8_of_textAt? hq (hx.textAt? hi), addUtf8_of_textAt? hq hj,
    Answer.andThen]

theorem addMemberRef_eq {ref : UInt16 → UInt16 → Constant} {owner name descriptor : String}
    {r : Request}
    (hadd : ∀ p : ConstantPool, p.add r = p.addMemberRef ref owner name descriptor) :
    pool.add r = (pool.addUtf8 owner).andThen fun _ p => (p.addClassRef owner).andThen fun _ p =>
      (p.addUtf8 name).andThen fun _ p => (p.addUtf8 descriptor).andThen fun _ p =>
        (p.addNameAndType name descriptor).andThen fun _ p => p.add r := by
  have howner : pool.addClassRef owner = (pool.addUtf8 owner).andThen fun _ p =>
      p.addClassRef owner := addTextual_eq h (r := .classRef owner) fun _ => rfl
  rw [hadd, addMemberRef, howner, Answer.andThen_assoc]
  refine (addUtf8_sound h owner).andThen_congr fun _ p hp _ _ => ?_
  refine (addClassRef_sound hp owner).andThen_congr fun i p hp _ hi => ?_
  rw [addNameAndType_eq hp, Answer.andThen_assoc]
  refine (addUtf8_sound hp name).andThen_congr fun _ p hp hx _ => ?_
  rw [Answer.andThen_assoc]
  refine (addUtf8_sound hp descriptor).andThen_congr fun _ p hp hx' _ => ?_
  refine (addNameAndType_sound hp name descriptor).andThen_congr fun j p hp hx'' hj => ?_
  have hi' := (hx.trans (hx'.trans hx'')).classAt? hi
  simp only [hadd, addMemberRef, addClassRef_of_classAt? hp hi',
    addNameAndType_of_signatureAt? hp hj, Answer.andThen]

/-- Asking for a request comes to asking for each of its entries. -/
theorem add_eq_addEach (r : Request) : pool.add r = addEach 0 r.entries pool := by
  cases r with
  | utf8 s | number n => exact (addEach_singleton ..).symm
  | classRef s | string s | methodType s =>
    refine (addTextual_eq h fun _ => rfl).trans ?_
    change _ = (pool.addUtf8 s).andThen fun j p => addEach j [_] p
    simp only [addEach_singleton]
  | nameAndType name descriptor =>
    refine (addNameAndType_eq h name descriptor).trans ?_
    change _ = (pool.addUtf8 name).andThen fun _ p => (p.addUtf8 descriptor).andThen fun j p =>
      addEach j [_] p
    simp only [addEach_singleton]
    rfl
  | fieldRef owner name descriptor | methodRef owner name descriptor
  | interfaceMethodRef owner name descriptor =>
    refine (addMemberRef_eq h fun _ => rfl).trans ?_
    change _ = (pool.addUtf8 owner).andThen fun _ p => (p.addClassRef owner).andThen fun _ p =>
      (p.addUtf8 name).andThen fun _ p => (p.addUtf8 descriptor).andThen fun _ p =>
        (p.addNameAndType name descriptor).andThen fun j p => addEach j [_] p
    simp only [addEach_singleton]

/-! ## Room -/

theorem count_eq_add {p : ConstantPool} (hp : p.Wf) {rs : Finset Request}
    (hc : p.contents = pool.contents ∪ rs) :
    p.count.toNat = pool.count.toNat + ∑ r ∈ rs \ pool.contents, r.slots := by
  rw [hp.count_eq_sum, h.count_eq_sum, hc, ← Finset.union_sdiff_self_eq_union,
    Finset.sum_union Finset.disjoint_sdiff, Nat.add_assoc]

/-- An entry for which there is room is put at the end. -/
theorem add_of_room {r : Request} (hparts : ∀ p ∈ r.parts, p ∈ pool.contents)
    (hr : r ∉ pool.contents) (hfit : r.TextsFit) (hroom : pool.count.toNat + r.slots ≤ 65535) :
    ∃ p, pool.add r = (.ok pool.count, p) ∧ p.contents = insert r pool.contents ∧
      p.count.toNat = pool.count.toNat + r.slots := by
  have hadded := add_added h hparts
  generalize ha : pool.add r = a at hadded ⊢
  cases hadded with
  | known hr' => exact absurd hr' hr
  | @appended c =>
    obtain ⟨hwf, hc⟩ := contents_of_add h ha rfl
    refine ⟨pool.append c, rfl, hc, ?_⟩
    rw [count_eq_add h hwf (hc.trans (Finset.union_singleton ..).symm),
      Finset.sdiff_eq_self_of_disjoint (Finset.disjoint_singleton_left.mpr hr),
      Finset.sum_singleton]
  | refused hr' why => exact absurd (why hfit) (Nat.not_lt.mpr hroom)

theorem Outcome.ok_iff {rs : List Request} {a : Answer} (ha : Outcome pool rs a) :
    (∃ i, a.1 = .ok i) ↔ (∀ r ∈ rs, r.TextsFit) ∧
      pool.count.toNat + ∑ r ∈ rs.toFinset \ pool.contents, r.slots ≤ 65535 := by
  cases ha with
  | @answered i p wf contents fit =>
    have hlt := p.count.toNat_lt
    rw [count_eq_add h wf contents] at hlt
    exact iff_of_true ⟨i, rfl⟩ ⟨fit, by omega⟩
  | @refused e p xs ys r split wf grows contents hr why again =>
    refine iff_of_false (fun ⟨i, hi⟩ => by cases hi) ?_
    rintro ⟨hfit, hroom⟩
    have hmem : r ∈ rs := by simp [split]
    have hfull := why (hfit r hmem)
    -- What was added before the refusal, and the request refused, are all among the missing.
    have hnew : r ∉ xs.toFinset \ pool.contents := fun hx => by
      rw [contents] at hr
      exact hr (Finset.mem_union_right _ (Finset.mem_sdiff.mp hx).1)
    have hsub : insert r (xs.toFinset \ pool.contents) ⊆ rs.toFinset \ pool.contents := by
      refine Finset.insert_subset ?_ (Finset.sdiff_subset_sdiff ?_ (Finset.Subset.refl _))
      · rw [contents] at hr
        exact Finset.mem_sdiff.mpr
          ⟨List.mem_toFinset.mpr hmem, fun hold => hr (Finset.mem_union_left _ hold)⟩
      · intro x hx
        rw [split, List.mem_toFinset]
        exact List.mem_append_left _ (List.mem_toFinset.mp hx)
    have hsum := Finset.sum_le_sum_of_subset (f := Request.slots) hsub
    rw [Finset.sum_insert hnew] at hsum
    rw [count_eq_add h wf contents] at hfull
    omega

/-- Requests that are answered already do not matter to a refusal. -/
theorem addEach_of_refused {xs ys : List Request} {r : Request} {e : PoolError}
    (hxs : ∀ x ∈ xs, x ∈ pool.contents) (hr : pool.add r = (.error e, pool)) (i : UInt16) :
    addEach i (xs ++ r :: ys) pool = (.error e, pool) := by
  induction xs generalizing i with
  | nil => rw [List.nil_append, addEach, hr, Answer.andThen]
  | cons x xs ih =>
    obtain ⟨j, hj⟩ := add_of_mem h (hxs x List.mem_cons_self)
    rw [List.cons_append, addEach, hj, Answer.andThen]
    exact ih (fun y hy => hxs y (List.mem_cons_of_mem x hy)) j

/-- Entries that are new in a larger pool stand for requests that the smaller one does not hold. -/
theorem not_mem_contents_of_new {p : ConstantPool} (hp : p.Wf) {new : List (UInt16 × Constant)}
    (hnew : p.entries.toList = pool.entries.toList ++ new) {f : UInt16 × Constant} (hf : f ∈ new)
    {r : Request} (hr : p.requestAt? f.1 = some r) : r ∉ pool.contents := by
  intro hold
  obtain ⟨j, hj⟩ := h.mem_contents.mp hold
  obtain ⟨c, hc⟩ := entry?_of_requestAt? hj
  have hgrows : pool.Extends p := ⟨new, hnew.symm⟩
  have hindex : j = f.1 := hp.requestAt?_inj (hgrows.requestAt? hj) hr
  have hnodup := hp.layout.nodup_indices
  rw [hnew, List.map_append, List.nodup_append] at hnodup
  exact hnodup.2.2 j (List.mem_map_of_mem (h.entry?_iff.mp hc)) f.1 (List.mem_map_of_mem hf) hindex

/-- A request of which every part is there cannot leave anything behind when it is refused. -/
theorem add_refused_of_parts {r : Request} {e : PoolError} {p : ConstantPool}
    (hparts : ∀ q ∈ r.parts, q ∈ pool.contents) (ha : pool.add r = (.error e, p)) : p = pool := by
  have hadded := add_added h hparts
  rw [ha] at hadded
  cases hadded
  rfl

/-- What a refused request leaves behind. -/
theorem add_refused {r : Request} {e : PoolError} {p : ConstantPool}
    (ha : pool.add r = (.error e, p)) :
    (∃ new, p.entries.toList = pool.entries.toList ++ new ∧
      ∀ f ∈ new, ∃ s ∈ r.components, p.requestAt? f.1 = some s) ∧ p.add r = (.error e, p) := by
  have ho := addEach_outcome h 0 (partsFirst_entries pool.contents r)
  rw [← add_eq_addEach h, ha] at ho
  cases ho with
  | @refused _ _ xs ys q split wf grows contents hq why again =>
    constructor
    · obtain ⟨new, hnew⟩ := grows
      refine ⟨new, hnew.symm, fun f hf => ?_⟩
      have hmem : f ∈ p.entries.toList := hnew ▸ List.mem_append_right _ hf
      obtain ⟨s, hs⟩ := wf.requestAt?_of_mem hmem
      have hcontents : s ∈ pool.contents ∪ xs.toFinset :=
        contents ▸ wf.mem_contents.mpr ⟨f.1, hs⟩
      have hxs : s ∈ xs := by
        rcases Finset.mem_union.mp hcontents with hold | hx
        · exact absurd hold (not_mem_contents_of_new h wf hnew.symm hf hs)
        · exact List.mem_toFinset.mp hx
      -- Only the last of the entries is no component, and it is not among those added.
      have hbefore : xs <+: r.entries := ⟨q :: ys, split.symm⟩
      have hparts : r.components <+: r.entries := ⟨[r], rfl⟩
      have hlength : xs.length ≤ r.components.length := by
        have hsplit := congrArg List.length split
        simp [Request.entries] at hsplit
        omega
      have hprefix := List.prefix_of_prefix_length_le hbefore hparts hlength
      exact ⟨s, hprefix.subset hxs, hs⟩
    · rw [add_eq_addEach wf, split]
      refine addEach_of_refused wf (fun x hx => ?_) again 0
      rw [contents]
      exact Finset.mem_union_right _ (List.mem_toFinset.mpr hx)

end

theorem add_ok_iff {pool : ConstantPool} (h : pool.Wf) (r : Request) :
    (∃ i, (pool.add r).1 = .ok i) ↔ r.TextsFit ∧
      pool.count.toNat + ∑ s ∈ r.entries.toFinset \ pool.contents, s.slots ≤ 65535 := by
  have ho := addEach_outcome h 0 (partsFirst_entries pool.contents r)
  rw [← add_eq_addEach h] at ho
  rw [ho.ok_iff h]
  refine and_congr_left fun _ => ⟨fun hfit => hfit r ?_, fun hfit s hs => hfit.entries hs⟩
  exact Request.mem_entries.mpr (.inr rfl)

/-- Where a wide entry is refused although an index is left, this is the last one. -/
theorem count_of_wide_refused {pool : ConstantPool} (h : pool.Wf) {n : Number} {e : PoolError}
    (hn : (Constant.number n).width = 2) (he : (pool.add (.number n)).1 = .error e)
    (hleft : pool.count < 65535) : pool.count = 65534 := by
  have hadded := add_added h (r := .number n) (List.forall_mem_nil _)
  generalize pool.add (.number n) = a at he hadded
  cases hadded with
  | known hr => cases he
  | appended hr fit room => cases he
  | refused hr why =>
    have hfull := why (List.forall_mem_nil _)
    have hslots : (Request.number n).slots = 2 := congrArg UInt16.toNat hn
    have hlt := UInt16.lt_iff_toNat_lt.mp hleft
    rw [hslots] at hfull
    apply UInt16.toNat_inj.mp
    simp at hlt ⊢
    omega

theorem add_capacity (history : List Request) (r : Request) :
    let pool := empty.after history
    ((∃ i, (pool.add r).1 = .ok i) ↔ r.TextsFit ∧
      pool.count.toNat + ∑ s ∈ r.entries.toFinset \ pool.contents, s.slots ≤ 65535) ∧
    (∀ e p, pool.add r = (.error e, p) →
      (r.components = [] → p = pool) ∧
      (∃ new, p.entries.toList = pool.entries.toList ++ new ∧
        ∀ f ∈ new, ∃ s ∈ r.components, p.requestAt? f.1 = some s) ∧
      p.add r = (.error e, p)) ∧
    ∀ (n : Number) (e : PoolError) (s : Request), (Constant.number n).width = 2 →
      (pool.add (.number n)).1 = .error e → pool.count < 65535 → s.slots = 1 →
      (∀ p ∈ s.parts, p ∈ pool.contents) → s.TextsFit →
      pool.count = 65534 ∧ ∃ i, (pool.add s).1 = .ok i := by
  intro pool
  have hpool : pool.Wf := after_wf empty_wf history
  refine ⟨add_ok_iff hpool r, fun e p ha => ?_, fun n e s hn he hleft hs hparts hfit => ?_⟩
  · obtain ⟨hnew, hagain⟩ := add_refused hpool ha
    refine ⟨fun hnone => add_refused_of_parts hpool (fun q hq => ?_) ha, hnew, hagain⟩
    have hmem : q ∈ r.components := List.mem_flatMap.mpr ⟨q, hq, by simp⟩
    rw [hnone] at hmem
    cases hmem
  · have hcount := count_of_wide_refused hpool hn he hleft
    refine ⟨hcount, ?_⟩
    by_cases hold : s ∈ pool.contents
    · obtain ⟨i, hi⟩ := add_of_mem hpool hold
      exact ⟨i, by rw [hi]⟩
    · have hroom : pool.count.toNat + s.slots ≤ 65535 := by
        rw [hcount, hs]
        decide
      obtain ⟨p, hp, -, -⟩ := add_of_room hpool hparts hold hfit hroom
      exact ⟨pool.count, by rw [hp]⟩

/-! ## A pool with one index left -/

/-- The integers from 0 on. -/
def integers (n : Nat) : List Request := (List.range n).map fun k => .number (.int (.ofNat k))

theorem not_mem_integers {n : Nat} (hn : n < 65535) :
    .number (.int (.ofNat n)) ∉ integers n := by
  intro hmem
  obtain ⟨k, hk, heq⟩ := List.mem_map.mp hmem
  have hlt := List.mem_range.mp hk
  have hint := congrArg Int32.toInt (Number.int.inj (Request.number.inj heq))
  rw [Int32.toInt_ofNat_of_lt (by omega), Int32.toInt_ofNat_of_lt (by omega)] at hint
  omega

theorem contents_after_integers {n : Nat} (hn : n < 65535) :
    (empty.after (integers n)).contents = (integers n).toFinset ∧
      (empty.after (integers n)).count.toNat = n + 1 := by
  induction n with
  | zero => exact ⟨by simp [integers, after, contents, requests, empty], rfl⟩
  | succ n ih =>
    obtain ⟨hcontents, hcount⟩ := ih (by omega)
    let r : Request := .number (.int (.ofNat n))
    have hlist : integers (n + 1) = integers n ++ [r] := by simp [integers, List.range_succ, r]
    have hnew : r ∉ (empty.after (integers n)).contents := by
      rw [hcontents, List.mem_toFinset]
      exact not_mem_integers (by omega)
    have hslots : r.slots = 1 := rfl
    obtain ⟨p, hp, hc, hn⟩ := add_of_room (after_wf empty_wf (integers n))
      (List.forall_mem_nil _) hnew (List.forall_mem_nil _) (by omega)
    have hafter : empty.after (integers (n + 1)) = p := by
      rw [hlist, after, List.foldl_append]
      exact congrArg Prod.snd hp
    rw [hafter, hn, hc, hcontents, hcount, hlist]
    exact ⟨by simp, by omega⟩

/-- After integers only, none of the other requests is answered already. -/
theorem sdiff_contents_after_integers {n : Nat} (hn : n < 65535) {rs : Finset Request}
    (hrs : ∀ r ∈ rs, ∀ v, r ≠ .number (.int v)) :
    rs \ (empty.after (integers n)).contents = rs := by
  refine Finset.sdiff_eq_self_of_disjoint (Finset.disjoint_left.mpr fun r hr hmem => ?_)
  rw [(contents_after_integers hn).1, List.mem_toFinset] at hmem
  obtain ⟨k, -, rfl⟩ := List.mem_map.mp hmem
  exact hrs _ hr _ rfl

/-- A class needs two entries. The text is left behind, and then there is room for nothing. -/
theorem add_capacity_last :
    let pool := empty.after (integers 65533)
    pool.count = 65534 ∧ (∃ i, (pool.add (.utf8 "A")).1 = .ok i) ∧
      ∃ e p, pool.add (.classRef "A") = (.error e, p) ∧ p.add (.classRef "A") = (.error e, p) := by
  intro pool
  have hcount : pool.count.toNat = 65534 := (contents_after_integers (by decide)).2
  have hrefused : ∀ r : Request, (∀ s ∈ r.entries.toFinset, ∀ v, s ≠ .number (.int v)) →
      ∑ s ∈ r.entries.toFinset, s.slots = 2 → ∃ e p, pool.add r = (.error e, p) := by
    intro r hr hsum
    have hiff := (add_capacity (integers 65533) r).1
    rw [sdiff_contents_after_integers (by decide) hr, hsum] at hiff
    rcases ha : pool.add r with ⟨e | i, p⟩
    · exact ⟨e, p, rfl⟩
    · have hroom : pool.count.toNat + 2 ≤ 65535 := (hiff.mp ⟨i, congrArg Prod.fst ha⟩).2
      omega
  obtain ⟨e, _, he⟩ := hrefused (.number (.long 0)) (by simp [Request.entries, Request.components,
    Request.parts]) (by decide)
  obtain ⟨e', p, he'⟩ := hrefused (.classRef "A") (by simp [Request.entries, Request.components,
    Request.parts]) (by decide)
  have hleft : pool.count < 65535 := UInt16.lt_iff_toNat_lt.mpr (by rw [hcount]; decide)
  obtain ⟨hlast, haccepted⟩ := (add_capacity (integers 65533) (.classRef "A")).2.2 (.long 0) e
    (.utf8 "A") rfl (congrArg Prod.fst he) hleft rfl (List.forall_mem_nil _) (by decide)
  obtain ⟨-, -, hagain⟩ := (add_capacity (integers 65533) (.classRef "A")).2.1 e' p he'
  exact ⟨hlast, haccepted, e', p, he', hagain⟩

end ConstantPool
end ClassSynthesis
