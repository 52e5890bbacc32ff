import ClassSynthesis.Proofs.Pool.Resolution

/-!
# ClassSynthesis.Proofs.Pool.Adding

What requests do to a pool. `Wf` is the invariant: the entries are a layout that ends at the
pool's count, and the look-up table knows exactly these entries. `Sound pool P a` says of an answer
`a` given by `pool` that the pool afterwards extends `pool` and keeps the invariant, and that an
index that was answered satisfies `P`.

* `add_sound`: an index that was answered stands for what was asked for.
* `add_of_requestAt?`: what an index stands for is answered with this index, and nothing changes.
* `add_refusedFairly`: the reasons for which a request is refused.
-/

namespace ClassSynthesis
namespace ConstantPool

structure Wf (pool : ConstantPool) : Prop where
  layout : Layout pool.entries.toList pool.next.toNat
  lookup : ∀ key i, pool.indices[key]? = some i ↔
    ∃ c, (i, c) ∈ pool.entries.toList ∧ c.bytes = key

theorem empty_wf : empty.Wf :=
  ⟨.nil, by simp [empty]⟩

namespace Wf

variable {pool : ConstantPool}

theorem entry?_iff (h : pool.Wf) {i : UInt16} {c : Constant} :
    pool.entry? i = .ok c ↔ (i, c) ∈ pool.entries.toList := by
  unfold entry?
  rw [← Array.find?_toList]
  split
  · rename_i j d hf
    obtain ⟨rfl, hm⟩ := h.layout.find?_iff.mp hf
    constructor
    · intro hc
      cases hc
      exact hm
    · intro hm'
      exact congrArg Except.ok (h.layout.entry_unique hm hm')
  · rename_i hf
    have hn := List.find?_eq_none.mp hf
    constructor
    · intro hc; cases hc
    · intro hm; exact absurd (hn _ hm) (by simp)

theorem lookup_iff (h : pool.Wf) {i : UInt16} {c : Constant} :
    pool.indices[c.bytes]? = some i ↔ pool.entry? i = .ok c := by
  rw [h.lookup, h.entry?_iff]
  constructor
  · rintro ⟨d, hm, hb⟩
    exact Constant.bytes_inj hb ▸ hm
  · intro hm
    exact ⟨c, hm, rfl⟩

theorem intern_of_entry? (h : pool.Wf) {i : UInt16} {c : Constant} (he : pool.entry? i = .ok c) :
    pool.intern c = (.ok i, pool) := by
  simp [intern, h.lookup_iff.mpr he]

end Wf

/-! ## Answers -/

structure Sound (pool : ConstantPool) (P : UInt16 → ConstantPool → Prop) (a : Answer) : Prop where
  wf : a.2.Wf
  grows : pool.Extends a.2
  answered : ∀ i, a.1 = .ok i → P i a.2

namespace Sound

variable {pool : ConstantPool} {P Q : UInt16 → ConstantPool → Prop} {a : Answer}

theorem mono (h : Sound pool P a) (hPQ : ∀ i p, pool.Extends p → P i p → Q i p) :
    Sound pool Q a :=
  ⟨h.wf, h.grows, fun i hi => hPQ i _ h.grows (h.answered i hi)⟩

theorem refused (h : pool.Wf) (e : PoolError) : Sound pool P (.error e, pool) :=
  ⟨h, .refl pool, fun _ hi => by cases hi⟩

theorem andThen {f : UInt16 → ConstantPool → Answer} (h : Sound pool P a)
    (hf : ∀ i p, p.Wf → pool.Extends p → P i p → Sound p Q (f i p)) :
    Sound pool Q (a.andThen f) := by
  obtain ⟨r, p⟩ := a
  cases r with
  | error e => exact ⟨h.wf, h.grows, fun _ hi => by cases hi⟩
  | ok i =>
    have hi := hf i p h.wf h.grows (h.answered i rfl)
    exact ⟨hi.wf, h.grows.trans hi.grows, hi.answered⟩

end Sound

/-! ## One entry -/

/-- The pool with an entry put at its end. -/
def append (pool : ConstantPool) (c : Constant) : ConstantPool :=
  ⟨pool.entries.push (pool.next, c), pool.indices.insert c.bytes pool.next,
    pool.next + c.width⟩

theorem intern_cases (pool : ConstantPool) (c : Constant) :
    (∃ i, pool.indices[c.bytes]? = some i ∧ pool.intern c = (.ok i, pool)) ∨
    (pool.indices[c.bytes]? = none ∧ pool.next.toNat + c.width.toNat ≤ 65535 ∧
      pool.intern c = (.ok pool.next, pool.append c)) ∨
    (pool.indices[c.bytes]? = none ∧ 65535 < pool.next.toNat + c.width.toNat ∧
      pool.intern c = (.error .outOfSpace, pool)) := by
  cases hl : pool.indices[c.bytes]? with
  | some i => exact .inl ⟨i, rfl, by simp [intern, hl]⟩
  | none =>
    by_cases hn : pool.next.toNat + c.width.toNat ≤ 65535
    · exact .inr (.inl ⟨rfl, hn, by simp [intern, hl, hn, append]⟩)
    · exact .inr (.inr ⟨rfl, Nat.lt_of_not_le hn, by simp [intern, hl, hn]⟩)

theorem extends_append (pool : ConstantPool) (c : Constant) : pool.Extends (pool.append c) := by
  simp [Extends, append]

theorem toNat_next_append {pool : ConstantPool} {c : Constant}
    (hn : pool.next.toNat + c.width.toNat ≤ 65535) :
    (pool.append c).next.toNat = pool.next.toNat + c.width.toNat := by
  simp only [append, UInt16.toNat_add]
  exact Nat.mod_eq_of_lt (by omega)

theorem Wf.append {pool : ConstantPool} (h : pool.Wf) {c : Constant} (hfit : c.Fits)
    (href : c.RefersInto pool.entries.toList) (hl : pool.indices[c.bytes]? = none)
    (hn : pool.next.toNat + c.width.toNat ≤ 65535) : (pool.append c).Wf := by
  have hnew : ∀ e ∈ pool.entries.toList, e.2 ≠ c := by
    rintro ⟨i, d⟩ hm rfl
    rw [(h.lookup d.bytes i).mpr ⟨d, hm, rfl⟩] at hl
    cases hl
  constructor
  · rw [toNat_next_append hn]
    simpa [ConstantPool.append] using Layout.snoc h.layout hfit href hnew
  · intro key i
    simp only [ConstantPool.append, Std.HashMap.getElem?_insert, Array.toList_push,
      List.mem_append, List.mem_singleton, Prod.mk.injEq]
    -- Entries have different bytes, so only the new entry answers to the new key.
    by_cases hk : c.bytes = key
    · subst hk
      simp only [beq_self_eq_true, if_true, Option.some.injEq]
      constructor
      · rintro rfl
        exact ⟨c, .inr ⟨rfl, rfl⟩, rfl⟩
      · rintro ⟨d, ⟨hm⟩ | ⟨rfl, -⟩, hb⟩
        · exact absurd (Constant.bytes_inj hb) (hnew _ hm)
        · rfl
    · simp only [beq_iff_eq, if_neg hk]
      rw [h.lookup]
      constructor
      · rintro ⟨d, hm, hb⟩
        exact ⟨d, .inl hm, hb⟩
      · rintro ⟨d, hm | ⟨-, rfl⟩, hb⟩
        · exact ⟨d, hm, hb⟩
        · exact absurd hb hk

theorem intern_sound {pool : ConstantPool} (h : pool.Wf) {c : Constant} (hfit : c.Fits)
    (href : c.RefersInto pool.entries.toList) :
    Sound pool (fun i p => p.entry? i = .ok c) (pool.intern c) := by
  rcases pool.intern_cases c with ⟨i, hl, he⟩ | ⟨hl, hn, he⟩ | ⟨-, -, he⟩
  · rw [he]
    refine ⟨h, .refl pool, fun j hj => ?_⟩
    cases hj
    exact h.lookup_iff.mp hl
  · rw [he]
    have hwf := h.append hfit href hl hn
    refine ⟨hwf, pool.extends_append c, fun j hj => ?_⟩
    cases hj
    exact hwf.entry?_iff.mpr (by simp [append])
  · rw [he]
    exact .refused h _

/-! ## Requests -/

section

variable {pool : ConstantPool} (h : pool.Wf)
include h

theorem addUtf8_sound (s : String) :
    Sound pool (fun i p => p.textAt? i = some s) (pool.addUtf8 s) := by
  simp only [addUtf8, ModifiedUtf8.length_eq]
  split
  · rename_i hs
    refine (intern_sound h (c := .utf8 s) hs trivial).mono ?_
    intro i p _ he
    simp [textAt?, he]
  · exact .refused h _

/-- An entry that is made of a text and nothing else. -/
theorem addTextual_sound (ref : UInt16 → Constant) (s : String) (hfit : ∀ i, (ref i).Fits)
    (href : ∀ i, ∀ es : List (UInt16 × Constant), (i, .utf8 s) ∈ es → (ref i).RefersInto es) :
    Sound pool (fun i p => ∃ j, p.entry? i = .ok (ref j) ∧ p.textAt? j = some s)
      ((pool.addUtf8 s).andThen fun i pool => pool.intern (ref i)) := by
  refine (addUtf8_sound h s).andThen ?_
  intro i p hp _ hi
  refine (intern_sound hp (hfit i) (href i _ (hp.entry?_iff.mp (entry?_of_textAt? hi)))).mono ?_
  intro j q hx he
  exact ⟨i, he, hx.textAt? hi⟩

theorem addClassRef_sound (name : String) :
    Sound pool (fun i p => p.classAt? i = some name) (pool.addClassRef name) := by
  refine (addTextual_sound h .classRef name (fun _ => trivial) fun _ _ hm => ⟨name, hm⟩).mono ?_
  rintro i p _ ⟨j, he, hj⟩
  simp [classAt?, he, hj]

theorem addNameAndType_sound (name descriptor : String) :
    Sound pool (fun i p => p.signatureAt? i = some (name, descriptor))
      (pool.addNameAndType name descriptor) := by
  refine (addUtf8_sound h name).andThen ?_
  intro i p hp _ hi
  refine (addUtf8_sound hp descriptor).andThen ?_
  intro j q hq hx hj
  have hi' := hx.textAt? hi
  refine (intern_sound hq (c := .nameAndType i j) trivial
    ⟨⟨_, hq.entry?_iff.mp (entry?_of_textAt? hi')⟩,
      ⟨_, hq.entry?_iff.mp (entry?_of_textAt? hj)⟩⟩).mono ?_
  intro k r hx he
  simp [signatureAt?, he, textsAt?, hx.textAt? hi', hx.textAt? hj]

theorem addMemberRef_sound {ref : UInt16 → UInt16 → Constant}
    {request : String → String → String → Request} (owner name descriptor : String)
    (hfit : ∀ i j, (ref i j).Fits)
    (href : ∀ i j, ∀ es : List (UInt16 × Constant), (∃ k, (i, .classRef k) ∈ es) →
      (∃ k l, (j, .nameAndType k l) ∈ es) → (ref i j).RefersInto es)
    (hread : ∀ i j k (p : ConstantPool), p.entry? k = .ok (ref i j) →
      p.requestAt? k = p.memberAt? request i j) :
    Sound pool (fun i p => p.requestAt? i = some (request owner name descriptor))
      (pool.addMemberRef ref owner name descriptor) := by
  refine (addClassRef_sound h owner).andThen ?_
  intro i p hp _ hi
  refine (addNameAndType_sound hp name descriptor).andThen ?_
  intro j q hq hx hj
  have hi' := hx.classAt? hi
  obtain ⟨ki, hki, -⟩ := entry?_of_classAt? hi'
  obtain ⟨kj, lj, hkj, -⟩ := entry?_of_signatureAt? hj
  refine (intern_sound hq (hfit i j)
    (href i j _ ⟨ki, hq.entry?_iff.mp hki⟩ ⟨kj, lj, hq.entry?_iff.mp hkj⟩)).mono ?_
  intro k r hx he
  rw [hread i j k r he]
  simp [memberAt?, hx.classAt? hi', hx.signatureAt? hj]

/-- An index that was answered stands for what was asked for. -/
theorem add_sound (r : Request) :
    Sound pool (fun i p => p.requestAt? i = some r) (pool.add r) := by
  cases r with
  | utf8 s =>
    refine (addUtf8_sound h s).mono ?_
    intro i p _ hi
    exact requestAt?_utf8 hi
  | number n =>
    refine (intern_sound h (c := .number n) trivial trivial).mono ?_
    intro i p _ he
    simp [requestAt?, he]
  | classRef name =>
    refine (addClassRef_sound h name).mono ?_
    intro i p _ hi
    exact requestAt?_classRef hi
  | string s =>
    refine (addTextual_sound h .string s (fun _ => trivial) fun _ _ hm => ⟨s, hm⟩).mono ?_
    rintro i p _ ⟨j, he, hj⟩
    simp [requestAt?, he, hj]
  | methodType d =>
    refine (addTextual_sound h .methodType d (fun _ => trivial) fun _ _ hm => ⟨d, hm⟩).mono ?_
    rintro i p _ ⟨j, he, hj⟩
    simp [requestAt?, he, hj]
  | nameAndType name descriptor =>
    refine (addNameAndType_sound h name descriptor).mono ?_
    intro i p _ hi
    exact requestAt?_nameAndType hi
  | fieldRef owner name descriptor =>
    refine addMemberRef_sound h owner name descriptor (fun _ _ => trivial)
      (fun _ _ _ hi hj => ⟨hi, hj⟩) ?_
    intro i j k p he
    simp [requestAt?, he]
  | methodRef owner name descriptor =>
    refine addMemberRef_sound h owner name descriptor (fun _ _ => trivial)
      (fun _ _ _ hi hj => ⟨hi, hj⟩) ?_
    intro i j k p he
    simp [requestAt?, he]
  | interfaceMethodRef owner name descriptor =>
    refine addMemberRef_sound h owner name descriptor (fun _ _ => trivial)
      (fun _ _ _ hi hj => ⟨hi, hj⟩) ?_
    intro i j k p he
    simp [requestAt?, he]

/-! ## Requests that are answered already -/

theorem addUtf8_of_textAt? {i : UInt16} {s : String} (hi : pool.textAt? i = some s) :
    pool.addUtf8 s = (.ok i, pool) := by
  have he := entry?_of_textAt? hi
  have hs : (ModifiedUtf8.encode s).length ≤ 65535 := h.layout.fits (h.entry?_iff.mp he)
  simp only [addUtf8, ModifiedUtf8.length_eq, if_pos hs]
  exact h.intern_of_entry? he

theorem addClassRef_of_classAt? {i : UInt16} {s : String} (hi : pool.classAt? i = some s) :
    pool.addClassRef s = (.ok i, pool) := by
  obtain ⟨j, he, hj⟩ := entry?_of_classAt? hi
  simp only [addClassRef, addUtf8_of_textAt? h hj, Answer.andThen]
  exact h.intern_of_entry? he

theorem addNameAndType_of_signatureAt? {i : UInt16} {name descriptor : String}
    (hi : pool.signatureAt? i = some (name, descriptor)) :
    pool.addNameAndType name descriptor = (.ok i, pool) := by
  obtain ⟨j, k, he, hjk⟩ := entry?_of_signatureAt? hi
  obtain ⟨hj, hk⟩ := textAt?_of_textsAt? hjk
  simp only [addNameAndType, addUtf8_of_textAt? h hj, addUtf8_of_textAt? h hk, Answer.andThen]
  exact h.intern_of_entry? he

theorem addMemberRef_of_memberAt? {ref : UInt16 → UInt16 → Constant}
    {request : String → String → String → Request} {i j k : UInt16} {r : Request}
    (he : pool.entry? i = .ok (ref j k)) (hr : pool.memberAt? request j k = some r) :
    ∃ owner name descriptor, r = request owner name descriptor ∧
      pool.addMemberRef ref owner name descriptor = (.ok i, pool) := by
  obtain ⟨owner, name, descriptor, hj, hk, rfl⟩ := parts_of_memberAt? hr
  refine ⟨owner, name, descriptor, rfl, ?_⟩
  simp only [addMemberRef, addClassRef_of_classAt? h hj, addNameAndType_of_signatureAt? h hk,
    Answer.andThen]
  exact h.intern_of_entry? he

/-- What an index stands for is answered with this index, and the pool stays as it is. -/
theorem add_of_requestAt? {i : UInt16} {r : Request} (hi : pool.requestAt? i = some r) :
    pool.add r = (.ok i, pool) := by
  unfold requestAt? at hi
  split at hi
  all_goals rename_i he
  case h_1 =>
    cases hi
    exact addUtf8_of_textAt? h (by simp [textAt?, he])
  case h_2 =>
    cases hi
    exact h.intern_of_entry? he
  case h_3 =>
    obtain ⟨s, hs, rfl⟩ := Option.map_eq_some_iff.mp hi
    exact addClassRef_of_classAt? h (by simp [classAt?, he, hs])
  case h_4 | h_5 =>
    obtain ⟨s, hs, rfl⟩ := Option.map_eq_some_iff.mp hi
    simp only [add, addUtf8_of_textAt? h hs, Answer.andThen]
    exact h.intern_of_entry? he
  case h_6 =>
    obtain ⟨⟨name, descriptor⟩, hs, rfl⟩ := Option.map_eq_some_iff.mp hi
    exact addNameAndType_of_signatureAt? h (by simp [signatureAt?, he, hs])
  case h_7 | h_8 | h_9 =>
    obtain ⟨owner, name, descriptor, rfl, ha⟩ := addMemberRef_of_memberAt? h he hi
    exact ha
  case h_10 => cases hi

end

/-! ## Refusals -/

/-- If a request is refused, then for want of indices or because of a text that is too long. -/
def Answer.RefusedFairly (a : Answer) : Prop :=
  ∀ e, a.1 = .error e → e = .outOfSpace ∨ ∃ n, e = .textTooLong n

theorem Answer.RefusedFairly.andThen {a : Answer} {f : UInt16 → ConstantPool → Answer}
    (ha : a.RefusedFairly) (hf : ∀ i p, (f i p).RefusedFairly) : (a.andThen f).RefusedFairly := by
  obtain ⟨r, p⟩ := a
  cases r with
  | ok i => exact hf i p
  | error e => exact ha

theorem intern_refusedFairly (pool : ConstantPool) (c : Constant) :
    (pool.intern c).RefusedFairly := by
  intro e he
  rcases pool.intern_cases c with ⟨i, -, hi⟩ | ⟨-, -, hi⟩ | ⟨-, -, hi⟩
  · rw [hi] at he
    cases he
  · rw [hi] at he
    cases he
  · rw [hi] at he
    cases he
    exact .inl rfl

theorem addUtf8_refusedFairly (pool : ConstantPool) (s : String) :
    (pool.addUtf8 s).RefusedFairly := by
  simp only [addUtf8]
  split
  · exact pool.intern_refusedFairly _
  · rintro e ⟨⟩
    exact .inr ⟨_, rfl⟩

theorem addClassRef_refusedFairly (pool : ConstantPool) (name : String) :
    (pool.addClassRef name).RefusedFairly :=
  (pool.addUtf8_refusedFairly name).andThen fun _ p => p.intern_refusedFairly _

theorem addNameAndType_refusedFairly (pool : ConstantPool) (name descriptor : String) :
    (pool.addNameAndType name descriptor).RefusedFairly :=
  (pool.addUtf8_refusedFairly name).andThen fun _ p =>
    (p.addUtf8_refusedFairly descriptor).andThen fun _ q => q.intern_refusedFairly _

theorem addMemberRef_refusedFairly (pool : ConstantPool) (ref : UInt16 → UInt16 → Constant)
    (owner name descriptor : String) :
    (pool.addMemberRef ref owner name descriptor).RefusedFairly :=
  (pool.addClassRef_refusedFairly owner).andThen fun _ p =>
    (p.addNameAndType_refusedFairly name descriptor).andThen fun _ q => q.intern_refusedFairly _

theorem add_refusedFairly (pool : ConstantPool) (r : Request) : (pool.add r).RefusedFairly := by
  cases r with
  | utf8 s => exact pool.addUtf8_refusedFairly s
  | number n => exact pool.intern_refusedFairly _
  | classRef name => exact pool.addClassRef_refusedFairly name
  | string s | methodType s =>
    exact (pool.addUtf8_refusedFairly s).andThen fun _ p => p.intern_refusedFairly _
  | nameAndType name descriptor => exact pool.addNameAndType_refusedFairly name descriptor
  | fieldRef owner name descriptor | methodRef owner name descriptor
  | interfaceMethodRef owner name descriptor =>
    exact pool.addMemberRef_refusedFairly _ owner name descriptor

end ConstantPool
end ClassSynthesis
