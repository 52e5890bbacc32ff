import ClassSynthesis.ClassFile.ConstantPool
import ClassSynthesis.Proofs.BigEndian
import ClassSynthesis.Proofs.ModifiedUtf8

/-!
# ClassSynthesis.Proofs.Pool.Layout

How a list of pool entries is laid out. Entries are put at the end one after another, each at the
first index that the earlier ones leave free, and an entry refers to earlier ones only.
`Layout es n` says that `es` came about this way and leaves `n` as the first free index.

* `Constant.bytes_inj`: an entry is determined by its `cp_info` bytes.
* `Layout.apart`: entries take disjoint stretches of indices.
* `Layout.find?_iff`: looking for an index finds exactly the entry that starts there.
-/

namespace ClassSynthesis

/-! ## Entries and their bytes -/

namespace Constant

theorem bytes_inj {c d : Constant} (h : c.bytes = d.bytes) : c = d := by
  have ht : c.tag = d.tag := (List.cons.inj h).1
  have hc : c.content = d.content := (List.cons.inj h).2
  rcases c with s | (v | v | v | v) | i | i | ⟨i, j⟩ | ⟨i, j⟩ | ⟨i, j⟩ | ⟨i, j⟩ | i <;>
    rcases d with t | (w | w | w | w) | k | k | ⟨k, l⟩ | ⟨k, l⟩ | ⟨k, l⟩ | ⟨k, l⟩ | k <;>
    simp only [tag] at ht <;>
    first | exact absurd ht (by decide) | skip
  case utf8.utf8 =>
    have he := (List.append_inj hc rfl).2
    rw [ModifiedUtf8.encode_inj he]
  case number.int.number.int =>
    have hv : v = w := congrArg Int32.ofUInt32 (u4_inj hc)
    rw [hv]
  case number.long.number.long =>
    have hv : v = w := congrArg Int64.ofUInt64 (u8_inj hc)
    rw [hv]
  case number.float.number.float => rw [u4_inj hc]
  case number.double.number.double => rw [u8_inj hc]
  case classRef.classRef => rw [u2_inj hc]
  case string.string => rw [u2_inj hc]
  case methodType.methodType => rw [u2_inj hc]
  all_goals
    obtain ⟨hi, hj⟩ := List.append_inj hc rfl
    rw [u2_inj hi, u2_inj hj]

theorem width_eq (c : Constant) : c.width.toNat = 1 ∨ c.width.toNat = 2 := by
  unfold width
  split
  · exact .inr rfl
  · exact .inr rfl
  · exact .inl rfl

theorem width_pos (c : Constant) : 0 < c.width.toNat := by
  rcases c.width_eq with h | h <;> omega

/-- Text has to fit the byte count before it. -/
def Fits : Constant → Prop
  | .utf8 s => (ModifiedUtf8.encode s).length ≤ 65535
  | _ => True

/-- Every index in the entry is that of one of the entries, of the right kind. -/
def RefersInto (es : List (UInt16 × Constant)) : Constant → Prop
  | .utf8 _ | .number _ => True
  | .classRef i | .string i | .methodType i => ∃ s, (i, .utf8 s) ∈ es
  | .nameAndType i j => (∃ s, (i, .utf8 s) ∈ es) ∧ ∃ s, (j, .utf8 s) ∈ es
  | .fieldRef i j | .methodRef i j | .interfaceMethodRef i j =>
    (∃ k, (i, .classRef k) ∈ es) ∧ ∃ k l, (j, .nameAndType k l) ∈ es

end Constant

/-! ## Layouts -/

/-- The entries put one after another, and the first index after them. -/
inductive Layout : List (UInt16 × Constant) → Nat → Prop where
  | nil : Layout [] 1
  | snoc {es : List (UInt16 × Constant)} {i : UInt16} {c : Constant} :
      Layout es i.toNat → c.Fits → c.RefersInto es → (∀ e ∈ es, e.2 ≠ c) →
      Layout (es ++ [(i, c)]) (i.toNat + c.width.toNat)

namespace Layout

variable {es : List (UInt16 × Constant)} {n : Nat}

theorem one_le (h : Layout es n) : 1 ≤ n := by
  induction h with
  | nil => exact Nat.le_refl 1
  | snoc _ _ _ _ ih => omega

theorem bounds (h : Layout es n) {i : UInt16} {c : Constant} (hm : (i, c) ∈ es) :
    1 ≤ i.toNat ∧ i.toNat + c.width.toNat ≤ n := by
  induction h with
  | nil => cases hm
  | @snoc es j d hes _ _ _ ih =>
    rcases List.mem_append.mp hm with hm | hm
    · obtain ⟨h1, h2⟩ := ih hm
      exact ⟨h1, by omega⟩
    · obtain ⟨rfl, rfl⟩ := Prod.mk.inj (List.mem_singleton.mp hm)
      exact ⟨hes.one_le, Nat.le_refl _⟩

/-- Of two entries, the second starts after all indices of the first. -/
theorem apart (h : Layout es n) {i j : UInt16} {c d : Constant} (hc : (i, c) ∈ es)
    (hd : (j, d) ∈ es) : (i, c) = (j, d) ∨ i.toNat + c.width.toNat ≤ j.toNat ∨
      j.toNat + d.width.toNat ≤ i.toNat := by
  induction h with
  | nil => cases hc
  | @snoc es k e hes _ _ _ ih =>
    rcases List.mem_append.mp hc with hce | hc <;> rcases List.mem_append.mp hd with hde | hd
    · exact ih hce hde
    · obtain ⟨rfl, rfl⟩ := Prod.mk.inj (List.mem_singleton.mp hd)
      exact .inr (.inl (hes.bounds hce).2)
    · obtain ⟨rfl, rfl⟩ := Prod.mk.inj (List.mem_singleton.mp hc)
      exact .inr (.inr (hes.bounds hde).2)
    · exact .inl ((List.mem_singleton.mp hc).trans (List.mem_singleton.mp hd).symm)

theorem entry_unique (h : Layout es n) {i : UInt16} {c d : Constant} (hc : (i, c) ∈ es)
    (hd : (i, d) ∈ es) : c = d := by
  have := c.width_pos
  have := d.width_pos
  rcases h.apart hc hd with heq | hlt | hlt
  · exact (Prod.mk.inj heq).2
  · omega
  · omega

theorem find?_iff (h : Layout es n) {i : UInt16} {e : UInt16 × Constant} :
    es.find? (fun e => e.1 == i) = some e ↔ e.1 = i ∧ e ∈ es := by
  constructor
  · intro hf
    have hi := List.find?_some hf
    exact ⟨eq_of_beq hi, List.mem_of_find?_eq_some hf⟩
  · rintro ⟨rfl, hm⟩
    cases hf : es.find? (fun f => f.1 == e.1) with
    | none => exact absurd (List.find?_eq_none.mp hf e hm) (by simp)
    | some f =>
      have hb := List.find?_some hf
      have hi : f.1 = e.1 := eq_of_beq hb
      have hc : f.2 = e.2 := by
        refine h.entry_unique (i := e.1) ?_ hm
        rw [← hi]
        exact List.mem_of_find?_eq_some hf
      exact congrArg some (Prod.ext hi hc)

/-! ## Positions -/

theorem eq_one (h : Layout es n) (he : es = []) : n = 1 := by
  cases h with
  | nil => rfl
  | snoc => simp at he

theorem getLast? (h : Layout es n) {e : UInt16 × Constant} (he : es.getLast? = some e) :
    n = e.1.toNat + e.2.width.toNat := by
  cases h with
  | nil => cases he
  | snoc =>
    rw [List.getLast?_concat] at he
    cases he
    rfl

/-- Everything before an entry is a layout that leaves that entry's index free. -/
theorem split (h : Layout es n) {xs ys : List (UInt16 × Constant)} {e : UInt16 × Constant}
    (he : es = xs ++ e :: ys) :
    Layout xs e.1.toNat ∧ e.2.Fits ∧ e.2.RefersInto xs ∧ ∀ f ∈ xs, f.2 ≠ e.2 := by
  induction h generalizing ys with
  | nil => simp at he
  | snoc hes hfit href hnew ih =>
    rcases List.eq_nil_or_concat ys with rfl | ⟨zs, z, rfl⟩
    · obtain ⟨rfl, hl⟩ := List.append_inj' he rfl
      cases hl
      exact ⟨hes, hfit, href, hnew⟩
    · rw [List.concat_eq_append, ← List.cons_append, ← List.append_assoc] at he
      obtain ⟨hl, -⟩ := List.append_inj' he rfl
      exact ih hl

/-- The layout before position `k`, and what the entry there adds to it. -/
theorem at_ (h : Layout es n) {k : Nat} {e : UInt16 × Constant} (he : es[k]? = some e) :
    Layout (es.take k) e.1.toNat ∧ e.2.Fits ∧ e.2.RefersInto (es.take k) ∧
      ∀ f ∈ es.take k, f.2 ≠ e.2 := by
  obtain ⟨hk, rfl⟩ := List.getElem?_eq_some_iff.mp he
  have hes : es = es.take k ++ es[k] :: es.drop (k + 1) := by
    rw [← List.drop_eq_getElem_cons hk, List.take_append_drop]
  exact h.split hes

theorem fits (h : Layout es n) {e : UInt16 × Constant} (hm : e ∈ es) : e.2.Fits := by
  obtain ⟨xs, ys, he⟩ := List.append_of_mem hm
  exact (h.split he).2.1

end Layout

end ClassSynthesis
