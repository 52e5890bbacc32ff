import ClassSynthesis.Proofs.Pool.Layout

/-!
# ClassSynthesis.Proofs.Pool.Resolution

What an index of the pool stands for. `requestAt?` reads the entry at an index and follows the
indices inside it, down to texts: the answer is the request that such an entry satisfies.

`Extends p q` says that `q` has the entries of `p`, and perhaps more after them. Whatever an index
stands for in `p`, it stands for in `q`.
-/

namespace ClassSynthesis
namespace ConstantPool

def textAt? (pool : ConstantPool) (i : UInt16) : Option String :=
  match pool.entry? i with
  | .ok (.utf8 s) => some s
  | _ => none

def classAt? (pool : ConstantPool) (i : UInt16) : Option String :=
  match pool.entry? i with
  | .ok (.classRef j) => pool.textAt? j
  | _ => none

def textsAt? (pool : ConstantPool) (i j : UInt16) : Option (String × String) :=
  match pool.textAt? i, pool.textAt? j with
  | some s, some t => some (s, t)
  | _, _ => none

/-- Name and descriptor. -/
def signatureAt? (pool : ConstantPool) (i : UInt16) : Option (String × String) :=
  match pool.entry? i with
  | .ok (.nameAndType j k) => pool.textsAt? j k
  | _ => none

/-- A member of a class by the indices of its owner and of its signature. -/
def memberAt? (pool : ConstantPool) (ref : String → String → String → Request)
    (owner signature : UInt16) : Option Request :=
  match pool.classAt? owner, pool.signatureAt? signature with
  | some owner, some (name, descriptor) => some (ref owner name descriptor)
  | _, _ => none

/-- Kind and content of the entry at an index. -/
def requestAt? (pool : ConstantPool) (i : UInt16) : Option Request :=
  match pool.entry? i with
  | .ok (.utf8 s) => some (.utf8 s)
  | .ok (.number n) => some (.number n)
  | .ok (.classRef j) => (pool.textAt? j).map .classRef
  | .ok (.string j) => (pool.textAt? j).map .string
  | .ok (.methodType j) => (pool.textAt? j).map .methodType
  | .ok (.nameAndType j k) =>
    (pool.textsAt? j k).map fun (name, descriptor) => .nameAndType name descriptor
  | .ok (.fieldRef j k) => pool.memberAt? .fieldRef j k
  | .ok (.methodRef j k) => pool.memberAt? .methodRef j k
  | .ok (.interfaceMethodRef j k) => pool.memberAt? .interfaceMethodRef j k
  | .error _ => none

/-! ## Reading one level -/

section

variable {pool : ConstantPool} {i : UInt16}

theorem entry?_of_textAt? {s : String}
    (hi : pool.textAt? i = some s) : pool.entry? i = .ok (.utf8 s) := by
  unfold textAt? at hi
  split at hi
  · rename_i he
    cases hi
    exact he
  · cases hi

theorem entry?_of_classAt? {s : String}
    (hi : pool.classAt? i = some s) :
    ∃ j, pool.entry? i = .ok (.classRef j) ∧ pool.textAt? j = some s := by
  unfold classAt? at hi
  split at hi
  · rename_i j he
    exact ⟨j, he, hi⟩
  · cases hi

theorem entry?_of_signatureAt? {s : String × String}
    (hi : pool.signatureAt? i = some s) :
    ∃ j k, pool.entry? i = .ok (.nameAndType j k) ∧ pool.textsAt? j k = some s := by
  unfold signatureAt? at hi
  split at hi
  · rename_i j k he
    exact ⟨j, k, he, hi⟩
  · cases hi

theorem textAt?_of_textsAt? {j : UInt16} {s t : String} (h : pool.textsAt? i j = some (s, t)) :
    pool.textAt? i = some s ∧ pool.textAt? j = some t := by
  unfold textsAt? at h
  split at h
  · rename_i hi hj
    cases h
    exact ⟨hi, hj⟩
  · cases h

theorem parts_of_memberAt? {j : UInt16} {ref : String → String → String → Request} {r : Request}
    (h : pool.memberAt? ref i j = some r) :
    ∃ owner name descriptor, pool.classAt? i = some owner ∧
      pool.signatureAt? j = some (name, descriptor) ∧ r = ref owner name descriptor := by
  unfold memberAt? at h
  split at h
  · rename_i owner name descriptor hi hj
    cases h
    exact ⟨owner, name, descriptor, hi, hj, rfl⟩
  · cases h

theorem requestAt?_utf8 {s : String}
    (hi : pool.textAt? i = some s) : pool.requestAt? i = some (.utf8 s) := by
  simp [requestAt?, entry?_of_textAt? hi]

theorem requestAt?_classRef {s : String}
    (hi : pool.classAt? i = some s) : pool.requestAt? i = some (.classRef s) := by
  obtain ⟨j, he, hj⟩ := entry?_of_classAt? hi
  simp [requestAt?, he, hj]

theorem requestAt?_nameAndType {name descriptor : String}
    (hi : pool.signatureAt? i = some (name, descriptor)) :
    pool.requestAt? i = some (.nameAndType name descriptor) := by
  obtain ⟨j, k, he, hj⟩ := entry?_of_signatureAt? hi
  simp [requestAt?, he, hj]

end

/-! ## More entries -/

/-- The pool with entries added after those it has. -/
def Extends (p q : ConstantPool) : Prop := p.entries.toList <+: q.entries.toList

namespace Extends

variable {p q r : ConstantPool}

theorem refl (p : ConstantPool) : p.Extends p := List.prefix_rfl

theorem trans (h : p.Extends q) (h' : q.Extends r) : p.Extends r := List.IsPrefix.trans h h'

theorem entry? (h : p.Extends q) {i : UInt16} {c : Constant} (hi : p.entry? i = .ok c) :
    q.entry? i = .ok c := by
  obtain ⟨rest, hrest⟩ := h
  unfold ConstantPool.entry? at hi ⊢
  rw [← Array.find?_toList] at hi ⊢
  split at hi
  · rename_i hf
    rw [← hrest, List.find?_append, hf]
    exact hi
  · cases hi

theorem textAt? (h : p.Extends q) {i : UInt16} {s : String} (hi : p.textAt? i = some s) :
    q.textAt? i = some s := by
  unfold ConstantPool.textAt? at hi
  split at hi
  · rename_i he
    cases hi
    simp [ConstantPool.textAt?, h.entry? he]
  · cases hi

theorem classAt? (h : p.Extends q) {i : UInt16} {s : String} (hi : p.classAt? i = some s) :
    q.classAt? i = some s := by
  unfold ConstantPool.classAt? at hi
  split at hi
  · rename_i he
    simp [ConstantPool.classAt?, h.entry? he, h.textAt? hi]
  · cases hi

theorem textsAt? (h : p.Extends q) {i j : UInt16} {s : String × String}
    (hs : p.textsAt? i j = some s) : q.textsAt? i j = some s := by
  unfold ConstantPool.textsAt? at hs
  split at hs
  · rename_i hi hj
    cases hs
    simp [ConstantPool.textsAt?, h.textAt? hi, h.textAt? hj]
  · cases hs

theorem signatureAt? (h : p.Extends q) {i : UInt16} {s : String × String}
    (hi : p.signatureAt? i = some s) : q.signatureAt? i = some s := by
  unfold ConstantPool.signatureAt? at hi
  split at hi
  · rename_i he
    simp [ConstantPool.signatureAt?, h.entry? he, h.textsAt? hi]
  · cases hi

theorem memberAt? (h : p.Extends q) {ref : String → String → String → Request} {i j : UInt16}
    {m : Request} (hm : p.memberAt? ref i j = some m) : q.memberAt? ref i j = some m := by
  unfold ConstantPool.memberAt? at hm
  split at hm
  · rename_i hi hj
    cases hm
    simp [ConstantPool.memberAt?, h.classAt? hi, h.signatureAt? hj]
  · cases hm

theorem requestAt? (h : p.Extends q) {i : UInt16} {m : Request} (hi : p.requestAt? i = some m) :
    q.requestAt? i = some m := by
  unfold ConstantPool.requestAt? at hi
  split at hi
  all_goals rename_i he; try rw [ConstantPool.requestAt?, h.entry? he]
  case h_1 | h_2 => exact hi
  case h_3 | h_4 | h_5 =>
    obtain ⟨s, hs, rfl⟩ := Option.map_eq_some_iff.mp hi
    simp [h.textAt? hs]
  case h_6 =>
    obtain ⟨s, hs, rfl⟩ := Option.map_eq_some_iff.mp hi
    simp [h.textsAt? hs]
  case h_7 | h_8 | h_9 => exact h.memberAt? hi
  case h_10 => cases hi

end Extends

end ConstantPool
end ClassSynthesis
