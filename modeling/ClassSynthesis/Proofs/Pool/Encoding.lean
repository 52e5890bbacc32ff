import ClassSynthesis.ClassFile.Encoding
import ClassSynthesis.Proofs.Pool.Adding

/-!
# ClassSynthesis.Proofs.Pool.Encoding

Encoding against a pool. Whatever is asked, the pool grows and a failure stays (`Becomes`); as long
as there is no failure, the index that is used for a request stands for that request.
-/

namespace ClassSynthesis
namespace Encoding

@[simp] theorem pool_fail (enc : Encoding) (e : PoolError) : (enc.fail e).pool = enc.pool := by
  unfold fail
  split <;> rfl

/-- Only the first failure is kept. -/
theorem failure_fail_eq (enc : Encoding) (e : PoolError) :
    (enc.fail e).failure = some (enc.failure.getD e) := by
  unfold fail
  split
  · rename_i he
    rw [he]
    rfl
  · rename_i he
    rw [he]
    rfl

theorem failure_fail (enc : Encoding) (e : PoolError) : (enc.fail e).failure ≠ none := by
  rw [failure_fail_eq]
  exact Option.some_ne_none _

/-! ## Requests -/

@[simp] theorem pool_resolve (enc : Encoding) (r : Request) :
    (enc.resolve r).2.pool = (enc.pool.add r).2 := by
  simp only [resolve, ask]
  cases (enc.pool.add r).1 with
  | ok i => rfl
  | error e => exact pool_fail _ e

theorem failure_resolve_iff {enc : Encoding} (h : enc.failure = none) {r : Request}
    {e : PoolError} : (enc.resolve r).2.failure = some e ↔ (enc.pool.add r).1 = .error e := by
  simp only [resolve, ask]
  cases (enc.pool.add r).1 with
  | ok i => simp [use, h]
  | error e' => simp [use, failure_fail_eq, h]

theorem failure_resolve_of_failed {enc : Encoding} {e : PoolError} (h : enc.failure = some e)
    (r : Request) : (enc.resolve r).2.failure = some e := by
  simp only [resolve, ask]
  cases (enc.pool.add r).1 with
  | ok i => exact h
  | error e' =>
    rw [use, failure_fail_eq, h]
    rfl

/-- What encoding may lead to: the pool grows, and a failure stays. -/
structure Becomes (a b : Encoding) : Prop where
  wf : b.pool.Wf
  grows : a.pool.Extends b.pool
  unfailed : b.failure = none → a.failure = none

namespace Becomes

variable {a b c : Encoding}

theorem refl (h : a.pool.Wf) : a.Becomes a := ⟨h, .refl _, id⟩

theorem trans (hab : a.Becomes b) (hbc : b.Becomes c) : a.Becomes c :=
  ⟨hbc.wf, hab.grows.trans hbc.grows, fun h => hab.unfailed (hbc.unfailed h)⟩

end Becomes

section

variable {enc : Encoding} (h : enc.pool.Wf)
include h

theorem ask_becomes (r : Request) : enc.Becomes (enc.ask r).2 :=
  have hs := ConstantPool.add_sound h r
  ⟨hs.wf, hs.grows, id⟩

theorem requestAt?_of_ask {r : Request} {i : UInt16} (hi : (enc.ask r).1 = .ok i) :
    (enc.ask r).2.pool.requestAt? i = some r :=
  (ConstantPool.add_sound h r).answered i hi

theorem use_becomes (answer : Except PoolError UInt16) : enc.Becomes (enc.use answer).2 := by
  cases answer with
  | ok i => exact .refl h
  | error e =>
    refine ⟨?_, ?_, fun hf => absurd hf (enc.failure_fail e)⟩
    · simpa [use] using h
    · simpa [use] using .refl _

end

theorem answer_of_use {enc : Encoding} {answer : Except PoolError UInt16}
    (h : (enc.use answer).2.failure = none) : answer = .ok (enc.use answer).1 := by
  cases answer with
  | ok i => rfl
  | error e => exact absurd h (enc.failure_fail e)

end Encoding
end ClassSynthesis
