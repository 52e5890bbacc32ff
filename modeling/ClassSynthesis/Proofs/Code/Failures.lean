import Mathlib
import ClassSynthesis.Proofs.Code.Disassembly
import ClassSynthesis.Proofs.Emission.Valid

/-!
# ClassSynthesis.Proofs.Code.Failures

When the assembler fails. What is wrong with an instruction is said without the assembler: the pool
refuses what it refers to, or its operand is out of range (`Instruction.Fails`). The pool that an
instruction finds is the one after the requests of all instructions before it, whether these failed
or not, so that `FailsAt` is a statement about the list of instructions and the pool alone.

One instruction does one of three things (`write_cases`). From this a run has failed exactly if one
of its instructions fails, with the error of the first of them (`foldl_failure_iff`).

* `finish_latched`: the error of a code array, and the pool that is left behind. Valid fragments
  push constants in the form that holds them, so they fail on account of the pool only.
-/

namespace ClassSynthesis

namespace Instruction

/-- What the pool is asked for. -/
def request? : Instruction → Option Request
  | .push c => some (Assembler.request c)
  | .type _ internalName => some (.classRef internalName)
  | .field _ owner name descriptor => some (.fieldRef owner name descriptor)
  | .method _ owner name descriptor onInterface =>
    some (if onInterface then .interfaceMethodRef owner name descriptor
      else .methodRef owner name descriptor)
  | .plain _ | .immediate .. | .slot .. => none

/-- `BIPUSH` pushes a signed byte and `SIPUSH` a signed short. -/
def OperandFits : Instruction → Prop
  | .immediate op v =>
    (op = .bipush → -128 ≤ v.toInt ∧ v.toInt < 128) ∧
      (op = .sipush → -32768 ≤ v.toInt ∧ v.toInt < 32768)
  | _ => True

/-- What is wrong with an instruction, given the pool that it finds. -/
inductive Fails (pool : ConstantPool) : Instruction → PoolError → Prop where
  | refused {i : Instruction} {r : Request} {e : PoolError} (asked : i.request? = some r)
      (answer : (pool.add r).1 = .error e) : Fails pool i e
  | operand {op : Opcode} {v : Int32} (misfit : ¬(Instruction.immediate op v).OperandFits) :
      Fails pool (.immediate op v) (.operandOutOfRange op v.toInt)

/-- What a list of instructions asks the pool for, in order. -/
def requests (code : List Instruction) : List Request := code.filterMap request?

theorem requests_cons (i : Instruction) (code : List Instruction) :
    requests (i :: code) = i.request?.toList ++ requests code := by
  cases h : i.request? <;> simp [requests, h]

/-- The instruction at a position fails in the pool that the ones before it leave. -/
def FailsAt (pool : ConstantPool) (code : List Instruction) (k : Nat) (e : PoolError) : Prop :=
  ∃ i, code[k]? = some i ∧ i.Fails (pool.after (requests (code.take k))) e

section

variable {pool : ConstantPool} {i : Instruction} {code : List Instruction} {k : Nat} {e : PoolError}

theorem not_failsAt_nil : ¬FailsAt pool [] k e := by
  rintro ⟨i, hi, -⟩
  cases hi

theorem failsAt_zero : FailsAt pool (i :: code) 0 e ↔ i.Fails pool e := by
  constructor
  · rintro ⟨j, hj, he⟩
    cases hj
    exact he
  · intro he
    exact ⟨i, rfl, he⟩

theorem failsAt_succ :
    FailsAt pool (i :: code) (k + 1) e ↔ FailsAt (pool.after i.request?.toList) code k e := by
  have hafter : pool.after (requests ((i :: code).take (k + 1))) =
      (pool.after i.request?.toList).after (requests (code.take k)) := by
    rw [List.take_succ_cons, requests_cons, ConstantPool.after, List.foldl_append]
    rfl
  rw [FailsAt, hafter]
  rfl

theorem exists_first_failsAt (h : ∃ k e, FailsAt pool code k e) :
    ∃ k e, FailsAt pool code k e ∧ ∀ j < k, ∀ e', ¬FailsAt pool code j e' := by
  classical
  obtain ⟨e, he⟩ := Nat.find_spec h
  exact ⟨Nat.find h, e, he, fun j hj e' he' => Nat.find_min h hj ⟨e', he'⟩⟩

/-- Refusals are never about an operand. -/
theorem OperandFits.not_fails (h : i.OperandFits) (op : Opcode) (v : Int) :
    ¬i.Fails pool (.operandOutOfRange op v) := by
  rintro (⟨-, answer⟩ | misfit)
  · rcases pool.add_refusedFairly _ _ answer with he | ⟨n, he⟩ <;> cases he
  · exact misfit h

end

end Instruction

open Instruction

namespace Assembler

variable {a : Assembler} {i : Instruction} {e : PoolError}

/-! ## One instruction -/

theorem immediate_of_fits {op : Opcode} {v : Int32}
    (h : (Instruction.immediate op v).OperandFits) :
    (a.immediate op v).encoding = a.encoding := by
  unfold immediate
  by_cases hb : op = .bipush
  · rw [if_pos hb, if_pos (Operation.toInt8_toInt32_iff.mpr (h.1 hb))]
    rfl
  · rw [if_neg hb]
    by_cases hs : op = .sipush
    · rw [if_pos hs, if_pos (Operation.toInt16_toInt32_iff.mpr (h.2 hs))]
      rfl
    · rw [if_neg hs]
      rfl

theorem immediate_of_misfit {op : Opcode} {v : Int32}
    (h : ¬(Instruction.immediate op v).OperandFits) :
    (a.immediate op v).encoding = a.encoding.fail (.operandOutOfRange op v.toInt) := by
  unfold immediate
  by_cases hb : op = .bipush
  · have hv : ¬v.toInt8.toInt32 = v := by
      rw [Operation.toInt8_toInt32_iff]
      intro hv
      exact h ⟨fun _ => hv, fun hs => absurd (hb.symm.trans hs) (by decide)⟩
    rw [if_pos hb, if_neg hv]
    rfl
  · by_cases hs : op = .sipush
    · have hv : ¬v.toInt16.toInt32 = v := by
        rw [Operation.toInt16_toInt32_iff]
        intro hv
        exact h ⟨fun hb' => absurd hb' hb, fun _ => hv⟩
      rw [if_neg hb, if_pos hs, if_neg hv]
      rfl
    · exact absurd ⟨fun hb' => absurd hb' hb, fun hs' => absurd hs' hs⟩ h

/-- An instruction asks the pool, fails by its operand, or does neither. -/
theorem write_cases (a : Assembler) (i : Instruction) :
    (∃ r, i.request? = some r ∧ i.OperandFits ∧ (a.write i).encoding = (a.encoding.resolve r).2) ∨
    (∃ op v, i = .immediate op v ∧ ¬i.OperandFits ∧
      (a.write i).encoding = a.encoding.fail (.operandOutOfRange op v.toInt)) ∨
    (i.request? = none ∧ i.OperandFits ∧ (a.write i).encoding = a.encoding) := by
  cases i with
  | plain op => exact .inr (.inr ⟨rfl, trivial, rfl⟩)
  | immediate op v =>
    by_cases h : (Instruction.immediate op v).OperandFits
    · exact .inr (.inr ⟨rfl, h, immediate_of_fits h⟩)
    · exact .inr (.inl ⟨op, v, rfl, h, immediate_of_misfit h⟩)
  | push c => exact .inl ⟨_, rfl, trivial, rfl⟩
  | slot op index => exact .inr (.inr ⟨rfl, trivial, rfl⟩)
  | type op name => exact .inl ⟨_, rfl, trivial, rfl⟩
  | field op owner name descriptor => exact .inl ⟨_, rfl, trivial, rfl⟩
  | method op owner name descriptor onInterface => exact .inl ⟨_, rfl, trivial, rfl⟩

theorem write_pool (a : Assembler) (i : Instruction) :
    (a.write i).encoding.pool = a.encoding.pool.after i.request?.toList := by
  rcases write_cases a i with ⟨r, hr, -, hw⟩ | ⟨op, v, rfl, -, hw⟩ | ⟨hr, -, hw⟩
  · rw [hw, hr, Encoding.pool_resolve]
    rfl
  · rw [hw, Encoding.pool_fail]
    rfl
  · rw [hw, hr]
    rfl

theorem write_latched (h : a.encoding.failure = some e) (i : Instruction) :
    (a.write i).encoding.failure = some e := by
  rcases write_cases a i with ⟨r, -, -, hw⟩ | ⟨op, v, -, -, hw⟩ | ⟨-, -, hw⟩
  · rw [hw, Encoding.failure_resolve_of_failed h]
  · rw [hw, Encoding.failure_fail_eq, h]
    rfl
  · rw [hw, h]

theorem write_failure_iff (h : a.encoding.failure = none) :
    (a.write i).encoding.failure = some e ↔ i.Fails a.encoding.pool e := by
  rcases write_cases a i with ⟨r, hr, hfits, hw⟩ | ⟨op, v, rfl, hmisfit, hw⟩ | ⟨hr, hfits, hw⟩
  · rw [hw, Encoding.failure_resolve_iff h]
    constructor
    · exact .refused hr
    · rintro (⟨hs, he⟩ | hmisfit)
      · rw [hr] at hs
        cases hs
        exact he
      · exact absurd hfits hmisfit
  · rw [hw, Encoding.failure_fail_eq, h]
    constructor
    · rintro ⟨⟩
      exact .operand hmisfit
    · rintro (⟨hs, -⟩ | -)
      · cases hs
      · rfl
  · rw [hw, h]
    constructor
    · rintro ⟨⟩
    · rintro (⟨hs, -⟩ | hmisfit)
      · rw [hr] at hs
        cases hs
      · exact absurd hfits hmisfit

/-! ## All instructions -/

theorem foldl_pool (code : List Instruction) (a : Assembler) :
    (code.foldl write a).encoding.pool = a.encoding.pool.after (requests code) := by
  induction code generalizing a with
  | nil => rfl
  | cons i is ih =>
    rw [List.foldl_cons, ih, write_pool, requests_cons]
    simp only [ConstantPool.after, List.foldl_append]

theorem foldl_latched (h : a.encoding.failure = some e) (code : List Instruction) :
    (code.foldl write a).encoding.failure = some e := by
  induction code generalizing a with
  | nil => exact h
  | cons i is ih => exact ih (write_latched h i)

theorem foldl_failure_iff (h : a.encoding.failure = none) {code : List Instruction} :
    (code.foldl write a).encoding.failure = some e ↔
      ∃ k, FailsAt a.encoding.pool code k e ∧
        ∀ j < k, ∀ e', ¬FailsAt a.encoding.pool code j e' := by
  induction code generalizing a with
  | nil => simp [h, not_failsAt_nil]
  | cons i is ih =>
    rw [List.foldl_cons]
    cases hi : (a.write i).encoding.failure with
    | some e' =>
      -- The first instruction is the first to fail.
      have hfails := (write_failure_iff h).mp hi
      rw [foldl_latched hi]
      constructor
      · rintro ⟨⟩
        exact ⟨0, failsAt_zero.mpr hfails, fun j hj => absurd hj (Nat.not_lt_zero j)⟩
      · rintro ⟨k, hk, hbefore⟩
        cases k with
        | zero =>
          rw [← hi]
          exact (write_failure_iff h).mpr (failsAt_zero.mp hk)
        | succ k => exact absurd (failsAt_zero.mpr hfails) (hbefore 0 (Nat.succ_pos k) e')
    | none =>
      have hunfailed : ∀ e', ¬FailsAt a.encoding.pool (i :: is) 0 e' := by
        intro e' he'
        have hsome := (write_failure_iff h).mpr (failsAt_zero.mp he')
        rw [hi] at hsome
        cases hsome
      rw [ih hi, write_pool]
      constructor
      · rintro ⟨k, hk, hbefore⟩
        refine ⟨k + 1, failsAt_succ.mpr hk, fun j hj e' => ?_⟩
        cases j with
        | zero => exact hunfailed e'
        | succ j =>
          rw [failsAt_succ]
          exact hbefore j (Nat.lt_of_succ_lt_succ hj) e'
      · rintro ⟨k, hk, hbefore⟩
        cases k with
        | zero => exact absurd hk (hunfailed e)
        | succ k =>
          refine ⟨k, failsAt_succ.mp hk, fun j hj e' => ?_⟩
          rw [← failsAt_succ]
          exact hbefore (j + 1) (Nat.succ_lt_succ hj) e'

theorem finish_error_iff : a.finish = .error e ↔ a.encoding.failure = some e := by
  unfold finish
  cases a.encoding.failure <;> simp

end Assembler

/-! ## Operands of valid fragments -/

namespace Operation

theorem pushNumber_operandFits (n : Number) : (pushNumber n).OperandFits := by
  cases n with
  | int v =>
    simp only [pushNumber, pushInt]
    split
    · trivial
    · split
      · rename_i hv
        exact ⟨fun _ => toInt8_toInt32_iff.mp hv, fun hs => absurd hs (by decide)⟩
      · split
        · rename_i hv
          exact ⟨fun hb => absurd hb (by decide), fun _ => toInt16_toInt32_iff.mp hv⟩
        · trivial
  | long v =>
    simp only [pushNumber, pushLong]
    split_ifs <;> trivial
  | float bits =>
    simp only [pushNumber, pushFloat]
    split_ifs <;> trivial
  | double bits =>
    simp only [pushNumber, pushDouble]
    split_ifs <;> trivial

theorem instructions_operandFit {version : ClassFileVersion} (o : Operation) :
    ∀ i ∈ o.instructions version, i.OperandFits := by
  cases o with
  | number n => simpa [instructions] using pushNumber_operandFits n
  | classLiteral t =>
    simp only [instructions, pushClass]
    split
    · simp [OperandFits]
    · split <;> simp [OperandFits]
  | defaultValue t =>
    simp only [instructions, pushDefault]
    split <;> simp [OperandFits]
  | duplicate w => cases w <;> simp [instructions, duplicateInstructions, OperandFits]
  | remove w => cases w <;> simp [instructions, removeInstructions, OperandFits]
  | _ => simp [instructions, fieldInstruction, CallSite.instruction, OperandFits]

end Operation

namespace Fragment

variable {version : ClassFileVersion}

theorem allocation_operandFits (component : TypeDesc) : (allocation component).OperandFits := by
  unfold allocation
  split
  · exact ⟨fun h => absurd h (by decide), fun h => absurd h (by decide)⟩
  · trivial

theorem emit_operandsFit {f : Fragment} (h : f.isValid = true) :
    ∀ i ∈ (f.emit version).code, i.OperandFits := by
  intro i hi
  rw [← Array.mem_toList_iff, (emit_complete f h).written] at hi
  exact forall_instructions (fun o _ => o.instructions_operandFit) allocation_operandFits f h i hi

end Fragment

/-! ## Code arrays -/

namespace Assembler

/-- Later pools extend earlier ones, along a list of instructions. -/
theorem extends_after_requests {pool : ConstantPool} (h : pool.Wf) (code : List Instruction)
    (k : Nat) :
    (pool.after (requests (code.take k))).Extends (pool.after (requests code)) := by
  have hx := ConstantPool.extends_after (ConstantPool.after_wf h (requests (code.take k)))
    (requests (code.drop k))
  have hafter : (pool.after (requests (code.take k))).after (requests (code.drop k)) =
      pool.after (requests code) := by
    rw [ConstantPool.after, ConstantPool.after, ← List.foldl_append, requests, requests,
      ← List.filterMap_append, List.take_append_drop]
    rfl
  rwa [hafter] at hx

/-- The first instruction to fail decides how a code array ends. The pool takes the requests of
all instructions, whichever fail. -/
theorem finish_latched (history : List Request) (visits : List Instruction) :
    let pool := ConstantPool.empty.after history
    let a := visits.foldl write (start pool)
    ((∃ e, a.finish = .error e) ↔ ∃ k e, FailsAt pool visits k e) ∧
    (∀ e, a.finish = .error e ↔
      ∃ k, FailsAt pool visits k e ∧ ∀ j < k, ∀ e', ¬FailsAt pool visits j e') ∧
    (∀ e, ∀ later : List Instruction,
      a.finish = .error e → (later.foldl write a).finish = .error e) ∧
    (∀ k, ((visits.take k).foldl write (start pool)).encoding.pool =
      pool.after (requests (visits.take k))) ∧
    a.encoding.pool.Representation ∧
    (∀ k, (pool.after (requests (visits.take k))).Extends a.encoding.pool) ∧
    ((∀ i ∈ visits, ∃ (version : ClassFileVersion) (f : Fragment),
        f.isValid = true ∧ i ∈ (f.emit version).code) →
      ∀ op v, a.finish ≠ .error (.operandOutOfRange op v)) := by
  intro pool a
  have hwf : pool.Wf := ConstantPool.after_wf ConstantPool.empty_wf history
  have hpool : ∀ code : List Instruction,
      (code.foldl write (start pool)).encoding.pool = pool.after (requests code) :=
    fun code => foldl_pool code (start pool)
  have hfirst : ∀ e, a.finish = .error e ↔
      ∃ k, FailsAt pool visits k e ∧ ∀ j < k, ∀ e', ¬FailsAt pool visits j e' := by
    intro e
    rw [finish_error_iff]
    exact foldl_failure_iff rfl
  refine ⟨?_, hfirst, ?_, fun k => hpool (visits.take k), ?_, ?_, ?_⟩
  · constructor
    · rintro ⟨e, he⟩
      obtain ⟨k, hk, -⟩ := (hfirst e).mp he
      exact ⟨k, e, hk⟩
    · intro h
      obtain ⟨k, e, hk, hbefore⟩ := exists_first_failsAt h
      exact ⟨e, (hfirst e).mpr ⟨k, hk, hbefore⟩⟩
  · intro e later he
    exact finish_error_iff.mpr (foldl_latched (finish_error_iff.mp he) later)
  · rw [hpool visits]
    exact (ConstantPool.after_wf hwf (requests visits)).representation
  · intro k
    rw [hpool visits]
    exact extends_after_requests hwf visits k
  · intro hvalid op v he
    obtain ⟨k, ⟨i, hi, hfails⟩, -⟩ := (hfirst _).mp he
    obtain ⟨version, f, hf, hmem⟩ := hvalid i (List.mem_of_getElem? hi)
    exact (Fragment.emit_operandsFit hf i hmem).not_fails op v hfails

/-- Of two pushes out of range the first is reported, whatever follows. An array of large numbers
is made without such a failure. -/
theorem finish_latched_forms :
    let pool := ConstantPool.empty.after [.utf8 "b"]
    let misfits : List Instruction :=
      [.push (.string "a"), .immediate .bipush 1000, .immediate .sipush 70000]
    let array : Fragment :=
      .newArray (.primitive .int) [.op (.number (.int 1000)), .op (.number (.int 70000))]
    (∀ later : List Instruction,
      (later.foldl write (misfits.foldl write (start pool))).finish =
        .error (.operandOutOfRange .bipush 1000)) ∧
    ∀ op v, ((array.emit .standard).code.toList.foldl write (start pool)).finish ≠
      .error (.operandOutOfRange op v) := by
  have htext : ((ConstantPool.empty.after [.utf8 "b"]).add (.string "a")).1 = .ok 3 := by cbv
  intro pool misfits array
  constructor
  · intro later
    obtain ⟨-, hfirst, hlatched, -⟩ := finish_latched [.utf8 "b"] misfits
    refine hlatched _ later ((hfirst _).mpr ⟨1, ?_, ?_⟩)
    · exact ⟨_, rfl, .operand fun h => absurd (h.1 rfl).2 (by decide)⟩
    · intro j hj e
      rw [Nat.lt_one_iff.mp hj, failsAt_zero]
      rintro ⟨⟨⟩, answer⟩
      cases htext.symm.trans answer
  · obtain ⟨-, -, -, -, -, -, hvalid⟩ :=
      finish_latched [.utf8 "b"] (array.emit .standard).code.toList
    exact hvalid fun i hi => ⟨.standard, array, rfl, Array.mem_toList_iff.mp hi⟩

end Assembler
end ClassSynthesis
