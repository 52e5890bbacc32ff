import Mathlib
import ClassSynthesis.ClassFile.Assembler
import ClassSynthesis.Emission.MethodBody
import ClassSynthesis.Proofs.Emission.Valid

/-!
# ClassSynthesis.Proofs.Emission.Bodies

What appending a method body comes to. A fragment is refused before anything is written, or it is
valid and the method's own slots fit; then all of it is written, and only the height of its operand
stack is left to go wrong (`appendFragment_outcome`).

* `append_untouched_iff`: a failed append leaves recorders and assemblers as they are, except that
  an operand stack too high is reported after the whole body has been written.
* `append_overflow_touches`: there are such bodies, 32768 constants of two slots for one.
-/

namespace ClassSynthesis
namespace MethodBody

/-- Whatever was recorded, and whatever was assembled over any pool, stays as it is. -/
def Appended.Untouched (r : Appended) : Prop :=
  (∀ recorded : Array Instruction, recorded ++ r.code = recorded) ∧
    ∀ a : Assembler, a.writeAll r.code = a

theorem untouched_iff {r : Appended} : r.Untouched ↔ r.code = #[] := by
  constructor
  · intro h
    have hnone := h.1 #[]
    rwa [Array.empty_append] at hnone
  · intro h
    refine ⟨fun recorded => ?_, fun a => ?_⟩
    · rw [h, Array.append_empty]
    · rw [h]
      rfl

/-! ## Appending a fragment -/

/-- The four ways in which appending a fragment can end. -/
inductive Outcome (version : ClassFileVersion) (m : MethodDesc) (f : Fragment) :
    Appended → Prop where
  | invalid (hf : f.isValid = false) :
      Outcome version m f (refused (.illegalFragment ("body of " ++ m.text)))
  | crowded (hf : f.isValid = true) (hm : slotLimit < m.argumentSlots) :
      Outcome version m f (refused (.tooManyLocals m.argumentSlots))
  | overflow {code : Array Instruction} {effect : StackEffect} (hf : f.isValid = true)
      (hm : m.argumentSlots ≤ slotLimit) (he : f.emit version = ⟨code, .ok effect⟩)
      (hp : slotLimit < effect.peak) :
      Outcome version m f ⟨code, .error (.stackOverflow effect.peak)⟩
  | framed {code : Array Instruction} {effect : StackEffect} (hf : f.isValid = true)
      (hm : m.argumentSlots ≤ slotLimit) (he : f.emit version = ⟨code, .ok effect⟩)
      (hp : effect.peak ≤ slotLimit) :
      Outcome version m f ⟨code, .ok ⟨.ofNat effect.peak.toNat, .ofNat m.argumentSlots⟩⟩

variable {version : ClassFileVersion} {m : MethodDesc} {f : Fragment} {r : Appended}

theorem appendFragment_outcome (version : ClassFileVersion) (m : MethodDesc) (f : Fragment) :
    Outcome version m f (appendFragment version m f) := by
  unfold appendFragment
  by_cases hf : f.isValid = true
  · rw [if_neg (by simp [hf])]
    by_cases hm : slotLimit < m.argumentSlots
    · rw [if_pos hm]
      exact .crowded hf hm
    · rw [if_neg hm]
      have hm' := Nat.le_of_not_lt hm
      have hcomplete : (f.emit version).Complete _ := Fragment.emit_complete f hf
      obtain ⟨effect, he, hpos, -⟩ := hcomplete.ended
      have hemit : f.emit version = ⟨(f.emit version).code, .ok effect⟩ := by rw [← he]
      simp only [he]
      unfold frame
      by_cases hp : effect.peak ≤ slotLimit
      · rw [if_pos ⟨hpos, hp⟩]
        exact .framed hf hm' hemit hp
      · rw [if_neg fun h => hp h.2]
        exact .overflow hf hm' hemit (Int.lt_of_not_ge hp)
  · rw [if_pos (by simp [hf])]
    exact .invalid (by simpa using hf)

theorem code_of_emit {code : Array Instruction} {effect : StackEffect} (hf : f.isValid = true)
    (he : f.emit version = ⟨code, .ok effect⟩) :
    code.toList = f.instructions version ∧ (code = #[] → effect = .zero) := by
  have hcomplete : (f.emit version).Complete _ := Fragment.emit_complete f hf
  rw [he] at hcomplete
  obtain ⟨hcode, s, hs, -, hzero⟩ := hcomplete
  cases hs
  refine ⟨hcode, fun h => hzero ?_⟩
  rw [← hcode, h]

theorem Outcome.untouched_iff {e : BodyError} (h : Outcome version m f r)
    (he : r.result = .error e) : r.Untouched ↔ ∀ required, e ≠ .stackOverflow required := by
  rw [MethodBody.untouched_iff]
  cases h with
  | invalid hf =>
    cases he
    exact ⟨nofun, fun _ => rfl⟩
  | crowded hf hm =>
    cases he
    exact ⟨nofun, fun _ => rfl⟩
  | @overflow code effect hf hm hemit hp =>
    cases he
    constructor
    · intro hcode
      -- Without instructions the stack would not have moved.
      rw [(code_of_emit hf hemit).2 hcode] at hp
      exact absurd hp (by decide)
    · intro h
      exact absurd rfl (h effect.peak)
  | framed hf hm hemit hp => cases he

theorem Outcome.of_overflow {required : Int} (h : Outcome version m f r)
    (he : r.result = .error (.stackOverflow required)) :
    slotLimit < required ∧ r.code.toList = f.instructions version ∧
      ∃ effect, (f.emit version).outcome = .ok effect ∧ effect.peak = required := by
  cases h with
  | invalid hf => cases he
  | crowded hf hm => cases he
  | @overflow code effect hf hm hemit hp =>
    cases he
    refine ⟨hp, (code_of_emit hf hemit).1, effect, ?_, rfl⟩
    rw [hemit]
  | framed hf hm hemit hp => cases he

/-! ## An operand stack too high -/

theorem emitAll_pushes {o : Operation} {w : Width} (hv : o.isValid = true)
    (he : o.effect = .push w) (n : Nat) {before : Emission} {height : Nat}
    (hb : before.outcome = .ok (.shift height)) :
    (Fragment.emitAll version before (List.replicate n (.op o))).outcome =
      .ok (.shift (height + n * w.slots : Nat)) := by
  induction n generalizing before height with
  | zero => simpa [Fragment.emitAll] using hb
  | succ n ih =>
    have hnext : (before.andThen ((Fragment.op o).emit version)).outcome =
        .ok (.shift (height + w.slots : Nat)) := by
      obtain ⟨code, outcome⟩ := before
      cases hb
      simp only [Fragment.emit, Operation.emit, Operation.misuse?_of_isValid hv, he,
        Emission.andThen, StackEffect.andThen, StackEffect.push, StackEffect.shift,
        Except.ok.injEq, StackEffect.mk.injEq]
      omega
    have hslots : height + w.slots + n * w.slots = height + (n + 1) * w.slots := by
      rw [Nat.succ_mul]
      omega
    rw [List.replicate_succ, Fragment.emitAll, ih hnext, hslots]

/-- The constants of a body are all on the stack at its end, so enough of them overflow it. -/
theorem append_pushes {o : Operation} {w : Width} {n : Nat} (hm : m.argumentSlots ≤ slotLimit)
    (hv : o.isValid = true) (he : o.effect = .push w) (hn : slotLimit < n * w.slots) :
    (append version m (.fragments (List.replicate n (.op o)))).result =
      .error (.stackOverflow (n * w.slots : Nat)) := by
  have hvalid : (Fragment.sequence (List.replicate n (.op o))).isValid = true := by
    refine Fragment.allValid_iff.mpr fun f hf => ?_
    rw [List.eq_of_mem_replicate hf]
    exact hv
  have hstart : Emission.nothing.outcome = .ok (.shift (0 : Nat)) := rfl
  have hpushes : (Fragment.emitAll version _ _).outcome = _ := emitAll_pushes hv he n hstart
  rw [Nat.zero_add] at hpushes
  have hpeak : (StackEffect.shift (n * w.slots : Nat)).peak = (n * w.slots : Nat) :=
    Int.max_eq_left (Int.natCast_nonneg _)
  have ho := appendFragment_outcome version m (.sequence (List.replicate n (.op o)))
  rw [append]
  -- The outcomes are told apart by what was appended, which has to be a variable for that.
  generalize appendFragment version m (.sequence (List.replicate n (.op o))) = r at ho ⊢
  cases ho with
  | invalid hf => simp [hvalid] at hf
  | crowded hf hm' => omega
  | overflow hf hm' hemit hp =>
    rw [Fragment.emit] at hemit
    rw [hemit] at hpushes
    cases hpushes
    rw [hpeak]
  | framed hf hm' hemit hp =>
    rw [Fragment.emit] at hemit
    rw [hemit] at hpushes
    cases hpushes
    rw [hpeak] at hp
    omega

/-- A static method without arguments. -/
def plainMethod : MethodDesc :=
  ⟨.classNamed "A", "f", .void, [], .ofList [.pub, .static], []⟩

/-- Constants of two slots, one more than the operand stack may hold. -/
def tooManyConstants : MethodBody :=
  .fragments (List.replicate 32768 (.op (.number (.long 0))))

theorem tooManyConstants_overflow :
    (append .standard plainMethod tooManyConstants).result = .error (.stackOverflow 65536) := by
  have hm : plainMethod.argumentSlots ≤ slotLimit := by decide
  have hn : slotLimit < 32768 * Width.double.slots := by decide
  exact append_pushes (o := .number (.long 0)) hm rfl rfl hn

/-! ## Appending a body -/

/-- An exception takes two slots, its copy included, and a message one more. -/
theorem throwFragment_emit (version : ClassFileVersion) (exception : TypeDesc)
    (message : Option String) : ((throwFragment exception message).emit version).outcome =
      .ok ⟨0, if message.isSome then 3 else 2⟩ := by
  cases message <;> cbv

theorem throwing_fits {exception : TypeDesc} {message : Option String} {required : Int} :
    (append version m (.throwing exception message)).result ≠ .error (.stackOverflow required) := by
  intro h
  rw [append] at h
  by_cases ht : TypeDesc.throwable.isAssignableFrom exception = true
  · rw [if_pos ht] at h
    obtain ⟨hp, -, effect, he, rfl⟩ := (appendFragment_outcome version m _).of_overflow h
    rw [throwFragment_emit] at he
    cases he
    have hlow : (if message.isSome then 3 else 2 : Int) ≤ slotLimit := by
      split <;> decide
    exact absurd hp (Int.not_lt.mpr hlow)
  · rw [if_neg ht] at h
    cases h

theorem append_untouched_iff (version : ClassFileVersion) (m : MethodDesc) (body : MethodBody)
    {e : BodyError} (h : (append version m body).result = .error e) :
    ((append version m body).Untouched ↔ ∀ required, e ≠ .stackOverflow required) ∧
      ∀ required, e = .stackOverflow required →
        ∃ items effect, body = .fragments items ∧
          (append version m body).code.toList = Fragment.instructionsOf version items ∧
          ((Fragment.sequence items).emit version).outcome = .ok effect ∧
          effect.peak = required ∧ slotLimit < required := by
  cases body with
  | fragments items =>
    have ho := appendFragment_outcome version m (.sequence items)
    refine ⟨ho.untouched_iff h, ?_⟩
    rintro required rfl
    obtain ⟨hp, hcode, effect, he, hpeak⟩ := ho.of_overflow h
    refine ⟨items, effect, rfl, ?_, he, hpeak, hp⟩
    rwa [Fragment.instructions] at hcode
  | throwing exception message =>
    have hfits : ∀ required, e ≠ .stackOverflow required := by
      rintro required rfl
      exact throwing_fits h
    refine ⟨?_, fun required he => absurd he (hfits required)⟩
    by_cases ht : TypeDesc.throwable.isAssignableFrom exception = true
    · rw [append, if_pos ht] at h ⊢
      exact (appendFragment_outcome version m _).untouched_iff h
    · rw [append, if_neg ht, MethodBody.untouched_iff]
      exact ⟨fun _ => hfits, fun _ => rfl⟩

/-- A body that is refused at once, and one that is refused when it has been written. -/
theorem append_untouched_iff_refused :
    (append .standard plainMethod (.fragments [.illegal])).Untouched ∧
      ¬(append .standard plainMethod tooManyConstants).Untouched := by
  have hillegal : (append .standard plainMethod (.fragments [.illegal])).result =
      .error (.illegalFragment "body of void A.f()") := by rfl
  have hearly := (append_untouched_iff .standard plainMethod _ hillegal).1
  have hlate := (append_untouched_iff .standard plainMethod _ tooManyConstants_overflow).1
  refine ⟨hearly.mpr fun required he => ?_, fun h => ?_⟩
  · cases he
  · exact hlate.mp h 65536 rfl

theorem append_overflow_touches :
    ¬∀ (version : ClassFileVersion) (m : MethodDesc) (body : MethodBody) (e : BodyError),
      (append version m body).result = .error e → (append version m body).Untouched := by
  intro h
  have hu := h _ _ _ _ tooManyConstants_overflow
  have ho := appendFragment_outcome .standard plainMethod
    (.sequence (List.replicate 32768 (.op (.number (.long 0)))))
  exact (ho.untouched_iff tooManyConstants_overflow).mp hu 65536 rfl

end MethodBody
end ClassSynthesis
