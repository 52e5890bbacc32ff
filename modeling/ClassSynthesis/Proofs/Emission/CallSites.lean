import Mathlib.Tactic.SplitIfs
import ClassSynthesis.Emission.CallSite

/-!
# ClassSynthesis.Proofs.Emission.CallSites

Calls and the moves of calls. A move keeps the method, and a call of a static method is never
moved, so a call is dispatched statically exactly if its method is static (`Regular`).
-/

namespace ClassSynthesis
namespace CallSite

variable {c d : CallSite} {m : MethodDesc}

/-- Static dispatch goes with static methods. -/
def Regular (c : CallSite) : Prop := c.dispatch = .static ↔ c.method.isStatic = true

theorem of_method (h : of m = .ok c) : c.method = m := by
  unfold of at h
  split at h
  · cases h
    rfl
  · cases h

theorem retarget?_method {r : Retarget} (h : c.retarget? r = some d) : d.method = c.method := by
  cases r with
  | virtual target =>
    simp only [retarget?, virtualOn?] at h
    split at h
    · cases h
    · cases h
      rfl
  | special target =>
    simp only [retarget?, specialOn?] at h
    split at h
    · cases h
      rfl
    · cases h

/-- What moves preserve one by one, they preserve. -/
theorem retargetAll?_induction {P : CallSite → Prop} {moves : List Retarget}
    (step : ∀ c r d, P c → c.retarget? r = some d → P d) (hc : P c)
    (h : c.retargetAll? moves = some d) : P d := by
  induction moves generalizing c with
  | nil =>
    cases h
    exact hc
  | cons r rs ih =>
    simp only [retargetAll?] at h
    split at h
    · rename_i e he
      exact ih (step c r e hc he) h
    · cases h

theorem retargetAll?_method {moves : List Retarget} (h : c.retargetAll? moves = some d) :
    d.method = c.method := by
  refine retargetAll?_induction (P := fun d => d.method = c.method) ?_ rfl h
  intro d r e hd he
  rw [retarget?_method he, hd]

theorem of_regular (h : of m = .ok c) : c.Regular := by
  unfold of at h
  split at h
  · rename_i d hd
    cases h
    unfold Dispatch.of at hd
    split_ifs at hd <;> cases hd <;> simp_all [Regular]
  · cases h

theorem not_static_of_isSpecializableFor {target : TypeDesc}
    (h : m.isSpecializableFor target = true) : m.isStatic = false := by
  unfold MethodDesc.isSpecializableFor at h
  split at h
  · cases h
  · rename_i hs
    simp_all

theorem retarget?_regular {r : Retarget} (h : c.retarget? r = some d) : d.Regular := by
  cases r with
  | virtual target =>
    simp only [retarget?, virtualOn?] at h
    split at h
    · cases h
    · rename_i hs
      cases h
      cases hi : target.isInterface <;> simp_all [Regular]
  | special target =>
    simp only [retarget?, specialOn?] at h
    split at h
    · rename_i hs
      cases h
      simp [Regular, not_static_of_isSpecializableFor hs]
    · cases h

theorem retargetAll?_regular {moves : List Retarget} (hc : c.Regular)
    (h : c.retargetAll? moves = some d) : d.Regular :=
  retargetAll?_induction (fun _ _ _ _ he => retarget?_regular he) hc h

end CallSite
end ClassSynthesis
