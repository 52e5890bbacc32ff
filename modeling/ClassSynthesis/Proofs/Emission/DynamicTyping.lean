import ClassSynthesis.Proofs.Emission.Conversions

/-!
# ClassSynthesis.Proofs.Emission.DynamicTyping

What dynamic typing changes. It only adds conversions: one that exists without it is made by the
same fragment with it (`convert_dynamic`), whatever the chain. Without it there are no casts, and
with it no conversion has more than one (`casts_convert_le`).

* `dynamic_conservative`: both, for the standard chain.
-/

namespace ClassSynthesis

namespace Emission

/-- The number of casts among the instructions. -/
def casts (e : Emission) : Nat := e.code.countP fun i => i.opcode == Opcode.checkcast

theorem casts_andThen_le (a b : Emission) : (a.andThen b).casts ≤ a.casts + b.casts := by
  obtain ⟨code, outcome⟩ := a
  cases outcome with
  | error e => exact Nat.le_add_right _ _
  | ok s => exact Nat.le_of_eq Array.countP_append

end Emission

namespace Coercion

variable {version : ClassFileVersion} {dynamic : Bool} {source target : TypeDesc}
  {f g : Fragment} {c : Coercion}

/-! ## Conversions that stay as they are -/

theorem widenReference_dynamic (h : (widenReference source target false).isValid = true) :
    widenReference source target true = widenReference source target false := by
  unfold widenReference at h ⊢
  by_cases hp : (source.isPrimitive || target.isPrimitive) = true
  · rw [if_pos hp, if_pos hp]
  · simp only [if_neg hp] at h ⊢
    by_cases ha : target.isAssignableFrom source = true
    · rw [if_pos ha, if_pos ha]
    · rw [if_neg ha] at h
      cases h

theorem convert_dynamic (h : (c.convert false source target).isValid = true) :
    c.convert true source target = c.convert false source target := by
  induction c generalizing source target with
  | reference => exact widenReference_dynamic h
  | primitive references ih =>
    cases hs : source.asPrimitive with
    | some p =>
      cases ht : target.asPrimitive with
      | some q => simp only [convert, hs, ht]
      | none =>
        simp only [convert, hs, ht] at h ⊢
        cases hw : p.wrapper with
        | none => rfl
        | some wrapper =>
          simp only [hw] at h ⊢
          rw [ih (isValid_pair_iff.mp h).2]
    | none =>
      cases ht : target.asPrimitive with
      | some q =>
        simp only [convert, hs, ht] at h ⊢
        cases hn : Primitive.ofWrapperName source.name with
        | some p => rfl
        | none =>
          -- Any other reference is cast, so there is nothing to keep.
          simp only [hn] at h
          cases hw : q.wrapper with
          | none => rfl
          | some wrapper =>
            rw [hw] at h
            cases h
      | none =>
        simp only [convert, hs, ht] at h ⊢
        exact ih h
  | voidAware chained defaultValue ih =>
    unfold convert at h ⊢
    split_ifs at h ⊢
    · rfl
    · rfl
    · rfl
    · rfl
    · exact ih h

/-! ## Casts -/

theorem casts_pair_le :
    ((Fragment.sequence [f, g]).emit version).casts ≤
      (f.emit version).casts + (g.emit version).casts := by
  have hemit : (Fragment.sequence [f, g]).emit version =
      (Emission.nothing.andThen (f.emit version)).andThen (g.emit version) := rfl
  have hfirst := Emission.casts_andThen_le .nothing (f.emit version)
  have hsecond := Emission.casts_andThen_le (Emission.nothing.andThen (f.emit version))
    (g.emit version)
  have hnothing : Emission.nothing.casts = 0 := rfl
  rw [hemit]
  omega

theorem casts_illegal : (Fragment.illegal.emit version).casts = 0 := rfl

theorem casts_call (m : MethodDesc) : ((Fragment.call m).emit version).casts = 0 := by
  unfold Fragment.call Fragment.callVia
  cases CallSite.of m with
  | error e => exact casts_illegal
  | ok origin =>
    obtain ⟨dispatch, method, receiver⟩ := origin
    cases dispatch <;> rfl

theorem casts_widening (p q : Primitive) :
    ((Fragment.op (Widening.of p q).operation).emit version).casts = 0 := by
  cases p <;> cases q <;> rfl

theorem casts_defaultValue (t : TypeDesc) :
    ((Fragment.op (.defaultValue t)).emit version).casts = 0 := by
  cases t with
  | primitive p => cases p <;> rfl
  | array => rfl
  | declared => rfl

theorem casts_remove (w : Width) : ((Fragment.op (.remove w)).emit version).casts = 0 := by
  cases w <;> rfl

theorem casts_widenReference_le :
    ((widenReference source target dynamic).emit version).casts ≤ dynamic.toNat := by
  unfold widenReference
  split_ifs with hp hs ha hd
  · exact Nat.zero_le _
  · exact Nat.zero_le _
  · exact Nat.zero_le _
  · rw [hd]
    exact Nat.le_refl 1
  · exact Nat.zero_le _

/-- The chain comes to its references at most once, and casts nowhere else. -/
theorem casts_convert_le :
    ((c.convert dynamic source target).emit version).casts ≤ dynamic.toNat := by
  induction c generalizing source target with
  | reference => exact casts_widenReference_le
  | primitive references ih =>
    cases hs : source.asPrimitive with
    | some p =>
      cases ht : target.asPrimitive with
      | some q =>
        simp only [convert, hs, ht]
        split_ifs
        · exact Nat.zero_le _
        · rw [casts_widening]
          exact Nat.zero_le _
      | none =>
        simp only [convert, hs, ht]
        cases hw : p.wrapper with
        | none => exact Nat.zero_le _
        | some wrapper =>
          refine casts_pair_le.trans ?_
          rw [casts_call, Nat.zero_add]
          exact ih
    | none =>
      cases ht : target.asPrimitive with
      | some q =>
        simp only [convert, hs, ht]
        cases hn : Primitive.ofWrapperName source.name with
        | some p =>
          refine casts_pair_le.trans ?_
          rw [casts_call, casts_widening]
          exact Nat.zero_le _
        | none =>
          cases hw : q.wrapper with
          | none => exact Nat.zero_le _
          | some wrapper =>
            simp only
            split_ifs with hd
            · refine casts_pair_le.trans ?_
              rw [casts_call, Nat.add_zero]
              exact ih
            · exact Nat.zero_le _
      | none =>
        simp only [convert, hs, ht]
        exact ih
  | voidAware chained defaultValue ih =>
    unfold convert
    split_ifs
    · exact Nat.zero_le _
    · rw [casts_defaultValue]
      exact Nat.zero_le _
    · exact Nat.zero_le _
    · rw [casts_remove]
      exact Nat.zero_le _
    · exact ih

theorem dynamic_conservative (version : ClassFileVersion) (defaultValue : Bool)
    (source target : TypeDesc) :
    let emission dynamic := ((standard defaultValue).convert dynamic source target).emit version
    (((standard defaultValue).convert false source target).isValid = true →
      ((standard defaultValue).convert true source target).isValid = true ∧
        emission true = emission false) ∧
    (∀ i ∈ (emission false).code, i.opcode ≠ .checkcast) ∧
    (emission true).code.countP (·.opcode == .checkcast) ≤ 1 := by
  intro emission
  refine ⟨?_, ?_, casts_convert_le⟩
  · intro h
    have hsame := convert_dynamic h
    refine ⟨?_, ?_⟩
    · rw [hsame]
      exact h
    · simp only [emission, hsame]
  · intro i hi hcast
    have hnone : (emission false).casts ≤ 0 := casts_convert_le
    have hother := Array.countP_eq_zero.mp (Nat.le_zero.mp hnone) i hi
    rw [hcast] at hother
    exact hother rfl

/-- An integer becomes an object by a call alone, an object an integer by a cast before the call. -/
theorem dynamic_conservative_object :
    let emission (dynamic : Bool) (source target : TypeDesc) :=
      ((standard false).convert dynamic source target).emit .standard
    ((standard false).convert false (.primitive .int) .object).isValid = true ∧
      ((standard false).convert true (.primitive .int) .object).isValid = true ∧
      emission true (.primitive .int) .object = emission false (.primitive .int) .object ∧
      (emission true .object (.primitive .int)).code.map (·.opcode) =
        #[.checkcast, .invokevirtual] ∧
      (emission true .object (.primitive .int)).code.countP (·.opcode == .checkcast) ≤ 1 := by
  intro emission
  have hvalid : ((standard false).convert false (.primitive .int) .object).isValid = true := by
    rfl
  have hkept := (dynamic_conservative .standard false (.primitive .int) .object).1 hvalid
  exact ⟨hvalid, hkept.1, hkept.2, by decide +kernel,
    (dynamic_conservative .standard false .object (.primitive .int)).2.2⟩

end Coercion
end ClassSynthesis
