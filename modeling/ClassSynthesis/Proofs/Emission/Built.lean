import Mathlib.Data.List.Basic
import Mathlib.Tactic.SplitIfs
import ClassSynthesis.Emission.Coercion
import ClassSynthesis.Proofs.Emission.CallSites

/-!
# ClassSynthesis.Proofs.Emission.Built

The fragments that code generation builds. `Operation.call` and `Operation.convert` take any call
and any opcode; a built fragment has them from moves of a method's own call and from conversions
between primitives only (`Fragment.Built`).

`Fragment.Made P` says that every operation of a fragment satisfies `P`. A valid built fragment is
`Made` of `Operation.Sound` operations (`Built.made`), and what holds of the emissions of such
operations and of new arrays, and is kept by `andThen`, holds of its emission (`Made.emission`).
-/

namespace ClassSynthesis

namespace Operation

/-- Steps that are made from their operands alone. -/
def isElementary : Operation → Bool
  | .call _ | .convert .. => false
  | _ => true

/-- What is assumed of an operation's methods and fields. -/
def Mentions (methods : MethodDesc → Prop) (fields : FieldDesc → Prop) : Operation → Prop
  | .call c => methods c.method
  | .getField f | .putField f => fields f
  | _ => True

/-- Calls that moves lead to, conversions of primitives, and the elementary steps. -/
def Arises : Operation → Prop
  | .call c => ∃ m moves origin, CallSite.of m = .ok origin ∧ origin.retargetAll? moves = some c
  | .convert op impact => ∃ p q, Widening.of p q = .convert op impact
  | _ => True

/-- The small constants have instructions of their own, `ICONST_M1` to `ICONST_5`. -/
theorem cases_of_small {v : Int32} (h : -1 ≤ v ∧ v ≤ 5) :
    v = -1 ∨ v = 0 ∨ v = 1 ∨ v = 2 ∨ v = 3 ∨ v = 4 ∨ v = 5 := by
  simp only [Int32.le_iff_toInt_le, ← Int32.toInt_inj] at h ⊢
  simp at h ⊢
  omega

/-- A byte keeps the numbers in its range, and no other. -/
theorem toInt8_toInt32_iff {v : Int32} :
    v.toInt8.toInt32 = v ↔ -128 ≤ v.toInt ∧ v.toInt < 128 := by
  rw [← Int32.toInt_inj, Int8.toInt_toInt32, Int32.toInt_toInt8, Int.bmod_eq_iff (by decide)]
  omega

theorem toInt16_toInt32_iff {v : Int32} :
    v.toInt16.toInt32 = v ↔ -32768 ≤ v.toInt ∧ v.toInt < 32768 := by
  rw [← Int32.toInt_inj, Int16.toInt_toInt32, Int32.toInt_toInt16, Int.bmod_eq_iff (by decide)]
  omega

theorem misuse?_of_isValid {o : Operation} (h : o.isValid = true) : o.misuse? = none := by
  cases o with
  | loadElement c | storeElement c => simpa [isValid, misuse?] using h
  | illegal => cases h
  | _ => rfl

structure Sound (methods : MethodDesc → Prop) (fields : FieldDesc → Prop) (o : Operation) :
    Prop where
  valid : o.isValid = true
  arises : o.Arises
  mentions : o.Mentions methods fields

end Operation

namespace Fragment

/-- Fragments as they are put together, the methods called and the fields accessed being among
those given. A fragment that is not there is the empty sequence. -/
inductive Built (methods : MethodDesc → Prop) (fields : FieldDesc → Prop) : Fragment → Prop where
  | step {o : Operation} (elementary : o.isElementary = true)
      (mentions : o.Mentions methods fields) : Built methods fields (.op o)
  | callVia {m : MethodDesc} (moves : List Retarget) (known : methods m) :
      Built methods fields (callVia m moves)
  | loadArguments (m : MethodDesc) : Built methods fields (loadArguments m)
  | widening (source target : Primitive) :
      Built methods fields (.op (Widening.of source target).operation)
  | coercion (c : Coercion) (dynamic : Bool) (source target : TypeDesc) :
      Built methods fields (c.convert dynamic source target)
  | sequence {items : List Fragment} (built : ∀ f ∈ items, Built methods fields f) :
      Built methods fields (.sequence items)
  | newArray (component : TypeDesc) {values : List Fragment}
      (built : ∀ f ∈ values, Built methods fields f) :
      Built methods fields (.newArray component values)

/-- Fragments all of whose operations satisfy `P`. There are no arrays of `void`. -/
inductive Made (P : Operation → Prop) : Fragment → Prop where
  | op {o : Operation} (h : P o) : Made P (.op o)
  | sequence {items : List Fragment} (h : ∀ f ∈ items, Made P f) : Made P (.sequence items)
  | newArray {component : TypeDesc} {values : List Fragment} (hc : component.isVoid = false)
      (h : ∀ f ∈ values, Made P f) : Made P (.newArray component values)

/-! ## Built fragments are made of sound operations -/

theorem allValid_iff {fs : List Fragment} : allValid fs = true ↔ ∀ f ∈ fs, f.isValid = true := by
  induction fs with
  | nil => simp [allValid]
  | cons f fs ih => simp [allValid, ih]

section

variable {methods : MethodDesc → Prop} {fields : FieldDesc → Prop}

theorem made_step {o : Operation} (he : o.isElementary = true) (hm : o.Mentions methods fields)
    (hv : (Fragment.op o).isValid = true) : Made (Operation.Sound methods fields) (.op o) := by
  refine .op ⟨hv, ?_, hm⟩
  cases o with
  | call c => cases he
  | convert op impact => cases he
  | _ => trivial

theorem made_pair {P : Operation → Prop} {f g : Fragment} (hf : f.isValid = true → f.Made P)
    (hg : g.isValid = true → g.Made P) (hv : (Fragment.sequence [f, g]).isValid = true) :
    (Fragment.sequence [f, g]).Made P := by
  have hall := allValid_iff.mp hv
  refine .sequence fun e he => ?_
  rcases List.mem_pair.mp he with rfl | rfl
  · exact hf (hall _ he)
  · exact hg (hall _ he)

theorem made_callVia {m : MethodDesc} (hm : methods m) (moves : List Retarget)
    (hv : (callVia m moves).isValid = true) :
    (callVia m moves).Made (Operation.Sound methods fields) := by
  unfold callVia at hv ⊢
  cases ho : CallSite.of m with
  | error e =>
    rw [ho] at hv
    cases hv
  | ok origin =>
    simp only [ho] at hv ⊢
    cases hc : origin.retargetAll? moves with
    | none =>
      rw [hc] at hv
      cases hv
    | some c =>
      have hcm : c.method = m := (CallSite.retargetAll?_method hc).trans (CallSite.of_method ho)
      refine .op ⟨rfl, ⟨m, moves, origin, ho, hc⟩, ?_⟩
      rw [← hcm] at hm
      exact hm

theorem made_load {t : TypeDesc} {slot : UInt16} (hv : (load t slot).isValid = true) :
    (load t slot).Made (Operation.Sound methods fields) := by
  unfold load at hv ⊢
  split at hv
  · exact made_step rfl trivial hv
  · cases hv

theorem made_loadsFrom {ts : List TypeDesc} {slot : UInt16} :
    ∀ f ∈ loadsFrom slot ts, f.isValid = true → f.Made (Operation.Sound methods fields) := by
  induction ts generalizing slot with
  | nil => simp [loadsFrom]
  | cons t ts ih =>
    intro f hf hv
    rcases List.mem_cons.mp hf with rfl | hf
    · exact made_load hv
    · exact ih f hf hv

theorem made_loadArguments {m : MethodDesc} (hv : (loadArguments m).isValid = true) :
    (loadArguments m).Made (Operation.Sound methods fields) := by
  unfold loadArguments at hv ⊢
  split_ifs at hv ⊢
  · have hall := allValid_iff.mp hv
    exact .sequence fun f hf => made_loadsFrom f hf (hall f hf)
  · have hall := allValid_iff.mp hv
    refine .sequence fun f hf => ?_
    rcases List.mem_cons.mp hf with rfl | hm
    · exact made_step rfl trivial (hall _ hf)
    · exact made_loadsFrom f hm (hall f hf)

theorem made_widening {source target : Primitive}
    (hv : (Fragment.op (Widening.of source target).operation).isValid = true) :
    (Fragment.op (Widening.of source target).operation).Made
      (Operation.Sound methods fields) := by
  cases hw : Widening.of source target with
  | same => exact made_step rfl trivial rfl
  | convert op impact => exact .op ⟨rfl, ⟨source, target, hw⟩, trivial⟩
  | illegal =>
    rw [hw] at hv
    cases hv

theorem made_widenReference {source target : TypeDesc} {dynamic : Bool}
    (hv : (Coercion.widenReference source target dynamic).isValid = true) :
    (Coercion.widenReference source target dynamic).Made (Operation.Sound methods fields) := by
  unfold Coercion.widenReference at hv ⊢
  split_ifs at hv ⊢
  all_goals exact made_step rfl trivial hv

theorem made_coercion (hbox : ∀ p w, p.wrapper = some w → methods (Coercion.boxingMethod w p))
    (hunbox : ∀ t p, methods (Coercion.unboxingMethod t p)) {c : Coercion} {dynamic : Bool}
    {source target : TypeDesc} (hv : (c.convert dynamic source target).isValid = true) :
    (c.convert dynamic source target).Made (Operation.Sound methods fields) := by
  induction c generalizing source target with
  | reference => exact made_widenReference hv
  | primitive references ih =>
    cases hs : source.asPrimitive with
    | some p =>
      cases ht : target.asPrimitive with
      | some q =>
        simp only [Coercion.convert, hs, ht] at hv ⊢
        split_ifs at hv ⊢
        · exact made_step rfl trivial hv
        · exact made_widening hv
      | none =>
        simp only [Coercion.convert, hs, ht] at hv ⊢
        cases hw : p.wrapper with
        | none =>
          rw [hw] at hv
          cases hv
        | some w =>
          -- The box is a reference, which the chain hands on like any other.
          simp only [hw] at hv ⊢
          exact made_pair (made_callVia (hbox p w hw) []) ih hv
    | none =>
      cases ht : target.asPrimitive with
      | some q =>
        simp only [Coercion.convert, hs, ht] at hv ⊢
        cases hp : Primitive.ofWrapperName source.name with
        | some p =>
          simp only [hp] at hv ⊢
          exact made_pair (made_callVia (hunbox source p) []) made_widening hv
        | none =>
          simp only [hp] at hv ⊢
          cases hw : q.wrapper with
          | none =>
            rw [hw] at hv
            cases hv
          | some w =>
            simp only [hw] at hv ⊢
            split_ifs at hv ⊢
            · exact made_pair ih (made_callVia (hunbox w q) []) hv
            · cases hv
      | none =>
        simp only [Coercion.convert, hs, ht] at hv ⊢
        exact ih hv
  | voidAware chained defaultValue ih =>
    unfold Coercion.convert at hv ⊢
    split_ifs at hv ⊢
    all_goals first | exact made_step rfl trivial hv | exact ih hv

theorem Built.mono {methods' : MethodDesc → Prop} {fields' : FieldDesc → Prop}
    (hm : ∀ m, methods m → methods' m) (hf : ∀ f, fields f → fields' f) {f : Fragment}
    (h : f.Built methods fields) : f.Built methods' fields' := by
  induction h with
  | @step o he ho =>
    refine .step he ?_
    cases o with
    | call c => exact hm _ ho
    | getField f | putField f => exact hf f ho
    | _ => trivial
  | callVia moves known => exact .callVia moves (hm _ known)
  | loadArguments m => exact .loadArguments m
  | widening source target => exact .widening source target
  | coercion c dynamic source target => exact .coercion c dynamic source target
  | sequence built ih => exact .sequence ih
  | newArray component built ih => exact .newArray component ih

/-- A valid built fragment consists of sound operations. The coercions box and unbox, so the
methods that they call for it have to be among those given. -/
theorem Built.made (hbox : ∀ p w, p.wrapper = some w → methods (Coercion.boxingMethod w p))
    (hunbox : ∀ t p, methods (Coercion.unboxingMethod t p)) {f : Fragment}
    (h : f.Built methods fields) (hv : f.isValid = true) :
    f.Made (Operation.Sound methods fields) := by
  induction h with
  | step he hm => exact made_step he hm hv
  | callVia moves hm => exact made_callVia hm moves hv
  | loadArguments m => exact made_loadArguments hv
  | widening source target => exact made_widening hv
  | coercion c dynamic source target => exact made_coercion hbox hunbox hv
  | sequence built ih =>
    have hall := allValid_iff.mp hv
    exact .sequence fun f hf => ih f hf (hall f hf)
  | newArray component built ih =>
    simp only [isValid, Bool.and_eq_true, Bool.not_eq_true'] at hv
    have hall := allValid_iff.mp hv.2
    exact .newArray hv.1 fun f hf => ih f hf (hall f hf)

/-! ## Emission -/

section

variable {version : ClassFileVersion} {M : Emission → Prop}

theorem emitAll_induction (andThen : ∀ a b, M a → M b → M (a.andThen b)) {fs : List Fragment}
    (hfs : ∀ f ∈ fs, M (f.emit version)) {before : Emission} (hb : M before) :
    M (emitAll version before fs) := by
  induction fs generalizing before with
  | nil => exact hb
  | cons f fs ih =>
    have hf := andThen before _ hb (hfs f (.head fs))
    exact ih (fun g hg => hfs g (.tail f hg)) hf

theorem sound_storeElement {component : TypeDesc} (hc : component.isVoid = false) :
    (Operation.storeElement component).Sound methods fields :=
  ⟨by simp [Operation.isValid, hc], trivial, trivial⟩

theorem emitElements_induction (andThen : ∀ a b, M a → M b → M (a.andThen b))
    (operation : ∀ o : Operation, o.Sound methods fields → M (o.emit version))
    {component : TypeDesc} (hc : component.isVoid = false) {fs : List Fragment}
    (hfs : ∀ f ∈ fs, M (f.emit version)) {index : Nat} {before : Emission} (hb : M before) :
    M (emitElements version component index before fs) := by
  induction fs generalizing index before with
  | nil => exact hb
  | cons f fs ih =>
    have hcopy := andThen before _ hb (operation (.duplicate .single) ⟨rfl, trivial, trivial⟩)
    have htarget := andThen _ _ hcopy
      (operation (.number (.int (.ofNat index))) ⟨rfl, trivial, trivial⟩)
    have hvalue := andThen _ _ htarget (hfs f (.head fs))
    have hstored := andThen _ _ hvalue (operation _ (sound_storeElement hc))
    exact ih (fun g hg => hfs g (.tail f hg)) hstored

theorem Made.emission (nothing : M .nothing) (andThen : ∀ a b, M a → M b → M (a.andThen b))
    (array : ∀ component n, component.isVoid = false → M (emptyArray component n))
    (operation : ∀ o : Operation, o.Sound methods fields → M (o.emit version)) {f : Fragment}
    (h : f.Made (Operation.Sound methods fields)) : M (f.emit version) := by
  induction h with
  | op ho =>
    rw [emit]
    exact operation _ ho
  | sequence hs ih =>
    rw [emit]
    exact emitAll_induction andThen ih nothing
  | newArray hc hs ih =>
    rw [emit]
    exact emitElements_induction andThen operation hc ih (array _ _ hc)

end

end

end Fragment
end ClassSynthesis
