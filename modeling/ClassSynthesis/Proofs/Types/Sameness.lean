import ClassSynthesis.Types.Assignable
import ClassSynthesis.Proofs.Descriptor

/-!
# ClassSynthesis.Proofs.Types.Sameness

Equality of types is an equivalence, and types that are the same are assignable to each other.
-/

namespace ClassSynthesis
namespace TypeDesc

@[simp] theorem same_refl (t : TypeDesc) : t.same t = true := by
  induction t using component_induction with
  | primitive p => simp [same]
  | array c ih => simpa [same] using ih
  | declared name modifiers superclass interfaces annotations => simp [same]

@[simp] theorem beq_refl (t : TypeDesc) : (t == t) = true := same_refl t

theorem same_symm {t u : TypeDesc} (h : t.same u = true) : u.same t = true := by
  induction t using component_induction generalizing u with
  | primitive p =>
    cases u with
    | primitive q =>
      obtain rfl : p = q := eq_of_beq h
      exact h
    | array | declared => cases h
  | array c ih =>
    cases u with
    | array d => exact ih (show c.same d = true from h)
    | primitive | declared => cases h
  | declared name =>
    cases u with
    | declared name' =>
      obtain rfl : name = name' := eq_of_beq h
      exact h
    | primitive | array => cases h

theorem same_trans {t u v : TypeDesc} (h : t.same u = true) (h' : u.same v = true) :
    t.same v = true := by
  induction t using component_induction generalizing u v with
  | primitive p =>
    cases u with
    | primitive q =>
      obtain rfl : p = q := eq_of_beq h
      exact h'
    | array | declared => cases h
  | array c ih =>
    cases u with
    | array d =>
      cases v with
      | array e => exact ih (show c.same d = true from h) (show d.same e = true from h')
      | primitive | declared => cases h'
    | primitive | declared => cases h
  | declared name =>
    cases u with
    | declared name' =>
      obtain rfl : name = name' := eq_of_beq h
      cases v with
      | declared => exact h'
      | primitive | array => cases h'
    | primitive | array => cases h

instance : EquivBEq TypeDesc where
  rfl := beq_refl _
  symm := same_symm
  trans := same_trans

theorem isAssignableFrom_of_same {target source : TypeDesc} (h : (target == source) = true) :
    target.isAssignableFrom source = true := by
  have hs : target.same source = true := h
  cases target with
  | primitive p =>
    cases source with
    | primitive q => exact hs
    | array c => cases hs
    | declared => cases hs
  | array c =>
    cases source with
    | primitive q => cases hs
    | array d =>
      have hcd : c.same d = true := hs
      simp [isAssignableFrom, hcd]
    | declared => cases hs
  | declared =>
    cases source with
    | primitive q => cases hs
    | array c => cases hs
    | declared => simp [isAssignableFrom, hs]

end TypeDesc
end ClassSynthesis
