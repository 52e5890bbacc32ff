import ClassSynthesis.Types.TypeDesc

/-!
# ClassSynthesis.Annotations.Visibility

Where an annotation ends up: read at run time, only written, or nowhere. An annotation goes where
the retention of its type sends it; without a declared retention it is not written.
-/

namespace ClassSynthesis

inductive Visibility where
  | runtime
  | classFile
  | invisible
  deriving DecidableEq

namespace Visibility

def of (a : Annotation) : Visibility :=
  match a.retention with
  | none | some .source => .invisible
  | some .classFile => .classFile
  | some .runtime => .runtime

def isVisible (v : Visibility) : Bool := v == .runtime

def isSuppressed (v : Visibility) : Bool := v == .invisible

end Visibility

end ClassSynthesis
