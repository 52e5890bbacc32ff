import ClassSynthesis.Annotations.Table

/-!
# ClassSynthesis.Annotations.Target

What annotations are appended to: the attributes of a class, field or method, or those of the
parameters of a method. Appending hands the annotation over whole; an annotation that is refused
or suppressed leaves the target as it is.
-/

namespace ClassSynthesis

inductive AnnotationTarget where
  | declaration (table : AnnotationTable)
  | parameters (table : ParameterTable)

namespace AnnotationTarget

def encoding : AnnotationTarget → Encoding
  | .declaration table => table.encoding
  | .parameters table => table.encoding

/-- The parameter that an annotation is for, if the target has parameters. -/
def position (t : AnnotationTarget) (parameter : Nat) : Option Nat :=
  match t with
  | .declaration _ => none
  | .parameters _ => some parameter

def receive (t : AnnotationTarget) (parameter : Nat) (d : Delivery) : AnnotationTarget :=
  match t with
  | .declaration table => .declaration (table.receive d)
  | .parameters table => .parameters (table.receive parameter d)

def append (t : AnnotationTarget) (parameter : Nat) (a : Annotation) (v : Visibility) :
    Except AnnotationError AnnotationTarget :=
  match a.delivery v with
  | .error e => .error e
  | .ok none => .ok t
  | .ok (some d) => .ok (t.receive parameter d)

def finish : AnnotationTarget → Except PoolError AnnotationAttributes
  | .declaration table => table.finish
  | .parameters table => table.finish

end AnnotationTarget
end ClassSynthesis
