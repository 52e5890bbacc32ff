import ClassSynthesis.Types.WellKnown

/-!
# ClassSynthesis.Types.Assignable

The type hierarchy: direct supertypes, inheritance along one or more of them, and assignability
of references. Arrays are covariant in reference components and invariant in primitive ones.
-/

namespace ClassSynthesis
namespace TypeDesc

/-- The direct superclass. -/
def superclass : TypeDesc → Option TypeDesc
  | .primitive _ => none
  | .array _ => some .object
  | .declared _ _ s _ _ => s

/-- The direct superinterfaces. -/
def interfaces : TypeDesc → List TypeDesc
  | .primitive _ => []
  | .array _ => [.cloneable, .serializable]
  | .declared _ _ _ is _ => is

/-- Whether the type is the root class, going by its name. -/
def isObject : TypeDesc → Bool
  | .declared name _ _ _ _ => name == "java.lang.Object"
  | _ => false

mutual

/-- Whether `target` is met along one or more supertype edges. The three supertypes of an array
have no supertypes of their own. -/
def inheritsFrom : TypeDesc → TypeDesc → Bool
  | .primitive _, _ => false
  | .array _, target => [object, cloneable, serializable].any (· == target)
  | .declared _ _ s is _, target => reachesVia s target || reachesViaAny is target

/-- Whether the superclass is `target` or inherits from it. -/
def reachesVia : Option TypeDesc → TypeDesc → Bool
  | none, _ => false
  | some t, target => t == target || t.inheritsFrom target

/-- Whether one of the interfaces is `target` or inherits from it. -/
def reachesViaAny : List TypeDesc → TypeDesc → Bool
  | [], _ => false
  | t :: ts, target => t == target || t.inheritsFrom target || reachesViaAny ts target

end

/-- Whether a value of type `source` may be stored in a variable of type `target` as it is. -/
def isAssignableFrom : TypeDesc → TypeDesc → Bool
  | .primitive p, .primitive q => p == q
  | .primitive _, _ => false
  | _, .primitive _ => false
  | .array target, .array source =>
    target.same source ||
      (!target.isPrimitive && !source.isPrimitive && target.isAssignableFrom source)
  | .array _, .declared .. => false
  | target@(.declared ..), source =>
    target.same source || target.isObject || source.inheritsFrom target

end TypeDesc
end ClassSynthesis
