import ClassSynthesis.Annotations.Visibility
import ClassSynthesis.Error

/-!
# ClassSynthesis.Annotations.Call

How an annotation is handed to a writer: as calls, one per member or element, and a last one that
closes the writer. A nested annotation or array opens a writer of its own, and the calls made on
it hang below the call that opened it. Members carry their names, array elements none.

* `Annotation.calls` are the calls for an annotation.
* `Annotation.delivery` is what a sink receives for an annotation of some visibility: nothing if
  the annotation is suppressed, an error if a member at any depth is unreadable.
* `Delivery.events` is the flat record of a delivery, writer by writer.
-/

namespace ClassSynthesis

/-- A value that is written in one piece. A type is written as its descriptor. -/
inductive Element where
  | scalar (s : Scalar)
  | type (descriptor : String)
  deriving DecidableEq

inductive Call where
  | value (name : Option String) (e : Element)
  | enum (name : Option String) (descriptor constant : String)
  | nested (name : Option String) (descriptor : String) (calls : List Call)
  | array (name : Option String) (calls : List Call)
  | close

mutual

/-- The calls on the writer of an annotation with these members. -/
def memberCalls : List Member → List Call
  | [] => [.close]
  | .readable name v :: ms => valueCall (some name) v :: memberCalls ms
  | .unreadable _ _ :: ms => memberCalls ms

def nestedCall (name : Option String) : Annotation → Call
  | .mk t _ members => .nested name t.descriptor (memberCalls members)

def valueCall (name : Option String) : Value → Call
  | .scalar s => .value name (.scalar s)
  | .type t => .value name (.type t.descriptor)
  | .enum t constant => .enum name t.descriptor constant
  | .nested a => nestedCall name a
  | .array elements => .array name (elementCalls elements)

def elementCalls : List Value → List Call
  | [] => [.close]
  | v :: vs => valueCall none v :: elementCalls vs

end

def Annotation.calls (a : Annotation) : List Call := memberCalls a.members

mutual

/-- The first unreadable member of an annotation of type `owner`, in declaration order and depth
first. -/
def firstUnreadable (owner : String) : List Member → Option AnnotationError
  | [] => none
  | .unreadable name reason :: _ => some (.unreadable owner name reason)
  | .readable _ v :: ms =>
    match unreadableIn v with
    | some e => some e
    | none => firstUnreadable owner ms

def unreadableOf : Annotation → Option AnnotationError
  | .mk t _ members => firstUnreadable t.name members

def unreadableIn : Value → Option AnnotationError
  | .nested a => unreadableOf a
  | .array elements => unreadableAmong elements
  | _ => none

def unreadableAmong : List Value → Option AnnotationError
  | [] => none
  | v :: vs =>
    match unreadableIn v with
    | some e => some e
    | none => unreadableAmong vs

end

/-- What a sink receives for one annotation. -/
structure Delivery where
  descriptor : String
  visible : Bool
  calls : List Call

/-- An annotation is handed over whole or not at all. -/
def Annotation.delivery (a : Annotation) (v : Visibility) :
    Except AnnotationError (Option Delivery) :=
  if v.isSuppressed then .ok none
  else match unreadableOf a with
    | some e => .error e
    | none => .ok (some ⟨a.type.descriptor, v.isVisible, a.calls⟩)

/-- A call as seen from outside; `close` ends the writer that was opened last. -/
inductive Event where
  | opened (descriptor : String) (visible : Bool)
  | parameter (index : Nat) (descriptor : String) (visible : Bool)
  | value (name : Option String) (e : Element)
  | enum (name : Option String) (descriptor constant : String)
  | nested (name : Option String) (descriptor : String)
  | array (name : Option String)
  | close
  deriving DecidableEq

mutual

def Call.record (out : Array Event) : Call → Array Event
  | .value name e => out.push (.value name e)
  | .enum name descriptor constant => out.push (.enum name descriptor constant)
  | .nested name descriptor calls => recordAll (out.push (.nested name descriptor)) calls
  | .array name calls => recordAll (out.push (.array name)) calls
  | .close => out.push .close

def recordAll (out : Array Event) : List Call → Array Event
  | [] => out
  | c :: cs => recordAll (c.record out) cs

end

/-- The record of a delivery to a class, field or method, or to the parameter with an index. -/
def Delivery.events (d : Delivery) (parameter : Option Nat) : Array Event :=
  let opening := match parameter with
    | none => Event.opened d.descriptor d.visible
    | some index => Event.parameter index d.descriptor d.visible
  recordAll #[opening] d.calls

end ClassSynthesis
