import ClassSynthesis.Types.TypeDesc

/-!
# ClassSynthesis.Types.WellKnown

Declaring a type (`Declaration.type`) and the platform types that code generation knows by name:
the root class, the types every array has above it, the throwables, and the wrapper classes that
box primitives.
-/

namespace ClassSynthesis

/-- What a declaration says about the supertype. -/
inductive Extends where
  | byDefault
  | nothing
  | type (t : TypeDesc)

structure Declaration where
  name : String
  modifiers : Modifiers := .ofClass
  superclass : Extends := .byDefault
  interfaces : List TypeDesc := []
  annotations : List Annotation := []

namespace TypeDesc

def object : TypeDesc := .declared "java.lang.Object" .ofClass none [] []

end TypeDesc

/-- The declared type. An interface has no superclass, whatever the declaration says; a class
extends `java.lang.Object` unless the declaration says otherwise. -/
def Declaration.type (d : Declaration) : TypeDesc :=
  let superclass :=
    if d.modifiers.has .interface then none
    else match d.superclass with
      | .byDefault => some .object
      | .nothing => none
      | .type t => some t
  .declared d.name d.modifiers superclass d.interfaces d.annotations

namespace TypeDesc

/-- A public class below `java.lang.Object`. -/
def classNamed (name : String) : TypeDesc :=
  Declaration.type { name }

def interfaceNamed (name : String) : TypeDesc :=
  Declaration.type { name, modifiers := .ofInterface }

def cloneable : TypeDesc := interfaceNamed "java.lang.Cloneable"

def serializable : TypeDesc := interfaceNamed "java.io.Serializable"

def comparable : TypeDesc := interfaceNamed "java.lang.Comparable"

def charSequence : TypeDesc := interfaceNamed "java.lang.CharSequence"

def string : TypeDesc :=
  Declaration.type {
    name := "java.lang.String"
    modifiers := .ofList [.pub, .final, .super]
    interfaces := [serializable, comparable, charSequence] }

def classObject : TypeDesc :=
  Declaration.type {
    name := "java.lang.Class"
    modifiers := .ofList [.pub, .final, .super]
    interfaces := [serializable] }

def throwable : TypeDesc :=
  Declaration.type { name := "java.lang.Throwable", interfaces := [serializable] }

def exception : TypeDesc :=
  Declaration.type { name := "java.lang.Exception", superclass := .type throwable }

def runtimeException : TypeDesc :=
  Declaration.type { name := "java.lang.RuntimeException", superclass := .type exception }

def number : TypeDesc :=
  Declaration.type {
    name := "java.lang.Number"
    modifiers := .ofList [.pub, .abstract, .super]
    interfaces := [serializable] }

end TypeDesc

namespace Primitive

/-- Wrappers of numbers extend `java.lang.Number`; the other two are serializable themselves. -/
def isNumeric : Primitive → Bool
  | .boolean | .char | .void => false
  | _ => true

/-- The class whose instances box the primitive. -/
def wrapper (p : Primitive) : Option TypeDesc :=
  p.wrapperName.map fun name =>
    if p.isNumeric then
      Declaration.type {
        name
        modifiers := .ofList [.pub, .final, .super]
        superclass := .type .number
        interfaces := [.comparable] }
    else
      Declaration.type {
        name
        modifiers := .ofList [.pub, .final, .super]
        interfaces := [.comparable, .serializable] }

end Primitive

end ClassSynthesis
