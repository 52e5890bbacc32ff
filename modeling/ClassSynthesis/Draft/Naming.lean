import ClassSynthesis.Types.TypeDesc

/-!
# ClassSynthesis.Draft.Naming

Names for generated types. A fixed name is proposed again and again; a sequence names a type after
its supertype and numbers the names it issues, so that it never proposes a name twice.
-/

namespace ClassSynthesis

/-- Names of the form `Super$$Suffix$n`. -/
structure NameSequence where
  suffix : String
  /-- Package for the subclasses of platform types, whose own packages are closed. -/
  platformPackage : String := "classforge.renamed"
  issued : UInt64 := 0

namespace NameSequence

/-- The supertype's name, moved out of the packages below `java`. -/
def stem (s : NameSequence) (superclass : TypeDesc) : String :=
  let name := superclass.name
  if name.startsWith "java." then s.platformPackage ++ "." ++ name else name

def next (s : NameSequence) (superclass : TypeDesc) : String × NameSequence :=
  let number := s.issued + 1
  (s.stem superclass ++ "$$" ++ s.suffix ++ "$" ++ toString number.toNat, { s with issued := number })

end NameSequence

inductive Naming where
  | fixed (name : String)
  | sequence (s : NameSequence)

/-- A name for a subclass, and the naming of the types to come. -/
def Naming.next (n : Naming) (superclass : TypeDesc) : String × Naming :=
  match n with
  | .fixed name => (name, n)
  | .sequence s =>
    let (name, s) := s.next superclass
    (name, .sequence s)

end ClassSynthesis
