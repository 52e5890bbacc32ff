import ClassSynthesis.Draft.Snapshot
import ClassSynthesis.Emission.Coercion

/-!
# ClassSynthesis.Settings

Settings shared by everything that is generated in one session. Settings are copied and changed
freely; copies go on drawing names from the same sequence until one of them is given a suffix of
its own. The sequences belong to the session, the settings refer to them.
-/

namespace ClassSynthesis

structure Settings where
  classFile : ClassFileVersion
  modifiers : Modifiers
  /-- Whether coercions may narrow references by a checked cast. -/
  dynamicTyping : Bool
  /-- Whether `void` assigned to a value pushes the value's default. -/
  voidDefaultValue : Bool
  /-- Index of the name sequence in the session. -/
  naming : Nat

structure Session where
  sequences : Array NameSequence

namespace Session

def empty : Session := ⟨#[]⟩

/-- A sequence by its index. -/
def sequence (s : Session) (index : Nat) : NameSequence :=
  (s.sequences[index]?).getD { suffix := "" }

/-- A new sequence of names. -/
def addSequence (s : Session) (suffix : String) : Nat × Session :=
  (s.sequences.size, ⟨s.sequences.push { suffix }⟩)

/-- Settings as they are when nothing is said, with names of their own. -/
def standard (s : Session) : Settings × Session :=
  let (naming, s) := s.addSequence "Forged"
  (⟨.standard, .ofClass, false, false, naming⟩, s)

/-- The settings with a fresh sequence of names. -/
def withSuffix (s : Session) (settings : Settings) (suffix : String) : Settings × Session :=
  let (naming, s) := s.addSequence suffix
  ({ settings with naming }, s)

def suffix (s : Session) (settings : Settings) : String := (s.sequence settings.naming).suffix

/-- The first snapshot of a subclass, named by the settings' sequence. -/
def subclass (s : Session) (settings : Settings) (superclass : TypeDesc)
    (interfaces : List TypeDesc) : Except Error Snapshot × Session :=
  let (name, issued) := (s.sequence settings.naming).next superclass
  (Snapshot.named name settings.classFile superclass interfaces settings.modifiers,
    ⟨s.sequences.setIfInBounds settings.naming issued⟩)

end Session

/-- The chain of conversions that the settings ask for. -/
def Settings.coercion (settings : Settings) : Coercion := .standard settings.voidDefaultValue

end ClassSynthesis
