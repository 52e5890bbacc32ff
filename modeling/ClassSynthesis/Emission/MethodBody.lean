import ClassSynthesis.Emission.Fragment

/-!
# ClassSynthesis.Emission.MethodBody

Method bodies and the frame they need: the operand stack is the peak of the body's effect, the
local variables are the slots of the receiver and the arguments. A body is either given as
fragments or throws a new exception.
-/

namespace ClassSynthesis

/-- `max_stack` and `max_locals` of a `Code` attribute. -/
structure FrameSize where
  stack : UInt16
  locals : UInt16
  deriving DecidableEq

namespace FrameSize

def zero : FrameSize := ⟨0, 0⟩

/-- Room enough for both. -/
def merge (a b : FrameSize) : FrameSize :=
  ⟨max a.stack b.stack, max a.locals b.locals⟩

def text (f : FrameSize) : String :=
  "max_stack=" ++ toString f.stack.toNat ++ ", max_locals=" ++ toString f.locals.toNat

end FrameSize

inductive MethodBody where
  | fragments (items : List Fragment)
  /-- Throws a new instance, made by the default constructor or, with a message, by the one that
  takes it. -/
  | throwing (exception : TypeDesc) (message : Option String)

namespace MethodBody

/-- What appending a body did: the instructions written, also those before a failure, and the
frame that they need. -/
structure Appended where
  code : Array Instruction
  result : Except BodyError FrameSize

def refused (e : BodyError) : Appended := ⟨#[], .error e⟩

/-- The frame of a body that has been emitted for a method with the given local variables. -/
def frame (effect : StackEffect) (locals : UInt16) : Except BodyError FrameSize :=
  if 0 ≤ effect.peak ∧ effect.peak ≤ slotLimit then .ok ⟨.ofNat effect.peak.toNat, locals⟩
  else .error (.stackOverflow effect.peak)

/-- Emits a fragment as the body of a method. Nothing is written for an invalid fragment or for
too many arguments; that the operand stack is too high shows only when all is written. -/
def appendFragment (version : ClassFileVersion) (m : MethodDesc) (f : Fragment) : Appended :=
  let illegal := BodyError.illegalFragment ("body of " ++ m.text)
  if !f.isValid then refused illegal
  else if slotLimit < m.argumentSlots then refused (.tooManyLocals m.argumentSlots)
  else
    let emission := f.emit version
    ⟨emission.code, match emission.outcome with
      | .ok effect => frame effect (.ofNat m.argumentSlots)
      | .error _ => .error illegal⟩

/-- Allocation, construction and throw of an exception. -/
def throwFragment (exception : TypeDesc) (message : Option String) : Fragment :=
  let parameters := if message.isSome then [TypeDesc.string] else []
  .sequence <|
    [.op (.create exception), .op (.duplicate .single)] ++
    (message.toList.map fun s => .op (.text s)) ++
    [.call (.constructor exception parameters (.ofList [.pub])), .op .throw]

def append (version : ClassFileVersion) (m : MethodDesc) : MethodBody → Appended
  | .fragments items => appendFragment version m (.sequence items)
  | .throwing exception message =>
    if TypeDesc.throwable.isAssignableFrom exception then
      appendFragment version m (throwFragment exception message)
    else refused (.incompatibleTypes exception.sourceName TypeDesc.throwable.sourceName)

end MethodBody

end ClassSynthesis
