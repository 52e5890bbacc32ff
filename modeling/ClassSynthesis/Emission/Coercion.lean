import ClassSynthesis.Emission.Fragment

/-!
# ClassSynthesis.Emission.Coercion

Bringing the value on top of the operand stack from one type to another. A `Coercion` is a chain
of rules: each link handles the pairs of types it knows and hands the others on. A conversion that
does not exist is an invalid fragment; `Coercion.checked` reports it instead.

With dynamic typing, a reference may also be narrowed by a cast that is checked at run time.
-/

namespace ClassSynthesis

/-- Conversion of one primitive to another without loss of magnitude. -/
inductive Widening where
  /-- Both types look the same on the operand stack. -/
  | same
  | convert (op : Opcode) (impact : Int)
  | illegal
  deriving DecidableEq

namespace Widening

def of (source target : Primitive) : Widening :=
  if source = target ∧ source ≠ .void then .same
  else match source, target with
    | .byte, .short => .same
    | .byte, .int | .short, .int | .char, .int => .same
    | .byte, .long | .short, .long | .char, .long | .int, .long => .convert .i2l 1
    | .byte, .float | .short, .float | .char, .float | .int, .float => .convert .i2f 0
    | .byte, .double | .short, .double | .char, .double | .int, .double => .convert .i2d 1
    | .long, .float => .convert .l2f (-1)
    | .long, .double => .convert .l2d 0
    | .float, .double => .convert .f2d 1
    | _, _ => .illegal

def operation : Widening → Operation
  | .same => .nothing
  | .convert op impact => .convert op impact
  | .illegal => .illegal

end Widening

inductive Coercion where
  /-- References are widened, or cast where that is allowed; a primitive is only itself. -/
  | reference
  /-- Primitives are widened, boxed and unboxed; `references` handles the rest. -/
  | primitive (references : Coercion)
  /-- A value assigned to `void` is dropped. Nothing becomes a value only if a default value is
  wanted. -/
  | voidAware (chained : Coercion) (defaultValue : Bool)

namespace Coercion

/-- The full chain. -/
def standard (defaultValue : Bool) : Coercion :=
  .voidAware (.primitive .reference) defaultValue

/-- `Wrapper.valueOf(primitive)` -/
def boxingMethod (wrapper : TypeDesc) (p : Primitive) : MethodDesc :=
  { owner := wrapper, name := "valueOf", returns := wrapper, parameters := [.primitive p],
    modifiers := .ofList [.pub, .static] }

/-- `wrapper.xxxValue()` -/
def unboxingMethod (wrapper : TypeDesc) (p : Primitive) : MethodDesc :=
  { owner := wrapper, name := p.name ++ "Value", returns := .primitive p, parameters := [],
    modifiers := .ofList [.pub] }

/-- Between references only. -/
def widenReference (source target : TypeDesc) (dynamic : Bool) : Fragment :=
  if source.isPrimitive || target.isPrimitive then
    if source == target then .op .nothing else .illegal
  else if target.isAssignableFrom source then .op .nothing
  else if dynamic then .op (.cast target)
  else .illegal

/-- The conversion of `source` to `target` by the chain. -/
def convert (dynamic : Bool) : Coercion → TypeDesc → TypeDesc → Fragment
  | .reference, source, target => widenReference source target dynamic
  | .primitive references, source, target =>
    match source.asPrimitive, target.asPrimitive with
    | some p, some q => if p = q then .op .nothing else .op (Widening.of p q).operation
    | some p, none =>
      match p.wrapper with
      | none => .illegal
      | some wrapper =>
        .sequence [.call (boxingMethod wrapper p), references.convert dynamic wrapper target]
    | none, some q =>
      match Primitive.ofWrapperName source.name with
      | some p => .sequence [.call (unboxingMethod source p), .op (Widening.of p q).operation]
      | none =>
        match q.wrapper with
        | none => .illegal
        | some wrapper =>
          if dynamic then
            .sequence [references.convert dynamic source wrapper, .call (unboxingMethod wrapper q)]
          else .illegal
    | none, none => references.convert dynamic source target
  | .voidAware chained defaultValue, source, target =>
    if source.isVoid then
      if target.isVoid then .op .nothing
      else if defaultValue then .op (.defaultValue target)
      else .illegal
    else if target.isVoid then .op (.remove source.width)
    else chained.convert dynamic source target

/-- The conversion, or the reason why there is none. -/
def checked (c : Coercion) (dynamic : Bool) (source target : TypeDesc) :
    Except BodyError Fragment :=
  let f := c.convert dynamic source target
  if f.isValid then .ok f
  else .error (.incompatibleTypes source.sourceName target.sourceName)

end Coercion

end ClassSynthesis
