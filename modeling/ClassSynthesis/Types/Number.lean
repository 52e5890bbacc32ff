import ClassSynthesis.Types.Primitive

/-!
# ClassSynthesis.Types.Number

Numeric constants. The machine computes with four kinds of number; the smaller integer types are
held as `int`. Floating point numbers are held as their IEEE bit patterns, so that negative zero
and the payloads of NaN survive.
-/

namespace ClassSynthesis

inductive Number where
  | int (v : Int32)
  | long (v : Int64)
  | float (bits : UInt32)
  | double (bits : UInt64)
  deriving DecidableEq

def Number.width : Number → Width
  | .int _ | .float _ => .single
  | .long _ | .double _ => .double

end ClassSynthesis
