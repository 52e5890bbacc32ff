/-!
# ClassSynthesis.Text.Decimal

Decimal text of IEEE binary numbers. The digits are the fewest that read back as the same number,
and of those the nearest to it; a `Layout` says how they are set.

* `Binary.decode` takes a bit pattern apart into a sign and `m · 2^q`.
* `shortest` finds the digits in exact integer arithmetic: for each number of digits it tries the
  value's two neighbours on that decimal grid, and the first grid with a neighbour that rounds to
  the value wins.
-/

namespace ClassSynthesis

/-- Sizes of the fields of a binary interchange format. -/
structure Binary where
  fractionBits : Nat
  exponentBits : Nat

namespace Binary

def single : Binary := ⟨23, 8⟩

def double : Binary := ⟨52, 11⟩

/-- A number as its bits describe it. The magnitude of a finite number is `m · 2^q`; `narrow` says
that the next smaller number is only half as far away as the next greater one. -/
inductive Decoded where
  | nan
  | infinite (negative : Bool)
  | finite (negative : Bool) (m : Nat) (q : Int) (narrow : Bool)

def decode (f : Binary) (bits : Nat) : Decoded :=
  let fractions := Nat.pow 2 f.fractionBits
  let exponents := Nat.pow 2 f.exponentBits
  let fraction := bits % fractions
  let exponent := bits / fractions % exponents
  let negative := bits / (fractions * exponents) % 2 == 1
  let least : Int := 2 - (Nat.pow 2 (f.exponentBits - 1) : Nat) - f.fractionBits
  if exponent = exponents - 1 then
    if fraction = 0 then .infinite negative else .nan
  else if exponent = 0 then .finite negative fraction least false
  else
    .finite negative (fractions + fraction) (least + exponent - 1)
      (fraction == 0 && 1 < exponent)

end Binary

namespace Decimal

/-- Decimal digits of a number, most significant first. -/
def digits (n : Nat) : List Char := Nat.toDigits 10 n

/-- `num / den` divided by `10^k`, as a quotient. -/
def scale (num den : Nat) (k : Int) : Nat × Nat :=
  if 0 ≤ k then (num, den * Nat.pow 10 k.toNat) else (num * Nat.pow 10 (-k).toNat, den)

/-- The power of ten at the leading digit of `num / den`, for positive `num`. -/
def magnitude (num den : Nat) : Int :=
  let guess : Int := ((digits num).length : Int) - (digits den).length
  match scale num den guess with
  | (a, b) => if b ≤ a then guess else guess - 1

/-- The numbers that round to a value: an interval around it over a common denominator. -/
structure Interval where
  low : Nat
  value : Nat
  high : Nat
  den : Nat
  /-- Whether the ends round to the value too. -/
  closed : Bool

/-- The interval that rounds to `m · 2^q`: half way to the numbers next to it. A tie rounds to the
even one. -/
def Interval.of (m : Nat) (q : Int) (narrow : Bool) : Interval :=
  let low := if narrow then 4 * m - 1 else 4 * m - 2
  let up := Nat.pow 2 (q - 2).toNat
  ⟨low * up, 4 * m * up, (4 * m + 2) * up, Nat.pow 2 (2 - q).toNat, m % 2 == 0⟩

/-- The multiple of `10^k` nearest to the value among its two neighbours inside the interval. Of
two equally near the greater is taken. -/
def Interval.onGrid? (i : Interval) (k : Int) : Option Nat :=
  let (low, den) := scale i.low i.den k
  let value := (scale i.value i.den k).1
  let high := (scale i.high i.den k).1
  let inside (d : Nat) : Bool :=
    if i.closed then low ≤ d * den && d * den ≤ high else low < d * den && d * den < high
  let below := value / den
  let above := below + 1
  if inside below && (!inside above || 2 * (value % den) < den) then some below
  else if inside above then some above
  else none

/-- Digits and the power of ten of the last one. Seventeen digits are enough for every format here,
nine for the smaller one. -/
def shortest (m : Nat) (q : Int) (narrow : Bool) : List Char × Int :=
  let i := Interval.of m q narrow
  let lead := magnitude i.value i.den
  let found := (List.range 17).findSome? fun (n : Nat) =>
    let k := lead - n
    (i.onGrid? k).map fun d => (digits d, k)
  found.getD (['0'], 0)

/-- Digits without the zeros at their end, and the power of ten of the leading digit. -/
def normalize (ds : List Char) (k : Int) : List Char × Int :=
  ((ds.reverse.dropWhile (· == '0')).reverse, k + ds.length - 1)

/-- How digits are set. Positional notation has at least one digit on each side of the point. -/
structure Layout where
  /-- Least power of ten at the leading digit that is written positionally. -/
  leastPositional : Int
  /-- Least power of ten at the leading digit that is too large for positional notation. -/
  leastScientific : Int
  nan : String
  infinity : String

/-- The digits around a point after the digit for `10^0`. -/
def positional (ds : List Char) (lead : Int) : List Char :=
  if lead < 0 then ['0', '.'] ++ List.replicate (-lead - 1).toNat '0' ++ ds
  else
    let whole := lead.toNat + 1
    let fraction := ds.drop whole
    ds.take whole ++ List.replicate (whole - ds.length) '0' ++ ['.'] ++
      (if fraction.isEmpty then ['0'] else fraction)

/-- One digit before the point, no point without digits after it. -/
def scientific (ds : List Char) (lead : Int) : List Char :=
  ds.take 1 ++ (if ds.length ≤ 1 then [] else '.' :: ds.drop 1) ++ ['e'] ++ (toString lead).toList

def Layout.magnitude (l : Layout) (m : Nat) (q : Int) (narrow : Bool) : List Char :=
  if m = 0 then ['0', '.', '0']
  else
    let (ds, k) := shortest m q narrow
    let (ds, lead) := normalize ds k
    if l.leastPositional ≤ lead ∧ lead < l.leastScientific then positional ds lead
    else scientific ds lead

/-- The text of the number with the given bits. -/
def Layout.text (l : Layout) (f : Binary) (bits : Nat) : String :=
  match f.decode bits with
  | .nan => l.nan
  | .infinite negative => (if negative then "-" else "") ++ l.infinity
  | .finite negative m q narrow =>
    (if negative then "-" else "") ++ String.ofList (l.magnitude m q narrow)

end Decimal

end ClassSynthesis
