/-!
# ClassSynthesis.Text.CharRange

Sets of characters given as ranges of code points. A property of characters that is a matter of
data, not of a rule, is one of these lists.
-/

namespace ClassSynthesis

/-- First and last code point. -/
abbrev CharRange := Nat × Nat

def CharRange.any (ranges : List CharRange) (c : Char) : Bool :=
  ranges.any fun (first, last) => first ≤ c.toNat && c.toNat ≤ last

end ClassSynthesis
