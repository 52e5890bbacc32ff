/-!
# ClassSynthesis.ClassFile.ArgumentSlots

Counting the operand stack slots of a call's arguments from the method descriptor alone. The scan
takes any text: it starts after the opening parentheses, stops at a closing one or at the end, and
counts every letter that is not a type as one slot.
-/

namespace ClassSynthesis

/-- Where a scan of a method descriptor stands. -/
inductive DescriptorScan where
  | atType
  | inClassName
  | inArray

/-- Slots of the types from here to the closing parenthesis, on top of those counted. -/
def DescriptorScan.slots (counted : Nat) : DescriptorScan → List Char → Nat
  | _, [] => counted
  | .atType, c :: cs =>
    match c with
    | ')' => counted
    | 'J' | 'D' => slots (counted + 2) .atType cs
    | 'L' => slots (counted + 1) .inClassName cs
    | '[' => slots (counted + 1) .inArray cs
    | _ => slots (counted + 1) .atType cs
  | .inClassName, c :: cs =>
    if c = ';' then slots counted .atType cs else slots counted .inClassName cs
  | .inArray, c :: cs =>
    match c with
    | '[' => slots counted .inArray cs
    | 'L' => slots counted .inClassName cs
    | _ => slots counted .atType cs

/-- Operand stack slots of the arguments that a method descriptor describes. -/
def argumentSlots (descriptor : String) : Nat :=
  DescriptorScan.atType.slots 0 (descriptor.toList.dropWhile (· == '('))

end ClassSynthesis
