import ClassSynthesis.ClassFile.Instruction
import ClassSynthesis.Text.Decimal
import ClassSynthesis.Text.Quoted

/-!
# ClassSynthesis.ClassFile.Listing

Instructions as lines of a listing: the mnemonic, then the operands. Pooled constants are written
with their kind, so that `LDC Int(6)` and `LDC String("6")` differ.
-/

namespace ClassSynthesis

/-- Listings write a number positionally from `1e-4` up to, and not with, `1e16`. -/
def listingNumbers : Decimal.Layout := ⟨-4, 16, "NaN", "inf"⟩

def Loadable.text : Loadable → String
  | .number (.int v) => "Int(" ++ toString v.toInt ++ ")"
  | .number (.float bits) => "Float(" ++ listingNumbers.text .single bits.toNat ++ ")"
  | .number (.long v) => "Long(" ++ toString v.toInt ++ ")"
  | .number (.double bits) => "Double(" ++ listingNumbers.text .double bits.toNat ++ ")"
  | .string s => "String(" ++ Quoted.encode s ++ ")"
  | .type internalName => "Type(" ++ Quoted.encode internalName ++ ")"
  | .methodType descriptor => "MethodType(" ++ Quoted.encode descriptor ++ ")"

def Instruction.text (i : Instruction) : String :=
  let mnemonic := i.opcode.mnemonic
  match i with
  | .plain _ => mnemonic
  | .immediate _ operand => mnemonic ++ " " ++ toString operand.toInt
  | .push c => mnemonic ++ " " ++ c.text
  | .slot _ index => mnemonic ++ " " ++ toString index.toNat
  | .type _ internalName => mnemonic ++ " " ++ internalName
  | .field _ owner name descriptor => mnemonic ++ " " ++ owner ++ "." ++ name ++ ":" ++ descriptor
  | .method _ owner name descriptor _ => mnemonic ++ " " ++ owner ++ "." ++ name ++ descriptor

end ClassSynthesis
