import ClassSynthesis.Text.DefaultIgnorable
import ClassSynthesis.Text.GraphemeExtend
import ClassSynthesis.Text.Unprintable

/-!
# ClassSynthesis.Text.Quoted

Text between double quotes, with everything escaped that would not show as a character of its own:
the quote, the backslash, controls, unprintable and ignorable characters, and those that would
attach to the character before them.
-/

namespace ClassSynthesis
namespace Quoted

/-- Whether a character attaches to the one before it. The halfwidth sound marks count as extending
a grapheme, but they stand in a column of their own. -/
def attaches (c : Char) : Bool :=
  CharRange.any graphemeExtendRanges c && !(c == '\uff9e' || c == '\uff9f')

/-- Whether a character is shown as it is. The printable ASCII characters need no table. -/
def isShown (c : Char) : Bool :=
  if c.toNat ≤ 0x7e then 0x20 ≤ c.toNat
  else
    !attaches c && !CharRange.any unprintableRanges c && !CharRange.any defaultIgnorableRanges c

/-- The escape that names a character by its code point. -/
def codePoint (c : Char) : List Char :=
  "\\u\x7b".toList ++ Nat.toDigits 16 c.toNat ++ ['}']

def escape (c : Char) : List Char :=
  match c with
  | '\x00' => ['\\', '0']
  | '\t' => ['\\', 't']
  | '\n' => ['\\', 'n']
  | '\r' => ['\\', 'r']
  | '"' => ['\\', '"']
  | '\\' => ['\\', '\\']
  | c => if isShown c then [c] else codePoint c

def encode (s : String) : String :=
  "\"" ++ String.ofList (s.toList.flatMap escape) ++ "\""

end Quoted
end ClassSynthesis
