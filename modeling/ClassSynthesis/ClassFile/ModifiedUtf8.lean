/-!
# ClassSynthesis.ClassFile.ModifiedUtf8

The text encoding of class files. It encodes UTF-16 code units in one to three bytes each, so a
supplementary character takes a surrogate pair of three bytes each, and NUL takes two bytes, so
that no encoded text holds a zero byte.

* `encode` writes a text, `length` says how many bytes that takes without writing it.
-/

namespace ClassSynthesis
namespace ModifiedUtf8

/-- Encoded size of a character. -/
def width (c : Char) : Nat :=
  if c.val = 0 then 2
  else if c.val ≤ 0x7f then 1
  else if c.val ≤ 0x7ff then 2
  else if c.val ≤ 0xffff then 3
  else 6

/-- UTF-16 code units of a character. -/
def units (c : Char) : List UInt16 :=
  if c.val ≤ 0xffff then [c.val.toUInt16]
  else
    let offset := c.val - 0x10000
    [(0xd800 : UInt16) + (offset >>> 10).toUInt16, (0xdc00 : UInt16) + (offset &&& 0x3ff).toUInt16]

/-- A byte that continues a character: six bits. -/
def continuation (bits : UInt16) : UInt8 :=
  0x80 ||| (bits &&& 0x3f).toUInt8

/-- Long form of a code unit: two bytes below `0x800`, three from there on. -/
def unitBytes (u : UInt16) : List UInt8 :=
  if u < 0x800 then
    [(0xc0 : UInt8) ||| (u >>> 6).toUInt8, continuation u]
  else
    [(0xe0 : UInt8) ||| (u >>> 12).toUInt8, continuation (u >>> 6), continuation u]

def encodeChar (c : Char) : List UInt8 :=
  if width c = 1 then [c.val.toUInt8] else (units c).flatMap unitBytes

def encode (s : String) : List UInt8 :=
  s.toList.flatMap encodeChar

def length (s : String) : Nat :=
  s.toList.foldl (fun n c => n + width c) 0

end ModifiedUtf8
end ClassSynthesis
