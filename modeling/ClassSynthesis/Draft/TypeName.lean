import ClassSynthesis.Error
import ClassSynthesis.Text.Alphabetic
import ClassSynthesis.Text.Numeric
import ClassSynthesis.Types.TypeDesc

/-!
# ClassSynthesis.Draft.TypeName

Which binary names a generated type may have: identifiers separated by dots, none of them a
keyword, the whole name different from those of the supertype and the interfaces.
-/

namespace ClassSynthesis
namespace TypeName

/-- Keywords of the source language, and the three literals that look like identifiers. -/
def keywords : List String :=
  [ "abstract", "assert", "boolean", "break", "byte", "case", "catch", "char", "class", "const",
    "continue", "default", "do", "double", "else", "enum", "extends", "final", "finally", "float",
    "for", "goto", "if", "implements", "import", "instanceof", "int", "interface", "long", "native",
    "new", "package", "private", "protected", "public", "return", "short", "static", "strictfp",
    "super", "switch", "synchronized", "this", "throw", "throws", "transient", "try", "void",
    "volatile", "while", "true", "false", "null" ]

def isLetter (c : Char) : Bool := CharRange.any alphabeticRanges c

def isNumeral (c : Char) : Bool := CharRange.any numericRanges c

def startsIdentifier (c : Char) : Bool := isLetter c || c == '_' || c == '$'

def continuesIdentifier (c : Char) : Bool := isLetter c || isNumeral c || c == '_' || c == '$'

def isIdentifier : List Char → Bool
  | [] => false
  | c :: cs => startsIdentifier c && cs.all continuesIdentifier

/-- The parts between the dots, at least one. -/
def segments : List Char → List (List Char)
  | [] => [[]]
  | c :: cs =>
    if c = '.' then [] :: segments cs
    else match segments cs with
      | [] => [[c]]
      | s :: ss => (c :: s) :: ss

/-- What is wrong with a segment. -/
def segmentFault? (segment : List Char) : Option NameFault :=
  let s := String.ofList segment
  if keywords.contains s then some (.keyword s)
  else if isIdentifier segment then none
  else some (.notIdentifier s)

/-- The first thing wrong with a name. -/
def fault? (name : String) (superclass : TypeDesc) (interfaces : List TypeDesc) :
    Option NameFault :=
  if name.isEmpty then some .empty
  else match (segments name.toList).findSome? segmentFault? with
    | some fault => some fault
    | none =>
      if superclass.name == name then some .takenBySuperclass
      else if interfaces.any fun i => i.name == name then some .takenByInterface
      else none

end TypeName
end ClassSynthesis
