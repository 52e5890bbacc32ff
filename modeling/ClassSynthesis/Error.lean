import ClassSynthesis.ClassFile.Opcode

/-!
# ClassSynthesis.Error

Everything that can go wrong while a class is put together, each failure as its cause, with the
text shown for it. `Error` is the union; the three narrower kinds arise while encoding
(`PoolError`), while appending a method body (`BodyError`) and while writing annotations
(`AnnotationError`).
-/

namespace ClassSynthesis

inductive PoolError where
  | outOfSpace
  | invalidIndex (index : UInt16)
  | textTooLong (length : Nat)
  | operandOutOfRange (op : Opcode) (operand : Int)
  deriving DecidableEq

namespace PoolError

def message : PoolError → String
  | .outOfSpace => "Constant pool is out of space"
  | .invalidIndex index => "Invalid constant pool index: " ++ toString index.toNat
  | .textTooLong length => "Utf8 constant of " ++ toString length ++ " bytes exceeds 65535"
  | .operandOutOfRange op operand =>
    "Operand out of range for " ++ op.mnemonic ++ ": " ++ toString operand

end PoolError

/-- Largest operand stack and local variable array that a method may declare. -/
def slotLimit : Nat := 65535

inductive BodyError where
  | illegalFragment (what : String)
  | incompatibleTypes (source target : String)
  | stackOverflow (required : Int)
  | tooManyLocals (required : Nat)
  deriving DecidableEq

namespace BodyError

def message : BodyError → String
  | .illegalFragment what => "Illegal stack manipulation: " ++ what
  | .incompatibleTypes source target => "Cannot assign " ++ source ++ " to " ++ target
  | .stackOverflow required =>
    "Operand stack exceeds " ++ toString slotLimit ++ " slots: " ++ toString required
  | .tooManyLocals required =>
    "Local variable array exceeds " ++ toString slotLimit ++ " slots: " ++ toString required

end BodyError

inductive AnnotationError where
  | unreadable (owner member reason : String)
  deriving DecidableEq

namespace AnnotationError

def message : AnnotationError → String
  | .unreadable owner member reason =>
    "Could not read member '" ++ member ++ "' of " ++ owner ++ ": " ++ reason

end AnnotationError

/-- Why a type name is refused. -/
inductive NameFault where
  | empty
  | keyword (segment : String)
  | notIdentifier (segment : String)
  | takenBySuperclass
  | takenByInterface
  deriving DecidableEq

namespace NameFault

def message : NameFault → String
  | .empty => "empty name"
  | .keyword segment => "'" ++ segment ++ "' is a keyword"
  | .notIdentifier segment => "'" ++ segment ++ "' is not an identifier"
  | .takenBySuperclass => "clashes with the supertype"
  | .takenByInterface => "clashes with an implemented interface"

end NameFault

inductive MemberKind where
  | field
  | method
  deriving DecidableEq

def MemberKind.text : MemberKind → String
  | .field => "Field"
  | .method => "Method"

inductive Error where
  | duplicateMember (kind : MemberKind) (signature owner : String)
  | illegalName (name : String) (fault : NameFault)
  | typeInitializerCall (method : String)
  | body (e : BodyError)
  | metadata (e : AnnotationError)
  | pool (e : PoolError)
  | initializer (typeName message : String)
  deriving DecidableEq

namespace Error

def message : Error → String
  | .duplicateMember kind signature owner =>
    kind.text ++ " " ++ signature ++ " is already defined on " ++ owner
  | .illegalName name fault => "Illegal type name '" ++ name ++ "': " ++ fault.message
  | .typeInitializerCall method =>
    "The type initializer cannot be invoked explicitly: " ++ method
  | .body e => "Emission error: " ++ e.message
  | .metadata e => "Annotation error: " ++ e.message
  | .pool e => "Constant pool error: " ++ e.message
  | .initializer typeName message => "Initializer for " ++ typeName ++ " failed: " ++ message

def isDuplicateMember : Error → Bool
  | .duplicateMember .. => true
  | _ => false

end Error

end ClassSynthesis
