import ClassSynthesis.Annotations.Table
import ClassSynthesis.Proofs.Annotations.Content
import ClassSynthesis.Proofs.Pool.Resolution
import ClassSynthesis.Proofs.Reader

/-!
# ClassSynthesis.Proofs.Annotations.Parser

Reading annotations from the bytes of an attribute, with a pool for the indices in them. A value
goes by its tag, and a tag and a constant that do not fit together are no value.

Values are nested in bytes as deep as the bytes are long at most, so `value` is read with a depth
that it counts down.

* `annotations pool bytes`: all annotations of an attribute, no byte left over.
* `element?_constant`: tag and constant of a value in one piece determine it.
-/

namespace ClassSynthesis
namespace AnnotationParser

/-- The value that a constant is under a tag. The small integer types are held as integers in
their range. -/
def element? : Char → Request → Option Element
  | 'Z', .number (.int v) =>
    if v = 0 then some (.scalar (.boolean false))
    else if v = 1 then some (.scalar (.boolean true))
    else none
  | 'B', .number (.int v) => if v.toInt8.toInt32 = v then some (.scalar (.byte v.toInt8)) else none
  | 'C', .number (.int v) =>
    if v.toUInt32.toUInt16.toUInt32.toInt32 = v then some (.scalar (.char v.toUInt32.toUInt16))
    else none
  | 'S', .number (.int v) =>
    if v.toInt16.toInt32 = v then some (.scalar (.short v.toInt16)) else none
  | 'I', .number (.int v) => some (.scalar (.number (.int v)))
  | 'J', .number (.long v) => some (.scalar (.number (.long v)))
  | 'F', .number (.float bits) => some (.scalar (.number (.float bits)))
  | 'D', .number (.double bits) => some (.scalar (.number (.double bits)))
  | 's', .utf8 s => some (.scalar (.string s))
  | 'c', .utf8 descriptor => some (.type descriptor)
  | _, _ => none

/-- The character of a tag that is written as one byte. -/
def IsTag (tag : Char) : Prop := Char.ofNat tag.val.toUInt8.toNat = tag

theorem isTag_constant (e : Element) : IsTag (ElementWriter.constant e).1 := by
  rcases e with (b | v | unit | v | (v | v | v | v) | s) | d <;> rfl

theorem element?_constant (e : Element) :
    element? (ElementWriter.constant e).1 (ElementWriter.constant e).2 = some e := by
  rcases e with (b | v | unit | v | (v | v | v | v) | s) | d
  case scalar.boolean => cases b <;> rfl
  case scalar.byte => simp [ElementWriter.constant, element?]
  case scalar.char => simp [ElementWriter.constant, element?]
  case scalar.short => simp [ElementWriter.constant, element?]
  all_goals rfl

section

variable (pool : ConstantPool)

/-- What an index in the bytes refers to. -/
def request : Reader Request := do
  StateT.lift (pool.requestAt? (← Reader.index))

def text : Reader String := do
  match ← request pool with
  | .utf8 s => return s
  | _ => failure

def member (value : Reader ValueContent) : Reader MemberContent := do
  let name ← text pool
  return .mk name (← value)

def entry (value : Reader ValueContent) : Reader AnnotationContent := do
  let descriptor ← text pool
  return .mk descriptor (← Reader.counted (member pool value))

/-- What follows a tag, given how values inside it are read. -/
def content (value : Reader ValueContent) : Char → Reader ValueContent
  | 'e' => do
    let descriptor ← text pool
    return .enum descriptor (← text pool)
  | '@' => return .nested (← entry pool value)
  | '[' => return .array (← Reader.counted value)
  | tag => do
    let constant ← request pool
    return .element (← StateT.lift (element? tag constant))

/-- A value, down to a depth. -/
def value : Nat → Reader ValueContent
  | 0 => failure
  | depth + 1 => do
    content pool (value depth) (.ofNat (← Reader.number 1))

def annotations (bytes : List UInt8) : Option (List AnnotationContent) :=
  (Reader.counted (entry pool (value pool bytes.length))).whole bytes

end

/-! ## What is read -/

section

variable {pool : ConstantPool} {inner : Reader ValueContent} {bytes : List UInt8}

theorem reads_request {i : UInt16} {r : Request} (h : pool.requestAt? i = some r) :
    Reads (request pool) (u2 i) r :=
  (Reads.index i).andThen (.lift h)

theorem reads_text {s : String} (h : Reads (request pool) bytes (.utf8 s)) :
    Reads (text pool) bytes s :=
  h.andThen (.pure s)

theorem reads_element (e : Element)
    (h : Reads (request pool) bytes (ElementWriter.constant e).2) :
    Reads (content pool inner (ElementWriter.constant e).1) bytes (.element e) := by
  have hc : content pool inner (ElementWriter.constant e).1 = do
      let constant ← request pool
      return .element (← StateT.lift (element? (ElementWriter.constant e).1 constant)) := by
    rcases e with (b | v | unit | v | (v | v | v | v) | s) | d <;> rfl
  rw [hc]
  exact h.andThen ((Reads.lift (element?_constant e)).andThen (.pure _))

/-- A tag makes what stands behind it a value, one level further down. -/
theorem reads_value {tag : Char} {c : ValueContent} {depth : Nat} (htag : IsTag tag)
    (h : Reads (content pool (value pool depth) tag) bytes c) :
    Reads (value pool (depth + 1)) ([tag.val.toUInt8] ++ bytes) c := by
  refine (Reads.number_byte _).bind ?_
  rw [htag]
  exact h

end

end AnnotationParser
end ClassSynthesis
