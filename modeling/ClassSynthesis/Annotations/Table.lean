import ClassSynthesis.Annotations.Call
import ClassSynthesis.ClassFile.Encoding

/-!
# ClassSynthesis.Annotations.Table

The bytes of the annotation attributes of a class file. Annotations are collected in two
attributes, one for the visible and one for the other; an attribute without annotations is left
out. For parameters, either attribute holds one table per parameter.

An annotation states how many members follow, an array how many elements. Either number is the one
reached when the writer is closed, and zero if it never is.
-/

namespace ClassSynthesis

/-- The writer of an annotation or an array: what it wrote, how many values that is, and how many
it declared when it was closed. -/
structure ElementWriter where
  encoding : Encoding
  bytes : Array UInt8
  count : UInt16
  declared : UInt16

namespace ElementWriter

def start (encoding : Encoding) : ElementWriter := ⟨encoding, #[], 0, 0⟩

/-- An index that answers a request. -/
def index (w : ElementWriter) (r : Request) : ElementWriter :=
  match w with
  | ⟨encoding, bytes, count, declared⟩ =>
    match encoding.resolve r with
    | (i, encoding) => ⟨encoding, bytes ++ u2 i, count, declared⟩

/-- Name and tag of a value. Array elements are not named. -/
def begin (w : ElementWriter) (named : Bool) (name : Option String) (tag : Char) :
    ElementWriter :=
  let w := if named then w.index (.utf8 (name.getD "value")) else w
  { w with bytes := w.bytes.push tag.val.toUInt8, count := w.count + 1 }

/-- Tag and constant of a value. The small integer types share the pool's integers. -/
def constant : Element → Char × Request
  | .scalar (.boolean b) => ('Z', .number (.int (if b then 1 else 0)))
  | .scalar (.byte v) => ('B', .number (.int v.toInt32))
  | .scalar (.char unit) => ('C', .number (.int unit.toUInt32.toInt32))
  | .scalar (.short v) => ('S', .number (.int v.toInt32))
  | .scalar (.number n) =>
    (match n with
      | .int _ => 'I'
      | .long _ => 'J'
      | .float _ => 'F'
      | .double _ => 'D', .number n)
  | .scalar (.string s) => ('s', .utf8 s)
  | .type descriptor => ('c', .utf8 descriptor)

/-- A value in one piece. Its constant enters the pool before its name does, but a failure of the
name is met first. -/
def value (w : ElementWriter) (named : Bool) (name : Option String) (e : Element) :
    ElementWriter :=
  let (tag, request) := constant e
  let (answer, encoding) := w.encoding.ask request
  let w := { w with encoding }.begin named name tag
  let (i, encoding) := w.encoding.use answer
  { w with encoding, bytes := w.bytes ++ u2 i }

/-- The declared number of values and the values of a writer opened by `w`. -/
def append (w inner : ElementWriter) : ElementWriter :=
  { w with encoding := inner.encoding, bytes := w.bytes ++ u2 inner.declared ++ inner.bytes }

mutual

def call (named : Bool) (w : ElementWriter) : Call → ElementWriter
  | .value name e => w.value named name e
  | .enum name descriptor constant =>
    ((w.begin named name 'e').index (.utf8 descriptor)).index (.utf8 constant)
  | .nested name descriptor calls =>
    let w := (w.begin named name '@').index (.utf8 descriptor)
    w.append (callAll true (start w.encoding) calls)
  | .array name calls =>
    let w := w.begin named name '['
    w.append (callAll false (start w.encoding) calls)
  | .close => { w with declared := w.count }

def callAll (named : Bool) (w : ElementWriter) : List Call → ElementWriter
  | [] => w
  | c :: cs => callAll named (call named w c) cs

end

end ElementWriter

/-- Annotations written one after another. -/
structure Section where
  count : UInt16
  bytes : Array UInt8

namespace Section

def empty : Section := ⟨0, #[]⟩

/-- One more annotation: its type, then its members. -/
def write (s : Section) (encoding : Encoding) (descriptor : String) (calls : List Call) :
    Section × Encoding :=
  let w := (ElementWriter.mk encoding s.bytes 0 0).index (.utf8 descriptor)
  let w := w.append (ElementWriter.callAll true (.start w.encoding) calls)
  (⟨s.count + 1, w.bytes⟩, w.encoding)

/-- The number of annotations, then the annotations. -/
def body (s : Section) : Array UInt8 := (u2 s.count).toArray ++ s.bytes

end Section

/-- Bodies of the two attributes, where they exist. -/
structure AnnotationAttributes where
  visible : Option (Array UInt8)
  invisible : Option (Array UInt8)

/-- The annotations of a class, field or method. -/
structure AnnotationTable where
  encoding : Encoding
  visible : Section
  invisible : Section

namespace AnnotationTable

def start (pool : ConstantPool) : AnnotationTable := ⟨.start pool, .empty, .empty⟩

def receive (t : AnnotationTable) (d : Delivery) : AnnotationTable :=
  match t with
  | ⟨encoding, visible, invisible⟩ =>
    if d.visible then
      let (s, encoding) := visible.write encoding d.descriptor d.calls
      ⟨encoding, s, invisible⟩
    else
      let (s, encoding) := invisible.write encoding d.descriptor d.calls
      ⟨encoding, visible, s⟩

def body? (s : Section) : Option (Array UInt8) :=
  if 0 < s.count then some s.body else none

def finish (t : AnnotationTable) : Except PoolError AnnotationAttributes :=
  match t.encoding.failure with
  | some e => .error e
  | none => .ok ⟨body? t.visible, body? t.invisible⟩

end AnnotationTable

/-- The annotations of the parameters of a method. Both attributes declare equally many tables. -/
structure ParameterTable where
  encoding : Encoding
  visible : Array Section
  invisible : Array Section

namespace ParameterTable

def start (pool : ConstantPool) (parameters : Nat) : ParameterTable :=
  ⟨.start pool, Array.replicate parameters .empty, Array.replicate parameters .empty⟩

/-- At least so many tables. -/
def grow (size : Nat) (sections : Array Section) : Array Section :=
  sections ++ Array.replicate (size - sections.size) Section.empty

/-- One more annotation in the table of a parameter. -/
def writeAt (sections : Array Section) (parameter : Nat) (encoding : Encoding) (d : Delivery) :
    Array Section × Encoding :=
  let (s, encoding) := (sections.getD parameter .empty).write encoding d.descriptor d.calls
  (sections.setIfInBounds parameter s, encoding)

/-- The tables grow to hold the parameter, beyond the declared parameters if need be. -/
def receive (t : ParameterTable) (parameter : Nat) (d : Delivery) : ParameterTable :=
  let visible := grow (parameter + 1) t.visible
  let invisible := grow (parameter + 1) t.invisible
  if d.visible then
    let (visible, encoding) := writeAt visible parameter t.encoding d
    ⟨encoding, visible, invisible⟩
  else
    let (invisible, encoding) := writeAt invisible parameter t.encoding d
    ⟨encoding, visible, invisible⟩

/-- The number of tables in one byte, then the tables; left out if all are empty. -/
def body? (sections : Array Section) : Option (Array UInt8) :=
  if sections.all fun s => s.count == 0 then none
  else some (sections.foldl (fun out s => out ++ s.body) #[UInt8.ofNat sections.size])

def finish (t : ParameterTable) : Except PoolError AnnotationAttributes :=
  match t.encoding.failure with
  | some e => .error e
  | none => .ok ⟨body? t.visible, body? t.invisible⟩

end ParameterTable

end ClassSynthesis
