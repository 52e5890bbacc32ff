import ClassSynthesis.Emission.Fragment
import ClassSynthesis.Proofs.Emission.Built
import ClassSynthesis.Proofs.Types.Spelling

/-!
# ClassSynthesis.Proofs.Stack.Constants

A machine that knows what constants are. It runs the instructions that push one, the class objects
of primitives in their static fields, and the look-up of a class by its name; every other
instruction is stuck. Floating point numbers are bit patterns, so a negative zero is not a zero and
each NaN is itself only.

A class has two texts that name it: a class literal has the internal name, with slashes, and
`Class.forName` takes the binary name, with dots. In both an array is spelled as a descriptor.
Reading does not mind which of the two separators it meets (`readType?_map_dot`), so that the texts
are read alike (`forName?_dotted`).

Which constants the class files of a version may have in their pool is not asked here: it is checked
before the code runs.

* `constants_denote`: what a constant's code pushes is the constant, whatever form is chosen, and for
  a class it makes no difference which version the code is for.
-/

namespace ClassSynthesis
namespace ConstantMachine

/-! ## Values -/

/-- A class as the virtual machine knows it. -/
inductive LoadedClass where
  | primitive (p : Primitive)
  | named (binaryName : String)
  | array (component : LoadedClass)
  deriving DecidableEq

namespace LoadedClass

def of : TypeDesc → LoadedClass
  | .primitive p => .primitive p
  | .array c => .array (of c)
  | .declared name _ _ _ _ => .named name

/-- The class of an array that is spelled as a descriptor. -/
def ofDescriptor? (descriptor : List Char) : Option LoadedClass :=
  match readType? descriptor with
  | some (t, []) => some (of t)
  | _ => none

/-- The class of a class literal, whose name has no dots. -/
def ofInternalName? (name : String) : Option LoadedClass :=
  if '.' ∈ name.toList then none
  else if name.toList.head? = some '[' then ofDescriptor? name.toList
  else some (.named (TypeDesc.dotted name))

/-- The class that `Class.forName` returns, for a name without slashes. -/
def forName? (name : String) : Option LoadedClass :=
  if '/' ∈ name.toList then none
  else if name.toList.head? = some '[' then ofDescriptor? name.toList
  else some (.named name)

end LoadedClass

/-- The small integer types are held as `int`. -/
inductive Value where
  | number (n : Number)
  | null
  | string (s : String)
  | classObject (c : LoadedClass)
  | methodType (descriptor : String)
  deriving DecidableEq

/-- What a field of the type holds before anything is stored in it. There is no value of `void`. -/
def initial : TypeDesc → List Value
  | .primitive .void => []
  | .primitive .long => [.number (.long 0)]
  | .primitive .float => [.number (.float (0 : Float32).toBits)]
  | .primitive .double => [.number (.double (0 : Float).toBits)]
  | .primitive _ => [.number (.int 0)]
  | _ => [.null]

/-! ## Instructions -/

/-- The number in the name of an instruction is the number that it pushes. -/
def constant? (op : Opcode) : Option Value :=
  if op = 0x01 then some .null -- ACONST_NULL
  else if 0x02 ≤ op ∧ op ≤ 0x08 then some (.number (.int (.ofInt (op.toNat - 3)))) -- ICONST
  else if 0x09 ≤ op ∧ op ≤ 0x0a then some (.number (.long (.ofNat (op.toNat - 9)))) -- LCONST
  else if 0x0b ≤ op ∧ op ≤ 0x0d then
    some (.number (.float (Float32.ofNat (op.toNat - 11)).toBits)) -- FCONST
  else if 0x0e ≤ op ∧ op ≤ 0x0f then
    some (.number (.double (Float.ofNat (op.toNat - 14)).toBits)) -- DCONST
  else none

/-- The operand is in the code as one byte or two, with its sign. -/
def immediate? (op : Opcode) (operand : Int32) : Option Value :=
  if op = 0x10 then some (.number (.int operand.toInt8.toInt32)) -- BIPUSH
  else if op = 0x11 then some (.number (.int operand.toInt16.toInt32)) -- SIPUSH
  else none

def pooled? : Loadable → Option Value
  | .number n => some (.number n)
  | .string s => some (.string s)
  | .type name => (LoadedClass.ofInternalName? name).map .classObject
  | .methodType descriptor => some (.methodType descriptor)

/-- The classes with a field `TYPE`, and whose class object it holds. -/
def typeFields : List (String × Primitive) :=
  [ ("java/lang/Boolean", .boolean), ("java/lang/Byte", .byte), ("java/lang/Character", .char),
    ("java/lang/Short", .short), ("java/lang/Integer", .int), ("java/lang/Long", .long),
    ("java/lang/Float", .float), ("java/lang/Double", .double), ("java/lang/Void", .void) ]

def staticField? (owner name descriptor : String) : Option Value :=
  if name = "TYPE" ∧ descriptor = "Ljava/lang/Class;" then
    (typeFields.lookup owner).map fun p => .classObject (.primitive p)
  else none

/-- The one method that is known. -/
def forNameCall : Instruction :=
  .method 0xb8 "java/lang/Class" "forName" "(Ljava/lang/String;)Ljava/lang/Class;" false

def pushed? : Instruction → Option Value
  | .plain op => constant? op
  | .immediate op operand => immediate? op operand
  | .push c => pooled? c
  | .field op owner name descriptor =>
    if op = 0xb2 then staticField? owner name descriptor else none -- GETSTATIC
  | _ => none

def step? (i : Instruction) (stack : List Value) : Option (List Value) :=
  if i = forNameCall then
    match stack with
    | .string name :: stack => (LoadedClass.forName? name).map fun c => .classObject c :: stack
    | _ => none
  else (pushed? i).map (· :: stack)

def run : List Instruction → List Value → Option (List Value)
  | [], stack => some stack
  | i :: code, stack =>
    match step? i stack with
    | some stack => run code stack
    | none => none

/-! ## Numbers -/

theorem run_push {i : Instruction} {v : Value} (h : pushed? i = some v) (stack : List Value) :
    run [i] stack = some (v :: stack) := by
  have hi : i ≠ forNameCall := by
    rintro rfl
    cases h
  simp [run, step?, hi, h]

theorem pushed?_pushInt (v : Int32) :
    pushed? (Operation.pushInt v) = some (.number (.int v)) := by
  unfold Operation.pushInt
  split
  · rename_i h
    rcases Operation.cases_of_small h with rfl | rfl | rfl | rfl | rfl | rfl | rfl <;> rfl
  · split_ifs with hb hs
    · exact congrArg (fun v => some (Value.number (.int v))) hb
    · exact congrArg (fun v => some (Value.number (.int v))) hs
    · rfl

theorem pushed?_pushLong (v : Int64) :
    pushed? (Operation.pushLong v) = some (.number (.long v)) := by
  unfold Operation.pushLong
  split_ifs with h0 h1
  · rw [h0]
    rfl
  · rw [h1]
    rfl
  · rfl

theorem pushed?_pushFloat (bits : UInt32) :
    pushed? (Operation.pushFloat bits) = some (.number (.float bits)) := by
  unfold Operation.pushFloat
  split_ifs with h0 h1 h2
  · rw [h0]
    rfl
  · rw [h1]
    rfl
  · rw [h2]
    rfl
  · rfl

theorem pushed?_pushDouble (bits : UInt64) :
    pushed? (Operation.pushDouble bits) = some (.number (.double bits)) := by
  unfold Operation.pushDouble
  split_ifs with h0 h1
  · rw [h0]
    rfl
  · rw [h1]
    rfl
  · rfl

theorem pushed?_pushNumber (n : Number) : pushed? (Operation.pushNumber n) = some (.number n) := by
  cases n with
  | int v => exact pushed?_pushInt v
  | long v => exact pushed?_pushLong v
  | float bits => exact pushed?_pushFloat bits
  | double bits => exact pushed?_pushDouble bits

/-! ## Names of classes -/

/-- A character of a binary name for one of an internal name. -/
def dot (c : Char) : Char := if c = '/' then '.' else c

theorem toList_dotted (name : String) : (TypeDesc.dotted name).toList = name.toList.map dot :=
  String.toList_map

theorem dot_eq_iff {c d : Char} (hslash : d ≠ '/') (hdot : d ≠ '.') : dot c = d ↔ c = d := by
  unfold dot
  split
  · rename_i h
    rw [h]
    exact iff_of_false hdot.symm hslash.symm
  · rfl

theorem readName?_map_dot (cs : List Char) : readName? (cs.map dot) =
    (readName? cs).map fun (name, rest) => (name.map dot, rest.map dot) := by
  induction cs with
  | nil => rfl
  | cons c cs ih =>
    have hend : dot c = ';' ↔ c = ';' := dot_eq_iff (by decide) (by decide)
    by_cases hc : c = ';'
    · rw [List.map_cons, readName?, if_pos (hend.mpr hc), readName?, if_pos hc]
      rfl
    · simp [readName?, hc, hend, ih, Function.comp_def]

theorem dotted_map_dot (name : List Char) : TypeDesc.dotted (String.ofList (name.map dot)) =
    TypeDesc.dotted (String.ofList name) := by
  apply String.toList_injective
  rw [toList_dotted, toList_dotted, String.toList_ofList, String.toList_ofList, List.map_map]
  refine List.map_congr_left fun c _ => ?_
  by_cases hc : c = '/' <;> simp [dot, hc]

theorem readPrimitive?_dot (c : Char) : readPrimitive? (dot c) = readPrimitive? c := by
  by_cases hc : c = '/'
  · rw [hc]
    rfl
  · rw [dot, if_neg hc]

/-- A class is told by its binary name, whichever way that is written. -/
theorem readType?_map_dot (cs : List Char) : readType? (cs.map dot) =
    (readType? cs).map fun (t, rest) => (t, rest.map dot) := by
  induction cs with
  | nil => rfl
  | cons c cs ih =>
    have harray : dot c = '[' ↔ c = '[' := dot_eq_iff (by decide) (by decide)
    have hclass : dot c = 'L' ↔ c = 'L' := dot_eq_iff (by decide) (by decide)
    rw [List.map_cons, readType?, readType?]
    by_cases ha : c = '['
    · rw [if_pos (harray.mpr ha), if_pos ha, ih, Option.map_map, Option.map_map]
      rfl
    · rw [if_neg (mt harray.mp ha), if_neg ha]
      by_cases hl : c = 'L'
      · rw [if_pos (hclass.mpr hl), if_pos hl, readName?_map_dot, Option.map_map, Option.map_map]
        simp only [Function.comp_def, dotted_map_dot]
      · rw [if_neg (mt hclass.mp hl), if_neg hl, readPrimitive?_dot, Option.map_map]
        rfl

namespace LoadedClass

theorem ofDescriptor?_map_dot (descriptor : List Char) :
    ofDescriptor? (descriptor.map dot) = ofDescriptor? descriptor := by
  rw [ofDescriptor?, readType?_map_dot, ofDescriptor?]
  cases readType? descriptor with
  | none => rfl
  | some read =>
    obtain ⟨t, rest⟩ := read
    cases rest <;> rfl

theorem forName?_dotted {name : String} (h : '.' ∉ name.toList) :
    forName? (TypeDesc.dotted name) = ofInternalName? name := by
  have hslash : '/' ∉ (TypeDesc.dotted name).toList := by
    rw [toList_dotted, List.mem_map]
    rintro ⟨c, -, hc⟩
    unfold dot at hc
    split at hc
    · cases hc
    · contradiction
  have hhead : (TypeDesc.dotted name).toList.head? = some '[' ↔ name.toList.head? = some '[' := by
    rw [toList_dotted, List.head?_map]
    cases name.toList.head? with
    | none => simp
    | some c => simp [dot_eq_iff]
  rw [forName?, if_neg hslash, ofInternalName?, if_neg h]
  by_cases ha : name.toList.head? = some '['
  · rw [if_pos (hhead.mpr ha), if_pos ha, toList_dotted, ofDescriptor?_map_dot]
  · rw [if_neg (mt hhead.mp ha), if_neg ha]

end LoadedClass

end ConstantMachine

namespace TypeDesc

variable {t : TypeDesc}

/-- No class name in the type has a slash, which stands for a dot in other spellings. -/
def Slashless : TypeDesc → Prop
  | .primitive _ => True
  | .array c => c.Slashless
  | .declared name _ _ _ _ => '/' ∉ name.toList

/-- Nor has any a character that ends a class name or begins the name of an array. -/
def Nameable : TypeDesc → Prop
  | .primitive _ => True
  | .array c => c.Nameable
  | .declared name _ _ _ _ => '/' ∉ name.toList ∧ ';' ∉ name.toList ∧ '[' ∉ name.toList

theorem Nameable.plain (h : t.Nameable) : t.Plain := by
  induction t using component_induction with
  | primitive => trivial
  | array c ih => exact ih h
  | declared => exact ⟨h.1, h.2.1⟩

theorem Plain.slashless (h : t.Plain) : t.Slashless := by
  induction t using component_induction with
  | primitive => trivial
  | array c ih => exact ih h
  | declared => exact h.1

theorem dot_not_mem_slashed (name : String) : '.' ∉ (slashed name).toList := by
  rw [slashed, String.toList_map, List.mem_map]
  rintro ⟨c, -, hc⟩
  split at hc
  · cases hc
  · contradiction

theorem dot_not_mem_descriptor (t : TypeDesc) : '.' ∉ t.descriptor.toList := by
  induction t using component_induction with
  | primitive p => cases p <;> decide
  | array c ih => simp [descriptor, ih]
  | declared name => simp [descriptor, dot_not_mem_slashed]

theorem dot_not_mem_internalName (hr : t.asPrimitive = none) : '.' ∉ t.internalName.toList := by
  cases t with
  | primitive p => cases hr
  | array c => exact dot_not_mem_descriptor (.array c)
  | declared name => exact dot_not_mem_slashed name

theorem name_eq_dotted (hr : t.asPrimitive = none) (h : t.Slashless) :
    t.name = dotted t.internalName := by
  cases t with
  | primitive p => cases hr
  | array c => rfl
  | declared name => exact (dotted_slashed h).symm

end TypeDesc

namespace ConstantMachine

variable {t : TypeDesc}

namespace LoadedClass

theorem of_respelled (h : t.Plain) : of t.respelled = of t := by
  induction t using TypeDesc.component_induction with
  | primitive => rfl
  | array c ih => exact congrArg array (ih h)
  | declared name => exact congrArg named (TypeDesc.dotted_slashed h.1)

/-- Both names of a type are names of the same class, or of none. -/
theorem ofInternalName?_eq_forName? (hr : t.asPrimitive = none) (h : t.Slashless) :
    ofInternalName? t.internalName = forName? t.name := by
  rw [TypeDesc.name_eq_dotted hr h, forName?_dotted (TypeDesc.dot_not_mem_internalName hr)]

theorem ofInternalName?_internalName (hr : t.asPrimitive = none) (h : t.Nameable) :
    ofInternalName? t.internalName = some (of t) := by
  rw [ofInternalName?, if_neg (TypeDesc.dot_not_mem_internalName hr)]
  cases t with
  | primitive p => cases hr
  | array c =>
    have hread := TypeDesc.readType?_plain (t := .array c) h.plain
    rw [TypeDesc.internalName, if_pos (by simp [TypeDesc.descriptor]), ofDescriptor?, hread]
    exact congrArg some (of_respelled (t := .array c) h.plain)
  | declared name =>
    have hhead : (TypeDesc.slashed name).toList.head? ≠ some '[' := fun hhead =>
      TypeDesc.not_mem_slashed (by decide) h.2.2 (List.mem_of_mem_head? hhead)
    rw [TypeDesc.internalName, if_neg hhead, TypeDesc.dotted_slashed h.1]
    rfl

end LoadedClass

/-! ## Constants -/

/-- The values that a constant is to push, none for the default value of `void`. -/
inductive Denotes : Operation → List Value → Prop where
  | number (n : Number) : Denotes (.number n) [.number n]
  | text (s : String) : Denotes (.text s) [.string s]
  | null : Denotes .null [.null]
  | methodType (descriptor : String) : Denotes (.methodType descriptor) [.methodType descriptor]
  | defaultValue (t : TypeDesc) : Denotes (.defaultValue t) (initial t)
  | classObject {t : TypeDesc} (h : t.Nameable) :
      Denotes (.classLiteral t) [.classObject (.of t)]

variable {version : ClassFileVersion}

theorem pushClass_reference (hr : t.asPrimitive = none) : Operation.pushClass version t =
    if version.supportsClassConstants then [.push (.type t.internalName)]
    else [.push (.string t.name), forNameCall] := by
  simp only [Operation.pushClass, hr]
  rfl

/-- A class literal and a look-up by name push the same class object, if there is one. -/
theorem run_pushClass (hr : t.asPrimitive = none) (h : t.Slashless) (stack : List Value) :
    run (Operation.pushClass version t) stack =
      (LoadedClass.ofInternalName? t.internalName).map fun c => .classObject c :: stack := by
  rw [pushClass_reference hr]
  cases hc : LoadedClass.ofInternalName? t.internalName with
  | none =>
    have hn : LoadedClass.forName? t.name = none :=
      (LoadedClass.ofInternalName?_eq_forName? hr h).symm.trans hc
    split <;> simp [run, step?, pushed?, pooled?, forNameCall, hc, hn]
  | some c =>
    have hn : LoadedClass.forName? t.name = some c :=
      (LoadedClass.ofInternalName?_eq_forName? hr h).symm.trans hc
    split <;> simp [run, step?, pushed?, pooled?, forNameCall, hc, hn]

theorem run_pushClass_primitive (p : Primitive) (stack : List Value) :
    run (Operation.pushClass version (.primitive p)) stack =
      some (.classObject (.primitive p) :: stack) := by
  refine run_push ?_ stack
  cases p <;> decide +kernel

theorem run_pushDefault (t : TypeDesc) (stack : List Value) :
    run (Operation.pushDefault t) stack = some (initial t ++ stack) := by
  cases t with
  | primitive p => cases p <;> rfl
  | array c => rfl
  | declared name => rfl

theorem run_pushClass_nameable (h : t.Nameable) (stack : List Value) :
    run (Operation.pushClass version t) stack = some (.classObject (.of t) :: stack) := by
  cases hr : t.asPrimitive with
  | none =>
    rw [run_pushClass hr h.plain.slashless, LoadedClass.ofInternalName?_internalName hr h]
    rfl
  | some p =>
    cases t with
    | primitive p => exact run_pushClass_primitive p stack
    | _ => cases hr

theorem Denotes.runs {o : Operation} {values : List Value} (h : Denotes o values)
    (stack : List Value) : run (o.emit version).code.toList stack = some (values ++ stack) := by
  cases h with
  | number n => exact run_push (pushed?_pushNumber n) stack
  | text s => rfl
  | null => rfl
  | methodType descriptor => rfl
  | defaultValue t => exact run_pushDefault t stack
  | classObject h => exact run_pushClass_nameable h stack

theorem constants_denote (version : ClassFileVersion) :
    (∀ (o : Operation) (values : List Value), Denotes o values → ∀ stack,
      run (o.emit version).code.toList stack = some (values ++ stack)) ∧
    ∀ t : TypeDesc, t.asPrimitive = none → t.Slashless →
      let code (v : ClassFileVersion) := ((Operation.classLiteral t).emit v).code
      LoadedClass.ofInternalName? t.internalName = LoadedClass.forName? t.name ∧
        (∀ other stack, run (code version).toList stack = run (code other).toList stack) ∧
        (version.major < 49 → ∀ i ∈ code version, ∀ name, i ≠ .push (.type name)) := by
  refine ⟨fun o values h => h.runs, ?_⟩
  intro t hr h code
  have hcode : ∀ v, (code v).toList = Operation.pushClass v t := fun v => rfl
  refine ⟨LoadedClass.ofInternalName?_eq_forName? hr h, fun other stack => ?_, fun hv i hi => ?_⟩
  · rw [hcode, hcode, run_pushClass hr h, run_pushClass hr h]
  · have hold : version.supportsClassConstants = false := by
      simpa [ClassFileVersion.supportsClassConstants] using hv
    rw [← Array.mem_toList_iff, hcode, pushClass_reference hr, hold] at hi
    rintro name rfl
    simp [forNameCall] at hi

/-- The first integer that one byte does not hold, a negative zero, a NaN with a payload, and the
class of an array of arrays before there were class literals. -/
theorem constants_denote_forms :
    let code (version : ClassFileVersion) (o : Operation) := (o.emit version).code.toList
    let old := ClassFileVersion.ofMajor 48
    let t := TypeDesc.arrayOf (.classNamed "p.A") 2
    run (code old (.number (.int 128))) [] = some [.number (.int 128)] ∧
      run (code old (.number (.float 0x80000000))) [] = some [.number (.float 0x80000000)] ∧
      run (code old (.number (.double 0x7ff8000000000001))) [] =
        some [.number (.double 0x7ff8000000000001)] ∧
      run (code old (.classLiteral t)) [.null] =
        some [.classObject (.array (.array (.named "p.A"))), .null] ∧
      run (code old (.classLiteral t)) [] = run (code .standard (.classLiteral t)) [] := by
  intro code old t
  have ht : t.Nameable := by
    have hname : '/' ∉ "p.A".toList ∧ ';' ∉ "p.A".toList ∧ '[' ∉ "p.A".toList := by decide
    exact hname
  obtain ⟨hvalue, hclass⟩ := constants_denote old
  exact ⟨hvalue _ _ (.number _) [], hvalue _ _ (.number _) [], hvalue _ _ (.number _) [],
    hvalue _ _ (.classObject ht) [.null], (hclass t rfl ht.plain.slashless).2.1 .standard []⟩

end ConstantMachine
end ClassSynthesis
