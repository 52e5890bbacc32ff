import ClassSynthesis.Proofs.Code.Immediates
import ClassSynthesis.Proofs.Emission.Dispatch
import ClassSynthesis.Proofs.Stack.Machine
import ClassSynthesis.Proofs.Types.Spelling

/-!
# ClassSynthesis.Proofs.Code.ArgumentCount

Argument slots counted from a descriptor and from the parameters that it spells. The scan takes
one type after another from the front: a type adds its width, whatever stands after it
(`slots_descriptor`), because the letters of a class name and the element type of an array are
passed over without counting. Counts are not bounded here; with the receiver they fit 16 bits for
as long as the parameters take at most 65534 slots.

* `argumentSlots_descriptor`: the scan of a method's descriptor counts the slots of its parameters.
  So an interface call, however it was moved there, has a count byte in the finished code that is
  the number of slots its effect takes from the operand stack.
-/

namespace ClassSynthesis

/-! ## The scan -/

namespace DescriptorScan

open TypeDesc

/-- Nothing in a class name counts. -/
theorem slots_inClassName {name : List Char} (h : ';' ∉ name) (counted : Nat) (rest : List Char) :
    inClassName.slots counted (name ++ ';' :: rest) = atType.slots counted rest := by
  induction name with
  | nil => simp [slots]
  | cons c cs ih =>
    obtain ⟨hc, hcs⟩ := List.ne_and_not_mem_of_not_mem_cons h
    simp [slots, Ne.symm hc, ih hcs]

/-- Neither does the element type of an array, at any depth. -/
theorem slots_inArray {t : TypeDesc} (h : t.Spellable) (counted : Nat) (rest : List Char) :
    inArray.slots counted (t.descriptor.toList ++ rest) = atType.slots counted rest := by
  induction t using component_induction with
  | primitive p => cases p <;> simp [descriptor, Primitive.descriptor, slots]
  | array c ih => simp [descriptor, slots, ih h]
  | declared name modifiers superclass interfaces annotations =>
    have hname := slots_inClassName (semicolon_slashed h) counted rest
    simp [descriptor, slots, hname]

/-- A type that is not `void` adds its width. -/
theorem slots_descriptor {t : TypeDesc} (h : t.Spellable) (hv : t.isVoid = false) (counted : Nat)
    (rest : List Char) :
    atType.slots counted (t.descriptor.toList ++ rest) =
      atType.slots (counted + t.width.slots) rest := by
  cases t with
  | primitive p =>
    cases p with
    | void => cases hv
    | _ => simp [descriptor, Primitive.descriptor, slots, width, Primitive.width, Width.slots]
  | array c =>
    have hc := slots_inArray (t := c) h (counted + 1) rest
    simp [descriptor, slots, hc, width, Width.slots]
  | declared name modifiers superclass interfaces annotations =>
    have hname := slots_inClassName (semicolon_slashed h) (counted + 1) rest
    simp [descriptor, slots, hname, width, Width.slots]

theorem slots_descriptors {ts : List TypeDesc} (h : ∀ t ∈ ts, t.Spellable ∧ t.isVoid = false)
    (counted : Nat) (rest : List Char) :
    atType.slots counted ((descriptorsOf ts).toList ++ ')' :: rest) = counted + slotsOf ts := by
  induction ts generalizing counted with
  | nil => simp [descriptorsOf, slots, slotsOf]
  | cons t ts ih =>
    obtain ⟨ht, hv⟩ := h t List.mem_cons_self
    have hts := fun u hu => h u (List.mem_cons_of_mem t hu)
    rw [descriptorsOf_cons, String.toList_append, List.append_assoc, slots_descriptor ht hv,
      ih hts, slotsOf_cons, Nat.add_assoc]

end DescriptorScan

theorem head?_descriptors (ts : List TypeDesc) (rest : List Char) :
    ((descriptorsOf ts).toList ++ ')' :: rest).head? ≠ some '(' := by
  cases ts with
  | nil => simp [descriptorsOf]
  | cons t ts =>
    rw [TypeDesc.descriptorsOf_cons]
    cases t with
    | primitive p => cases p <;> simp [TypeDesc.descriptor, Primitive.descriptor]
    | array c => simp [TypeDesc.descriptor]
    | declared name modifiers superclass interfaces annotations => simp [TypeDesc.descriptor]

/-- The scan starts after the first parenthesis and ends at the one that closes it. -/
theorem argumentSlots_methodDescriptor {ts : List TypeDesc}
    (h : ∀ t ∈ ts, t.Spellable ∧ t.isVoid = false) (returns : TypeDesc) :
    argumentSlots (methodDescriptor ts returns) = slotsOf ts := by
  have hlist : (methodDescriptor ts returns).toList =
      '(' :: ((descriptorsOf ts).toList ++ ')' :: returns.descriptor.toList) := by
    simp [methodDescriptor]
  have hdrop : ∀ cs : List Char, cs.head? ≠ some '(' → cs.dropWhile (· == '(') = cs := by
    intro cs hcs
    cases cs with
    | nil => rfl
    | cons c cs => exact List.dropWhile_cons_of_neg (by simpa using hcs)
  rw [argumentSlots, hlist, List.dropWhile_cons_of_pos (by decide),
    hdrop _ (head?_descriptors ts _), DescriptorScan.slots_descriptors h, Nat.zero_add]

/-! ## The count byte -/

namespace Assembler

theorem write_interfaceCall (a : Assembler) (owner name descriptor : String)
    (onInterface : Bool) :
    ∃ i, (a.write (.method .invokeinterface owner name descriptor onInterface)).code.toList =
      a.code.toList ++
        (Opcode.invokeinterface :: u2 i ++ [UInt8.ofNat (argumentSlots descriptor + 1), 0]) :=
  ⟨(a.encoding.resolve _).1, Array.toList_appendList⟩

/-- What an instruction writes stays where it is. -/
theorem code_at {a : Assembler} (h : a.encoding.pool.Wf) {visits : List Instruction}
    {k : Nat} {i : Instruction} (hk : visits[k]? = some i) {bs : List UInt8} :
    let before := (visits.take k).foldl write a
    (before.write i).code.toList = before.code.toList ++ bs →
    ∃ rest, (visits.foldl write a).code.toList.drop before.offset = bs ++ rest := by
  intro before hbs
  have hbefore := foldl_continues h (visits.take k)
  have hwrite := write_continues hbefore.becomes.wf i
  have hvisits : visits = visits.take k ++ i :: visits.drop (k + 1) := by
    obtain ⟨hlt, rfl⟩ := List.getElem?_eq_some_iff.mp hk
    rw [List.getElem_cons_drop, List.take_append_drop]
  obtain ⟨rest, hrest⟩ := (foldl_continues hwrite.becomes.wf (visits.drop (k + 1))).longer
  refine ⟨rest, ?_⟩
  rw [hvisits, List.foldl_append, List.foldl_cons, ← hrest, hbs, List.append_assoc]
  exact List.drop_left' Array.length_toList

end Assembler

namespace CallSite

variable {c : CallSite} {m : MethodDesc}

/-- The slots that a call takes are those of the receiver and of the arguments. -/
theorem Lawful.argumentSlots_of_interface (h : c.Lawful m) (hd : c.dispatch = .interface) :
    m.argumentSlots = slotsOf m.parameters + 1 := by
  have hstatic : ¬m.isStatic = true := fun hs => by
    have hd' := h.static_iff.mpr hs
    rw [hd] at hd'
    cases hd'
  rw [MethodDesc.argumentSlots, if_neg hstatic]

end CallSite

theorem argumentSlots_descriptor (m : MethodDesc)
    (h : ∀ t ∈ m.parameters, t.Spellable ∧ t.isVoid = false) :
    argumentSlots m.descriptor = slotsOf m.parameters ∧
    ∀ (origin : CallSite) (moves : List Retarget), CallSite.of m = .ok origin →
      let c := origin.moved moves
      c.dispatch = .interface → m.argumentSlots ≤ 255 →
      c.effect = .shift (m.returns.width.slots - m.argumentSlots) ∧
      ∀ (history : List Request) (visits : List Instruction) (k : Nat),
        visits[k]? = some c.instruction →
        let a := Assembler.start (ConstantPool.empty.after history)
        let offset := ((visits.take k).foldl Assembler.write a).offset
        ∃ (i : UInt16) (count : UInt8) (rest : List UInt8),
          (visits.foldl Assembler.write a).code.toList.drop offset =
            Opcode.invokeinterface :: u2 i ++ count :: 0 :: rest ∧
          count.toNat = m.argumentSlots := by
  have hslots : argumentSlots m.descriptor = slotsOf m.parameters :=
    argumentSlots_methodDescriptor h m.returns
  refine ⟨hslots, ?_⟩
  intro origin moves ho c hd hfew
  have hlawful : c.Lawful m := (CallSite.of_lawful ho).moved moves
  have hcount := hlawful.argumentSlots_of_interface hd
  have hmethod := hlawful.method
  refine ⟨by rw [CallSite.effect, hmethod], ?_⟩
  intro history visits k hk a offset
  have hwf : a.encoding.pool.Wf := ConstantPool.after_wf ConstantPool.empty_wf history
  have hcall : c.instruction = .method .invokeinterface c.receiver.internalName m.name
      m.descriptor c.receiver.isInterface := by
    rw [CallSite.instruction, hd, hmethod]
    rfl
  rw [hcall] at hk
  obtain ⟨i, hi⟩ := ((visits.take k).foldl Assembler.write a).write_interfaceCall
    c.receiver.internalName m.name m.descriptor c.receiver.isInterface
  rw [hslots, ← hcount] at hi
  obtain ⟨rest, hrest⟩ := Assembler.code_at hwf hk hi
  refine ⟨i, UInt8.ofNat m.argumentSlots, rest, ?_, ?_⟩
  · rw [hrest]
    simp
  · rw [UInt8.toNat_ofNat']
    omega

/-- Arrays of both depths and letters of wide types in names; a class's method called on an
interface. -/
theorem argumentSlots_descriptor_moved :
    let m : MethodDesc := ⟨.classNamed "A", "f", .void, [.primitive .long,
      .array (.array (.primitive .double)), .classNamed "J.D", .array (.classNamed "J")],
      .ofList [.pub], []⟩
    let call : Instruction := .method .invokeinterface "I" "f" "(J[[DLJ/D;[LJ;)V" true
    let visits : List Instruction := [.plain .dup, call]
    (∀ t ∈ m.parameters, t.Spellable ∧ t.isVoid = false) ∧
      argumentSlots m.descriptor = 5 ∧
      ∃ (i : UInt16) (count : UInt8) (rest : List UInt8),
        (visits.foldl Assembler.write (.start .empty)).code.toList.drop 1 =
          Opcode.invokeinterface :: u2 i ++ count :: 0 :: rest ∧ count.toNat = 6 := by
  intro m call visits
  have hname : ';' ∉ "J.D".toList ∧ ';' ∉ "J".toList := by decide
  have h : ∀ t ∈ m.parameters, t.Spellable ∧ t.isVoid = false :=
    List.forall_mem_cons.mpr ⟨⟨trivial, rfl⟩, List.forall_mem_cons.mpr ⟨⟨trivial, rfl⟩,
      List.forall_mem_cons.mpr ⟨⟨hname.1, rfl⟩, List.forall_mem_singleton.mpr ⟨hname.2, rfl⟩⟩⟩⟩
  obtain ⟨hslots, hcalls⟩ := argumentSlots_descriptor m h
  let origin : CallSite := ⟨.virtual, m, .classNamed "A"⟩
  have ho : CallSite.of m = .ok origin := by cbv
  let moves : List Retarget := [.special (.classNamed "A"), .virtual (.interfaceNamed "I")]
  have hmoved : origin.moved moves = ⟨.interface, m, .interfaceNamed "I"⟩ := by cbv
  have hcall := hcalls origin moves ho
  rw [hmoved] at hcall
  have hinstruction : CallSite.instruction ⟨.interface, m, .interfaceNamed "I"⟩ = call := by cbv
  have hsix : m.argumentSlots = 6 := by decide
  obtain ⟨-, hcode⟩ := hcall rfl (by rw [hsix]; decide)
  rw [hsix] at hcode
  refine ⟨h, hslots, ?_⟩
  exact hcode [] visits 1 (congrArg some hinstruction.symm)

end ClassSynthesis
