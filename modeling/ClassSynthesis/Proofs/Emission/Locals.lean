import ClassSynthesis.Proofs.Emission.Bodies

/-!
# ClassSynthesis.Proofs.Emission.Locals

The local variables of a method body. A frame has room for the receiver and the arguments of its
method and for nothing else, whatever the body loads and stores. `KeepsTo` says, of instructions
and of fragments, that no variable from a limit on is accessed; a fragment keeps to a limit exactly
if its instructions do (`keepsTo_instructions`).

* `append_locals`: the code of a framed body stays within its local variables exactly if the body
  keeps to the slots of its method. The loads of the method's own arguments do.
* `append_locals_short`: a body may load other variables, and then the frame is too small.
-/

namespace ClassSynthesis

/-- Variables that one load or store takes: two for LLOAD, DLOAD, LSTORE and DSTORE. -/
def accessedSlots (op : Opcode) : Nat :=
  if op = 0x16 ∨ op = 0x18 ∨ op = 0x37 ∨ op = 0x39 then 2 else 1

def Instruction.KeepsTo (limit : Nat) : Instruction → Prop
  | .slot op index => index.toNat + accessedSlots op ≤ limit
  | _ => True

def Operation.KeepsTo (limit : Nat) : Operation → Prop
  | .loadSlot kind slot | .storeSlot kind slot => slot.toNat + kind.width.slots ≤ limit
  | _ => True

namespace Fragment

mutual

/-- Every load and store of the fragment ends before the limit. -/
def KeepsTo (limit : Nat) : Fragment → Prop
  | .op o => o.KeepsTo limit
  | .sequence items => AllKeepTo limit items
  | .newArray _ values => AllKeepTo limit values

def AllKeepTo (limit : Nat) : List Fragment → Prop
  | [] => True
  | f :: fs => f.KeepsTo limit ∧ AllKeepTo limit fs

end

theorem allKeepTo_iff {limit : Nat} {fs : List Fragment} :
    AllKeepTo limit fs ↔ ∀ f ∈ fs, f.KeepsTo limit := by
  induction fs with
  | nil => simp [AllKeepTo]
  | cons f fs ih => simp [AllKeepTo, ih]

end Fragment

/-! ## Instructions and fragments -/

namespace ValueKind

theorem accessedSlots_loadOpcode (kind : ValueKind) :
    accessedSlots kind.loadOpcode = kind.width.slots := by
  cases kind <;> rfl

theorem accessedSlots_storeOpcode (kind : ValueKind) :
    accessedSlots kind.storeOpcode = kind.width.slots := by
  cases kind <;> rfl

theorem width_of {t : TypeDesc} {kind : ValueKind} (h : ValueKind.of t = some kind) :
    kind.width = t.width := by
  cases t with
  | primitive p => cases p <;> cases h <;> rfl
  | _ =>
    cases h
    rfl

end ValueKind

namespace Operation

variable {version : ClassFileVersion} {limit : Nat}

theorem pushNumber_keepsTo (n : Number) : (pushNumber n).KeepsTo limit := by
  cases n with
  | int v =>
    simp only [pushNumber, pushInt]
    split_ifs <;> trivial
  | long v =>
    simp only [pushNumber, pushLong]
    split_ifs <;> trivial
  | float bits =>
    simp only [pushNumber, pushFloat]
    split_ifs <;> trivial
  | double bits =>
    simp only [pushNumber, pushDouble]
    split_ifs <;> trivial

theorem pushClass_keepsTo (t : TypeDesc) : ∀ i ∈ pushClass version t, i.KeepsTo limit := by
  unfold pushClass
  split
  · simp [Instruction.KeepsTo]
  · split <;> simp [Instruction.KeepsTo]

theorem pushDefault_keepsTo (t : TypeDesc) : ∀ i ∈ pushDefault t, i.KeepsTo limit := by
  unfold pushDefault
  split <;> simp [Instruction.KeepsTo]

theorem keepsTo_instructions (o : Operation) :
    (∀ i ∈ o.instructions version, i.KeepsTo limit) ↔ o.KeepsTo limit := by
  cases o with
  | loadSlot kind slot =>
    simp [instructions, Instruction.KeepsTo, KeepsTo, kind.accessedSlots_loadOpcode]
  | storeSlot kind slot =>
    simp [instructions, Instruction.KeepsTo, KeepsTo, kind.accessedSlots_storeOpcode]
  | number n => simp [instructions, KeepsTo, pushNumber_keepsTo]
  | classLiteral t => exact iff_of_true (pushClass_keepsTo t) trivial
  | defaultValue t => exact iff_of_true (pushDefault_keepsTo t) trivial
  | duplicate w =>
    cases w <;> simp [instructions, duplicateInstructions, Instruction.KeepsTo, KeepsTo]
  | remove w =>
    cases w <;> simp [instructions, removeInstructions, Instruction.KeepsTo, KeepsTo]
  | _ => simp [instructions, fieldInstruction, CallSite.instruction, Instruction.KeepsTo, KeepsTo]

end Operation

namespace Fragment

variable {version : ClassFileVersion} {limit : Nat}

mutual

theorem keepsTo_instructions : ∀ f : Fragment,
    (∀ i ∈ f.instructions version, i.KeepsTo limit) ↔ f.KeepsTo limit
  | .op o => by
    rw [instructions, KeepsTo]
    exact o.keepsTo_instructions
  | .sequence items => by
    rw [instructions, KeepsTo]
    exact keepsTo_instructionsOf items
  | .newArray component values => by
    have hlength : (Operation.pushInt (.ofNat values.length)).KeepsTo limit :=
      Operation.pushNumber_keepsTo (.int (.ofNat values.length))
    have halloc : (allocation component).KeepsTo limit := by
      unfold allocation
      split <;> trivial
    rw [instructions, KeepsTo, List.forall_mem_append, keepsTo_stores values 0]
    simp [hlength, halloc]

theorem keepsTo_instructionsOf : ∀ fs : List Fragment,
    (∀ i ∈ instructionsOf version fs, i.KeepsTo limit) ↔ AllKeepTo limit fs
  | [] => by simp [instructionsOf, AllKeepTo]
  | f :: fs => by
    rw [instructionsOf, AllKeepTo, List.forall_mem_append, keepsTo_instructions f,
      keepsTo_instructionsOf fs]

theorem keepsTo_stores {component : TypeDesc} : ∀ (fs : List Fragment) (index : Nat),
    (∀ i ∈ stores version component index fs, i.KeepsTo limit) ↔ AllKeepTo limit fs
  | [], index => by simp [stores, AllKeepTo]
  | f :: fs, index => by
    simp only [stores, AllKeepTo, List.forall_mem_append, Operation.keepsTo_instructions,
      Operation.KeepsTo, keepsTo_instructions f, keepsTo_stores fs (index + 1), true_and, and_true]

end

/-! ## The arguments of the method -/

theorem load_keepsTo {t : TypeDesc} {slot : UInt16} (h : slot.toNat + t.width.slots ≤ limit) :
    (load t slot).KeepsTo limit := by
  unfold load
  cases hk : ValueKind.of t with
  | none => trivial
  | some kind =>
    rw [← ValueKind.width_of hk] at h
    exact h

/-- The slot after a variable is counted without wrapping around. -/
theorem toNat_add_slots (slot : UInt16) (w : Width) (h : slot.toNat + w.slots ≤ slotLimit) :
    (slot + .ofNat w.slots).toNat = slot.toNat + w.slots := by
  rw [UInt16.toNat_add, UInt16.toNat_ofNat']
  unfold slotLimit at h
  omega

theorem loadsFrom_keepsTo (hl : limit ≤ slotLimit) {ts : List TypeDesc} {slot : UInt16}
    (h : slot.toNat + slotsOf ts ≤ limit) : AllKeepTo limit (loadsFrom slot ts) := by
  induction ts generalizing slot with
  | nil => trivial
  | cons t ts ih =>
    rw [slotsOf_cons] at h
    have hnext := toNat_add_slots slot t.width (by omega)
    refine ⟨load_keepsTo (by omega), ih ?_⟩
    rw [hnext]
    omega

theorem loadArguments_keepsTo {m : MethodDesc} (hm : m.argumentSlots ≤ slotLimit) :
    (loadArguments m).KeepsTo m.argumentSlots := by
  unfold loadArguments
  by_cases hs : m.isStatic = true
  · have hslots : m.argumentSlots = slotsOf m.parameters := by simp [MethodDesc.argumentSlots, hs]
    rw [if_pos hs, KeepsTo]
    refine loadsFrom_keepsTo hm ?_
    rw [hslots]
    simp
  · have hslots : m.argumentSlots = slotsOf m.parameters + 1 := by
      simp [MethodDesc.argumentSlots, hs]
    rw [if_neg hs, KeepsTo]
    constructor
    · simp [KeepsTo, Operation.KeepsTo, ValueKind.width, Width.slots, hslots]
    · refine loadsFrom_keepsTo hm ?_
      rw [hslots]
      simp
      omega

end Fragment

/-! ## Appending a body -/

namespace MethodBody

theorem append_locals (version : ClassFileVersion) (m : MethodDesc) (items : List Fragment)
    {size : FrameSize} (h : (append version m (.fragments items)).result = .ok size) :
    size.locals.toNat = m.argumentSlots ∧
      ((∀ i ∈ (append version m (.fragments items)).code, i.KeepsTo size.locals.toNat) ↔
        ∀ f ∈ items, f.KeepsTo m.argumentSlots) ∧
      (Fragment.loadArguments m).KeepsTo m.argumentSlots := by
  have ho := appendFragment_outcome version m (.sequence items)
  rw [append] at h ⊢
  generalize appendFragment version m (.sequence items) = r at h ho ⊢
  cases ho with
  | invalid hf => cases h
  | crowded hf hm => cases h
  | overflow hf hm he hp => cases h
  | @framed code effect hf hm he hp =>
    cases h
    have hlocals : (UInt16.ofNat m.argumentSlots).toNat = m.argumentSlots := by
      rw [UInt16.toNat_ofNat']
      unfold slotLimit at hm
      omega
    refine ⟨hlocals, ?_, Fragment.loadArguments_keepsTo hm⟩
    have hcode := (code_of_emit hf he).1
    simp only [hlocals, ← Array.mem_toList_iff, hcode]
    rw [Fragment.keepsTo_instructions, Fragment.KeepsTo, Fragment.allKeepTo_iff]

/-- An instance method that loads its receiver and its argument, of two slots. -/
theorem append_locals_arguments :
    let m : MethodDesc :=
      ⟨.classNamed "A", "f", .void, [.primitive .long], .ofList [.pub], []⟩
    let r := append .standard m (.fragments [.loadArguments m])
    r.result = .ok ⟨3, 3⟩ ∧ ∀ i ∈ r.code, i.KeepsTo 3 := by
  intro m r
  have hr : (append .standard m (.fragments [.loadArguments m])).result = .ok ⟨3, 3⟩ := by cbv
  obtain ⟨hlocals, hcode, harguments⟩ := append_locals .standard m [.loadArguments m] hr
  refine ⟨hr, hcode.mpr ?_⟩
  intro f hf
  rw [List.mem_singleton.mp hf]
  exact harguments

/-- Variable 5 of a method that has none. -/
theorem append_locals_short :
    ¬∀ (version : ClassFileVersion) (m : MethodDesc) (items : List Fragment) (size : FrameSize),
      (append version m (.fragments items)).result = .ok size →
        ∀ i ∈ (append version m (.fragments items)).code, i.KeepsTo size.locals.toNat := by
  intro h
  have hr : append .standard plainMethod (.fragments [.op (.loadSlot .int 5)]) =
      ⟨#[.slot 0x15 5], .ok ⟨1, 0⟩⟩ := by cbv
  have hkeeps := h .standard plainMethod [.op (.loadSlot .int 5)] ⟨1, 0⟩
  rw [hr] at hkeeps
  have hload := hkeeps rfl (.slot 0x15 5) (by simp)
  exact absurd hload (by simp [Instruction.KeepsTo])

end MethodBody
end ClassSynthesis
