import Mathlib.Order.Bounds.Defs
import ClassSynthesis.Emission.StackEffect
import ClassSynthesis.Proofs.Code.Disassembler
import ClassSynthesis.Proofs.Descriptor

/-!
# ClassSynthesis.Proofs.Stack.Machine

The operand stack as the virtual machine sees it. `netChange?` is the difference between the slots
that an instruction pushes and those that it pops, read off the opcode, the constant's kind, or
the descriptor; instructions that are unknown, and descriptors that are not well-formed, have none.

`height?` adds the changes of a stretch of code up. `effect?` composes them as `StackEffect`s
instead, and agrees: its impact is the height at the end, its peak is the greatest height after
any number of instructions (`effect?_exact`).
-/

namespace ClassSynthesis

namespace StackEffect

theorem andThen_assoc (a b c : StackEffect) :
    (a.andThen b).andThen c = a.andThen (b.andThen c) := by
  simp only [andThen, mk.injEq]
  omega

theorem zero_andThen {e : StackEffect} (h : 0 ≤ e.peak) : zero.andThen e = e := by
  obtain ⟨impact, peak⟩ := e
  simp only [andThen, zero, mk.injEq] at h ⊢
  omega

theorem andThen_zero {e : StackEffect} (h : e.impact ≤ e.peak) : e.andThen zero = e := by
  obtain ⟨impact, peak⟩ := e
  simp only [andThen, zero, mk.injEq] at h ⊢
  omega

end StackEffect

theorem slotsOf_cons (t : TypeDesc) (ts : List TypeDesc) :
    slotsOf (t :: ts) = t.width.slots + slotsOf ts := by
  have hfold : ∀ n, ts.foldl (fun n t => n + t.width.slots) n = n + slotsOf ts := by
    unfold slotsOf
    induction ts with
    | nil => simp
    | cons u us ih =>
      intro n
      rw [List.foldl_cons, List.foldl_cons, ih, ih (0 + u.width.slots)]
      omega
  rw [slotsOf, List.foldl_cons, hfold, Nat.zero_add]

namespace Machine

/-- Opcode ranges, ends included, with the slots that their instructions pop and push. -/
def slotCounts : List (Opcode × Opcode × Nat × Nat) :=
  [ (0x00, 0x00, 0, 0), -- NOP
    (0x01, 0x08, 0, 1), -- ACONST_NULL, ICONST
    (0x09, 0x0a, 0, 2), -- LCONST
    (0x0b, 0x0d, 0, 1), -- FCONST
    (0x0e, 0x0f, 0, 2), -- DCONST
    (0x10, 0x11, 0, 1), -- BIPUSH, SIPUSH
    (0x15, 0x15, 0, 1), -- ILOAD
    (0x16, 0x16, 0, 2), -- LLOAD
    (0x17, 0x17, 0, 1), -- FLOAD
    (0x18, 0x18, 0, 2), -- DLOAD
    (0x19, 0x19, 0, 1), -- ALOAD
    (0x2e, 0x2e, 2, 1), -- IALOAD
    (0x2f, 0x2f, 2, 2), -- LALOAD
    (0x30, 0x30, 2, 1), -- FALOAD
    (0x31, 0x31, 2, 2), -- DALOAD
    (0x32, 0x35, 2, 1), -- AALOAD, BALOAD, CALOAD, SALOAD
    (0x36, 0x36, 1, 0), -- ISTORE
    (0x37, 0x37, 2, 0), -- LSTORE
    (0x38, 0x38, 1, 0), -- FSTORE
    (0x39, 0x39, 2, 0), -- DSTORE
    (0x3a, 0x3a, 1, 0), -- ASTORE
    (0x4f, 0x4f, 3, 0), -- IASTORE
    (0x50, 0x50, 4, 0), -- LASTORE
    (0x51, 0x51, 3, 0), -- FASTORE
    (0x52, 0x52, 4, 0), -- DASTORE
    (0x53, 0x56, 3, 0), -- AASTORE, BASTORE, CASTORE, SASTORE
    (0x57, 0x57, 1, 0), -- POP
    (0x58, 0x58, 2, 0), -- POP2
    (0x59, 0x59, 1, 2), -- DUP
    (0x5c, 0x5c, 2, 4), -- DUP2
    (0x85, 0x85, 1, 2), -- I2L
    (0x86, 0x86, 1, 1), -- I2F
    (0x87, 0x87, 1, 2), -- I2D
    (0x89, 0x89, 2, 1), -- L2F
    (0x8a, 0x8a, 2, 2), -- L2D
    (0x8d, 0x8d, 1, 2), -- F2D
    (0xac, 0xac, 1, 0), -- IRETURN
    (0xad, 0xad, 2, 0), -- LRETURN
    (0xae, 0xae, 1, 0), -- FRETURN
    (0xaf, 0xaf, 2, 0), -- DRETURN
    (0xb0, 0xb0, 1, 0), -- ARETURN
    (0xb1, 0xb1, 0, 0), -- RETURN
    (0xbb, 0xbb, 0, 1), -- NEW
    (0xbc, 0xbd, 1, 1), -- NEWARRAY, ANEWARRAY
    (0xbf, 0xbf, 1, 0), -- ATHROW
    (0xc0, 0xc0, 1, 1) ] -- CHECKCAST

/-- Pushed less popped, for opcodes that decide this alone. -/
def opcodeChange? (op : Opcode) : Option Int :=
  match slotCounts.find? fun (first, last, _) => first ≤ op && op ≤ last with
  | some (_, _, pops, pushes) => some (pushes - pops)
  | none => none

def valueSlots : TypeDesc → Nat
  | .primitive .void => 0
  | .primitive .long | .primitive .double => 2
  | _ => 1

def totalSlots : List TypeDesc → Nat
  | [] => 0
  | t :: ts => valueSlots t + totalSlots ts

/-- Access to a field of the given slots. An instance field is accessed through a reference. -/
def fieldChange? (op : Opcode) (slots : Nat) : Option Int :=
  if op = 0xb2 then some slots -- GETSTATIC
  else if op = 0xb3 then some (-slots) -- PUTSTATIC
  else if op = 0xb4 then some (slots - 1) -- GETFIELD
  else if op = 0xb5 then some (-(slots + 1)) -- PUTFIELD
  else none

/-- A call with the given slots of arguments and result. All but static calls pop a receiver. -/
def callChange? (op : Opcode) (arguments result : Nat) : Option Int :=
  if op = 0xb8 then some (result - arguments) -- INVOKESTATIC
  -- INVOKEVIRTUAL, INVOKESPECIAL, INVOKEINTERFACE
  else if op = 0xb6 ∨ op = 0xb7 ∨ op = 0xb9 then some (result - (arguments + 1))
  else none

def netChange? : Instruction → Option Int
  | .plain op | .immediate op _ | .slot op _ | .type op _ => opcodeChange? op
  | .push c => some (Disassembler.constantSlots c)
  | .field op _ _ descriptor =>
    match readField? descriptor with
    | some t => fieldChange? op (valueSlots t)
    | none => none
  | .method op _ _ descriptor _ =>
    match readMethod? descriptor with
    | some (parameters, returns) =>
      callChange? op (totalSlots parameters) (valueSlots returns)
    | none => none

/-- The sum of the changes. -/
def height? : List Instruction → Option Int
  | [] => some 0
  | i :: is =>
    match netChange? i, height? is with
    | some a, some b => some (a + b)
    | _, _ => none

def effect? : List Instruction → Option StackEffect
  | [] => some .zero
  | i :: is =>
    match netChange? i, effect? is with
    | some a, some e => some ((StackEffect.shift a).andThen e)
    | _, _ => none

@[simp] theorem valueSlots_respelled (t : TypeDesc) : valueSlots t.respelled = t.width.slots := by
  cases t with
  | primitive p => cases p <;> rfl
  | _ => rfl

/-! ## Code one instruction at a time -/

variable {code code' : List Instruction} {i : Instruction}

theorem effect?_cons {e : StackEffect} (h : effect? (i :: code) = some e) :
    ∃ a e', netChange? i = some a ∧ effect? code = some e' ∧
      e = (StackEffect.shift a).andThen e' := by
  unfold effect? at h
  split at h
  · rename_i a e' ha he'
    exact ⟨a, e', ha, he', (Option.some.inj h).symm⟩
  · cases h

theorem effect?_single {n : Int} (h : netChange? i = some n) :
    effect? [i] = some (.shift n) := by
  have hshift : (StackEffect.shift n).impact ≤ (StackEffect.shift n).peak := Int.le_max_left n 0
  simp [effect?, h, StackEffect.andThen_zero hshift]

theorem peak_nonneg {e : StackEffect} (h : effect? code = some e) : 0 ≤ e.peak := by
  cases code with
  | nil =>
    cases h
    exact Int.le_refl 0
  | cons i is =>
    obtain ⟨a, e', -, -, rfl⟩ := effect?_cons h
    simp only [StackEffect.andThen, StackEffect.shift]
    omega

theorem effect?_append {s t : StackEffect} (hs : effect? code = some s)
    (ht : effect? code' = some t) : effect? (code ++ code') = some (s.andThen t) := by
  induction code generalizing s with
  | nil =>
    cases hs
    rw [StackEffect.zero_andThen (peak_nonneg ht)]
    exact ht
  | cons i is ih =>
    obtain ⟨a, e, ha, he, rfl⟩ := effect?_cons hs
    simp [effect?, ha, ih he, StackEffect.andThen_assoc]

/-- The heights after any number of instructions, none and all included. -/
def heights (code : List Instruction) : Set Int :=
  {h | ∃ before, before <+: code ∧ height? before = some h}

theorem height?_cons {n : Int} (h : height? (i :: code) = some n) :
    ∃ a b, netChange? i = some a ∧ height? code = some b ∧ n = a + b := by
  unfold height? at h
  split at h
  · rename_i a b ha hb
    exact ⟨a, b, ha, hb, (Option.some.inj h).symm⟩
  · cases h

theorem zero_mem_heights (code : List Instruction) : 0 ∈ heights code :=
  ⟨[], List.nil_prefix, rfl⟩

theorem mem_heights_cons {a n : Int} (ha : netChange? i = some a) :
    n ∈ heights (i :: code) ↔ n = 0 ∨ ∃ m ∈ heights code, n = a + m := by
  constructor
  · rintro ⟨before, hp, hn⟩
    rcases List.prefix_cons_iff.mp hp with rfl | ⟨rest, rfl, hrest⟩
    · cases hn
      exact .inl rfl
    · obtain ⟨b, m, hb, hm, rfl⟩ := height?_cons hn
      rw [ha] at hb
      cases hb
      exact .inr ⟨m, ⟨rest, hrest, hm⟩, rfl⟩
  · rintro (rfl | ⟨m, ⟨before, hp, hm⟩, rfl⟩)
    · exact zero_mem_heights _
    · refine ⟨i :: before, List.prefix_cons_iff.mpr (.inr ⟨before, rfl, hp⟩), ?_⟩
      simp [height?, ha, hm]

theorem effect?_exact {e : StackEffect} (h : effect? code = some e) :
    height? code = some e.impact ∧ IsGreatest (heights code) e.peak := by
  induction code generalizing e with
  | nil =>
    cases h
    refine ⟨rfl, zero_mem_heights [], ?_⟩
    rintro n ⟨before, hp, hn⟩
    obtain rfl := List.prefix_nil.mp hp
    cases hn
    exact Int.le_refl 0
  | cons i is ih =>
    obtain ⟨a, e', ha, he', rfl⟩ := effect?_cons h
    obtain ⟨himpact, hmem, hmax⟩ := ih he'
    have hpos' := peak_nonneg he'
    -- The rest peaks at 0 or above, so the height after `i` counts only as the rest's first.
    have hpeak : ((StackEffect.shift a).andThen e').peak = max 0 (a + e'.peak) := by
      simp only [StackEffect.andThen, StackEffect.shift]
      omega
    refine ⟨by simp [height?, ha, himpact, StackEffect.andThen, StackEffect.shift], ?_, ?_⟩
    · rw [hpeak, mem_heights_cons ha]
      rcases Int.le_total 0 (a + e'.peak) with hle | hle
      · exact .inr ⟨e'.peak, hmem, by omega⟩
      · exact .inl (by omega)
    · intro n hn
      rw [hpeak]
      rcases (mem_heights_cons ha).mp hn with rfl | ⟨m, hm, rfl⟩
      · omega
      · have hle : m ≤ e'.peak := hmax hm
        omega

end Machine
end ClassSynthesis
