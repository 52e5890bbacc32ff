import Mathlib
import ClassSynthesis.Proofs.Emission.Valid
import ClassSynthesis.Proofs.Stack.Accounting

/-!
# ClassSynthesis.Proofs.Stack.Linked

Code whose references are resolved. A descriptor says what a call or an access to a field does to
the height of the operand stack, but only where its class names leave no doubt: a class may be given
a name with a semicolon, and a parameter the type `void`. A `LinkedInstruction` knows the member
that its names refer to, and so it has a change whatever the names are.

`Fragment.linked` are the instructions of a fragment with the members that they were written for.

* `Accounts code e`: the impact of `e` is the height that the code ends at, its peak is the greatest
  height after any number of instructions. Code put together accounts for effects put together.
* `emit_links`: a valid fragment is written as its linked instructions, and they account for the
  effect that is claimed of it.
-/

namespace ClassSynthesis

/-- The types of a member that an instruction refers to. -/
inductive Referent where
  | field (type : TypeDesc)
  | method (parameters : List TypeDesc) (returns : TypeDesc)

structure LinkedInstruction where
  instruction : Instruction
  referent : Option Referent

namespace Machine

theorem valueSlots_eq (t : TypeDesc) : valueSlots t = t.width.slots := by
  cases t with
  | primitive p => cases p <;> rfl
  | _ => rfl

theorem totalSlots_eq (ts : List TypeDesc) : totalSlots ts = slotsOf ts := by
  induction ts with
  | nil => rfl
  | cons t ts ih => rw [totalSlots, slotsOf_cons, valueSlots_eq, ih]

end Machine

namespace Linked

open Machine

/-- Pushed less popped. -/
def change? (i : LinkedInstruction) : Option Int :=
  match i.referent with
  | some (.field type) => fieldChange? i.instruction.opcode (valueSlots type)
  | some (.method parameters returns) =>
    callChange? i.instruction.opcode (totalSlots parameters) (valueSlots returns)
  | none => netChange? i.instruction

theorem change?_field (i : Instruction) (type : TypeDesc) :
    change? ⟨i, some (.field type)⟩ = fieldChange? i.opcode type.width.slots := by
  simp only [change?, valueSlots_eq]

theorem change?_method (i : Instruction) (parameters : List TypeDesc) (returns : TypeDesc) :
    change? ⟨i, some (.method parameters returns)⟩ =
      callChange? i.opcode (slotsOf parameters) returns.width.slots := by
  simp only [change?, valueSlots_eq, totalSlots_eq]

/-- The sum of the changes. -/
def height? : List LinkedInstruction → Option Int
  | [] => some 0
  | i :: is =>
    match change? i, height? is with
    | some a, some b => some (a + b)
    | _, _ => none

/-- The heights after any number of instructions, none and all included. -/
def heights (code : List LinkedInstruction) : Set Int :=
  {h | ∃ before, before <+: code ∧ height? before = some h}

structure Accounts (code : List LinkedInstruction) (e : StackEffect) : Prop where
  height : height? code = some e.impact
  peak : IsGreatest (heights code) e.peak

variable {i : LinkedInstruction} {xs ys : List LinkedInstruction} {a b : StackEffect} {n m : Int}

/-! ## Code put together -/

theorem height?_append (h : height? xs = some n) :
    height? (xs ++ ys) = (height? ys).map (n + ·) := by
  induction xs generalizing n with
  | nil =>
    cases h
    simp
  | cons x xs ih =>
    unfold height? at h
    split at h
    · rename_i c k hc hk
      cases h
      rw [List.cons_append, height?, hc, ih hk]
      cases height? ys with
      | none => rfl
      | some m => simp [Int.add_assoc]
    · cases h

/-- Heights on the way through the second part are counted from the end of the first. -/
theorem mem_heights_append (h : height? xs = some n) :
    m ∈ heights (xs ++ ys) ↔ m ∈ heights xs ∨ ∃ k ∈ heights ys, m = n + k := by
  constructor
  · rintro ⟨before, hp, hm⟩
    rcases List.prefix_or_prefix_of_prefix hp (List.prefix_append xs ys) with hx | ⟨rest, rfl⟩
    · exact .inl ⟨before, hx, hm⟩
    · rw [height?_append h, Option.map_eq_some_iff] at hm
      obtain ⟨k, hk, rfl⟩ := hm
      exact .inr ⟨k, ⟨rest, (List.prefix_append_right_inj xs).mp hp, hk⟩, rfl⟩
  · rintro (⟨before, hp, hm⟩ | ⟨k, ⟨rest, hp, hk⟩, rfl⟩)
    · exact ⟨before, hp.trans (List.prefix_append xs ys), hm⟩
    · refine ⟨xs ++ rest, (List.prefix_append_right_inj xs).mpr hp, ?_⟩
      rw [height?_append h, hk]
      rfl

theorem accounts_nil : Accounts [] .zero := by
  refine ⟨rfl, ⟨[], List.nil_prefix, rfl⟩, ?_⟩
  rintro n ⟨before, hp, hn⟩
  obtain rfl := List.prefix_nil.mp hp
  cases hn
  exact Int.le_refl 0

theorem accounts_single (h : change? i = some n) : Accounts [i] (.shift n) := by
  have hi : height? [i] = some n := by simp [height?, h]
  refine ⟨hi, ?_, ?_⟩
  · rcases Int.le_total n 0 with hn | hn
    · exact ⟨[], List.nil_prefix, by rw [StackEffect.shift, Int.max_eq_right hn]; rfl⟩
    · exact ⟨[i], List.prefix_rfl, by rw [StackEffect.shift, Int.max_eq_left hn]; exact hi⟩
  · rintro m ⟨before, hp, hm⟩
    simp only [StackEffect.shift]
    rcases List.prefix_cons_iff.mp hp with rfl | ⟨rest, rfl, hrest⟩
    · cases hm
      omega
    · obtain rfl := List.prefix_nil.mp hrest
      rw [hi] at hm
      cases hm
      omega

theorem Accounts.append (hx : Accounts xs a) (hy : Accounts ys b) :
    Accounts (xs ++ ys) (a.andThen b) := by
  obtain ⟨hheight, hmem, hmax⟩ := hx
  obtain ⟨hheight', hmem', hmax'⟩ := hy
  refine ⟨?_, ?_, ?_⟩
  · rw [height?_append hheight, hheight']
    rfl
  · rw [mem_heights_append hheight]
    simp only [StackEffect.andThen]
    rcases Int.le_total a.peak (a.impact + b.peak) with hle | hle
    · rw [Int.max_eq_right hle]
      exact .inr ⟨b.peak, hmem', rfl⟩
    · rw [Int.max_eq_left hle]
      exact .inl hmem
  · intro m hm
    simp only [StackEffect.andThen]
    rcases (mem_heights_append hheight).mp hm with hm | ⟨k, hk, rfl⟩
    · exact Int.le_trans (hmax hm) (Int.le_max_left _ _)
    · have hle : k ≤ b.peak := hmax' hk
      omega

/-- Where descriptors tell the members, the effect of the instructions is that of the code. -/
theorem accounts_of_effect? {e : StackEffect} (h : ∀ i ∈ xs, change? i = netChange? i.instruction)
    (he : effect? (xs.map LinkedInstruction.instruction) = some e) : Accounts xs e := by
  induction xs generalizing e with
  | nil =>
    cases he
    exact accounts_nil
  | cons x xs ih =>
    obtain ⟨n, e', hn, he', rfl⟩ := effect?_cons he
    obtain ⟨hx, hxs⟩ := List.forall_mem_cons.mp h
    have hsingle : Accounts [x] (.shift n) := accounts_single (hx.trans hn)
    exact hsingle.append (ih hxs he')

end Linked

/-! ## Operations -/

namespace Operation

variable {version : ClassFileVersion} {o : Operation}

def referent? : Operation → Option Referent
  | .call c => some (.method c.method.parameters c.method.returns)
  | .getField f | .putField f => some (.field f.type)
  | _ => none

def linked (version : ClassFileVersion) (o : Operation) : List LinkedInstruction :=
  (o.instructions version).map fun i => ⟨i, o.referent?⟩

theorem map_instruction_linked :
    (o.linked version).map LinkedInstruction.instruction = o.instructions version := by
  simp [linked, Function.comp_def]

theorem linked_accounts (h : o.Sound (fun _ => True) (fun _ => True)) :
    Linked.Accounts (o.linked version) o.effect := by
  obtain ⟨hvalid, harises, -⟩ := h
  -- Without a member there is nothing in the instructions that could be in doubt.
  have hplain (hm : o.Mentions MethodDesc.Unambiguous FieldDesc.Unambiguous)
      (hr : o.referent? = none) : Linked.Accounts (o.linked version) o.effect := by
    refine Linked.accounts_of_effect? (fun i hi => ?_) ?_
    · obtain ⟨j, -, rfl⟩ := List.mem_map.mp hi
      rw [hr]
      rfl
    · rw [map_instruction_linked]
      exact effect?_instructions ⟨hvalid, harises, hm⟩
  cases o with
  | call c =>
    exact Linked.accounts_single ((Linked.change?_method _ _ _).trans
      (CallSite.callChange?_dispatch (regular_of_arises harises)))
  | getField f =>
    exact Linked.accounts_single ((Linked.change?_field _ _).trans (fieldChange?_getField f))
  | putField f =>
    exact Linked.accounts_single ((Linked.change?_field _ _).trans (fieldChange?_putField f))
  | _ => exact hplain trivial rfl

end Operation

/-! ## Emissions -/

namespace Emission

/-- The emission came to its end and wrote this code, for the effect that the code has. -/
structure Links (e : Emission) (code : List LinkedInstruction) : Prop where
  written : e.code.toList = code.map LinkedInstruction.instruction
  ended : ∃ s, e.outcome = .ok s ∧ Linked.Accounts code s

theorem Links.andThen {a b : Emission} {xs ys : List LinkedInstruction} (ha : a.Links xs)
    (hb : b.Links ys) : (a.andThen b).Links (xs ++ ys) := by
  obtain ⟨code, outcome⟩ := a
  obtain ⟨hcode, s, rfl, hs⟩ := ha
  obtain ⟨hcode', t, ht, hst⟩ := hb
  refine ⟨?_, s.andThen t, by simp [Emission.andThen, ht], hs.append hst⟩
  rw [Emission.andThen, Array.toList_append, hcode, hcode', List.map_append]

end Emission

theorem Operation.emit_links {version : ClassFileVersion} {o : Operation}
    (h : o.Sound (fun _ => True) (fun _ => True)) :
    (o.emit version).Links (o.linked version) := by
  rw [emit, misuse?_of_isValid h.valid]
  exact ⟨map_instruction_linked.symm, o.effect, rfl, linked_accounts h⟩

namespace Fragment

variable {version : ClassFileVersion}

mutual

/-- The instructions of a fragment, each with the member that it was written for. -/
def linked (version : ClassFileVersion) : Fragment → List LinkedInstruction
  | .op o => o.linked version
  | .sequence items => linkedOf version items
  | .newArray component values =>
    [⟨Operation.pushInt (.ofNat values.length), none⟩, ⟨allocation component, none⟩] ++
      linkedStores version component 0 values

def linkedOf (version : ClassFileVersion) : List Fragment → List LinkedInstruction
  | [] => []
  | f :: fs => f.linked version ++ linkedOf version fs

/-- Stores of the values from an index on. -/
def linkedStores (version : ClassFileVersion) (component : TypeDesc) (index : Nat) :
    List Fragment → List LinkedInstruction
  | [] => []
  | f :: fs =>
    (Operation.duplicate .single).linked version ++
      (Operation.number (.int (.ofNat index))).linked version ++
      f.linked version ++ (Operation.storeElement component).linked version ++
      linkedStores version component (index + 1) fs

end

theorem emptyArray_links (component : TypeDesc) (length : Nat) :
    (emptyArray component length).Links
      [⟨Operation.pushInt (.ofNat length), none⟩, ⟨allocation component, none⟩] := by
  obtain ⟨s, hs, hcode⟩ := emptyArray_exact component length
  refine ⟨rfl, s, hs, Linked.accounts_of_effect? (fun i hi => ?_) hcode⟩
  simp only [List.mem_cons, List.not_mem_nil, or_false] at hi
  rcases hi with rfl | rfl <;> rfl

theorem emitAll_links {fs : List Fragment} (h : ∀ f ∈ fs, (f.emit version).Links (f.linked version))
    {before : Emission} {xs : List LinkedInstruction} (hb : before.Links xs) :
    (emitAll version before fs).Links (xs ++ linkedOf version fs) := by
  induction fs generalizing before xs with
  | nil =>
    rw [emitAll, linkedOf, List.append_nil]
    exact hb
  | cons f fs ih =>
    obtain ⟨hf, hfs⟩ := List.forall_mem_cons.mp h
    rw [emitAll, linkedOf, ← List.append_assoc]
    exact ih hfs (hb.andThen hf)

theorem emitElements_links {component : TypeDesc} (hc : component.isVoid = false)
    {fs : List Fragment} (h : ∀ f ∈ fs, (f.emit version).Links (f.linked version)) (index : Nat)
    {before : Emission} {xs : List LinkedInstruction} (hb : before.Links xs) :
    (emitElements version component index before fs).Links
      (xs ++ linkedStores version component index fs) := by
  induction fs generalizing index before xs with
  | nil =>
    rw [emitElements, linkedStores, List.append_nil]
    exact hb
  | cons f fs ih =>
    obtain ⟨hf, hfs⟩ := List.forall_mem_cons.mp h
    have hcopy : ((Operation.duplicate .single).emit version).Links _ :=
      Operation.emit_links ⟨rfl, trivial, trivial⟩
    have hindex : ((Operation.number (.int (.ofNat index))).emit version).Links _ :=
      Operation.emit_links ⟨rfl, trivial, trivial⟩
    have hstore : ((Operation.storeElement component).emit version).Links _ :=
      Operation.emit_links (sound_storeElement hc)
    have hstored := (((hb.andThen hcopy).andThen hindex).andThen hf).andThen hstore
    have hrest := ih hfs (index + 1) hstored
    simpa only [emitElements, linkedStores, List.append_assoc] using hrest

theorem Made.links {f : Fragment} (h : f.Made (Operation.Sound (fun _ => True) fun _ => True)) :
    (f.emit version).Links (f.linked version) := by
  induction h with
  | op ho =>
    rw [emit, linked]
    exact Operation.emit_links ho
  | sequence hs ih =>
    have hnothing : Emission.nothing.Links [] := ⟨rfl, .zero, rfl, Linked.accounts_nil⟩
    rw [emit, linked]
    exact emitAll_links ih hnothing
  | newArray hc hs ih =>
    rw [emit, linked]
    exact emitElements_links hc ih 0 (emptyArray_links _ _)

theorem emit_links {f : Fragment} (hb : f.Built (fun _ => True) fun _ => True)
    (hv : f.isValid = true) : (f.emit version).Links (f.linked version) :=
  (hb.made (fun _ _ _ => trivial) (fun _ _ => trivial) hv).links

end Fragment
end ClassSynthesis
