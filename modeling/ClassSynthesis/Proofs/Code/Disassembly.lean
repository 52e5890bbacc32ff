import ClassSynthesis.Proofs.Code.Emitted
import ClassSynthesis.Proofs.Pool.Encoding
import ClassSynthesis.Proofs.Pool.History

/-!
# ClassSynthesis.Proofs.Code.Disassembly

The assembler and the disassembler are inverse to each other. `Wrote a b code` says that the
assembler `a` became `b` by writing `code`: unless there was a failure, the bytes that were added
put `code` in front of whatever instructions follow, in the pool of `b` and in every pool that
extends it. One instruction does that (`write_wrote`), so all do (`foldl_wrote`).

* `disassemble_finish`: a `code` array disassembles to the instructions that were written.
-/

namespace ClassSynthesis

open Disassembler

namespace Assembler

structure Wrote (a b : Assembler) (code : List Instruction) : Prop where
  wf : b.encoding.pool.Wf
  grows : a.encoding.pool.Extends b.encoding.pool
  unfailed : b.encoding.failure = none → a.encoding.failure = none
  written : b.encoding.failure = none → ∃ bytes, b.code.toList = a.code.toList ++ bytes ∧
    ∀ pool, b.encoding.pool.Extends pool → ∀ rest,
      disassemble pool (bytes ++ rest) = (disassemble pool rest).map (code ++ ·)

namespace Wrote

variable {a b c : Assembler} {code code' : List Instruction}

theorem nil (h : a.encoding.pool.Wf) : Wrote a a [] :=
  ⟨h, .refl _, id, fun _ => ⟨[], by simp, fun _ _ rest => by simp⟩⟩

/-- Code after a failure is not accounted for. -/
theorem failed (hwf : b.encoding.pool.Wf) (hx : a.encoding.pool.Extends b.encoding.pool)
    (hf : b.encoding.failure ≠ none) : Wrote a b code :=
  ⟨hwf, hx, fun h => absurd h hf, fun h => absurd h hf⟩

theorem append (hab : Wrote a b code) (hbc : Wrote b c code') : Wrote a c (code ++ code') := by
  refine ⟨hbc.wf, hab.grows.trans hbc.grows, fun hc => hab.unfailed (hbc.unfailed hc), ?_⟩
  intro hc
  obtain ⟨bs, hbs, hread⟩ := hab.written (hbc.unfailed hc)
  obtain ⟨cs, hcs, hread'⟩ := hbc.written hc
  -- The first part was read in the pool of `b`, which that of `c` extends.
  refine ⟨bs ++ cs, by rw [hcs, hbs, List.append_assoc], ?_⟩
  intro pool hx rest
  rw [List.append_assoc, hread pool (hbc.grows.trans hx), hread' pool hx]
  simp [Function.comp_def]

end Wrote

/-! ## One instruction -/

section

variable {a : Assembler} (h : a.encoding.pool.Wf) {i : Instruction}
include h

theorem bytes_wrote {bs : List UInt8} (henc : ∀ pool, Encodes pool i bs) :
    Wrote a (a.bytes bs) [i] := by
  refine ⟨h, .refl _, id, fun _ => ⟨bs, by simp [bytes], ?_⟩⟩
  intro pool _ rest
  exact disassemble_append (henc pool) rest

theorem failed_wrote {e : PoolError} {bs : List UInt8} : Wrote a ((a.fail e).bytes bs) [i] :=
  .failed (by simpa [bytes, fail] using h) (by simpa [bytes, fail] using .refl _)
    (a.encoding.failure_fail e)

theorem pooled_wrote {r : Request} {form : UInt16 → List UInt8}
    (henc : ∀ (pool : ConstantPool) j, pool.requestAt? j = some r → Encodes pool i (form j)) :
    Wrote a (a.pooled r form) [i] := by
  obtain ⟨⟨pool, failure⟩, code⟩ := a
  have hs := ConstantPool.add_sound h r
  obtain ⟨answer, pool', hadd⟩ : ∃ answer pool', pool.add r = (answer, pool') := ⟨_, _, rfl⟩
  rw [hadd] at hs
  cases answer with
  | error e =>
    have hp : pooled ⟨⟨pool, failure⟩, code⟩ r form =
        ⟨(Encoding.mk pool' failure).fail e, code ++ form 0⟩ := by
      simp [pooled, Encoding.resolve, Encoding.ask, hadd, Encoding.use]
    rw [hp]
    refine .failed ?_ ?_ (Encoding.failure_fail _ e)
    · simpa using hs.wf
    · simpa using hs.grows
  | ok j =>
    have hp : pooled ⟨⟨pool, failure⟩, code⟩ r form = ⟨⟨pool', failure⟩, code ++ form j⟩ := by
      simp [pooled, Encoding.resolve, Encoding.ask, hadd, Encoding.use]
    rw [hp]
    refine ⟨hs.wf, hs.grows, id, fun _ => ⟨form j, by simp, ?_⟩⟩
    intro later hx rest
    exact disassemble_append (henc later j (hx.requestAt? (hs.answered j rfl))) rest

theorem immediate_wrote {op : Opcode} {v : Int32} (hi : (Instruction.immediate op v).WellFormed) :
    Wrote a (a.immediate op v) [.immediate op v] := by
  unfold immediate
  rcases hi with rfl | rfl | ⟨rfl, hv, hlt⟩
  · rw [if_pos rfl]
    split
    · rename_i hv
      exact bytes_wrote h fun _ => encodes_bipush hv
    · exact failed_wrote h
  · rw [if_neg (by decide), if_pos rfl]
    split
    · rename_i hv
      exact bytes_wrote h fun _ => encodes_sipush hv
    · exact failed_wrote h
  · rw [if_neg (by decide), if_neg (by decide)]
    exact bytes_wrote h fun _ => encodes_newarray hv hlt

theorem write_wrote (hi : i.WellFormed) : Wrote a (a.write i) [i] := by
  cases i with
  | plain op => exact bytes_wrote h fun _ => encodes_plain hi
  | immediate op v => exact immediate_wrote h hi
  | push c => exact pooled_wrote h fun _ _ => encodes_push
  | slot op index =>
    obtain ⟨kind, hop⟩ := hi
    exact bytes_wrote h fun _ => encodes_slot kind hop index
  | type op name => exact pooled_wrote h fun _ _ => encodes_type hi
  | field op owner name descriptor => exact pooled_wrote h fun _ _ => encodes_field hi
  | method op owner name descriptor onInterface =>
    exact pooled_wrote h fun _ _ => encodes_method hi

end

/-! ## All instructions -/

theorem foldl_wrote {a : Assembler} (h : a.encoding.pool.Wf) {code : List Instruction}
    (hc : ∀ i ∈ code, i.WellFormed) : Wrote a (code.foldl write a) code := by
  induction code generalizing a with
  | nil => exact .nil h
  | cons i is ih =>
    have hi := write_wrote h (hc i (.head is))
    exact hi.append (ih hi.wf fun j hj => hc j (.tail i hj))

/-- Fragments emitted for class file versions and written one after another. -/
def writeFragments (a : Assembler) (fs : List (ClassFileVersion × Fragment)) : Assembler :=
  fs.foldl (fun a (version, f) => a.writeAll (f.emit version).code) a

/-- The instructions that the fragments emit one after another. -/
def recorded (fs : List (ClassFileVersion × Fragment)) : List Instruction :=
  fs.flatMap fun (version, f) => (f.emit version).code.toList

theorem writeFragments_wrote {a : Assembler} (h : a.encoding.pool.Wf)
    {fs : List (ClassFileVersion × Fragment)}
    (hfs : ∀ vf ∈ fs, (vf.2.emit vf.1).WellFormed) :
    Wrote a (a.writeFragments fs) (recorded fs) := by
  induction fs generalizing a with
  | nil => exact .nil h
  | cons vf fs ih =>
    have hf := hfs vf (.head fs)
    have hw : Wrote a (a.writeAll (vf.2.emit vf.1).code) (vf.2.emit vf.1).code.toList := by
      rw [writeAll, ← Array.foldl_toList]
      exact foldl_wrote h fun i hi => hf i (Array.mem_toList_iff.mp hi)
    exact hw.append (ih hw.wf fun g hg => hfs g (.tail vf hg))

theorem finish_ok {a : Assembler} {code : Array UInt8} (h : a.finish = .ok code) :
    a.encoding.failure = none ∧ a.code = code := by
  unfold finish at h
  split at h
  · cases h
  · rename_i hf
    cases h
    exact ⟨hf, rfl⟩

theorem disassemble_finish (history : List Request) (fs : List (ClassFileVersion × Fragment))
    (hfs : ∀ vf ∈ fs, vf.2.Built (fun _ => True) (fun _ => True) ∧ vf.2.isValid = true)
    (code : Array UInt8)
    (h : ((start (ConstantPool.empty.after history)).writeFragments fs).finish = .ok code)
    (later : List Request) :
    let pool := ((start (ConstantPool.empty.after history)).writeFragments fs).encoding.pool
    disassemble (pool.after later) code.toList = some (recorded fs) := by
  intro pool
  have hstart := ConstantPool.after_wf ConstantPool.empty_wf history
  have hw := writeFragments_wrote (a := start (ConstantPool.empty.after history)) hstart
    fun vf hvf => Fragment.emit_wellFormed vf.1 (hfs vf hvf).1 (hfs vf hvf).2
  obtain ⟨hfail, rfl⟩ := finish_ok h
  obtain ⟨bytes, hbytes, hread⟩ := hw.written hfail
  have hnil := hread _ (ConstantPool.extends_after hw.wf later) []
  have hcode : bytes = (writeFragments _ fs).code.toList := hbytes.symm
  rw [← hcode]
  simpa [disassemble] using hnil

/-- A class literal for an old class file, a load in the wide form and an interface call. -/
theorem disassemble_finish_forms :
    let m : MethodDesc := ⟨.interfaceNamed "I", "f", .void, [.primitive .long], .ofInterface, []⟩
    let fs := [(.ofMajor 48, .op (.classLiteral (.classNamed "A"))),
      (.standard, .sequence [.op (.loadSlot .long 300), .callVia m []])]
    let pool := ((start (ConstantPool.empty.after [.utf8 "A"])).writeFragments fs).encoding.pool
    ∀ later, disassemble (pool.after later)
      [18, 2, 184, 0, 8, 196, 22, 1, 44, 185, 0, 14, 3, 0] = some (recorded fs) := by
  intro m fs
  refine disassemble_finish [.utf8 "A"] fs ?_
    #[18, 2, 184, 0, 8, 196, 22, 1, 44, 185, 0, 14, 3, 0] (by cbv)
  intro vf hvf
  rcases List.mem_pair.mp hvf with rfl | rfl
  · exact ⟨.step rfl trivial, rfl⟩
  · refine ⟨.sequence fun f hf => ?_, by cbv⟩
    rcases List.mem_pair.mp hf with rfl | rfl
    · exact .step rfl trivial
    · exact .callVia [] trivial

end Assembler
end ClassSynthesis
