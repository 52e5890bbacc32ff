import ClassSynthesis.Proofs.Pool.History
import ClassSynthesis.Proofs.Reader

/-!
# ClassSynthesis.Proofs.Pool.Parser

Reading a constant pool from the bytes of a class file: a count, then entries one after another,
each numbered after the indices of the entry before it, until the running index is the count. What
an entry holds goes by its tag.

* `Layout.reads`: the entries of a layout are read back from its first index on.
* `whole_bytes`: the bytes of a pool are read as the entries of the pool.
-/

namespace ClassSynthesis
namespace PoolParser

def pair (make : UInt16 → UInt16 → Constant) : Reader Constant := do
  let i ← Reader.index
  let j ← Reader.index
  return make i j

/-- A byte count, and as many bytes of text. -/
def text : Reader String := do
  let bytes ← Reader.take (← Reader.number 2)
  StateT.lift (ModifiedUtf8.decode? bytes)

/-- What follows a tag. -/
def content : Nat → Reader Constant
  | 1 => return .utf8 (← text)
  | 3 => return .number (.int (UInt32.ofNat (← Reader.number 4)).toInt32)
  | 4 => return .number (.float (.ofNat (← Reader.number 4)))
  | 5 => return .number (.long (UInt64.ofNat (← Reader.number 8)).toInt64)
  | 6 => return .number (.double (.ofNat (← Reader.number 8)))
  | 7 => return .classRef (← Reader.index)
  | 8 => return .string (← Reader.index)
  | 9 => pair .fieldRef
  | 10 => pair .methodRef
  | 11 => pair .interfaceMethodRef
  | 12 => pair .nameAndType
  | 16 => return .methodType (← Reader.index)
  | _ => failure

def constant : Reader Constant := do
  content (← Reader.number 1)

/-- How far the running index goes on. -/
def advance : Constant → Nat
  | .number (.long _) | .number (.double _) => 2
  | _ => 1

theorem advance_pos (c : Constant) : 0 < advance c := by
  unfold advance
  split <;> decide

/-- Entries from a running index on. An entry that goes past the count is an error. -/
def entriesFrom (count index : Nat) : Reader (List (UInt16 × Constant)) :=
  if index < count then do
    let c ← constant
    let es ← entriesFrom count (index + advance c)
    return (.ofNat index, c) :: es
  else if index = count then return []
  else failure
termination_by count - index
decreasing_by
  have := advance_pos c
  omega

/-- `constant_pool_count` and the entries, with their indices. -/
def pool : Reader (List (UInt16 × Constant)) := do
  entriesFrom (← Reader.number 2) 1

/-! ## One entry -/

theorem reads_pair (make : UInt16 → UInt16 → Constant) (i j : UInt16) :
    Reads (pair make) (u2 i ++ u2 j) (make i j) :=
  (Reads.index i).bind ((Reads.index j).andThen (.pure _))

theorem reads_text {s : String} (h : (ModifiedUtf8.encode s).length ≤ 65535) :
    Reads text (u2 (.ofNat (ModifiedUtf8.encode s).length) ++ ModifiedUtf8.encode s) s := by
  refine (Reads.number_u2 _).bind ?_
  rw [UInt16.toNat_ofNat', Nat.mod_eq_of_lt (by omega)]
  exact (Reads.take _).andThen (.lift (ModifiedUtf8.decode?_encode s))

/-- Only the length of a text can keep its entry from being read back. -/
theorem reads_content {c : Constant} (h : c.Fits) : Reads (content c.tag.toNat) c.content c := by
  rcases c with s | (v | v | v | v) | i | i | ⟨i, j⟩ | ⟨i, j⟩ | ⟨i, j⟩ | ⟨i, j⟩ | i
  case utf8 => exact (reads_text h).andThen (.pure _)
  case number.int =>
    refine (Reads.number_u4 v.toUInt32).andThen ?_
    rw [UInt32.ofNat_toNat, Int32.toInt32_toUInt32]
    exact .pure _
  case number.float =>
    refine (Reads.number_u4 v).andThen ?_
    rw [UInt32.ofNat_toNat]
    exact .pure _
  case number.long =>
    refine (Reads.number_u8 v.toUInt64).andThen ?_
    rw [UInt64.ofNat_toNat, Int64.toInt64_toUInt64]
    exact .pure _
  case number.double =>
    refine (Reads.number_u8 v).andThen ?_
    rw [UInt64.ofNat_toNat]
    exact .pure _
  case classRef | string | methodType => exact (Reads.index i).andThen (.pure _)
  case fieldRef => exact reads_pair .fieldRef i j
  case methodRef => exact reads_pair .methodRef i j
  case interfaceMethodRef => exact reads_pair .interfaceMethodRef i j
  case nameAndType => exact reads_pair .nameAndType i j

theorem reads_constant {c : Constant} (h : c.Fits) : Reads constant c.bytes c :=
  (Reads.number_byte c.tag).bind (reads_content h)

theorem advance_eq_width (c : Constant) : advance c = c.width.toNat := by
  rcases c with s | (v | v | v | v) | i | i | ⟨i, j⟩ | ⟨i, j⟩ | ⟨i, j⟩ | ⟨i, j⟩ | i <;> rfl

end PoolParser

/-! ## All entries -/

namespace Layout

open PoolParser

theorem index_unique {es : List (UInt16 × Constant)} {m n : Nat} (hm : Layout es m)
    (hn : Layout es n) : m = n := by
  cases he : es.getLast? with
  | none =>
    have hnil := List.getLast?_eq_none_iff.mp he
    rw [hm.eq_one hnil, hn.eq_one hnil]
  | some e => rw [hm.getLast? he, hn.getLast? he]

/-- The entries after the first ones, from the index that those leave free. By induction on the
entries that are still to be read. -/
theorem reads {ys : List (UInt16 × Constant)} :
    ∀ {xs : List (UInt16 × Constant)} {m n : Nat}, Layout xs m → Layout (xs ++ ys) n →
      Reads (entriesFrom n m) (ys.flatMap fun e => e.2.bytes) ys := by
  induction ys with
  | nil =>
    intro xs m n hm hn
    rw [List.append_nil] at hn
    obtain rfl := hm.index_unique hn
    unfold entriesFrom
    rw [if_neg (Nat.lt_irrefl m), if_pos rfl]
    exact .pure []
  | cons e ys ih =>
    intro xs m n hm hn
    obtain ⟨hxs, hfit, href, hnew⟩ := hn.split rfl
    obtain rfl := hm.index_unique hxs
    have hlt : e.1.toNat < n := by
      have hb := (hn.bounds (i := e.1) (c := e.2) (by simp)).2
      have hpos := e.2.width_pos
      omega
    have hnext : Layout (xs ++ [e]) (e.1.toNat + advance e.2) := by
      rw [advance_eq_width]
      exact .snoc hxs hfit href hnew
    have hrest := ih hnext (by rwa [List.append_assoc])
    unfold entriesFrom
    rw [if_pos hlt, List.flatMap_cons]
    refine (reads_constant hfit).bind (hrest.andThen ?_)
    rw [UInt16.ofNat_toNat]
    exact .pure _

end Layout

namespace ConstantPool

theorem toList_foldl_bytes (es : List (UInt16 × Constant)) (out : Array UInt8) :
    (es.foldl (fun out (_, c) => out ++ c.bytes) out).toList =
      out.toList ++ es.flatMap fun e => e.2.bytes := by
  induction es generalizing out with
  | nil => simp
  | cons e es ih =>
    rw [List.foldl_cons, ih, List.flatMap_cons, Array.toList_appendList, List.append_assoc]

theorem toList_bytes (pool : ConstantPool) :
    pool.bytes.toList = u2 pool.count ++ pool.entries.toList.flatMap fun e => e.2.bytes := by
  rw [bytes, ← Array.foldl_toList, toList_foldl_bytes]

theorem Wf.reads {pool : ConstantPool} (h : pool.Wf) :
    Reads PoolParser.pool pool.bytes.toList pool.entries.toList := by
  rw [toList_bytes]
  exact (Reads.number_u2 _).bind (Layout.reads .nil h.layout)

/-- All bytes of a pool, and no others, are those of its entries. -/
theorem whole_bytes (history : List Request) :
    Reader.whole PoolParser.pool (empty.after history).bytes.toList =
      some (empty.after history).entries.toList :=
  (after_wf empty_wf history).reads.whole

end ConstantPool
end ClassSynthesis
