import Std.Data.HashMap
import ClassSynthesis.ClassFile.Constant
import ClassSynthesis.Error

/-!
# ClassSynthesis.ClassFile.ConstantPool

The constant pool of a class file. Entries are numbered from 1 and kept once: a request for an
entry that is already there answers its index. What may be asked for is a `Request`, which names
its content symbolically; the entries it is made of are added before it.

* `add` answers a request. A request that fails may leave entries of its parts behind, never a
  part of an entry.
* `entry?` reads an entry back, `bytes` writes the pool as a class file holds it.
-/

namespace ClassSynthesis

/-- What may be asked of a pool. -/
inductive Request where
  | utf8 (s : String)
  | number (n : Number)
  | classRef (internalName : String)
  | string (text : String)
  | methodType (descriptor : String)
  | nameAndType (name descriptor : String)
  | fieldRef (owner name descriptor : String)
  | methodRef (owner name descriptor : String)
  | interfaceMethodRef (owner name descriptor : String)
  deriving DecidableEq

structure ConstantPool where
  /-- Entries with their indices, in index order. -/
  entries : Array (UInt16 × Constant)
  /-- Index of each entry by its `cp_info` bytes. -/
  indices : Std.HashMap (List UInt8) UInt16
  /-- First index that is not taken, which is also the pool's count in the class file. -/
  next : UInt16

namespace ConstantPool

def empty : ConstantPool := ⟨#[], ∅, 1⟩

instance : Inhabited ConstantPool := ⟨empty⟩

/-- The answer to a request, and the pool afterwards. -/
abbrev Answer := Except PoolError UInt16 × ConstantPool

/-- Continue with the index found, unless the request failed. -/
def Answer.andThen (a : Answer) (f : UInt16 → ConstantPool → Answer) : Answer :=
  match a with
  | (.ok i, pool) => f i pool
  | (.error e, pool) => (.error e, pool)

/-- The index of an entry, which is added unless it is there already. The count is a `u2`, so the
highest index that can be taken is 65534. -/
def intern (c : Constant) (pool : ConstantPool) : Answer :=
  let key := c.bytes
  match pool.indices[key]? with
  | some i => (.ok i, pool)
  | none =>
    if pool.next.toNat + c.width.toNat ≤ 65535 then
      let i := pool.next
      (.ok i, ⟨pool.entries.push (i, c), pool.indices.insert key i, i + c.width⟩)
    else (.error .outOfSpace, pool)

/-- Text goes into the pool with a `u2` byte count before it. -/
def addUtf8 (s : String) (pool : ConstantPool) : Answer :=
  let length := ModifiedUtf8.length s
  if length ≤ 65535 then pool.intern (.utf8 s) else (.error (.textTooLong length), pool)

def addClassRef (internalName : String) (pool : ConstantPool) : Answer :=
  (pool.addUtf8 internalName).andThen fun i pool => pool.intern (.classRef i)

def addNameAndType (name descriptor : String) (pool : ConstantPool) : Answer :=
  (pool.addUtf8 name).andThen fun i pool =>
    (pool.addUtf8 descriptor).andThen fun j pool => pool.intern (.nameAndType i j)

/-- A reference to a member: the owner's entries first, then the signature's, then `ref` of both. -/
def addMemberRef (ref : UInt16 → UInt16 → Constant) (owner name descriptor : String)
    (pool : ConstantPool) : Answer :=
  (pool.addClassRef owner).andThen fun i pool =>
    (pool.addNameAndType name descriptor).andThen fun j pool => pool.intern (ref i j)

def add (pool : ConstantPool) : Request → Answer
  | .utf8 s => pool.addUtf8 s
  | .number n => pool.intern (.number n)
  | .classRef internalName => pool.addClassRef internalName
  | .string text => (pool.addUtf8 text).andThen fun i pool => pool.intern (.string i)
  | .methodType descriptor =>
    (pool.addUtf8 descriptor).andThen fun i pool => pool.intern (.methodType i)
  | .nameAndType name descriptor => pool.addNameAndType name descriptor
  | .fieldRef owner name descriptor => pool.addMemberRef .fieldRef owner name descriptor
  | .methodRef owner name descriptor => pool.addMemberRef .methodRef owner name descriptor
  | .interfaceMethodRef owner name descriptor =>
    pool.addMemberRef .interfaceMethodRef owner name descriptor

/-- The entry at an index. The second index of a `long` or `double` holds none. -/
def entry? (pool : ConstantPool) (index : UInt16) : Except PoolError Constant :=
  match pool.entries.find? fun (i, _) => i == index with
  | some (_, c) => .ok c
  | none => .error (.invalidIndex index)

/-- The `constant_pool_count` of the class file: one more than the highest index in use. -/
def count (pool : ConstantPool) : UInt16 := pool.next

def isEmpty (pool : ConstantPool) : Bool := pool.entries.isEmpty

/-- `constant_pool_count` and the entries, as the class file holds them. -/
def bytes (pool : ConstantPool) : Array UInt8 :=
  pool.entries.foldl (fun out (_, c) => out ++ c.bytes) (u2 pool.count).toArray

end ConstantPool

end ClassSynthesis
