import ClassSynthesis.ClassFile.ConstantPool

/-!
# ClassSynthesis.ClassFile.Encoding

Encoding against a constant pool: the pool so far, and the first failure there was. Code and
annotations are encoded in one go and report a failure at the end, so encoding goes on after a
failure, and the pool keeps filling.
-/

namespace ClassSynthesis

structure Encoding where
  pool : ConstantPool
  failure : Option PoolError

namespace Encoding

def start (pool : ConstantPool) : Encoding := ⟨pool, none⟩

/-- Only the first failure is kept. -/
def fail (enc : Encoding) (e : PoolError) : Encoding :=
  match enc.failure with
  | some _ => enc
  | none => { enc with failure := some e }

/-- The answer to a request, not yet made use of. -/
def ask (enc : Encoding) (r : Request) : Except PoolError UInt16 × Encoding :=
  match enc with
  | ⟨pool, failure⟩ =>
    match pool.add r with
    | (answer, pool) => (answer, ⟨pool, failure⟩)

/-- The index of an answer. The failure of a request counts from here on; its index is 0. -/
def use (enc : Encoding) : Except PoolError UInt16 → UInt16 × Encoding
  | .ok i => (i, enc)
  | .error e => (0, enc.fail e)

/-- The index that answers a request, or 0 and a failure. -/
def resolve (enc : Encoding) (r : Request) : UInt16 × Encoding :=
  match enc.ask r with
  | (answer, enc) => enc.use answer

end Encoding

end ClassSynthesis
