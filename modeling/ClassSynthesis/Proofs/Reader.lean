import ClassSynthesis.Proofs.BigEndian

/-!
# ClassSynthesis.Proofs.Reader

Readers of bytes. A `Reader` takes a value from the front of bytes, or fails; readers are put
together with `do`. `Reads p bytes a` says that `p` takes exactly `bytes`, whatever stands after
them, and that they stand for `a`. It is built up along the reader: one lemma for each way of
putting readers together, and one for each primitive reader.
-/

namespace ClassSynthesis

/-- A value from the front of bytes, and the bytes after it. -/
abbrev Reader : Type → Type := StateT (List UInt8) Option

namespace Reader

variable {α : Type}

def take (n : Nat) : Reader (List UInt8) := fun bytes =>
  if n ≤ bytes.length then some (bytes.take n, bytes.drop n) else none

/-- A big-endian number of the given size. -/
def number (size : Nat) : Reader Nat := do
  return bigEndian (← take size)

def index : Reader UInt16 := do
  return .ofNat (← number 2)

def times (p : Reader α) : Nat → Reader (List α)
  | 0 => return []
  | n + 1 => do
    let a ← p
    let as ← times p n
    return a :: as

/-- A `u2` count, and as many values. -/
def counted (p : Reader α) : Reader (List α) := do
  times p (← number 2)

/-- The value that all of the bytes stand for. -/
def whole (p : Reader α) (bytes : List UInt8) : Option α :=
  match p.run bytes with
  | some (a, []) => some a
  | _ => none

theorem times_add (p : Reader α) (m n : Nat) :
    times p (m + n) = do
      let as ← times p m
      let bs ← times p n
      return as ++ bs := by
  induction m with
  | zero => simp [times]
  | succ m ih => simp [Nat.succ_add, times, ih]

end Reader

/-- At the front of any bytes, the reader takes `bytes` for `a`. -/
def Reads {α : Type} (p : Reader α) (bytes : List UInt8) (a : α) : Prop :=
  ∀ rest, p.run (bytes ++ rest) = some (a, rest)

namespace Reads

variable {α β : Type} {p : Reader α} {f : α → Reader β} {a : α} {b : β} {bytes cs : List UInt8}

theorem pure (a : α) : Reads (return a) [] a := fun _ => rfl

theorem lift {o : Option α} (h : o = some a) : Reads (StateT.lift o) [] a := by
  intro rest
  simp [h]

theorem bind (hp : Reads p bytes a) (hf : Reads (f a) cs b) : Reads (p >>= f) (bytes ++ cs) b := by
  intro rest
  rw [StateT.run_bind, List.append_assoc, hp]
  exact hf rest

/-- What is made of a value takes no more bytes. -/
theorem andThen (hp : Reads p bytes a) (hf : Reads (f a) [] b) : Reads (p >>= f) bytes b := by
  have h := hp.bind hf
  rwa [List.append_nil] at h

theorem take (bytes : List UInt8) : Reads (Reader.take bytes.length) bytes bytes := by
  intro rest
  simp [Reader.take, StateT.run]

theorem number {v : Nat} (h : bigEndian bytes = v) :
    Reads (Reader.number bytes.length) bytes v :=
  (take bytes).andThen (h ▸ .pure _)

theorem number_byte (b : UInt8) : Reads (Reader.number 1) [b] b.toNat := by
  have hb : bigEndian [b] = b.toNat := by simp [bigEndian]
  exact number hb

theorem number_u2 (v : UInt16) : Reads (Reader.number 2) (u2 v) v.toNat := number (bigEndian_u2 v)

theorem number_u4 (v : UInt32) : Reads (Reader.number 4) (u4 v) v.toNat := number (bigEndian_u4 v)

theorem number_u8 (v : UInt64) : Reads (Reader.number 8) (u8 v) v.toNat := number (bigEndian_u8 v)

theorem index (v : UInt16) : Reads Reader.index (u2 v) v := by
  refine (number_u2 v).andThen ?_
  rw [UInt16.ofNat_toNat]
  exact .pure v

theorem times_cons {as : List α} {n : Nat} (ha : Reads p bytes a)
    (has : Reads (Reader.times p n) cs as) :
    Reads (Reader.times p (n + 1)) (bytes ++ cs) (a :: as) :=
  ha.bind (has.andThen (.pure _))

theorem times_one (ha : Reads p bytes a) : Reads (Reader.times p 1) bytes [a] :=
  ha.andThen (.pure [a])

theorem times_append {as bs : List α} {m n : Nat} (ha : Reads (Reader.times p m) bytes as)
    (hb : Reads (Reader.times p n) cs bs) :
    Reads (Reader.times p (m + n)) (bytes ++ cs) (as ++ bs) := by
  rw [Reader.times_add]
  exact ha.bind (hb.andThen (.pure _))

/-- One value after another, each with bytes of its own. -/
theorem times_flatMap {ι : Type} {is : List ι} {bytes : ι → List UInt8} {value : ι → α}
    (h : ∀ i ∈ is, Reads p (bytes i) (value i)) :
    Reads (Reader.times p is.length) (is.flatMap bytes) (is.map value) := by
  induction is with
  | nil => exact .pure []
  | cons i is ih =>
    have hi := h i (.head is)
    exact hi.times_cons (ih fun j hj => h j (.tail i hj))

theorem counted {as : List α} {n : UInt16} (h : Reads (Reader.times p n.toNat) bytes as) :
    Reads (Reader.counted p) (u2 n ++ bytes) as :=
  (number_u2 n).bind h

theorem whole (h : Reads p bytes a) : Reader.whole p bytes = some a := by
  have hr := h []
  rw [List.append_nil] at hr
  simp [Reader.whole, hr]

end Reads
end ClassSynthesis
