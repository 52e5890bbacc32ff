import ClassSynthesis.ClassFile.Constant

/-!
# ClassSynthesis.Proofs.BigEndian

The value that a big-endian field spells. `u2`, `u4` and `u8` write a value that `bigEndian` reads
back, so a field of a known width determines what was written into it.
-/

namespace ClassSynthesis

/-- The number that bytes spell, most significant first. -/
def bigEndian (bytes : List UInt8) : Nat :=
  bytes.foldl (fun n b => n * 256 + b.toNat) 0

@[simp] theorem length_u2 (v : UInt16) : (u2 v).length = 2 := rfl

@[simp] theorem bigEndian_u2 (v : UInt16) : bigEndian (u2 v) = v.toNat := by
  have hv := v.toNat_lt
  simp [bigEndian, u2, Nat.shiftRight_eq_div_pow]
  omega

@[simp] theorem bigEndian_u4 (v : UInt32) : bigEndian (u4 v) = v.toNat := by
  have hv := v.toNat_lt
  simp [bigEndian, u4, Nat.shiftRight_eq_div_pow]
  omega

@[simp] theorem bigEndian_u8 (v : UInt64) : bigEndian (u8 v) = v.toNat := by
  have hv := v.toNat_lt
  simp [bigEndian, u8, Nat.shiftRight_eq_div_pow]
  omega

theorem u2_inj {v w : UInt16} (h : u2 v = u2 w) : v = w := by
  have hn := congrArg bigEndian h
  rw [bigEndian_u2, bigEndian_u2] at hn
  exact UInt16.toNat_inj.mp hn

theorem u4_inj {v w : UInt32} (h : u4 v = u4 w) : v = w := by
  have hn := congrArg bigEndian h
  rw [bigEndian_u4, bigEndian_u4] at hn
  exact UInt32.toNat_inj.mp hn

theorem u8_inj {v w : UInt64} (h : u8 v = u8 w) : v = w := by
  have hn := congrArg bigEndian h
  rw [bigEndian_u8, bigEndian_u8] at hn
  exact UInt64.toNat_inj.mp hn

end ClassSynthesis
