import Mathlib.Tactic.SplitIfs
import ClassSynthesis.ClassFile.ModifiedUtf8

/-!
# ClassSynthesis.Proofs.ModifiedUtf8

Reading encoded text back, in two steps: bytes spell UTF-16 code units (`units?`), and code units
spell characters (`chars?`).

* `decode?_encode`: what `encode` writes is read back, so `encode` is injective.
* `length_eq`: `length` is the size of what `encode` writes.
* `encode_faithful`: both, with the bytes that occur. A zero byte never does, nor one from `0xf0`
  on, and texts are encoded one after another.
-/

namespace ClassSynthesis
namespace ModifiedUtf8

/-- Whether a byte continues a code unit. -/
def isTail (b : UInt8) : Bool := 0x80 ≤ b && b ≤ 0xbf

/-- The code unit of two bytes: five bits, then six. -/
def unitOfTwo (a b : UInt8) : UInt16 :=
  .ofNat (a.toNat % 32 * 64 + b.toNat % 64)

/-- The code unit of three bytes: four bits, then six and six. -/
def unitOfThree (a b c : UInt8) : UInt16 :=
  .ofNat (a.toNat % 16 * 4096 + b.toNat % 64 * 64 + c.toNat % 64)

/-- The code units that bytes spell. No zero byte and no byte from `0xf0` on occurs. -/
def units? : List UInt8 → Option (List UInt16)
  | [] => some []
  | a :: rest =>
    if 0x01 ≤ a ∧ a ≤ 0x7f then (units? rest).map (a.toUInt16 :: ·)
    else if 0xc0 ≤ a ∧ a ≤ 0xdf then
      match rest with
      | b :: rest => if isTail b then (units? rest).map (unitOfTwo a b :: ·) else none
      | [] => none
    else if 0xe0 ≤ a ∧ a ≤ 0xef then
      match rest with
      | b :: c :: rest =>
        if isTail b && isTail c then (units? rest).map (unitOfThree a b c :: ·) else none
      | _ => none
    else none

/-- The supplementary character of a surrogate pair. -/
def pairChar (high low : UInt16) : Char :=
  .ofNat (0x10000 + (high.toNat - 0xd800) * 0x400 + (low.toNat - 0xdc00))

/-- The characters that code units spell. Surrogates come in pairs, the high one first. -/
def chars? : List UInt16 → Option (List Char)
  | [] => some []
  | u :: rest =>
    if 0xd800 ≤ u ∧ u ≤ 0xdbff then
      match rest with
      | v :: rest => if 0xdc00 ≤ v ∧ v ≤ 0xdfff then (chars? rest).map (pairChar u v :: ·) else none
      | [] => none
    else if 0xdc00 ≤ u ∧ u ≤ 0xdfff then none
    else (chars? rest).map (.ofNat u.toNat :: ·)

/-- The text that bytes spell. -/
def decode? (bytes : List UInt8) : Option String :=
  ((units? bytes).bind chars?).map String.ofList

/-! ## Bytes of a code unit -/

theorem toNat_continuation (u : UInt16) : (continuation u).toNat = 128 + u.toNat % 64 := by
  have h : u.toNat % 64 < 2 ^ 6 := Nat.mod_lt _ (by decide)
  have e := Nat.two_pow_add_eq_or_of_lt h 2
  simp only [continuation, UInt8.toNat_or, UInt16.toNat_toUInt8, UInt16.toNat_and]
  rw [show (0x3f : UInt16).toNat = 2 ^ 6 - 1 from rfl, Nat.and_two_pow_sub_one_eq_mod]
  rw [show (0x80 : UInt8).toNat = 2 ^ 6 * 2 from rfl, Nat.mod_eq_of_lt (by omega), ← e]

theorem isTail_continuation (u : UInt16) : isTail (continuation u) = true := by
  simp [isTail, UInt8.le_iff_toNat_le, toNat_continuation]
  omega

theorem toNat_lead_two (u : UInt16) (h : u.toNat < 0x800) :
    ((0xc0 : UInt8) ||| (u >>> 6).toUInt8).toNat = 192 + u.toNat / 64 := by
  have hd : u.toNat / 64 < 2 ^ 6 := by omega
  have e := Nat.two_pow_add_eq_or_of_lt hd 3
  simp only [UInt8.toNat_or, UInt16.toNat_toUInt8, UInt16.toNat_shiftRight]
  rw [show (0xc0 : UInt8).toNat = 2 ^ 6 * 3 from rfl, Nat.shiftRight_eq_div_pow]
  rw [show u.toNat / 2 ^ ((6 : UInt16).toNat % 16) % 2 ^ 8 = u.toNat / 64 by simp; omega, ← e]

theorem toNat_lead_three (u : UInt16) :
    ((0xe0 : UInt8) ||| (u >>> 12).toUInt8).toNat = 224 + u.toNat / 4096 := by
  have hu := u.toNat_lt
  have hd : u.toNat / 4096 < 2 ^ 5 := by omega
  have e := Nat.two_pow_add_eq_or_of_lt hd 7
  simp only [UInt8.toNat_or, UInt16.toNat_toUInt8, UInt16.toNat_shiftRight]
  rw [show (0xe0 : UInt8).toNat = 2 ^ 5 * 7 from rfl, Nat.shiftRight_eq_div_pow]
  rw [show u.toNat / 2 ^ ((12 : UInt16).toNat % 16) % 2 ^ 8 = u.toNat / 4096 by simp; omega, ← e]

theorem units?_unitBytes (u : UInt16) (rest : List UInt8) :
    units? (unitBytes u ++ rest) = (units? rest).map (u :: ·) := by
  have hu := u.toNat_lt
  by_cases h : u < 0x800
  · have hn : u.toNat < 0x800 := UInt16.lt_iff_toNat_lt.mp h
    have hl := toNat_lead_two u hn
    have ht := toNat_continuation u
    have hv : unitOfTwo ((0xc0 : UInt8) ||| (u >>> 6).toUInt8) (continuation u) = u := by
      apply UInt16.toNat_inj.mp
      simp only [unitOfTwo, UInt16.toNat_ofNat', hl, ht]
      omega
    generalize hg : (0xc0 : UInt8) ||| (u >>> 6).toUInt8 = a at hl hv
    simp only [unitBytes, if_pos h, hg, List.cons_append, List.nil_append]
    rw [units?, if_neg, if_pos, if_pos (isTail_continuation u), hv]
    · simp only [UInt8.le_iff_toNat_le, hl]; simp; omega
    · simp only [UInt8.le_iff_toNat_le, hl]; simp; omega
  · have hn : ¬ u.toNat < 0x800 := fun hlt => h (UInt16.lt_iff_toNat_lt.mpr hlt)
    have hl := toNat_lead_three u
    have ht := toNat_continuation u
    have hm := toNat_continuation (u >>> 6)
    have hs : (u >>> 6).toNat = u.toNat / 64 := by simp [Nat.shiftRight_eq_div_pow]
    have hv : unitOfThree ((0xe0 : UInt8) ||| (u >>> 12).toUInt8) (continuation (u >>> 6))
        (continuation u) = u := by
      apply UInt16.toNat_inj.mp
      simp only [unitOfThree, UInt16.toNat_ofNat', hl, ht, hm, hs]
      omega
    generalize hg : (0xe0 : UInt8) ||| (u >>> 12).toUInt8 = a at hl hv
    simp only [unitBytes, if_neg h, hg, List.cons_append, List.nil_append]
    rw [units?, if_neg, if_neg, if_pos]
    · simp only [isTail_continuation, Bool.and_self, if_true, hv]
    · simp only [UInt8.le_iff_toNat_le, hl]; simp; omega
    · simp only [UInt8.le_iff_toNat_le, hl]; simp; omega
    · simp only [UInt8.le_iff_toNat_le, hl]; simp; omega

theorem units?_ascii {a : UInt8} (h : 0x01 ≤ a ∧ a ≤ 0x7f) (rest : List UInt8) :
    units? (a :: rest) = (units? rest).map (a.toUInt16 :: ·) := by
  rw [units?.eq_def]
  simp only [if_pos h]

theorem units?_flatMap (us : List UInt16) (rest : List UInt8) :
    units? (us.flatMap unitBytes ++ rest) = (units? rest).map (us ++ ·) := by
  induction us with
  | nil => simp
  | cons u us ih =>
    rw [List.flatMap_cons, List.append_assoc, units?_unitBytes, ih]
    simp [Option.map_map, Function.comp_def]

/-! ## Characters -/

/-- The widths, read on code points. -/
theorem width_eq (c : Char) :
    width c = if c.toNat = 0 then 2 else if c.toNat ≤ 0x7f then 1 else if c.toNat ≤ 0x7ff then 2
      else if c.toNat ≤ 0xffff then 3 else 6 := by
  simp only [width, UInt32.le_iff_toNat_le, ← UInt32.toNat_inj]
  rfl

theorem width_eq_one {c : Char} (h : width c = 1) : 0 < c.toNat ∧ c.toNat ≤ 0x7f := by
  rw [width_eq] at h
  split_ifs at h <;> omega

theorem toNat_toUInt8 {c : Char} (h : c.toNat ≤ 0xff) : c.val.toUInt8.toNat = c.toNat := by
  rw [UInt32.toNat_toUInt8, Nat.mod_eq_of_lt]
  · rfl
  · show c.toNat < _; omega

theorem units?_encodeChar (c : Char) (rest : List UInt8) :
    units? (encodeChar c ++ rest) = (units? rest).map (units c ++ ·) := by
  by_cases h : width c = 1
  · obtain ⟨h0, h1⟩ := width_eq_one h
    have hb := toNat_toUInt8 (c := c) (by omega)
    have hu : c.val.toUInt8.toUInt16 = c.val.toUInt16 := by
      apply UInt16.toNat_inj.mp
      rw [UInt8.toNat_toUInt16, hb, UInt32.toNat_toUInt16]
      show c.toNat = c.toNat % _
      omega
    have hc : c.val ≤ 0xffff := UInt32.le_iff_toNat_le.mpr (by show c.toNat ≤ _; simp; omega)
    simp only [encodeChar, if_pos h, units, if_pos hc, List.cons_append, List.nil_append]
    rw [units?_ascii, hu]
    simp only [UInt8.le_iff_toNat_le, hb]
    exact ⟨h0, h1⟩
  · rw [encodeChar, if_neg h, units?_flatMap]

theorem chars?_plain {u : UInt16} (hhigh : ¬ (0xd800 ≤ u ∧ u ≤ 0xdbff))
    (hlow : ¬ (0xdc00 ≤ u ∧ u ≤ 0xdfff)) (rest : List UInt16) :
    chars? (u :: rest) = (chars? rest).map (.ofNat u.toNat :: ·) := by
  rw [chars?.eq_def]
  simp only [if_neg hhigh, if_neg hlow]

theorem toNat_toUInt16 {c : Char} (h : c.toNat ≤ 0xffff) : c.val.toUInt16.toNat = c.toNat := by
  rw [UInt32.toNat_toUInt16, Nat.mod_eq_of_lt]
  · rfl
  · show c.toNat < _; omega

/-! The offset of a supplementary character has twenty bits: ten go into the high surrogate, ten
into the low one. -/

theorem toNat_offset {c : Char} (h : 0xffff < c.toNat) :
    (c.val - 0x10000).toNat = c.toNat - 0x10000 := by
  rw [UInt32.toNat_sub_of_le]
  · rfl
  · exact UInt32.le_iff_toNat_le.mpr (by show _ ≤ c.toNat; simp; omega)

theorem toNat_lt_of_valid (c : Char) : c.toNat < 0x110000 := by
  have hvalid : c.toNat < 0xd800 ∨ (0xdfff < c.toNat ∧ c.toNat < 0x110000) := c.valid
  omega

theorem toNat_high {c : Char} (h : 0xffff < c.toNat) :
    ((0xd800 : UInt16) + ((c.val - 0x10000) >>> 10).toUInt16).toNat
      = 0xd800 + (c.toNat - 0x10000) / 0x400 := by
  have hc := toNat_lt_of_valid c
  simp [toNat_offset h, Nat.shiftRight_eq_div_pow]
  omega

theorem toNat_low {c : Char} (h : 0xffff < c.toNat) :
    ((0xdc00 : UInt16) + ((c.val - 0x10000) &&& 0x3ff).toUInt16).toNat
      = 0xdc00 + (c.toNat - 0x10000) % 0x400 := by
  have hand : (c.toNat - 0x10000) &&& 0x3ff = (c.toNat - 0x10000) % 0x400 :=
    Nat.and_two_pow_sub_one_eq_mod _ 10
  simp only [UInt16.toNat_add, UInt32.toNat_toUInt16, UInt32.toNat_and, toNat_offset h,
    show (0x3ff : UInt32).toNat = 0x3ff from rfl, hand]
  simp; omega

theorem chars?_units (c : Char) (rest : List UInt16) :
    chars? (units c ++ rest) = (chars? rest).map (c :: ·) := by
  have hvalid : c.toNat < 0xd800 ∨ (0xdfff < c.toNat ∧ c.toNat < 0x110000) := c.valid
  by_cases h : c.val ≤ 0xffff
  · have hu := toNat_toUInt16 (UInt32.le_iff_toNat_le.mp h)
    simp only [units, if_pos h, List.cons_append, List.nil_append]
    rw [chars?_plain, hu, Char.ofNat_toNat]
    · simp only [UInt16.le_iff_toNat_le, hu]; simp; omega
    · simp only [UInt16.le_iff_toNat_le, hu]; simp; omega
  · have hn : 0xffff < c.toNat := Nat.lt_of_not_le fun hle => h (UInt32.le_iff_toNat_le.mpr hle)
    have hhigh := toNat_high hn
    have hlow := toNat_low hn
    have hp : pairChar ((0xd800 : UInt16) + ((c.val - 0x10000) >>> 10).toUInt16)
        ((0xdc00 : UInt16) + ((c.val - 0x10000) &&& 0x3ff).toUInt16) = c := by
      rw [pairChar, hhigh, hlow]
      rw [show 0x10000 + (0xd800 + (c.toNat - 0x10000) / 0x400 - 0xd800) * 0x400
        + (0xdc00 + (c.toNat - 0x10000) % 0x400 - 0xdc00) = c.toNat by omega]
      exact Char.ofNat_toNat c
    simp only [units, if_neg h, List.cons_append, List.nil_append]
    rw [chars?, if_pos, if_pos, hp]
    · simp only [UInt16.le_iff_toNat_le, hlow]; simp; omega
    · simp only [UInt16.le_iff_toNat_le, hhigh]; simp; omega

/-! ## Texts -/

theorem units?_encode (cs : List Char) :
    units? (cs.flatMap encodeChar) = some (cs.flatMap units) := by
  induction cs with
  | nil => rfl
  | cons c cs ih => rw [List.flatMap_cons, units?_encodeChar, ih]; rfl

theorem chars?_flatMap (cs : List Char) : chars? (cs.flatMap units) = some cs := by
  induction cs with
  | nil => rfl
  | cons c cs ih => rw [List.flatMap_cons, chars?_units, ih]; rfl

theorem decode?_encode (s : String) : decode? (encode s) = some s := by
  rw [decode?, encode, units?_encode, Option.bind_some, chars?_flatMap]
  simp

theorem encode_inj {s t : String} (h : encode s = encode t) : s = t := by
  have hd := congrArg decode? h
  rw [decode?_encode, decode?_encode] at hd
  exact Option.some.inj hd

theorem length_unitBytes (u : UInt16) :
    (unitBytes u).length = if u.toNat < 0x800 then 2 else 3 := by
  simp only [unitBytes, UInt16.lt_iff_toNat_lt]
  show (if u.toNat < 0x800 then _ else _ : List UInt8).length = _
  split <;> rfl

theorem length_encodeChar (c : Char) : (encodeChar c).length = width c := by
  by_cases h1 : width c = 1
  · rw [encodeChar, if_pos h1, h1]; rfl
  rw [encodeChar, if_neg h1]
  rw [width_eq] at h1 ⊢
  by_cases h : c.val ≤ 0xffff
  · have hn : c.toNat ≤ 0xffff := UInt32.le_iff_toNat_le.mp h
    simp only [units, if_pos h, List.flatMap_cons, List.flatMap_nil, List.append_nil,
      length_unitBytes, toNat_toUInt16 hn]
    split_ifs at h1 ⊢ <;> omega
  · have hn : 0xffff < c.toNat := Nat.lt_of_not_le fun hle => h (UInt32.le_iff_toNat_le.mpr hle)
    simp only [units, if_neg h, List.flatMap_cons, List.flatMap_nil, List.append_nil,
      List.length_append, length_unitBytes, toNat_high hn, toNat_low hn]
    split_ifs <;> omega

theorem length_eq (s : String) : length s = (encode s).length := by
  have h : ∀ (cs : List Char) (n : Nat),
      cs.foldl (fun n c => n + width c) n = n + (cs.flatMap encodeChar).length := by
    intro cs
    induction cs with
    | nil => intro n; rfl
    | cons c cs ih =>
      intro n
      rw [List.foldl_cons, ih, List.flatMap_cons, List.length_append, length_encodeChar]
      omega
  rw [length, h, encode, Nat.zero_add]

theorem encode_append (s t : String) : encode (s ++ t) = encode s ++ encode t := by
  rw [encode, String.toList_append, List.flatMap_append]
  rfl

/-! ## Bytes that occur -/

/-- Every byte of a long form has its highest bit set. -/
theorem unitBytes_bounds {u : UInt16} {b : UInt8} (h : b ∈ unitBytes u) :
    0x80 ≤ b.toNat ∧ b.toNat ≤ 0xef := by
  have hu := u.toNat_lt
  have ht := toNat_continuation u
  have hm := toNat_continuation (u >>> 6)
  unfold unitBytes at h
  split at h
  · rename_i hlt
    have hn : u.toNat < 0x800 := UInt16.lt_iff_toNat_lt.mp hlt
    have hl := toNat_lead_two u hn
    simp only [List.mem_cons, List.not_mem_nil, or_false] at h
    rcases h with rfl | rfl <;> omega
  · have hl := toNat_lead_three u
    simp only [List.mem_cons, List.not_mem_nil, or_false] at h
    rcases h with rfl | rfl | rfl <;> omega

theorem encodeChar_bounds {c : Char} {b : UInt8} (h : b ∈ encodeChar c) :
    0 < b.toNat ∧ b.toNat ≤ 0xef := by
  unfold encodeChar at h
  split at h
  · rename_i hw
    obtain ⟨h0, h1⟩ := width_eq_one hw
    obtain rfl := List.mem_singleton.mp h
    rw [toNat_toUInt8 (by omega)]
    omega
  · obtain ⟨u, -, hb⟩ := List.mem_flatMap.mp h
    have hbounds := unitBytes_bounds hb
    omega

theorem encode_faithful (s : String) :
    length s = (encode s).length ∧ decode? (encode s) = some s ∧
      (∀ t, encode s = encode t ↔ s = t) ∧ (∀ b ∈ encode s, 0 < b ∧ b ≤ 0xef) ∧
      ∀ t, encode (s ++ t) = encode s ++ encode t := by
  refine ⟨length_eq s, decode?_encode s, fun t => ⟨encode_inj, congrArg encode⟩, ?_,
    encode_append s⟩
  intro b hb
  obtain ⟨c, -, hc⟩ := List.mem_flatMap.mp hb
  exact encodeChar_bounds hc

/-- The characters at which the widths change, and a supplementary one between the neighbours of the
surrogates. -/
theorem encode_faithful_bounds :
    let s := "\x00\x7f\u0080\u07ff\u0800\ud7ff😀\ue000\uffff"
    let bytes : List UInt8 :=
      [0xc0, 0x80, 0x7f, 0xc2, 0x80, 0xdf, 0xbf, 0xe0, 0xa0, 0x80, 0xed, 0x9f, 0xbf,
        0xed, 0xa0, 0xbd, 0xed, 0xb8, 0x80, 0xee, 0x80, 0x80, 0xef, 0xbf, 0xbf]
    encode s = bytes ∧ length s = 25 ∧ decode? bytes = some s ∧
      0xef ∈ bytes ∧ (0 : UInt8) < 0xef ∧ (0xef : UInt8) ≤ 0xef := by
  intro s bytes
  have hbytes : encode s = bytes := by decide +zetaReduce
  obtain ⟨hlength, hdecode, -, hbounds, -⟩ := encode_faithful s
  rw [hbytes] at hlength hdecode hbounds
  have hlast : 0xef ∈ bytes := by decide
  exact ⟨hbytes, hlength, hdecode, hlast, hbounds 0xef hlast⟩

end ModifiedUtf8
end ClassSynthesis
