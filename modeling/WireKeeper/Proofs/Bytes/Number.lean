import Mathlib.Data.List.Induction
import WireKeeper.Bytes.Hex
import WireKeeper.Net.Address

/-! # Numbers as bytes

The big-endian bytes of a number, and the number that bytes make up. -/

namespace WireKeeper

/-- `twoPow (m + n) = twoPow m * twoPow n`: the powers of two are counted out and not computed by `2
^ n`. -/
theorem twoPow_add (m n : Nat) : twoPow (m + n) = twoPow m * twoPow n := Nat.pow_add 2 m n

namespace Bytes

/-- `toNat [] = 0`: no bytes make up zero. -/
@[simp] theorem toNat_nil : toNat [] = 0 := rfl

/-- `toNat (bytes ++ [b]) = toNat bytes * 256 + b`: the last byte is the lowest. -/
@[simp] theorem toNat_concat (bytes : Bytes) (b : UInt8) :
    toNat (bytes ++ [b]) = toNat bytes * 256 + b.toNat := by
  rw [toNat, toNat, List.foldl_append]
  rfl

/-- `toNat (ofNat size n) = n % 2 ^ (8 * size)`: the bytes of a number make up its low bits. -/
theorem toNat_ofNat (size n : Nat) : toNat (ofNat size n) = n % twoPow (8 * size) := by
  induction size generalizing n with
  | zero => rw [ofNat, toNat_nil, Nat.mul_zero, twoPow_zero, Nat.mod_one]
  | succ size ih =>
    have hpow : twoPow (8 * (size + 1)) = 256 * twoPow (8 * size) := by
      rw [Nat.mul_succ, Nat.add_comm, twoPow_add]
      rfl
    rw [ofNat, toNat_concat, ih, UInt8.toNat_ofNat', hpow, Nat.mod_mul, Nat.mul_comm, Nat.add_comm]

/-- A number that fits is made up by its bytes: `toNat (ofNat size n) = n` for
`n < 2 ^ (8 * size)`. -/
theorem toNat_ofNat_of_lt {size n : Nat} (h : n < twoPow (8 * size)) :
    toNat (ofNat size n) = n := by
  rw [toNat_ofNat, Nat.mod_eq_of_lt h]

/-- `ofNat bytes.length (toNat bytes) = bytes`: bytes are those of the number they make up. -/
theorem ofNat_toNat (bytes : Bytes) : ofNat bytes.length (toNat bytes) = bytes := by
  induction bytes using List.reverseRecOn with
  | nil => rfl
  | append_singleton bytes b ih =>
    have hdiv : (toNat bytes * 256 + b.toNat) / 256 = toNat bytes := by
      have := b.toNat_lt
      omega
    have hlow : UInt8.ofNat (toNat bytes * 256 + b.toNat) = b := by
      rw [← UInt8.toNat_inj, UInt8.toNat_ofNat']
      have := b.toNat_lt
      omega
    rw [List.length_append, List.length_singleton, toNat_concat, ofNat, hdiv, ih, hlow]

/-- `toNat bytes < 2 ^ (8 * bytes.length)`: as many bytes make up no larger number. -/
theorem toNat_lt (bytes : Bytes) : toNat bytes < twoPow (8 * bytes.length) := by
  -- the bound in general: what stands in front is shifted up, and one more than it bounds the whole
  suffices h : ∀ v, bytes.foldl (fun v b => v * 256 + b.toNat) v <
      (v + 1) * twoPow (8 * bytes.length) by
    have := h 0
    rwa [Nat.zero_add, Nat.one_mul] at this
  induction bytes with
  | nil => exact fun v => by rw [List.foldl_nil, List.length_nil, Nat.mul_zero, twoPow_zero]; omega
  | cons b bs ih =>
    intro v
    have hb := b.toNat_lt
    have hpow : twoPow (8 * (bs.length + 1)) = 256 * twoPow (8 * bs.length) := by
      rw [Nat.mul_succ, Nat.add_comm, twoPow_add]
      rfl
    rw [List.foldl_cons, List.length_cons, hpow, ← Nat.mul_assoc]
    refine Nat.lt_of_lt_of_le (ih _) (Nat.mul_le_mul_right _ ?_)
    omega

end Bytes

end WireKeeper
