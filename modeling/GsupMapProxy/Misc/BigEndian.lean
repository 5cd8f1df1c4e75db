import Mathlib.Data.Nat.Bitwise

/-!
# Big-endian words

The shift-and-or expressions that build a word from its octets, most significant first, and
take one apart, as arithmetic on the words' values.
-/

namespace Misc

/-- What can be checked for the 256 octets holds for every octet. -/
theorem forall_octet {P : UInt8 → Prop} (h : ∀ i : Fin 256, P (UInt8.ofNat i.val)) (b : UInt8) :
    P b := by
  have := h ⟨b.toNat, b.toNat_lt⟩
  rwa [UInt8.ofNat_toNat] at this

theorem shiftLeft_eight_or (hi : Nat) {lo : Nat} (h : lo < 256) :
    (hi <<< 8) ||| lo = hi * 256 + lo := by
  rw [Nat.shiftLeft_eq, Nat.mul_comm, ← Nat.two_pow_add_eq_or_of_lt (i := 8) h]

/-- `word = (word << 8) | octet` drops the top octet and appends a new lowest one. -/
theorem uint32_shl8_or_toNat (acc : UInt32) (b : UInt8) :
    ((acc <<< 8) ||| b.toUInt32).toNat = (acc.toNat * 256 + b.toNat) % 2 ^ 32 := by
  have hb := b.toNat_lt
  have hacc := acc.toNat_lt
  have hshift : (acc <<< 8).toNat = (acc.toNat % 2 ^ 24) * 256 := by
    rw [UInt32.toNat_shiftLeft]
    have h8 : (8 : UInt32).toNat % 32 = 8 := rfl
    rw [h8, Nat.shiftLeft_eq]
    omega
  rw [UInt32.toNat_or, hshift, UInt8.toNat_toUInt32, Nat.mul_comm,
    ← Nat.two_pow_add_eq_or_of_lt (i := 8) (by omega)]
  omega

theorem uint64_shl8_or_toNat (acc : UInt64) (b : UInt8) :
    ((acc <<< 8) ||| b.toUInt64).toNat = (acc.toNat * 256 + b.toNat) % 2 ^ 64 := by
  have hb := b.toNat_lt
  have hacc := acc.toNat_lt
  have hshift : (acc <<< 8).toNat = (acc.toNat % 2 ^ 56) * 256 := by
    rw [UInt64.toNat_shiftLeft]
    have h8 : (8 : UInt64).toNat % 64 = 8 := rfl
    rw [h8, Nat.shiftLeft_eq]
    omega
  rw [UInt64.toNat_or, hshift, UInt8.toNat_toUInt64, Nat.mul_comm,
    ← Nat.two_pow_add_eq_or_of_lt (i := 8) (by omega)]
  omega

theorem uint16_of_octets_toNat (b0 b1 : UInt8) :
    ((b0.toUInt16 <<< 8) ||| b1.toUInt16).toNat = b0.toNat * 256 + b1.toNat := by
  have h0 := b0.toNat_lt
  have h1 := b1.toNat_lt
  have hshift : (b0.toUInt16 <<< 8).toNat = b0.toNat * 256 := by
    rw [UInt16.toNat_shiftLeft, UInt8.toNat_toUInt16]
    have h8 : (8 : UInt16).toNat % 16 = 8 := rfl
    rw [h8, Nat.shiftLeft_eq]
    omega
  rw [UInt16.toNat_or, hshift, UInt8.toNat_toUInt16, Nat.mul_comm,
    ← Nat.two_pow_add_eq_or_of_lt (i := 8) h1]

theorem and_0xFF (n : Nat) : n &&& 255 = n % 256 :=
  Nat.and_two_pow_sub_one_eq_mod n 8

theorem uint16_hi_toNat (v : UInt16) : (v >>> 8).toUInt8.toNat = v.toNat / 256 := by
  have hv := v.toNat_lt
  have h8 : (8 : UInt16).toNat % 16 = 8 := rfl
  rw [UInt16.toNat_toUInt8, UInt16.toNat_shiftRight, h8, Nat.shiftRight_eq_div_pow]
  omega

theorem uint16_lo_toNat (v : UInt16) : (v &&& 0xFF).toUInt8.toNat = v.toNat % 256 := by
  have hff : (0xFF : UInt16).toNat = 255 := rfl
  rw [UInt16.toNat_toUInt8, UInt16.toNat_and, hff, and_0xFF]
  omega

/-- The high octet again, with the mask some writers apply to it. -/
theorem uint16_hi_masked_toNat (v : UInt16) :
    ((v >>> 8) &&& 0xFF).toUInt8.toNat = v.toNat / 256 := by
  have hv := v.toNat_lt
  have h8 : (8 : UInt16).toNat % 16 = 8 := rfl
  have hff : (0xFF : UInt16).toNat = 255 := rfl
  rw [UInt16.toNat_toUInt8, UInt16.toNat_and, UInt16.toNat_shiftRight, h8, hff, and_0xFF,
    Nat.shiftRight_eq_div_pow]
  omega

/-- Splitting a 16-bit word into its octets and joining them again. -/
theorem uint16_split_join (v : UInt16) :
    ((v >>> 8).toUInt8.toUInt16 <<< 8) ||| (v &&& 0xFF).toUInt8.toUInt16 = v := by
  apply UInt16.toNat_inj.mp
  rw [uint16_of_octets_toNat, uint16_hi_toNat, uint16_lo_toNat]
  omega

theorem uint32_of_octets_toNat (b0 b1 b2 b3 : UInt8) :
    ((b0.toUInt32 <<< 24) ||| (b1.toUInt32 <<< 16) ||| (b2.toUInt32 <<< 8) |||
      b3.toUInt32).toNat =
      b0.toNat * 2 ^ 24 + b1.toNat * 2 ^ 16 + b2.toNat * 2 ^ 8 + b3.toNat := by
  have h0 := b0.toNat_lt
  have h1 := b1.toNat_lt
  have h2 := b2.toNat_lt
  have h3 := b3.toNat_lt
  have e24 : (24 : UInt32).toNat % 32 = 24 := rfl
  have e16 : (16 : UInt32).toNat % 32 = 16 := rfl
  have e8 : (8 : UInt32).toNat % 32 = 8 := rfl
  have hshift24 : (b0.toUInt32 <<< 24).toNat = 2 ^ 24 * b0.toNat := by
    rw [UInt32.toNat_shiftLeft, UInt8.toNat_toUInt32, e24, Nat.shiftLeft_eq]
    omega
  have hshift16 : (b1.toUInt32 <<< 16).toNat = 2 ^ 16 * b1.toNat := by
    rw [UInt32.toNat_shiftLeft, UInt8.toNat_toUInt32, e16, Nat.shiftLeft_eq]
    omega
  have hshift8 : (b2.toUInt32 <<< 8).toNat = 2 ^ 8 * b2.toNat := by
    rw [UInt32.toNat_shiftLeft, UInt8.toNat_toUInt32, e8, Nat.shiftLeft_eq]
    omega
  rw [UInt32.toNat_or, UInt32.toNat_or, UInt32.toNat_or, hshift24, hshift16, hshift8,
    UInt8.toNat_toUInt32, ← Nat.two_pow_add_eq_or_of_lt (i := 24) (by omega),
    show 2 ^ 24 * b0.toNat + 2 ^ 16 * b1.toNat = 2 ^ 16 * (2 ^ 8 * b0.toNat + b1.toNat) by omega,
    ← Nat.two_pow_add_eq_or_of_lt (i := 16) (by omega),
    show 2 ^ 16 * (2 ^ 8 * b0.toNat + b1.toNat) + 2 ^ 8 * b2.toNat =
      2 ^ 8 * (2 ^ 16 * b0.toNat + 2 ^ 8 * b1.toNat + b2.toNat) by omega,
    ← Nat.two_pow_add_eq_or_of_lt (i := 8) (by omega)]
  omega

/-- Octet `k` of a 32-bit word, `k = 0` the lowest. -/
theorem uint32_octet_toNat (v k : UInt32) (hk : k.toNat < 32) :
    ((v >>> k) &&& 0xFF).toUInt8.toNat = v.toNat / 2 ^ k.toNat % 256 := by
  have hff : (0xFF : UInt32).toNat = 255 := rfl
  rw [UInt32.toNat_toUInt8, UInt32.toNat_and, hff, and_0xFF, UInt32.toNat_shiftRight,
    Nat.mod_eq_of_lt hk, Nat.shiftRight_eq_div_pow]
  omega

/-- The octets of a 32-bit word make it up. -/
theorem uint32_octets_toNat (v : UInt32) :
    ((v >>> 24) &&& 0xFF).toUInt8.toNat * 2 ^ 24 + ((v >>> 16) &&& 0xFF).toUInt8.toNat * 2 ^ 16 +
      ((v >>> 8) &&& 0xFF).toUInt8.toNat * 2 ^ 8 + (v &&& 0xFF).toUInt8.toNat = v.toNat := by
  have hv := v.toNat_lt
  have h24 := uint32_octet_toNat v 24 (by decide)
  have h16 := uint32_octet_toNat v 16 (by decide)
  have h8 := uint32_octet_toNat v 8 (by decide)
  have h0 := uint32_octet_toNat v 0 (by decide)
  have hzero : v >>> 0 = v := by simp
  rw [hzero] at h0
  have e24 : (24 : UInt32).toNat = 24 := rfl
  have e16 : (16 : UInt32).toNat = 16 := rfl
  have e8 : (8 : UInt32).toNat = 8 := rfl
  have e0 : (0 : UInt32).toNat = 0 := rfl
  rw [h24, h16, h8, h0, e24, e16, e8, e0]
  omega

/-- Splitting a 32-bit word into its octets and joining them again. -/
theorem uint32_split_join (v : UInt32) :
    (((v >>> 24) &&& 0xFF).toUInt8.toUInt32 <<< 24) |||
      (((v >>> 16) &&& 0xFF).toUInt8.toUInt32 <<< 16) |||
      (((v >>> 8) &&& 0xFF).toUInt8.toUInt32 <<< 8) ||| (v &&& 0xFF).toUInt8.toUInt32 = v := by
  apply UInt32.toNat_inj.mp
  have hv := uint32_octets_toNat v
  rw [uint32_of_octets_toNat]
  omega

end Misc
