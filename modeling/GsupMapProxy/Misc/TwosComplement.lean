import Mathlib.Algebra.Order.Ring.Int
import Mathlib.Data.List.Induction
import Mathlib.Tactic.Linarith
import Mathlib.Tactic.Ring

/-!
# Two's-complement octet strings

The value of an octet string, most significant octet first, as a natural number and as a
two's-complement integer. A string is minimal if its first nine bits are not all equal. Every
integer has exactly one minimal representation, and every other one is longer.
-/

namespace Misc

/-- The value of the octets as an unsigned number. -/
def octetsValue (bs : List UInt8) : Nat := bs.foldl (fun acc b => acc * 256 + b.toNat) 0

/-- The octets start with a set bit. -/
def SignBit (bs : List UInt8) : Prop := 128 ≤ (bs.headD 0).toNat

instance : DecidablePred SignBit := fun bs =>
  inferInstanceAs (Decidable (128 ≤ (bs.headD 0).toNat))

/-- The value of the octets as a two's-complement number. -/
def signedValue (bs : List UInt8) : Int :=
  (octetsValue bs : Int) - if SignBit bs then 256 ^ bs.length else 0

/-- The first nine bits, if there are so many, are not all equal. -/
def Minimal (bs : List UInt8) : Prop :=
  ∀ b0 b1 rest, bs = b0 :: b1 :: rest →
    ¬ (b0 = 0 ∧ b1.toNat < 128) ∧ ¬ (b0 = 0xFF ∧ 128 ≤ b1.toNat)

/-! ## Unsigned values -/

@[simp] theorem octetsValue_nil : octetsValue [] = 0 := rfl

@[simp] theorem octetsValue_singleton (b : UInt8) : octetsValue [b] = b.toNat := by
  simp [octetsValue]

theorem octetsValue_concat (bs : List UInt8) (b : UInt8) :
    octetsValue (bs ++ [b]) = octetsValue bs * 256 + b.toNat := by
  simp [octetsValue]

theorem foldl_octets (bs : List UInt8) (acc : Nat) :
    bs.foldl (fun acc b => acc * 256 + b.toNat) acc = acc * 256 ^ bs.length + octetsValue bs := by
  induction bs using List.reverseRecOn with
  | nil => simp
  | append_singleton bs b ih =>
    rw [List.foldl_append, ih, octetsValue_concat, List.length_append, List.length_singleton,
      pow_succ, List.foldl_cons, List.foldl_nil]
    ring

theorem octetsValue_cons (b : UInt8) (bs : List UInt8) :
    octetsValue (b :: bs) = b.toNat * 256 ^ bs.length + octetsValue bs := by
  rw [octetsValue, List.foldl_cons, foldl_octets, Nat.zero_mul, Nat.zero_add]

theorem octetsValue_lt (bs : List UInt8) : octetsValue bs < 256 ^ bs.length := by
  induction bs using List.reverseRecOn with
  | nil => simp
  | append_singleton bs b ih =>
    have hb := b.toNat_lt
    rw [octetsValue_concat, List.length_append, List.length_singleton, pow_succ]
    omega

/-- Strings of one length are told apart by their values. -/
theorem octetsValue_inj {xs ys : List UInt8} (hlen : xs.length = ys.length)
    (h : octetsValue xs = octetsValue ys) : xs = ys := by
  induction xs using List.reverseRecOn generalizing ys with
  | nil => exact (List.length_eq_zero_iff.mp hlen.symm).symm
  | append_singleton xs x ih =>
    rcases List.eq_nil_or_concat ys with rfl | ⟨ys, y, rfl⟩
    · simp at hlen
    · rw [List.concat_eq_append] at hlen h ⊢
      simp only [List.length_append, List.length_singleton] at hlen
      rw [octetsValue_concat, octetsValue_concat] at h
      have hx := x.toNat_lt
      have hy := y.toNat_lt
      have hlast : x = y := UInt8.toNat_inj.mp (by omega)
      have hinit : xs = ys := ih (Nat.succ_inj.mp hlen) (by omega)
      rw [hinit, hlast]

/-! ## Signed values -/

theorem signBit_cons (b : UInt8) (bs : List UInt8) : SignBit (b :: bs) ↔ 128 ≤ b.toNat :=
  Iff.rfl

theorem signedValue_singleton (b : UInt8) :
    signedValue [b] = (b.toNat : Int) - if 128 ≤ b.toNat then 256 else 0 := by
  rw [signedValue, octetsValue_singleton]
  rfl

theorem signedValue_concat {bs : List UInt8} (hne : bs ≠ []) (b : UInt8) :
    signedValue (bs ++ [b]) = signedValue bs * 256 + b.toNat := by
  obtain ⟨b0, bs, rfl⟩ := List.exists_cons_of_ne_nil hne
  have hsign : SignBit (b0 :: bs ++ [b]) ↔ SignBit (b0 :: bs) := Iff.rfl
  rw [signedValue, octetsValue_concat, signedValue, List.length_append, List.length_singleton,
    pow_succ]
  by_cases hs : SignBit (b0 :: bs)
  · rw [if_pos hs, if_pos (hsign.mpr hs)]
    push_cast
    ring
  · rw [if_neg hs, if_neg (fun h => hs (hsign.mp h))]
    push_cast
    ring

/-- The value of `n + 1` octets is that of a signed number of `n + 1` octets. -/
theorem signedValue_bounds {bs : List UInt8} {n : Nat} (hlen : bs.length = n + 1) :
    -(128 * 256 ^ n) ≤ signedValue bs ∧ signedValue bs < 128 * 256 ^ n := by
  induction n generalizing bs with
  | zero =>
    obtain ⟨b, rfl⟩ := List.length_eq_one_iff.mp hlen
    have hb := b.toNat_lt
    rw [signedValue_singleton]
    split <;> omega
  | succ n ih =>
    rcases List.eq_nil_or_concat bs with rfl | ⟨bs, b, rfl⟩
    · cases hlen
    · rw [List.concat_eq_append] at hlen ⊢
      simp only [List.length_append, List.length_singleton] at hlen
      have hne : bs ≠ [] := by
        rintro rfl
        simp at hlen
      have hb := b.toNat_lt
      obtain ⟨hlo, hhi⟩ := ih (show bs.length = n + 1 by omega)
      rw [signedValue_concat hne, pow_succ]
      constructor <;> omega

theorem signedValue_inj {xs ys : List UInt8} (hlen : xs.length = ys.length)
    (h : signedValue xs = signedValue ys) : xs = ys := by
  apply octetsValue_inj hlen
  have hx := octetsValue_lt xs
  have hy := octetsValue_lt ys
  rw [← hlen] at hy
  have hx' : (octetsValue xs : Int) < 256 ^ xs.length := by exact_mod_cast hx
  have hy' : (octetsValue ys : Int) < 256 ^ xs.length := by exact_mod_cast hy
  rw [signedValue, signedValue, ← hlen] at h
  split at h <;> split at h <;> omega

/-! ## Minimal strings -/

theorem minimal_singleton (b : UInt8) : Minimal [b] := by
  intro b0 b1 rest h
  cases h

theorem minimal_cons_cons (b0 b1 : UInt8) (rest : List UInt8) :
    Minimal (b0 :: b1 :: rest) ↔
      ¬ (b0 = 0 ∧ b1.toNat < 128) ∧ ¬ (b0 = 0xFF ∧ 128 ≤ b1.toNat) := by
  constructor
  · intro h
    exact h b0 b1 rest rfl
  · rintro h c0 c1 rest' heq
    cases heq
    exact h

/-- Octets further down do not matter. -/
theorem minimal_append {bs : List UInt8} (h : 2 ≤ bs.length) (tail : List UInt8) :
    Minimal (bs ++ tail) ↔ Minimal bs := by
  rcases bs with _ | ⟨b0, _ | ⟨b1, rest⟩⟩
  · simp at h
  · simp at h
  · rw [List.cons_append, List.cons_append, minimal_cons_cons, minimal_cons_cons]

/-- A string of two octets or more is minimal if one octet less cannot hold its value. -/
theorem minimal_iff_bounds {bs : List UInt8} {n : Nat} (hlen : bs.length = n + 2) :
    Minimal bs ↔ ¬ (-(128 * 256 ^ n) ≤ signedValue bs ∧ signedValue bs < 128 * 256 ^ n) := by
  induction n generalizing bs with
  | zero =>
    obtain ⟨b0, tail, rfl⟩ := List.exists_cons_of_length_eq_add_one hlen
    obtain ⟨b1, rfl⟩ := List.length_eq_one_iff.mp (Nat.succ_inj.mp hlen)
    have h0 := b0.toNat_lt
    have h1 := b1.toNat_lt
    have hzero : b0 = 0 ↔ b0.toNat = 0 := (UInt8.toNat_inj (b := 0)).symm
    have hff : b0 = 0xFF ↔ b0.toNat = 255 := (UInt8.toNat_inj (b := 0xFF)).symm
    rw [minimal_cons_cons, hzero, hff, show [b0, b1] = [b0] ++ [b1] from rfl,
      signedValue_concat (by simp), signedValue_singleton]
    split <;> omega
  | succ n ih =>
    rcases List.eq_nil_or_concat bs with rfl | ⟨bs, b, rfl⟩
    · cases hlen
    · rw [List.concat_eq_append] at hlen ⊢
      simp only [List.length_append, List.length_singleton] at hlen
      have hne : bs ≠ [] := by
        rintro rfl
        simp at hlen
      have hb := b.toNat_lt
      rw [minimal_append (by omega), ih (show bs.length = n + 2 by omega), signedValue_concat hne,
        pow_succ]
      constructor <;> intro h <;> omega

/-- No string with the same value is shorter than a minimal one. -/
theorem Minimal.length_le {xs ys : List UInt8} (hmin : Minimal xs) (hne : ys ≠ [])
    (h : signedValue xs = signedValue ys) : xs.length ≤ ys.length := by
  obtain ⟨m, hm⟩ : ∃ m, ys.length = m + 1 :=
    ⟨ys.length - 1, by have := List.length_pos_iff.mpr hne; omega⟩
  by_contra hlt
  obtain ⟨n, hn⟩ : ∃ n, xs.length = n + 2 := ⟨xs.length - 2, by omega⟩
  obtain ⟨hlo, hhi⟩ := signedValue_bounds hm
  have hpow : (256 : Int) ^ m ≤ 256 ^ n := pow_le_pow_right₀ (by omega) (by omega)
  apply (minimal_iff_bounds hn).mp hmin
  rw [h]
  constructor <;> omega

/-- A minimal string is the only shortest one with its value. -/
theorem Minimal.shortest {xs ys : List UInt8} (hmin : Minimal xs) (hys : ys ≠ [])
    (h : signedValue xs = signedValue ys) : xs.length < ys.length ∨ ys = xs := by
  rcases Nat.lt_or_eq_of_le (hmin.length_le hys h) with hlt | heq
  · exact .inl hlt
  · exact .inr (signedValue_inj heq h).symm

theorem Minimal.eq {xs ys : List UInt8} (hx : Minimal xs) (hy : Minimal ys) (hxs : xs ≠ [])
    (hys : ys ≠ []) (h : signedValue xs = signedValue ys) : xs = ys :=
  signedValue_inj (Nat.le_antisymm (hx.length_le hys h) (hy.length_le hxs h.symm)) h

/-- How long a minimal string is, from how large its value is. -/
theorem Minimal.length_le_of_bounds {bs : List UInt8} {n : Nat} (hmin : Minimal bs)
    (hlo : -(128 * 256 ^ n) ≤ signedValue bs) (hhi : signedValue bs < 128 * 256 ^ n) :
    bs.length ≤ n + 1 := by
  by_contra hlt
  obtain ⟨m, hm⟩ : ∃ m, bs.length = m + 2 := ⟨bs.length - 2, by omega⟩
  have hpow : (256 : Int) ^ n ≤ 256 ^ m := pow_le_pow_right₀ (by omega) (by omega)
  apply (minimal_iff_bounds hm).mp hmin
  constructor <;> omega

end Misc
