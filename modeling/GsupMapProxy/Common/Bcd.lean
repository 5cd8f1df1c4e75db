import GsupMapProxy.Common.Buffer
import GsupMapProxy.Misc.BigEndian

/-!
# Packed BCD digits

Four functions of the source pack a digit string two digits to a byte, first digit in the low
nibble, filler `0xF` in the high nibble of the last byte when the count is odd
(`gsup::imsiToBcd` and `isdnToBcd`, `GsupCodec.cpp:9-57`; `map::imsiToBcd`,
`MapCodec.cpp:47-57`; `sccp::packBcd`, `ScccpCodec.cpp:11-21`), and two unpack it with the same
checks (`GsupCodec.cpp:28-42`, `MapCodec.cpp:59-72`), one without any (`GsupCodec.cpp:58-69`).
`packDigits`, `unpackDigits` and `unpackNibbles` are the bodies; each function is declared in its
own module.
-/

namespace GsupMapProxy

/-- The loop of the packers. No character is checked: `c - '0'` is narrowed to a byte. -/
def packDigits : Str → Bytes
  | [] => []
  | [d] => [((0x0F : UInt8) <<< 4) ||| (d - 0x30)]
  | d0 :: d1 :: ds => (((d1 - 0x30) <<< 4) ||| (d0 - 0x30)) :: packDigits ds

/-- The loop of the unpackers, throwing `bad` at the first nibble that is no digit. -/
def unpackDigits (bad : Exn) : Bytes → Except Exn Str
  | [] => .ok []
  | byte :: bcd =>
      let lo := byte &&& 0x0F
      let hi := (byte >>> 4) &&& 0x0F
      if lo > 9 then .error bad
      else if hi ≠ 0x0F then
        if hi > 9 then .error bad
        else do
          let out ← unpackDigits bad bcd
          return (0x30 + lo) :: (0x30 + hi) :: out
      else do
        let out ← unpackDigits bad bcd
        return (0x30 + lo) :: out

/-- The loop of `gsup::bcdToIsdn` (`GsupCodec.cpp:62-67`), which takes any nibble for a digit. -/
def unpackNibbles : Bytes → Str
  | [] => []
  | byte :: bcd =>
      let lo := byte &&& 0x0F
      let hi := (byte >>> 4) &&& 0x0F
      if hi ≠ 0x0F then (0x30 + lo) :: (0x30 + hi) :: unpackNibbles bcd
      else (0x30 + lo) :: unpackNibbles bcd

/-- A decimal digit character. -/
def IsDigit (c : UInt8) : Prop := 0x30 ≤ c ∧ c ≤ 0x39

instance : DecidablePred IsDigit := fun c => inferInstanceAs (Decidable (0x30 ≤ c ∧ c ≤ 0x39))

/-- A string of decimal digits. -/
def Digits (s : Str) : Prop := ∀ c ∈ s, IsDigit c

instance : DecidablePred Digits := fun s => inferInstanceAs (Decidable (∀ c ∈ s, IsDigit c))

theorem digits_nil : Digits [] := by simp [Digits]

theorem digits_cons {c : UInt8} {s : Str} : Digits (c :: s) ↔ IsDigit c ∧ Digits s := by
  simp [Digits]

/-! ## Packed bytes -/

/-- The filler in the place of the second digit. -/
def HasFiller (byte : UInt8) : Prop := (byte >>> 4) &&& 0x0F = 0x0F

instance : DecidablePred HasFiller :=
  fun byte => inferInstanceAs (Decidable ((byte >>> 4) &&& 0x0F = 0x0F))

/-- Two digits, or one and the filler. -/
def HoldsDigits (byte : UInt8) : Prop :=
  byte &&& 0x0F ≤ 9 ∧ ((byte >>> 4) &&& 0x0F ≤ 9 ∨ HasFiller byte)

instance : DecidablePred HoldsDigits := fun byte =>
  inferInstanceAs (Decidable (byte &&& 0x0F ≤ 9 ∧ ((byte >>> 4) &&& 0x0F ≤ 9 ∨ HasFiller byte)))

/-- Every byte holds digits. -/
def Packed (bcd : Bytes) : Prop := ∀ byte ∈ bcd, HoldsDigits byte

instance : DecidablePred Packed := fun bcd =>
  inferInstanceAs (Decidable (∀ byte ∈ bcd, HoldsDigits byte))

theorem packed_nil : Packed [] := by simp [Packed]

theorem packed_cons {byte : UInt8} {bcd : Bytes} :
    Packed (byte :: bcd) ↔ HoldsDigits byte ∧ Packed bcd := by
  simp [Packed]

/-! ## Nibbles and digits -/

/-- What a packed byte holds, checked over the hundred digit pairs. -/
theorem nibbles_of_pair :
    ∀ a b : Fin 10,
      let byte : UInt8 := (UInt8.ofNat b.val <<< 4) ||| UInt8.ofNat a.val
      byte &&& 0x0F = UInt8.ofNat a.val ∧ (byte >>> 4) &&& 0x0F = UInt8.ofNat b.val := by
  decide +kernel

theorem nibbles_of_last :
    ∀ a : Fin 10,
      let byte : UInt8 := ((0x0F : UInt8) <<< 4) ||| UInt8.ofNat a.val
      byte &&& 0x0F = UInt8.ofNat a.val ∧ (byte >>> 4) &&& 0x0F = 0x0F := by
  decide +kernel

theorem IsDigit.exists_fin {c : UInt8} (h : IsDigit c) :
    ∃ a : Fin 10, c = 0x30 + UInt8.ofNat a.val := by
  obtain ⟨h1, h2⟩ := h
  rw [UInt8.le_iff_toNat_le] at h1 h2
  have e1 : (0x30 : UInt8).toNat = 48 := rfl
  have e2 : (0x39 : UInt8).toNat = 57 := rfl
  rw [e1] at h1
  rw [e2] at h2
  refine ⟨⟨c.toNat - 48, by omega⟩, ?_⟩
  apply UInt8.toNat_inj.mp
  rw [UInt8.toNat_add, UInt8.toNat_ofNat', e1]
  simp only [Nat.reducePow]
  omega

theorem sub_zero_char (a : Fin 10) :
    (0x30 + UInt8.ofNat a.val : UInt8) - 0x30 = UInt8.ofNat a.val := by
  revert a; decide +kernel

theorem digit_le_nine (a : Fin 10) : ¬ (UInt8.ofNat a.val > 9) ∧ UInt8.ofNat a.val ≠ 0x0F := by
  revert a; decide +kernel

theorem isDigit_low : ∀ byte : UInt8, HoldsDigits byte → IsDigit (0x30 + (byte &&& 0x0F)) :=
  Misc.forall_octet (by decide +kernel)

theorem isDigit_high : ∀ byte : UInt8, HoldsDigits byte → ¬ HasFiller byte →
    IsDigit ((0x30 : UInt8) + ((byte >>> 4) &&& 0x0F)) :=
  Misc.forall_octet (by decide +kernel)

/-! ## The loops -/

/-- Packing digits and unpacking them again gives them back, whatever the count. -/
theorem unpackDigits_packDigits (bad : Exn) :
    ∀ s : Str, Digits s → unpackDigits bad (packDigits s) = .ok s := by
  intro s
  induction s using packDigits.induct with
  | case1 => intro _; rfl
  | case2 d =>
    intro h
    obtain ⟨a, rfl⟩ := (h d (by simp)).exists_fin
    obtain ⟨hlo, hhi⟩ := nibbles_of_last a
    simp only [packDigits, sub_zero_char, unpackDigits, hlo, hhi]
    simp [(digit_le_nine a).1]
  | case3 d0 d1 ds ih =>
    intro h
    obtain ⟨a, rfl⟩ := (h d0 (by simp)).exists_fin
    obtain ⟨b, rfl⟩ := (h d1 (by simp)).exists_fin
    obtain ⟨hlo, hhi⟩ := nibbles_of_pair a b
    have hrest := ih (fun c hc => h c (by simp [hc]))
    simp only [packDigits, sub_zero_char, unpackDigits, hlo, hhi, hrest]
    simp [(digit_le_nine a).1, (digit_le_nine b).1, (digit_le_nine b).2]

section

variable {bad : Exn} {byte : UInt8} {bcd : Bytes}

theorem unpackNibbles_of_filler (h : HasFiller byte) :
    unpackNibbles (byte :: bcd) = (0x30 + (byte &&& 0x0F)) :: unpackNibbles bcd :=
  if_neg (not_not.mpr h)

theorem unpackNibbles_of_pair (h : ¬ HasFiller byte) :
    unpackNibbles (byte :: bcd) =
      (0x30 + (byte &&& 0x0F)) :: ((0x30 : UInt8) + ((byte >>> 4) &&& 0x0F)) :: unpackNibbles bcd :=
  if_pos h

/-- Each byte is unpacked on its own. -/
theorem unpackNibbles_cons (byte : UInt8) (bcd : Bytes) :
    unpackNibbles (byte :: bcd) = unpackNibbles [byte] ++ unpackNibbles bcd := by
  by_cases hfiller : HasFiller byte
  · rw [unpackNibbles_of_filler hfiller, unpackNibbles_of_filler hfiller]
    rfl
  · rw [unpackNibbles_of_pair hfiller, unpackNibbles_of_pair hfiller]
    rfl

theorem unpackNibbles_head (byte : UInt8) (bcd : Bytes) :
    ∃ out, unpackNibbles (byte :: bcd) = (0x30 + (byte &&& 0x0F)) :: out := by
  by_cases hfiller : HasFiller byte
  · exact ⟨_, unpackNibbles_of_filler hfiller⟩
  · exact ⟨_, unpackNibbles_of_pair hfiller⟩

/-- A byte that holds no digits ends the loop, whatever stands behind it. -/
theorem unpackDigits_of_not_holds (h : ¬ HoldsDigits byte) :
    unpackDigits bad (byte :: bcd) = .error bad := by
  rw [unpackDigits]
  by_cases hlo : byte &&& 0x0F > 9
  · rw [if_pos hlo]
  · have hle : byte &&& 0x0F ≤ 9 := UInt8.not_lt.mp hlo
    have hfiller : (byte >>> 4) &&& 0x0F ≠ 0x0F := fun heq => h ⟨hle, .inr heq⟩
    have hhi : (byte >>> 4) &&& 0x0F > 9 :=
      UInt8.not_le.mp fun hhi => h ⟨hle, .inl hhi⟩
    rw [if_neg hlo, if_pos hfiller, if_pos hhi]

/-- A byte that holds digits passes the checks, and adds what the unchecked loop adds. -/
theorem unpackDigits_of_holds (h : HoldsDigits byte) :
    unpackDigits bad (byte :: bcd) =
      (unpackDigits bad bcd).map fun out => unpackNibbles [byte] ++ out := by
  obtain ⟨hlo, hhi⟩ := h
  rw [unpackDigits, if_neg (UInt8.not_lt.mpr hlo)]
  by_cases hfiller : (byte >>> 4) &&& 0x0F = 0x0F
  · rw [if_neg (not_not.mpr hfiller), unpackNibbles_of_filler hfiller]
    cases unpackDigits bad bcd with
    | error e => rfl
    | ok out => rfl
  · rw [if_pos hfiller, if_neg (UInt8.not_lt.mpr (hhi.resolve_right hfiller)),
      unpackNibbles_of_pair hfiller]
    cases unpackDigits bad bcd with
    | error e => rfl
    | ok out => rfl

end

/-- The checks refuse what is not packed and change nothing else. -/
theorem unpackDigits_eq (bad : Exn) (bcd : Bytes) :
    unpackDigits bad bcd = if Packed bcd then .ok (unpackNibbles bcd) else .error bad := by
  induction bcd with
  | nil =>
    rw [if_pos packed_nil]
    rfl
  | cons byte bcd ih =>
    by_cases hholds : HoldsDigits byte
    · rw [unpackDigits_of_holds hholds, ih]
      by_cases hpacked : Packed bcd
      · rw [if_pos hpacked, if_pos (packed_cons.mpr ⟨hholds, hpacked⟩), unpackNibbles_cons byte bcd]
        rfl
      · rw [if_neg hpacked, if_neg fun h => hpacked (packed_cons.mp h).2]
        rfl
    · rw [unpackDigits_of_not_holds hholds, if_neg fun h => hholds (packed_cons.mp h).1]

theorem unpackDigits_eq_ok_iff {bad : Exn} {bcd : Bytes} {s : Str} :
    unpackDigits bad bcd = .ok s ↔ Packed bcd ∧ unpackNibbles bcd = s := by
  rw [unpackDigits_eq]
  by_cases hpacked : Packed bcd
  · simp [hpacked]
  · simp [hpacked]

theorem digits_of_unpackNibbles {bcd : Bytes} (h : Packed bcd) : Digits (unpackNibbles bcd) := by
  induction bcd with
  | nil => exact digits_nil
  | cons byte bcd ih =>
    obtain ⟨hholds, hpacked⟩ := packed_cons.mp h
    have hrest := ih hpacked
    have hlo := isDigit_low byte hholds
    by_cases hfiller : HasFiller byte
    · rw [unpackNibbles_of_filler hfiller]
      exact digits_cons.mpr ⟨hlo, hrest⟩
    · rw [unpackNibbles_of_pair hfiller]
      exact digits_cons.mpr ⟨hlo, digits_cons.mpr ⟨isDigit_high byte hholds hfiller, hrest⟩⟩

/-- Whatever the bytes, an unpacked string consists of decimal digits. -/
theorem digits_of_unpackDigits {bad : Exn} {bcd : Bytes} {s : Str}
    (h : unpackDigits bad bcd = .ok s) : Digits s := by
  obtain ⟨hpacked, rfl⟩ := unpackDigits_eq_ok_iff.mp h
  exact digits_of_unpackNibbles hpacked

theorem packDigits_length : ∀ s : Str, (packDigits s).length = (s.length + 1) / 2 := by
  intro s
  induction s using packDigits.induct with
  | case1 => rfl
  | case2 d => simp [packDigits]
  | case3 d0 d1 ds ih =>
    simp only [packDigits, List.length_cons, ih]
    omega

theorem unpackNibbles_length (bcd : Bytes) : (unpackNibbles bcd).length ≤ 2 * bcd.length := by
  induction bcd with
  | nil => simp [unpackNibbles]
  | cons byte bcd ih =>
    by_cases hfiller : HasFiller byte
    · rw [unpackNibbles_of_filler hfiller]
      simp only [List.length_cons]
      omega
    · rw [unpackNibbles_of_pair hfiller]
      simp only [List.length_cons]
      omega

/-- A string unpacked from `n` bytes has at most `2 n` digits. -/
theorem unpackDigits_length {bad : Exn} {bcd : Bytes} {s : Str}
    (h : unpackDigits bad bcd = .ok s) : s.length ≤ 2 * bcd.length := by
  obtain ⟨-, rfl⟩ := unpackDigits_eq_ok_iff.mp h
  exact unpackNibbles_length bcd

end GsupMapProxy
