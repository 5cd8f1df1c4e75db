import GsupMapProxy.Gsup.Proofs.Bounds
import GsupMapProxy.Map.Proofs.RoundTrip

/-!
# The digit codecs on both sides

GSUP and MAP each pack and unpack the IMSI with loops of their own, and GSUP has a third pair for
ISDN numbers. They agree wherever more than one of them returns, so an IMSI is the same key on
both sides of the proxy. What an unpacker accepts is packed to the same bytes again unless a
filler stands before the last byte: then the digits behind it move up.
-/

namespace GsupMapProxy

open Misc

/-! ## Packing what was unpacked -/

/-- No byte but the last has a filler. -/
def FillerLast (bcd : Bytes) : Prop := ∀ byte ∈ bcd.dropLast, ¬ HasFiller byte

instance : DecidablePred FillerLast := fun bcd =>
  inferInstanceAs (Decidable (∀ byte ∈ bcd.dropLast, ¬ HasFiller byte))

theorem fillerLast_cons {byte : UInt8} {bcd : Bytes} (hne : bcd ≠ []) :
    FillerLast (byte :: bcd) ↔ ¬ HasFiller byte ∧ FillerLast bcd := by
  simp [FillerLast, List.dropLast_cons_of_ne_nil hne]

theorem unpackNibbles_packDigits {s : Str} (h : Digits s) : unpackNibbles (packDigits s) = s :=
  (unpackDigits_eq_ok_iff.mp (unpackDigits_packDigits (.runtimeError "") s h)).2

theorem packDigits_nibbles : ∀ byte : UInt8,
    packDigits [0x30 + (byte &&& 0x0F), (0x30 : UInt8) + ((byte >>> 4) &&& 0x0F)] = [byte] :=
  forall_octet (by decide +kernel)

theorem packDigits_nibble_filler :
    ∀ byte : UInt8, HasFiller byte → packDigits [0x30 + (byte &&& 0x0F)] = [byte] :=
  forall_octet (by decide +kernel)

/-- Two digits leave no room for the filler. -/
theorem not_hasFiller_of_digits {c0 c1 : UInt8} (h0 : IsDigit c0) (h1 : IsDigit c1) :
    ¬ HasFiller (((c1 - 0x30) <<< 4) ||| (c0 - 0x30)) := by
  obtain ⟨a, rfl⟩ := h0.exists_fin
  obtain ⟨b, rfl⟩ := h1.exists_fin
  rw [sub_zero_char, sub_zero_char, HasFiller, (nibbles_of_pair a b).2]
  exact (digit_le_nine b).2

/-- Behind a byte without filler the bytes are repacked on their own. -/
theorem packDigits_unpackNibbles_of_pair {byte : UInt8} (h : ¬ HasFiller byte) (bcd : Bytes) :
    packDigits (unpackNibbles (byte :: bcd)) = byte :: packDigits (unpackNibbles bcd) := by
  rw [unpackNibbles_of_pair h, packDigits, (List.cons.inj (packDigits_nibbles byte)).1]

/-- The digits of accepted bytes are packed to the same bytes exactly when the filler, if there is
one, stands in the last of them. -/
theorem packDigits_unpackNibbles_iff {bcd : Bytes} (h : Packed bcd) :
    packDigits (unpackNibbles bcd) = bcd ↔ FillerLast bcd := by
  induction bcd with
  | nil => exact iff_of_true rfl (by simp [FillerLast])
  | cons byte bcd ih =>
    obtain ⟨hholds, hpacked⟩ := packed_cons.mp h
    by_cases hfiller : HasFiller byte
    · cases bcd with
      | nil =>
        apply iff_of_true
        · rw [unpackNibbles_of_filler hfiller]
          exact packDigits_nibble_filler byte hfiller
        · simp [FillerLast]
      | cons next bcd =>
        -- the low digit of `next` moves up into the place of the filler
        apply iff_of_false
        · intro heq
          obtain ⟨out, hout⟩ := unpackNibbles_head next bcd
          rw [unpackNibbles_of_filler hfiller, hout, packDigits] at heq
          have hdigits := not_hasFiller_of_digits (isDigit_low byte hholds)
            (isDigit_low next (packed_cons.mp hpacked).1)
          rw [(List.cons.inj heq).1] at hdigits
          exact hdigits hfiller
        · intro hlast
          exact ((fillerLast_cons (List.cons_ne_nil next bcd)).mp hlast).1 hfiller
    · rw [packDigits_unpackNibbles_of_pair hfiller, List.cons.injEq, ih hpacked]
      cases bcd with
      | nil => simp [FillerLast]
      | cons next bcd => simp [fillerLast_cons, hfiller]

/-! ## The functions of the source -/

theorem Map.bcdToImsi_eq_ok_iff {bcd : Bytes} {imsi : Str} :
    Map.bcdToImsi bcd = .ok imsi ↔ Packed bcd ∧ unpackNibbles bcd = imsi :=
  unpackDigits_eq_ok_iff

theorem Gsup.bcdToImsi_eq_ok_iff {bcd : Bytes} {imsi : Str} :
    Gsup.bcdToImsi bcd = .ok imsi ↔ Map.bcdToImsi bcd = .ok imsi := by
  rw [Map.bcdToImsi_eq_ok_iff]
  exact unpackDigits_eq_ok_iff

theorem Map.bcdToImsi_accepts {bcd : Bytes} :
    (∃ imsi, Map.bcdToImsi bcd = .ok imsi) ↔ Packed bcd := by
  constructor
  · rintro ⟨imsi, h⟩
    exact (Map.bcdToImsi_eq_ok_iff.mp h).1
  · intro hpacked
    exact ⟨unpackNibbles bcd, Map.bcdToImsi_eq_ok_iff.mpr ⟨hpacked, rfl⟩⟩

theorem Map.imsiToBcd_bcdToImsi_iff {bcd : Bytes} {imsi : Str} (h : Map.bcdToImsi bcd = .ok imsi) :
    Map.imsiToBcd imsi = bcd ↔ FillerLast bcd := by
  obtain ⟨hpacked, rfl⟩ := Map.bcdToImsi_eq_ok_iff.mp h
  exact packDigits_unpackNibbles_iff hpacked

/-- The packed digit codecs of the two protocols agree and invert each other. -/
theorem digit_codecs_agree :
    (∀ d : Str, Digits d →
      Map.bcdToImsi (Map.imsiToBcd d) = .ok d ∧ Gsup.bcdToIsdn (Gsup.isdnToBcd d) = d) ∧
    (∀ d : Str, Digits d → 1 ≤ d.length → d.length ≤ 15 →
      Gsup.imsiToBcd d = .ok (Map.imsiToBcd d) ∧
      ∀ bcd, Gsup.imsiToBcd d = .ok bcd → Gsup.bcdToImsi bcd = .ok d) ∧
    (∀ bcd : Bytes,
      ((∃ imsi, Gsup.bcdToImsi bcd = .ok imsi) ↔ Packed bcd) ∧
      ((∃ imsi, Map.bcdToImsi bcd = .ok imsi) ↔ Packed bcd)) ∧
    (∀ bcd imsi, Gsup.bcdToImsi bcd = .ok imsi ↔ Map.bcdToImsi bcd = .ok imsi) ∧
    (∀ bcd imsi, Map.bcdToImsi bcd = .ok imsi →
      Digits imsi ∧ (Map.imsiToBcd imsi = bcd ↔ FillerLast bcd)) := by
  refine ⟨?_, ?_, ?_, ?_, ?_⟩
  · intro d hdigits
    exact ⟨Map.bcdToImsi_imsiToBcd hdigits, unpackNibbles_packDigits hdigits⟩
  · intro d hdigits hne hlen
    have hpack : Gsup.imsiToBcd d = .ok (Map.imsiToBcd d) :=
      Gsup.imsiToBcd_of_shortImsi (List.ne_nil_of_length_pos hne) ⟨hdigits, hlen⟩
    refine ⟨hpack, ?_⟩
    intro bcd hbcd
    rw [hpack] at hbcd
    cases hbcd
    exact Gsup.bcdToImsi_eq_ok_iff.mpr (Map.bcdToImsi_imsiToBcd hdigits)
  · intro bcd
    simp only [Gsup.bcdToImsi_eq_ok_iff]
    exact ⟨Map.bcdToImsi_accepts, Map.bcdToImsi_accepts⟩
  · intro bcd imsi
    exact Gsup.bcdToImsi_eq_ok_iff
  · intro bcd imsi h
    exact ⟨digits_of_unpackDigits h, Map.imsiToBcd_bcdToImsi_iff h⟩

/-- An IMSI with an odd count of digits, and bytes with the filler in front: these are accepted,
but packed again the digits close up. -/
theorem digit_codecs_agree_odd :
    Gsup.imsiToBcd [0x30, 0x30, 0x31, 0x30, 0x31] = .ok [0x00, 0x01, 0xF1] ∧
    Gsup.bcdToIsdn (Gsup.isdnToBcd [0x31, 0x32, 0x33]) = [0x31, 0x32, 0x33] ∧
    Map.bcdToImsi [0xF1, 0x32] = .ok [0x31, 0x32, 0x33] ∧
    Map.imsiToBcd [0x31, 0x32, 0x33] ≠ [0xF1, 0x32] := by
  obtain ⟨hinv, hagree, -, -, hrepack⟩ := digit_codecs_agree
  have hmap : Map.bcdToImsi [0xF1, 0x32] = .ok [0x31, 0x32, 0x33] := by decide +kernel
  refine ⟨?_, ?_, hmap, ?_⟩
  · exact (hagree [0x30, 0x30, 0x31, 0x30, 0x31] (by decide +kernel) (by decide) (by decide)).1
  · exact (hinv [0x31, 0x32, 0x33] (by decide +kernel)).2
  · intro heq
    have hlast : FillerLast [0xF1, 0x32] := (hrepack _ _ hmap).2.mp heq
    exact absurd hlast (by decide +kernel)

end GsupMapProxy
