import GsupMapProxy.Ipa.Codec
import GsupMapProxy.Misc.BigEndian

/-!
# What the IPA decoder accepts

A buffer from which `next` never throws is a sequence of frames with length fields from 1 to
`kMaxIpaWireLen`, followed by the beginning of one more.
-/

namespace GsupMapProxy.Ipa

open Misc

/-- The beginning of a frame with a valid length field, or of its header. -/
inductive Incomplete : Bytes → Prop
  | header {bs : Bytes} (h : bs.length < kHeaderSize) : Incomplete bs
  | payload {b0 b1 streamId : UInt8} {bs : Bytes} (hpos : 0 < (wireLength b0 b1).toNat)
      (hmax : (wireLength b0 b1).toNat ≤ kMaxIpaWireLen.toNat)
      (hmore : bs.length + 1 < (wireLength b0 b1).toNat) : Incomplete (b0 :: b1 :: streamId :: bs)

/-- The payload is one the decoder takes. -/
def IpaFrame.Fits (frame : IpaFrame) : Prop := frame.payload.length < kMaxIpaWireLen.toNat

/-- A sequence of whole frames, and the beginning of one more. -/
def WellFramed (buf : Bytes) : Prop :=
  ∃ (frames : List IpaFrame) (rest : Bytes),
    buf = frames.flatMap IpaFrame.wire ++ rest ∧ (∀ f ∈ frames, f.Fits) ∧ Incomplete rest

theorem kMaxIpaWireLen_toNat : kMaxIpaWireLen.toNat = 4096 := rfl

theorem wireLength_toNat (b0 b1 : UInt8) :
    (wireLength b0 b1).toNat = b0.toNat * 256 + b1.toNat :=
  uint16_of_octets_toNat b0 b1

/-- The header of a frame that fits holds its length. -/
theorem IpaFrame.wire_eq {frame : IpaFrame} (h : frame.Fits) :
    ∃ b0 b1, frame.wire = b0 :: b1 :: frame.streamId :: frame.payload ∧
      (wireLength b0 b1).toNat = frame.payload.length + 1 := by
  rw [IpaFrame.Fits, kMaxIpaWireLen_toNat] at h
  refine ⟨_, _, rfl, ?_⟩
  have hlen : (UInt16.ofNat (frame.payload.length + 1)).toNat = frame.payload.length + 1 := by
    rw [UInt16.toNat_ofNat', Nat.mod_eq_of_lt (by omega)]
  rw [wireLength_toNat, uint16_hi_masked_toNat, uint16_lo_toNat, hlen]
  omega

/-- Conversely, a header with the right length is the one `encode` writes. -/
theorem IpaFrame.wire_of_length {b0 b1 streamId : UInt8} {payload : Bytes}
    (h : (wireLength b0 b1).toNat = payload.length + 1) :
    IpaFrame.wire ⟨streamId, payload⟩ = b0 :: b1 :: streamId :: payload := by
  have h0 := b0.toNat_lt
  have h1 := b1.toNat_lt
  have hlt := (wireLength b0 b1).toNat_lt
  have hlen : UInt16.ofNat (payload.length + 1) = wireLength b0 b1 := by
    rw [← h, UInt16.ofNat_toNat]
  have hhi : ((wireLength b0 b1 >>> 8) &&& 0xFF).toUInt8 = b0 := by
    apply UInt8.toNat_inj.mp
    rw [uint16_hi_masked_toNat, wireLength_toNat]
    omega
  have hlo : (wireLength b0 b1 &&& 0xFF).toUInt8 = b1 := by
    apply UInt8.toNat_inj.mp
    rw [uint16_lo_toNat, wireLength_toNat]
    omega
  rw [IpaFrame.wire]
  dsimp only
  rw [hlen, hhi, hlo]
  rfl

/-! ## One call of `next` -/

theorem next_wire {frame : IpaFrame} (h : frame.Fits) (rest : Bytes) :
    IpaDecoder.next (frame.wire ++ rest) = (.ok (some frame), rest) := by
  obtain ⟨b0, b1, hwire, hlen⟩ := IpaFrame.wire_eq h
  rw [IpaFrame.Fits] at h
  have hne : wireLength b0 b1 ≠ 0 := by
    intro h0
    rw [h0] at hlen
    cases hlen
  have hmax : ¬ wireLength b0 b1 > kMaxIpaWireLen := by
    rw [gt_iff_lt, UInt16.lt_iff_toNat_lt, hlen]
    omega
  rw [hwire, List.cons_append, List.cons_append, List.cons_append, IpaDecoder.next]
  dsimp only
  have hsize : kHeaderSize + (wireLength b0 b1).toNat - 1 = frame.payload.length + 1 + 1 + 1 := by
    rw [hlen, kHeaderSize]
    omega
  rw [if_neg hne, if_neg hmax, hsize, if_neg (by simp)]
  simp [kHeaderSize]

theorem next_incomplete {buf : Bytes} (h : Incomplete buf) :
    IpaDecoder.next buf = (.ok none, buf) := by
  cases h with
  | header h =>
    unfold IpaDecoder.next
    split
    · simp only [List.length_cons, kHeaderSize] at h
      omega
    · rfl
  | @payload b0 b1 streamId bs hpos hmax hmore =>
    have hne : wireLength b0 b1 ≠ 0 := by
      intro h0
      rw [h0] at hpos
      cases hpos
    have hle : ¬ wireLength b0 b1 > kMaxIpaWireLen := by
      rw [gt_iff_lt, UInt16.lt_iff_toNat_lt]
      omega
    have hshort : (b0 :: b1 :: streamId :: bs).length <
        kHeaderSize + (wireLength b0 b1).toNat - 1 := by
      simp only [List.length_cons, kHeaderSize]
      omega
    rw [IpaDecoder.next]
    dsimp only
    rw [if_neg hne, if_neg hle, if_pos hshort]

/-- `next` inverted: what a buffer looks like when `next` does not throw. -/
theorem next_cases {buf rest : Bytes} {result : Option IpaFrame}
    (h : IpaDecoder.next buf = (.ok result, rest)) :
    (result = none ∧ rest = buf ∧ Incomplete buf) ∨
      ∃ frame, result = some frame ∧ frame.Fits ∧ buf = frame.wire ++ rest := by
  unfold IpaDecoder.next at h
  split at h
  · rename_i b0 b1 streamId bs
    dsimp only at h
    split at h
    · cases h
    rename_i hne
    split at h
    · cases h
    rename_i hmax
    have hpos : 0 < (wireLength b0 b1).toNat := by
      rw [Nat.pos_iff_ne_zero]
      intro h0
      exact hne (UInt16.toNat_inj.mp h0)
    rw [gt_iff_lt, UInt16.lt_iff_toNat_lt] at hmax
    split at h
    · rename_i hshort
      cases h
      simp only [List.length_cons, kHeaderSize] at hshort
      exact .inl ⟨rfl, rfl, .payload hpos (by omega) (by omega)⟩
    · rename_i hlong
      simp only [List.length_cons, kHeaderSize] at hlong
      simp only [Prod.mk.injEq, Except.ok.injEq] at h
      obtain ⟨rfl, rfl⟩ := h
      obtain ⟨n, hn⟩ : ∃ n, (wireLength b0 b1).toNat = n + 1 :=
        ⟨(wireLength b0 b1).toNat - 1, by omega⟩
      have hpayload : ((b0 :: b1 :: streamId :: bs).take
          (kHeaderSize + (wireLength b0 b1).toNat - 1)).drop kHeaderSize = bs.take n := by
        rw [hn, kHeaderSize, show 3 + (n + 1) - 1 = n + 1 + 1 + 1 by omega]
        rfl
      have hrest : (b0 :: b1 :: streamId :: bs).drop
          (kHeaderSize + (wireLength b0 b1).toNat - 1) = bs.drop n := by
        rw [hn, kHeaderSize, show 3 + (n + 1) - 1 = n + 1 + 1 + 1 by omega]
        rfl
      have hlen : (bs.take n).length = n := by
        rw [List.length_take]
        omega
      refine .inr ⟨_, rfl, ?_, ?_⟩
      · rw [IpaFrame.Fits, hpayload, hlen]
        omega
      · rw [hpayload, hrest, IpaFrame.wire_of_length (by rw [hlen, hn]), List.cons_append,
          List.cons_append, List.cons_append, List.take_append_drop]
  · rename_i hshort
    cases h
    refine .inl ⟨rfl, rfl, .header ?_⟩
    match buf, hshort with
    | [], _ => simp [kHeaderSize]
    | [_], _ => simp [kHeaderSize]
    | [_, _], _ => simp [kHeaderSize]
    | b0 :: b1 :: b2 :: bs, hshort => exact absurd rfl (hshort b0 b1 b2 bs)

theorem next_shrinking : Shrinking IpaDecoder.next := by
  intro buf frame rest h
  rcases next_cases h with ⟨hnone, -⟩ | ⟨frame', -, hfits, rfl⟩
  · cases hnone
  · obtain ⟨b0, b1, hwire, -⟩ := IpaFrame.wire_eq hfits
    rw [hwire]
    simp only [List.cons_append, List.length_cons, List.length_append]
    omega

/-! ## The whole buffer -/

/-- The frames the decoder yields are those the buffer is made of. -/
theorem yields_iff {buf rest : Bytes} {frames : List IpaFrame} :
    Yields IpaDecoder.next buf frames rest ↔
      buf = frames.flatMap IpaFrame.wire ++ rest ∧ (∀ f ∈ frames, f.Fits) ∧ Incomplete rest := by
  constructor
  · intro h
    induction h with
    | wait h =>
      rcases next_cases h with ⟨-, rfl, hinc⟩ | ⟨frame, hsome, -⟩
      · exact ⟨rfl, by simp, hinc⟩
      · cases hsome
    | frame h later ih =>
      obtain ⟨rfl, hfits, hinc⟩ := ih
      rcases next_cases h with ⟨hnone, -⟩ | ⟨frame, hsome, hfit, rfl⟩
      · cases hnone
      · cases hsome
        refine ⟨by rw [List.flatMap_cons, List.append_assoc], ?_, hinc⟩
        intro f hf
        rcases List.mem_cons.mp hf with rfl | hf
        · exact hfit
        · exact hfits f hf
  · rintro ⟨rfl, hfits, hinc⟩
    induction frames with
    | nil => exact .wait (next_incomplete hinc)
    | cons frame frames ih =>
      rw [List.flatMap_cons, List.append_assoc]
      refine .frame (next_wire (hfits frame (by simp)) _) (ih ?_)
      intro f hf
      exact hfits f (by simp [hf])

theorem wellFramed_iff {buf : Bytes} :
    WellFramed buf ↔ ∃ frames rest, Yields IpaDecoder.next buf frames rest := by
  simp only [yields_iff, WellFramed]

/-! ## The encoder against the decoder

`encode` refuses a payload only from 65536 bytes on. The decoder's limit is `kMaxIpaWireLen`, and
at 65535 bytes the length field, which counts the stream byte too, is 0.
-/

/-- `encode` throws, or a fresh decoder fed with its bytes gives the frame back in one call of
`next` and keeps nothing. -/
def ThrowsOrDecodes (streamId : UInt8) (payload : Bytes) : Prop :=
  (∃ e, encode streamId payload = .error e) ∨
    ∃ wire, encode streamId payload = .ok wire ∧
      IpaDecoder.next (IpaDecoder.feed [] wire) = (.ok (some ⟨streamId, payload⟩), [])

theorem encode_eq_ok {streamId : UInt8} {payload wire : Bytes} :
    encode streamId payload = .ok wire ↔
      payload.length ≤ 0xFFFF ∧ wire = IpaFrame.wire ⟨streamId, payload⟩ := by
  unfold encode
  split
  · rename_i hlong
    simp only [reduceCtorEq, false_iff, not_and]
    omega
  · rename_i hshort
    rw [Except.ok.injEq, eq_comm]
    exact ⟨fun h => ⟨by omega, h⟩, fun h => h.2⟩

/-- A frame the decoder yields is one that fits. -/
theorem next_fits {buf rest : Bytes} {frame : IpaFrame}
    (h : IpaDecoder.next buf = (.ok (some frame), rest)) : frame.Fits := by
  rcases next_cases h with ⟨hnone, -⟩ | ⟨frame', hsome, hfits, -⟩
  · cases hnone
  · cases hsome
    exact hfits

theorem ThrowsOrDecodes.length {streamId : UInt8} {payload : Bytes}
    (h : ThrowsOrDecodes streamId payload) :
    payload.length < kMaxIpaWireLen.toNat ∨ 0xFFFF < payload.length := by
  rcases h with ⟨e, hthrows⟩ | ⟨wire, -, hnext⟩
  · right
    unfold encode at hthrows
    split at hthrows
    · assumption
    · cases hthrows
  · left
    exact next_fits hnext

/-- What `encode` returns is what its own decoder accepts exactly for the payloads below the
decoder's limit; the others it has to throw for, and does from 65536 bytes on. -/
theorem encode_throwsOrDecodes_iff (streamId : UInt8) (payload : Bytes) :
    ThrowsOrDecodes streamId payload ↔
      payload.length < kMaxIpaWireLen.toNat ∨ 0xFFFF < payload.length := by
  constructor
  · exact ThrowsOrDecodes.length
  · rintro (hfits | hlong)
    · refine .inr ⟨_, encode_eq_ok.mpr ⟨?_, rfl⟩, ?_⟩
      · rw [kMaxIpaWireLen_toNat] at hfits
        omega
      · have hframe : IpaFrame.Fits ⟨streamId, payload⟩ := hfits
        have hnext := next_wire hframe []
        rwa [List.append_nil] at hnext
    · exact .inl ⟨_, if_pos hlong⟩

/-- A payload of 65535 bytes is encoded with the length field 0, which the decoder throws at. -/
theorem length_field_wraps :
    ∃ wire, encode kStreamGsup (List.replicate 0xFFFF 0) = .ok wire ∧
      IpaDecoder.next (IpaDecoder.feed [] wire) =
        (.error (.runtimeError "IPA: zero-length wire frame"), wire) ∧
      ¬ ThrowsOrDecodes kStreamGsup (List.replicate 0xFFFF 0) := by
  refine ⟨_, encode_eq_ok.mpr ⟨by rw [List.length_replicate], rfl⟩, ?_, ?_⟩
  · rw [IpaFrame.wire]
    dsimp only
    rw [List.length_replicate]
    rfl
  · intro h
    have hlen := h.length
    rw [List.length_replicate, kMaxIpaWireLen_toNat] at hlen
    omega

end GsupMapProxy.Ipa
