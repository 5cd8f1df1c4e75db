import GsupMapProxy.Common.Buffer
import GsupMapProxy.Misc.BigEndian

/-!
# BER codec (`src/map/BerCodec.cpp`)

Definite-length TLVs with one-octet tags, and two's-complement INTEGERs. Lengths are natural
numbers: a length is read from at most four octets, so `size_t` never wraps. The `int64_t`
accumulator of `decodeInt` does drop octets beyond the eighth, so it is a 64-bit word here.
-/

namespace GsupMapProxy.Map.Ber

open Misc

/-! ## Length -/

/-- `writeLength` (`BerCodec.cpp:9-22`). -/
def writeLength (len : Nat) : Except Exn Bytes :=
  if len ≤ 0x7F then .ok [UInt8.ofNat len]
  else if len ≤ 0xFF then .ok [0x81, UInt8.ofNat len]
  else if len ≤ 0xFFFF then
    .ok [0x82, UInt8.ofNat ((len >>> 8) &&& 0xFF), UInt8.ofNat (len &&& 0xFF)]
  else .error (.runtimeError "BER: length too large for 2-byte form")

/-- The loop of `readLength` over the length octets (`BerCodec.cpp:33-35`). -/
def readLengthOctets : Nat → Nat → BufferReader → Except Exn (Nat × BufferReader)
  | 0, len, r => .ok (len, r)
  | n + 1, len, r => do
      let (b, r) ← read8 r
      readLengthOctets n ((len <<< 8) ||| b.toNat) r

/-- `readLength` (`BerCodec.cpp:24-37`). -/
def readLength (r : BufferReader) : Except Exn (Nat × BufferReader) := do
  let (first, r) ← read8 r
  if first ≤ 0x7F then return (first.toNat, r)
  else if first = 0x80 then
    .error (.runtimeError "BER: indefinite-length form not supported")
  else if first &&& 0x7F > 4 then .error (.runtimeError "BER: length field too large")
  else readLengthOctets (first &&& 0x7F).toNat 0 r

/-! ## TLV -/

/-- `writeTlv` (`BerCodec.cpp:41-45`). -/
def writeTlv (tag : UInt8) (value : Bytes) : Except Exn Bytes := do
  let len ← writeLength value.length
  return tag :: (len ++ value)

/-- `wrapConstructed` (`BerCodec.cpp:64-68`). -/
def wrapConstructed (tag : UInt8) (inner : Bytes) : Except Exn Bytes := writeTlv tag inner

/-- `writeTlvOctet` (`BerCodec.cpp:51-55`). -/
def writeTlvOctet (tag value : UInt8) : Bytes := [tag, 1, value]

/-- `readTlv` (`BerCodec.cpp:57-62`). -/
def readTlv (r : BufferReader) : Except Exn ((UInt8 × Bytes) × BufferReader) := do
  let (tag, r) ← read8 r
  let (len, r) ← readLength r
  let (value, r) ← readBytes len r
  return ((tag, value), r)

/-! ## Integer -/

/-- The octets of a positive value, lowest first (`BerCodec.cpp:81-84`). -/
def lowOctets : Nat → Nat → Bytes
  | 0, _ => []
  | fuel + 1, uv =>
      if uv > 0 then UInt8.ofNat (uv &&& 0xFF) :: lowOctets fuel (uv >>> 8) else []

/-- The octets of a negative value, lowest first; `tmp >> 8` is arithmetic
(`BerCodec.cpp:95-99`). -/
def lowOctetsNeg : Nat → Int → Bytes
  | 0, _ => []
  | fuel + 1, tmp =>
      let octet := UInt8.ofNat (tmp % 256).toNat
      let tmp' := tmp >>> (8 : Nat)
      if tmp' ≠ -1 ∨ octet &&& 0x80 = 0 then octet :: lowOctetsNeg fuel tmp' else [octet]

/-- `encodeInt` (`BerCodec.cpp:72-108`). The octets first collected for a negative value are
cleared and collected again, so only the second loop counts for it. Neither loop of a 64-bit
value takes more than nine turns. -/
def encodeInt (value : Int64) : Bytes :=
  if value = 0 then [0x00]
  else if value < 0 then (lowOctetsNeg 9 value.toInt).reverse
  else
    let be := (lowOctets 9 value.toInt.toNat).reverse
    if be.headD 0 &&& 0x80 ≠ 0 then 0x00 :: be else be

/-- `writeTlvInt` (`BerCodec.cpp:47-49`). -/
def writeTlvInt (tag : UInt8) (value : Int64) : Except Exn Bytes := writeTlv tag (encodeInt value)

/-- `decodeInt` (`BerCodec.cpp:110-127`). -/
def decodeInt (value : Bytes) : Except Exn Int64 :=
  match value with
  | [] => .error (.runtimeError "BER: empty INTEGER value")
  | v0 :: _ =>
      let result := value.foldl (fun (acc : UInt64) b => (acc <<< 8) ||| b.toUInt64) 0
      let bits := value.length * 8
      if v0 &&& 0x80 ≠ 0 ∧ bits < 64 then
        .ok (result ||| ((0 : UInt64) - (1 <<< UInt64.ofNat bits))).toInt64
      else .ok result.toInt64

/-- `static_cast<uint8_t>` of an `int64_t`. -/
def narrow (v : Int64) : UInt8 := v.toUInt64.toUInt8

/-- `static_cast<int64_t>` of a `uint8_t`. -/
def widen (b : UInt8) : Int64 := b.toUInt64.toInt64

/-! ## Reading back what was written -/

theorem readLength_one (b : UInt8) (rest : Bytes) :
    readLength (0x81 :: b :: rest) = .ok (b.toNat, rest) := by
  have h : readLength (0x81 :: b :: rest) = .ok ((0 <<< 8) ||| b.toNat, rest) := rfl
  rw [h, shiftLeft_eight_or 0 b.toNat_lt, Nat.zero_mul, Nat.zero_add]

theorem readLength_two (b0 b1 : UInt8) (rest : Bytes) :
    readLength (0x82 :: b0 :: b1 :: rest) = .ok (b0.toNat * 256 + b1.toNat, rest) := by
  have h : readLength (0x82 :: b0 :: b1 :: rest) =
      .ok ((((0 <<< 8) ||| b0.toNat) <<< 8) ||| b1.toNat, rest) := rfl
  rw [h, shiftLeft_eight_or _ b1.toNat_lt, shiftLeft_eight_or 0 b0.toNat_lt, Nat.zero_mul,
    Nat.zero_add]

theorem readLength_writeLength {len : Nat} {l : Bytes} (rest : Bytes)
    (h : writeLength len = .ok l) : readLength (l ++ rest) = .ok (len, rest) := by
  unfold writeLength at h
  split at h
  · rename_i h7f
    cases h
    have hnat : (UInt8.ofNat len).toNat = len := by rw [UInt8.toNat_ofNat']; omega
    have hle : UInt8.ofNat len ≤ 0x7F := by
      rw [UInt8.le_iff_toNat_le, hnat]
      exact h7f
    simp only [readLength, List.cons_append, List.nil_append, read8_cons, except_ok_bind,
      if_pos hle, hnat, except_pure]
  · split at h
    · rename_i hff
      cases h
      have hnat : (UInt8.ofNat len).toNat = len := by rw [UInt8.toNat_ofNat']; omega
      rw [List.cons_append, List.cons_append, List.nil_append, readLength_one, hnat]
    · split at h
      · rename_i hffff
        cases h
        have hhi : (UInt8.ofNat ((len >>> 8) &&& 0xFF)).toNat = len / 256 := by
          rw [UInt8.toNat_ofNat', and_0xFF, Nat.shiftRight_eq_div_pow]
          omega
        have hlo : (UInt8.ofNat (len &&& 0xFF)).toNat = len % 256 := by
          rw [UInt8.toNat_ofNat', and_0xFF]
          omega
        rw [List.cons_append, List.cons_append, List.cons_append, List.nil_append,
          readLength_two, hhi, hlo, show len / 256 * 256 + len % 256 = len by omega]
      · cases h

/-- `readTlv` of what `writeTlv` wrote returns tag and value and stops exactly behind them. -/
theorem readTlv_writeTlv {tag : UInt8} {value b : Bytes} (rest : Bytes)
    (h : writeTlv tag value = .ok b) : readTlv (b ++ rest) = .ok ((tag, value), rest) := by
  obtain ⟨l, hl, hb⟩ := except_bind_eq_ok.mp h
  cases hb
  rw [List.cons_append, List.append_assoc]
  simp only [readTlv, read8_cons, except_ok_bind, readLength_writeLength _ hl,
    readBytes_append rfl, except_pure]

theorem readLengthOctets_length {n len len' : Nat} {r rest : BufferReader}
    (h : readLengthOctets n len r = .ok (len', rest)) : rest.length ≤ r.length := by
  induction n generalizing len r with
  | zero => cases h; exact Nat.le_refl _
  | succ n ih =>
    simp only [readLengthOctets, except_bind_eq_ok] at h
    obtain ⟨⟨b, r'⟩, hb, hrec⟩ := h
    have hle := ih hrec
    rw [read8_eq_ok.mp hb, List.length_cons]
    simp only at hle
    omega

theorem readLength_length {len : Nat} {r rest : BufferReader}
    (h : readLength r = .ok (len, rest)) : rest.length + 1 ≤ r.length := by
  simp only [readLength, except_bind_eq_ok] at h
  obtain ⟨⟨b, r'⟩, hb, h⟩ := h
  rw [read8_eq_ok.mp hb, List.length_cons]
  split at h
  · cases h
    exact Nat.le_refl _
  · split at h
    · cases h
    · split at h
      · cases h
      · have hle := readLengthOctets_length h
        simp only at hle
        omega

/-- A successful `readTlv` consumes at least the tag and one length octet. -/
theorem readTlv_length {tag : UInt8} {value : Bytes} {r rest : BufferReader}
    (h : readTlv r = .ok ((tag, value), rest)) : rest.length + 2 ≤ r.length := by
  simp only [readTlv, except_bind_eq_ok] at h
  obtain ⟨⟨t, r1⟩, h1, ⟨len, r2⟩, h2, ⟨v, r3⟩, h3, hr⟩ := h
  cases hr
  have e2 := readLength_length h2
  obtain ⟨e3, -⟩ := readBytes_eq_ok h3
  have e3' := congrArg List.length e3
  rw [read8_eq_ok.mp h1, List.length_cons]
  simp only [List.length_append] at e3' e2 ⊢
  omega

/-! ## Octet-sized integers -/

/-- Every octet value comes back from its INTEGER encoding. -/
theorem decodeInt_encodeInt_widen (b : UInt8) :
    decodeInt (encodeInt (widen b)) = .ok (widen b) := by
  revert b
  apply forall_octet
  decide +kernel

@[simp] theorem narrow_widen (b : UInt8) : narrow (widen b) = b := by
  revert b
  apply forall_octet
  decide +kernel

theorem encodeInt_widen_length (b : UInt8) : (encodeInt (widen b)).length ≤ 2 := by
  revert b
  apply forall_octet
  decide +kernel

theorem decodeInt_octet (b : UInt8) : (decodeInt [b]).map narrow = .ok b := by
  revert b
  apply forall_octet
  decide +kernel

theorem writeTlvOctet_eq (tag b : UInt8) : writeTlv tag [b] = .ok (writeTlvOctet tag b) := rfl

end GsupMapProxy.Map.Ber
