import GsupMapProxy.Misc.BigEndian
import GsupMapProxy.Misc.Chunks
import GsupMapProxy.Transport.Proofs.M3uaFraming

/-!
# M3UA round trip

The padding of a TLV is not counted in its length, but in that of the message, and the decoder
skips what the encoder wrote. A message of at most `kMaxM3uaMessageSize` bytes leaves no room for
a TLV whose length does not fit sixteen bits, so within that bound nothing is cut off.
-/

namespace GsupMapProxy.M3ua

open Misc

/-! ## Words -/

theorem readBE16_writeBE16 (v : UInt16) (rest : Bytes) :
    readBE16 (writeBE16 v ++ rest) = .ok (v, rest) := by
  have hjoin : (((v >>> 8) &&& 0xFF).toUInt8.toUInt16 <<< 8) ||| (v &&& 0xFF).toUInt8.toUInt16 =
      v := by
    apply UInt16.toNat_inj.mp
    rw [uint16_of_octets_toNat, uint16_hi_masked_toNat, uint16_lo_toNat]
    omega
  simp only [writeBE16, List.cons_append, List.nil_append, readBE16, hjoin]

theorem readBE32_writeBE32 (v : UInt32) (rest : Bytes) :
    readBE32 (writeBE32 v ++ rest) = .ok (v, rest) := by
  simp only [writeBE32, List.cons_append, List.nil_append, readBE32, uint32_split_join]

/-! ## TLVs -/

theorem padding_lt (n : Nat) : padding n < 4 := Nat.mod_lt _ (by decide)

theorem writeTlv_length (tag : UInt16) (value : Bytes) :
    (writeTlv tag value).length = 4 + value.length + padding value.length := by
  simp only [writeTlv, writeBE16, List.length_append, List.length_cons, List.length_nil,
    List.length_replicate]

/-- A written TLV is one turn of the loop. -/
theorem tlvTurn_writeTlv (msg : M3uaMessage) (tag : UInt16) {value : Bytes} (rest : Bytes)
    (hlen : value.length < 65532) :
    tlvTurn msg (writeTlv tag value ++ rest) =
      (setTlv msg tag value >>= fun msg => .ok (msg, rest)) := by
  have hnat : (UInt16.ofNat (4 + value.length)).toNat = 4 + value.length := by
    rw [UInt16.toNat_ofNat', Nat.mod_eq_of_lt (by omega)]
  have hge : ¬ UInt16.ofNat (4 + value.length) < 4 := by
    rw [UInt16.lt_iff_toNat_lt, hnat, show (4 : UInt16).toNat = 4 from rfl]
    omega
  have hvalue : (UInt16.ofNat (4 + value.length)).toNat - 4 = value.length := by omega
  rw [tlvTurn, if_neg (by rw [List.length_append, writeTlv_length]; omega), writeTlv]
  simp only [List.append_assoc, readBE16_writeBE16, except_ok_bind, if_neg hge, hvalue]
  rw [if_neg (by simp only [List.length_append]; omega), readBytes_append rfl, except_ok_bind]
  dsimp only
  rw [skipPadding_eq (.inl (List.length_replicate ..))]
  rfl

theorem drain_writeTlv (msg : M3uaMessage) (tag : UInt16) {value : Bytes} (rest : Bytes)
    (hlen : value.length < 65532) :
    drain tlvTurn msg (writeTlv tag value ++ rest) =
      (setTlv msg tag value >>= fun msg => drain tlvTurn msg rest) := by
  have hturn := tlvTurn_writeTlv msg tag rest hlen
  obtain ⟨b, bs, hcons⟩ : ∃ b bs, writeTlv tag value ++ rest = b :: bs :=
    ⟨_, _, rfl⟩
  rw [hcons] at hturn ⊢
  rw [drain_cons tlvTurn_consuming, hturn]
  cases setTlv msg tag value with
  | error e => rfl
  | ok msg => rfl

theorem decodeProtocolData_value (pd : ProtocolData) :
    decodeProtocolData (protocolDataValue pd) = .ok pd := by
  have hlong : ¬ (protocolDataValue pd).length < 12 := by
    simp only [protocolDataValue, writeBE32, List.length_append, List.length_cons, List.length_nil]
    omega
  rw [decodeProtocolData, if_neg hlong, protocolDataValue]
  simp only [List.append_assoc, readBE32_writeBE32, except_ok_bind, List.cons_append,
    List.nil_append, read8_cons, except_pure]

/-! ## The three optional TLVs -/

def routingContextTlv (rc : Option UInt32) : Bytes := (rc.map (writeTlvU32 kTagRoutingCtx)).getD []

def heartbeatTlv (data : Bytes) : Bytes :=
  if data = [] then [] else writeTlv kTagHeartbeatData data

def protocolDataTlv (pd : Option ProtocolData) : Bytes :=
  (pd.map fun pd => writeTlv kTagProtocolData (protocolDataValue pd)).getD []

theorem encodeBody_eq (msg : M3uaMessage) :
    encodeBody msg = routingContextTlv msg.routingContext ++
      (heartbeatTlv msg.heartbeatData ++ protocolDataTlv msg.protocolData) := by
  rw [← List.append_assoc, encodeBody]
  cases msg.routingContext <;> cases msg.protocolData <;> rfl

section Fields

variable {msg : M3uaMessage} (rest : Bytes)

theorem drain_routingContextTlv (hnone : msg.routingContext = none) (rc : Option UInt32) :
    drain tlvTurn msg (routingContextTlv rc ++ rest) =
      drain tlvTurn { msg with routingContext := rc } rest := by
  cases rc with
  | none =>
    have hsame : { msg with routingContext := none } = msg := by rw [← hnone]
    rw [hsame]
    rfl
  | some rc =>
    have hread : readBE32 (writeBE32 rc) = .ok (rc, []) := by
      have := readBE32_writeBE32 rc []
      rwa [List.append_nil] at this
    have hset : setTlv msg kTagRoutingCtx (writeBE32 rc) =
        .ok { msg with routingContext := some rc } := by
      rw [setTlv, if_pos rfl, hread]
    rw [routingContextTlv, Option.map_some, Option.getD_some, writeTlvU32,
      drain_writeTlv _ _ _ (by simp [writeBE32]), hset, except_ok_bind]

theorem drain_heartbeatTlv (hnone : msg.heartbeatData = []) {data : Bytes}
    (hlen : data.length < 65532) :
    drain tlvTurn msg (heartbeatTlv data ++ rest) =
      drain tlvTurn { msg with heartbeatData := data } rest := by
  rw [heartbeatTlv]
  by_cases hdata : data = []
  · rw [if_pos hdata, hdata, List.nil_append, ← hnone]
  · have hset : setTlv msg kTagHeartbeatData data = .ok { msg with heartbeatData := data } := by
      rw [setTlv, if_neg (by decide), if_pos rfl]
    rw [if_neg hdata, drain_writeTlv _ _ _ hlen, hset, except_ok_bind]

theorem drain_protocolDataTlv (hnone : msg.protocolData = none) (pd : Option ProtocolData)
    (hlen : ∀ data, pd = some data → (protocolDataValue data).length < 65532) :
    drain tlvTurn msg (protocolDataTlv pd) = .ok { msg with protocolData := pd } := by
  cases pd with
  | none =>
    have hsame : { msg with protocolData := none } = msg := by rw [← hnone]
    rw [hsame]
    rfl
  | some pd =>
    have hset : setTlv msg kTagProtocolData (protocolDataValue pd) =
        .ok { msg with protocolData := some pd } := by
      rw [setTlv, if_neg (by decide), if_neg (by decide), if_pos rfl, decodeProtocolData_value]
      rfl
    rw [protocolDataTlv, Option.map_some, Option.getD_some, ← List.append_nil (writeTlv _ _),
      drain_writeTlv _ _ _ (hlen pd rfl), hset, except_ok_bind, drain_nil]

end Fields

/-! ## One message -/

/-- The encoder's output is small enough for the decoder. -/
def M3uaMessage.Fits (msg : M3uaMessage) : Prop := (encode msg).length ≤ kMaxM3uaMessageSize

theorem encode_length (msg : M3uaMessage) :
    (encode msg).length = kCommonHeaderSize + (encodeBody msg).length := by
  simp only [encode, writeBE32, List.length_append, List.length_cons, List.length_nil,
    kCommonHeaderSize]

/-- The TLVs of a message that fits have lengths that fit sixteen bits. -/
theorem M3uaMessage.Fits.values {msg : M3uaMessage} (h : msg.Fits) :
    msg.heartbeatData.length < 65532 ∧
      ∀ pd, msg.protocolData = some pd → (protocolDataValue pd).length < 65532 := by
  rw [M3uaMessage.Fits, encode_length, encodeBody_eq, List.length_append, List.length_append,
    kCommonHeaderSize, kMaxM3uaMessageSize] at h
  constructor
  · by_cases hdata : msg.heartbeatData = []
    · rw [hdata]
      decide
    · rw [heartbeatTlv, if_neg hdata, writeTlv_length] at h
      omega
  · intro pd hpd
    rw [hpd, protocolDataTlv, Option.map_some, Option.getD_some, writeTlv_length] at h
    omega

/-- The body is decoded to the message it was encoded from. -/
theorem drain_encodeBody {msg : M3uaMessage} (h : msg.Fits) :
    drain tlvTurn { msgClass := msg.msgClass, msgType := msg.msgType } (encodeBody msg) =
      .ok msg := by
  obtain ⟨hheartbeat, hdata⟩ := h.values
  rw [encodeBody_eq, drain_routingContextTlv _ rfl, drain_heartbeatTlv _ rfl hheartbeat,
    drain_protocolDataTlv rfl _ hdata]

/-- The header of an encoded message holds its length. -/
theorem exists_encode_eq {msg : M3uaMessage} (h : msg.Fits) :
    ∃ b4 b5 b6 b7, encode msg =
        kVersion :: 0x00 :: msg.msgClass :: msg.msgType :: b4 :: b5 :: b6 :: b7 ::
          encodeBody msg ∧
      (headerLength b4 b5 b6 b7).toNat = (encodeBody msg).length + kCommonHeaderSize ∧
      (encodeBody msg).length + kCommonHeaderSize ≤ kMaxM3uaMessageSize := by
  rw [M3uaMessage.Fits, encode_length] at h
  refine ⟨_, _, _, _, rfl, ?_, by omega⟩
  rw [headerLength, uint32_split_join, UInt32.toNat_ofNat', Nat.mod_eq_of_lt, Nat.add_comm]
  rw [kMaxM3uaMessageSize] at h
  omega

/-- `next` reads an encoded message off the front of the buffer. -/
theorem next_encode {msg : M3uaMessage} (h : msg.Fits) (rest : Bytes) :
    M3uaDecoder.next (encode msg ++ rest) = (.ok (some msg), rest) := by
  obtain ⟨b4, b5, b6, b7, hencode, hlen, hmax⟩ := exists_encode_eq h
  rw [hencode, next_whole hlen hmax, decode_whole hlen, if_neg (not_not.mpr rfl),
    drain_encodeBody h]
  rfl

/-- `next` waits on a part of an encoded message. -/
theorem next_part {msg : M3uaMessage} (h : msg.Fits) {part more : Bytes} (hmore : more ≠ [])
    (hpart : part ++ more = encode msg) : M3uaDecoder.next part = (.ok none, part) := by
  obtain ⟨b4, b5, b6, b7, hencode, hlen, hmax⟩ := exists_encode_eq h
  have hshorter : part.length < (encode msg).length := by
    have := List.length_pos_of_ne_nil hmore
    rw [← hpart, List.length_append]
    omega
  by_cases hshort : part.length < kCommonHeaderSize
  · unfold M3uaDecoder.next
    split
    · simp only [List.length_cons, kCommonHeaderSize] at hshort
      omega
    · rfl
  · obtain ⟨c0, c1, c2, c3, c4, c5, c6, c7, cs, rfl⟩ := exists_header (Nat.le_of_not_lt hshort)
    rw [hencode] at hpart hshorter
    simp only [List.cons_append, List.cons.injEq] at hpart
    obtain ⟨-, -, -, -, rfl, rfl, rfl, rfl, -⟩ := hpart
    simp only [List.length_cons] at hshorter
    rw [M3uaDecoder.next, if_neg (by omega), if_pos]
    simp only [List.length_cons, hlen, kCommonHeaderSize]
    omega

/-! ## A stream of messages -/

/-- Feeding the chunks to a fresh decoder, and after each calling `next` until it has no message,
as `MapTransport::startRead` does (`MapTransport.cpp:285-286`), up to the first exception. -/
def M3uaDecoder.receive (chunks : List Bytes) : List M3uaMessage × Except Exn M3uaDecoder :=
  reassemble M3uaDecoder.next [] chunks

/-- However the encodings of a list of messages are cut into chunks, exactly these messages come
out, with no exception and nothing left over. -/
theorem receive_encoded (msgs : List M3uaMessage)
    (hfits : ∀ msg ∈ msgs, (encode msg).length ≤ kMaxM3uaMessageSize) (chunks : List Bytes)
    (hstream : chunks.flatten = msgs.flatMap encode) :
    M3uaDecoder.receive chunks = (msgs, .ok []) :=
  reassemble_wire (P := M3uaMessage.Fits) next_shrinking rfl (fun _ h rest => next_encode h rest)
    (fun _ h _ _ hmore hpart => next_part h hmore hpart) chunks msgs [] hfits rfl hstream

/-- A heartbeat with one byte of data and a DATA message with five bytes of user data, cut inside
the first header, the padding and the second header. -/
theorem receive_two_messages :
    M3uaDecoder.receive
      [[0x01, 0x00, 0x03, 0x05, 0x00], [0x00, 0x00, 0x10, 0x00, 0x09, 0x00, 0x05, 0xAA, 0x00, 0x00],
        [0x00, 0x01, 0x00], [0x01, 0x01, 0x00, 0x00, 0x00, 0x20, 0x02, 0x10, 0x00, 0x15,
          0x00, 0x00, 0x00, 0x01, 0x00, 0x00, 0x00, 0x02, 0x03, 0x00, 0x00, 0x00,
          0x09, 0x00, 0x03, 0x04, 0x05, 0x00, 0x00, 0x00]] =
      ([{ msgClass := kClassAspsm, msgType := kTypeHeartbeat, heartbeatData := [0xAA] },
        makeData { opc := 1, dpc := 2, userData := [0x09, 0x00, 0x03, 0x04, 0x05] } none],
        .ok []) :=
  receive_encoded _ (by decide) _ (by decide)

end GsupMapProxy.M3ua
