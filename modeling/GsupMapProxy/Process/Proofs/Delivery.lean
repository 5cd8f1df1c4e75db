import GsupMapProxy.Process.Machine
import GsupMapProxy.Transport.Proofs.M3uaRoundTrip
import GsupMapProxy.Transport.Proofs.MapMethods
import GsupMapProxy.Transport.Proofs.UdtRoundTrip

/-!
# What reaches the HLR

`MapTransport::send` puts a PDU into a UDT and the UDT into an M3UA message. The length of the
data in a UDT is one octet, and `encodeUdt` writes it with a cast, so a PDU of 256 bytes or more
arrives cut off. Up to 255 bytes every length and pointer on the way fits its field.
-/

namespace GsupMapProxy

open Misc

namespace Transport

open M3ua Sccp

/-! ## The whole stack -/

/-- The frame, run through `M3uaDecoder::next` and `decodeUdt`, gives back the payload. -/
def Delivers (frame payload : Bytes) : Prop :=
  ∃ msg pd udt rest, M3uaDecoder.next frame = (.ok (some msg), rest) ∧
    msg.protocolData = some pd ∧ decodeUdt pd.userData = .ok udt ∧ udt.data = payload

/-- A posted `send` puts nothing into the write queue, or a frame that gives back the payload. -/
def NothingOrDelivered (t : MapTransport) (payload : Bytes) : Prop :=
  (t.sendPosted payload).1.writeQueue = t.writeQueue ∨
    ∃ frame, (t.sendPosted payload).1.writeQueue = t.writeQueue ++ [frame] ∧
      Delivers frame payload

theorem sendPosted_writeQueue {t : MapTransport} (hactive : t.state = .active)
    (payload : Bytes) : (t.sendPosted payload).1.writeQueue =
      t.writeQueue ++ [M3ua.encode (MapTransport.wrap t.cfg payload)] := by
  rw [MapTransport.sendPosted, if_neg (not_not.mpr hactive), MapTransport.sendRaw,
    MapTransport.enqueue_fst]

/-- Nothing longer than 255 bytes is ever delivered. -/
theorem Delivers.length {frame payload : Bytes} (h : Delivers frame payload) :
    payload.length ≤ 255 := by
  obtain ⟨msg, pd, udt, rest, -, -, hudt, rfl⟩ := h
  exact decodeUdt_data_length hudt

theorem NothingOrDelivered.length {t : MapTransport} (hactive : t.state = .active)
    {payload : Bytes} (h : NothingOrDelivered t payload) : payload.length ≤ 255 := by
  rcases h with hnothing | ⟨frame, -, hdelivers⟩
  · rw [sendPosted_writeQueue hactive] at hnothing
    have := congrArg List.length hnothing
    simp at this
  · exact hdelivers.length

theorem encodeUdt_length (udt : SccpUdt) :
    (encodeUdt udt).length = (encodeAddress udt.calledParty).length +
      (encodeAddress udt.callingParty).length + udt.data.length + 8 := by
  simp only [encodeUdt, List.length_append, List.length_cons, List.length_nil]
  omega

/-- A payload that fits a UDT makes a message far below the decoder's limit. -/
theorem wrap_fits {cfg : MapTransportConfig} (hhlr : cfg.hlrGt.length ≤ 30)
    (hlocal : cfg.localGt.length ≤ 30) {payload : Bytes} (hlen : payload.length ≤ 255) :
    (MapTransport.wrap cfg payload).Fits := by
  have hcalled := encodeAddress_length cfg.hlrGt cfg.hlrSsn
  have hcalling := encodeAddress_length cfg.localGt cfg.localSsn
  have hcontext : (routingContextTlv cfg.routingContext).length ≤ 8 := by
    cases cfg.routingContext with
    | none => decide
    | some rc => simp [routingContextTlv, writeTlvU32, writeTlv_length, writeBE32, padding]
  rw [M3uaMessage.Fits, encode_length, encodeBody_eq, List.length_append, List.length_append]
  simp only [MapTransport.wrap, makeData, heartbeatTlv, if_true, protocolDataTlv, Option.map_some,
    Option.getD_some, writeTlv_length, List.length_nil, kCommonHeaderSize, kMaxM3uaMessageSize]
  generalize hvalue : (protocolDataValue _).length = n
  have hn : n ≤ 315 := by
    rw [← hvalue]
    simp only [protocolDataValue, writeBE32, List.length_append, List.length_cons,
      List.length_nil, encodeUdt_length]
    omega
  have := padding_lt n
  omega

theorem wrap_delivers {cfg : MapTransportConfig} (hhlr : cfg.hlrGt.length ≤ 30)
    (hlocal : cfg.localGt.length ≤ 30) {payload : Bytes} (hlen : payload.length ≤ 255) :
    Delivers (M3ua.encode (MapTransport.wrap cfg payload)) payload := by
  obtain ⟨called, hcalled⟩ := decodeAddress_ok cfg.hlrGt cfg.hlrSsn
  obtain ⟨calling, hcalling⟩ := decodeAddress_ok cfg.localGt cfg.localSsn
  have hnext := next_encode (wrap_fits hhlr hlocal hlen) []
  rw [List.append_nil] at hnext
  refine ⟨_, _, ⟨kProtoClass0, called, calling, payload⟩, _, hnext, rfl, ?_, rfl⟩
  refine decodeUdt_encodeUdt_ok ?_ hcalled hcalling hlen
  rw [addressOctets]
  dsimp only
  rw [encodeAddress_length, encodeAddress_length]
  omega

/-- What an active transport enqueues for a PDU gives it back exactly when the PDU is at most 255
bytes long. -/
theorem sendPosted_delivers_iff (t : MapTransport) (hactive : t.state = .active)
    (hhlr : t.cfg.hlrGt.length ≤ 30) (hlocal : t.cfg.localGt.length ≤ 30) (payload : Bytes) :
    NothingOrDelivered t payload ↔ payload.length ≤ 255 := by
  constructor
  · exact NothingOrDelivered.length hactive
  · intro hlen
    exact .inr ⟨_, sendPosted_writeQueue hactive payload, wrap_delivers hhlr hlocal hlen⟩

/-- A PDU of four bytes between two Global Titles of three digits. -/
theorem four_bytes_delivered :
    NothingOrDelivered
      { cfg := { hlrGt := [0x31, 0x32, 0x33], localGt := [0x34, 0x35, 0x36] }, state := .active }
      [0x62, 0x02, 0x48, 0x00] :=
  (sendPosted_delivers_iff _ rfl (by decide) (by decide) _).mpr (by decide)

/-- A Purge MS request with an IMSI of 240 octets. -/
def longPurge : Bytes := [0x0c, 0x01, 240] ++ List.replicate 240 0x11

/-- How long the only PDU is that a handler of the proxy hands to the HLR side. -/
def pduLength : Outcome → Option Nat
  | .ok (_, [.hlr pdu]) => some pdu.length
  | _ => none

/-- The proxy accepts it and makes a PDU of 268 bytes, which an active transport enqueues and the
other side does not get back. -/
theorem longPurge_not_delivered :
    ∃ p pdu, (Proxy.start 30).step (.gsup longPurge 1 0) = .ok (p, [.hlr pdu]) ∧
      ¬ NothingOrDelivered
        { cfg := { hlrGt := [0x31, 0x32, 0x33], localGt := [0x34, 0x35, 0x36] },
          state := .active } pdu := by
  have hlen : pduLength ((Proxy.start 30).step (.gsup longPurge 1 0)) = some 268 := by
    decide +kernel
  generalize (Proxy.start 30).step (.gsup longPurge 1 0) = outcome at hlen ⊢
  unfold pduLength at hlen
  split at hlen
  · rename_i p pdu
    refine ⟨p, pdu, rfl, ?_⟩
    intro h
    have := h.length rfl
    have := Option.some.inj hlen
    omega
  · cases hlen

/-! ## Global Titles -/

/-- The decimal digits of a title: what follows the plus sign if there is one. -/
def titleDigits : Str → Str
  | [] => []
  | c :: digits => if c = 0x2B then digits else c :: digits

/-- An optional plus sign and at most 30 decimal digits. -/
def E164 (gt : Str) : Prop := Digits (titleDigits gt) ∧ (titleDigits gt).length ≤ 30

instance : DecidablePred E164 := fun gt =>
  inferInstanceAs (Decidable (Digits (titleDigits gt) ∧ (titleDigits gt).length ≤ 30))

/-- The title starts with a plus sign. -/
def Plus (gt : Str) : Prop := gt.head? = some 0x2B

instance : DecidablePred Plus := fun gt => inferInstanceAs (Decidable (gt.head? = some 0x2B))

/-- The digits are those of the title, with or without a plus sign in front. -/
def KeepsDigits (gt digits : Str) : Prop :=
  digits = titleDigits gt ∨ digits = 0x2B :: titleDigits gt

instance (gt digits : Str) : Decidable (KeepsDigits gt digits) :=
  inferInstanceAs (Decidable (digits = titleDigits gt ∨ digits = 0x2B :: titleDigits gt))

/-- The UDT that `send` builds is decoded to one with the digits of both configured titles. -/
def TitlesKept (cfg : MapTransportConfig) (payload : Bytes) : Prop :=
  ∃ pd udt, (MapTransport.wrap cfg payload).protocolData = some pd ∧
    decodeUdt pd.userData = .ok udt ∧ KeepsDigits cfg.hlrGt udt.calledParty.digits ∧
    KeepsDigits cfg.localGt udt.callingParty.digits

theorem E164.length {gt : Str} (h : E164 gt) : gt.length ≤ 31 := by
  obtain ⟨-, hlen⟩ := h
  cases gt with
  | nil => exact Nat.zero_le _
  | cons c digits =>
    rw [titleDigits] at hlen
    rw [List.length_cons]
    split at hlen
    · omega
    · rw [List.length_cons] at hlen
      omega

/-- Packing and unpacking a title keeps its digits exactly if it has no plus sign. -/
theorem keepsDigits_iff {gt : Str} (h : E164 gt) :
    KeepsDigits gt (unpackBcd (gt.length % 2 ≠ 0) (packBcd gt)) ↔ ¬ Plus gt := by
  constructor
  · rintro hkeeps hplus
    obtain ⟨digits, rfl⟩ : ∃ digits, gt = 0x2B :: digits := by
      cases gt with
      | nil => cases hplus
      | cons c digits => exact ⟨digits, by rw [Option.some.inj hplus]⟩
    have hdigits : Digits digits := h.1
    have hhead := unpackBcd_plus ((0x2B :: digits).length % 2 ≠ 0) digits
    rcases hkeeps with heq | heq
    · rw [heq, titleDigits, if_pos rfl] at hhead
      have : IsDigit 0x3B := hdigits _ (List.mem_of_mem_head? hhead)
      revert this
      decide
    · rw [heq] at hhead
      cases hhead
  · intro hplus
    have htitle : titleDigits gt = gt := by
      cases gt with
      | nil => rfl
      | cons c digits => exact if_neg fun hc => hplus (congrArg some hc)
    have hdigits := h.1
    rw [htitle] at hdigits
    exact .inl (by rw [htitle, unpackBcd_packBcd hdigits])

theorem decodeAddress_makeGtAddress (digits : Str) (ssn : UInt8) :
    ∃ addr, decodeAddress (encodeAddress (makeGtAddress digits ssn true)) = .ok addr ∧
      addr.digits = unpackBcd (digits.length % 2 ≠ 0) (packBcd digits) :=
  ⟨_, decodeAddress_gt rfl (show (4 : UInt8).toNat < 128 by decide), rfl⟩

/-- Both titles reach the wire with their digits exactly if neither is written with a plus
sign. -/
theorem titles_reach_wire_iff (cfg : MapTransportConfig) (hhlr : E164 cfg.hlrGt)
    (hlocal : E164 cfg.localGt) (payload : Bytes) :
    TitlesKept cfg payload ↔ ¬ Plus cfg.hlrGt ∧ ¬ Plus cfg.localGt := by
  obtain ⟨called, hcalled, hcalledDigits⟩ := decodeAddress_makeGtAddress cfg.hlrGt cfg.hlrSsn
  obtain ⟨calling, hcalling, hcallingDigits⟩ :=
    decodeAddress_makeGtAddress cfg.localGt cfg.localSsn
  have hlen : addressOctets ⟨kProtoClass0, makeGtAddress cfg.hlrGt cfg.hlrSsn true,
      makeGtAddress cfg.localGt cfg.localSsn true, payload⟩ ≤ 252 := by
    have hhlrLen := hhlr.length
    have hlocalLen := hlocal.length
    rw [addressOctets]
    dsimp only
    rw [encodeAddress_length, encodeAddress_length]
    omega
  have hdecode := decodeUdt_encodeUdt hlen
  dsimp only at hdecode
  rw [hcalled, hcalling] at hdecode
  rw [← keepsDigits_iff hhlr, ← keepsDigits_iff hlocal, ← hcalledDigits, ← hcallingDigits]
  constructor
  · rintro ⟨pd, udt, hpd, hudt, hkeeps⟩
    cases hpd
    have heq := hdecode.symm.trans hudt
    cases heq
    exact hkeeps
  · intro hkeeps
    exact ⟨_, _, rfl, hdecode, hkeeps⟩

/-- Titles of twelve and eleven digits. -/
theorem titles_without_plus_kept :
    TitlesKept
      { hlrGt := [0x34, 0x39, 0x31, 0x36, 0x31, 0x30, 0x30, 0x30, 0x30, 0x30, 0x30, 0x30]
        localGt := [0x34, 0x39, 0x31, 0x36, 0x31, 0x30, 0x30, 0x30, 0x30, 0x30, 0x31] }
      [0x62, 0x00] :=
  (titles_reach_wire_iff _ (by decide +kernel) (by decide +kernel) _).mpr
    ⟨by decide +kernel, by decide +kernel⟩

/-- The titles `main` starts with, `"+49161000000"` and `"+49161000001"`: the other side sees
`";?9161000000"`. -/
theorem default_titles_garbled :
    (∃ pd udt, (MapTransport.wrap
        { hlrGt := [0x2B, 0x34, 0x39, 0x31, 0x36, 0x31, 0x30, 0x30, 0x30, 0x30, 0x30, 0x30]
          localGt := [0x2B, 0x34, 0x39, 0x31, 0x36, 0x31, 0x30, 0x30, 0x30, 0x30, 0x30, 0x31] }
        [0x62, 0x00]).protocolData = some pd ∧ decodeUdt pd.userData = .ok udt ∧
      udt.calledParty.digits =
        [0x3B, 0x3F, 0x39, 0x31, 0x36, 0x31, 0x30, 0x30, 0x30, 0x30, 0x30, 0x30]) ∧
    ¬ TitlesKept
      { hlrGt := [0x2B, 0x34, 0x39, 0x31, 0x36, 0x31, 0x30, 0x30, 0x30, 0x30, 0x30, 0x30]
        localGt := [0x2B, 0x34, 0x39, 0x31, 0x36, 0x31, 0x30, 0x30, 0x30, 0x30, 0x30, 0x31] }
      [0x62, 0x00] := by
  constructor
  · exact ⟨_, _, rfl, rfl, rfl⟩
  · rintro ⟨pd, udt, hpd, hudt, hkeeps, -⟩
    cases hpd
    cases hudt
    revert hkeeps
    decide

end Transport

end GsupMapProxy
