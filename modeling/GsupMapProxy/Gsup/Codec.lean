import GsupMapProxy.Common.Bcd
import GsupMapProxy.Gsup.Message

/-!
# GSUP codec (`src/gsup/GsupCodec.cpp`)

A payload is a type octet followed by information elements of one tag octet, one length octet
and a value. `decodeIe` is one turn of the loop of `gsup::decode`, translated branch by branch:
most branches read exactly the declared length, but the Cause branch reads its octet without
looking at the length first.
-/

namespace GsupMapProxy.Gsup

open Misc

/-! ## BCD utilities -/

/-- `gsup::imsiToBcd` (`GsupCodec.cpp:9-26`). -/
def imsiToBcd (imsi : Str) : Except Exn Bytes :=
  if imsi = [] ∨ imsi.length > 15 then .error (.invalidArgument "IMSI must be 1-15 digits")
  else if ∃ c ∈ imsi, c < 0x30 ∨ c > 0x39 then
    .error (.invalidArgument "IMSI contains non-digit character")
  else .ok (packDigits imsi)

/-- `gsup::bcdToImsi` (`GsupCodec.cpp:28-42`). -/
def bcdToImsi (bcd : Bytes) : Except Exn Str :=
  unpackDigits (.runtimeError "Invalid BCD nibble in IMSI") bcd

/-- `gsup::isdnToBcd` (`GsupCodec.cpp:44-56`), with the TON/NPI byte for an international number
in front. -/
def isdnToBcd (digits : Str) : Bytes := 0x91 :: packDigits digits

/-- `gsup::bcdToIsdn` (`GsupCodec.cpp:58-69`). The TON/NPI byte is skipped. -/
def bcdToIsdn : Bytes → Str
  | [] => []
  | _ :: bcd => unpackNibbles bcd

/-! ## Decoder -/

/-- The three reads at the top of both sub-IE loops (`GsupCodec.cpp:78-80`, `98-100`). -/
def readSubIe (r : BufferReader) : Except Exn ((IeTag × Bytes) × BufferReader) := do
  let (tag, r) ← read8 r
  let (len, r) ← read8 r
  let (val, r) ← readBytes len.toNat r
  return ((IeTag.ofByte tag, val), r)

/-- One turn of such a loop, with `set` the switch on the tag. -/
def subIeTurn {σ : Type} (set : σ → IeTag → Bytes → σ) (s : σ) (r : BufferReader) :
    Except Exn (σ × BufferReader) := do
  let ((tag, val), r) ← readSubIe r
  return (set s tag val, r)

/-- The switch of `decodeAuthTuple` (`GsupCodec.cpp:81-90`). -/
def setAuthTupleIe (t : AuthTuple) : IeTag → Bytes → AuthTuple
  | .rand, val => { t with rand := val }
  | .sres, val => { t with sres := val }
  | .kc, val => { t with kc := val }
  | .ik, val => { t with ik := some val }
  | .ck, val => { t with ck := some val }
  | .autn, val => { t with autn := some val }
  | .res, val => { t with res := some val }
  | _, _ => t

/-- `decodeAuthTuple` (`GsupCodec.cpp:75-93`). -/
def decodeAuthTuple (r : BufferReader) : Except Exn AuthTuple :=
  drain (subIeTurn setAuthTupleIe) {} r

/-- The switch of `decodePdpInfo` (`GsupCodec.cpp:101-119`). -/
def setPdpInfoIe (p : PdpInfo) : IeTag → Bytes → PdpInfo
  | .pdpContextId, val => { p with contextId := val.headD 0 }
  | .pdpType, v0 :: v1 :: _ =>
      { p with pdpType := some ((v0.toUInt16 <<< 8) ||| v1.toUInt16) }
  | .accessPointName, val => { p with apn := some val }
  | .pdpAddress, val => { p with pdpAddress := some val }
  | .pdpQos, val => { p with qos := some val }
  | _, _ => p

/-- `decodePdpInfo` (`GsupCodec.cpp:95-122`). -/
def decodePdpInfo (r : BufferReader) : Except Exn PdpInfo :=
  drain (subIeTurn setPdpInfoIe) {} r

/-- The branches for CancelType, NumVectorsReq and CnDomain: the first octet of the value, when
there is one, and the rest skipped (`GsupCodec.cpp:166-170`, `181-188`). -/
def readOctetIe (ieLen : Nat) (r : BufferReader) :
    Except Exn (Option UInt8 × BufferReader) :=
  if ieLen ≥ 1 then do
    let (b, r) ← read8 r
    if ieLen > 1 then
      let (_, r) ← readBytes (ieLen - 1) r
      return (some b, r)
    else return (some b, r)
  else return (none, r)

/-- The branch for Cause: unlike its siblings it reads the octet before it looks at the length,
so a Cause element of length 0 takes the next element's first octet (`GsupCodec.cpp:147-151`). -/
def readCauseIe (ieLen : Nat) (r : BufferReader) : Except Exn (UInt8 × BufferReader) := do
  let (b, r) ← read8 r
  if ieLen > 1 then
    let (_, r) ← readBytes (ieLen - 1) r
    return (b, r)
  else return (b, r)

/-- The switch of `gsup::decode` (`GsupCodec.cpp:141-192`). -/
def decodeIeValue (msg : GsupMessage) (tag : IeTag) (ieLen : Nat) (r : BufferReader) :
    Except Exn (GsupMessage × BufferReader) :=
  match tag with
  | .imsi => do
      let (bcd, r) ← readBytes ieLen r
      let imsi ← bcdToImsi bcd
      return ({ msg with imsi := imsi }, r)
  | .cause => do
      let (b, r) ← readCauseIe ieLen r
      return ({ msg with cause := some b }, r)
  | .authTuple => do
      let (sub, r) ← readBytes ieLen r
      let t ← decodeAuthTuple sub
      return ({ msg with authTuples := msg.authTuples ++ [t] }, r)
  | .pdpInfoComplete => do
      let (_, r) ← readBytes ieLen r
      return ({ msg with pdpInfoComplete := true }, r)
  | .pdpInfo => do
      let (sub, r) ← readBytes ieLen r
      let p ← decodePdpInfo sub
      return ({ msg with pdpInfoList := msg.pdpInfoList ++ [p] }, r)
  | .cancelType => do
      let (b, r) ← readOctetIe ieLen r
      return ({ msg with cancelType := b.or msg.cancelType }, r)
  | .freezePtmsi => do
      let (_, r) ← readBytes ieLen r
      return ({ msg with freezePtmsi := true }, r)
  | .msisdn => do
      let (val, r) ← readBytes ieLen r
      return ({ msg with msisdn := some val }, r)
  | .hlrNumber => do
      let (val, r) ← readBytes ieLen r
      return ({ msg with hlrNumber := some val }, r)
  | .numVectorsReq => do
      let (b, r) ← readOctetIe ieLen r
      return ({ msg with numVectorsRequested := b.or msg.numVectorsRequested }, r)
  | .cnDomain => do
      let (b, r) ← readOctetIe ieLen r
      return ({ msg with cnDomain := b.or msg.cnDomain }, r)
  | _ => do
      let (_, r) ← readBytes ieLen r
      return (msg, r)

/-- One turn of the loop of `gsup::decode` (`GsupCodec.cpp:133-193`). -/
def decodeIe (msg : GsupMessage) (r : BufferReader) :
    Except Exn (GsupMessage × BufferReader) :=
  if r.length < 2 then .error (.runtimeError "GSUP: truncated IE header")
  else do
    let (tag, r) ← read8 r
    let (ieLen, r) ← read8 r
    if r.length < ieLen.toNat then .error (.runtimeError "GSUP: IE length exceeds payload")
    else decodeIeValue msg (IeTag.ofByte tag) ieLen.toNat r

/-- `gsup::decode` (`GsupCodec.cpp:126-199`). -/
def decode (payload : Bytes) : Except Exn GsupMessage :=
  if payload.length < 1 then .error (.runtimeError "GSUP: empty payload")
  else do
    let (type, r) ← read8 payload
    drain decodeIe { type := MessageType.ofByte type } r

/-! ## Encoder -/

/-- `gsup::writeTlv` (`GsupCodec.cpp:205-211`). -/
def writeTlv (tag : IeTag) (val : Bytes) : Except Exn Bytes :=
  if val.length > 255 then .error (.runtimeError "GSUP IE value too large")
  else .ok (tag.toByte :: UInt8.ofNat val.length :: val)

/-- `gsup::writeTlv1` (`GsupCodec.cpp:213-217`). -/
def writeTlv1 (tag : IeTag) (val : UInt8) : Bytes := [tag.toByte, 1, val]

/-- `if (x) writeTlv(w, tag, *x)`. -/
def writeOptTlv (tag : IeTag) : Option Bytes → Except Exn Bytes
  | none => .ok []
  | some val => writeTlv tag val

/-- `if (x) writeTlv1(w, tag, *x)`. -/
def writeOptTlv1 (tag : IeTag) : Option UInt8 → Bytes
  | none => []
  | some val => writeTlv1 tag val

/-- `if (flag) { w.write8(tag); w.write8(0); }`. -/
def writeFlag (tag : IeTag) (flag : Bool) : Bytes := if flag then [tag.toByte, 0] else []

/-- What `encodeAuthTuple` writes between `reserveLen8` and `patch8` (`GsupCodec.cpp:224-230`). -/
def authTupleBody (t : AuthTuple) : Except Exn Bytes := do
  let rand ← writeTlv IeTag.rand t.rand
  let sres ← writeTlv IeTag.sres t.sres
  let kc ← writeTlv IeTag.kc t.kc
  let ik ← writeOptTlv IeTag.ik t.ik
  let ck ← writeOptTlv IeTag.ck t.ck
  let autn ← writeOptTlv IeTag.autn t.autn
  let res ← writeOptTlv IeTag.res t.res
  return rand ++ (sres ++ (kc ++ (ik ++ (ck ++ (autn ++ res)))))

/-- `encodeAuthTuple`: the patched length is the body's size narrowed to a byte
(`GsupCodec.cpp:219-233`). -/
def encodeAuthTuple (t : AuthTuple) : Except Exn Bytes := do
  let body ← authTupleBody t
  return IeTag.authTuple.toByte :: UInt8.ofNat body.length :: body

/-- What `encodePdpInfo` writes between `reserveLen8` and `patch8` (`GsupCodec.cpp:240-252`). -/
def pdpInfoBody (p : PdpInfo) : Except Exn Bytes := do
  let pdpType ← writeOptTlv IeTag.pdpType
    (p.pdpType.map fun v : UInt16 => [(v >>> 8).toUInt8, (v &&& 0xFF).toUInt8])
  let apn ← writeOptTlv IeTag.accessPointName p.apn
  let pdpAddress ← writeOptTlv IeTag.pdpAddress p.pdpAddress
  let qos ← writeOptTlv IeTag.pdpQos p.qos
  return writeTlv1 IeTag.pdpContextId p.contextId ++ (pdpType ++ (apn ++ (pdpAddress ++ qos)))

/-- `encodePdpInfo` (`GsupCodec.cpp:235-255`). -/
def encodePdpInfo (p : PdpInfo) : Except Exn Bytes := do
  let body ← pdpInfoBody p
  return IeTag.pdpInfo.toByte :: UInt8.ofNat body.length :: body

/-- `if (!msg.imsi.empty()) writeTlv(w, IeTag::Imsi, imsiToBcd(msg.imsi))`. -/
def writeImsi (imsi : Str) : Except Exn Bytes :=
  if imsi = [] then .ok []
  else do
    let bcd ← imsiToBcd imsi
    writeTlv IeTag.imsi bcd

/-- `gsup::encode` (`GsupCodec.cpp:258-294`). -/
def encode (msg : GsupMessage) : Except Exn Bytes := do
  let imsi ← writeImsi msg.imsi
  let cause := writeOptTlv1 IeTag.cause msg.cause
  let numVectors := writeOptTlv1 IeTag.numVectorsReq msg.numVectorsRequested
  let authTuples ← writeEach encodeAuthTuple msg.authTuples
  let msisdn ← writeOptTlv IeTag.msisdn msg.msisdn
  let hlrNumber ← writeOptTlv IeTag.hlrNumber msg.hlrNumber
  let complete := writeFlag IeTag.pdpInfoComplete msg.pdpInfoComplete
  let pdpInfos ← writeEach encodePdpInfo msg.pdpInfoList
  let cancelType := writeOptTlv1 IeTag.cancelType msg.cancelType
  let freeze := writeFlag IeTag.freezePtmsi msg.freezePtmsi
  let cnDomain := writeOptTlv1 IeTag.cnDomain msg.cnDomain
  return msg.type.toByte :: (imsi ++ (cause ++ (numVectors ++ (authTuples ++ (msisdn ++
    (hlrNumber ++ (complete ++ (pdpInfos ++ (cancelType ++ (freeze ++ cnDomain))))))))))

end GsupMapProxy.Gsup
