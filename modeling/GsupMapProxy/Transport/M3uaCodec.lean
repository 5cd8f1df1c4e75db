import GsupMapProxy.Common.Buffer
import GsupMapProxy.Misc.Reassembly

/-!
# M3UA (`src/transport/M3uaTypes.hpp`, `src/transport/M3uaCodec.cpp`)

`decode` checks every read against `bodyEnd`, which is at most `data.size()`, so its reader is
modelled by the unread bytes in front of `bodyEnd`: `r.pos() + n <= bodyEnd` compares `n` with
their number.
-/

namespace GsupMapProxy.M3ua

open Misc

def kVersion : UInt8 := 0x01

def kClassTransf : UInt8 := 0x01
def kClassAspsm : UInt8 := 0x03
def kClassAsptm : UInt8 := 0x04

def kTypeData : UInt8 := 0x01
def kTypeAspUp : UInt8 := 0x01
def kTypeAspUpAck : UInt8 := 0x02
def kTypeHeartbeat : UInt8 := 0x05
def kTypeHeartbeatAck : UInt8 := 0x06
def kTypeAspAc : UInt8 := 0x01
def kTypeAspAcAck : UInt8 := 0x02

def kTagRoutingCtx : UInt16 := 0x0006
def kTagHeartbeatData : UInt16 := 0x0009
def kTagProtocolData : UInt16 := 0x0210

def kSiSccp : UInt8 := 0x03
def kNiInternational : UInt8 := 0x00

def kCommonHeaderSize : Nat := 8

/-- `M3uaCodec.hpp:81`. -/
def kMaxM3uaMessageSize : Nat := 64 * 1024

/-- `struct ProtocolData` (`M3uaCodec.hpp:19-27`). -/
structure ProtocolData where
  opc : UInt32 := 0
  dpc : UInt32 := 0
  si : UInt8 := kSiSccp
  ni : UInt8 := kNiInternational
  mp : UInt8 := 0
  sls : UInt8 := 0
  userData : Bytes := []
  deriving DecidableEq, Repr

/-- `struct M3uaMessage` (`M3uaCodec.hpp:29-41`). -/
structure M3uaMessage where
  msgClass : UInt8
  msgType : UInt8
  routingContext : Option UInt32 := none
  protocolData : Option ProtocolData := none
  heartbeatData : Bytes := []
  deriving DecidableEq, Repr

/-- `makeAspUp` (`M3uaCodec.hpp:55-57`). -/
def makeAspUp : M3uaMessage := { msgClass := kClassAspsm, msgType := kTypeAspUp }

/-- `makeAspAc` (`M3uaCodec.hpp:60-62`). -/
def makeAspAc (rc : Option UInt32) : M3uaMessage :=
  { msgClass := kClassAsptm, msgType := kTypeAspAc, routingContext := rc }

/-- `makeHeartbeat` (`M3uaCodec.hpp:65-67`), called with no data. -/
def makeHeartbeat : M3uaMessage := { msgClass := kClassAspsm, msgType := kTypeHeartbeat }

/-- `makeHeartbeatAck` (`M3uaCodec.hpp:69-71`). -/
def makeHeartbeatAck (data : Bytes) : M3uaMessage :=
  { msgClass := kClassAspsm, msgType := kTypeHeartbeatAck, heartbeatData := data }

/-- `makeData` (`M3uaCodec.hpp:74-76`). -/
def makeData (pd : ProtocolData) (rc : Option UInt32) : M3uaMessage :=
  { msgClass := kClassTransf, msgType := kTypeData, routingContext := rc, protocolData := some pd }

/-! ## Encoding -/

/-- `(4 - (n % 4)) % 4`. -/
def padding (n : Nat) : Nat := (4 - n % 4) % 4

/-- `writeTlv` (`M3uaCodec.cpp:10-18`). -/
def writeTlv (tag : UInt16) (value : Bytes) : Bytes :=
  let len := UInt16.ofNat (4 + value.length)
  writeBE16 tag ++ writeBE16 len ++ value ++ List.replicate (padding value.length) 0

/-- `writeTlvU32` (`M3uaCodec.cpp:20-27`). -/
def writeTlvU32 (tag : UInt16) (v : UInt32) : Bytes := writeTlv tag (writeBE32 v)

/-- The value of the Protocol Data TLV (`M3uaCodec.cpp:46-54`). -/
def protocolDataValue (pd : ProtocolData) : Bytes :=
  writeBE32 pd.opc ++ writeBE32 pd.dpc ++ [pd.si, pd.ni, pd.mp, pd.sls] ++ pd.userData

/-- The TLVs of a message (`M3uaCodec.cpp:32-56`). -/
def encodeBody (msg : M3uaMessage) : Bytes :=
  (match msg.routingContext with
    | some rc => writeTlvU32 kTagRoutingCtx rc
    | none => []) ++
  (if msg.heartbeatData = [] then [] else writeTlv kTagHeartbeatData msg.heartbeatData) ++
  (match msg.protocolData with
    | some pd => writeTlv kTagProtocolData (protocolDataValue pd)
    | none => [])

/-- `encode` (`M3uaCodec.cpp:31-69`). -/
def encode (msg : M3uaMessage) : Bytes :=
  let body := encodeBody msg
  let totalLen := UInt32.ofNat (kCommonHeaderSize + body.length)
  [kVersion, 0x00, msg.msgClass, msg.msgType] ++ writeBE32 totalLen ++ body

/-! ## Decoding -/

/-- The value of a Protocol Data TLV, taken apart (`M3uaCodec.cpp:126-137`). -/
def decodeProtocolData (value : Bytes) : Except Exn ProtocolData :=
  if value.length < 12 then .error (.runtimeError "M3UA ProtocolData TLV too short")
  else do
    let (opc, pr) ← readBE32 value
    let (dpc, pr) ← readBE32 pr
    let (si, pr) ← read8 pr
    let (ni, pr) ← read8 pr
    let (mp, pr) ← read8 pr
    let (sls, pr) ← read8 pr
    return { opc, dpc, si, ni, mp, sls, userData := pr }

/-- The `switch` over the tag (`M3uaCodec.cpp:112-143`). -/
def setTlv (msg : M3uaMessage) (tag : UInt16) (value : Bytes) : Except Exn M3uaMessage :=
  if tag = kTagRoutingCtx then
    match readBE32 value with
    | .ok (rc, _) => .ok { msg with routingContext := some rc }
    | .error _ => .ok msg
  else if tag = kTagHeartbeatData then .ok { msg with heartbeatData := value }
  else if tag = kTagProtocolData then do
    let pd ← decodeProtocolData value
    return { msg with protocolData := some pd }
  else .ok msg

/-- The alignment padding behind a value, where the message holds all of it
(`M3uaCodec.cpp:107-110`). -/
def skipPadding (valueLen : Nat) (r : BufferReader) : BufferReader :=
  let pad := padding valueLen
  if pad > 0 ∧ pad ≤ r.length then r.drop pad else r

/-- One turn of the loop over TLVs (`M3uaCodec.cpp:96-144`). Fewer than four bytes are left
over, and end it. -/
def tlvTurn (msg : M3uaMessage) (r : BufferReader) : Except Exn (M3uaMessage × BufferReader) :=
  if r.length < 4 then .ok (msg, [])
  else do
    let (tag, r) ← readBE16 r
    let (len, r) ← readBE16 r
    if len < 4 then throw (.runtimeError "M3UA TLV: length < 4")
    else
      let valueLen := len.toNat - 4
      if r.length < valueLen then
        throw (.runtimeError "M3UA TLV: value extends past message")
      else
        let (value, r) ← readBytes valueLen r
        let msg ← setTlv msg tag value
        return (msg, skipPadding valueLen r)

/-- `decode` (`M3uaCodec.cpp:73-147`). -/
def decode (data : Bytes) : Except Exn (Option M3uaMessage) :=
  if data.length < kCommonHeaderSize then .ok none
  else do
    let (version, r) ← read8 data
    let (_, r) ← read8 r
    let (msgClass, r) ← read8 r
    let (msgType, r) ← read8 r
    let (totalLen, r) ← readBE32 r
    if version ≠ kVersion then throw (.runtimeError "M3UA: unexpected version")
    else if totalLen.toNat < kCommonHeaderSize then
      throw (.runtimeError "M3UA: length < header size")
    else if data.length < totalLen.toNat then return none
    else
      let body := r.take (totalLen.toNat - kCommonHeaderSize)
      let msg ← drain tlvTurn { msgClass, msgType } body
      return some msg

/-- `class M3uaDecoder` (`M3uaCodec.hpp:84-91`): its `buf_`. -/
abbrev M3uaDecoder := Bytes

/-- `M3uaDecoder::feed` (`M3uaCodec.cpp:151-153`). -/
def M3uaDecoder.feed (buf : M3uaDecoder) (data : Bytes) : M3uaDecoder := buf ++ data

/-- The length field of a header (`M3uaCodec.cpp:158-160`). -/
def headerLength (b4 b5 b6 b7 : UInt8) : UInt32 :=
  (b4.toUInt32 <<< 24) ||| (b5.toUInt32 <<< 16) ||| (b6.toUInt32 <<< 8) ||| b7.toUInt32

/-- `M3uaDecoder::next` (`M3uaCodec.cpp:155-172`). -/
def M3uaDecoder.next (buf : M3uaDecoder) : Except Exn (Option M3uaMessage) × M3uaDecoder :=
  match buf with
  | _ :: _ :: _ :: _ :: b4 :: b5 :: b6 :: b7 :: _ =>
      let totalLen := (headerLength b4 b5 b6 b7).toNat
      if totalLen > kMaxM3uaMessageSize then
        (.error (.runtimeError "M3UA: oversized message (possible DoS)"), [])
      else if buf.length < totalLen then (.ok none, buf)
      else (decode (buf.take totalLen), buf.drop totalLen)
  | _ => (.ok none, buf)

end GsupMapProxy.M3ua
