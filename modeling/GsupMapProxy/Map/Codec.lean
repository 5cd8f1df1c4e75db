import GsupMapProxy.Common.Bcd
import GsupMapProxy.Map.BerCodec
import GsupMapProxy.Map.Message

/-!
# MAP/TCAP codec (`src/map/MapCodec.cpp`)

Requests are TCAP Begin PDUs with an Invoke component, answers are End PDUs with a
ReturnResultLast or ReturnError component. The decoder looks at tags only: it accepts any outer
tag, any number of transaction id fields (the last one counts) and any number of components,
which it decodes one after the other into the same message.
-/

namespace GsupMapProxy.Map

open Misc Ber

/-! ## IMSI -/

/-- `map::imsiToBcd` (`MapCodec.cpp:47-57`). -/
def imsiToBcd (imsi : Str) : Bytes := packDigits imsi

/-- `map::bcdToImsi` (`MapCodec.cpp:59-72`). -/
def bcdToImsi (bcd : Bytes) : Except Exn Str :=
  unpackDigits (.runtimeError "MAP: invalid BCD in IMSI") bcd

/-! ## Operation argument encoders -/

/-- `if (x) writeTlv(inner, kBerOctetStr, *x)`. -/
def writeOptOctets : Option Bytes → Except Exn Bytes
  | none => .ok []
  | some val => writeTlv kBerOctetStr val

/-- `encodeSendAuthInfoReq` (`MapCodec.cpp:76-84`). -/
def encodeSendAuthInfoReq (m : MapMessage) : Except Exn Bytes := do
  let imsi ← writeTlv kBerOctetStr (imsiToBcd m.imsi)
  let num ← writeTlvInt kBerInt (widen (m.numRequestedVectors.getD 1))
  wrapConstructed kBerSequence (imsi ++ num)

/-- The body of the triplet loop (`MapCodec.cpp:89-95`). -/
def encodeTriplet (t : MapAuthTriplet) : Except Exn Bytes := do
  let trip ← writeEach (writeTlv kBerOctetStr) [t.rand, t.sres, t.kc]
  wrapConstructed kBerSequence trip

/-- The body of the quintuplet loop (`MapCodec.cpp:96-104`). -/
def encodeQuintuplet (q : MapAuthQuintuplet) : Except Exn Bytes := do
  let quint ← writeEach (writeTlv kBerOctetStr) [q.rand, q.xres, q.ck, q.ik, q.autn]
  wrapConstructed kBerSequence quint

/-- `encodeSendAuthInfoRes` (`MapCodec.cpp:86-108`). -/
def encodeSendAuthInfoRes (m : MapMessage) : Except Exn Bytes := do
  let triplets ← writeEach encodeTriplet m.authTriplets
  let quintuplets ← writeEach encodeQuintuplet m.authQuintuplets
  wrapConstructed kBerSequence (triplets ++ quintuplets)

/-- `encodeUpdateGprsLocationReq` (`MapCodec.cpp:110-118`). -/
def encodeUpdateGprsLocationReq (m : MapMessage) : Except Exn Bytes := do
  let imsi ← writeTlv kBerOctetStr (imsiToBcd m.imsi)
  let sgsnNumber ← writeOptOctets m.sgsnNumber
  let sgsnAddress ← writeOptOctets m.sgsnAddress
  wrapConstructed kBerSequence (imsi ++ (sgsnNumber ++ sgsnAddress))

/-- `encodeUpdateGprsLocationRes` (`MapCodec.cpp:120-126`). -/
def encodeUpdateGprsLocationRes (m : MapMessage) : Except Exn Bytes := do
  let hlrNumber ← writeOptOctets m.hlrNumber
  wrapConstructed kBerSequence hlrNumber

/-- `encodeCancelLocationReq` (`MapCodec.cpp:128-135`). -/
def encodeCancelLocationReq (m : MapMessage) : Except Exn Bytes := do
  let imsi ← writeTlv kBerOctetStr (imsiToBcd m.imsi)
  let cancelType := (m.cancelType.map (writeTlvOctet kBerInt)).getD []
  wrapConstructed kBerSequence (imsi ++ cancelType)

/-- `encodeInsertSubscriberDataReq` (`MapCodec.cpp:137-144`). -/
def encodeInsertSubscriberDataReq (m : MapMessage) : Except Exn Bytes := do
  let imsi ← writeTlv kBerOctetStr (imsiToBcd m.imsi)
  let msisdn ← writeOptOctets m.msisdn
  wrapConstructed kBerSequence (imsi ++ msisdn)

/-- `encodeDeleteSubscriberDataReq` (`MapCodec.cpp:146-152`). -/
def encodeDeleteSubscriberDataReq (m : MapMessage) : Except Exn Bytes := do
  let imsi ← writeTlv kBerOctetStr (imsiToBcd m.imsi)
  wrapConstructed kBerSequence imsi

/-- `encodePurgeMsReq` (`MapCodec.cpp:154-161`). -/
def encodePurgeMsReq (m : MapMessage) : Except Exn Bytes := do
  let imsi ← writeTlv kBerOctetStr (imsiToBcd m.imsi)
  let sgsnNumber ← writeOptOctets m.sgsnNumber
  wrapConstructed kBerSequence (imsi ++ sgsnNumber)

/-- `encodePurgeMsRes` (`MapCodec.cpp:163-173`). -/
def encodePurgeMsRes (m : MapMessage) : Except Exn Bytes :=
  wrapConstructed kBerSequence (if m.freezePtmsi then [kBerNull, 0] else [])

/-! ## Component encoder -/

/-- `encodeInvoke` (`MapCodec.cpp:177-185`). -/
def encodeInvoke (m : MapMessage) (args : Bytes) : Except Exn Bytes := do
  let invokeId ← writeTlvInt kBerInt (widen m.invokeId)
  let operation ← writeTlvInt kBerInt (widen m.operation.toByte)
  wrapConstructed kCompTagInvoke (invokeId ++ (operation ++ args))

/-- `encodeReturnResult` (`MapCodec.cpp:187-201`). -/
def encodeReturnResult (m : MapMessage) (result : Bytes) : Except Exn Bytes := do
  let operation ← writeTlvInt kBerInt (widen m.operation.toByte)
  let resultSeq ← wrapConstructed kBerSequence (operation ++ result)
  let invokeId ← writeTlvInt kBerInt (widen m.invokeId)
  wrapConstructed kCompTagReturnResult (invokeId ++ resultSeq)

/-- `encodeReturnError`; 34 is systemFailure (`MapCodec.cpp:203-210`). -/
def encodeReturnError (m : MapMessage) : Except Exn Bytes := do
  let invokeId ← writeTlvInt kBerInt (widen m.invokeId)
  let errorCode ← writeTlvInt kBerInt (widen (m.errorCode.getD 34))
  wrapConstructed kCompTagReturnError (invokeId ++ errorCode)

/-! ## Main encoder -/

/-- The operation arguments: the request encoders of CancelLocation, InsertSubscriberData and
DeleteSubscriberData also serve their answers (`MapCodec.cpp:216-245`). -/
def encodeArgs (m : MapMessage) : Except Exn Bytes :=
  match m.operation with
  | .sendAuthenticationInfo =>
      if m.component = .invoke then encodeSendAuthInfoReq m else encodeSendAuthInfoRes m
  | .updateGprsLocation =>
      if m.component = .invoke then encodeUpdateGprsLocationReq m
      else encodeUpdateGprsLocationRes m
  | .cancelLocation => encodeCancelLocationReq m
  | .insertSubscriberData => encodeInsertSubscriberDataReq m
  | .deleteSubscriberData => encodeDeleteSubscriberDataReq m
  | .purgeMS => if m.component = .invoke then encodePurgeMsReq m else encodePurgeMsRes m
  | _ => .ok []

/-- The component (`MapCodec.cpp:248-261`). -/
def encodeComponent (m : MapMessage) (args : Bytes) : Except Exn Bytes :=
  match m.component with
  | .invoke => encodeInvoke m args
  | .returnResult => encodeReturnResult m args
  | .returnError => encodeReturnError m
  | .reject => .error (.runtimeError "MAP: unsupported component type")

/-- `map::encode` (`MapCodec.cpp:214-288`). The transaction id always takes four octets. -/
def encode (m : MapMessage) : Except Exn Bytes := do
  let args ← encodeArgs m
  let component ← encodeComponent m args
  let compPortion ← wrapConstructed kTcapTagComponents component
  let isRequest := m.component = .invoke
  let tid ← writeTlv (if isRequest then kTcapTagOtid else kTcapTagDtid)
    (writeBE32 m.transactionId)
  wrapConstructed (if isRequest then kTcapTagBegin else kTcapTagEnd) (tid ++ compPortion)

/-! ## Decoder helpers -/

/-- One turn of a loop over TLVs, with `f` its body. -/
def tlvTurn {σ : Type} (f : σ → UInt8 → Bytes → Except Exn σ) (s : σ) (r : BufferReader) :
    Except Exn (σ × BufferReader) := do
  let ((t, val), r) ← readTlv r
  let s ← f s t val
  return (s, r)

/-- The frame most argument decoders share: nothing to do on an empty reader, else a loop over
the TLVs inside the next TLV, whatever its tag. -/
def decodeSequence {σ : Type} (f : σ → UInt8 → Bytes → Except Exn σ) (s : σ)
    (r : BufferReader) : Except Exn σ :=
  if r = [] then .ok s
  else do
    let ((_, seqVal), _) ← readTlv r
    drain (tlvTurn f) s seqVal

/-- The loop body of `decodeSendAuthInfoReq` (`MapCodec.cpp:299-306`). -/
def sendAuthInfoReqField (m : MapMessage) (t : UInt8) (val : Bytes) : Except Exn MapMessage :=
  if t = kBerOctetStr ∧ m.imsi = [] then do
    let imsi ← bcdToImsi val
    return { m with imsi := imsi }
  else if t = kBerInt ∧ m.numRequestedVectors = none then do
    let v ← decodeInt val
    return { m with numRequestedVectors := some (narrow v) }
  else return m

/-- `decodeSendAuthInfoReq`: the only argument decoder that checks the SEQUENCE tag
(`MapCodec.cpp:292-308`). -/
def decodeSendAuthInfoReq (r : BufferReader) (m : MapMessage) : Except Exn MapMessage :=
  if r = [] then .ok m
  else do
    let ((tag, seqVal), _) ← readTlv r
    if tag ≠ kBerSequence then return m
    else drain (tlvTurn sendAuthInfoReqField) m seqVal

/-- The inner loop of `decodeSendAuthInfoRes` (`MapCodec.cpp:321-325`). -/
def octetStringField (fields : List Bytes) (ft : UInt8) (v : Bytes) : Except Exn (List Bytes) :=
  if ft = kBerOctetStr then .ok (fields ++ [v]) else .ok fields

/-- Three or four OCTET STRINGs are a triplet, five or more a quintuplet, fewer than three
nothing (`MapCodec.cpp:326-341`). -/
def addAuthVector (m : MapMessage) : List Bytes → MapMessage
  | rand :: xres :: ck :: ik :: autn :: _ =>
      { m with authQuintuplets := m.authQuintuplets ++ [⟨rand, xres, ck, ik, autn⟩] }
  | rand :: sres :: kc :: _ =>
      { m with authTriplets := m.authTriplets ++ [⟨rand, sres, kc⟩] }
  | _ => m

/-- The loop body of `decodeSendAuthInfoRes` (`MapCodec.cpp:315-342`). -/
def sendAuthInfoResField (m : MapMessage) (t : UInt8) (tripVal : Bytes) :
    Except Exn MapMessage :=
  if t ≠ kBerSequence then .ok m
  else do
    let fields ← drain (tlvTurn octetStringField) [] tripVal
    return addAuthVector m fields

/-- `decodeSendAuthInfoRes` (`MapCodec.cpp:310-344`). -/
def decodeSendAuthInfoRes (r : BufferReader) (m : MapMessage) : Except Exn MapMessage :=
  decodeSequence sendAuthInfoResField m r

/-- The loop body of `decodeUpdateGprsLocationReq`; the flag is `firstOctet`
(`MapCodec.cpp:352-360`). -/
def updateGprsLocationReqField (s : MapMessage × Bool) (t : UInt8) (val : Bytes) :
    Except Exn (MapMessage × Bool) :=
  let (m, firstOctet) := s
  if t = kBerOctetStr then
    if firstOctet ∧ m.imsi = [] then do
      let imsi ← bcdToImsi val
      return ({ m with imsi := imsi }, false)
    else if m.sgsnNumber = none then return ({ m with sgsnNumber := some val }, firstOctet)
    else if m.sgsnAddress = none then return ({ m with sgsnAddress := some val }, firstOctet)
    else return (m, firstOctet)
  else return (m, firstOctet)

/-- `decodeUpdateGprsLocationReq` (`MapCodec.cpp:346-362`). -/
def decodeUpdateGprsLocationReq (r : BufferReader) (m : MapMessage) : Except Exn MapMessage := do
  let s ← decodeSequence updateGprsLocationReqField (m, true) r
  return s.1

/-- The loop body of `decodeUpdateGprsLocationRes` (`MapCodec.cpp:369-373`). -/
def updateGprsLocationResField (m : MapMessage) (t : UInt8) (val : Bytes) :
    Except Exn MapMessage :=
  if t = kBerOctetStr ∧ m.hlrNumber = none then .ok { m with hlrNumber := some val } else .ok m

/-- `decodeUpdateGprsLocationRes` (`MapCodec.cpp:364-375`). -/
def decodeUpdateGprsLocationRes (r : BufferReader) (m : MapMessage) : Except Exn MapMessage :=
  decodeSequence updateGprsLocationResField m r

/-- The loop body of `decodeCancelLocationReq` (`MapCodec.cpp:383-388`). -/
def cancelLocationReqField (s : MapMessage × Bool) (t : UInt8) (val : Bytes) :
    Except Exn (MapMessage × Bool) :=
  let (m, firstOctet) := s
  if t = kBerOctetStr ∧ firstOctet then do
    let imsi ← bcdToImsi val
    return ({ m with imsi := imsi }, false)
  else if t = kBerInt then do
    let v ← decodeInt val
    return ({ m with cancelType := some (narrow v) }, firstOctet)
  else return (m, firstOctet)

/-- `decodeCancelLocationReq` (`MapCodec.cpp:377-390`). -/
def decodeCancelLocationReq (r : BufferReader) (m : MapMessage) : Except Exn MapMessage := do
  let s ← decodeSequence cancelLocationReqField (m, true) r
  return s.1

/-- The loop body of `decodeInsertSubscriberDataReq` (`MapCodec.cpp:398-405`). -/
def insertSubscriberDataReqField (s : MapMessage × Bool) (t : UInt8) (val : Bytes) :
    Except Exn (MapMessage × Bool) :=
  let (m, firstOctet) := s
  if t = kBerOctetStr then
    if firstOctet then do
      let imsi ← bcdToImsi val
      return ({ m with imsi := imsi }, false)
    else if m.msisdn = none then return ({ m with msisdn := some val }, firstOctet)
    else return (m, firstOctet)
  else return (m, firstOctet)

/-- `decodeInsertSubscriberDataReq` (`MapCodec.cpp:392-407`). -/
def decodeInsertSubscriberDataReq (r : BufferReader) (m : MapMessage) :
    Except Exn MapMessage := do
  let s ← decodeSequence insertSubscriberDataReqField (m, true) r
  return s.1

/-- `decodeDeleteSubscriberDataReq`: one TLV, no loop (`MapCodec.cpp:409-421`). -/
def decodeDeleteSubscriberDataReq (r : BufferReader) (m : MapMessage) :
    Except Exn MapMessage :=
  if r = [] then .ok m
  else do
    let ((_, seqVal), _) ← readTlv r
    if seqVal = [] then return m
    else
      let ((t, val), _) ← readTlv seqVal
      if t = kBerOctetStr ∧ m.imsi = [] then
        let imsi ← bcdToImsi val
        return { m with imsi := imsi }
      else return m

/-- The loop body of `decodePurgeMsReq` (`MapCodec.cpp:429-436`). -/
def purgeMsReqField (s : MapMessage × Bool) (t : UInt8) (val : Bytes) :
    Except Exn (MapMessage × Bool) :=
  let (m, firstOctet) := s
  if t = kBerOctetStr then
    if firstOctet then do
      let imsi ← bcdToImsi val
      return ({ m with imsi := imsi }, false)
    else if m.sgsnNumber = none then return ({ m with sgsnNumber := some val }, firstOctet)
    else return (m, firstOctet)
  else return (m, firstOctet)

/-- `decodePurgeMsReq` (`MapCodec.cpp:423-438`). -/
def decodePurgeMsReq (r : BufferReader) (m : MapMessage) : Except Exn MapMessage := do
  let s ← decodeSequence purgeMsReqField (m, true) r
  return s.1

/-- The loop body of `decodePurgeMsRes` (`MapCodec.cpp:445-449`). -/
def purgeMsResField (m : MapMessage) (t : UInt8) (_val : Bytes) : Except Exn MapMessage :=
  if t = kBerNull then .ok { m with freezePtmsi := true } else .ok m

/-- `decodePurgeMsRes` (`MapCodec.cpp:440-451`). -/
def decodePurgeMsRes (r : BufferReader) (m : MapMessage) : Except Exn MapMessage :=
  decodeSequence purgeMsResField m r

/-! ## Main decoder -/

/-- The switch over the operation of an Invoke (`MapCodec.cpp:493-508`). -/
def decodeInvokeArgs (r : BufferReader) (msg : MapMessage) : Except Exn MapMessage :=
  match msg.operation with
  | .sendAuthenticationInfo => decodeSendAuthInfoReq r msg
  | .updateGprsLocation => decodeUpdateGprsLocationReq r msg
  | .cancelLocation => decodeCancelLocationReq r msg
  | .insertSubscriberData => decodeInsertSubscriberDataReq r msg
  | .deleteSubscriberData => decodeDeleteSubscriberDataReq r msg
  | .purgeMS => decodePurgeMsReq r msg
  | _ => .ok msg

/-- The switch over the operation of a ReturnResult (`MapCodec.cpp:518-526`). -/
def decodeResultArgs (r : BufferReader) (msg : MapMessage) : Except Exn MapMessage :=
  match msg.operation with
  | .sendAuthenticationInfo => decodeSendAuthInfoRes r msg
  | .updateGprsLocation => decodeUpdateGprsLocationRes r msg
  | .purgeMS => decodePurgeMsRes r msg
  | _ => .ok msg

/-- The body of the component loop. Components with other tags (a Reject, say) are skipped
(`MapCodec.cpp:479-531`). -/
def decodeComponent (msg : MapMessage) (compTag : UInt8) (compVal : Bytes) :
    Except Exn MapMessage :=
  if compTag = kCompTagInvoke then do
    let ((_, iv), cbr) ← readTlv compVal
    let id ← decodeInt iv
    let ((_, ov), cbr) ← readTlv cbr
    let op ← decodeInt ov
    decodeInvokeArgs cbr { msg with
      component := .invoke, invokeId := narrow id, operation := MapOperation.ofByte (narrow op) }
  else if compTag = kCompTagReturnResult then do
    let ((_, iv), cbr) ← readTlv compVal
    let id ← decodeInt iv
    let ((_, resultVal), _) ← readTlv cbr
    let ((_, opVal), rr) ← readTlv resultVal
    let op ← decodeInt opVal
    decodeResultArgs rr { msg with
      component := .returnResult, invokeId := narrow id,
      operation := MapOperation.ofByte (narrow op) }
  else if compTag = kCompTagReturnError then do
    let ((_, iv), cbr) ← readTlv compVal
    let id ← decodeInt iv
    let ((_, ev), _) ← readTlv cbr
    let e ← decodeInt ev
    return { msg with
      component := .returnError, invokeId := narrow id, errorCode := some (narrow e) }
  else return msg

/-- `for (uint8_t b : val) tid = (tid << 8) | b` (`MapCodec.cpp:471-472`). -/
def tidOfOctets (val : Bytes) : UInt32 :=
  val.foldl (fun tid b => (tid <<< 8) ||| b.toUInt32) 0

/-- The body of the loop over the TCAP fields (`MapCodec.cpp:466-535`). -/
def decodeTcapField (msg : MapMessage) (t : UInt8) (val : Bytes) : Except Exn MapMessage :=
  if t = kTcapTagOtid ∨ t = kTcapTagDtid then .ok { msg with transactionId := tidOfOctets val }
  else if t = kTcapTagComponents then drain (tlvTurn decodeComponent) msg val
  else .ok msg

/-- `map::decode` (`MapCodec.cpp:455-541`). -/
def decode (data : Bytes) : Except Exn MapMessage := do
  let ((_, tcapBody), _) ← readTlv data
  drain (tlvTurn decodeTcapField) {} tcapBody

end GsupMapProxy.Map
