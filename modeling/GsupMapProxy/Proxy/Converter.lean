import GsupMapProxy.Gsup.Message
import GsupMapProxy.Map.Message

/-!
# Converter (`src/proxy/Converter.cpp`)

The translations between GSUP and MAP messages, one function per direction and initiator. A
message type or operation a direction does not know makes its function throw a
`ConversionError`.
-/

namespace GsupMapProxy

open Gsup Map

/-- `throw ConversionError(what)`. -/
def conversionError {α : Type} (what : String) : Except Exn α := .error (.conversionError what)

/-- `gsupToMap` (`Converter.cpp:11-55`). -/
def gsupToMap (gsup : GsupMessage) (transactionId : UInt32) (invokeId : UInt8) :
    Except Exn MapMessage :=
  let m : MapMessage :=
    { transactionId := transactionId, invokeId := invokeId, component := .invoke,
      imsi := gsup.imsi }
  match gsup.type with
  | .sendAuthInfoRequest =>
      .ok { m with
        operation := .sendAuthenticationInfo,
        numRequestedVectors := some (gsup.numVectorsRequested.getD 1) }
  | .updateLocationRequest => .ok { m with operation := .updateGprsLocation }
  | .locationCancelRequest =>
      .ok { m with operation := .cancelLocation, cancelType := gsup.cancelType }
  | .insertDataRequest =>
      .ok { m with operation := .insertSubscriberData, msisdn := gsup.msisdn }
  | .purgeMsRequest => .ok { m with operation := .purgeMS }
  | _ => conversionError "gsupToMap: unsupported GSUP message type"

/-- The GSUP error type of an operation (`Converter.cpp:66-84`). -/
def gsupErrorType : MapOperation → Except Exn MessageType
  | .sendAuthenticationInfo => .ok .sendAuthInfoError
  | .updateGprsLocation => .ok .updateLocationError
  | .cancelLocation => .ok .locationCancelError
  | .insertSubscriberData => .ok .insertDataError
  | .purgeMS => .ok .purgeMsError
  | _ => conversionError "mapToGsup: unknown operation in ReturnError"

/-- The body of the triplet loop (`Converter.cpp:96-100`). -/
def tripletToAuthTuple (t : MapAuthTriplet) : AuthTuple :=
  { rand := t.rand, sres := t.sres, kc := t.kc }

/-- The body of the quintuplet loop: SRES and Kc stay empty, XRES becomes RES
(`Converter.cpp:103-111`). -/
def quintupletToAuthTuple (q : MapAuthQuintuplet) : AuthTuple :=
  { rand := q.rand, sres := [], kc := [], ik := some q.ik, ck := some q.ck,
    autn := some q.autn, res := some q.xres }

/-- The ReturnResult half of `mapToGsup` (`Converter.cpp:90-139`). -/
def mapResultToGsup (map : MapMessage) : Except Exn GsupMessage :=
  let g : GsupMessage := { imsi := map.imsi }
  match map.operation with
  | .sendAuthenticationInfo =>
      .ok { g with
        type := .sendAuthInfoResult,
        authTuples := map.authTriplets.map tripletToAuthTuple ++
          map.authQuintuplets.map quintupletToAuthTuple }
  | .updateGprsLocation =>
      .ok { g with type := .updateLocationResult, hlrNumber := map.hlrNumber }
  | .cancelLocation => .ok { g with type := .locationCancelResult }
  | .insertSubscriberData => .ok { g with type := .insertDataResult }
  | .purgeMS => .ok { g with type := .purgeMsResult, freezePtmsi := map.freezePtmsi }
  | _ => conversionError "mapToGsup: unsupported MAP operation"

/-- `mapToGsup` (`Converter.cpp:59-141`). -/
def mapToGsup (map : MapMessage) : Except Exn GsupMessage :=
  if map.component = .returnError then do
    let type ← gsupErrorType map.operation
    return { type := type, imsi := map.imsi, cause := map.errorCode }
  else mapResultToGsup map

/-- `mapInvokeToGsup` (`Converter.cpp:145-181`). -/
def mapInvokeToGsup (map : MapMessage) : Except Exn GsupMessage :=
  if map.component ≠ .invoke then
    conversionError "mapInvokeToGsup: expected Invoke component"
  else
    let g : GsupMessage := { imsi := map.imsi }
    match map.operation with
    | .insertSubscriberData => .ok { g with type := .insertDataRequest, msisdn := map.msisdn }
    | .cancelLocation =>
        .ok { g with type := .locationCancelRequest, cancelType := map.cancelType }
    | .deleteSubscriberData => .ok { g with type := .deleteDataRequest }
    | .purgeMS => .ok { g with type := .purgeMsRequest }
    | _ => conversionError "mapInvokeToGsup: unsupported MAP operation"

/-- `isError` of `gsupToMapResult` (`Converter.cpp:194-198`). -/
def isHlrInitiatedError (type : MessageType) : Bool :=
  type = .insertDataError || type = .locationCancelError || type = .deleteDataError ||
    type = .purgeMsError

/-- The operation an SGSN's answer belongs to (`Converter.cpp:203-226`). -/
def answeredOperation : MessageType → Except Exn MapOperation
  | .insertDataResult | .insertDataError => .ok .insertSubscriberData
  | .locationCancelResult | .locationCancelError => .ok .cancelLocation
  | .deleteDataResult | .deleteDataError => .ok .deleteSubscriberData
  | .purgeMsResult | .purgeMsError => .ok .purgeMS
  | _ => conversionError "gsupToMapResult: not an HLR-initiated result type"

/-- `gsupToMapResult` (`Converter.cpp:185-228`). -/
def gsupToMapResult (gsup : GsupMessage) (transactionId : UInt32) (invokeId : UInt8) :
    Except Exn MapMessage := do
  let isError := isHlrInitiatedError gsup.type
  let operation ← answeredOperation gsup.type
  return {
    transactionId := transactionId
    invokeId := invokeId
    imsi := gsup.imsi
    isLastComponent := true
    component := if isError then .returnError else .returnResult
    errorCode := if isError then gsup.cause else none
    operation := operation }

/-- `isHlrInitiatedGsupType` (`Converter.cpp:232-247`). -/
def isHlrInitiatedGsupType : MessageType → Bool
  | .insertDataResult | .insertDataError | .locationCancelResult | .locationCancelError
  | .deleteDataResult | .deleteDataError => true
  | .purgeMsResult | .purgeMsError => true
  | _ => false

/-- `expectedGsupResult` (`Converter.cpp:251-260`). -/
def expectedGsupResult : MessageType → Except Exn MessageType
  | .sendAuthInfoRequest => .ok .sendAuthInfoResult
  | .updateLocationRequest => .ok .updateLocationResult
  | .locationCancelRequest => .ok .locationCancelResult
  | .insertDataRequest => .ok .insertDataResult
  | .purgeMsRequest => .ok .purgeMsResult
  | _ => conversionError "expectedGsupResult: not a request type"

/-- `expectedGsupError` (`Converter.cpp:262-271`). -/
def expectedGsupError : MessageType → Except Exn MessageType
  | .sendAuthInfoRequest => .ok .sendAuthInfoError
  | .updateLocationRequest => .ok .updateLocationError
  | .locationCancelRequest => .ok .locationCancelError
  | .insertDataRequest => .ok .insertDataError
  | .purgeMsRequest => .ok .purgeMsError
  | _ => conversionError "expectedGsupError: not a request type"

end GsupMapProxy
