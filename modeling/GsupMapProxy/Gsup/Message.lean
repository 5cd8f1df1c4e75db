import GsupMapProxy.Common.Buffer

/-!
# GSUP messages (`src/gsup/GsupTypes.hpp`, `src/gsup/GsupMessage.hpp`)

`enum class MessageType : uint8_t` and `enum class IeTag : uint8_t` can hold every byte: `decode`
casts the octets it reads without looking at them. The enumerators are constructors here and
every other byte is an `unlisted` one, which carries the proof that it is none of them, so a
byte has exactly one `MessageType` and one `IeTag`.
-/

namespace GsupMapProxy.Gsup

/-- The octets of the enumerators (`GsupTypes.hpp:11-42`). -/
def messageTypeCodes : List UInt8 :=
  [0x04, 0x05, 0x06, 0x08, 0x09, 0x0a, 0x0c, 0x0d, 0x0e, 0x10, 0x11, 0x12, 0x14, 0x15, 0x16,
    0x1c, 0x1d, 0x1e, 0xFF]

/-- `enum class MessageType : uint8_t` (`GsupTypes.hpp:11-42`). -/
inductive MessageType where
  | updateLocationRequest
  | updateLocationError
  | updateLocationResult
  | sendAuthInfoRequest
  | sendAuthInfoError
  | sendAuthInfoResult
  | purgeMsRequest
  | purgeMsError
  | purgeMsResult
  | insertDataRequest
  | insertDataError
  | insertDataResult
  | deleteDataRequest
  | deleteDataError
  | deleteDataResult
  | locationCancelRequest
  | locationCancelError
  | locationCancelResult
  | unknown
  | unlisted (code : {b : UInt8 // b ∉ messageTypeCodes})
  deriving DecidableEq

namespace MessageType

/-- `static_cast<uint8_t>(type)`. -/
def toByte : MessageType → UInt8
  | updateLocationRequest => 0x04
  | updateLocationError => 0x05
  | updateLocationResult => 0x06
  | sendAuthInfoRequest => 0x08
  | sendAuthInfoError => 0x09
  | sendAuthInfoResult => 0x0a
  | purgeMsRequest => 0x0c
  | purgeMsError => 0x0d
  | purgeMsResult => 0x0e
  | insertDataRequest => 0x10
  | insertDataError => 0x11
  | insertDataResult => 0x12
  | deleteDataRequest => 0x14
  | deleteDataError => 0x15
  | deleteDataResult => 0x16
  | locationCancelRequest => 0x1c
  | locationCancelError => 0x1d
  | locationCancelResult => 0x1e
  | unknown => 0xFF
  | unlisted code => code.val

/-- `static_cast<MessageType>(byte)`. -/
def ofByte (b : UInt8) : MessageType :=
  if h : b ∈ messageTypeCodes then
    if b = 0x04 then updateLocationRequest
    else if b = 0x05 then updateLocationError
    else if b = 0x06 then updateLocationResult
    else if b = 0x08 then sendAuthInfoRequest
    else if b = 0x09 then sendAuthInfoError
    else if b = 0x0a then sendAuthInfoResult
    else if b = 0x0c then purgeMsRequest
    else if b = 0x0d then purgeMsError
    else if b = 0x0e then purgeMsResult
    else if b = 0x10 then insertDataRequest
    else if b = 0x11 then insertDataError
    else if b = 0x12 then insertDataResult
    else if b = 0x14 then deleteDataRequest
    else if b = 0x15 then deleteDataError
    else if b = 0x16 then deleteDataResult
    else if b = 0x1c then locationCancelRequest
    else if b = 0x1d then locationCancelError
    else if b = 0x1e then locationCancelResult
    else unknown
  else unlisted ⟨b, h⟩

@[simp] theorem ofByte_toByte (t : MessageType) : ofByte t.toByte = t := by
  cases t with
  | unlisted code => simp [ofByte, toByte, code.property]
  | _ => rfl

end MessageType

/-- The octets of the enumerators (`GsupTypes.hpp:45-76`). -/
def ieTagCodes : List UInt8 :=
  [0x01, 0x02, 0x03, 0x04, 0x05, 0x06, 0x07, 0x08, 0x09, 0x0a, 0x0f, 0x10, 0x20,
    0x21, 0x22, 0x23, 0x24, 0x25, 0x26, 0x27, 0x28, 0x60, 0x61, 0x62, 0x63, 0x64]

/-- `enum class IeTag : uint8_t` (`GsupTypes.hpp:45-76`). -/
inductive IeTag where
  | imsi
  | cause
  | authTuple
  | pdpInfoComplete
  | pdpInfo
  | cancelType
  | freezePtmsi
  | msisdn
  | hlrNumber
  | pc
  | imeiResult
  | numVectorsReq
  | rand
  | sres
  | kc
  | ik
  | ck
  | autn
  | auts
  | res
  | cnDomain
  | pdpContextId
  | pdpType
  | accessPointName
  | pdpAddress
  | pdpQos
  | unlisted (code : {b : UInt8 // b ∉ ieTagCodes})
  deriving DecidableEq

namespace IeTag

/-- `static_cast<uint8_t>(tag)`. -/
def toByte : IeTag → UInt8
  | imsi => 0x01
  | cause => 0x02
  | authTuple => 0x03
  | pdpInfoComplete => 0x04
  | pdpInfo => 0x05
  | cancelType => 0x06
  | freezePtmsi => 0x07
  | msisdn => 0x08
  | hlrNumber => 0x09
  | pc => 0x0a
  | imeiResult => 0x0f
  | numVectorsReq => 0x10
  | rand => 0x20
  | sres => 0x21
  | kc => 0x22
  | ik => 0x23
  | ck => 0x24
  | autn => 0x25
  | auts => 0x26
  | res => 0x27
  | cnDomain => 0x28
  | pdpContextId => 0x60
  | pdpType => 0x61
  | accessPointName => 0x62
  | pdpAddress => 0x63
  | pdpQos => 0x64
  | unlisted code => code.val

/-- `static_cast<IeTag>(byte)`. -/
def ofByte (b : UInt8) : IeTag :=
  if h : b ∈ ieTagCodes then
    if b = 0x01 then imsi
    else if b = 0x02 then cause
    else if b = 0x03 then authTuple
    else if b = 0x04 then pdpInfoComplete
    else if b = 0x05 then pdpInfo
    else if b = 0x06 then cancelType
    else if b = 0x07 then freezePtmsi
    else if b = 0x08 then msisdn
    else if b = 0x09 then hlrNumber
    else if b = 0x0a then pc
    else if b = 0x0f then imeiResult
    else if b = 0x10 then numVectorsReq
    else if b = 0x20 then rand
    else if b = 0x21 then sres
    else if b = 0x22 then kc
    else if b = 0x23 then ik
    else if b = 0x24 then ck
    else if b = 0x25 then autn
    else if b = 0x26 then auts
    else if b = 0x27 then res
    else if b = 0x28 then cnDomain
    else if b = 0x60 then pdpContextId
    else if b = 0x61 then pdpType
    else if b = 0x62 then accessPointName
    else if b = 0x63 then pdpAddress
    else pdpQos
  else unlisted ⟨b, h⟩

@[simp] theorem ofByte_toByte (t : IeTag) : ofByte t.toByte = t := by
  cases t with
  | unlisted code => simp [ofByte, toByte, code.property]
  | _ => rfl

end IeTag

/-- `enum class CancelType : uint8_t`; any octet is stored and nothing switches on it
(`GsupTypes.hpp:79-82`). -/
abbrev CancelType := UInt8

/-- `enum class CnDomain : uint8_t`; any octet is stored and nothing switches on it
(`GsupTypes.hpp:85-88`). -/
abbrev CnDomain := UInt8

/-- `struct AuthTuple` (`GsupMessage.hpp:11-21`). -/
structure AuthTuple where
  rand : Bytes := []
  sres : Bytes := []
  kc : Bytes := []
  ik : Option Bytes := none
  ck : Option Bytes := none
  autn : Option Bytes := none
  res : Option Bytes := none
  deriving DecidableEq, Repr

/-- `struct PdpInfo` (`GsupMessage.hpp:24-30`). -/
structure PdpInfo where
  contextId : UInt8 := 0
  pdpType : Option UInt16 := none
  apn : Option Str := none
  pdpAddress : Option Bytes := none
  qos : Option Bytes := none
  deriving DecidableEq, Repr

/-- `struct GsupMessage` (`GsupMessage.hpp:34-64`). -/
structure GsupMessage where
  type : MessageType := .unknown
  imsi : Str := []
  cause : Option UInt8 := none
  numVectorsRequested : Option UInt8 := none
  authTuples : List AuthTuple := []
  msisdn : Option Bytes := none
  hlrNumber : Option Bytes := none
  cnDomain : Option CnDomain := none
  pdpInfoList : List PdpInfo := []
  pdpInfoComplete : Bool := false
  cancelType : Option CancelType := none
  freezePtmsi : Bool := false
  freezePtmsiResult : Bool := false
  deriving DecidableEq

end GsupMapProxy.Gsup
