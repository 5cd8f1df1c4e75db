import GsupMapProxy.Common.Buffer

/-!
# MAP messages (`src/map/MapTypes.hpp`, `src/map/MapMessage.hpp`)

As on the GSUP side, `enum class MapOperation : uint8_t` holds every byte (`map::decode` casts
the operation code), so the bytes that are no enumerator are `unlisted`.
-/

namespace GsupMapProxy.Map

/-- The octets of the enumerators (`MapTypes.hpp:9-20`). -/
def mapOperationCodes : List UInt8 := [2, 3, 7, 8, 56, 23, 24, 67, 0xFF]

/-- `enum class MapOperation : uint8_t` (`MapTypes.hpp:9-20`). -/
inductive MapOperation where
  | updateLocation
  | cancelLocation
  | insertSubscriberData
  | deleteSubscriberData
  | sendAuthenticationInfo
  | updateGprsLocation
  | sendRoutingInfoForGprs
  | purgeMS
  | unknown
  | unlisted (code : {b : UInt8 // b ∉ mapOperationCodes})
  deriving DecidableEq

namespace MapOperation

/-- `static_cast<uint8_t>(operation)`. -/
def toByte : MapOperation → UInt8
  | updateLocation => 2
  | cancelLocation => 3
  | insertSubscriberData => 7
  | deleteSubscriberData => 8
  | sendAuthenticationInfo => 56
  | updateGprsLocation => 23
  | sendRoutingInfoForGprs => 24
  | purgeMS => 67
  | unknown => 0xFF
  | unlisted code => code.val

/-- `static_cast<MapOperation>(byte)`. -/
def ofByte (b : UInt8) : MapOperation :=
  if h : b ∈ mapOperationCodes then
    if b = 2 then updateLocation
    else if b = 3 then cancelLocation
    else if b = 7 then insertSubscriberData
    else if b = 8 then deleteSubscriberData
    else if b = 56 then sendAuthenticationInfo
    else if b = 23 then updateGprsLocation
    else if b = 24 then sendRoutingInfoForGprs
    else if b = 67 then purgeMS
    else unknown
  else unlisted ⟨b, h⟩

@[simp] theorem ofByte_toByte (op : MapOperation) : ofByte op.toByte = op := by
  cases op with
  | unlisted code => simp [ofByte, toByte, code.property]
  | _ => rfl

end MapOperation

/-! The TCAP and BER tags (`MapTypes.hpp:24-48`). -/

def kTcapTagBegin : UInt8 := 0x62
def kTcapTagEnd : UInt8 := 0x64
def kTcapTagOtid : UInt8 := 0x48
def kTcapTagDtid : UInt8 := 0x49
def kTcapTagComponents : UInt8 := 0x6c
def kCompTagInvoke : UInt8 := 0xa1
def kCompTagReturnResult : UInt8 := 0xa2
def kCompTagReturnError : UInt8 := 0xa3
def kBerInt : UInt8 := 0x02
def kBerOctetStr : UInt8 := 0x04
def kBerNull : UInt8 := 0x05
def kBerSequence : UInt8 := 0x30

/-- `struct MapAuthTriplet` (`MapMessage.hpp:11-15`). -/
structure MapAuthTriplet where
  rand : Bytes
  sres : Bytes
  kc : Bytes
  deriving DecidableEq, Repr

/-- `struct MapAuthQuintuplet` (`MapMessage.hpp:17-23`). -/
structure MapAuthQuintuplet where
  rand : Bytes
  xres : Bytes
  ck : Bytes
  ik : Bytes
  autn : Bytes
  deriving DecidableEq, Repr

/-- `enum class ComponentType` (`MapMessage.hpp:26`). -/
inductive ComponentType where
  | invoke
  | returnResult
  | returnError
  | reject
  deriving DecidableEq, Repr

/-- `struct MapMessage` (`MapMessage.hpp:31-70`). -/
structure MapMessage where
  transactionId : UInt32 := 0
  component : ComponentType := .invoke
  invokeId : UInt8 := 1
  isLastComponent : Bool := true
  operation : MapOperation := .unknown
  imsi : Str := []
  numRequestedVectors : Option UInt8 := none
  authTriplets : List MapAuthTriplet := []
  authQuintuplets : List MapAuthQuintuplet := []
  sgsnNumber : Option Bytes := none
  sgsnAddress : Option Bytes := none
  hlrNumber : Option Bytes := none
  msisdn : Option Bytes := none
  cancelType : Option UInt8 := none
  freezePtmsi : Bool := false
  errorCode : Option UInt8 := none
  deriving DecidableEq

end GsupMapProxy.Map
