import GsupMapProxy.Common.Buffer

/-!
# SCCP (`src/transport/ScccpTypes.hpp`, `src/transport/ScccpCodec.cpp`)

The two address parts of a UDT are copied out of it with iterators that nothing checks against
its end; a copy that runs past it is undefined.
-/

namespace GsupMapProxy.Sccp

open Misc

def kMsgUdt : UInt8 := 0x09
def kProtoClass0 : UInt8 := 0x00

def kAiRoutByGt : UInt8 := 0x00
def kAiRoutBySsn : UInt8 := 0x80
def kGtiTtNpEsNai : UInt8 := 0x40
def kAiSsnPresent : UInt8 := 0x08

def kSsnHlr : UInt8 := 0x06
def kSsnSgsn : UInt8 := 0x08

def kNpIsdnTelephony : UInt8 := 0x10
def kEsBcdOdd : UInt8 := 0x01
def kEsBcdEven : UInt8 := 0x02
def kNaiInternational : UInt8 := 0x04
def kTtInternational : UInt8 := 0x00

/-- `struct SccpAddress` (`ScccpCodec.hpp:10-28`). -/
structure SccpAddress where
  routeByGt : Bool := true
  digits : Str := []
  tt : UInt8 := kTtInternational
  np : UInt8 := kNpIsdnTelephony
  nai : UInt8 := kNaiInternational
  ssnPresent : Bool := false
  ssn : UInt8 := 0
  pcPresent : Bool := false
  pc : UInt32 := 0
  deriving DecidableEq, Repr

/-- `struct SccpUdt` (`ScccpCodec.hpp:32-37`). -/
structure SccpUdt where
  protocolClass : UInt8 := kProtoClass0
  calledParty : SccpAddress
  callingParty : SccpAddress
  data : Bytes
  deriving DecidableEq, Repr

/-! ## Encoding -/

/-- `packBcd` (`ScccpCodec.cpp:11-21`). -/
def packBcd : Str → Bytes
  | [] => []
  | [d] => [((0x0F : UInt8) <<< 4) ||| (d - 0x30)]
  | d0 :: d1 :: digits => (((d1 - 0x30) <<< 4) ||| (d0 - 0x30)) :: packBcd digits

/-- `encodeAddress` (`ScccpCodec.cpp:34-69`). -/
def encodeAddress (addr : SccpAddress) : Bytes :=
  if addr.routeByGt then
    let ai := kAiRoutByGt ||| kGtiTtNpEsNai
    let ai := if addr.ssnPresent then ai ||| kAiSsnPresent else ai
    let bcd := packBcd addr.digits
    let odd : Bool := addr.digits.length % 2 ≠ 0
    let es := if odd then kEsBcdOdd else kEsBcdEven
    let nai := if odd then addr.nai ||| 0x80 else addr.nai
    [ai] ++ (if addr.ssnPresent then [addr.ssn] else []) ++ [addr.tt, addr.np ||| es, nai] ++ bcd
  else
    let ai := kAiRoutBySsn ||| kAiSsnPresent
    let ai := if addr.pcPresent then ai ||| 0x01 else ai
    [ai] ++ (if addr.ssnPresent then [addr.ssn] else []) ++
      (if addr.pcPresent then
        [(addr.pc &&& 0xFF).toUInt8, ((addr.pc >>> 8) &&& 0x3F).toUInt8]
      else [])

/-- `encodeUdt` (`ScccpCodec.cpp:116-154`). -/
def encodeUdt (udt : SccpUdt) : Bytes :=
  let called := encodeAddress udt.calledParty
  let calling := encodeAddress udt.callingParty
  let ptr1 : UInt8 := 3
  let ptr2 := UInt8.ofNat (3 + called.length)
  let ptr3 := UInt8.ofNat (3 + called.length + calling.length)
  [kMsgUdt, udt.protocolClass, ptr1, ptr2, ptr3] ++
    UInt8.ofNat called.length :: called ++ UInt8.ofNat calling.length :: calling ++
    UInt8.ofNat udt.data.length :: udt.data

/-- `makeGtAddress` (`ScccpCodec.cpp:217-229`). -/
def makeGtAddress (digits : Str) (ssn : UInt8) (hasSsn : Bool) : SccpAddress :=
  let a : SccpAddress := { digits := digits }
  if hasSsn then { a with ssnPresent := true, ssn := ssn } else a

/-- `makeSsnAddress` (`ScccpCodec.cpp:231-239`). -/
def makeSsnAddress (pc : UInt32) (ssn : UInt8) : SccpAddress :=
  { routeByGt := false, pcPresent := true, pc := pc, ssnPresent := true, ssn := ssn }

/-! ## Decoding -/

/-- `unpackBcd` (`ScccpCodec.cpp:23-32`). -/
def unpackBcd (oddLen : Bool) : Bytes → Str
  | [] => []
  | b :: data =>
      let lo := (0x30 : UInt8) + (b &&& 0x0F)
      let hi := (0x30 : UInt8) + ((b >>> 4) &&& 0x0F)
      if data = [] ∧ oddLen then [lo] else lo :: hi :: unpackBcd oddLen data

/-- `decodeAddress` (`ScccpCodec.cpp:71-103`). -/
def decodeAddress (r : BufferReader) : Except Exn SccpAddress := do
  let (ai, r) ← read8 r
  let hasSsn : Bool := ai &&& kAiSsnPresent ≠ 0
  let gti := ai &&& 0x70
  let addr : SccpAddress := { routeByGt := ai &&& kAiRoutBySsn = 0, ssnPresent := hasSsn }
  let (addr, r) ←
    if hasSsn then do
      let (ssn, r) ← read8 r
      pure ({ addr with ssn := ssn }, r)
    else pure (addr, r)
  if gti = kGtiTtNpEsNai then
    let (tt, r) ← read8 r
    let (npEs, r) ← read8 r
    let (naiRaw, bcd) ← read8 r
    let odd : Bool := naiRaw &&& 0x80 ≠ 0
    return { addr with
      tt, np := npEs &&& 0xF0, nai := naiRaw &&& 0x7F, digits := unpackBcd odd bcd }
  else
    -- no Global Title, or one of another format: the rest of the address is skipped
    return addr

/-- The length octet the pointer at `pos` leads to, and its position. -/
def partLength (raw : Bytes) (pos : Nat) (what : String) : Except Fault (Nat × Nat) :=
  match raw[pos]? with
  | none => .error (.undefined "index past the end")
  | some ptr =>
      match raw[pos + ptr.toNat]? with
      | none => .error (.thrown (.runtimeError what))
      | some len => .ok (pos + ptr.toNat, len.toNat)

/-- `Bytes(raw.begin() + lenPos + 1, raw.begin() + lenPos + 1 + len)`, with no check. -/
def slice (raw : Bytes) (lenPos len : Nat) : Except Fault Bytes :=
  if lenPos + 1 + len ≤ raw.length then .ok ((raw.drop (lenPos + 1)).take len)
  else .error (.undefined "iterator past the end")

/-- One address of a UDT: `ScccpCodec.cpp:178-185` and `187-195`. -/
def decodeParty (raw : Bytes) (pos : Nat) (what : String) : Except Fault SccpAddress := do
  let (lenPos, len) ← partLength raw pos what
  let bytes ← slice raw lenPos len
  (decodeAddress bytes).mapError .thrown

def decodeCalledParty (raw : Bytes) : Except Fault SccpAddress :=
  decodeParty raw 2 "SCCP UDT: called party pointer out of range"

def decodeCallingParty (raw : Bytes) : Except Fault SccpAddress :=
  decodeParty raw 3 "SCCP UDT: calling party pointer out of range"

/-- `decodeUdt` (`ScccpCodec.cpp:158-213`). The pointers stand at 2, 3 and 4. -/
def decodeUdt (raw : Bytes) : Except Fault SccpUdt :=
  match raw with
  | msgType :: protoClass :: _ :: _ :: _ :: _ =>
      if msgType ≠ kMsgUdt then .error (.thrown (.runtimeError "SCCP: not a UDT message"))
      else do
        let calledAddr ← decodeCalledParty raw
        let callingAddr ← decodeCallingParty raw
        let (dataLenPos, dataLen) ← partLength raw 4 "SCCP UDT: data pointer out of range"
        if dataLenPos + 1 + dataLen > raw.length then
          throw (.thrown (.runtimeError "SCCP UDT: data extends past message"))
        else
          let data ← slice raw dataLenPos dataLen
          return ⟨protoClass, calledAddr, callingAddr, data⟩
  | _ => .error (.thrown (.runtimeError "SCCP UDT too short"))

end GsupMapProxy.Sccp
