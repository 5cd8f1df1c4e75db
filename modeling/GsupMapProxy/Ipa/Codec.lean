import GsupMapProxy.Common.Buffer
import GsupMapProxy.Misc.Reassembly

/-!
# IPA framing (`src/ipa/IpaFrame.hpp`, `src/ipa/IpaCodec.cpp`)

`IpaDecoder` is its buffer `buf_`. `next` can throw after it has changed the buffer, so it
returns the new buffer beside its result.
-/

namespace GsupMapProxy.Ipa

open Misc

def kStreamGsup : UInt8 := 0xEE
def kStreamCcm : UInt8 := 0xFE

def kCcmPing : UInt8 := 0x00
def kCcmPong : UInt8 := 0x01
def kCcmIdReq : UInt8 := 0x04
def kCcmIdResp : UInt8 := 0x05
def kCcmIdAck : UInt8 := 0x06

def kHeaderSize : Nat := 3

/-- `IpaCodec.hpp:10`. -/
def kMaxIpaWireLen : UInt16 := 4096

/-- `struct IpaFrame` (`IpaFrame.hpp:27-30`). -/
structure IpaFrame where
  streamId : UInt8
  payload : Bytes
  deriving DecidableEq, Repr

/-- The header `encode` writes, and the payload: `wireLen` counts the stream byte too. -/
def IpaFrame.wire (frame : IpaFrame) : Bytes :=
  let wireLen := UInt16.ofNat (frame.payload.length + 1)
  [((wireLen >>> 8) &&& 0xFF).toUInt8, (wireLen &&& 0xFF).toUInt8, frame.streamId] ++ frame.payload

/-- `encode` (`IpaCodec.cpp:6-20`). -/
def encode (streamId : UInt8) (payload : Bytes) : Except Exn Bytes :=
  if payload.length > 0xFFFF then .error (.invalidArgument "IPA payload too large")
  else .ok (IpaFrame.wire ⟨streamId, payload⟩)

/-- `class IpaDecoder` (`IpaCodec.hpp:17-30`): its `buf_`. -/
abbrev IpaDecoder := Bytes

/-- `IpaDecoder::feed` (`IpaCodec.cpp:22-24`). -/
def IpaDecoder.feed (buf : IpaDecoder) (data : Bytes) : IpaDecoder := buf ++ data

/-- `(static_cast<uint16_t>(buf_[0]) << 8) | buf_[1]`. -/
def wireLength (b0 b1 : UInt8) : UInt16 := (b0.toUInt16 <<< 8) ||| b1.toUInt16

/-- `IpaDecoder::next` (`IpaCodec.cpp:26-53`). -/
def IpaDecoder.next (buf : IpaDecoder) : Except Exn (Option IpaFrame) × IpaDecoder :=
  match buf with
  | b0 :: b1 :: streamId :: _ =>
      let wireLen := wireLength b0 b1
      if wireLen = 0 then (.error (.runtimeError "IPA: zero-length wire frame"), buf)
      else if wireLen > kMaxIpaWireLen then
        (.error (.runtimeError "IPA: oversized frame (possible DoS)"), [])
      else
        let totalSize := kHeaderSize + wireLen.toNat - 1
        if buf.length < totalSize then (.ok none, buf)
        else
          (.ok (some ⟨streamId, (buf.take totalSize).drop kHeaderSize⟩), buf.drop totalSize)
  | _ => (.ok none, buf)

end GsupMapProxy.Ipa
