import GsupMapProxy.Common.Cursor
import GsupMapProxy.Map.Codec
import GsupMapProxy.Misc.TwosComplement

/-!
# TLVs read with machine arithmetic (`src/map/BerCodec.cpp`)

`readLength` and `readTlv` on a `Cursor`: positions and lengths are `size_t`. `TlvLoop` is the
loop that `map::decode` and its argument decoders run over a reader.
-/

namespace GsupMapProxy

open Misc

/-- `throw e`. -/
def Reading.raise {α : Type} (e : Exn) : Reading α := fun r => (.error (.thrown e), r)

namespace Cursor

/-- The loop of `readLength` over the length octets (`BerCodec.cpp:33-35`). -/
def readLengthOctets : Nat → UInt64 → Reading UInt64
  | 0, len => pure len
  | n + 1, len => do
      let b ← read8
      readLengthOctets n ((len <<< 8) ||| b.toUInt64)

/-- `readLength` (`BerCodec.cpp:24-37`). -/
def readLength : Reading UInt64 := do
  let first ← read8
  if first ≤ 0x7F then pure first.toUInt64
  else if first = 0x80 then
    .raise (.runtimeError "BER: indefinite-length form not supported")
  else if first &&& 0x7F > 4 then .raise (.runtimeError "BER: length field too large")
  else readLengthOctets (first &&& 0x7F).toNat 0

/-- `readTlv` (`BerCodec.cpp:57-62`). -/
def readTlv : Reading (UInt8 × Bytes) := do
  let tag ← read8
  let len ← readLength
  let value ← readBytes len
  pure (tag, value)

end Cursor

namespace Map

/-- `while (!r.empty()) { uint8_t t = readTlv(r, val); ... }` with the body `f` ends like this:
with the final state, or with what `readTlv` or the body throws. -/
inductive TlvLoop {σ : Type} (f : σ → UInt8 → Bytes → Except Exn σ) :
    σ → Cursor → Except Fault σ → Prop
  | done {s : σ} {r : Cursor} (hempty : r.empty) : TlvLoop f s r (.ok s)
  | readThrows {s : σ} {r : Cursor} {e : Fault} (hmore : ¬ r.empty)
      (hread : (Cursor.readTlv r).1 = .error e) : TlvLoop f s r (.error e)
  | bodyThrows {s : σ} {r : Cursor} {t : UInt8} {val : Bytes} {e : Exn} (hmore : ¬ r.empty)
      (hread : (Cursor.readTlv r).1 = .ok (t, val)) (hbody : f s t val = .error e) :
      TlvLoop f s r (.error (.thrown e))
  | turn {s s' : σ} {r : Cursor} {t : UInt8} {val : Bytes} {out : Except Fault σ}
      (hmore : ¬ r.empty) (hread : (Cursor.readTlv r).1 = .ok (t, val))
      (hbody : f s t val = .ok s') (later : TlvLoop f s' (Cursor.readTlv r).2 out) :
      TlvLoop f s r out

/-- The octets of a length field and the length they declare: one octet with the top bit clear,
or the number of the octets that follow and hold it. -/
inductive DeclaresLength : Bytes → Nat → Prop
  | short {b : UInt8} (h : b.toNat < 128) : DeclaresLength [b] b.toNat
  | long {octets : Bytes} (hpos : 0 < octets.length) (hmax : octets.length ≤ 4) :
      DeclaresLength (UInt8.ofNat (128 + octets.length) :: octets) (octetsValue octets)

end Map

end GsupMapProxy
