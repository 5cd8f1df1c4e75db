import GsupMapProxy.Misc.Loop

/-!
# Byte buffers (`src/common/Buffer.hpp`)

`BufferReader` is a cursor over a span that only moves forward, so it is modelled by the bytes
it has not read yet: `pos_` is the span's length minus the length of that suffix, and
`check(n)`, which compares `pos_ + n` with `len_`, compares `n` with it. `BufferWriter` only
appends (`patch8` fills a slot its caller has just reserved), so a function that writes to one
is modelled by the bytes it appends.
-/

namespace GsupMapProxy

/-- `using Bytes = std::vector<uint8_t>` (`Buffer.hpp:9`). -/
abbrev Bytes := List UInt8

/-- `std::string`: a sequence of `char`s, with no encoding attached. -/
abbrev Str := List UInt8

/-- The exceptions the code throws. All of them derive from `std::exception`, so
`catch (const std::exception&)` catches every one. -/
inductive Exn where
  | outOfRange (what : String)
  | runtimeError (what : String)
  | invalidArgument (what : String)
  | conversionError (what : String)
  deriving DecidableEq, Repr

/-- How a handler can fail to return: an exception leaves it, or its behaviour is undefined
(an empty `std::optional` is dereferenced, an iterator runs past the end). -/
inductive Fault where
  | thrown (e : Exn)
  | undefined (what : String)
  deriving DecidableEq, Repr

/-- The unread bytes of a `BufferReader` (`Buffer.hpp:12-74`). -/
abbrev BufferReader := Bytes

/-- What `BufferReader::check` throws (`Buffer.hpp:65-68`). -/
def pastEnd : Exn := .outOfRange "BufferReader: read past end"

/-- `BufferReader::read8` (`Buffer.hpp:29-32`). -/
def read8 : BufferReader → Except Exn (UInt8 × BufferReader)
  | [] => .error pastEnd
  | b :: r => .ok (b, r)

/-- `BufferReader::readBytes`, and `slice`, whose sub-reader reads exactly these bytes
(`Buffer.hpp:51-63`). -/
def readBytes (n : Nat) (r : BufferReader) : Except Exn (Bytes × BufferReader) :=
  if r.length < n then .error pastEnd else .ok (r.take n, r.drop n)

/-- `BufferReader::readBE16` (`Buffer.hpp:34-39`). -/
def readBE16 (r : BufferReader) : Except Exn (UInt16 × BufferReader) :=
  match r with
  | b0 :: b1 :: r => .ok ((b0.toUInt16 <<< 8) ||| b1.toUInt16, r)
  | _ => .error pastEnd

/-- `BufferReader::readBE32` (`Buffer.hpp:41-49`). -/
def readBE32 (r : BufferReader) : Except Exn (UInt32 × BufferReader) :=
  match r with
  | b0 :: b1 :: b2 :: b3 :: r =>
      .ok ((b0.toUInt32 <<< 24) ||| (b1.toUInt32 <<< 16) ||| (b2.toUInt32 <<< 8) |||
        b3.toUInt32, r)
  | _ => .error pastEnd

/-- `BufferWriter::writeBE16` (`Buffer.hpp:81-84`). -/
def writeBE16 (v : UInt16) : Bytes :=
  [((v >>> 8) &&& 0xFF).toUInt8, (v &&& 0xFF).toUInt8]

/-- `BufferWriter::writeBE32` (`Buffer.hpp:86-91`). -/
def writeBE32 (v : UInt32) : Bytes :=
  [((v >>> 24) &&& 0xFF).toUInt8, ((v >>> 16) &&& 0xFF).toUInt8,
    ((v >>> 8) &&& 0xFF).toUInt8, (v &&& 0xFF).toUInt8]

/-- `for (const auto& x : xs) write(w, x)`: the bytes of all elements, in order. -/
def writeEach {α : Type} (write : α → Except Exn Bytes) : List α → Except Exn Bytes
  | [] => .ok []
  | x :: xs => do
      let head ← write x
      let tail ← writeEach write xs
      return head ++ tail

theorem writeEach_cons {α : Type} {write : α → Except Exn Bytes} {x : α} {xs : List α}
    {b : Bytes} : writeEach write (x :: xs) = .ok b ↔
      ∃ head tail, write x = .ok head ∧ writeEach write xs = .ok tail ∧ b = head ++ tail := by
  simp only [writeEach, Misc.except_bind_eq_ok]
  constructor
  · rintro ⟨head, hhead, tail, htail, hb⟩
    cases hb
    exact ⟨head, tail, hhead, htail, rfl⟩
  · rintro ⟨head, tail, hhead, htail, rfl⟩
    exact ⟨head, hhead, tail, htail, rfl⟩

@[simp] theorem read8_cons (b : UInt8) (r : BufferReader) : read8 (b :: r) = .ok (b, r) := rfl

theorem read8_eq_ok {r rest : BufferReader} {b : UInt8} :
    read8 r = .ok (b, rest) ↔ r = b :: rest := by
  cases r with
  | nil => simp [read8]
  | cons c r => simp [read8]

/-- Reading as many bytes as stand in front reads exactly those. The length is a hypothesis, so
that a caller never has to rewrite a length field into it. -/
theorem readBytes_append {front rest : Bytes} {n : Nat} (h : front.length = n) :
    readBytes n (front ++ rest) = .ok (front, rest) := by
  subst h
  simp [readBytes]

theorem readBytes_eq_ok {n : Nat} {r rest : BufferReader} {bs : Bytes}
    (h : readBytes n r = .ok (bs, rest)) : r = bs ++ rest ∧ bs.length = n := by
  unfold readBytes at h
  split at h
  · cases h
  · rename_i hlen
    simp only [Except.ok.injEq, Prod.mk.injEq] at h
    obtain ⟨rfl, rfl⟩ := h
    refine ⟨(List.take_append_drop n r).symm, ?_⟩
    rw [List.length_take]
    omega

end GsupMapProxy
