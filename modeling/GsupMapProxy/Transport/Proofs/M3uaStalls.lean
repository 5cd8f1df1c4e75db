import GsupMapProxy.Misc.Run
import GsupMapProxy.Transport.Proofs.M3uaFraming

/-!
# When the M3UA decoder stalls

`next` and `decode` both look at the length field. A length that is smaller than the header gets
past the first, which takes that many bytes off the buffer, and the second finds fewer bytes than
a header and asks for more. Nothing more can come for them.
-/

namespace GsupMapProxy.M3ua

open Misc

/-! ## Runs of the decoder -/

/-- The calls of `M3uaDecoder`. -/
inductive DecoderOp where
  | feed (data : Bytes)
  | next

/-- One call. A call of `next` puts out what it returns or throws. -/
def decoderStep (buf : M3uaDecoder) :
    DecoderOp → Except Exn (M3uaDecoder × List (Except Exn (Option M3uaMessage)))
  | .feed data => .ok (buf.feed data, [])
  | .next => .ok (buf.next.2, [buf.next.1])

abbrev DecoderEvent := Event M3uaDecoder DecoderOp (Except Exn (Option M3uaMessage))

/-- Any calls in any order from an empty buffer, a loop over `next` behind every `feed` among
them. -/
abbrev DecoderRun (events : List DecoderEvent) (buf : M3uaDecoder) : Prop :=
  Run decoderStep (fun _ _ => True) [] events buf

/-- The length a header at the front of the buffer declares. -/
def declaredLength : Bytes → Option Nat
  | _ :: _ :: _ :: _ :: b4 :: b5 :: b6 :: b7 :: _ => some (headerLength b4 b5 b6 b7).toNat
  | _ => none

/-- A header that declares a length below its own size. -/
def Runt (buf : Bytes) : Prop := ∃ n, declaredLength buf = some n ∧ n < kCommonHeaderSize

/-- A call of `next` that keeps the buffer in hand: it asks for more only if there is no whole
message, it refuses the lengths that no message has, and what it leaves when it asks for more is
less than the largest message. -/
structure Advances (e : DecoderEvent) : Prop where
  waits : e.outs = [.ok none] →
    e.pre.length < kCommonHeaderSize ∨ ∃ n, declaredLength e.pre = some n ∧ e.pre.length < n
  refuses : ∀ n, declaredLength e.pre = some n → n < kCommonHeaderSize ∨ kMaxM3uaMessageSize < n →
    ∃ exn, e.outs = [.error exn]
  bounded : e.outs = [.ok none] → e.post.length < kMaxM3uaMessageSize

/-! ## One call -/

theorem declaredLength_length {buf : Bytes} {n : Nat} (h : declaredLength buf = some n) :
    kCommonHeaderSize ≤ buf.length := by
  unfold declaredLength at h
  split at h
  · simp only [List.length_cons, kCommonHeaderSize]
    omega
  · cases h

theorem waiting_of_runt {buf : Bytes} (h : Runt buf) : Waiting buf := by
  obtain ⟨n, hdeclared, hn⟩ := h
  obtain ⟨b0, b1, b2, b3, b4, b5, b6, b7, bs, rfl⟩ :=
    exists_header (declaredLength_length hdeclared)
  cases hdeclared
  exact .runt hn

theorem next_oversized {buf : Bytes} {n : Nat} (h : declaredLength buf = some n)
    (hn : kMaxM3uaMessageSize < n) : ∃ exn, (M3uaDecoder.next buf).1 = .error exn := by
  obtain ⟨b0, b1, b2, b3, b4, b5, b6, b7, bs, rfl⟩ := exists_header (declaredLength_length h)
  cases h
  rw [M3uaDecoder.next, if_pos hn]
  exact ⟨_, rfl⟩

/-- Asking for more with less than a message in the buffer leaves the buffer alone. -/
theorem next_incomplete {buf : Bytes} (hrunt : ¬ Runt buf)
    (h : (M3uaDecoder.next buf).1 = .ok none) :
    (M3uaDecoder.next buf).2 = buf ∧ buf.length < kMaxM3uaMessageSize ∧
      (buf.length < kCommonHeaderSize ∨ ∃ n, declaredLength buf = some n ∧ buf.length < n) := by
  rcases next_cases (Prod.ext h rfl : M3uaDecoder.next buf = (.ok none, _)) with
    ⟨-, hwait⟩ | ⟨msg, raw, hsome, -⟩
  · cases hwait with
    | header hshort =>
      refine ⟨?_, by rw [kCommonHeaderSize] at hshort; rw [kMaxM3uaMessageSize]; omega,
        .inl hshort⟩
      unfold M3uaDecoder.next
      split
      · simp only [List.length_cons, kCommonHeaderSize] at hshort
        omega
      · rfl
    | @body b0 b1 b2 b3 b4 b5 b6 b7 bs hmax hmore =>
      rw [kCommonHeaderSize] at hmore
      have hlen : (b0 :: b1 :: b2 :: b3 :: b4 :: b5 :: b6 :: b7 :: bs).length <
          (headerLength b4 b5 b6 b7).toNat := by
        simp only [List.length_cons]
        omega
      refine ⟨?_, by omega, .inr ⟨_, rfl, hlen⟩⟩
      rw [M3uaDecoder.next, if_neg (by omega), if_pos hlen]
    | runt hlen => exact absurd ⟨_, rfl, hlen⟩ hrunt
  · cases hsome

/-- A call of `next` is as it should be unless the header is a runt. -/
theorem advances_iff (buf : M3uaDecoder) :
    Advances ⟨buf, .next, [buf.next.1], buf.next.2⟩ ↔ ¬ Runt buf := by
  constructor
  · intro h hrunt
    have hnone := next_waiting (waiting_of_runt hrunt)
    obtain ⟨n, hdeclared, hn⟩ := hrunt
    obtain ⟨exn, hexn⟩ := h.refuses n hdeclared (.inl hn)
    dsimp only at hexn
    rw [hnone] at hexn
    cases hexn
  · intro hrunt
    refine ⟨?_, ?_, ?_⟩
    · intro h
      exact (next_incomplete hrunt (List.singleton_injective h)).2.2
    · rintro n hdeclared (hn | hn)
      · exact absurd ⟨n, hdeclared, hn⟩ hrunt
      · obtain ⟨exn, hexn⟩ := next_oversized hdeclared hn
        exact ⟨exn, congrArg (fun result => [result]) hexn⟩
    · intro h
      obtain ⟨hpost, hlen, -⟩ := next_incomplete hrunt (List.singleton_injective h)
      dsimp only
      rw [hpost]
      exact hlen

/-! ## Every run -/

/-- The decoder does not stall in a run if and only if `next` never finds a runt header. -/
theorem never_stalls_iff {events : List DecoderEvent} {buf : M3uaDecoder}
    (hrun : DecoderRun events buf) :
    (∀ e ∈ events, e.op = .next → Advances e) ↔ ∀ e ∈ events, e.op = .next → ¬ Runt e.pre := by
  refine forall₂_congr fun e he => forall_congr' fun hop => ?_
  obtain ⟨i, hi⟩ := List.mem_iff_getElem?.mp he
  obtain ⟨pre, op, outs, post⟩ := e
  obtain rfl : op = .next := hop
  have hstep : decoderStep pre .next = .ok (post, outs) := (hrun.event hi).2
  obtain ⟨rfl, rfl⟩ := Prod.mk.inj (Except.ok.inj hstep)
  exact advances_iff pre

/-- `feed` of one header that declares `len` bytes, and the `next` behind it. -/
def headerOnly (len : UInt8) : List DecoderEvent :=
  let header := [kVersion, 0, 3, 1, 0, 0, 0, len]
  [⟨[], .feed header, [], header⟩,
    ⟨header, .next, [(M3uaDecoder.next header).1], (M3uaDecoder.next header).2⟩]

theorem headerOnly_run (len : UInt8) :
    DecoderRun (headerOnly len) (M3uaDecoder.next [kVersion, 0, 3, 1, 0, 0, 0, len]).2 :=
  Run.snoc (Run.snoc .nil (DecoderOp.feed [kVersion, 0, 3, 1, 0, 0, 0, len]) trivial rfl)
    DecoderOp.next trivial rfl

/-- A message of 16 bytes of which the header is there. -/
theorem header_waits_for_body :
    DecoderRun (headerOnly 16) [kVersion, 0, 3, 1, 0, 0, 0, 16] ∧
      ∀ e ∈ headerOnly 16, e.op = .next → Advances e := by
  refine ⟨headerOnly_run 16, (never_stalls_iff (headerOnly_run 16)).mpr ?_⟩
  rintro e he - ⟨n, hdeclared, hn⟩
  rcases List.mem_pair.mp he with rfl | rfl
  · cases hdeclared
  · cases hdeclared
    exact absurd hn (by decide)

/-- A header that declares four bytes. `next` asks for more with eight of them there, and what it
leaves are the last four bytes of the header. -/
theorem runt_header_swallowed :
    DecoderRun (headerOnly 4) [0, 0, 0, 4] ∧
      M3uaDecoder.next [kVersion, 0, 3, 1, 0, 0, 0, 4] = (.ok none, [0, 0, 0, 4]) ∧
      ¬ ∀ e ∈ headerOnly 4, e.op = .next → Advances e := by
  refine ⟨headerOnly_run 4, rfl, ?_⟩
  intro h
  rcases (h _ (List.mem_pair.mpr (.inr rfl)) rfl).waits rfl with hshort | ⟨n, hdeclared, hn⟩
  · exact absurd hshort (by decide)
  · cases hdeclared
    exact absurd hn (by decide)

end GsupMapProxy.M3ua
