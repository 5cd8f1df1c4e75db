import GsupMapProxy.Ipa.Proofs.Framing
import GsupMapProxy.Misc.Chunks

/-!
# Reassembling an IPA stream

TCP may cut the stream anywhere, also inside a header. `IpaDecoder::next` decides on what the
buffer starts with and never looks further, so it is incremental and the cuts do not matter.
-/

namespace GsupMapProxy.Ipa

open Misc

/-- Feeding the chunks to a fresh decoder, and after each calling `next` until it has no frame,
as `IpaSession::startRead` does (`IpaSession.cpp:80-82`), up to the first exception. -/
def IpaDecoder.receive (chunks : List Bytes) : List IpaFrame × Except Exn IpaDecoder :=
  reassemble IpaDecoder.next [] chunks

/-- The header alone decides whether `next` throws. -/
theorem next_error_append {buf rest : Bytes} {e : Exn} (more : Bytes)
    (h : IpaDecoder.next buf = (.error e, rest)) :
    (IpaDecoder.next (buf ++ more)).1 = .error e := by
  unfold IpaDecoder.next at h
  split at h
  · rename_i b0 b1 streamId bs
    rw [List.cons_append, List.cons_append, List.cons_append, IpaDecoder.next]
    dsimp only at h ⊢
    by_cases hzero : wireLength b0 b1 = 0
    · rw [if_pos hzero] at h ⊢
      exact congrArg Prod.fst h
    · rw [if_neg hzero] at h ⊢
      by_cases hmax : wireLength b0 b1 > kMaxIpaWireLen
      · rw [if_pos hmax] at h ⊢
        exact congrArg Prod.fst h
      · -- a valid length: `next` waits or returns a frame
        rw [if_neg hmax] at h
        split at h
        · cases h
        · cases h
  · cases h

theorem next_incremental : Incremental IpaDecoder.next where
  wait := by
    intro buf rest h
    rcases next_cases h with ⟨-, hrest, -⟩ | ⟨frame, hsome, -⟩
    · exact hrest
    · cases hsome
  frame := by
    intro buf frame rest more h
    rcases next_cases h with ⟨hnone, -⟩ | ⟨frame', hsome, hfits, rfl⟩
    · cases hnone
    · cases hsome
      rw [List.append_assoc]
      exact next_wire hfits (rest ++ more)
  error := by
    intro buf e rest more h
    exact next_error_append more h

/-- The beginning of a frame is shorter than the longest frame. -/
theorem Incomplete.length_lt {bs : Bytes} (h : Incomplete bs) :
    bs.length < kHeaderSize + kMaxIpaWireLen.toNat - 1 := by
  cases h with
  | header h =>
    rw [kHeaderSize] at h ⊢
    rw [kMaxIpaWireLen_toNat]
    omega
  | payload hpos hmax hmore =>
    rw [kMaxIpaWireLen_toNat] at hmax ⊢
    simp only [List.length_cons, kHeaderSize]
    omega

/-- Frames that fit are encoded, one behind the other. -/
theorem writeEach_encode {frames : List IpaFrame} (h : ∀ f ∈ frames, f.Fits) :
    writeEach (fun f => encode f.streamId f.payload) frames =
      .ok (frames.flatMap IpaFrame.wire) := by
  induction frames with
  | nil => rfl
  | cons frame frames ih =>
    have hfits := h frame (by simp)
    rw [IpaFrame.Fits, kMaxIpaWireLen_toNat] at hfits
    have hencode : encode frame.streamId frame.payload = .ok frame.wire := by
      rw [encode, if_neg (by omega)]
    refine writeEach_cons.mpr ⟨_, _, hencode, ih fun f hf => h f (by simp [hf]), ?_⟩
    rw [List.flatMap_cons]

/-- The frames and the exception a stream leads to do not depend on how it is cut into chunks. A
stream of encoded frames leads to these frames, with nothing left over. And after a loop that
ends because there is no whole frame, less than one frame is buffered. -/
theorem receive_independent_of_chunks :
    (∀ chunks chunks' : List Bytes, chunks.flatten = chunks'.flatten →
      IpaDecoder.receive chunks = IpaDecoder.receive chunks') ∧
    (∀ frames : List IpaFrame,
      (∀ f ∈ frames, f.payload.length ≤ kMaxIpaWireLen.toNat - 1) →
      ∃ stream, writeEach (fun f => encode f.streamId f.payload) frames = .ok stream ∧
        ∀ chunks : List Bytes, chunks.flatten = stream →
          IpaDecoder.receive chunks = (frames, .ok [])) ∧
    ∀ (buf : IpaDecoder) (frames : List IpaFrame) (rest : IpaDecoder),
      collect IpaDecoder.next buf = (frames, .ok rest) →
      rest.length < kHeaderSize + kMaxIpaWireLen.toNat - 1 := by
  have hall : ∀ chunks : List Bytes,
      IpaDecoder.receive chunks = collect IpaDecoder.next chunks.flatten := by
    intro chunks
    exact reassemble_eq_collect next_shrinking next_incremental chunks [] rfl
  refine ⟨?_, ?_, ?_⟩
  · intro chunks chunks' hsame
    rw [hall, hall, hsame]
  · intro frames hlen
    have hfits : ∀ f ∈ frames, f.Fits := by
      intro f hf
      have := hlen f hf
      rw [kMaxIpaWireLen_toNat] at this
      rw [IpaFrame.Fits, kMaxIpaWireLen_toNat]
      omega
    refine ⟨_, writeEach_encode hfits, ?_⟩
    intro chunks hstream
    rw [hall, hstream]
    apply collect_of_yields next_shrinking
    exact yields_iff.mpr ⟨(List.append_nil _).symm, hfits, .header (by decide)⟩
  · intro buf frames rest hcollect
    obtain ⟨-, -, hinc⟩ := yields_iff.mp (yields_of_collect next_shrinking hcollect)
    exact hinc.length_lt

/-- A PING and an ID_RESP, cut inside the first header and inside the second payload. -/
example : IpaDecoder.receive [[0x00], [0x02, 0xFE, 0x00, 0x00, 0x03, 0xFE, 0x05], [], [0x01]] =
    ([⟨kStreamCcm, [kCcmPing]⟩, ⟨kStreamCcm, [kCcmIdResp, 0x01]⟩], .ok []) := by
  rfl

end GsupMapProxy.Ipa
