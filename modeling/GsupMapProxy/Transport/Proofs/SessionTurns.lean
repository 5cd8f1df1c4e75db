import GsupMapProxy.Transport.Proofs.SessionEffects
import GsupMapProxy.Transport.SessionLink

/-!
# What a step does to a session

`Turn` inverts a step as far as the session is concerned: the session stops, or it reads frames,
takes a frame out of its queue, puts some in, or does nothing.
-/

namespace GsupMapProxy.Transport

open Misc Ipa

namespace SessionInput

/-- The chunk a step takes in. -/
def chunks : SessionInput → List Bytes
  | .run (.read (some chunk)) => [chunk]
  | _ => []

/-- The frame of a write whose handler runs. -/
def handled : SessionInput → List Bytes
  | .run (.written frame _) => [frame]
  | _ => []

/-- The session is stopped, or an operation has failed. -/
def ceases : SessionInput → Bool
  | .stop => true
  | .run (.read none) => true
  | .run (.written _ false) => true
  | _ => false

theorem ceases_cases {op : SessionInput} (h : op.ceases = true) :
    op = .stop ∨ op = .run (.read none) ∨ ∃ frame, op = .run (.written frame false) := by
  unfold ceases at h
  split at h
  · exact .inl rfl
  · exact .inr (.inl rfl)
  · exact .inr (.inr ⟨_, rfl⟩)
  · cases h

end SessionInput

namespace SessionLink

/-- The frames a step reads. -/
def framesRead (s : SessionLink) (op : SessionInput) : List IpaFrame :=
  match op with
  | .run (.read (some chunk)) => (collect IpaDecoder.next (s.session.decoder ++ chunk)).1
  | _ => []

/-- The frames a step puts into the queue. -/
def enqueued (s : SessionLink) (op : SessionInput) : List Bytes :=
  match op with
  | .start => [ccmIdReq]
  | .run (.enqueue frame) => [frame]
  | .run (.read (some chunk)) => (s.framesRead (.run (.read (some chunk)))).filterMap reply?
  | _ => []

open IpaSession

/-- What a step can do to the session. -/
inductive Turn (s : SessionLink) (t' : IpaSession) (outs : List SessionCall) :
    SessionInput → Prop
  | ceases {op : SessionInput} (hop : op.ceases = true) (h : Ceases s.session t' outs) :
      Turn s t' outs op
  | idle {op : SessionInput} (hop : (∃ payload, op = .sendGsup payload) ∨
        ∃ op' handler, op = .finish op' handler) (ht : t' = s.session) (houts : outs = []) :
      Turn s t' outs op
  | written (frame : Bytes) (hdecoder : t'.decoder = s.session.decoder)
      (tells : Tells s.session t' outs [])
      (front : ∃ front, s.session.writeQueue = front :: t'.writeQueue)
      (flying : Flying t' (outs.filterMap SessionCall.write?)) :
      Turn s t' outs (.run (.written frame true))
  | enqueues {op : SessionInput} (hop : op = .start ∨ ∃ frame, op = .run (.enqueue frame))
      (hdecoder : t'.decoder = s.session.decoder) (tells : Tells s.session t' outs [])
      (enqueues : Enqueues s.session t' outs (s.enqueued op)) : Turn s t' outs op
  | read (chunk : Bytes)
      (yields : Yields IpaDecoder.next (s.session.decoder ++ chunk)
        (s.framesRead (.run (.read (some chunk)))) t'.decoder)
      (tells : Tells s.session t' outs (s.framesRead (.run (.read (some chunk)))))
      (enqueues : Enqueues s.session t' outs (s.enqueued (.run (.read (some chunk))))) :
      Turn s t' outs (.run (.read (some chunk)))

variable {s s' : SessionLink} {op : SessionInput} {outs : List SessionCall}

@[simp] theorem beginOnSocket_session (s : SessionLink) (op : SessionOp) :
    (s.beginOnSocket op).session = s.session := by
  unfold beginOnSocket
  split <;> rfl

@[simp] theorem perform_session (s : SessionLink) (call : SessionCall) :
    (s.perform call).session = s.session := by
  cases call with
  | asyncRead => exact s.beginOnSocket_session .read
  | asyncWrite frame => exact s.beginOnSocket_session (.write frame)
  | _ => rfl

theorem performs_session (calls : List SessionCall) :
    ∀ s : SessionLink, (calls.foldl perform s).session = s.session := by
  induction calls with
  | nil => intro s; rfl
  | cons call calls ih =>
    intro s
    rw [List.foldl_cons, ih, perform_session]

@[simp] theorem after_session (s : SessionLink) (result : IpaSession × List SessionCall) :
    (s.after result).session = result.1 := performs_session _ _

theorem run_turn {handler : SessionHandler} {t' : IpaSession}
    (h : method s.session handler = .ok (t', outs)) : Turn s t' outs (.run handler) := by
  cases handler with
  | read result =>
    cases result with
    | none => exact .ceases rfl (.of_failure h)
    | some chunk =>
      obtain ⟨frames, hyields, htells, henqueues⟩ := onRead_effect h
      have hframes : s.framesRead (.run (.read (some chunk))) = frames := by
        rw [framesRead, collect_of_yields next_shrinking hyields]
      refine .read chunk ?_ ?_ ?_
      · rwa [hframes]
      · rwa [hframes]
      · rwa [enqueued, hframes]
  | written frame ok =>
    cases ok with
    | false => exact .ceases rfl (.of_failure h)
    | true =>
      obtain ⟨hdecoder, htells, hfront, hflying⟩ := onWritten_effect h
      exact .written frame hdecoder htells hfront hflying
  | enqueue frame =>
    have heq : s.session.enqueue frame = (t', outs) := Except.ok.inj h
    have htells := s.session.enqueue_tells frame
    have henqueues := s.session.enqueue_enqueues frame
    have hdecoder := s.session.enqueue_decoder frame
    rw [heq] at htells henqueues hdecoder
    exact .enqueues (.inr ⟨frame, rfl⟩) hdecoder htells henqueues

theorem step_turn (h : step s op = .ok (s', outs)) : Turn s s'.session outs op := by
  cases op with
  | start =>
    rw [step, start_eq] at h
    cases h
    rw [after_session]
    refine .enqueues (.inl rfl) (s.session.enqueue_decoder ccmIdReq) ?_ ?_
    · exact (s.session.enqueue_tells ccmIdReq).trans (tells_nothing rfl rfl (by simp))
    · exact (s.session.enqueue_enqueues ccmIdReq).trans (enqueues_nothing rfl rfl rfl)
  | stop =>
    cases h
    rw [after_session]
    exact .ceases rfl s.session.stop_ceases
  | sendGsup payload =>
    rw [step] at h
    split at h
    · cases h
      exact .idle (.inl ⟨payload, rfl⟩) rfl rfl
    · cases h
      exact .idle (.inl ⟨payload, rfl⟩) rfl rfl
  | finish op' handler =>
    cases h
    exact .idle (.inr ⟨op', handler, rfl⟩) rfl rfl
  | run handler =>
    obtain ⟨⟨t', calls⟩, hmethod, h⟩ := except_bind_eq_ok.mp h
    cases h
    rw [after_session]
    exact run_turn hmethod

/-- What a step leaves in the decoder, which only holds the beginning of a frame. -/
theorem Turn.yields {t' : IpaSession} (h : Turn s t' outs op)
    (hwait : IpaDecoder.next s.session.decoder = (.ok none, s.session.decoder)) :
    Yields IpaDecoder.next (s.session.decoder ++ op.chunks.flatten) (s.framesRead op)
      t'.decoder := by
  have hsame : op.chunks = [] → s.framesRead op = [] → t'.decoder = s.session.decoder →
      Yields IpaDecoder.next (s.session.decoder ++ op.chunks.flatten) (s.framesRead op)
        t'.decoder := by
    intro hchunks hframes hdecoder
    rw [hchunks, hframes, hdecoder, List.flatten_nil, List.append_nil]
    exact .wait hwait
  cases h with
  | read chunk yields tells enqueues =>
    rw [SessionInput.chunks, List.flatten_singleton]
    exact yields
  | written frame hdecoder tells front flying => exact hsame rfl rfl hdecoder
  | enqueues hop hdecoder tells enqueues =>
    rcases hop with rfl | ⟨frame, rfl⟩
    · exact hsame rfl rfl hdecoder
    · exact hsame rfl rfl hdecoder
  | idle hop ht houts =>
    rcases hop with ⟨payload, rfl⟩ | ⟨op', handler, rfl⟩
    · exact hsame rfl rfl (by rw [ht])
    · exact hsame rfl rfl (by rw [ht])
  | ceases hop h =>
    have hdecoder : t'.decoder = s.session.decoder := by cases h <;> rfl
    rcases SessionInput.ceases_cases hop with rfl | rfl | ⟨frame, rfl⟩
    · exact hsame rfl rfl hdecoder
    · exact hsame rfl rfl hdecoder
    · exact hsame rfl rfl hdecoder

/-- Unless the session stops, it tells what the frames say that were read. -/
theorem Turn.tells_or_ceases {t' : IpaSession} (h : Turn s t' outs op) :
    op.ceases = false ∧ Tells s.session t' outs (s.framesRead op) ∨
      op.ceases = true ∧ Ceases s.session t' outs := by
  cases h with
  | ceases hop h => exact .inr ⟨hop, h⟩
  | idle hop ht houts =>
    rw [ht, houts]
    rcases hop with ⟨payload, rfl⟩ | ⟨op', handler, rfl⟩
    · exact .inl ⟨rfl, tells_nothing rfl rfl (by simp)⟩
    · exact .inl ⟨rfl, tells_nothing rfl rfl (by simp)⟩
  | written frame hdecoder tells front flying => exact .inl ⟨rfl, tells⟩
  | enqueues hop hdecoder tells enqueues =>
    rcases hop with rfl | ⟨frame, rfl⟩
    · exact .inl ⟨rfl, tells⟩
    · exact .inl ⟨rfl, tells⟩
  | read chunk yields tells enqueues => exact .inl ⟨rfl, tells⟩

/-- The run of a session with these inputs, if there is one. -/
def played (inputs : List SessionInput) : Option (List SessionEvent × SessionLink) :=
  play step Possible [] { session := { clientId := 1 } } inputs

theorem run_of_played {inputs : List SessionInput} {result : List SessionEvent × SessionLink}
    (h : played inputs = some result) : SessionRun 1 result.1 result.2 :=
  Run.of_play .nil h

end SessionLink

end GsupMapProxy.Transport
