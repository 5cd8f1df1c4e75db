import GsupMapProxy.Ipa.Proofs.Chunking
import GsupMapProxy.Transport.IpaSession
import Mathlib.Data.List.TakeWhile

/-!
# What a session tells its server and what it writes

Of what a method does, two parts are independent of each other. `Tells` is about the frames the
method has read: the state they lead to and the callbacks made for them. `Enqueues` is about the
frames the method has put into the write queue: they end up at its back, and a write of the front
is started if there is none. Both compose, so the read loop is a matter of one frame.
-/

namespace GsupMapProxy.Ipa.IpaFrame

/-- A CCM message of this type. -/
def isCcm (frame : IpaFrame) (type : UInt8) : Bool :=
  frame.streamId = kStreamCcm ∧ frame.payload.head? = some type

end GsupMapProxy.Ipa.IpaFrame

namespace GsupMapProxy.Transport

open Misc Ipa

/-- The three CCM messages a session sends. -/
def ccmIdReq : Bytes := IpaFrame.wire ⟨kStreamCcm, [kCcmIdReq, 0x01, 0x07]⟩

def ccmIdAck : Bytes := IpaFrame.wire ⟨kStreamCcm, [kCcmIdAck]⟩

def ccmPong : Bytes := IpaFrame.wire ⟨kStreamCcm, [kCcmPong]⟩

/-- The answer to a frame. -/
def reply? (frame : IpaFrame) : Option Bytes :=
  if frame.isCcm kCcmIdResp then some ccmIdAck
  else if frame.isCcm kCcmPing then some ccmPong
  else none

/-- The payloads of the GSUP frames. -/
def gsupPayloads (frames : List IpaFrame) : List Bytes :=
  (frames.filter fun frame => frame.streamId = kStreamGsup).map IpaFrame.payload

/-- The frames from the first ID_RESP on. -/
def fromIdResp (frames : List IpaFrame) : List IpaFrame :=
  frames.dropWhile fun frame => !frame.isCcm kCcmIdResp

namespace SessionCall

def gsup? : SessionCall → Option Bytes
  | .onGsup payload => some payload
  | _ => none

def write? : SessionCall → Option Bytes
  | .asyncWrite frame => some frame
  | _ => none

end SessionCall

namespace IpaSession

/-- What frames are delivered in a state. -/
def delivers (state : SessionState) (frames : List IpaFrame) : List Bytes :=
  gsupPayloads (if state = .ready then frames else fromIdResp frames)

/-- The state frames lead to. -/
def stateAfter (state : SessionState) (frames : List IpaFrame) : SessionState :=
  if frames.any (·.isCcm kCcmIdResp) then .ready else state

theorem gsupPayloads_append (frames frames' : List IpaFrame) :
    gsupPayloads (frames ++ frames') = gsupPayloads frames ++ gsupPayloads frames' := by
  rw [gsupPayloads, List.filter_append, List.map_append]
  rfl

theorem fromIdResp_append (frames frames' : List IpaFrame) :
    fromIdResp (frames ++ frames') =
      fromIdResp frames ++
        if frames.any (·.isCcm kCcmIdResp) then frames' else fromIdResp frames' := by
  induction frames with
  | nil => rfl
  | cons frame frames ih =>
    by_cases hresp : frame.isCcm kCcmIdResp = true
    · simp [fromIdResp, hresp]
    · rw [Bool.not_eq_true] at hresp
      simp only [fromIdResp, List.cons_append, List.dropWhile_cons, hresp, List.any_cons,
        Bool.false_or, Bool.not_false, if_true] at ih ⊢
      exact ih

theorem stateAfter_append (state : SessionState) (frames frames' : List IpaFrame) :
    stateAfter state (frames ++ frames') = stateAfter (stateAfter state frames) frames' := by
  unfold stateAfter
  rw [List.any_append]
  by_cases hfirst : frames.any (·.isCcm kCcmIdResp) = true
  · simp [hfirst]
  · simp [hfirst]

theorem delivers_append (state : SessionState) (frames frames' : List IpaFrame) :
    delivers state (frames ++ frames') =
      delivers state frames ++ delivers (stateAfter state frames) frames' := by
  unfold delivers stateAfter
  by_cases hstate : state = .ready
  · rw [if_pos hstate, if_pos hstate, hstate, ite_self, if_pos rfl, gsupPayloads_append]
  · rw [if_neg hstate, if_neg hstate, fromIdResp_append, gsupPayloads_append]
    by_cases hresp : frames.any (·.isCcm kCcmIdResp) = true
    · rw [if_pos hresp, if_pos hresp, if_pos rfl]
    · rw [if_neg hresp, if_neg hresp, if_neg hstate]

/-! ## Callbacks -/

/-- What the session has been told by these frames, and what it tells the server. -/
structure Tells (s s' : IpaSession) (calls : List SessionCall) (frames : List IpaFrame) : Prop where
  clientId : s'.clientId = s.clientId
  state : s'.state = stateAfter s.state frames
  delivered : calls.filterMap SessionCall.gsup? = delivers s.state frames
  ready : .onReady ∈ calls ↔ frames.any (·.isCcm kCcmIdResp) = true
  connected : .onDisconnect ∉ calls
  keeps : .closeSocket ∉ calls

variable {s s' s'' : IpaSession} {calls calls' : List SessionCall} {frames frames' : List IpaFrame}

theorem Tells.trans (h : Tells s s' calls frames) (h' : Tells s' s'' calls' frames') :
    Tells s s'' (calls ++ calls') (frames ++ frames') where
  clientId := h'.clientId.trans h.clientId
  state := by rw [h'.state, h.state, stateAfter_append]
  delivered := by
    rw [List.filterMap_append, h.delivered, h'.delivered, h.state, delivers_append]
  ready := by
    rw [List.mem_append, h.ready, h'.ready, List.any_append, Bool.or_eq_true]
  connected := by
    rw [List.mem_append, not_or]
    exact ⟨h.connected, h'.connected⟩
  keeps := by
    rw [List.mem_append, not_or]
    exact ⟨h.keeps, h'.keeps⟩

theorem delivers_nil (state : SessionState) : delivers state [] = [] := by
  rw [delivers, fromIdResp, List.dropWhile_nil, ite_self]
  rfl

/-- Before an ID_RESP nothing is delivered. -/
theorem delivers_before {state : SessionState} (hstate : state ≠ .ready)
    (h : frames.any (·.isCcm kCcmIdResp) = false) : delivers state frames = [] := by
  have hnone : fromIdResp frames = [] := by
    rw [fromIdResp, List.dropWhile_eq_nil_iff]
    intro frame hframe
    rw [Bool.not_eq_true', Bool.eq_false_iff]
    exact List.any_eq_false.mp h frame hframe
  rw [delivers, if_neg hstate, hnone]
  rfl

/-- Operations on the socket tell the server nothing. -/
theorem tells_nothing (hclientId : s'.clientId = s.clientId) (hstate : s'.state = s.state)
    (hcalls : ∀ call ∈ calls, call = .asyncRead ∨ ∃ frame, call = .asyncWrite frame) :
    Tells s s' calls [] where
  clientId := hclientId
  state := hstate
  delivered := by
    rw [delivers_nil, List.filterMap_eq_nil_iff]
    intro call hcall
    rcases hcalls call hcall with rfl | ⟨frame, rfl⟩
    · rfl
    · rfl
  ready := by
    refine ⟨fun hready => ?_, fun hany => by cases hany⟩
    rcases hcalls _ hready with h | ⟨frame, h⟩
    · cases h
    · cases h
  connected := by
    intro hdisconnect
    rcases hcalls _ hdisconnect with h | ⟨frame, h⟩
    · cases h
    · cases h
  keeps := by
    intro hclose
    rcases hcalls _ hclose with h | ⟨frame, h⟩
    · cases h
    · cases h

theorem doWrite_tells (s : IpaSession) : Tells s s.doWrite.1 s.doWrite.2 [] := by
  unfold doWrite
  split
  · exact tells_nothing rfl rfl (by simp)
  · exact tells_nothing rfl rfl (by simp)

theorem enqueue_tells (s : IpaSession) (frame : Bytes) :
    Tells s (s.enqueue frame).1 (s.enqueue frame).2 [] := by
  unfold enqueue
  dsimp only
  split
  · exact tells_nothing rfl rfl (by simp)
  · have hwrite := doWrite_tells { s with writeQueue := s.writeQueue ++ [frame] }
    exact ⟨hwrite.clientId, hwrite.state, hwrite.delivered, hwrite.ready, hwrite.connected,
      hwrite.keeps⟩

/-! ## Writes -/

/-- The writes outstanding: one of the front of the queue, if there is any. -/
structure Flying (s : IpaSession) (frames : List Bytes) : Prop where
  writing : s.writing = true ↔ s.writeQueue ≠ []
  front : frames = s.writeQueue.take 1

/-- These frames have been put into the queue. -/
structure Enqueues (s s' : IpaSession) (calls : List SessionCall) (frames : List Bytes) :
    Prop where
  queue : s'.writeQueue = s.writeQueue ++ frames
  flying : ∀ flying, Flying s flying → Flying s' (flying ++ calls.filterMap SessionCall.write?)

theorem Enqueues.trans {frames frames' : List Bytes} (h : Enqueues s s' calls frames)
    (h' : Enqueues s' s'' calls' frames') :
    Enqueues s s'' (calls ++ calls') (frames ++ frames') where
  queue := by rw [h'.queue, h.queue, List.append_assoc]
  flying := by
    intro flying hflying
    rw [List.filterMap_append, ← List.append_assoc]
    exact h'.flying _ (h.flying _ hflying)

theorem enqueues_nothing (hqueue : s'.writeQueue = s.writeQueue) (hwriting : s'.writing = s.writing)
    (hcalls : calls.filterMap SessionCall.write? = []) : Enqueues s s' calls [] where
  queue := by rw [hqueue, List.append_nil]
  flying := by
    intro flying hflying
    rw [hcalls, List.append_nil]
    refine ⟨?_, ?_⟩
    · rw [hqueue, hwriting]
      exact hflying.writing
    · rw [hqueue]
      exact hflying.front

@[simp] theorem doWrite_decoder (s : IpaSession) : s.doWrite.1.decoder = s.decoder := by
  unfold doWrite
  split <;> rfl

@[simp] theorem doWrite_writeQueue (s : IpaSession) : s.doWrite.1.writeQueue = s.writeQueue := by
  unfold doWrite
  split <;> rfl

@[simp] theorem enqueue_decoder (s : IpaSession) (frame : Bytes) :
    (s.enqueue frame).1.decoder = s.decoder := by
  unfold enqueue
  dsimp only
  split
  · rfl
  · exact doWrite_decoder _

/-- Whether there is anything to write is found out when the last write is done. -/
theorem doWrite_flying (s : IpaSession) :
    Flying s.doWrite.1 (s.doWrite.2.filterMap SessionCall.write?) := by
  unfold doWrite
  split
  · rename_i hqueue
    exact ⟨by simp [hqueue], by simp [hqueue]⟩
  · rename_i front queue hqueue
    exact ⟨by simp [hqueue], by simp [hqueue, SessionCall.write?]⟩

theorem enqueue_enqueues (s : IpaSession) (frame : Bytes) :
    Enqueues s (s.enqueue frame).1 (s.enqueue frame).2 [frame] := by
  unfold enqueue
  dsimp only
  by_cases hwriting : s.writing = true
  · rw [if_pos hwriting]
    refine ⟨rfl, ?_⟩
    intro flying hflying
    have hqueue : s.writeQueue ≠ [] := hflying.writing.mp hwriting
    refine ⟨by simp [hwriting], ?_⟩
    rw [List.filterMap_nil, List.append_nil, hflying.front,
      List.take_append_of_le_length (List.length_pos_iff.mpr hqueue)]
  · rw [if_neg hwriting]
    refine ⟨doWrite_writeQueue _, ?_⟩
    intro flying hflying
    -- nothing is outstanding, and the frame is the first in the queue
    have hqueue : s.writeQueue = [] := by
      by_contra hne
      exact hwriting (hflying.writing.mpr hne)
    have hnone : flying = [] := by rw [hflying.front, hqueue, List.take_nil]
    rw [hnone, List.nil_append]
    exact doWrite_flying _

/-! ## The methods -/

theorem sendCcm_eq (s : IpaSession) {payload : Bytes} (h : payload.length ≤ 0xFFFF) :
    s.sendCcm payload = .ok (s.enqueue (IpaFrame.wire ⟨kStreamCcm, payload⟩)) := by
  rw [sendCcm, Ipa.encode, if_neg (by omega)]
  rfl

theorem start_eq (s : IpaSession) :
    s.start = .ok ((s.enqueue ccmIdReq).1, (s.enqueue ccmIdReq).2 ++ [.asyncRead]) := by
  rw [start, sendCcmIdGet, s.sendCcm_eq (by decide)]
  rfl

theorem isCcm_iff {frame : IpaFrame} {type : UInt8} :
    frame.isCcm type = true ↔
      frame.streamId = kStreamCcm ∧ ∃ more, frame.payload = type :: more := by
  rw [IpaFrame.isCcm, decide_eq_true_eq, List.head?_eq_some_iff]

theorem processFrame_idResp (s : IpaSession) {frame : IpaFrame}
    (h : frame.isCcm kCcmIdResp = true) :
    s.processFrame frame = .ok ({ (s.enqueue ccmIdAck).1 with state := .ready },
      (s.enqueue ccmIdAck).2 ++ [.onReady]) := by
  obtain ⟨hstream, more, hpayload⟩ := isCcm_iff.mp h
  rw [processFrame, if_pos hstream, hpayload, handleCcm, if_pos rfl, sendCcmIdAck,
    s.sendCcm_eq (by decide)]
  rfl

theorem processFrame_ping (s : IpaSession) {frame : IpaFrame} (h : frame.isCcm kCcmPing = true) :
    s.processFrame frame = .ok ((s.enqueue ccmPong).1, (s.enqueue ccmPong).2) := by
  obtain ⟨hstream, more, hpayload⟩ := isCcm_iff.mp h
  rw [processFrame, if_pos hstream, hpayload, handleCcm, if_neg (by decide), if_pos rfl,
    sendCcmPong, s.sendCcm_eq (by decide)]
  rfl

/-- All other frames have an effect only if they are GSUP frames of a session that is ready. -/
theorem processFrame_other (s : IpaSession) {frame : IpaFrame}
    (hresp : ¬ frame.isCcm kCcmIdResp = true) (hping : ¬ frame.isCcm kCcmPing = true) :
    s.processFrame frame = .ok (s,
      if frame.streamId = kStreamGsup ∧ s.state = .ready then [.onGsup frame.payload] else []) := by
  rw [processFrame]
  by_cases hstream : frame.streamId = kStreamCcm
  · have hgsup : ¬ (frame.streamId = kStreamGsup ∧ s.state = .ready) := by
      rw [hstream]
      exact fun h => absurd h.1 (by decide)
    rw [if_pos hstream, if_neg hgsup]
    unfold handleCcm
    split
    · rfl
    · rename_i type more hpayload
      rw [if_neg (fun h => hresp (isCcm_iff.mpr ⟨hstream, more, by rw [hpayload, h]⟩)),
        if_neg (fun h => hping (isCcm_iff.mpr ⟨hstream, more, by rw [hpayload, h]⟩))]
  · rw [if_neg hstream]
    split <;> rfl

/-- CCM frames are not delivered. -/
theorem delivers_ccm (state : SessionState) {frame : IpaFrame} {type : UInt8}
    (h : frame.isCcm type = true) : delivers state [frame] = [] := by
  have hnone : gsupPayloads [frame] = [] := by
    have hstream : ¬ kStreamCcm = kStreamGsup := by decide
    simp [gsupPayloads, (isCcm_iff.mp h).1, hstream]
  unfold delivers
  split
  · exact hnone
  · rw [fromIdResp, List.dropWhile_cons, List.dropWhile_nil]
    split
    · rfl
    · exact hnone

theorem processFrame_effect {frame : IpaFrame} (h : s.processFrame frame = .ok (s', calls)) :
    Tells s s' calls [frame] ∧ Enqueues s s' calls (reply? frame).toList := by
  by_cases hresp : frame.isCcm kCcmIdResp = true
  · rw [s.processFrame_idResp hresp] at h
    cases h
    have htells := s.enqueue_tells ccmIdAck
    refine ⟨⟨htells.clientId, ?_, ?_, ?_, ?_, ?_⟩, ?_⟩
    · simp [stateAfter, hresp]
    · rw [List.filterMap_append, htells.delivered, delivers_nil, delivers_ccm _ hresp]
      rfl
    · simp [hresp]
    · rw [List.mem_append, not_or]
      exact ⟨htells.connected, by simp⟩
    · rw [List.mem_append, not_or]
      exact ⟨htells.keeps, by simp⟩
    · rw [reply?, if_pos hresp]
      exact (s.enqueue_enqueues ccmIdAck).trans (enqueues_nothing rfl rfl rfl)
  · by_cases hping : frame.isCcm kCcmPing = true
    · rw [s.processFrame_ping hping] at h
      cases h
      have htells := s.enqueue_tells ccmPong
      refine ⟨⟨htells.clientId, ?_, ?_, ?_, htells.connected, htells.keeps⟩, ?_⟩
      · rw [htells.state]
        simp [stateAfter, hresp]
      · rw [htells.delivered, delivers_nil, delivers_ccm _ hping]
      · rw [htells.ready]
        simp [hresp]
      · rw [reply?, if_neg hresp, if_pos hping]
        exact s.enqueue_enqueues ccmPong
    · rw [s.processFrame_other hresp hping] at h
      cases h
      refine ⟨⟨rfl, ?_, ?_, ?_, ?_, ?_⟩, ?_⟩
      · simp [stateAfter, hresp]
      · by_cases hstate : s.state = .ready
        · by_cases hgsup : frame.streamId = kStreamGsup
          · simp [delivers, gsupPayloads, hstate, hgsup, SessionCall.gsup?]
          · simp [delivers, gsupPayloads, hstate, hgsup]
        · simp [delivers, gsupPayloads, fromIdResp, hstate, hresp]
      · simp [hresp, apply_ite (SessionCall.onReady ∈ ·)]
      · simp [apply_ite (SessionCall.onDisconnect ∈ ·)]
      · simp [apply_ite (SessionCall.closeSocket ∈ ·)]
      · rw [reply?, if_neg hresp, if_neg hping]
        refine enqueues_nothing rfl rfl ?_
        split <;> rfl

/-- The read loop, from whatever calls have been made. -/
theorem readTurns_effect {acc acc' : IpaSession × List SessionCall}
    (h : frames.foldlM readTurn acc = .ok acc') :
    ∃ calls, acc'.2 = acc.2 ++ calls ∧ Tells acc.1 acc'.1 calls frames ∧
      Enqueues acc.1 acc'.1 calls (frames.filterMap reply?) := by
  induction frames generalizing acc with
  | nil =>
    cases h
    exact ⟨[], (List.append_nil _).symm, tells_nothing rfl rfl (by simp),
      enqueues_nothing rfl rfl rfl⟩
  | cons frame frames ih =>
    rw [List.foldlM_cons] at h
    obtain ⟨acc₁, hturn, h⟩ := except_bind_eq_ok.mp h
    obtain ⟨calls', hcalls', htells', henqueues'⟩ := ih h
    unfold readTurn at hturn
    split at hturn
    · rename_i s₁ calls₁ hframe
      cases hturn
      obtain ⟨htells, henqueues⟩ := processFrame_effect hframe
      refine ⟨calls₁ ++ calls', by rw [hcalls', List.append_assoc], htells.trans htells', ?_⟩
      have hreplies : (frame :: frames).filterMap reply? =
          (reply? frame).toList ++ frames.filterMap reply? := by
        rw [List.filterMap_cons]
        cases reply? frame <;> rfl
      rw [hreplies]
      exact henqueues.trans henqueues'
    · cases hturn

/-- A read: the frames that are complete now are taken, and the rest is kept. -/
theorem onRead_effect {chunk : Bytes} (h : s.onRead (some chunk) = .ok (s', calls)) :
    ∃ frames, Yields IpaDecoder.next (s.decoder ++ chunk) frames s'.decoder ∧
      Tells s s' calls frames ∧ Enqueues s s' calls (frames.filterMap reply?) := by
  obtain ⟨⟨acc, rest⟩, hpump, h⟩ := except_bind_eq_ok.mp h
  obtain ⟨frames, hyields, hfold⟩ := (pump_eq_ok_iff next_shrinking).mp hpump
  obtain ⟨calls₁, hcalls₁, htells, henqueues⟩ := readTurns_effect hfold
  cases h
  rw [List.nil_append] at hcalls₁
  -- what is left to do is to read on
  have hcalls : (if acc.1.state ≠ .stopped then acc.2 ++ [.asyncRead] else acc.2) =
      calls₁ ++ if acc.1.state ≠ .stopped then [.asyncRead] else [] := by
    rw [hcalls₁]
    split
    · rfl
    · exact (List.append_nil _).symm
  dsimp only
  rw [hcalls]
  refine ⟨frames, hyields, ?_, ?_⟩
  · have hmore : Tells acc.1 { acc.1 with decoder := rest }
        (if acc.1.state ≠ .stopped then [.asyncRead] else []) [] := tells_nothing rfl rfl (by simp)
    rw [← List.append_nil frames]
    exact htells.trans hmore
  · have hmore : Enqueues acc.1 { acc.1 with decoder := rest }
        (if acc.1.state ≠ .stopped then [.asyncRead] else []) [] := by
      refine enqueues_nothing rfl rfl ?_
      split <;> rfl
    rw [← List.append_nil (frames.filterMap reply?)]
    exact henqueues.trans hmore

/-- A write that succeeded was one of the front of the queue, which is taken out. -/
theorem onWritten_effect (h : s.onWritten true = .ok (s', calls)) :
    s'.decoder = s.decoder ∧ Tells s s' calls [] ∧
      (∃ front, s.writeQueue = front :: s'.writeQueue) ∧
      Flying s' (calls.filterMap SessionCall.write?) := by
  rw [onWritten, if_pos rfl] at h
  split at h
  · cases h
  · rename_i front queue hqueue
    have heq := Except.ok.inj h
    have htells := doWrite_tells { s with writeQueue := queue }
    have hflying := doWrite_flying { s with writeQueue := queue }
    have hdecoder : s'.decoder = s.decoder := by
      rw [show s' = _ from (congrArg Prod.fst heq).symm, doWrite_decoder]
    have hrest : s'.writeQueue = queue := by
      rw [show s' = _ from (congrArg Prod.fst heq).symm, doWrite_writeQueue]
    rw [heq] at htells hflying
    refine ⟨hdecoder, ⟨htells.clientId, htells.state, htells.delivered, htells.ready,
      htells.connected, htells.keeps⟩, ⟨front, ?_⟩, hflying⟩
    rw [hqueue, hrest]

/-- Unless the session has stopped, the read handler goes on reading. -/
theorem onRead_goes_on {chunk : Bytes} (h : s.onRead (some chunk) = .ok (s', calls))
    (hstate : s'.state ≠ .stopped) : ∃ earlier, calls = earlier ++ [.asyncRead] := by
  obtain ⟨⟨acc, rest⟩, -, h⟩ := except_bind_eq_ok.mp h
  cases h
  exact ⟨acc.2, if_pos hstate⟩

/-- The session stops. It calls `onDisconnect` only if it had not stopped before, and makes no
other callback. -/
inductive Ceases (s : IpaSession) : IpaSession → List SessionCall → Prop
  | silent {calls : List SessionCall} (hcalls : calls = [] ∨ calls = [.closeSocket]) :
      Ceases s { s with state := .stopped } calls
  | reports (h : s.state ≠ .stopped) : Ceases s { s with state := .stopped } [.onDisconnect]

theorem Ceases.of_failure (h : (if s.state ≠ .stopped then
      .ok ({ s with state := .stopped }, [.onDisconnect]) else .ok (s, [])) =
    (.ok (s', calls) : Except Fault _)) : Ceases s s' calls := by
  split at h
  · rename_i hstate
    cases h
    exact .reports hstate
  · rename_i hstate
    cases h
    have hsame : Ceases s { s with state := .stopped } [] := .silent (.inl rfl)
    rwa [← not_not.mp hstate] at hsame

theorem Ceases.quiet (h : Ceases s s' calls) :
    s'.state = .stopped ∧ .onReady ∉ calls ∧ ∀ payload, .onGsup payload ∉ calls := by
  cases h with
  | silent hcalls =>
    rcases hcalls with rfl | rfl
    · simp
    · simp
  | reports hstate => simp

theorem Ceases.count_le (h : Ceases s s' calls) : calls.count .onDisconnect ≤ 1 := by
  cases h with
  | silent hcalls =>
    rcases hcalls with rfl | rfl
    · decide
    · decide
  | reports hstate => decide

/-- A session that has stopped does not report it again. -/
theorem Ceases.silent_of_stopped (h : Ceases s s' calls) (hstopped : s.state = .stopped) :
    .onDisconnect ∉ calls := by
  cases h with
  | silent hcalls =>
    rcases hcalls with rfl | rfl
    · simp
    · simp
  | reports hstate => exact absurd hstopped hstate

theorem stop_ceases (s : IpaSession) : Ceases s s.stop.1 s.stop.2 := by
  unfold stop
  split
  · rename_i hstate
    have hsame : Ceases s { s with state := .stopped } [] := .silent (.inl rfl)
    rwa [← hstate] at hsame
  · exact .silent (.inr rfl)

end IpaSession

end GsupMapProxy.Transport
