import GsupMapProxy.Transport.Proofs.M3uaRoundTrip
import GsupMapProxy.Transport.Proofs.WriteQueue

/-!
# MapTransport between two streams

Between two calls of `resetConnection` the transport turns one stream of M3UA messages into
another one: what it reads decides what it hands to the proxy and what it answers, in whatever
chunks it arrives and whatever else happens in between; and what it puts into its queue is what
it writes.
-/

namespace GsupMapProxy.Transport

open Misc M3ua Sccp

/-! ## One message -/

/-- The payload a message brings for the proxy. -/
def handedOn? (msg : M3uaMessage) : Option Bytes :=
  if msg.msgClass = kClassTransf ∧ msg.msgType = kTypeData then do
    let pd ← msg.protocolData
    if pd.si = kSiSccp then (decodeUdt pd.userData).toOption.map SccpUdt.data else none
  else none

/-- The answer to a message. -/
def answer? (cfg : MapTransportConfig) (msg : M3uaMessage) : Option M3uaMessage :=
  if msg.msgClass = kClassAspsm ∧ msg.msgType = kTypeAspUpAck then
    some (makeAspAc cfg.routingContext)
  else if msg.msgClass = kClassAspsm ∧ msg.msgType = kTypeHeartbeat then
    some (makeHeartbeatAck msg.heartbeatData)
  else none

/-- The payload of a call into the proxy. -/
def MapCall.message? : MapCall → Option Bytes
  | .messageCb payload => some payload
  | _ => none

namespace MapTransport

variable {t t' : MapTransport} {calls : List MapCall}

/-- What comes of these messages: payloads for the proxy, and answers in the queue. -/
structure Dispatches (t t' : MapTransport) (calls : List MapCall) (msgs : List M3uaMessage) :
    Prop where
  handed : calls.filterMap MapCall.message? = msgs.filterMap handedOn?
  queue : t'.writeQueue = t.writeQueue ++ (msgs.filterMap (answer? t.cfg)).map M3ua.encode
  cfg : t'.cfg = t.cfg

theorem Dispatches.trans {t'' : MapTransport} {calls' : List MapCall}
    {msgs msgs' : List M3uaMessage} (h : Dispatches t t' calls msgs)
    (h' : Dispatches t' t'' calls' msgs') :
    Dispatches t t'' (calls ++ calls') (msgs ++ msgs') where
  handed := by rw [List.filterMap_append, List.filterMap_append, h.handed, h'.handed]
  queue := by
    rw [h'.queue, h.queue, h.cfg, List.filterMap_append, List.map_append, List.append_assoc]
  cfg := h'.cfg.trans h.cfg

theorem enqueue_message (t : MapTransport) (frame : Bytes) :
    (t.enqueue frame).2.filterMap MapCall.message? = [] := by
  unfold enqueue doWrite
  dsimp only
  split
  · rfl
  · split <;> rfl

theorem doWrite_message (t : MapTransport) :
    t.doWrite.2.filterMap MapCall.message? = [] := by
  unfold doWrite
  split <;> rfl

theorem doWrite_fst (t : MapTransport) :
    t.doWrite.1 = { t with writing := t.doWrite.1.writing } := by
  unfold doWrite
  split <;> rfl

/-- A message that is answered. -/
theorem enqueue_dispatches {msg reply : M3uaMessage} (h : t.sendRaw reply = (t', calls))
    (hanswer : answer? t.cfg msg = some reply) (hhanded : handedOn? msg = none) :
    Dispatches t t' calls [msg] := by
  obtain rfl : (t.enqueue (M3ua.encode reply)).1 = t' := congrArg Prod.fst h
  obtain rfl : (t.enqueue (M3ua.encode reply)).2 = calls := congrArg Prod.snd h
  refine ⟨?_, ?_, ?_⟩
  · simp [enqueue_message, hhanded]
  · simp [enqueue_fst, hanswer]
  · simp [enqueue_fst]

theorem processMessage_dispatches {msg : M3uaMessage}
    (h : t.processMessage msg = .ok (t', calls)) : Dispatches t t' calls [msg] := by
  have hane : kClassAspsm ≠ kClassTransf := by decide
  have htne : kClassAsptm ≠ kClassTransf := by decide
  unfold processMessage at h
  by_cases hup : msg.msgClass = kClassAspsm ∧ msg.msgType = kTypeAspUpAck
  · rw [if_pos hup] at h
    exact enqueue_dispatches (Except.ok.inj h) (by simp [answer?, hup])
      (by simp [handedOn?, hup.1, hane])
  rw [if_neg hup] at h
  by_cases hac : msg.msgClass = kClassAsptm ∧ msg.msgType = kTypeAspAcAck
  · have hne : kClassAsptm ≠ kClassAspsm := by decide
    rw [if_pos hac] at h
    cases h
    refine ⟨?_, ?_, rfl⟩
    · simp [startBeat, MapCall.message?, handedOn?, hac.1, htne]
    · simp [answer?, hac.1, hne]
  rw [if_neg hac] at h
  by_cases hbeat : msg.msgClass = kClassAspsm ∧ msg.msgType = kTypeHeartbeat
  · have hne : kTypeHeartbeat ≠ kTypeAspUpAck := by decide
    rw [if_pos hbeat] at h
    exact enqueue_dispatches (Except.ok.inj h) (by simp [answer?, hbeat, hne])
      (by simp [handedOn?, hbeat.1, hane])
  rw [if_neg hbeat] at h
  have hanswer : answer? t.cfg msg = none := by
    rw [answer?, if_neg hup, if_neg hbeat]
  have hkept : ∀ {calls : List MapCall},
      calls.filterMap MapCall.message? = (handedOn? msg).toList →
      Dispatches t t calls [msg] := by
    intro calls hcalls
    refine ⟨?_, by simp [hanswer], rfl⟩
    rw [hcalls, List.filterMap_cons]
    cases handedOn? msg <;> rfl
  by_cases hbeatAck : msg.msgClass = kClassAspsm ∧ msg.msgType = kTypeHeartbeatAck
  · rw [if_pos hbeatAck] at h
    cases h
    exact hkept (by simp [handedOn?, hbeatAck.1, hane])
  rw [if_neg hbeatAck] at h
  by_cases hdata : msg.msgClass = kClassTransf ∧ msg.msgType = kTypeData
  · rw [if_pos hdata] at h
    cases hpd : msg.protocolData with
    | none =>
      rw [hpd] at h
      cases h
      exact hkept (by simp [handedOn?, hdata, hpd])
    | some pd =>
      rw [hpd] at h
      dsimp only at h
      by_cases hsi : pd.si = kSiSccp
      · rw [if_neg (not_not.mpr hsi)] at h
        cases hudt : decodeUdt pd.userData with
        | ok udt =>
          rw [hudt] at h
          cases h
          exact hkept (by
            simp [handedOn?, hdata, hpd, hsi, hudt, MapCall.message?, Except.toOption])
        | error f =>
          rw [hudt] at h
          cases f with
          | thrown e =>
            cases h
            exact hkept (by simp [handedOn?, hdata, hpd, hsi, hudt, Except.toOption])
          | undefined what => cases h
      · rw [if_pos hsi] at h
        cases h
        exact hkept (by simp [handedOn?, hdata, hpd, hsi])
  · rw [if_neg hdata] at h
    cases h
    exact hkept (by simp [handedOn?, hdata])

theorem readTurns_dispatches {msgs : List M3uaMessage} {acc acc' : MapTransport × List MapCall}
    (h : msgs.foldlM readTurn acc = .ok acc') :
    ∃ calls, acc'.2 = acc.2 ++ calls ∧ Dispatches acc.1 acc'.1 calls msgs := by
  induction msgs generalizing acc with
  | nil =>
    cases h
    exact ⟨[], (List.append_nil _).symm, ⟨rfl, (List.append_nil _).symm, rfl⟩⟩
  | cons msg msgs ih =>
    rw [List.foldlM_cons] at h
    obtain ⟨acc₁, hturn, h⟩ := except_bind_eq_ok.mp h
    obtain ⟨t₁, calls₁, hmessage, rfl⟩ := readTurn_eq_ok.mp hturn
    obtain ⟨calls, hcalls, hdispatches⟩ := ih h
    refine ⟨calls₁ ++ calls, by rw [hcalls, List.append_assoc], ?_⟩
    exact (processMessage_dispatches hmessage).trans hdispatches

/-- A read: the messages that are complete now are dispatched, and the rest is kept. -/
theorem onRead_dispatches_all {chunk : Bytes} (h : t.onRead (some chunk) = .ok (t', calls)) :
    ∃ msgs, Yields M3uaDecoder.next (t.decoder ++ chunk) msgs t'.decoder ∧
      Dispatches t t' calls msgs := by
  obtain ⟨msgs, rest, t₁, calls₁, hyields, hfold, rfl, rfl⟩ := onRead_some_eq_ok.mp h
  obtain ⟨own, hown, hdispatches⟩ := readTurns_dispatches hfold
  rw [List.nil_append] at hown
  subst hown
  refine ⟨msgs, hyields, ?_, hdispatches.queue, hdispatches.cfg⟩
  split
  · rw [List.filterMap_append, hdispatches.handed]
    exact List.append_nil _
  · exact hdispatches.handed

end MapTransport

/-! ## Since the last reset -/

namespace MapLink

variable {s s' : MapLink} {op : LinkInput} {outs : List MapCall} {events : List LinkEvent}
  {cfg : MapTransportConfig}

/-- The handler calls `resetConnection`. -/
def resets (t : MapTransport) : HlrHandler → Bool
  | .reconnectTimer _ => false
  | handler => beginsEpoch t handler

def resetting (e : LinkEvent) : Bool :=
  match e.op with
  | .run handler _ => resets e.pre.transport handler
  | _ => false

/-- What the events since the last reset have contributed. -/
def since {γ : Type} (f : LinkEvent → List γ) (events : List LinkEvent) : List γ :=
  events.foldl (fun acc e => if resetting e then [] else acc ++ f e) []

theorem since_snoc {γ : Type} (f : LinkEvent → List γ) (events : List LinkEvent) (e : LinkEvent) :
    since f (events ++ [e]) = if resetting e then [] else since f events ++ f e := by
  rw [since, List.foldl_append]
  rfl

/-- The bytes a handler takes in, the messages they complete, and the payloads it hands on. -/
def bytesRead (e : LinkEvent) : Bytes :=
  match e.op with
  | .run (.read _ (some chunk)) _ => chunk
  | _ => []

def messagesRead (e : LinkEvent) : List M3uaMessage :=
  match e.op with
  | .run (.read _ (some chunk)) _ =>
      (collect M3uaDecoder.next (e.pre.transport.decoder ++ chunk)).1
  | _ => []

def handed (e : LinkEvent) : List Bytes := e.outs.filterMap MapCall.message?

/-- The messages a handler puts into the queue. -/
def queued (e : LinkEvent) : List M3uaMessage :=
  match e.op with
  | .run (.connected _ true) _ => [makeAspUp]
  | .run (.read _ (some _)) _ => (messagesRead e).filterMap (answer? e.pre.transport.cfg)
  | .run (.beatTimer _ ok) _ =>
      if ok ∧ e.pre.transport.state = .active then [makeHeartbeat] else []
  | .run (.send payload) _ =>
      if e.pre.transport.state = .active then [MapTransport.wrap e.pre.transport.cfg payload]
      else []
  | _ => []

/-- The frame of a write that has succeeded, when its handler runs. -/
def wrote (e : LinkEvent) : List Bytes :=
  match e.op with
  | .run (.written _ frame true) _ => [frame]
  | _ => []

/-- The frame a handler takes out of the queue. -/
def popped (e : LinkEvent) : List Bytes :=
  match e.op with
  | .run (.written _ _ true) _ => e.pre.transport.writeQueue.take 1
  | _ => []

/-- What an event does to the streams if it does not reset the connection. -/
structure Streams (e : LinkEvent) : Prop where
  reads : bytesRead e = [] ∧ messagesRead e = [] ∧
      e.post.transport.decoder = e.pre.transport.decoder ∨
    Yields M3uaDecoder.next (e.pre.transport.decoder ++ bytesRead e) (messagesRead e)
      e.post.transport.decoder
  handed : handed e = (messagesRead e).filterMap handedOn?
  writes : e.pre.transport.writeQueue ++ (queued e).map M3ua.encode =
    popped e ++ e.post.transport.writeQueue
  cfg : e.post.transport.cfg = e.pre.transport.cfg

/-- What it does if it does. -/
structure Resets (e : LinkEvent) : Prop where
  resetting : resetting e = true
  decoder : e.post.transport.decoder = []
  queue : e.post.transport.writeQueue = []
  cfg : e.post.transport.cfg = e.pre.transport.cfg

theorem perform_transport (s : MapLink) (call : MapCall) :
    (s.perform call).transport = s.transport := by
  have hbegin : ∀ op failed, (s.beginOnSocket op failed).transport = s.transport := by
    intro op failed
    unfold beginOnSocket
    split <;> rfl
  cases call with
  | asyncConnect => exact hbegin _ _
  | asyncRead => exact hbegin _ _
  | asyncWrite frame => exact hbegin _ _
  | _ => rfl

theorem after_eq (s : MapLink) (result : MapTransport × List MapCall) :
    (s.after result).transport = result.1 := by
  unfold after
  refine List.foldlRecOn (motive := fun s' : MapLink => s'.transport = result.1) result.2 _ rfl ?_
  intro s' h call _
  rw [perform_transport, h]

/-- A handler that reads and writes nothing. -/
theorem streams_quiet (t' : MapTransport) {handler : HlrHandler} {attempt : ConnectAttempt}
    (hpost : s'.transport = t') (hdecoder : t'.decoder = s.transport.decoder)
    (hqueue : t'.writeQueue = s.transport.writeQueue) (hcfg : t'.cfg = s.transport.cfg)
    (houts : outs.filterMap MapCall.message? = [])
    (hread : bytesRead ⟨s, .run handler attempt, outs, s'⟩ = [])
    (hmessages : messagesRead ⟨s, .run handler attempt, outs, s'⟩ = [])
    (hqueued : queued ⟨s, .run handler attempt, outs, s'⟩ = [])
    (hpopped : popped ⟨s, .run handler attempt, outs, s'⟩ = []) :
    Streams ⟨s, .run handler attempt, outs, s'⟩ := by
  subst hpost
  refine ⟨.inl ⟨hread, hmessages, hdecoder⟩, ?_, ?_, hcfg⟩
  · rw [hmessages]
    exact houts
  · rw [hqueued, hpopped]
    simp [hqueue]

/-- A handler that puts a message into the queue. -/
theorem streams_enqueues (t : MapTransport) (msg : M3uaMessage) {handler : HlrHandler}
    {attempt : ConnectAttempt} (hdecoder : t.decoder = s.transport.decoder)
    (hqueue : t.writeQueue = s.transport.writeQueue) (hcfg : t.cfg = s.transport.cfg)
    (hpost : s'.transport = (t.enqueue (M3ua.encode msg)).1)
    (houts : outs.filterMap MapCall.message? = [])
    (hread : bytesRead ⟨s, .run handler attempt, outs, s'⟩ = [])
    (hmessages : messagesRead ⟨s, .run handler attempt, outs, s'⟩ = [])
    (hqueued : queued ⟨s, .run handler attempt, outs, s'⟩ = [msg])
    (hpopped : popped ⟨s, .run handler attempt, outs, s'⟩ = []) :
    Streams ⟨s, .run handler attempt, outs, s'⟩ := by
  rw [MapTransport.enqueue_fst] at hpost
  refine ⟨.inl ⟨hread, hmessages, ?_⟩, ?_, ?_, ?_⟩
  · show s'.transport.decoder = _
    rw [hpost]
    exact hdecoder
  · rw [hmessages]
    exact houts
  · rw [hqueued, hpopped]
    show _ = [] ++ s'.transport.writeQueue
    rw [hpost]
    simp [hqueue]
  · show s'.transport.cfg = _
    rw [hpost]
    exact hcfg

theorem resets_of_reset {handler : HlrHandler} {attempt : ConnectAttempt}
    (hresets : resets s.transport handler = true) (hpost : s'.transport = reset s.transport) :
    Resets ⟨s, .run handler attempt, outs, s'⟩ := by
  refine ⟨hresets, ?_, ?_, ?_⟩
  · rw [hpost]
    rfl
  · rw [hpost]
    rfl
  · rw [hpost]
    rfl

theorem run_streams {handler : HlrHandler} {attempt : ConnectAttempt}
    (h : method s.transport attempt handler = .ok (s'.transport, outs)) :
    resets s.transport handler = false ∧ Streams ⟨s, .run handler attempt, outs, s'⟩ ∨
      Resets ⟨s, .run handler attempt, outs, s'⟩ := by
  have hsame : s.transport = s'.transport → [] = outs →
      bytesRead ⟨s, .run handler attempt, outs, s'⟩ = [] →
      messagesRead ⟨s, .run handler attempt, outs, s'⟩ = [] →
      queued ⟨s, .run handler attempt, outs, s'⟩ = [] →
      popped ⟨s, .run handler attempt, outs, s'⟩ = [] →
      Streams ⟨s, .run handler attempt, outs, s'⟩ := by
    intro htransport houts hread hmessages hqueued hpopped
    refine streams_quiet _ htransport.symm rfl rfl rfl ?_ hread hmessages hqueued hpopped
    rw [← houts]
    rfl
  cases handler with
  | connected epoch ok =>
    have h := Except.ok.inj h
    cases ok with
    | true =>
      obtain ⟨htransport, houts⟩ := Prod.mk.inj h
      refine .inl ⟨rfl, streams_enqueues { s.transport with state := .aspUp } makeAspUp
        rfl rfl rfl htransport.symm ?_ rfl rfl rfl rfl⟩
      rw [← houts, List.filterMap_cons]
      exact MapTransport.enqueue_message _ _
    | false => exact .inr (resets_of_reset rfl (congrArg Prod.fst h).symm)
  | connectFailed epoch =>
    exact .inr (resets_of_reset rfl (congrArg Prod.fst (Except.ok.inj h)).symm)
  | read epoch result =>
    cases result with
    | none =>
      have h : s.transport.onRead none = .ok (s'.transport, outs) := h
      rw [MapTransport.onRead] at h
      split at h
      · rename_i hrunning
        have hresets : resets s.transport (.read epoch none) = true := by
          simpa [resets, beginsEpoch] using hrunning
        exact .inr (resets_of_reset hresets (congrArg Prod.fst (Except.ok.inj h)).symm)
      · rename_i hstopped
        obtain ⟨htransport, houts⟩ := Prod.mk.inj (Except.ok.inj h)
        refine .inl ⟨?_, hsame htransport houts rfl rfl rfl rfl⟩
        simpa [resets, beginsEpoch] using hstopped
    | some chunk =>
      obtain ⟨msgs, hyields, hdispatches⟩ := MapTransport.onRead_dispatches_all h
      have hmsgs : messagesRead ⟨s, .run (.read epoch (some chunk)) attempt, outs, s'⟩ = msgs := by
        rw [messagesRead]
        exact congrArg Prod.fst (collect_of_yields next_shrinking hyields)
      have hqueued : queued ⟨s, .run (.read epoch (some chunk)) attempt, outs, s'⟩ =
          msgs.filterMap (answer? s.transport.cfg) := by
        rw [queued, hmsgs]
      refine .inl ⟨rfl, .inr ?_, ?_, ?_, hdispatches.cfg⟩
      · rw [hmsgs]
        exact hyields
      · rw [hmsgs]
        exact hdispatches.handed
      · rw [hqueued]
        exact hdispatches.queue.symm
  | written epoch frame ok =>
    cases ok with
    | true =>
      have h : s.transport.onWritten true = .ok (s'.transport, outs) := h
      rw [MapTransport.onWritten, if_pos rfl] at h
      split at h
      · cases h
      · rename_i front queue hqueue
        have heq := Except.ok.inj h
        have hpost : s'.transport = { s.transport with
            writeQueue := queue
            writing := ({ s.transport with writeQueue := queue } : MapTransport).doWrite.1.writing
            } := by
          rw [← MapTransport.doWrite_fst { s.transport with writeQueue := queue }, heq]
        have houts : outs.filterMap MapCall.message? = [] := by
          have hnone := MapTransport.doWrite_message { s.transport with writeQueue := queue }
          rwa [heq] at hnone
        refine .inl ⟨rfl, .inl ⟨rfl, rfl, ?_⟩, houts, ?_, ?_⟩
        · show s'.transport.decoder = _
          rw [hpost]
        · show s.transport.writeQueue ++ [] =
            s.transport.writeQueue.take 1 ++ s'.transport.writeQueue
          rw [hpost, hqueue]
          simp
        · show s'.transport.cfg = _
          rw [hpost]
    | false =>
      have h : s.transport.onWritten false = .ok (s'.transport, outs) := h
      rw [MapTransport.onWritten, if_neg (by decide)] at h
      split at h
      · rename_i hrunning
        have hresets : resets s.transport (.written epoch frame false) = true := by
          simpa [resets, beginsEpoch] using hrunning
        exact .inr (resets_of_reset hresets (congrArg Prod.fst (Except.ok.inj h)).symm)
      · rename_i hstopped
        obtain ⟨htransport, houts⟩ := Prod.mk.inj (Except.ok.inj h)
        refine .inl ⟨?_, hsame htransport houts rfl rfl rfl rfl⟩
        simpa [resets, beginsEpoch] using hstopped
  | reconnectTimer ok =>
    have h : s.transport.onReconnectTimer ok attempt = (s'.transport, outs) := Except.ok.inj h
    rw [MapTransport.onReconnectTimer] at h
    split at h
    · refine .inl ⟨rfl, streams_quiet (s.transport.connect attempt).1
        (congrArg Prod.fst h).symm ?_ ?_ ?_ ?_ rfl rfl rfl rfl⟩
      · cases attempt <;> rfl
      · cases attempt <;> rfl
      · cases attempt <;> rfl
      · have hnone : (s.transport.connect attempt).2.filterMap MapCall.message? = [] := by
          cases attempt <;> rfl
        rwa [h] at hnone
    · obtain ⟨htransport, houts⟩ := Prod.mk.inj h
      exact .inl ⟨rfl, hsame htransport houts rfl rfl rfl rfl⟩
  | beatTimer epoch ok =>
    have h : s.transport.onBeatTimer ok = (s'.transport, outs) := Except.ok.inj h
    rw [MapTransport.onBeatTimer, MapTransport.onBeat] at h
    by_cases hbeat : ok = true ∧ s.transport.state = .active
    · obtain ⟨hok, hactive⟩ := hbeat
      rw [if_pos ⟨hok, by rw [hactive]; decide⟩, if_neg (not_not.mpr hactive)] at h
      obtain ⟨htransport, houts⟩ := Prod.mk.inj h
      refine .inl ⟨rfl, streams_enqueues s.transport makeHeartbeat rfl rfl rfl
        htransport.symm ?_ rfl rfl ?_ rfl⟩
      · rw [← houts, List.filterMap_append]
        exact congrArg (· ++ []) (MapTransport.enqueue_message _ _)
      · exact if_pos ⟨hok, hactive⟩
    · have hnothing : s.transport = s'.transport ∧ [] = outs := by
        split at h
        · split at h
          · exact Prod.mk.inj h
          · rename_i hok hactive
            exact absurd ⟨hok.1, not_not.mp hactive⟩ hbeat
        · exact Prod.mk.inj h
      exact .inl ⟨rfl, hsame hnothing.1 hnothing.2 rfl rfl (if_neg hbeat) rfl⟩
  | send payload =>
    have h : s.transport.sendPosted payload = (s'.transport, outs) := Except.ok.inj h
    rw [MapTransport.sendPosted] at h
    by_cases hactive : s.transport.state = .active
    · rw [if_neg (not_not.mpr hactive)] at h
      obtain ⟨htransport, houts⟩ := Prod.mk.inj h
      refine .inl ⟨rfl, streams_enqueues s.transport
        (MapTransport.wrap s.transport.cfg payload) rfl rfl rfl htransport.symm ?_ rfl rfl
        (if_pos hactive) rfl⟩
      rw [← houts]
      exact MapTransport.enqueue_message _ _
    · rw [if_pos hactive] at h
      obtain ⟨htransport, houts⟩ := Prod.mk.inj h
      exact .inl ⟨rfl, hsame htransport houts rfl rfl (if_neg hactive) rfl⟩

/-- Every step either resets the connection or carries the streams on. -/
theorem step_streams (h : step s op = .ok (s', outs)) :
    resetting ⟨s, op, outs, s'⟩ = false ∧ Streams ⟨s, op, outs, s'⟩ ∨ Resets ⟨s, op, outs, s'⟩ := by
  cases op with
  | start =>
    cases h
    have hpost : (s.after s.transport.start).transport = s.transport := after_eq s _
    refine .inl ⟨rfl, .inl ⟨rfl, rfl, congrArg MapTransport.decoder hpost⟩, ?_, ?_,
      congrArg MapTransport.cfg hpost⟩
    · show List.filterMap _ s.transport.scheduleConnect = []
      unfold MapTransport.scheduleConnect
      split <;> rfl
    · show s.transport.writeQueue ++ [] = [] ++ (s.after s.transport.start).transport.writeQueue
      rw [hpost]
      simp
  | stop =>
    cases h
    have hpost : (s.after s.transport.stop).transport = { s.transport with state := .stopped } :=
      after_eq s _
    refine .inl ⟨rfl, .inl ⟨rfl, rfl, ?_⟩, rfl, ?_, ?_⟩
    · show (s.after s.transport.stop).transport.decoder = _
      rw [hpost]
    · show s.transport.writeQueue ++ [] = [] ++ (s.after s.transport.stop).transport.writeQueue
      rw [hpost]
      simp
    · show (s.after s.transport.stop).transport.cfg = _
      rw [hpost]
  | send payload =>
    cases h
    exact .inl ⟨rfl, .inl ⟨rfl, rfl, rfl⟩, rfl, List.append_nil _, rfl⟩
  | finish op handler =>
    cases h
    exact .inl ⟨rfl, .inl ⟨rfl, rfl, rfl⟩, rfl, List.append_nil _, rfl⟩
  | run handler attempt =>
    obtain ⟨⟨t', calls⟩, hmethod, h⟩ := except_bind_eq_ok.mp h
    cases h
    apply run_streams
    rw [after_eq]
    exact hmethod

/-! ## Along a run -/

theorem run_cfg (hrun : LinkRun cfg events s) : s.transport.cfg = cfg := by
  refine hrun.invariant (I := fun s => s.transport.cfg = cfg) rfl ?_
  intro s op s' outs hcfg hop hstep
  rcases step_streams hstep with ⟨-, hstreams⟩ | hresets
  · exact hstreams.cfg.trans hcfg
  · exact hresets.cfg.trans hcfg

/-- What is handed on is what the messages bring. -/
theorem run_handed (hrun : LinkRun cfg events s) :
    since handed events = (since messagesRead events).filterMap handedOn? := by
  induction hrun with
  | nil => rfl
  | snoc earlier op hop hstep ih =>
    rw [since_snoc, since_snoc]
    rcases step_streams hstep with ⟨hresetting, hstreams⟩ | hresets
    · rw [hresetting]
      simp only [Bool.false_eq_true, if_false, List.filterMap_append, ih, hstreams.handed]
    · rw [hresets.resetting]
      rfl

/-- The messages that have been read, and the beginning of the next one. -/
structure ReadSoFar (msgs : List M3uaMessage) (events : List LinkEvent) (s : MapLink) : Prop where
  bytes : since bytesRead events =
    (since messagesRead events).flatMap M3ua.encode ++ s.transport.decoder
  waits : M3uaDecoder.next s.transport.decoder = (.ok none, s.transport.decoder)
  messages : since messagesRead events <+: msgs

theorem ReadSoFar.nil (msgs : List M3uaMessage) (hbytes : since bytesRead events = [])
    (hmessages : since messagesRead events = []) (hdecoder : s.transport.decoder = []) :
    ReadSoFar msgs events s where
  bytes := by
    rw [hbytes, hmessages, hdecoder]
    rfl
  waits := by
    rw [hdecoder]
    rfl
  messages := by
    rw [hmessages]
    exact List.nil_prefix

/-- A stream of messages is read message by message, in whatever pieces. -/
theorem run_readSoFar {msgs : List M3uaMessage} (hfits : ∀ msg ∈ msgs, msg.Fits)
    (hrun : LinkRun cfg events s) (hstream : since bytesRead events <+: msgs.flatMap M3ua.encode) :
    ReadSoFar msgs events s := by
  induction hrun with
  | nil => exact .nil msgs rfl rfl rfl
  | @snoc events s s' outs earlier op hop hstep ih =>
    rcases step_streams hstep with ⟨hresetting, hstreams⟩ | hresets
    · rw [since_snoc, hresetting] at hstream
      simp only [Bool.false_eq_true, if_false] at hstream
      have hbefore := ih ((List.prefix_append _ _).trans hstream)
      rcases hstreams.reads with ⟨hbytes, hmessages, hdecoder⟩ | hyields
      · -- nothing is read
        have hdecoder : s'.transport.decoder = s.transport.decoder := hdecoder
        refine ⟨?_, ?_, ?_⟩
        · rw [since_snoc, since_snoc, hresetting, hbytes, hmessages, hdecoder]
          simpa using hbefore.bytes
        · rw [hdecoder]
          exact hbefore.waits
        · rw [since_snoc, hresetting, hmessages]
          simpa using hbefore.messages
      · -- whole messages and a part of one are behind what was read before
        obtain ⟨later, hlater⟩ := hbefore.messages
        obtain ⟨more, hmore⟩ := hstream
        have hrest : s.transport.decoder ++ bytesRead ⟨s, op, outs, s'⟩ ++ more =
            later.flatMap M3ua.encode := by
          rw [hbefore.bytes, ← hlater, List.flatMap_append, List.append_assoc, List.append_assoc]
            at hmore
          rw [List.append_assoc]
          exact List.append_cancel_left hmore
        obtain ⟨whole, later', part, rfl, hstart, hwait, -⟩ :=
          exists_whole_frames (P := M3uaMessage.Fits)
            (show M3uaDecoder.next [] = (.ok none, []) from rfl)
            (fun _ h _ _ hmore hpart => next_part h hmore hpart) later
            (fun msg hmsg => hfits msg (by rw [← hlater]; exact List.mem_append_right _ hmsg))
            _ _ hrest
        have hwhole : Yields M3uaDecoder.next (whole.flatMap M3ua.encode ++ part) whole part := by
          refine yields_frames (P := M3uaMessage.Fits) (fun _ h rest => next_encode h rest) hwait
            whole fun msg hmsg => hfits msg ?_
          rw [← hlater]
          exact List.mem_append_right _ (List.mem_append_left _ hmsg)
        rw [← hstart] at hwhole
        have hcollect := (collect_of_yields next_shrinking hyields).symm.trans
          (collect_of_yields next_shrinking hwhole)
        obtain ⟨hmessages, hdecoder⟩ : messagesRead ⟨s, op, outs, s'⟩ = whole ∧
            s'.transport.decoder = part := by
          simpa using hcollect
        refine ⟨?_, ?_, ?_⟩
        · rw [since_snoc, since_snoc, hresetting, hmessages, hdecoder]
          simp only [Bool.false_eq_true, if_false, List.flatMap_append, List.append_assoc]
          rw [← hstart, hbefore.bytes, List.append_assoc]
        · rw [hdecoder]
          exact hwait
        · rw [since_snoc, hresetting, hmessages, ← hlater]
          simp
    · refine .nil msgs ?_ ?_ hresets.decoder
      · rw [since_snoc, hresets.resetting]
        rfl
      · rw [since_snoc, hresets.resetting]
        rfl

/-- When the whole stream is there, all of its messages have been read. -/
theorem ReadSoFar.complete {msgs : List M3uaMessage} (h : ReadSoFar msgs events s)
    (hfits : ∀ msg ∈ msgs, msg.Fits) (hstream : since bytesRead events = msgs.flatMap M3ua.encode) :
    since messagesRead events = msgs ∧ s.transport.decoder = [] := by
  obtain ⟨later, hlater⟩ := h.messages
  have hrest : s.transport.decoder = later.flatMap M3ua.encode := by
    have hbytes := h.bytes
    rw [hstream, ← hlater, List.flatMap_append] at hbytes
    exact (List.append_cancel_left hbytes).symm
  cases later with
  | nil =>
    rw [List.append_nil] at hlater
    exact ⟨hlater, hrest⟩
  | cons msg later =>
    -- a whole message in the buffer would have been read
    have hwaits := h.waits
    have hmsg : msg.Fits := hfits msg (by rw [← hlater]; simp)
    rw [hrest, List.flatMap_cons, next_encode hmsg] at hwaits
    cases hwaits

/-- What has been written and what is still in the queue are the messages that were put there. -/
theorem run_writes (hrun : LinkRun cfg events s)
    (hsafe : ∀ e ∈ events, ClearsSafely e.pre e.op) :
    since wrote events ++ s.transport.writeQueue = (since queued events).map M3ua.encode := by
  refine (hrun.history (I := fun events s => InFlight s.transport s.frames ∧
    since wrote events ++ s.transport.writeQueue = (since queued events).map M3ua.encode)
    hsafe ?_ ?_).2
  · exact ⟨⟨Nat.zero_le _, fun _ hf => absurd hf List.not_mem_nil, fun _ => rfl⟩, rfl⟩
  · rintro events s op outs s' ⟨hflight, hwrites⟩ hop hstep hsafe
    refine ⟨step_inFlight hflight hop hstep hsafe, ?_⟩
    rw [since_snoc, since_snoc]
    rcases step_streams hstep with ⟨hresetting, hstreams⟩ | hresets
    · -- the write that has succeeded is that of the front
      have hpopped : popped ⟨s, op, outs, s'⟩ = wrote ⟨s, op, outs, s'⟩ := by
        unfold popped wrote
        dsimp only
        split
        · rename_i epoch frame attempt
          have hfront := (InFlight.writeQueueMatches hflight).front epoch frame hop
          cases hqueue : s.transport.writeQueue with
          | nil =>
            rw [hqueue] at hfront
            cases hfront
          | cons front queue =>
            rw [hqueue] at hfront
            cases hfront
            rfl
        · rfl
      have hnow := hstreams.writes
      rw [hpopped] at hnow
      rw [hresetting]
      simp only [Bool.false_eq_true, if_false, List.map_append, ← hwrites, List.append_assoc]
      rw [hnow]
    · rw [hresets.resetting]
      exact hresets.queue

/-- An ASPAC or a BEAT ACK. -/
def isAnswer (msg : M3uaMessage) : Bool :=
  msg.msgClass = kClassAsptm ∧ msg.msgType = kTypeAspAc ∨
    msg.msgClass = kClassAspsm ∧ msg.msgType = kTypeHeartbeatAck

theorem isAnswer_of_answer {msg reply : M3uaMessage} (h : answer? cfg msg = some reply) :
    isAnswer reply = true := by
  unfold answer? at h
  split at h
  · cases h
    rfl
  · split at h
    · cases h
      rfl
    · cases h

/-- Beside the answers, a handler puts nothing into the queue that looks like one. -/
theorem queued_answers (e : LinkEvent) :
    (queued e).filter isAnswer = (messagesRead e).filterMap (answer? e.pre.transport.cfg) := by
  unfold queued
  split
  · rename_i hop
    rw [messagesRead, hop]
    rfl
  · rw [List.filter_eq_self]
    intro reply hreply
    obtain ⟨msg, -, hanswer⟩ := List.mem_filterMap.mp hreply
    exact isAnswer_of_answer hanswer
  · rename_i hop
    rw [messagesRead, hop]
    split <;> rfl
  · rename_i hop
    rw [messagesRead, hop]
    split <;> rfl
  · rename_i hconnected hread hbeat hsend
    have hnone : messagesRead e = [] := by
      unfold messagesRead
      split
      · rename_i epoch chunk attempt hop
        exact absurd hop (hread epoch chunk attempt)
      · rfl
    rw [hnone]
    rfl

theorem run_answers (hrun : LinkRun cfg events s) :
    (since queued events).filter isAnswer =
      (since messagesRead events).filterMap (answer? cfg) := by
  induction hrun with
  | nil => rfl
  | @snoc events s s' outs earlier op hop hstep ih =>
    have hown := queued_answers ⟨s, op, outs, s'⟩
    rw [run_cfg earlier] at hown
    rw [since_snoc, since_snoc]
    split
    · rfl
    · rw [List.filter_append, List.filterMap_append, ih, hown]

/-- A stream of messages that has been read since the last reset: its payloads have been handed
on, and its answers have been put into the queue and are written, each in order and once. -/
theorem stream_dispatched {msgs : List M3uaMessage} (hfits : ∀ msg ∈ msgs, msg.Fits)
    (hrun : LinkRun cfg events s) (hsafe : ∀ e ∈ events, ClearsSafely e.pre e.op)
    (hstream : since bytesRead events = msgs.flatMap M3ua.encode) :
    since handed events = msgs.filterMap handedOn? ∧ s.transport.decoder = [] ∧
      ∃ out : List M3uaMessage,
        since wrote events ++ s.transport.writeQueue = out.map M3ua.encode ∧
        out.filter isAnswer = msgs.filterMap (answer? cfg) := by
  obtain ⟨hmessages, hdecoder⟩ :=
    (run_readSoFar hfits hrun (by rw [hstream])).complete hfits hstream
  refine ⟨?_, hdecoder, _, run_writes hrun hsafe, ?_⟩
  · rw [run_handed hrun, hmessages]
  · rw [run_answers hrun, hmessages]

/-- An ASPUP ACK and a BEAT that come in two pieces. -/
theorem beat_in_pieces_answered :
    ∃ events s, LinkRun {} events s ∧ since handed events = [] ∧ s.transport.decoder = [] ∧
      ∃ out : List M3uaMessage,
        since wrote events ++ s.transport.writeQueue = out.map M3ua.encode ∧
        out.filter isAnswer = [makeAspAc none, makeHeartbeatAck [0xAA]] := by
  let msgs : List M3uaMessage := [{ msgClass := kClassAspsm, msgType := kTypeAspUpAck },
    { msgClass := kClassAspsm, msgType := kTypeHeartbeat, heartbeatData := [0xAA] }]
  obtain ⟨result, hplay, hsafe, hstream⟩ : ∃ result,
      played {} (connecting ++
        [.finish (.read 1) (.read 1 (some [0x01, 0x00, 0x03, 0x02, 0x00])),
          .run (.read 1 (some [0x01, 0x00, 0x03, 0x02, 0x00])) .started,
          .finish (.read 1) (.read 1 (some [0x00, 0x00, 0x08, 0x01, 0x00, 0x03, 0x05, 0x00, 0x00,
            0x00, 0x10, 0x00, 0x09, 0x00, 0x05, 0xAA, 0x00, 0x00, 0x00])),
          .run (.read 1 (some [0x00, 0x00, 0x08, 0x01, 0x00, 0x03, 0x05, 0x00, 0x00,
            0x00, 0x10, 0x00, 0x09, 0x00, 0x05, 0xAA, 0x00, 0x00, 0x00])) .started]) =
        some result ∧
      (∀ e ∈ result.1, ClearsSafely e.pre e.op) ∧
      since bytesRead result.1 = msgs.flatMap M3ua.encode :=
    ⟨_, rfl, by decide, by decide⟩
  have hfits : ∀ msg ∈ msgs, msg.Fits := by
    simp only [M3uaMessage.Fits]
    decide
  have hrun := run_of_played hplay
  obtain ⟨hhanded, hdecoder, hout⟩ := stream_dispatched hfits hrun hsafe hstream
  exact ⟨_, _, hrun, hhanded, hdecoder, hout⟩

end MapLink

end GsupMapProxy.Transport
