import GsupMapProxy.Misc.Chunks
import GsupMapProxy.Transport.Proofs.MapLink

/-!
# The state machine of MapTransport

The states are meant to follow each other as the comment in `MapTransport.hpp` draws them, but
`processMessage` does not look at the state when an ASPAC_ACK arrives, and `onConnect` does not
when `stop` has been called. So the machine follows its drawing only as far as the peer and the
order of the handlers do: the peer acknowledges things in order, no read of an earlier connection
is handled, and after `stop` nothing is handled that revives the transport.
-/

namespace GsupMapProxy.Transport

open Misc M3ua

open scoped List

/-! ## The messages of a read -/

/-- The messages, each with the transport it is handed to. -/
def dispatchPoints : MapTransport → List M3uaMessage → List (MapTransport × M3uaMessage)
  | _, [] => []
  | t, msg :: msgs =>
      (t, msg) :: dispatchPoints
        (match t.processMessage msg with
          | .ok (t', _) => t'
          | .error _ => t) msgs

/-- What `startRead` dispatches when it has read the chunk (`MapTransport.cpp:285-292`). -/
def dispatches (t : MapTransport) (chunk : Bytes) : List (MapTransport × M3uaMessage) :=
  dispatchPoints t (collect M3uaDecoder.next (M3uaDecoder.feed t.decoder chunk)).1

/-- The class and type of an encoded message (`M3uaCodec.cpp:62-64`) are those of DATA. -/
def IsDataFrame (frame : Bytes) : Prop :=
  frame[2]? = some kClassTransf ∧ frame[3]? = some kTypeData

instance (frame : Bytes) : Decidable (IsDataFrame frame) := inferInstanceAs (Decidable (_ ∧ _))

/-- The call starts no connect, read or DATA write. -/
structure MapCall.StartsNothing (call : MapCall) : Prop where
  connect : call ≠ .asyncConnect
  read : call ≠ .asyncRead
  write : ∀ frame, call = .asyncWrite frame → ¬ IsDataFrame frame

namespace MapTransport

variable {t t' : MapTransport} {calls : List MapCall}

/-- What is in the queue is being written. -/
def Busy (t : MapTransport) : Prop := t.writing = false → t.writeQueue = []

theorem busy_enqueue (t : MapTransport) (frame : Bytes) : (t.enqueue frame).1.Busy := by
  rw [enqueue_fst]
  intro h
  cases h

theorem busy_doWrite (t : MapTransport) : t.doWrite.1.Busy := by
  unfold doWrite
  split
  · rename_i hqueue
    exact fun _ => hqueue
  · intro h
    cases h

/-- A frame that is written at once is the only one. -/
theorem enqueue_calls (hbusy : t.Busy) (frame : Bytes) :
    ∀ c ∈ (t.enqueue frame).2, c = .asyncWrite frame := by
  unfold enqueue
  dsimp only
  split
  · simp
  · rename_i hwriting
    rw [hbusy (by simpa using hwriting)]
    simp [doWrite]

theorem encode_not_data {msg : M3uaMessage} (h : msg.msgClass ≠ kClassTransf) :
    ¬ IsDataFrame (M3ua.encode msg) := by
  rintro ⟨hclass, -⟩
  exact h (Option.some.inj hclass)

theorem enqueue_startsNothing (hbusy : t.Busy) {msg : M3uaMessage}
    (hmsg : msg.msgClass ≠ kClassTransf) :
    ∀ c ∈ (t.enqueue (M3ua.encode msg)).2, c.StartsNothing := by
  intro c hc
  rw [enqueue_calls hbusy _ c hc]
  refine ⟨by simp, by simp, ?_⟩
  intro frame hframe
  cases hframe
  exact encode_not_data hmsg

/-- What a message makes the transport write is not DATA. -/
theorem processMessage_startsNothing (hbusy : t.Busy) {msg : M3uaMessage}
    (h : t.processMessage msg = .ok (t', calls)) : t'.Busy ∧ ∀ c ∈ calls, c.StartsNothing := by
  have haspAc : (makeAspAc t.cfg.routingContext).msgClass ≠ kClassTransf := by
    show kClassAsptm ≠ kClassTransf
    decide
  have hack : (makeHeartbeatAck msg.heartbeatData).msgClass ≠ kClassTransf := by
    show kClassAspsm ≠ kClassTransf
    decide
  rcases processMessage_effect h with ⟨-, heq⟩ | ⟨-, rfl, rfl⟩ | ⟨-, -, heq⟩ |
    ⟨-, -, rfl, rfl | ⟨payload, rfl⟩⟩
  · rw [show t' = _ from congrArg Prod.fst heq, show calls = _ from congrArg Prod.snd heq]
    exact ⟨busy_enqueue _ _, enqueue_startsNothing hbusy haspAc⟩
  · refine ⟨hbusy, ?_⟩
    intro c hc
    obtain rfl := List.mem_singleton.mp hc
    exact ⟨by simp, by simp, by simp⟩
  · rw [show t' = _ from congrArg Prod.fst heq, show calls = _ from congrArg Prod.snd heq]
    exact ⟨busy_enqueue _ _, enqueue_startsNothing hbusy hack⟩
  · exact ⟨hbusy, by simp⟩
  · refine ⟨hbusy, ?_⟩
    intro c hc
    obtain rfl := List.mem_singleton.mp hc
    exact ⟨by simp, by simp, by simp⟩

/-- A read that leaves the transport stopped starts nothing. -/
theorem onRead_startsNothing (hbusy : t.Busy) {chunk : Bytes}
    (h : t.onRead (some chunk) = .ok (t', calls)) :
    t'.Busy ∧ (t'.state = .stopped → ∀ c ∈ calls, c.StartsNothing) := by
  obtain ⟨msgs, rest, t₁, calls₁, -, hfold, rfl, rfl⟩ := onRead_some_eq_ok.mp h
  obtain ⟨hbusy₁, hcalls⟩ : t₁.Busy ∧ ∀ c ∈ calls₁, c.StartsNothing := by
    refine foldlM_invariant (P := fun acc => acc.1.Busy ∧ ∀ c ∈ acc.2, c.StartsNothing) ?_
      ⟨hbusy, by simp⟩ hfold
    rintro acc msg acc' ⟨hacc, hearlier⟩ hturn
    obtain ⟨t₂, calls₂, hmsg, rfl⟩ := readTurn_eq_ok.mp hturn
    obtain ⟨hbusy₂, hlater⟩ := processMessage_startsNothing hacc hmsg
    refine ⟨hbusy₂, ?_⟩
    intro c hc
    rcases List.mem_append.mp hc with hc | hc
    · exact hearlier c hc
    · exact hlater c hc
  refine ⟨hbusy₁, ?_⟩
  intro hstopped
  rw [if_neg (fun hgoing => hgoing.1 hstopped)]
  exact hcalls

/-! ## Activation -/

/-- The messages of a read, one by one. -/
theorem readTurns_state {msgs : List M3uaMessage} {acc acc' : MapTransport × List MapCall}
    (h : msgs.foldlM readTurn acc = .ok acc') :
    acc'.1.state = acc.1.state ∨
      ∃ early t₁ msg late, dispatchPoints acc.1 msgs = early ++ (t₁, msg) :: late ∧
        t₁.state = acc.1.state ∧ IsAspAcAck msg ∧ acc'.1.state = .active := by
  induction msgs generalizing acc with
  | nil =>
    cases h
    exact .inl rfl
  | cons msg msgs ih =>
    rw [List.foldlM_cons] at h
    obtain ⟨acc₁, hturn, h⟩ := except_bind_eq_ok.mp h
    obtain ⟨t₁, calls₁, hmsg, rfl⟩ := readTurn_eq_ok.mp hturn
    have hstate := processMessage_state hmsg
    rw [dispatchPoints, hmsg]
    dsimp only
    by_cases hack : IsAspAcAck msg
    · right
      refine ⟨[], acc.1, msg, _, rfl, rfl, hack, ?_⟩
      rw [if_pos hack] at hstate
      rcases ih h with hsame | ⟨early, t₂, msg', late, -, -, -, hactive⟩
      · exact hsame.trans hstate
      · exact hactive
    · rw [if_neg hack] at hstate
      rcases ih h with hsame | ⟨early, t₂, msg', late, heq, hsame, hack', hactive⟩
      · exact .inl (hsame.trans hstate)
      · right
        dsimp only at heq hsame
        exact ⟨(acc.1, msg) :: early, t₂, msg', late, by rw [heq, List.cons_append],
          hsame.trans hstate, hack', hactive⟩

/-- A read changes the state only through an ASPAC_ACK among its messages. -/
theorem onRead_dispatches {chunk : Bytes} (h : t.onRead (some chunk) = .ok (t', calls)) :
    t'.state = t.state ∨
      ∃ early t₁ msg late, dispatches t chunk = early ++ (t₁, msg) :: late ∧
        t₁.state = t.state ∧ IsAspAcAck msg ∧ t'.state = .active := by
  obtain ⟨msgs, rest, t₁, calls₁, hyields, hfold, rfl, -⟩ := onRead_some_eq_ok.mp h
  rw [dispatches, M3uaDecoder.feed, collect_of_yields next_shrinking hyields]
  exact readTurns_state hfold

end MapTransport

namespace MapLink

variable {s s' : MapLink} {op : LinkInput} {outs : List MapCall} {events : List LinkEvent}

/-! ## The machine as it is drawn -/

/-- What the event dispatches, if it is a read of the epoch. -/
def dispatchedBy (e : LinkEvent) (epoch : Nat) : List (MapTransport × M3uaMessage) :=
  match e.op with
  | .run (.read k (some chunk)) _ => if k = epoch then dispatches e.pre.transport chunk else []
  | _ => []

/-- All messages received on a connection, each with the transport it was handed to. -/
def received (events : List LinkEvent) (epoch : Nat) : List (MapTransport × M3uaMessage) :=
  events.flatMap fun e => dispatchedBy e epoch

/-- An ASPUP_ACK, and its handling puts an ASPAC into the queue. -/
def EnqueuesAspAc (t : MapTransport) (msg : M3uaMessage) : Prop :=
  IsAspUpAck msg ∧ ∃ t' calls, t.processMessage msg = .ok (t', calls) ∧
    t'.writeQueue = t.writeQueue ++ [M3ua.encode (makeAspAc t.cfg.routingContext)]

/-- The transport becomes active only by an ASPAC_ACK that it reads on the current connection in
the state AspUp, after an ASPUP_ACK on that connection for which it enqueued an ASPAC. -/
def ActivatedInOrder (events : List LinkEvent) : Prop :=
  ∀ before e after, events = before ++ e :: after → e.pre.transport.state ≠ .active →
    e.post.transport.state = .active →
    ∃ chunk attempt early t msg late, e.op = .run (.read e.pre.epoch (some chunk)) attempt ∧
      dispatches e.pre.transport chunk = early ++ (t, msg) :: late ∧ t.state = .aspUp ∧
      IsAspAcAck msg ∧ ∃ p ∈ received before e.pre.epoch ++ early, EnqueuesAspAc p.1 p.2

/-- From `stop` on, the transport is stopped, and no connect, read or DATA write is started. -/
def StaysStopped (events : List LinkEvent) : Prop :=
  ∀ before e after, events = before ++ e :: after → (∃ e' ∈ before ++ [e], e'.op = .stop) →
    e.post.transport.state = .stopped ∧ ∀ c ∈ e.outs, c.StartsNothing

/-! ## What it takes -/

/-- On every connection, an ASPAC_ACK comes after an ASPUP_ACK. -/
def PeerInOrder (events : List LinkEvent) : Prop :=
  ∀ epoch early p late, received events epoch = early ++ p :: late → IsAspAcAck p.2 →
    ∃ q ∈ early, IsAspUpAck q.2

/-- Successful reads are handled for the connection there is, and without an ASPAC_ACK once the
transport is stopped. Then also no end of an attempt to connect is handled, and no success of a
write that has DATA behind it in the queue. -/
def Timely (s : MapLink) : LinkInput → Prop
  | .run (.read epoch (some chunk)) _ => epoch = s.epoch ∧ (s.transport.state = .stopped →
      ∀ p ∈ dispatches s.transport chunk, ¬ IsAspAcAck p.2)
  | .run (.connected _ _) _ => s.transport.state ≠ .stopped
  | .run (.connectFailed _) _ => s.transport.state ≠ .stopped
  | .run (.written _ _ true) _ => s.transport.state = .stopped →
      ∀ frame ∈ s.transport.writeQueue[1]?, ¬ IsDataFrame frame
  | _ => True

instance (s : MapLink) (op : LinkInput) : Decidable (s.Timely op) :=
  match op with
  | .run (.read epoch (some chunk)) _ => inferInstanceAs (Decidable (epoch = s.epoch ∧
      (s.transport.state = .stopped → ∀ p ∈ dispatches s.transport chunk, ¬ IsAspAcAck p.2)))
  | .run (.connected _ _) _ | .run (.connectFailed _) _ =>
      inferInstanceAs (Decidable (s.transport.state ≠ .stopped))
  | .run (.written _ _ true) _ => inferInstanceAs (Decidable (s.transport.state = .stopped →
      ∀ frame ∈ s.transport.writeQueue[1]?, ¬ IsDataFrame frame))
  | .start | .stop | .send _ | .finish _ _ | .run (.read _ none) _ | .run (.written _ _ false) _
  | .run (.reconnectTimer _) _ | .run (.beatTimer _ _) _ | .run (.send _) _ => .isTrue trivial

/-- What is true at every moment of such a run. -/
structure Orderly (events : List LinkEvent) (s : MapLink) : Prop where
  busy : s.transport.Busy
  bounded : ∀ epoch ∈ s.reads, epoch ≤ s.epoch
  reading : s.epoch ∈ s.reads → s.transport.state = .aspUp ∨ s.transport.state = .active ∨
    s.transport.state = .stopped
  stopped : (∃ e ∈ events, e.op = .stop) → s.transport.state = .stopped

theorem enqueuesAspAc (t : MapTransport) {msg : M3uaMessage} (h : IsAspUpAck msg) :
    EnqueuesAspAc t msg := by
  refine ⟨h, t.sendAspAc.1, t.sendAspAc.2, ?_, ?_⟩
  · rw [MapTransport.processMessage]
    exact if_pos h
  · rw [MapTransport.sendAspAc, MapTransport.sendRaw, MapTransport.enqueue_fst]

/-! ## One step -/

theorem Stays.busy {t t' : MapTransport} {handler : HlrHandler} (hbusy : t.Busy)
    (h : Stays t t' outs handler) : t'.Busy := by
  cases h with
  | idle hnot ht hcalls =>
    rw [ht]
    exact hbusy
  | connected epoch h =>
    cases h
    exact MapTransport.busy_enqueue _ _
  | read epoch chunk h => exact (MapTransport.onRead_startsNothing hbusy h).1
  | written epoch frame h =>
    rw [MapTransport.onWritten, if_pos rfl] at h
    split at h
    · cases h
    · rw [show t' = _ from (congrArg Prod.fst (Except.ok.inj h)).symm]
      exact MapTransport.busy_doWrite _
  | beat epoch ok hactive ht hcalls =>
    rw [ht]
    exact MapTransport.busy_enqueue _ _
  | send payload hactive ht hcalls =>
    rw [ht]
    exact MapTransport.busy_enqueue _ _

/-- What a success of a write makes of the transport: it is the next frame's turn. -/
theorem onWritten_calls {t t' : MapTransport} (h : t.onWritten true = .ok (t', outs)) :
    t'.state = t.state ∧ ∀ c ∈ outs, ∃ frame ∈ t.writeQueue[1]?, c = .asyncWrite frame := by
  rw [MapTransport.onWritten, if_pos rfl] at h
  split at h
  · cases h
  · rename_i front queue hqueue
    have heq := Except.ok.inj h
    rw [show t' = _ from (congrArg Prod.fst heq).symm,
      show outs = _ from (congrArg Prod.snd heq).symm, hqueue]
    refine ⟨MapTransport.doWrite_state _, ?_⟩
    cases queue with
    | nil => simp [MapTransport.doWrite]
    | cons next queue => simp [MapTransport.doWrite]

theorem Orderly.stays_state (h : Orderly events s) {handler : HlrHandler}
    {attempt : ConnectAttempt} {t' : MapTransport} (hready : .ready handler ∈ s.io)
    (htimely : Timely s (.run handler attempt)) (hstays : Stays s.transport t' outs handler)
    (hreads : s.epoch ∈ s.reads ∨ .asyncRead ∈ outs) :
    t'.state = .aspUp ∨ t'.state = .active ∨ t'.state = .stopped := by
  cases hstays with
  | idle hnot ht hcalls =>
    subst ht hcalls
    exact h.reading (hreads.resolve_right List.not_mem_nil)
  | connected epoch hconnect =>
    cases hconnect
    left
    show ((MapTransport.enqueue _ _).1).state = _
    rw [MapTransport.enqueue_fst]
  | read epoch chunk hread =>
    have hmem : epoch ∈ s.reads := mem_view_ready hready rfl
    rw [htimely.1] at hmem
    rcases MapTransport.onRead_state hread with hsame | hactive
    · rw [hsame]
      exact h.reading hmem
    · exact .inr (.inl hactive)
  | written epoch frame hwritten =>
    obtain ⟨hstate, hcalls⟩ := onWritten_calls hwritten
    rw [hstate]
    apply h.reading
    apply hreads.resolve_right
    intro hcall
    obtain ⟨next, -, heq⟩ := hcalls _ hcall
    cases heq
  | beat epoch ok hactive ht hcalls =>
    rw [ht, MapTransport.enqueue_fst]
    exact .inr (.inl hactive)
  | send payload hactive ht hcalls =>
    rw [ht, MapTransport.enqueue_fst]
    exact .inr (.inl hactive)

/-- A stopped transport stays so, and starts nothing. -/
theorem Stays.stopped {handler : HlrHandler} {attempt : ConnectAttempt} {t' : MapTransport}
    (hbusy : s.transport.Busy) (hstopped : s.transport.state = .stopped)
    (htimely : Timely s (.run handler attempt)) (h : Stays s.transport t' outs handler) :
    t'.state = .stopped ∧ ∀ c ∈ outs, c.StartsNothing := by
  cases h with
  | idle hnot ht hcalls =>
    subst ht hcalls
    exact ⟨hstopped, by simp⟩
  | connected epoch _ => exact absurd hstopped htimely
  | read epoch chunk hread =>
    have hstate : t'.state = .stopped := by
      rcases MapTransport.onRead_dispatches hread with
        hsame | ⟨early, t₁, msg, late, heq, -, hack, -⟩
      · exact hsame.trans hstopped
      · exact absurd hack (htimely.2 hstopped (t₁, msg) (by rw [heq]; simp))
    exact ⟨hstate, (MapTransport.onRead_startsNothing hbusy hread).2 hstate⟩
  | written epoch frame hwritten =>
    obtain ⟨hstate, hcalls⟩ := onWritten_calls hwritten
    refine ⟨hstate.trans hstopped, ?_⟩
    intro c hc
    obtain ⟨next, hnext, rfl⟩ := hcalls c hc
    refine ⟨by simp, by simp, ?_⟩
    intro frame' hframe
    cases hframe
    exact htimely hstopped next hnext
  | beat epoch ok hactive ht hcalls => cases hactive.symm.trans hstopped
  | send payload hactive ht hcalls => cases hactive.symm.trans hstopped

theorem Orderly.stopped_before (h : Orderly events s) {e : LinkEvent} (hnot : e.op ≠ .stop)
    (hstop : ∃ e' ∈ events ++ [e], e'.op = .stop) : s.transport.state = .stopped := by
  obtain ⟨e', he', hstop⟩ := hstop
  rcases List.mem_append.mp he' with he' | he'
  · exact h.stopped ⟨e', he', hstop⟩
  · obtain rfl := List.mem_singleton.mp he'
    exact absurd hstop hnot

/-- A handler that is timely begins no epoch once the transport is stopped. -/
theorem Timely.running {handler : HlrHandler} {attempt : ConnectAttempt}
    (h : Timely s (.run handler attempt)) (hbegins : beginsEpoch s.transport handler = true) :
    s.transport.state ≠ .stopped := by
  cases handler with
  | connected epoch ok => exact h
  | connectFailed epoch => exact h
  | read epoch result =>
    cases result with
    | none => exact of_decide_eq_true hbegins
    | some chunk => cases hbegins
  | written epoch frame ok =>
    cases ok with
    | false => exact of_decide_eq_true hbegins
    | true => cases hbegins
  | reconnectTimer ok => exact (of_decide_eq_true hbegins).2
  | beatTimer epoch ok => cases hbegins
  | send payload => cases hbegins

/-- At the beginning of an epoch nothing is read yet. -/
theorem Orderly.fresh (h : Orderly events s) (e : LinkEvent) (hepoch : s'.epoch = s.epoch + 1)
    (hreads : s'.reads ⊆ s.reads) (hbusy : s'.transport.Busy)
    (hrunning : ¬ ∃ e' ∈ events ++ [e], e'.op = .stop) : Orderly (events ++ [e]) s' := by
  refine ⟨hbusy, ?_, ?_, fun hstop => absurd hstop hrunning⟩
  · intro epoch hmem
    rw [hepoch]
    exact Nat.le_succ_of_le (h.bounded epoch (hreads hmem))
  · intro hmem
    have := h.bounded _ (hreads hmem)
    omega

/-- A handler that stays within its connection. -/
theorem Orderly.stays (h : Orderly events s) {handler : HlrHandler} {attempt : ConnectAttempt}
    {t' : MapTransport} (hready : .ready handler ∈ s.io)
    (htimely : Timely s (.run handler attempt))
    (hbegins : beginsEpoch s.transport handler = false)
    (hstays : Stays s.transport t' outs handler)
    (hextends : Extends { s.taking handler with transport := t' } s' outs) :
    Orderly (events ++ [⟨s, .run handler attempt, outs, s'⟩]) s' := by
  have hepoch : s'.epoch = s.epoch := hextends.epoch.trans (taking_epoch_of_not_begins hbegins)
  have hmem : ∀ epoch ∈ s'.reads, epoch ∈ s.reads ∨ epoch = s.epoch ∧ .asyncRead ∈ outs := by
    intro epoch hmem
    rcases hextends.mem_reads hmem with hmem | ⟨hmem, hcall⟩
    · exact .inl ((taking_view_subperm hready _).subset hmem)
    · exact .inr ⟨hmem.trans (taking_epoch_of_not_begins hbegins), hcall⟩
  refine ⟨?_, ?_, ?_, ?_⟩
  · rw [hextends.transport]
    exact hstays.busy h.busy
  · intro epoch hepoch'
    rw [hepoch]
    rcases hmem epoch hepoch' with hmem | ⟨hmem, -⟩
    · exact h.bounded epoch hmem
    · exact Nat.le_of_eq hmem
  · intro hepoch'
    rw [hepoch] at hepoch'
    rw [hextends.transport]
    exact h.stays_state hready htimely hstays ((hmem _ hepoch').imp_right And.right)
  · intro hstop
    rw [hextends.transport]
    exact (hstays.stopped h.busy (h.stopped_before (by simp) hstop) htimely).1

theorem step_orderly (h : Orderly events s) (hop : Possible s op)
    (hstep : step s op = .ok (s', outs)) (htimely : Timely s op) :
    Orderly (events ++ [⟨s, op, outs, s'⟩]) s' := by
  rcases step_cases hop hstep with ⟨hsame, -, hnot, -⟩ | ⟨rfl, rfl, hclosed⟩ |
    ⟨handler, attempt, t', rfl, hready, heffect⟩
  · refine ⟨?_, ?_, ?_, ?_⟩
    · rw [hsame.transport]
      exact h.busy
    · intro epoch hmem
      rw [hsame.epoch]
      exact h.bounded epoch (hsame.reads.subset hmem)
    · rw [hsame.epoch, hsame.transport]
      exact fun hmem => h.reading (hsame.reads.subset hmem)
    · rw [hsame.transport]
      exact h.stopped_before hnot
  · refine ⟨?_, ?_, ?_, ?_⟩
    · rw [hclosed.transport]
      exact h.busy
    · rw [hclosed.reads, hclosed.epoch]
      exact h.bounded
    · rw [hclosed.transport]
      exact fun _ => .inr (.inr rfl)
    · rw [hclosed.transport]
      exact fun _ => rfl
  · rcases heffect.stays_or_newEpoch hready with ⟨hbegins, hstays, hextends⟩ | hnew
    · exact h.stays hready htimely hbegins hstays hextends
    · refine h.fresh _ hnew.epoch hnew.reads ?_ ?_
      · rcases hnew.transport with heq | heq
        · rw [heq]
          exact h.busy
        · rw [heq]
          exact fun _ => rfl
      · intro hstop
        exact htimely.running hnew.begins (h.stopped_before (by simp) hstop)

/-- A step to the state Active is a read of an ASPAC_ACK in the state AspUp. -/
theorem step_activates (h : Orderly events s) (hop : Possible s op)
    (hstep : step s op = .ok (s', outs)) (htimely : Timely s op)
    (hbefore : s.transport.state ≠ .active) (hafter : s'.transport.state = .active) :
    ∃ chunk attempt early t msg late, op = .run (.read s.epoch (some chunk)) attempt ∧
      dispatches s.transport chunk = early ++ (t, msg) :: late ∧ t.state = .aspUp ∧
      IsAspAcAck msg := by
  rcases step_cases hop hstep with ⟨hsame, -⟩ | ⟨-, -, hclosed⟩ |
    ⟨handler, attempt, t', rfl, hready, heffect⟩
  · rw [hsame.transport] at hafter
    exact absurd hafter hbefore
  · rw [hclosed.transport] at hafter
    cases hafter
  · rcases heffect.stays_or_newEpoch hready with ⟨-, hstays, hextends⟩ | hnew
    · rw [hextends.transport] at hafter
      rcases hstays.state with hsame | ⟨-, hup⟩ | ⟨⟨epoch, chunk, rfl⟩, -⟩
      · exact absurd (hsame.symm.trans hafter) hbefore
      · cases hup.symm.trans hafter
      · cases hstays with
        | idle hnot ht hcalls =>
          rw [ht] at hafter
          exact absurd hafter hbefore
        | read _ _ hread =>
          obtain ⟨rfl, hnoack⟩ := htimely
          rcases MapTransport.onRead_dispatches hread with
            hsame | ⟨early, t₁, msg, late, heq, hstate, hack, -⟩
          · exact absurd (hsame.symm.trans hafter) hbefore
          · refine ⟨chunk, attempt, early, t₁, msg, late, rfl, heq, ?_, hack⟩
            rw [hstate]
            rcases h.reading (mem_view_ready hready rfl) with hup | hactive | hstopped
            · exact hup
            · exact absurd hactive hbefore
            · exact absurd hack (hnoack hstopped (t₁, msg) (by rw [heq]; simp))
    · rcases hnew.state with hstate | hstate
      · cases hafter.symm.trans hstate
      · cases hafter.symm.trans hstate

/-- `stop` stops, and a stopped transport stays so. -/
theorem step_stopped (h : Orderly events s) (hop : Possible s op)
    (hstep : step s op = .ok (s', outs)) (htimely : Timely s op)
    (hstop : op = .stop ∨ s.transport.state = .stopped) :
    s'.transport.state = .stopped ∧ ∀ c ∈ outs, c.StartsNothing := by
  rcases step_cases hop hstep with ⟨hsame, -, hnot, htimers⟩ | ⟨-, rfl, hclosed⟩ |
    ⟨handler, attempt, t', rfl, hready, heffect⟩
  · rw [hsame.transport]
    refine ⟨hstop.resolve_left hnot, ?_⟩
    intro c hc
    have htimer := htimers c hc
    refine ⟨?_, ?_, ?_⟩
    · rintro rfl
      cases htimer
    · rintro rfl
      cases htimer
    · rintro frame rfl
      cases htimer
  · rw [hclosed.transport]
    refine ⟨rfl, ?_⟩
    intro c hc
    simp only [List.mem_cons, List.not_mem_nil, or_false] at hc
    rcases hc with rfl | rfl | rfl <;> exact ⟨by simp, by simp, by simp⟩
  · have hstopped : s.transport.state = .stopped := hstop.resolve_left (by simp)
    rcases heffect.stays_or_newEpoch hready with ⟨-, hstays, hextends⟩ | hnew
    · rw [hextends.transport]
      exact hstays.stopped h.busy hstopped htimely
    · exact absurd hstopped (htimely.running hnew.begins)

/-! ## Along a run -/

/-- Every event of a run whose handlers are timely comes from an orderly state. -/
theorem orderly_before {cfg : MapTransportConfig} {before after : List LinkEvent} {e : LinkEvent}
    (hrun : LinkRun cfg events s) (htimely : ∀ e ∈ events, Timely e.pre e.op)
    (heq : events = before ++ e :: after) :
    Orderly before e.pre ∧ Possible e.pre e.op ∧ step e.pre e.op = .ok (e.post, e.outs) := by
  refine hrun.history_at htimely ?_ ?_ heq
  · refine ⟨fun _ => rfl, ?_, ?_, by simp⟩
    · simp [reads, Proactor.view]
    · simp [reads, Proactor.view]
  · intro events s op outs s' horderly hop hstep htimely
    exact step_orderly horderly hop hstep htimely

theorem received_append (before after : List LinkEvent) (e : LinkEvent) (epoch : Nat) :
    received (before ++ e :: after) epoch =
      received before epoch ++ (dispatchedBy e epoch ++ received after epoch) := by
  simp [received]

/-- In a run with a peer that keeps to the order and handlers that are timely, `MapTransport`
follows its state machine. -/
theorem follows_state_machine {cfg : MapTransportConfig} {events : List LinkEvent} {s : MapLink}
    (hrun : LinkRun cfg events s) (hpeer : PeerInOrder events)
    (htimely : ∀ e ∈ events, Timely e.pre e.op) :
    ActivatedInOrder events ∧ StaysStopped events := by
  constructor
  · intro before e after heq hbefore hafter
    obtain ⟨horderly, hop, hstep⟩ := orderly_before hrun htimely heq
    obtain ⟨chunk, attempt, early, t, msg, late, hread, hdispatch, hup, hack⟩ :=
      step_activates horderly hop hstep (htimely e (by rw [heq]; simp)) hbefore hafter
    have hreceived : received events e.pre.epoch = (received before e.pre.epoch ++ early) ++
        (t, msg) :: (late ++ received after e.pre.epoch) := by
      have hdispatched : dispatchedBy e e.pre.epoch = early ++ (t, msg) :: late := by
        rw [dispatchedBy, hread]
        dsimp only
        rw [if_pos rfl, hdispatch]
      rw [heq, received_append, hdispatched]
      simp
    obtain ⟨q, hq, haspUp⟩ := hpeer _ _ _ _ hreceived hack
    exact ⟨chunk, attempt, early, t, msg, late, hread, hdispatch, hup, hack, q, hq,
      enqueuesAspAc q.1 haspUp⟩
  · rintro before e after heq ⟨e', he', hstop⟩
    obtain ⟨horderly, hop, hstep⟩ := orderly_before hrun htimely heq
    refine step_stopped horderly hop hstep (htimely e (by rw [heq]; simp)) ?_
    rcases List.mem_append.mp he' with he' | he'
    · exact .inr (horderly.stopped ⟨e', he', hstop⟩)
    · obtain rfl := List.mem_singleton.mp he'
      exact .inl hstop

/-! ## Particular runs -/

def aspUpAck : M3uaMessage := { msgClass := kClassAspsm, msgType := kTypeAspUpAck }

def aspAcAck : M3uaMessage := { msgClass := kClassAsptm, msgType := kTypeAspAcAck }

/-- Successful reads are those of one epoch. -/
def readsOnly (epoch : Nat) : LinkInput → Bool
  | .run (.read k (some _)) _ => k = epoch
  | _ => true

theorem received_eq_nil {epoch other : Nat} (hreads : ∀ e ∈ events, readsOnly epoch e.op)
    (hne : other ≠ epoch) : received events other = [] := by
  rw [received, List.flatMap_eq_nil_iff]
  intro e he
  have honly := hreads e he
  unfold dispatchedBy
  split
  · rename_i k chunk attempt hop
    rw [hop] at honly
    obtain rfl : k = epoch := by simpa [readsOnly] using honly
    exact if_neg hne.symm
  · rfl

/-- Both acknowledgements arrive in one read, and `stop` is called then. -/
theorem activated_and_stopped :
    ∃ events s, LinkRun {} events s ∧ PeerInOrder events ∧ (∀ e ∈ events, Timely e.pre e.op) ∧
      (∃ e ∈ events, e.pre.transport.state = .aspUp ∧ e.post.transport.state = .active) ∧
      (∃ e ∈ events, e.op = .stop) ∧ ActivatedInOrder events ∧ StaysStopped events := by
  obtain ⟨result, hplay, hreads, ⟨a, b, hreceived, hup⟩, htimely, hactivated, hstop⟩ : ∃ result,
      played {} (connecting ++
        [.finish (.read 1) (.read 1 (some (M3ua.encode aspUpAck ++ M3ua.encode aspAcAck))),
          .run (.read 1 (some (M3ua.encode aspUpAck ++ M3ua.encode aspAcAck))) .started,
          .stop]) = some result ∧
      (∀ e ∈ result.1, readsOnly 1 e.op) ∧
      (∃ a b, received result.1 1 = [a, b] ∧ IsAspUpAck a.2) ∧
      (∀ e ∈ result.1, Timely e.pre e.op) ∧
      (∃ e ∈ result.1, e.pre.transport.state = .aspUp ∧ e.post.transport.state = .active) ∧
      ∃ e ∈ result.1, e.op = .stop := by
    refine ⟨_, rfl, by decide, ⟨_, _, rfl, by decide⟩, by decide, ?_, ?_⟩
    · exact ⟨_, List.mem_of_getElem? (i := 6) rfl, rfl, rfl⟩
    · exact ⟨_, List.mem_of_getElem? (i := 7) rfl, rfl⟩
  have hrun := run_of_played hplay
  have hpeer : PeerInOrder result.1 := by
    intro epoch early p late heq hack
    by_cases hepoch : epoch = 1
    · subst hepoch
      rw [hreceived] at heq
      cases early with
      | nil =>
        obtain ⟨rfl, -⟩ := List.cons.inj heq
        exact absurd hack hup.not_aspAcAck
      | cons first early =>
        obtain ⟨rfl, -⟩ := List.cons.inj heq
        exact ⟨a, List.mem_cons_self, hup⟩
    · rw [received_eq_nil hreads hepoch] at heq
      simp at heq
  exact ⟨_, _, hrun, hpeer, htimely, hactivated, hstop, follows_state_machine hrun hpeer htimely⟩

/-- An ASPAC_ACK that nobody asked for makes the transport active, and an attempt to connect that
ends after `stop` makes it go on. -/
theorem revived_by_late_handlers :
    (¬ ∀ cfg events s, LinkRun cfg events s → ActivatedInOrder events) ∧
      ¬ ∀ cfg events s, LinkRun cfg events s → StaysStopped events := by
  constructor
  · intro h
    obtain ⟨result, hplay, before, e, heq, hop, hepoch, hpre, hpost, hreceived, x, hdispatch⟩ :
        ∃ result, played {} (connecting ++
            [.finish (.read 1) (.read 1 (some (M3ua.encode aspAcAck))),
              .run (.read 1 (some (M3ua.encode aspAcAck))) .started]) = some result ∧
          ∃ before e, result.1 = before ++ [e] ∧
            e.op = .run (.read 1 (some (M3ua.encode aspAcAck))) .started ∧ e.pre.epoch = 1 ∧
            e.pre.transport.state = .aspUp ∧ e.post.transport.state = .active ∧
            received before 1 = [] ∧
            ∃ x, dispatches e.pre.transport (M3ua.encode aspAcAck) = [x] :=
      ⟨_, rfl, _, _, rfl, rfl, rfl, rfl, rfl, rfl, _, rfl⟩
    obtain ⟨chunk, attempt, early, t, msg, late, hread, hsplit, -, -, p, hp, -⟩ :=
      h _ _ _ (run_of_played hplay) before e [] heq (by rw [hpre]; decide) hpost
    rw [hop, hepoch] at hread
    cases hread
    rw [hdispatch] at hsplit
    obtain rfl : early = [] := by
      cases early with
      | nil => rfl
      | cons first early => simp at hsplit
    rw [hepoch, hreceived] at hp
    cases hp
  · intro h
    obtain ⟨result, hplay, before, e, heq, hstop, hpost⟩ :
        ∃ result, played {}
            [.start, .finish .reconnectWait (.reconnectTimer true),
              .run (.reconnectTimer true) .started, .stop,
              .run (.connected 1 false) .started] = some result ∧
          ∃ before e, result.1 = before ++ [e] ∧ (∃ e' ∈ before, e'.op = .stop) ∧
            e.post.transport.state = .disconnected := by
      refine ⟨_, rfl, _, _, rfl, ?_, rfl⟩
      exact ⟨_, List.mem_of_getElem? (i := 3) rfl, rfl⟩
    obtain ⟨e', he', hstop⟩ := hstop
    have hstopped := (h _ _ _ (run_of_played hplay) before e [] heq
      ⟨e', List.mem_append_left _ he', hstop⟩).1
    rw [hpost] at hstopped
    cases hstopped

end MapLink

end GsupMapProxy.Transport
