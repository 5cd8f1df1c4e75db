import GsupMapProxy.Transport.MapLink
import GsupMapProxy.Transport.Proofs.Reads

/-!
# What the methods of MapTransport do

A handler that calls neither `connect` nor `resetConnection` only reads, writes, arms the beat
timer and delivers messages, all for the connection there is. The others are few, and each makes
the same calls every time.
-/

namespace GsupMapProxy.Transport

open Misc M3ua Sccp

/-- The calls that concern the connection there is. -/
def MapCall.IsLocal : MapCall → Prop
  | .asyncRead => True
  | .asyncWrite _ => True
  | .armBeat _ => True
  | .messageCb _ => True
  | _ => False

def MapCall.write? : MapCall → Option Bytes
  | .asyncWrite frame => some frame
  | _ => none

/-- The frames of the writes that were started. -/
def writesOf (calls : List MapCall) : List Bytes := calls.filterMap MapCall.write?

/-- ASPUP_ACK, as `processMessage` recognises it. -/
def IsAspUpAck (msg : M3uaMessage) : Prop :=
  msg.msgClass = kClassAspsm ∧ msg.msgType = kTypeAspUpAck

/-- ASPAC_ACK, as `processMessage` recognises it. -/
def IsAspAcAck (msg : M3uaMessage) : Prop :=
  msg.msgClass = kClassAsptm ∧ msg.msgType = kTypeAspAcAck

instance (msg : M3uaMessage) : Decidable (IsAspUpAck msg) := inferInstanceAs (Decidable (_ ∧ _))

instance (msg : M3uaMessage) : Decidable (IsAspAcAck msg) := inferInstanceAs (Decidable (_ ∧ _))

theorem IsAspUpAck.not_aspAcAck {msg : M3uaMessage} (h : IsAspUpAck msg) : ¬ IsAspAcAck msg := by
  rintro ⟨hclass, -⟩
  rw [h.1] at hclass
  exact absurd hclass (by decide)

namespace MapTransport

variable {t t' : MapTransport} {calls : List MapCall}

/-! ## Sending -/

theorem enqueue_fst (t : MapTransport) (frame : Bytes) :
    (t.enqueue frame).1 =
      { t with writeQueue := t.writeQueue ++ [frame], writing := true } := by
  unfold enqueue doWrite
  dsimp only
  split
  · rename_i hwriting
    rw [hwriting]
  · split
    · rename_i hnil
      simp at hnil
    · rfl

theorem doWrite_isLocal (t : MapTransport) : ∀ c ∈ t.doWrite.2, c.IsLocal := by
  unfold doWrite
  split
  · simp
  · simp [MapCall.IsLocal]

theorem enqueue_isLocal (t : MapTransport) (frame : Bytes) :
    ∀ c ∈ (t.enqueue frame).2, c.IsLocal := by
  unfold enqueue
  dsimp only
  split
  · simp
  · exact doWrite_isLocal _

theorem doWrite_state (t : MapTransport) : t.doWrite.1.state = t.state := by
  unfold doWrite
  split <;> rfl

/-- Only an active transport sends. -/
theorem sendPosted_effect (t : MapTransport) (payload : Bytes) :
    t.sendPosted payload = (t, []) ∨
      t.state = .active ∧ t.sendPosted payload = t.enqueue (M3ua.encode (wrap t.cfg payload)) := by
  unfold sendPosted
  split
  · exact .inl rfl
  · rename_i hactive
    exact .inr ⟨not_not.mp hactive, rfl⟩

/-- Only an active transport has a heartbeat. -/
theorem onBeatTimer_effect (t : MapTransport) (ok : Bool) :
    t.onBeatTimer ok = (t, []) ∨
      t.state = .active ∧ t.onBeatTimer ok = ((t.enqueue (M3ua.encode makeHeartbeat)).1,
        (t.enqueue (M3ua.encode makeHeartbeat)).2 ++ [.armBeat t.cfg.beatInterval]) := by
  unfold onBeatTimer
  split
  · unfold onBeat
    split
    · exact .inl rfl
    · rename_i hactive
      refine .inr ⟨not_not.mp hactive, ?_⟩
      show ((t.enqueue _).1, (t.enqueue _).2 ++ (t.enqueue _).1.startBeat) = _
      rw [startBeat, enqueue_fst]
  · exact .inl rfl

/-! ## Receiving -/

/-- What a message can make the transport do. -/
theorem processMessage_effect {msg : M3uaMessage}
    (h : t.processMessage msg = .ok (t', calls)) :
    IsAspUpAck msg ∧ (t', calls) = t.enqueue (M3ua.encode (makeAspAc t.cfg.routingContext)) ∨
    IsAspAcAck msg ∧ t' = { t with state := .active } ∧ calls = [.armBeat t.cfg.beatInterval] ∨
    ¬ IsAspUpAck msg ∧ ¬ IsAspAcAck msg ∧
      (t', calls) = t.enqueue (M3ua.encode (makeHeartbeatAck msg.heartbeatData)) ∨
    ¬ IsAspUpAck msg ∧ ¬ IsAspAcAck msg ∧ t' = t ∧
      (calls = [] ∨ ∃ payload, calls = [.messageCb payload]) := by
  unfold processMessage at h
  split at h
  · rename_i hup
    exact .inl ⟨hup, (Except.ok.inj h).symm⟩
  · rename_i hup
    split at h
    · rename_i hac
      cases h
      exact .inr (.inl ⟨hac, rfl, rfl⟩)
    · rename_i hac
      refine .inr (.inr ?_)
      split at h
      · exact .inl ⟨hup, hac, (Except.ok.inj h).symm⟩
      · refine .inr ⟨hup, hac, ?_⟩
        split at h
        · cases h
          exact ⟨rfl, .inl rfl⟩
        split at h
        · split at h
          · cases h
            exact ⟨rfl, .inl rfl⟩
          split at h
          · cases h
            exact ⟨rfl, .inl rfl⟩
          split at h
          · cases h
            exact ⟨rfl, .inr ⟨_, rfl⟩⟩
          · cases h
            exact ⟨rfl, .inl rfl⟩
          · cases h
        · cases h
          exact ⟨rfl, .inl rfl⟩

/-- A turn of the read loop is `processMessage`, which never throws. -/
theorem readTurn_eq_ok {acc acc' : MapTransport × List MapCall} {msg : M3uaMessage} :
    readTurn acc msg = .ok acc' ↔
      ∃ t' calls, acc.1.processMessage msg = .ok (t', calls) ∧ acc' = (t', acc.2 ++ calls) := by
  unfold readTurn
  rcases acc.1.processMessage_cases msg with ⟨⟨⟨t', calls⟩, hok⟩, -⟩ | ⟨⟨what, herr⟩, -⟩
  · rw [hok]
    constructor
    · intro h
      cases h
      exact ⟨t', calls, rfl, rfl⟩
    · rintro ⟨t₁, calls₁, h, rfl⟩
      cases h
      rfl
  · rw [herr]
    constructor
    · intro h
      cases h
    · rintro ⟨t₁, calls₁, h, -⟩
      cases h

/-- A successful read: the messages in the buffer, dispatched one by one. -/
theorem onRead_some_eq_ok {chunk : Bytes} :
    t.onRead (some chunk) = .ok (t', calls) ↔
      ∃ msgs rest t₁ calls₁, Yields M3uaDecoder.next (t.decoder ++ chunk) msgs rest ∧
        msgs.foldlM readTurn (t, []) = .ok (t₁, calls₁) ∧ t' = { t₁ with decoder := rest } ∧
        calls = if t₁.state ≠ .stopped ∧ t₁.state ≠ .disconnected then calls₁ ++ [.asyncRead]
          else calls₁ := by
  rw [onRead]
  constructor
  · intro h
    obtain ⟨⟨⟨t₁, calls₁⟩, rest⟩, hpump, h⟩ := except_bind_eq_ok.mp h
    obtain ⟨msgs, hyields, hfold⟩ := (pump_eq_ok_iff next_shrinking).mp hpump
    cases h
    exact ⟨msgs, rest, t₁, calls₁, hyields, hfold, rfl, rfl⟩
  · rintro ⟨msgs, rest, t₁, calls₁, hyields, hfold, rfl, rfl⟩
    refine except_bind_eq_ok.mpr ⟨((t₁, calls₁), rest), ?_, rfl⟩
    exact (pump_eq_ok_iff next_shrinking).mpr ⟨msgs, hyields, hfold⟩

theorem processMessage_isLocal {msg : M3uaMessage} (h : t.processMessage msg = .ok (t', calls)) :
    ∀ c ∈ calls, c.IsLocal := by
  rcases processMessage_effect h with ⟨-, h⟩ | ⟨-, -, rfl⟩ | ⟨-, -, h⟩ | ⟨-, -, -, rfl | ⟨p, rfl⟩⟩
  · rw [show calls = _ from congrArg Prod.snd h]
    exact enqueue_isLocal _ _
  · simp [MapCall.IsLocal]
  · rw [show calls = _ from congrArg Prod.snd h]
    exact enqueue_isLocal _ _
  · simp
  · simp [MapCall.IsLocal]

theorem processMessage_state {msg : M3uaMessage} (h : t.processMessage msg = .ok (t', calls)) :
    t'.state = if IsAspAcAck msg then .active else t.state := by
  rcases processMessage_effect h with ⟨hup, h⟩ | ⟨hac, rfl, -⟩ | ⟨-, hac, h⟩ | ⟨-, hac, rfl, -⟩
  · rw [if_neg hup.not_aspAcAck, show t' = _ from congrArg Prod.fst h, enqueue_fst]
  · rw [if_pos hac]
  · rw [if_neg hac, show t' = _ from congrArg Prod.fst h, enqueue_fst]
  · rw [if_neg hac]

theorem onRead_isLocal {chunk : Bytes} (h : t.onRead (some chunk) = .ok (t', calls)) :
    ∀ c ∈ calls, c.IsLocal := by
  obtain ⟨msgs, rest, t₁, calls₁, -, hfold, -, rfl⟩ := onRead_some_eq_ok.mp h
  have hlocal : ∀ c ∈ (t₁, calls₁).2, c.IsLocal := by
    refine foldlM_invariant (P := fun acc => ∀ c ∈ acc.2, c.IsLocal) ?_ (by simp) hfold
    intro acc msg acc' hacc hturn
    obtain ⟨t₂, calls₂, hmsg, rfl⟩ := readTurn_eq_ok.mp hturn
    intro c hc
    rcases List.mem_append.mp hc with hc | hc
    · exact hacc c hc
    · exact processMessage_isLocal hmsg c hc
  intro c hc
  split at hc
  · rcases List.mem_append.mp hc with hc | hc
    · exact hlocal c hc
    · obtain rfl := List.mem_singleton.mp hc
      trivial
  · exact hlocal c hc

theorem onRead_state {chunk : Bytes} (h : t.onRead (some chunk) = .ok (t', calls)) :
    t'.state = t.state ∨ t'.state = .active := by
  obtain ⟨msgs, rest, t₁, calls₁, -, hfold, rfl, -⟩ := onRead_some_eq_ok.mp h
  refine foldlM_invariant (P := fun acc => acc.1.state = t.state ∨ acc.1.state = .active) ?_
    (.inl rfl) hfold
  intro acc msg acc' hacc hturn
  obtain ⟨t₂, calls₂, hmsg, rfl⟩ := readTurn_eq_ok.mp hturn
  rw [processMessage_state hmsg]
  split
  · exact .inr rfl
  · exact hacc

end MapTransport

/-! ## Handlers -/

namespace MapLink

variable {t t' : MapTransport} {calls : List MapCall} {attempt : ConnectAttempt}
  {handler : HlrHandler}

/-- What a handler can do that calls neither `connect` nor `resetConnection`. -/
inductive Stays (t t' : MapTransport) (calls : List MapCall) : HlrHandler → Prop
  | idle {handler : HlrHandler} (hnot : ∀ epoch ok, handler ≠ .connected epoch ok) (ht : t' = t)
      (hcalls : calls = []) : Stays t t' calls handler
  | connected (epoch : Nat) (h : t.onConnect true = (t', calls)) :
      Stays t t' calls (.connected epoch true)
  | read (epoch : Nat) (chunk : Bytes) (h : t.onRead (some chunk) = .ok (t', calls)) :
      Stays t t' calls (.read epoch (some chunk))
  | written (epoch : Nat) (frame : Bytes) (h : t.onWritten true = .ok (t', calls)) :
      Stays t t' calls (.written epoch frame true)
  | beat (epoch : Nat) (ok : Bool) (hactive : t.state = .active)
      (ht : t' = (t.enqueue (M3ua.encode makeHeartbeat)).1)
      (hcalls : calls = (t.enqueue (M3ua.encode makeHeartbeat)).2 ++
        [.armBeat t.cfg.beatInterval]) : Stays t t' calls (.beatTimer epoch ok)
  | send (payload : Bytes) (hactive : t.state = .active)
      (ht : t' = (t.enqueue (M3ua.encode (MapTransport.wrap t.cfg payload))).1)
      (hcalls : calls = (t.enqueue (M3ua.encode (MapTransport.wrap t.cfg payload))).2) :
      Stays t t' calls (.send payload)

theorem method_stays (hbegins : beginsEpoch t handler = false)
    (h : method t attempt handler = .ok (t', calls)) : Stays t t' calls handler := by
  cases handler with
  | connected epoch ok =>
    cases ok with
    | false => cases hbegins
    | true => exact .connected epoch (Except.ok.inj h)
  | read epoch result =>
    cases result with
    | none =>
      have hstopped : t.state = .stopped := by simpa [beginsEpoch] using hbegins
      rw [method, MapTransport.onRead, if_neg (not_not.mpr hstopped)] at h
      cases h
      exact .idle (by simp) rfl rfl
    | some chunk => exact .read epoch chunk h
  | written epoch frame ok =>
    cases ok with
    | false =>
      have hstopped : t.state = .stopped := by simpa [beginsEpoch] using hbegins
      rw [method, MapTransport.onWritten, if_neg (by decide), if_neg (not_not.mpr hstopped)] at h
      cases h
      exact .idle (by simp) rfl rfl
    | true => exact .written epoch frame h
  | reconnectTimer ok =>
    rw [method, MapTransport.onReconnectTimer, if_neg (by simpa [beginsEpoch] using hbegins)] at h
    cases h
    exact .idle (by simp) rfl rfl
  | beatTimer epoch ok =>
    have h : t.onBeatTimer ok = (t', calls) := Except.ok.inj h
    rcases t.onBeatTimer_effect ok with hidle | ⟨hactive, hbeat⟩
    · cases hidle.symm.trans h
      exact .idle (by simp) rfl rfl
    · cases hbeat.symm.trans h
      exact .beat epoch ok hactive rfl rfl
  | connectFailed epoch => cases hbegins
  | send payload =>
    have h : t.sendPosted payload = (t', calls) := Except.ok.inj h
    rcases t.sendPosted_effect payload with hidle | ⟨hactive, hsend⟩
    · cases hidle.symm.trans h
      exact .idle (by simp) rfl rfl
    · have heq := hsend.symm.trans h
      exact .send payload hactive (congrArg Prod.fst heq).symm (congrArg Prod.snd heq).symm

/-- Such a handler stays within the connection. -/
theorem Stays.isLocal (h : Stays t t' calls handler) : ∀ c ∈ calls, c.IsLocal := by
  cases h with
  | idle hnot ht hcalls => simp [hcalls]
  | connected epoch h =>
    cases h
    intro c hc
    rcases List.mem_cons.mp hc with rfl | hc
    · trivial
    · exact MapTransport.enqueue_isLocal _ _ c hc
  | read epoch chunk h => exact MapTransport.onRead_isLocal h
  | written epoch frame h =>
    rw [MapTransport.onWritten, if_pos rfl] at h
    split at h
    · cases h
    · rw [show calls = _ from (congrArg Prod.snd (Except.ok.inj h)).symm]
      exact MapTransport.doWrite_isLocal _
  | beat epoch ok hactive ht hcalls =>
    intro c hc
    rw [hcalls] at hc
    rcases List.mem_append.mp hc with hc | hc
    · exact MapTransport.enqueue_isLocal _ _ c hc
    · obtain rfl := List.mem_singleton.mp hc
      trivial
  | send payload hactive ht hcalls =>
    rw [hcalls]
    exact MapTransport.enqueue_isLocal _ _

/-- Such a handler leaves the state alone, but for the two steps of the handshake. -/
theorem Stays.state (h : Stays t t' calls handler) :
    t'.state = t.state ∨ (∃ epoch, handler = .connected epoch true) ∧ t'.state = .aspUp ∨
      (∃ epoch chunk, handler = .read epoch (some chunk)) ∧ t'.state = .active := by
  cases h with
  | idle hnot ht hcalls => exact .inl (by rw [ht])
  | connected epoch h =>
    cases h
    refine .inr (.inl ⟨⟨epoch, rfl⟩, ?_⟩)
    show ((MapTransport.enqueue _ _).1).state = _
    rw [MapTransport.enqueue_fst]
  | read epoch chunk h =>
    rcases MapTransport.onRead_state h with h | h
    · exact .inl h
    · exact .inr (.inr ⟨⟨epoch, chunk, rfl⟩, h⟩)
  | written epoch frame h =>
    rw [MapTransport.onWritten, if_pos rfl] at h
    split at h
    · cases h
    · rw [show t' = _ from (congrArg Prod.fst (Except.ok.inj h)).symm]
      exact .inl (MapTransport.doWrite_state _)
  | beat epoch ok hactive ht hcalls =>
    rw [ht, MapTransport.enqueue_fst]
    exact .inl rfl
  | send payload hactive ht hcalls =>
    rw [ht, MapTransport.enqueue_fst]
    exact .inl rfl

/-- The transport after `resetConnection` in a handler that has failed. -/
def reset (t : MapTransport) : MapTransport := { t.resetConnection with state := .disconnected }

/-- The calls after a failed read or write. -/
def teardown : List MapCall := [.closeSocket, .disconnectCb, .armReconnect 0]

/-- What the handlers do that begin an epoch. -/
theorem method_begins (hbegins : beginsEpoch t handler = true)
    (h : method t attempt handler = .ok (t', calls)) :
    handler = .reconnectTimer true ∧ t.state ≠ .stopped ∧ (t', calls) = t.connect attempt ∨
    t' = reset t ∧
      ((∃ epoch, handler = .connected epoch false ∨ handler = .connectFailed epoch) ∧
          calls = [.armReconnect 0] ∨
        t.state ≠ .stopped ∧ (∃ epoch, handler = .read epoch none) ∧
          calls = .cancelBeat :: teardown ∨
        t.state ≠ .stopped ∧ (∃ epoch frame, handler = .written epoch frame false) ∧
          calls = teardown) := by
  cases handler with
  | connected epoch ok =>
    cases ok with
    | true => cases hbegins
    | false =>
      cases h
      exact .inr ⟨rfl, .inl ⟨⟨epoch, .inl rfl⟩, rfl⟩⟩
  | connectFailed epoch =>
    cases h
    exact .inr ⟨rfl, .inl ⟨⟨epoch, .inr rfl⟩, rfl⟩⟩
  | read epoch result =>
    cases result with
    | some chunk => cases hbegins
    | none =>
      have hrunning : t.state ≠ .stopped := by simpa [beginsEpoch] using hbegins
      have h : t.onRead none = .ok (t', calls) := h
      rw [MapTransport.onRead, if_pos hrunning] at h
      cases h
      exact .inr ⟨rfl, .inr (.inl ⟨hrunning, ⟨epoch, rfl⟩, rfl⟩)⟩
  | written epoch frame ok =>
    cases ok with
    | true => cases hbegins
    | false =>
      have hrunning : t.state ≠ .stopped := by simpa [beginsEpoch] using hbegins
      have h : t.onWritten false = .ok (t', calls) := h
      rw [MapTransport.onWritten, if_neg (by decide), if_pos hrunning] at h
      cases h
      exact .inr ⟨rfl, .inr (.inr ⟨hrunning, ⟨epoch, frame, rfl⟩, rfl⟩)⟩
  | reconnectTimer ok =>
    have hrunning : ok = true ∧ t.state ≠ .stopped := by simpa [beginsEpoch] using hbegins
    have hconnect : t.onReconnectTimer ok attempt = (t', calls) := Except.ok.inj h
    rw [MapTransport.onReconnectTimer, if_pos hrunning] at hconnect
    exact .inl ⟨by rw [hrunning.1], hrunning.2, hconnect.symm⟩
  | beatTimer epoch ok => cases hbegins
  | send payload => cases hbegins

end MapLink

end GsupMapProxy.Transport
