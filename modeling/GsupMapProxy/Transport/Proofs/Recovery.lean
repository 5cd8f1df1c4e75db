import GsupMapProxy.Transport.Proofs.M3uaRoundTrip
import GsupMapProxy.Transport.Proofs.Progress

/-!
# Getting back to Active

From wherever late completions have taken a transport that is not stopped, completions alone can
take it to `Active` again: what it waits for fails, the reconnect timer expires, and the peer
answers the handshake. Nobody has to call the transport for that.
-/

namespace GsupMapProxy.Transport

open Misc M3ua

namespace MapLink

/-- Completions and their handlers, as opposed to calls. -/
def IsCompletion : LinkInput → Prop
  | .finish _ _ => True
  | .run _ _ => True
  | _ => False

/-- Completions take a link from one state to another. -/
abbrev LeadsTo := Leads step Possible IsCompletion

variable {s s' : MapLink}

theorem leadsTo_run {handler : HlrHandler} (hready : .ready handler ∈ s.io)
    (attempt : ConnectAttempt) {result : MapTransport × List MapCall}
    (h : method s.transport attempt handler = .ok result) :
    LeadsTo s ((s.taking handler).after result) := by
  have hstep : step s (.run handler attempt) =
      .ok ((s.taking handler).after result, result.2) := by
    rw [step, h]
    rfl
  exact .step .refl (.run handler attempt) trivial hready hstep

theorem leadsTo_finish {op : HlrOp} {handler : HlrHandler} (hop : .running op ∈ s.io)
    (h : op.completesAs handler) : LeadsTo s { s with io := s.io.finish op handler } :=
  .step .refl (.finish op handler) trivial ⟨hop, h⟩ rfl

theorem mem_finish (io : Proactor HlrOp HlrHandler) (op : HlrOp) (handler : HlrHandler) :
    .ready handler ∈ io.finish op handler :=
  List.mem_append_right _ (List.mem_singleton_self _)

/-! ## Back to the start -/

/-- The transport has been reset and waits for the reconnect timer. -/
structure Down (s : MapLink) : Prop where
  state : s.transport.state = .disconnected
  decoder : s.transport.decoder = []
  wait : .running .reconnectWait ∈ s.io

theorem mem_armReconnect (s : MapLink) (delay : Int) :
    .running .reconnectWait ∈ (s.perform (.armReconnect delay)).io :=
  List.mem_append_right _ (List.mem_singleton_self _)

/-- The handler of a failure resets the transport. -/
theorem down_of_failure {handler : HlrHandler}
    (hhandler : (∃ epoch, handler = .connected epoch false ∨ handler = .connectFailed epoch) ∨
      s.transport.state ≠ .stopped ∧ ∃ epoch, handler = .read epoch none)
    (hready : .ready handler ∈ s.io) : ∃ s', LeadsTo s s' ∧ Down s' := by
  rcases hhandler with ⟨epoch, rfl | rfl⟩ | ⟨hrunning, epoch, rfl⟩
  · exact ⟨_, leadsTo_run hready .started rfl, rfl, rfl, mem_armReconnect _ 0⟩
  · exact ⟨_, leadsTo_run hready .started rfl, rfl, rfl, mem_armReconnect _ 0⟩
  · have hmethod : method s.transport .started (.read epoch none) =
        .ok (reset s.transport, .cancelBeat :: teardown) := by
      rw [method, MapTransport.onRead, if_pos hrunning]
      rfl
    exact ⟨_, leadsTo_run hready .started hmethod, rfl, rfl, mem_armReconnect _ 0⟩

/-- A read that has not succeeded can fail. -/
theorem down_of_read {epoch : Nat} (hrunning : s.transport.state ≠ .stopped)
    (h : .running (.read epoch) ∈ s.io ∨ .ready (.read epoch none) ∈ s.io) :
    ∃ s', LeadsTo s s' ∧ Down s' := by
  rcases h with hop | hready
  · have hfail : LeadsTo s { s with io := s.io.finish (.read epoch) (.read epoch none) } :=
      leadsTo_finish hop (by simp [HlrOp.completesAs])
    obtain ⟨s', hleads, hdown⟩ := down_of_failure
      (s := { s with io := s.io.finish (.read epoch) (.read epoch none) })
      (.inr ⟨hrunning, epoch, rfl⟩) (mem_finish _ _ _)
    exact ⟨s', hfail.trans hleads, hdown⟩
  · exact down_of_failure (.inr ⟨hrunning, epoch, rfl⟩) hready

theorem mem_beginOnSocket {item : Pending HlrOp HlrHandler} (h : item ∈ s.io) (op : HlrOp)
    (failed : HlrHandler) : item ∈ (s.beginOnSocket op failed).io := by
  unfold beginOnSocket
  split
  · exact List.mem_append_left _ h
  · exact List.mem_append_left _ h

/-- The calls for the connection there is leave a read as it is. -/
theorem mem_foldl_local {calls : List MapCall} (hcalls : ∀ c ∈ calls, c.IsLocal)
    {item : Pending HlrOp HlrHandler} (hread : (HlrOp.read? item).isSome) (h : item ∈ s.io) :
    item ∈ (calls.foldl perform s).io := by
  induction calls generalizing s with
  | nil => exact h
  | cons call calls ih =>
    refine ih (fun c hc => hcalls c (List.mem_cons_of_mem _ hc)) ?_
    have hlocal := hcalls call List.mem_cons_self
    cases call with
    | asyncRead => exact mem_beginOnSocket h _ _
    | asyncWrite frame => exact mem_beginOnSocket h _ _
    | messageCb payload => exact h
    | armBeat after =>
      refine List.mem_append_left _ (List.mem_map.mpr ⟨item, h, ?_⟩)
      rcases item with op | handler
      · cases op <;> first | rfl | cases hread
      · rfl
    | asyncConnect => cases hlocal
    | openSocket => cases hlocal
    | closeSocket => cases hlocal
    | armReconnect after => cases hlocal
    | cancelReconnect => cases hlocal
    | cancelBeat => cases hlocal
    | postConnectFailed => cases hlocal
    | disconnectCb => cases hlocal

/-- The read that `onConnect` starts. -/
theorem mem_onConnect (s : MapLink) (t : MapTransport) :
    (if s.isOpen then .running (.read s.epoch) else .ready (.read s.epoch none)) ∈
      (s.after (t.onConnect true)).io := by
  have hcalls : ∀ c ∈ (t.sendAspUp).2, c.IsLocal := MapTransport.enqueue_isLocal _ _
  show _ ∈ ((t.sendAspUp).2.foldl perform
    (perform { s with transport := (t.sendAspUp).1 } .asyncRead)).io
  refine mem_foldl_local hcalls (by split <;> rfl) ?_
  show _ ∈ (beginOnSocket _ _ _).io
  unfold beginOnSocket
  dsimp only
  split
  · exact List.mem_append_right _ (List.mem_singleton_self _)
  · exact List.mem_append_right _ (List.mem_singleton_self _)

theorem mem_onConnect_of_open (t : MapTransport) (hopen : s.isOpen = true) :
    .running (.read s.epoch) ∈ (s.after (t.onConnect true)).io := by
  have hread := mem_onConnect s t
  rw [if_pos hopen] at hread
  exact hread

theorem onConnect_transport (s : MapLink) (t : MapTransport) :
    (s.after (t.onConnect true)).transport = t.sendAspUp.1 := by
  have hcalls : ∀ c ∈ (t.onConnect true).2, c.IsLocal := by
    intro c hc
    rcases List.mem_cons.mp hc with rfl | hc
    · trivial
    · exact MapTransport.enqueue_isLocal _ _ c hc
  exact (foldl_perform_local hcalls).transport

/-- An attempt to connect can fail, and one that has succeeded is followed by a read that can. -/
theorem down_of_attempt (hattempts : s.attempts ≠ []) : ∃ s', LeadsTo s s' ∧ Down s' := by
  obtain ⟨epoch, hmem⟩ := List.exists_mem_of_ne_nil _ hattempts
  obtain ⟨item, hitem, hattempt⟩ := Proactor.mem_view.mp hmem
  unfold HlrOp.attempt? at hattempt
  split at hattempt
  · rename_i k
    have hfail : LeadsTo s { s with io := s.io.finish (.connect k) (.connected k false) } :=
      leadsTo_finish hitem (by simp [HlrOp.completesAs])
    obtain ⟨s', hleads, hdown⟩ := down_of_failure
      (s := { s with io := s.io.finish (.connect k) (.connected k false) })
      (.inl ⟨k, .inl rfl⟩) (mem_finish _ _ _)
    exact ⟨s', hfail.trans hleads, hdown⟩
  · rename_i k ok
    cases ok with
    | false => exact down_of_failure (.inl ⟨k, .inl rfl⟩) hitem
    | true =>
      have hconnected := leadsTo_run hitem .started rfl
      have hread := mem_onConnect (s.taking (.connected k true)) s.transport
      have hstate : ((s.taking (.connected k true)).after
          (s.transport.onConnect true)).transport.state ≠ .stopped := by
        rw [onConnect_transport]
        show (MapTransport.enqueue _ _).1.state ≠ _
        rw [MapTransport.enqueue_fst]
        simp
      obtain ⟨s', hleads, hdown⟩ := down_of_read hstate (by
        split at hread
        · exact .inl hread
        · exact .inr hread)
      exact ⟨s', hconnected.trans hleads, hdown⟩
  · rename_i k
    exact down_of_failure (.inl ⟨k, .inr rfl⟩) hitem
  · cases hattempt

/-- A timer that is armed expires. -/
theorem leadsTo_expired (harmed : s.Armed .reconnect) :
    ∃ s', LeadsTo s s' ∧ s'.transport = s.transport ∧ .ready (.reconnectTimer true) ∈ s'.io := by
  obtain ⟨u, hmem⟩ := List.exists_mem_of_ne_nil _ harmed
  obtain ⟨item, hitem, harmed⟩ := Proactor.mem_view.mp hmem
  rcases item with op | handler
  · obtain rfl : op = .reconnectWait := by
      cases op with
      | reconnectWait => rfl
      | _ => cases harmed
    have hcompletes : HlrOp.reconnectWait.completesAs (.reconnectTimer true) := rfl
    exact ⟨_, leadsTo_finish hitem hcompletes, rfl, mem_finish _ _ _⟩
  · obtain rfl : handler = .reconnectTimer true := by
      cases handler with
      | reconnectTimer ok =>
        cases ok with
        | true => rfl
        | false => cases harmed
      | _ => cases harmed
    exact ⟨s, .refl, rfl, hitem⟩

theorem leadsTo_connect (hrunning : s.transport.state ≠ .stopped)
    (hready : .ready (.reconnectTimer true) ∈ s.io) (attempt : ConnectAttempt) :
    LeadsTo s ((s.taking (.reconnectTimer true)).after (s.transport.connect attempt)) := by
  refine leadsTo_run hready attempt ?_
  rw [method, MapTransport.onReconnectTimer, if_pos ⟨rfl, hrunning⟩]

/-- The reconnect timer expires, and the name cannot be resolved. -/
theorem down_of_armed (hrunning : s.transport.state ≠ .stopped) (harmed : s.Armed .reconnect) :
    ∃ s', LeadsTo s s' ∧ Down s' := by
  obtain ⟨s₁, hexpired, htransport, hready⟩ := leadsTo_expired harmed
  rw [← htransport] at hrunning
  have hconnect := leadsTo_connect hrunning hready .unresolved
  have hfailed : Pending.ready (.connectFailed (s₁.taking (.reconnectTimer true)).epoch) ∈
      ((s₁.taking (.reconnectTimer true)).after (s₁.transport.connect .unresolved)).io :=
    List.mem_append_right _ (List.mem_singleton_self _)
  obtain ⟨s', hleads, hdown⟩ := down_of_failure (.inl ⟨_, .inr rfl⟩) hfailed
  exact ⟨s', (hexpired.trans hconnect).trans hleads, hdown⟩

/-! ## The handshake -/

/-- What the peer answers to ASPUP and ASPAC. -/
def acks : Bytes := M3ua.encode aspUpAck ++ M3ua.encode aspAcAck

theorem yields_acks : Yields M3uaDecoder.next acks [aspUpAck, aspAcAck] [] := by
  have hup : aspUpAck.Fits := show (M3ua.encode aspUpAck).length ≤ _ by decide
  have hac : aspAcAck.Fits := show (M3ua.encode aspAcAck).length ≤ _ by decide
  have hsecond := next_encode hac []
  rw [List.append_nil] at hsecond
  exact .frame (next_encode hup _) (.frame hsecond (.wait rfl))

theorem processMessage_aspUpAck (t : MapTransport) :
    t.processMessage aspUpAck = .ok t.sendAspAc :=
  if_pos ⟨rfl, rfl⟩

theorem processMessage_aspAcAck (t : MapTransport) :
    t.processMessage aspAcAck =
      .ok ({ t with state := .active }, [.armBeat t.cfg.beatInterval]) := by
  rw [MapTransport.processMessage, if_neg (by decide), if_pos ⟨rfl, rfl⟩]
  rfl

theorem onRead_acks {t : MapTransport} (hdecoder : t.decoder = []) :
    ∃ t' calls, t.onRead (some acks) = .ok (t', calls) ∧ t'.state = .active := by
  have hyields : Yields M3uaDecoder.next (t.decoder ++ acks) [aspUpAck, aspAcAck] [] := by
    rw [hdecoder]
    exact yields_acks
  obtain ⟨t₁, calls₁, hup⟩ : ∃ t₁ calls₁, t.processMessage aspUpAck = .ok (t₁, calls₁) :=
    ⟨_, _, processMessage_aspUpAck t⟩
  have hfirst : MapTransport.readTurn (t, []) aspUpAck = .ok (t₁, [] ++ calls₁) :=
    MapTransport.readTurn_eq_ok.mpr ⟨t₁, calls₁, hup, rfl⟩
  have hsecond : MapTransport.readTurn (t₁, [] ++ calls₁) aspAcAck =
      .ok ({ t₁ with state := .active }, [] ++ calls₁ ++ [.armBeat t₁.cfg.beatInterval]) :=
    MapTransport.readTurn_eq_ok.mpr ⟨_, _, processMessage_aspAcAck t₁, rfl⟩
  have hfold : [aspUpAck, aspAcAck].foldlM MapTransport.readTurn (t, []) =
      .ok ({ t₁ with state := .active }, [] ++ calls₁ ++ [.armBeat t₁.cfg.beatInterval]) := by
    rw [List.foldlM_cons, hfirst, except_ok_bind, List.foldlM_cons, hsecond, except_ok_bind]
    rfl
  exact ⟨_, _, MapTransport.onRead_some_eq_ok.mpr ⟨_, _, _, _, hyields, hfold, rfl, rfl⟩, rfl⟩

/-- The timer expires and `connect` opens a socket. -/
theorem Down.leadsTo_connecting (h : Down s) :
    ∃ s', LeadsTo s s' ∧ s'.transport.decoder = [] ∧ s'.isOpen = true ∧
      .running (.connect s'.epoch) ∈ s'.io := by
  have hcompletes : HlrOp.reconnectWait.completesAs (.reconnectTimer true) := rfl
  have hexpired := leadsTo_finish h.wait hcompletes
  have hconnect := leadsTo_connect
    (s := { s with io := s.io.finish .reconnectWait (.reconnectTimer true) })
    (by rw [h.state]; simp) (mem_finish _ _ _) .started
  refine ⟨_, hexpired.trans hconnect, h.decoder, rfl, ?_⟩
  exact List.mem_append_right _ (List.mem_singleton_self _)

/-- The connection comes about and is read from. -/
theorem leadsTo_connected (hdecoder : s.transport.decoder = []) (hopen : s.isOpen = true)
    (hconnect : .running (.connect s.epoch) ∈ s.io) :
    ∃ s' epoch, LeadsTo s s' ∧ s'.transport.decoder = [] ∧ .running (.read epoch) ∈ s'.io := by
  have hcompletes : (HlrOp.connect s.epoch).completesAs (.connected s.epoch true) := by
    simp [HlrOp.completesAs]
  have hdone := leadsTo_finish hconnect hcompletes
  have hconnected := leadsTo_run
    (s := { s with io := s.io.finish (.connect s.epoch) (.connected s.epoch true) })
    (mem_finish _ _ _) .started rfl
  refine ⟨_, _, hdone.trans hconnected, ?_, mem_onConnect_of_open _ hopen⟩
  rw [onConnect_transport]
  show (MapTransport.enqueue _ _).1.decoder = []
  rw [MapTransport.enqueue_fst]
  exact hdecoder

/-- From there the handshake leads to `Active`. -/
theorem Down.leadsTo_active (h : Down s) : ∃ s', LeadsTo s s' ∧ s'.transport.state = .active := by
  obtain ⟨s₁, hconnecting, hdecoder₁, hopen, hconnect⟩ := h.leadsTo_connecting
  obtain ⟨s₂, epoch, hconnected, hdecoder₂, hread⟩ := leadsTo_connected hdecoder₁ hopen hconnect
  obtain ⟨t', calls, hacks, hactive⟩ := onRead_acks hdecoder₂
  have hcompletes : (HlrOp.read epoch).completesAs (.read epoch (some acks)) := by
    have hlen : acks ≠ [] ∧ acks.length ≤ kHlrReadBufSize := by decide
    simp [HlrOp.completesAs, hlen]
  have harrive := leadsTo_finish hread hcompletes
  have hhandled := leadsTo_run
    (s := { s₂ with io := s₂.io.finish (.read epoch) (.read epoch (some acks)) })
    (mem_finish _ _ _) .started hacks
  refine ⟨_, ((hconnecting.trans hconnected).trans harrive).trans hhandled, ?_⟩
  rw [after_transport (MapTransport.onRead_isLocal hacks)]
  exact hactive

/-! ## Runs -/

/-- A transport that has been started and is not stopped can get to `Active` by completions alone,
whatever has happened before. Only data that has been read and not handled yet must be left out of
account: its handler may throw. -/
theorem can_become_active {cfg : MapTransportConfig} {events : List LinkEvent}
    (hrun : LinkRun cfg events s) (hstarted : Started events)
    (hrunning : s.transport.state ≠ .stopped)
    (hquiet : ∀ epoch chunk, .ready (.read epoch (some chunk)) ∉ s.io) :
    ∃ later s', LinkRun cfg (events ++ later) s' ∧ (∀ e ∈ later, IsCompletion e.op) ∧
      s'.transport.state = .active := by
  have hawaits := run_awaits hrun
  have hreads : s.reads ≠ [] → ∃ s', LeadsTo s s' ∧ Down s' := by
    intro hreads
    obtain ⟨epoch, hmem⟩ := List.exists_mem_of_ne_nil _ hreads
    obtain ⟨item, hitem, hread⟩ := Proactor.mem_view.mp hmem
    unfold HlrOp.read? at hread
    split at hread
    · exact down_of_read hrunning (.inl hitem)
    · rename_i k result
      cases result with
      | none => exact down_of_read hrunning (.inr hitem)
      | some chunk => exact absurd hitem (hquiet k chunk)
    · cases hread
  have hdown : ∃ s', LeadsTo s s' ∧ Down s' := by
    unfold Awaits at hawaits
    cases hs : s.transport.state with
    | disconnected =>
      rw [hs] at hawaits
      exact down_of_armed hrunning (hawaits hstarted)
    | connecting =>
      rw [hs] at hawaits
      exact down_of_attempt hawaits
    | aspUp =>
      rw [hs] at hawaits
      exact hreads hawaits
    | active =>
      rw [hs] at hawaits
      exact hreads hawaits.1
    | stopped => exact absurd hs hrunning
  obtain ⟨s₁, hleads₁, hdown⟩ := hdown
  obtain ⟨s₂, hleads₂, hactive⟩ := hdown.leadsTo_active
  obtain ⟨later, hlater, hcompletions⟩ := hrun.leads (hleads₁.trans hleads₂)
  exact ⟨later, s₂, hlater, hcompletions, hactive⟩

/-- The first write of a connection has failed. -/
theorem failed_write_recovers :
    ∃ events s later s', LinkRun {} events s ∧ s.transport.state = .disconnected ∧
      LinkRun {} (events ++ later) s' ∧ s'.transport.state = .active := by
  obtain ⟨result, hplay, hstarted, hstate, hquiet⟩ : ∃ result, played {} (connecting ++
        [.finish (.write 1 (M3ua.encode makeAspUp)) (.written 1 (M3ua.encode makeAspUp) false),
          .run (.written 1 (M3ua.encode makeAspUp) false) .started]) = some result ∧
      Started result.1 ∧ result.2.transport.state = .disconnected ∧
      result.2.io = [.ready (.read 1 none), .running .reconnectWait] :=
    ⟨_, rfl, ⟨_, List.mem_of_getElem? (i := 0) rfl, rfl⟩, rfl, rfl⟩
  have hrun := run_of_played hplay
  obtain ⟨later, s', hlater, -, hactive⟩ := can_become_active hrun hstarted
    (by rw [hstate]; decide) (by rw [hquiet]; simp)
  exact ⟨_, _, later, s', hrun, hstate, hlater, hactive⟩

end MapLink

end GsupMapProxy.Transport
