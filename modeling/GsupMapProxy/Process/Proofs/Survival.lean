import GsupMapProxy.Process.Proofs.Quota
import GsupMapProxy.Transport.Proofs.SessionEffects

/-!
# What takes the process down

A handler that throws leaves `io_context::run` and ends the process, and one that pops from an
empty queue is undefined. In a state the process can get into there are five ways to this and no
others: a client that has reset its connection by the time its accept is handled, bytes of an SGSN
that make no frames, bytes of the HLR that make no messages, a completed write of the HLR
connection whose queue was cleared meanwhile, and a message too long for an IPA frame that meets a
session to go to. A completed write of a session always finds its frame at the front of the queue,
even after one of them has failed.
-/

namespace GsupMapProxy

open Misc Transport

/-- The happenings that end the process. -/
def Process.Fatal (p : Process) : Happening → Prop
  | .accepted .reset => True
  | .sessionRead object (some chunk) _ =>
      ∃ session, p.server.objects.lookup object = some session ∧
        ¬ Ipa.WellFramed (session.decoder ++ chunk)
  | .hlrRead _ (some chunk) _ _ =>
      ¬ M3ua.WellFramed MapTransport.Dispatchable (p.hlr.decoder ++ chunk)
  | .hlrWritten _ _ true _ => p.hlr.writeQueue = []
  | .task order =>
      ∃ payload client tasks, p.tasks = .serverSend payload client :: tasks ∧
        p.server.recipients order client ≠ [] ∧ 0xFFFF < payload.length
  | _ => False

/-! ## Writes of sessions -/

/-- The frame of a write of this session. -/
def AsyncOp.writeOf (object : Nat) : AsyncOp → Option Bytes
  | .write o frame => if o = object then some frame else none
  | _ => none

/-- The operation a session starts with a call. -/
def Transport.SessionCall.started? (object : Nat) : SessionCall → Option AsyncOp
  | .asyncRead => some (.read object)
  | .asyncWrite frame => some (.write object frame)
  | _ => none

/-- The writes of a session that are outstanding. -/
def Process.writes (p : Process) (object : Nat) : List Bytes :=
  p.pending.filterMap (AsyncOp.writeOf object)

namespace Transport.IpaSession

variable {t t' : IpaSession} {ws : List Bytes} {calls : List SessionCall}

/-- The outstanding writes of a session: that of the front of its queue, or none once it has
failed. -/
structure Backed (t : IpaSession) (ws : List Bytes) : Prop where
  writing : t.writing = true ↔ t.writeQueue ≠ []
  front : ws = [] ∨ ws = t.writeQueue.take 1

theorem Backed.of_flying (h : t.Flying ws) : t.Backed ws := ⟨h.writing, .inr h.front⟩

theorem Backed.of_perm {ws' : List Bytes} (h : t.Backed ws) (hperm : ws.Perm ws') :
    t.Backed ws' := by
  refine ⟨h.writing, ?_⟩
  rcases h.front with rfl | rfl
  · exact .inl (List.nil_perm.mp hperm)
  · cases hqueue : t.writeQueue with
    | nil =>
      rw [hqueue] at hperm
      exact .inl (List.nil_perm.mp hperm)
    | cons front queue =>
      rw [hqueue] at hperm
      exact .inr (List.singleton_perm.mp hperm).symm

/-- A session that stops keeps its queue. -/
theorem Backed.congr (h : t.Backed ws) (hqueue : t'.writeQueue = t.writeQueue)
    (hwriting : t'.writing = t.writing) : t'.Backed ws := by
  refine ⟨?_, ?_⟩
  · rw [hqueue, hwriting]
    exact h.writing
  · rw [hqueue]
    exact h.front

theorem Backed.enqueues {frames : List Bytes} (h : t.Backed ws)
    (henqueues : Enqueues t t' calls frames) :
    t'.Backed (ws ++ calls.filterMap SessionCall.write?) := by
  -- as if no write had failed
  have hflying := henqueues.flying (t.writeQueue.take 1) ⟨h.writing, rfl⟩
  cases hqueue : t.writeQueue with
  | nil =>
    have hnone : ws = [] := by
      rcases h.front with hws | hws
      · exact hws
      · rw [hws, hqueue, List.take_nil]
    rw [hqueue, List.take_nil] at hflying
    rw [hnone]
    exact .of_flying hflying
  | cons front queue =>
    -- one write is all there is, so none is started
    have hlen := congrArg List.length hflying.front
    have hmost := List.length_take_le 1 t'.writeQueue
    rw [List.length_append, hqueue] at hlen
    have hnone : calls.filterMap SessionCall.write? = [] := by
      apply List.eq_nil_of_length_eq_zero
      simp only [List.take_succ_cons, List.take_zero, List.length_singleton] at hlen
      omega
    rw [hnone, List.append_nil] at hflying ⊢
    refine ⟨hflying.writing, ?_⟩
    rw [← hflying.front]
    exact h.front

/-- Once a write has completed the next one is started, or none. -/
theorem Backed.onWritten {ok : Bool} (h : t.Backed ws)
    (hwritten : t.onWritten ok = .ok (t', calls)) :
    t'.Backed (calls.filterMap SessionCall.write?) := by
  cases ok with
  | true =>
    obtain ⟨-, -, -, hflying⟩ := onWritten_effect hwritten
    exact .of_flying hflying
  | false =>
    have hfailed : t.Backed [] := ⟨h.writing, .inl rfl⟩
    rw [IpaSession.onWritten, if_neg (by decide)] at hwritten
    split at hwritten
    · cases hwritten
      exact hfailed.congr rfl rfl
    · cases hwritten
      exact hfailed

theorem flying_start (id : ClientId)
    (hstart : IpaSession.start { clientId := id } = .ok (t', calls)) :
    t'.Flying (calls.filterMap SessionCall.write?) := by
  rw [start_eq] at hstart
  cases hstart
  have hfresh : Flying { clientId := id } [] := ⟨by simp, rfl⟩
  have henqueued := (enqueue_enqueues _ ccmIdReq).flying [] hfresh
  have hread : [SessionCall.asyncRead].filterMap SessionCall.write? = [] := rfl
  rw [List.filterMap_append, hread, List.append_nil]
  exact henqueued

/-- What is read is answered into the queue, or the session stops. -/
theorem onRead_enqueues {result : Option Bytes} (h : t.onRead result = .ok (t', calls)) :
    ∃ frames, Enqueues t t' calls frames := by
  cases result with
  | none =>
    rw [IpaSession.onRead] at h
    split at h
    · cases h
      exact ⟨[], enqueues_nothing rfl rfl rfl⟩
    · cases h
      exact ⟨[], enqueues_nothing rfl rfl rfl⟩
  | some chunk =>
    obtain ⟨frames, -, -, henqueues⟩ := onRead_effect h
    exact ⟨_, henqueues⟩

end Transport.IpaSession

/-- `IpaServer::stop` leaves the queues alone. -/
theorem lookup_stop {server : IpaServer} {order : List ClientId} {o : Nat} {t' : IpaSession}
    (h : (server.stop order).objects.lookup o = some t') :
    ∃ t, server.objects.lookup o = some t ∧ t'.writeQueue = t.writeQueue ∧
      t'.writing = t.writing := by
  unfold IpaServer.stop at h
  dsimp only at h
  induction order generalizing server with
  | nil => exact ⟨t', h, rfl, rfl⟩
  | cons id order ih =>
    rw [List.foldl_cons] at h
    obtain ⟨t, ht, hqueue, hwriting⟩ := ih h
    split at ht
    · exact ⟨t, ht, hqueue, hwriting⟩
    · rename_i object hobject
      split at ht
      · exact ⟨t, ht, hqueue, hwriting⟩
      · rename_i session hsession
        rw [IpaServer.update, lookup_insert_ite] at ht
        split at ht
        · rename_i ho
          subst ho
          cases ht
          refine ⟨session, hsession, ?_, ?_⟩
          · rw [hqueue, IpaSession.stop]
            split <;> rfl
          · rw [hwriting, IpaSession.stop]
            split <;> rfl
        · exact ⟨t, ht, hqueue, hwriting⟩

/-- The outstanding writes of every session are backed by its queue. -/
def Process.Backed (p : Process) : Prop :=
  ∀ object t, p.server.objects.lookup object = some t → t.Backed (p.writes object)

/-- What a step does to the queue of a session and to its writes that are outstanding: frames are
put into the queue, a write is over, or the session is new. -/
inductive Process.Moves (p : Process) (h : Happening) (p' : Process) (o : Nat) (t' : IpaSession) :
    Prop
  | queued {t : IpaSession} {made : List SessionCall} {frames : List Bytes}
      (ht : p.server.objects.lookup o = some t) (henqueues : t.Enqueues t' made frames)
      (hwrites : (p.writes o ++ made.filterMap SessionCall.write?).Perm (p'.writes o))
  | written {t : IpaSession} {made : List SessionCall} {frame : Bytes} {ok : Bool}
      (ht : p.server.objects.lookup o = some t) (hh : h = .sessionWritten o frame ok)
      (hwritten : t.onWritten ok = .ok (t', made))
      (hwrites : p'.writes o = Process.writes
        { p with pending := p.pending.erase (.write o frame) } o ++
          made.filterMap SessionCall.write?)
  | started {id : ClientId} {made : List SessionCall}
      (hstart : IpaSession.start { clientId := id } = .ok (t', made))
      (hwrites : p'.writes o = made.filterMap SessionCall.write?)

@[simp] theorem afterCall_objects (server : IpaServer) (id : ClientId) (call : SessionCall) :
    (server.afterCall id call).objects = server.objects := by
  cases call with
  | onReady => exact onSessionReady_objects server id
  | asyncRead | asyncWrite _ | closeSocket | onGsup _ | onDisconnect => rfl

namespace Process

variable {p p' : Process} {object : Nat} {client : ClientId} {now : TimePoint}
  {order : List UInt32} {calls : List Call}

theorem callProxy_pending {op : Op} (h : p.callProxy op = .ok p') : p'.pending = p.pending := by
  obtain ⟨proxy, tasks, hcall⟩ := p.callProxy_ok op
  cases hcall.symm.trans h
  rfl

theorem performSession_pending {call : SessionCall}
    (h : p.performSession object client now call = .ok p') :
    p'.pending = p.pending ++ (call.started? object).toList := by
  cases call with
  | onGsup payload =>
    rw [callProxy_pending h]
    exact (List.append_nil _).symm
  | asyncRead | asyncWrite _ =>
    cases h
    rfl
  | closeSocket | onReady | onDisconnect =>
    cases h
    exact (List.append_nil _).symm

theorem performSessions_pending {made : List SessionCall}
    (h : made.foldlM (performSession object client now) p = .ok p') :
    p'.pending = p.pending ++ made.filterMap (SessionCall.started? object) := by
  have hfold : p'.pending = made.foldl
      (fun pending call => pending ++ (SessionCall.started? object call).toList) p.pending :=
    foldlM_part (fun _ _ _ => performSession_pending) h
  rw [hfold, List.foldl_append_eq_append, List.filterMap_eq_flatMap_toList, List.flatMap_def]

/-- The calls of a session add to its own writes only. -/
theorem performSessions_writes (o : Nat) {made : List SessionCall}
    (h : made.foldlM (performSession object client now) p = .ok p') :
    p'.writes o = p.writes o ++ if object = o then made.filterMap SessionCall.write? else [] := by
  rw [writes, performSessions_pending h, List.filterMap_append, ← writes, List.filterMap_filterMap]
  congr 1
  split
  · rename_i ho
    apply List.filterMap_congr
    intro call _
    cases call <;> simp [SessionCall.started?, AsyncOp.writeOf, SessionCall.write?, ho]
  · rename_i ho
    rw [List.filterMap_eq_nil_iff]
    intro call _
    cases call <;> simp [SessionCall.started?, AsyncOp.writeOf, ho]

/-- A method of a session concerns no other. -/
theorem runSession_lookup {method : IpaSession → Except Fault (IpaSession × List SessionCall)}
    (h : p.runSession object now method = .ok (p', calls)) {o : Nat} {t' : IpaSession}
    (ht' : p'.server.objects.lookup o = some t') :
    (o ≠ object ∧ p.server.objects.lookup o = some t' ∧ p'.writes o = p.writes o) ∨
      (o = object ∧ ∃ t made, p.server.objects.lookup o = some t ∧ method t = .ok (t', made) ∧
        p'.writes o = p.writes o ++ made.filterMap SessionCall.write?) := by
  unfold runSession at h
  split at h
  · cases h
  · rename_i t ht
    obtain ⟨⟨t₁, made⟩, hmethod, h⟩ := except_bind_eq_ok.mp h
    obtain ⟨p₁, hp₁, h⟩ := except_bind_eq_ok.mp h
    cases h
    have hobjects : p'.server.objects = (p.server.update object t₁).objects := by
      rw [foldlM_part (fun _ _ _ => performSession_afterCall) hp₁]
      exact List.foldlRecOn
        (motive := fun s : IpaServer => s.objects = (p.server.update object t₁).objects) made _ rfl
        fun s hs call _ => (afterCall_objects s _ call).trans hs
    have hwrites := performSessions_writes o hp₁
    rw [hobjects, IpaServer.update, lookup_insert_ite] at ht'
    split at ht'
    · rename_i ho
      cases ht'
      subst ho
      rw [if_pos rfl] at hwrites
      exact .inr ⟨rfl, t, made, ht, hmethod, hwrites⟩
    · rename_i ho
      rw [if_neg (Ne.symm ho), List.append_nil] at hwrites
      exact .inl ⟨ho, ht', hwrites⟩

theorem performHlr_writes (o : Nat) {call : MapCall} (h : p.performHlr order now call = .ok p') :
    p'.writes o = p.writes o := by
  cases call with
  | messageCb payload => rw [writes, callProxy_pending h, writes]
  | disconnectCb => rw [writes, callProxy_pending h, writes]
  | asyncConnect | asyncRead | asyncWrite _ | armReconnect _ | armBeat _ =>
    cases h
    rw [writes, List.filterMap_append]
    exact List.append_nil _
  | openSocket | closeSocket | cancelReconnect | cancelBeat | postConnectFailed =>
    cases h
    rfl

theorem runHlr_writes_same (o : Nat)
    {method : MapTransport → Except Fault (MapTransport × List MapCall)}
    (h : p.runHlr order now method = .ok (p', calls)) : p'.writes o = p.writes o := by
  obtain ⟨⟨hlr, made⟩, -, h⟩ := except_bind_eq_ok.mp h
  obtain ⟨p₁, hp₁, h⟩ := except_bind_eq_ok.mp h
  cases h
  have hkept : ∀ (q : Process) (call : MapCall) (q' : Process), q.writes o = p.writes o →
      q.performHlr order now call = .ok q' → q'.writes o = p.writes o :=
    fun q call q' hq hcall => (performHlr_writes o hcall).trans hq
  have hstart : { p with hlr := hlr }.writes o = p.writes o := rfl
  exact foldlM_invariant hkept hstart hp₁

/-- An operation that has completed is no longer outstanding. -/
theorem perm_writes_erase {op : AsyncOp} (hop : op ∈ p.pending) (o : Nat) :
    (p.writes o).Perm ((op.writeOf o).toList ++
      writes { p with pending := p.pending.erase op } o) := by
  have hperm : (p.writes o).Perm ((op :: p.pending.erase op).filterMap (AsyncOp.writeOf o)) :=
    (List.perm_cons_erase hop).filterMap _
  rw [List.filterMap_cons] at hperm
  cases hwrite : op.writeOf o with
  | none =>
    rw [hwrite] at hperm
    exact hperm
  | some frame =>
    rw [hwrite] at hperm
    exact hperm

/-- It was the only one of its session. -/
theorem Backed.completed {object : Nat} {frame : Bytes} (hp : p.Backed)
    (hop : AsyncOp.write object frame ∈ p.pending) {t : IpaSession}
    (ht : p.server.objects.lookup object = some t) :
    writes { p with pending := p.pending.erase (.write object frame) } object = [] ∧
      t.writeQueue.head? = some frame := by
  have hperm := perm_writes_erase hop object
  have hbacked := (hp object t ht).front
  rw [AsyncOp.writeOf, if_pos rfl] at hperm
  rcases hbacked with hnone | hfront
  · rw [hnone] at hperm
    cases List.nil_perm.mp hperm
  · rw [hfront] at hperm
    cases hqueue : t.writeQueue with
    | nil =>
      rw [hqueue] at hperm
      cases List.nil_perm.mp hperm
    | cons front queue =>
      rw [hqueue] at hperm
      have heq := List.singleton_perm.mp hperm
      simp only [Option.toList_some, List.singleton_append, List.cons.injEq] at heq
      exact ⟨heq.2.symm, by rw [List.head?_cons, heq.1]⟩

/-- Nothing happens to the session. -/
theorem Moves.kept {h : Happening} {o : Nat} {t t' : IpaSession}
    (ht : p.server.objects.lookup o = some t) (hqueue : t'.writeQueue = t.writeQueue)
    (hwriting : t'.writing = t.writing) (hwrites : (p.writes o).Perm (p'.writes o)) :
    p.Moves h p' o t' := by
  have hnothing : t.Enqueues t' [] [] := IpaSession.enqueues_nothing hqueue hwriting rfl
  refine .queued ht hnothing ?_
  rw [List.filterMap_nil, List.append_nil]
  exact hwrites

theorem runHlr_moves {method : MapTransport → Except Fault (MapTransport × List MapCall)}
    {h : Happening} (hrun : p.runHlr order now method = .ok (p', calls)) {o : Nat}
    {t' : IpaSession} (ht' : p'.server.objects.lookup o = some t') : p.Moves h p' o t' := by
  rw [runHlr_server hrun] at ht'
  refine .kept ht' rfl rfl ?_
  rw [runHlr_writes_same o hrun]

theorem runTask_moves {order : List ClientId} {task : Task} {h : Happening}
    (hrun : p.runTask order task = .ok (p', calls)) {o : Nat} {t' : IpaSession}
    (ht' : p'.server.objects.lookup o = some t') : p.Moves h p' o t' := by
  cases task with
  | serverSend payload client =>
    obtain ⟨tasks, rfl, -⟩ := runTask_serverSend hrun
    exact .kept ht' rfl rfl (.refl _)
  | sessionEnqueue object frame =>
    rcases runSession_lookup hrun ht' with ⟨-, ht, hwrites⟩ | ⟨-, t, made, ht, hput, hwrites⟩
    · exact .kept ht rfl rfl (.of_eq hwrites.symm)
    · have henqueues := t.enqueue_enqueues frame
      rw [Except.ok.inj hput] at henqueues
      exact .queued ht henqueues (.of_eq hwrites.symm)
  | hlrSend payload =>
    rw [runTask] at hrun
    exact runHlr_moves hrun ht'
  | hlrConnectFailed =>
    rw [runTask] at hrun
    exact runHlr_moves hrun ht'

/-- Nothing is outstanding for the object of the next accept. -/
theorem writes_accepted (hsound : p.server.Sound) (hrooted : p.Rooted) :
    p.writes p.server.accepted = [] := by
  rw [writes, List.filterMap_eq_nil_iff]
  intro op hop
  cases op with
  | write object frame =>
    have hmem := (hsound.numbered.mem_objects object).mp (hrooted _ hop object rfl)
    rw [AsyncOp.writeOf, if_neg (by omega)]
  | read _ | hlrConnect _ | hlrRead _ | hlrWrite _ _ | reconnectWait | beatWait => rfl

/-- A session is added and started. -/
theorem accepted_moves (hsound : p.server.Sound) (hrooted : p.Rooted)
    (hstep : p.handle (.accepted .connected) = .ok (p', calls)) {o : Nat} {t' : IpaSession}
    (ht' : p'.server.objects.lookup o = some t') : p.Moves (.accepted .connected) p' o t' := by
  rcases runSession_lookup hstep ht' with ⟨ho, ht, hwrites⟩ | ⟨ho, t, made, ht, hstart, hwrites⟩
  · rw [IpaServer.addSession, Finmap.lookup_insert_of_ne _ ho] at ht
    exact .kept ht rfl rfl (.of_eq hwrites.symm)
  · subst ho
    rw [IpaServer.lookup_addSession] at ht
    cases ht
    have hwrites : p'.writes p.server.accepted =
        p.writes p.server.accepted ++ made.filterMap SessionCall.write? := hwrites
    rw [writes_accepted hsound hrooted, List.nil_append] at hwrites
    cases hresult : IpaSession.start { clientId := p.server.nextClientId } with
    | error e =>
      rw [hresult] at hstart
      cases hstart
    | ok result =>
      rw [hresult] at hstart
      cases hstart
      exact .started hresult hwrites

/-- The handlers that are no completions. -/
theorem handle_moves {h : Happening} (hsound : p.server.Sound) (hrooted : p.Rooted)
    (hnone : h.completes = none) (hstep : p.handle h = .ok (p', calls)) {o : Nat}
    {t' : IpaSession} (ht' : p'.server.objects.lookup o = some t') : p.Moves h p' o t' := by
  cases h with
  | accepted result =>
    cases result with
    | failed =>
      cases hstep
      exact .kept ht' rfl rfl .rfl
    | reset => cases hstep
    | connected => exact accepted_moves hsound hrooted hstep ht'
  | task order =>
    unfold handle at hstep
    dsimp only at hstep
    split at hstep
    · cases hstep
      exact .kept ht' rfl rfl (.refl _)
    · rename_i task tasks htasks
      have hmoves : Moves { p with tasks := tasks } (.task order) p' o t' :=
        runTask_moves hstep ht'
      cases hmoves with
      | queued ht henqueues hwrites => exact .queued ht henqueues hwrites
      | written ht hh hwritten hwrites => cases hh
      | started hstart hwrites => exact .started hstart hwrites
  | tick sgsnOrder hlrOrder now =>
    obtain ⟨p₁, hsgsn, hstep⟩ := except_bind_eq_ok.mp hstep
    obtain ⟨p₂, hhlr, hstep⟩ := except_bind_eq_ok.mp hstep
    cases hstep
    rw [callProxy_server hhlr, callProxy_server hsgsn] at ht'
    refine .kept ht' rfl rfl (.of_eq ?_)
    rw [writes, writes, callProxy_pending hhlr, callProxy_pending hsgsn]
  | stopServer order =>
    cases hstep
    obtain ⟨t, ht, hqueue, hwriting⟩ := lookup_stop ht'
    exact .kept ht hqueue hwriting (.refl _)
  | stopHlr =>
    rw [handle] at hstep
    exact runHlr_moves hstep ht'
  | sessionRead _ _ _ | sessionWritten _ _ _ | hlrConnected _ _ | hlrRead _ _ _ _
  | hlrWritten _ _ _ _ | reconnectTimer _ _ | beatTimer _ => cases hnone

/-- The handlers of completed operations. -/
theorem completion_moves {h : Happening} {op : AsyncOp} (hcompletes : h.completes = some op)
    (hop : op ∈ p.pending)
    (hstep : handle { p with pending := p.pending.erase op } h = .ok (p', calls)) {o : Nat}
    {t' : IpaSession} (ht' : p'.server.objects.lookup o = some t') : p.Moves h p' o t' := by
  -- but for the write that is over, nothing is
  have herased : op.writeOf o = none →
      (p.writes o).Perm (writes { p with pending := p.pending.erase op } o) := by
    intro hnone
    have hperm := perm_writes_erase hop o
    rw [hnone] at hperm
    exact hperm
  have hhlr : (∀ o, op.writeOf o = none) → p'.server = p.server →
      p'.writes o = writes { p with pending := p.pending.erase op } o → p.Moves h p' o t' := by
    intro hnone hserver hwrites
    rw [hserver] at ht'
    refine .kept ht' rfl rfl ?_
    rw [hwrites]
    exact herased (hnone o)
  cases h with
  | sessionRead object result now =>
    cases hcompletes
    rcases runSession_lookup hstep ht' with ⟨-, ht, hwrites⟩ | ⟨-, t, made, ht, hread, hwrites⟩
    · exact .kept ht rfl rfl ((herased rfl).trans (.of_eq hwrites.symm))
    · obtain ⟨frames, henqueues⟩ := IpaSession.onRead_enqueues hread
      refine .queued ht henqueues ?_
      rw [hwrites]
      exact (herased rfl).append_right _
  | sessionWritten object frame ok =>
    cases hcompletes
    rcases runSession_lookup hstep ht' with ⟨ho, ht, hwrites⟩ | ⟨ho, t, made, ht, hover, hwrites⟩
    · exact .kept ht rfl rfl ((herased (if_neg (Ne.symm ho))).trans (.of_eq hwrites.symm))
    · subst ho
      exact .written ht rfl hover hwrites
  | hlrConnected _ _ | hlrRead _ _ _ _ | hlrWritten _ _ _ _ | reconnectTimer _ _ | beatTimer _ =>
    cases hcompletes
    rw [handle] at hstep
    exact hhlr (fun _ => rfl) (runHlr_server hstep :) (runHlr_writes_same o hstep)
  | accepted _ | task _ | tick _ _ _ | stopServer _ | stopHlr => cases hcompletes

theorem step_moves {h : Happening} (hsound : p.server.Sound) (hrooted : p.Rooted)
    (hop : p.Possible h) (hstep : p.step h = .ok (p', calls)) {o : Nat} {t' : IpaSession}
    (ht' : p'.server.objects.lookup o = some t') : p.Moves h p' o t' := by
  unfold step at hstep
  split at hstep
  · rename_i hnone
    exact handle_moves hsound hrooted hnone hstep ht'
  · rename_i op hcompletes
    exact completion_moves hcompletes (hop.1 op hcompletes) hstep ht'

theorem step_backed {h : Happening} (hsound : p.server.Sound) (hrooted : p.Rooted)
    (hp : p.Backed) (hop : p.Possible h) (hstep : p.step h = .ok (p', calls)) : p'.Backed := by
  intro o t' ht'
  cases step_moves hsound hrooted hop hstep ht' with
  | queued ht henqueues hwrites => exact ((hp o _ ht).enqueues henqueues).of_perm hwrites
  | written ht hh hwritten hwrites =>
    subst hh
    rw [hwrites, (hp.completed (hop.1 _ rfl) ht).1, List.nil_append]
    exact (hp o _ ht).onWritten hwritten
  | started hstart hwrites =>
    rw [hwrites]
    exact .of_flying (IpaSession.flying_start _ hstart)

end Process

variable {txTimeout : Int} {cfg : MapTransportConfig} {events : List ProcessEvent} {p : Process}

theorem ProcessRun.backed (hrun : ProcessRun txTimeout cfg events p) : p.Backed := by
  induction hrun with
  | nil =>
    intro o t ht
    cases ht
  | snoc earlier op hop hs ih =>
    exact Process.step_backed (ProcessRun.sound earlier) (ProcessRun.rooted earlier) ih hop hs

/-! ## Tasks of sessions -/

theorem mem_recipients {server : IpaServer} {order : List ClientId} {client : ClientId}
    {object : Nat} (h : object ∈ server.recipients order client) : object ∈ server.objects := by
  have hready : ∀ id, (do
      let o ← server.sessions.lookup id
      let session ← server.objects.lookup o
      if session.state = .ready then some o else none) = some object →
        object ∈ server.objects := by
    intro id hid
    obtain ⟨o, -, hid⟩ := Option.bind_eq_some_iff.mp hid
    obtain ⟨session, hsession, hid⟩ := Option.bind_eq_some_iff.mp hid
    split at hid
    · cases hid
      exact mem_of_lookup hsession
    · cases hid
  unfold IpaServer.recipients at h
  dsimp only at h
  split at h
  · obtain ⟨id, -, hid⟩ := List.mem_filterMap.mp h
    exact hready id hid
  · exact hready client (Option.mem_toList.mp h)

theorem ProcessRun.tasks_known (hrun : ProcessRun txTimeout cfg events p) :
    ∀ object frame, Task.sessionEnqueue object frame ∈ p.tasks → object ∈ p.server.objects := by
  induction hrun with
  | nil =>
    intro object frame hmem
    cases hmem
  | @snoc events s s' outs earlier op hop hs ih =>
    have hsound := ProcessRun.sound earlier
    have hgrows : ∀ object, object ∈ s.server.objects → object ∈ s'.server.objects := by
      intro object hmem
      rw [(Process.step_sound hsound hs).numbered.mem_objects]
      rw [hsound.numbered.mem_objects] at hmem
      exact Nat.lt_of_lt_of_le hmem (Process.step_known hsound hs).1
    obtain ⟨q, -, htasks, own, tasks, -, -, hposted, -, hframes⟩ :=
      Process.step_consults hsound hop hs
    intro object frame hmem
    rw [hposted] at hmem
    rcases List.mem_append.mp hmem with hmem | hmem
    · refine hgrows object (ih object frame ?_)
      rw [htasks]
      exact List.mem_append_right _ hmem
    · have hin : (object, frame) ∈ postedIn ⟨s, op, outs, s'⟩ := by
        rw [← hframes]
        exact List.mem_filterMap.mpr ⟨_, hmem, rfl⟩
      -- a frame is only ever posted for a session that exists
      obtain ⟨order, data, client, -, -, hrecipient, -⟩ := mem_postedIn hin
      exact hgrows object (mem_recipients hrecipient)

/-! ## Handlers that return -/

theorem Transport.IpaSession.onRead_none_ok (t : IpaSession) :
    ∃ result, t.onRead none = .ok result := by
  rw [IpaSession.onRead]
  split <;> exact ⟨_, rfl⟩

theorem Transport.IpaSession.onWritten_ok {t : IpaSession} {frame : Bytes}
    (hfront : t.writeQueue.head? = some frame) (ok : Bool) :
    ∃ result, t.onWritten ok = .ok result := by
  obtain ⟨queue, hqueue⟩ := List.head?_eq_some_iff.mp hfront
  rw [IpaSession.onWritten, hqueue]
  split
  · exact ⟨_, rfl⟩
  · split <;> exact ⟨_, rfl⟩

theorem Transport.MapTransport.onRead_none_ok (t : MapTransport) :
    ∃ result, t.onRead none = .ok result := by
  rw [MapTransport.onRead]
  split <;> exact ⟨_, rfl⟩

theorem Transport.MapTransport.onWritten_true_ok_iff (t : MapTransport) :
    (∃ result, t.onWritten true = .ok result) ↔ t.writeQueue ≠ [] := by
  rw [MapTransport.onWritten, if_pos rfl]
  cases t.writeQueue with
  | nil => simp
  | cons front queue => simp

theorem Transport.MapTransport.onWritten_false_ok (t : MapTransport) :
    ∃ result, t.onWritten false = .ok result := by
  rw [MapTransport.onWritten, if_neg (by decide)]
  split <;> exact ⟨_, rfl⟩

namespace Process

theorem runHlr_returns_iff (p : Process) (order : List UInt32) (now : TimePoint)
    (method : MapTransport → Except Fault (MapTransport × List MapCall)) :
    (∃ p' calls, p.runHlr order now method = .ok (p', calls)) ↔
      ∃ result, method p.hlr = .ok result := by
  rw [← runHlr_ok_iff p order now method]
  constructor
  · rintro ⟨p', calls, h⟩
    exact ⟨p', calls, h, runHlr_server h⟩
  · rintro ⟨p', calls, h, -⟩
    exact ⟨p', calls, h⟩

theorem runSession_returns_iff {p : Process} {object : Nat} {session : IpaSession} (now : TimePoint)
    (method : IpaSession → Except Fault (IpaSession × List SessionCall))
    (hsession : p.server.objects.lookup object = some session) :
    (∃ p' calls, p.runSession object now method = .ok (p', calls)) ↔
      ∃ result, method session = .ok result := by
  constructor
  · rintro ⟨p', calls, h⟩
    simp only [runSession, hsession] at h
    obtain ⟨result, hresult, -⟩ := except_bind_eq_ok.mp h
    exact ⟨result, hresult⟩
  · intro hresult
    obtain ⟨p', calls, h, -⟩ := (runSession_ok_iff now method hsession).mpr hresult
    exact ⟨p', calls, h⟩

theorem runTask_serverSend_iff {p : Process} (order : List ClientId) (payload : Bytes)
    (client : ClientId) :
    (∃ p' calls, p.runTask order (.serverSend payload client) = .ok (p', calls)) ↔
      ¬ (p.server.recipients order client ≠ [] ∧ 0xFFFF < payload.length) := by
  constructor
  · rintro ⟨p', calls, h⟩ ⟨hsome, hlong⟩
    obtain ⟨tasks, -, -, ⟨hnone, -⟩ | ⟨frame, hframe, -⟩⟩ := runTask_serverSend h
    · exact hsome hnone
    · rw [Ipa.encode, if_pos hlong] at hframe
      cases hframe
  · intro hnot
    by_cases hnone : p.server.recipients order client = []
    · refine ⟨{ p with tasks := p.tasks ++ [] }, [], ?_⟩
      rw [runTask, hnone]
      rfl
    · have hshort : payload.length ≤ 0xFFFF := by
        by_contra hlong
        exact hnot ⟨hnone, by omega⟩
      obtain ⟨frame, hframe⟩ : ∃ frame, Ipa.encode Ipa.kStreamGsup payload = .ok frame := by
        rw [Ipa.encode, if_neg (by omega)]
        exact ⟨_, rfl⟩
      refine ⟨_, [], except_bind_eq_ok.mpr ⟨_, mapM_same_eq_ok.mpr (.inr ⟨frame, ?_, rfl⟩), rfl⟩⟩
      rw [hframe]
      rfl

theorem handle_hlr_returns {p : Process} {h : Happening} (order : List UInt32) (now : TimePoint)
    (method : MapTransport → MapTransport × List MapCall)
    (hhandle : p.handle h = p.runHlr order now fun t => .ok (method t)) :
    ∃ p' calls, p.handle h = .ok (p', calls) := by
  rw [hhandle]
  exact (runHlr_returns_iff p order now _).mpr ⟨_, rfl⟩

end Process

/-- A posted task returns unless it is fatal. -/
theorem ProcessRun.task_returns_iff (hrun : ProcessRun txTimeout cfg events p) {task : Task}
    {tasks : List Task} (htasks : p.tasks = task :: tasks) {order : List ClientId}
    {ops : List AsyncOp} :
    (∃ p' calls, Process.runTask { p with pending := ops, tasks := tasks } order task =
      .ok (p', calls)) ↔ ¬ p.Fatal (.task order) := by
  rw [Process.Fatal, htasks]
  cases task with
  | serverSend payload client =>
    have hsend := Process.runTask_serverSend_iff
      (p := { p with pending := ops, tasks := tasks }) order payload client
    refine hsend.trans (not_congr ?_)
    constructor
    · intro hfatal
      exact ⟨payload, client, tasks, rfl, hfatal⟩
    · rintro ⟨payload', client', tasks', heq, hfatal⟩
      cases heq
      exact hfatal
  | sessionEnqueue object frame =>
    have hmem : Task.sessionEnqueue object frame ∈ p.tasks := by
      rw [htasks]
      exact List.mem_cons_self
    obtain ⟨t, ht⟩ := Finmap.mem_iff.mp (hrun.tasks_known object frame hmem)
    have henqueue := Process.runSession_returns_iff
      (p := { p with pending := ops, tasks := tasks }) 0 (fun s => .ok (s.enqueue frame)) ht
    exact ⟨fun _ => by simp, fun _ => henqueue.mpr ⟨_, rfl⟩⟩
  | hlrSend payload =>
    rw [Process.runTask]
    exact ⟨fun _ => by simp, fun _ => (Process.runHlr_returns_iff _ [] 0 _).mpr ⟨_, rfl⟩⟩
  | hlrConnectFailed =>
    rw [Process.runTask]
    exact ⟨fun _ => by simp, fun _ => (Process.runHlr_returns_iff _ [] 0 _).mpr ⟨_, rfl⟩⟩

/-- The handler returns, once its operation is out of the way, unless it is fatal. -/
theorem ProcessRun.handle_returns_iff (hrun : ProcessRun txTimeout cfg events p) {h : Happening}
    (hop : p.Possible h) {ops : List AsyncOp} :
    (∃ p' calls, Process.handle { p with pending := ops } h = .ok (p', calls)) ↔ ¬ p.Fatal h := by
  have hobject : ∀ op ∈ p.pending, ∀ object, op.object = some object →
      ∃ t, p.server.objects.lookup object = some t :=
    fun op hmem object ho => Finmap.mem_iff.mp (hrun.rooted op hmem object ho)
  cases h with
  | accepted result =>
    cases result with
    | failed => exact ⟨fun _ => id, fun _ => ⟨_, _, rfl⟩⟩
    | connected =>
      have hstart := Process.runSession_returns_iff
        (p := { p with pending := ops, server := p.server.addSession }) 0
        (fun s => s.start.mapError Fault.thrown) p.server.lookup_addSession
      refine ⟨fun _ => id, fun _ => hstart.mpr ?_⟩
      rw [IpaSession.start_eq]
      exact ⟨_, rfl⟩
    | reset => exact ⟨nofun, fun hnot => absurd trivial hnot⟩
  | sessionRead object result now =>
    obtain ⟨t, ht⟩ := hobject _ (hop.1 _ rfl) object rfl
    have hread := Process.runSession_returns_iff (p := { p with pending := ops }) now
      (fun s => s.onRead result) ht
    refine hread.trans ?_
    cases result with
    | none => exact ⟨fun _ => id, fun _ => t.onRead_none_ok⟩
    | some chunk =>
      rw [t.onRead_ok_iff chunk, Process.Fatal]
      constructor
      · rintro hframed ⟨t', ht', hnot⟩
        rw [ht] at ht'
        cases ht'
        exact hnot hframed
      · intro hnot
        by_contra hframed
        exact hnot ⟨t, ht, hframed⟩
  | sessionWritten object frame ok =>
    obtain ⟨t, ht⟩ := hobject _ (hop.1 _ rfl) object rfl
    have hwritten := Process.runSession_returns_iff (p := { p with pending := ops }) 0
      (fun s => s.onWritten ok) ht
    have hfront := (hrun.backed.completed (hop.1 _ rfl) ht).2
    exact ⟨fun _ => id, fun _ => hwritten.mpr (IpaSession.onWritten_ok hfront ok)⟩
  | hlrConnected socket ok =>
    exact ⟨fun _ => id, fun _ => Process.handle_hlr_returns [] 0 (·.onConnect ok) rfl⟩
  | hlrRead socket result order now =>
    have hread := Process.runHlr_returns_iff { p with pending := ops } order now
      (fun t => t.onRead result)
    refine hread.trans ?_
    cases result with
    | none => exact ⟨fun _ => id, fun _ => p.hlr.onRead_none_ok⟩
    | some chunk => rw [MapTransport.onRead_ok_iff, Process.Fatal, not_not]
  | hlrWritten socket frame ok order =>
    have hwritten := Process.runHlr_returns_iff { p with pending := ops } order 0
      (fun t => t.onWritten ok)
    refine hwritten.trans ?_
    cases ok with
    | false => exact ⟨fun _ => id, fun _ => p.hlr.onWritten_false_ok⟩
    | true => exact p.hlr.onWritten_true_ok_iff
  | reconnectTimer ok attempt =>
    exact ⟨fun _ => id,
      fun _ => Process.handle_hlr_returns [] 0 (·.onReconnectTimer ok attempt) rfl⟩
  | beatTimer ok =>
    exact ⟨fun _ => id, fun _ => Process.handle_hlr_returns [] 0 (·.onBeatTimer ok) rfl⟩
  | task order =>
    cases htasks : p.tasks with
    | nil =>
      refine ⟨fun _ => ?_, fun _ => ⟨_, [], rfl⟩⟩
      rw [Process.Fatal, htasks]
      rintro ⟨payload, client, tasks, ⟨⟩, -⟩
    | cons task tasks => exact hrun.task_returns_iff htasks
  | tick sgsnOrder hlrOrder now =>
    refine ⟨fun _ => id, fun _ => ?_⟩
    obtain ⟨proxy, tasks, hsgsn⟩ :=
      Process.callProxy_ok { p with pending := ops } (.expireSgsn sgsnOrder now)
    obtain ⟨proxy', tasks', hhlr⟩ := Process.callProxy_ok
      { p with pending := ops, proxy := proxy, tasks := tasks } (.expireHlr hlrOrder 30 now)
    exact ⟨_, _, except_bind_eq_ok.mpr ⟨_, hsgsn, except_bind_eq_ok.mpr ⟨_, hhlr, rfl⟩⟩⟩
  | stopServer order => exact ⟨fun _ => id, fun _ => ⟨_, _, rfl⟩⟩
  | stopHlr => exact ⟨fun _ => id, fun _ => Process.handle_hlr_returns [] 0 (·.stop) rfl⟩

/-- In every state the process can get into, whatever can happen there ends it if and only if it
is one of the five: an accepted client has reset its connection before the handler runs, an SGSN's
bytes make no frames, the HLR's bytes make no messages, a write of the HLR connection completes
after its queue was cleared, or a message for the sessions is longer than 65535 bytes and there is
a session to send it to. Everything else, failed accepts, reads and writes, lost connections and
payloads of any content included, is survived. -/
theorem process_goes_down_iff (hrun : ProcessRun txTimeout cfg events p) {h : Happening}
    (hop : p.Possible h) : (∃ fault, p.step h = .error fault) ↔ p.Fatal h := by
  have hreturns : (∃ p' calls, p.step h = .ok (p', calls)) ↔ ¬ p.Fatal h := by
    unfold Process.step
    split
    · exact hrun.handle_returns_iff hop
    · exact hrun.handle_returns_iff hop
  rw [← not_iff_not, ← hreturns]
  cases p.step h with
  | error fault => simp
  | ok result =>
    obtain ⟨p', calls⟩ := result
    simp

/-- With a request under way, a lost HLR connection is survived, and a header with the length zero
is not. -/
theorem lost_connection_survived :
    ∃ events p, ProcessRun 30 {} events p ∧
      (¬ ∃ fault, p.step (.hlrRead 1 none [1] 8) = .error fault) ∧
      p.Fatal (.sessionRead 0 (some [0x00, 0x00, 0xFE]) 8) := by
  obtain ⟨result, hplayed, hlost, hread, hfault⟩ : ∃ result,
      Process.played 30 {} (sgsnConnects ++
        [.reconnectTimer true .started, .hlrConnected 1 true,
          .sessionRead 0 (some ([0x00, 0x07, 0xEE] ++ purge12345)) 7]) = some result ∧
      result.2.Possible (.hlrRead 1 none [1] 8) ∧
      result.2.Possible (.sessionRead 0 (some [0x00, 0x00, 0xFE]) 8) ∧
      ∃ fault, result.2.step (.sessionRead 0 (some [0x00, 0x00, 0xFE]) 8) = .error fault :=
    ⟨_, rfl, by decide +kernel, by decide +kernel, _, rfl⟩
  have hrun := Process.run_of_played hplayed
  refine ⟨_, _, hrun, ?_, (process_goes_down_iff hrun hread).mp hfault⟩
  rw [process_goes_down_iff hrun hlost]
  exact id

end GsupMapProxy
