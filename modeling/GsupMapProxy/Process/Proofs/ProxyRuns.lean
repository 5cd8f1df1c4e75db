import GsupMapProxy.Process.Proofs.Reads
import GsupMapProxy.Proxy.Proofs.Fidelity
import GsupMapProxy.Transport.Proofs.MapMethods
import GsupMapProxy.Transport.Proofs.SessionTables

/-!
# The proxy inside the process

`main` gives the proxy to two transports and a timer, which call it from their handlers, and has
it post what it sends. Whatever order Asio picks, what the proxy goes through is a run of the
proxy on its own: its calls are those the handlers made, in their order, the loops over its
tables visit these tables as they are when the loop starts, and everything it sent has been
posted, in the order it was sent, and was run in that order or waits.
-/

namespace GsupMapProxy

open Misc Transport

abbrev ProcessEvent := Event Process Happening Call

/-- What a posted task passes on for the proxy. -/
def Task.send? : Task → Option Send
  | .serverSend payload client => some (.sgsn payload client)
  | .hlrSend payload => some (.hlr payload)
  | _ => none

/-- The frame a posted task appends to the queue of a session. -/
def Task.enqueued? : Task → Option (Nat × Bytes)
  | .sessionEnqueue object frame => some (object, frame)
  | _ => none

/-- The clock a handler reads. -/
def Happening.now : Happening → TimePoint
  | .sessionRead _ _ now => now
  | .hlrRead _ _ _ now => now
  | _ => 0

/-- The order in which a handler visits `pendingOps_`, should it do so. -/
def Happening.order : Happening → List UInt32
  | .hlrRead _ _ order _ => order
  | .hlrWritten _ _ _ order => order
  | _ => []

/-- The call into the proxy that a call of a transport is. The session accepted as number `object`
was given the id that comes after it. -/
def Call.op? (now : TimePoint) (order : List UInt32) : Call → Option Op
  | .session object (.onGsup payload) => some (.gsup payload (UInt64.ofNat (object + 1)) now)
  | .hlr (.messageCb payload) => some (.map payload now)
  | .hlr .disconnectCb => some (.nack order)
  | _ => none

/-- The calls into the proxy in a step. -/
def opsOf (e : ProcessEvent) : List Op :=
  match e.op with
  | .tick sgsnOrder hlrOrder now => [.expireSgsn sgsnOrder now, .expireHlr hlrOrder 30 now]
  | h => e.outs.filterMap (Call.op? h.now h.order)

/-- The task that a step takes from the queue. -/
def ranIn (e : ProcessEvent) : List Task :=
  match e.op with
  | .task _ => e.pre.tasks.take 1
  | _ => []

/-- The frames for the sessions that a task posts when it is run, one for each recipient. -/
def Process.framesFor (p : Process) (order : List ClientId) : Task → List (Nat × Bytes)
  | .serverSend payload client =>
      match Ipa.encode Ipa.kStreamGsup payload with
      | .ok frame => (p.server.recipients order client).map fun object => (object, frame)
      | .error _ => []
  | _ => []

/-- The frames for the sessions that a step posts. -/
def postedIn (e : ProcessEvent) : List (Nat × Bytes) :=
  match e.op, e.pre.tasks with
  | .task order, task :: _ => e.pre.framesFor order task
  | _, _ => []

/-- A frame is posted by the task that is run, for one of its recipients. -/
theorem mem_postedIn {e : ProcessEvent} {object : Nat} {frame : Bytes}
    (h : (object, frame) ∈ postedIn e) :
    ∃ order data client, e.op = .task order ∧ Task.serverSend data client ∈ ranIn e ∧
      object ∈ e.pre.server.recipients order client ∧
      Ipa.encode Ipa.kStreamGsup data = .ok frame := by
  unfold postedIn at h
  split at h
  · rename_i order task tasks hevent htasks
    unfold Process.framesFor at h
    split at h
    · rename_i data client
      split at h
      · rename_i frame' hframe
        obtain ⟨object', hobject, heq⟩ := List.mem_map.mp h
        cases heq
        refine ⟨order, data, client, hevent, ?_, hobject, hframe⟩
        rw [ranIn, hevent, htasks]
        exact List.mem_singleton_self _
      · cases h
    · cases h
  · cases h

/-! ## Numbers of sessions -/

namespace Process

variable {p p' : Process} {object : Nat} {client : ClientId} {now : TimePoint}
  {order : List UInt32} {calls : List Call}

theorem performSession_afterCall {call : SessionCall}
    (h : p.performSession object client now call = .ok p') :
    p'.server = p.server.afterCall client call := by
  cases call with
  | onGsup payload =>
    obtain ⟨proxy, tasks, hcall⟩ := p.callProxy_ok (.gsup payload client now)
    rw [performSession, hcall] at h
    cases h
    rfl
  | asyncRead | asyncWrite _ | closeSocket | onReady | onDisconnect =>
    cases h
    rfl

theorem runSession_sound {method : IpaSession → Except Fault (IpaSession × List SessionCall)}
    (hp : p.server.Sound)
    (hmethod : ∀ t t' c, method t = .ok (t', c) → t.Proceeds t' c ∨ t.Ends t' c)
    (h : p.runSession object now method = .ok (p', calls)) : p'.server.Sound := by
  unfold runSession at h
  split at h
  · cases h
  · rename_i t ht
    obtain ⟨⟨t', c⟩, hm, h⟩ := except_bind_eq_ok.mp h
    obtain ⟨p₁, hp₁, h⟩ := except_bind_eq_ok.mp h
    cases h
    rw [foldlM_part (fun _ _ _ => performSession_afterCall) hp₁]
    dsimp only
    rcases hmethod t t' c hm with hproceeds | ⟨rfl, rfl⟩
    · rw [IpaServer.afterCalls_eq hproceeds.connected]
      have hstate := hproceeds.state
      split at hstate
      · rename_i hready
        rw [if_pos hready]
        exact hp.update_onSessionReady ht hproceeds.clientId hstate
      · rename_i hready
        rw [if_neg hready]
        exact hp.update ht hproceeds.clientId hstate
    · exact hp.update_onSessionDisconnect ht rfl

theorem runHlr_server {method : MapTransport → Except Fault (MapTransport × List MapCall)}
    (h : p.runHlr order now method = .ok (p', calls)) : p'.server = p.server := by
  obtain ⟨⟨hlr, made⟩, -, h⟩ := except_bind_eq_ok.mp h
  obtain ⟨p₁, hp₁, h⟩ := except_bind_eq_ok.mp h
  cases h
  have hkept : ∀ (q : Process) (call : MapCall) (q' : Process), q.server = p.server →
      q.performHlr order now call = .ok q' → q'.server = p.server :=
    fun q call q' hq hcall => (performHlr_server hcall).trans hq
  have hstart : { p with hlr := hlr }.server = p.server := rfl
  exact foldlM_invariant hkept hstart hp₁

theorem start_cases {t t' : IpaSession} {c : List SessionCall}
    (h : t.start.mapError Fault.thrown = .ok (t', c)) : t.Proceeds t' c ∨ t.Ends t' c := by
  cases hstart : t.start with
  | error e =>
    rw [hstart] at h
    cases h
  | ok result =>
    rw [hstart] at h
    cases h
    exact .inl (IpaSession.start_proceeds hstart)

theorem runTask_sound {order : List ClientId} {task : Task} (hp : p.server.Sound)
    (h : p.runTask order task = .ok (p', calls)) : p'.server.Sound := by
  cases task with
  | serverSend payload client =>
    obtain ⟨tasks, -, h⟩ := except_bind_eq_ok.mp h
    cases h
    exact hp
  | sessionEnqueue object frame =>
    refine runSession_sound hp ?_ h
    intro t t' c henqueue
    have hproceeds := t.enqueue_proceeds frame
    rw [Except.ok.inj henqueue] at hproceeds
    exact .inl hproceeds
  | hlrSend payload =>
    rw [runTask] at h
    rw [runHlr_server h]
    exact hp
  | hlrConnectFailed =>
    rw [runTask] at h
    rw [runHlr_server h]
    exact hp

theorem callProxy_server {op : Op} (h : p.callProxy op = .ok p') : p'.server = p.server := by
  obtain ⟨proxy, tasks, hcall⟩ := p.callProxy_ok op
  cases hcall.symm.trans h
  rfl

theorem handle_sound {h : Happening} (hp : p.server.Sound)
    (hstep : p.handle h = .ok (p', calls)) : p'.server.Sound := by
  cases h with
  | accepted result =>
    cases result with
    | failed =>
      cases hstep
      exact hp
    | connected => exact runSession_sound hp.addSession (fun _ _ _ => start_cases) hstep
    | reset => cases hstep
  | sessionRead object result now =>
    exact runSession_sound hp (fun _ _ _ => IpaSession.onRead_cases) hstep
  | sessionWritten object frame ok =>
    exact runSession_sound hp (fun _ _ _ => IpaSession.onWritten_cases) hstep
  | hlrConnected _ _ | hlrRead _ _ _ _ | hlrWritten _ _ _ _ | reconnectTimer _ _ | beatTimer _
  | stopHlr =>
    rw [handle] at hstep
    rw [runHlr_server hstep]
    exact hp
  | task order =>
    unfold handle at hstep
    dsimp only at hstep
    split at hstep
    · cases hstep
      exact hp
    · rename_i task tasks htasks
      have hrest : { p with tasks := tasks }.server.Sound := hp
      exact runTask_sound hrest hstep
  | tick sgsnOrder hlrOrder now =>
    obtain ⟨p₁, hsgsn, hstep⟩ := except_bind_eq_ok.mp hstep
    obtain ⟨p₂, hhlr, hstep⟩ := except_bind_eq_ok.mp hstep
    cases hstep
    rw [callProxy_server hhlr, callProxy_server hsgsn]
    exact hp
  | stopServer order =>
    cases hstep
    exact hp.stop order

theorem step_sound {h : Happening} (hp : p.server.Sound)
    (hstep : p.step h = .ok (p', calls)) : p'.server.Sound := by
  unfold step at hstep
  split at hstep
  · exact handle_sound hp hstep
  · rename_i op hop
    have herased : { p with pending := p.pending.erase op }.server.Sound := hp
    exact handle_sound herased hstep

end Process

variable {txTimeout : Int} {cfg : MapTransportConfig} {events : List ProcessEvent} {p : Process}

theorem ProcessRun.sound (hrun : ProcessRun txTimeout cfg events p) : p.server.Sound :=
  Run.invariant (I := fun p => p.server.Sound) hrun (ServerLink.sound_of_run .nil)
    (fun _ _ _ _ hp _ hstep => Process.step_sound hp hstep)

/-! ## Calls into the proxy -/

namespace Process

variable {p p' : Process} {object : Nat} {client : ClientId} {now : TimePoint}
  {order : List UInt32} {calls : List Call}

/-- From `p` to `p'` the proxy is called with these operations, and all it sends is posted, beside
these frames for the sessions. -/
def Consults (frames : List (Nat × Bytes)) (p : Process) (ops : List Op) (p' : Process) : Prop :=
  ∃ own tasks, Run Proxy.step Op.Possible p.proxy own p'.proxy ∧ own.map (·.op) = ops ∧
    p'.tasks = p.tasks ++ tasks ∧ tasks.filterMap Task.send? = own.flatMap (·.outs) ∧
    tasks.filterMap Task.enqueued? = frames

variable {frames : List (Nat × Bytes)}

/-- Nothing is asked of the proxy, and the tasks that are posted are not its own. -/
theorem Consults.unasked (tasks : List Task) (hproxy : p'.proxy = p.proxy)
    (htasks : p'.tasks = p.tasks ++ tasks) (hsend : tasks.filterMap Task.send? = []) :
    Consults (tasks.filterMap Task.enqueued?) p [] p' := by
  refine ⟨[], tasks, ?_, rfl, htasks, hsend, rfl⟩
  rw [hproxy]
  exact .nil

theorem Consults.refl (p : Process) : Consults [] p [] p :=
  .unasked [] rfl (List.append_nil _).symm rfl

theorem Consults.trans {p₁ : Process} {ops ops' : List Op} (h : Consults [] p ops p₁)
    (h' : Consults [] p₁ ops' p') : Consults [] p (ops ++ ops') p' := by
  obtain ⟨own, tasks, hrun, hops, htasks, hsend, hframes⟩ := h
  obtain ⟨own', tasks', hrun', hops', htasks', hsend', hframes'⟩ := h'
  refine ⟨own ++ own', tasks ++ tasks', hrun.append hrun', ?_, ?_, ?_, ?_⟩
  · rw [List.map_append, hops, hops']
  · rw [htasks', htasks, List.append_assoc]
  · rw [List.filterMap_append, hsend, hsend', List.flatMap_append]
  · rw [List.filterMap_append, hframes, hframes', List.append_nil]

/-- Only the proxy and the tasks count. -/
theorem Consults.of_eq {q : Process} {ops : List Op} (h : Consults frames q ops p')
    (hproxy : q.proxy = p.proxy) (htasks : q.tasks = p.tasks) : Consults frames p ops p' := by
  unfold Consults at h ⊢
  rw [← hproxy, ← htasks]
  exact h

theorem send?_ofSend (sends : List Send) :
    (sends.map Task.ofSend).filterMap Task.send? = sends := by
  rw [List.filterMap_map]
  conv_rhs => rw [← List.filterMap_some (l := sends)]
  congr 1
  funext send
  cases send <;> rfl

theorem callProxy_consults {op : Op} (hop : op.Possible p.proxy)
    (h : p.callProxy op = .ok p') : Consults [] p [op] p' := by
  obtain ⟨⟨proxy, sends⟩, hstep, h⟩ := except_bind_eq_ok.mp h
  cases h
  refine ⟨_, sends.map Task.ofSend, .single hop hstep, rfl, rfl, ?_, ?_⟩
  · rw [send?_ofSend, List.flatMap_singleton]
  · rw [List.filterMap_map, List.filterMap_eq_nil_iff]
    intro send _
    cases send <;> rfl

theorem performSession_consults (order : List UInt32) {call : SessionCall}
    (h : p.performSession object (UInt64.ofNat (object + 1)) now call = .ok p') :
    Consults [] p ((Call.session object call).op? now order).toList p' := by
  cases call with
  | onGsup payload => exact callProxy_consults trivial h
  | asyncRead | asyncWrite _ | closeSocket | onReady | onDisconnect =>
    cases h
    exact .unasked [] rfl (List.append_nil _).symm rfl

theorem performHlr_consults {call : MapCall}
    (hnack : call = .disconnectCb → Enumerates order p.proxy.pendingOps)
    (h : p.performHlr order now call = .ok p') :
    Consults [] p ((Call.hlr call).op? now order).toList p' := by
  cases call with
  | messageCb payload => exact callProxy_consults trivial h
  | disconnectCb => exact callProxy_consults (hnack rfl) h
  | postConnectFailed =>
    cases h
    exact .unasked [.hlrConnectFailed] rfl rfl rfl
  | asyncConnect | asyncRead | asyncWrite _ | openSocket | closeSocket | armReconnect _ | armBeat _
  | cancelReconnect | cancelBeat =>
    cases h
    exact .unasked [] rfl (List.append_nil _).symm rfl

theorem runSession_consults {method : IpaSession → Except Fault (IpaSession × List SessionCall)}
    (order : List UInt32) (hp : p.server.Sound)
    (h : p.runSession object now method = .ok (p', calls)) :
    Consults [] p (calls.filterMap (Call.op? now order)) p' := by
  unfold runSession at h
  split at h
  · cases h
  · rename_i t ht
    obtain ⟨⟨t', c⟩, -, h⟩ := except_bind_eq_ok.mp h
    obtain ⟨p₁, hp₁, h⟩ := except_bind_eq_ok.mp h
    cases h
    rw [hp.numbered.clientId object t ht] at hp₁
    rw [List.filterMap_eq_flatMap_toList, List.flatMap_map]
    have hcalls := foldlM_composes Consults.refl Consults.trans
      (fun _ _ _ _ hcall => performSession_consults order hcall) hp₁
    exact hcalls.of_eq rfl rfl

/-- The HLR transport does not ask for a NAK here. -/
theorem performHlrs_consults {made : List MapCall} (hmade : .disconnectCb ∉ made)
    (h : made.foldlM (performHlr order now) p = .ok p') :
    Consults [] p ((made.map Call.hlr).filterMap (Call.op? now order)) p' := by
  rw [List.filterMap_eq_flatMap_toList, List.flatMap_map]
  refine foldlM_composes (R := Consults []) Consults.refl Consults.trans ?_ h
  intro call hmem q q' hcall
  refine performHlr_consults ?_ hcall
  rintro rfl
  exact absurd hmem hmade

/-- It does here, before anything else could change the proxy's tables. -/
theorem teardown_consults (horder : Enumerates order p.proxy.pendingOps)
    (h : MapLink.teardown.foldlM (performHlr order now) p = .ok p') :
    Consults [] p [.nack order] p' := by
  obtain ⟨p₁, hclose, h⟩ := except_bind_eq_ok.mp h
  cases hclose
  obtain ⟨p₂, hnack, h⟩ := except_bind_eq_ok.mp h
  cases h
  have hconsults : Consults [] p [.nack order] p₂ := callProxy_consults horder hnack
  exact hconsults

/-- A handler of the HLR transport. -/
theorem runHlr_consults (attempt : ConnectAttempt) (handler : HlrHandler)
    (hlost : ∀ epoch frame, handler = .read epoch none ∨ handler = .written epoch frame false →
      Enumerates order p.proxy.pendingOps)
    (h : p.runHlr order now (fun t => MapLink.method t attempt handler) = .ok (p', calls)) :
    Consults [] p (calls.filterMap (Call.op? now order)) p' := by
  obtain ⟨⟨hlr, made⟩, hmethod, h⟩ := except_bind_eq_ok.mp h
  obtain ⟨p₁, hp₁, h⟩ := except_bind_eq_ok.mp h
  cases h
  have hp₁ : made.foldlM (performHlr order now) { p with hlr := hlr } = .ok p' := hp₁
  suffices hcalls : Consults [] { p with hlr := hlr }
      ((made.map Call.hlr).filterMap (Call.op? now order)) p' from hcalls.of_eq rfl rfl
  cases hbegins : MapLink.beginsEpoch p.hlr handler with
  | false =>
    have hlocal := (MapLink.method_stays hbegins hmethod).isLocal
    exact performHlrs_consults (fun hmem => hlocal _ hmem) hp₁
  | true =>
    rcases MapLink.method_begins hbegins hmethod with
      ⟨-, -, hconnect⟩ |
      ⟨-, ⟨-, rfl⟩ | ⟨-, ⟨epoch, hread⟩, rfl⟩ | ⟨-, ⟨epoch, frame, hwritten⟩, rfl⟩⟩
    · refine performHlrs_consults ?_ hp₁
      rw [show made = (p.hlr.connect attempt).2 from congrArg Prod.snd hconnect]
      cases attempt <;> simp [MapTransport.connect]
    · exact performHlrs_consults (by simp) hp₁
    · obtain ⟨p₂, hcancel, hp₁⟩ := except_bind_eq_ok.mp hp₁
      cases hcancel
      exact teardown_consults (hlost epoch [] (.inl hread)) hp₁
    · exact teardown_consults (hlost epoch frame (.inr hwritten)) hp₁

/-- A posted send reaches sessions only through further tasks, one for each recipient. -/
theorem runTask_serverSend {order : List ClientId} {payload : Bytes}
    (h : p.runTask order (.serverSend payload client) = .ok (p', calls)) :
    ∃ tasks, p' = { p with tasks := p.tasks ++ tasks } ∧ calls = [] ∧
      (p.server.recipients order client = [] ∧ tasks = [] ∨
        ∃ frame, Ipa.encode Ipa.kStreamGsup payload = .ok frame ∧
          tasks = (p.server.recipients order client).map (Task.sessionEnqueue · frame)) := by
  obtain ⟨tasks, htasks, h⟩ := except_bind_eq_ok.mp h
  cases h
  refine ⟨tasks, rfl, rfl, ?_⟩
  rcases mapM_same_eq_ok.mp htasks with hnone | ⟨frame, hframe, hsome⟩
  · exact .inl hnone
  · refine .inr ⟨frame, ?_, hsome⟩
    cases hencode : Ipa.encode Ipa.kStreamGsup payload with
    | error e =>
      rw [hencode] at hframe
      cases hframe
    | ok b =>
      rw [hencode] at hframe
      cases hframe
      rfl

theorem runTask_consults {order : List ClientId} {task : Task} (hp : p.server.Sound)
    (h : p.runTask order task = .ok (p', calls)) :
    Consults (p.framesFor order task) p (calls.filterMap (Call.op? 0 [])) p' := by
  cases task with
  | serverSend payload client =>
    obtain ⟨tasks, rfl, rfl, hposted⟩ := runTask_serverSend h
    rw [framesFor]
    rcases hposted with ⟨hnone, rfl⟩ | ⟨frame, hframe, rfl⟩
    · rw [hnone]
      have hunasked : Consults [] p [] { p with tasks := p.tasks ++ [] } := .unasked [] rfl rfl rfl
      split <;> exact hunasked
    · rw [hframe]
      have hframes : ((p.server.recipients order client).map
          (Task.sessionEnqueue · frame)).filterMap Task.enqueued? =
            (p.server.recipients order client).map fun object => (object, frame) := by
        rw [List.filterMap_map, ← List.filterMap_eq_map]
        rfl
      dsimp only
      rw [← hframes]
      refine .unasked _ rfl rfl ?_
      rw [List.filterMap_map]
      exact List.filterMap_eq_nil_iff.mpr fun _ _ => rfl
  | sessionEnqueue object frame => exact runSession_consults [] hp h
  | hlrSend payload =>
    rw [runTask] at h
    exact runHlr_consults .started (.send payload) (by simp) h
  | hlrConnectFailed =>
    rw [runTask] at h
    exact runHlr_consults .started (.connectFailed 0) (by simp) h

theorem tick_consults {sgsnOrder : List UInt32} {hlrOrder : List Str}
    (hsgsn : Enumerates sgsnOrder p.proxy.txMgr.transactions)
    (hhlr : Enumerates hlrOrder p.proxy.hlrTx)
    (h : p.handle (.tick sgsnOrder hlrOrder now) = .ok (p', calls)) :
    Consults [] p [.expireSgsn sgsnOrder now, .expireHlr hlrOrder 30 now] p' := by
  obtain ⟨p₁, hfirst, h⟩ := except_bind_eq_ok.mp h
  obtain ⟨p₂, hsecond, h⟩ := except_bind_eq_ok.mp h
  cases h
  have hconsults : Consults [] p [.expireSgsn sgsnOrder now] p₁ := callProxy_consults hsgsn hfirst
  -- the first clean-up leaves the second table alone
  have hkept : p₁.proxy.hlrTx = p.proxy.hlrTx := by
    cases hfirst
    rfl
  rw [← hkept] at hhlr
  exact hconsults.trans (callProxy_consults hhlr hsecond)

/-- A step takes at most one task from the queue, and then consults the proxy. -/
theorem step_consults {h : Happening} (hp : p.server.Sound) (hop : p.Possible h)
    (hstep : p.step h = .ok (p', calls)) :
    ∃ q : Process, q.proxy = p.proxy ∧ p.tasks = ranIn ⟨p, h, calls, p'⟩ ++ q.tasks ∧
      Consults (postedIn ⟨p, h, calls, p'⟩) q (opsOf ⟨p, h, calls, p'⟩) p' := by
  obtain ⟨ops, hhandle⟩ : ∃ ops, handle { p with pending := ops } h = .ok (p', calls) := by
    unfold step at hstep
    split at hstep
    · exact ⟨p.pending, hstep⟩
    · exact ⟨_, hstep⟩
  have hq : ({ p with pending := ops } : Process).server.Sound := hp
  have hidle : ∀ {made : List Op}, Consults [] { p with pending := ops } made p' →
      ∃ q : Process, q.proxy = p.proxy ∧ p.tasks = [] ++ q.tasks ∧ Consults [] q made p' :=
    fun h => ⟨_, rfl, rfl, h⟩
  cases h with
  | accepted result =>
    cases result with
    | failed =>
      cases hhandle
      exact hidle (.refl _)
    | connected =>
      have hadded : { p with pending := ops, server := p.server.addSession }.server.Sound :=
        hp.addSession
      exact hidle ((runSession_consults [] hadded hhandle).of_eq rfl rfl)
    | reset => cases hhandle
  | sessionRead object result now => exact hidle (runSession_consults [] hq hhandle)
  | sessionWritten object frame ok => exact hidle (runSession_consults [] hq hhandle)
  | hlrConnected socket ok =>
    rw [handle] at hhandle
    exact hidle (runHlr_consults .started (.connected socket ok) (by simp) hhandle)
  | hlrRead socket result order now =>
    rw [handle] at hhandle
    refine hidle (runHlr_consults .started (.read socket result) ?_ hhandle)
    intro epoch frame hlost
    rcases hlost with hlost | hlost
    · cases hlost
      exact hop.2
    · cases hlost
  | hlrWritten socket frame ok order =>
    rw [handle] at hhandle
    exact hidle (runHlr_consults .started (.written socket frame ok) (fun _ _ _ => hop.2) hhandle)
  | reconnectTimer ok attempt =>
    rw [handle] at hhandle
    exact hidle (runHlr_consults attempt (.reconnectTimer ok) (by simp) hhandle)
  | beatTimer ok =>
    rw [handle] at hhandle
    exact hidle (runHlr_consults .started (.beatTimer 0 ok) (by simp) hhandle)
  | task order =>
    unfold handle at hhandle
    dsimp only at hhandle
    split at hhandle
    · rename_i htasks
      cases hhandle
      refine ⟨p, rfl, by simp [ranIn, htasks], ?_⟩
      simp only [postedIn, htasks]
      exact (Consults.refl _).of_eq rfl htasks.symm
    · rename_i task tasks htasks
      have hrest : { p with pending := ops, tasks := tasks }.server.Sound := hp
      refine ⟨{ p with pending := ops, tasks := tasks }, rfl, by simp [ranIn, htasks], ?_⟩
      simp only [postedIn, htasks]
      exact runTask_consults hrest hhandle
  | tick sgsnOrder hlrOrder now => exact hidle (tick_consults hop.2.1 hop.2.2 hhandle)
  | stopServer order =>
    cases hhandle
    exact hidle ((Consults.refl _).of_eq rfl rfl)
  | stopHlr =>
    obtain ⟨⟨hlr, made⟩, hmethod, hhandle⟩ := except_bind_eq_ok.mp hhandle
    obtain ⟨p₁, hp₁, hhandle⟩ := except_bind_eq_ok.mp hhandle
    cases hhandle
    cases hmethod
    exact hidle ((performHlrs_consults (by simp) hp₁).of_eq rfl rfl)

end Process

/-- What the process has done, and what the proxy in it has done meanwhile. -/
structure Inside (events : List ProcessEvent) (p : Process) (own : List ProxyEvent)
    (proxy : Proxy) : Prop where
  proxy : proxy = p.proxy
  ops : own.map (·.op) = events.flatMap opsOf
  sent : (events.flatMap ranIn ++ p.tasks).filterMap Task.send? = own.flatMap (·.outs)
  enqueued : (events.flatMap ranIn ++ p.tasks).filterMap Task.enqueued? = events.flatMap postedIn

theorem Inside.step {own : List ProxyEvent} {proxy : Proxy} {h : Happening} {calls : List Call}
    {p' : Process} (hrun : ProcessRun txTimeout cfg events p) (hin : Inside events p own proxy)
    (hop : p.Possible h) (hstep : p.step h = .ok (p', calls)) :
    ∃ later proxy', Run Proxy.step (fun p op => op.Possible p) proxy later proxy' ∧
      Inside (events ++ [⟨p, h, calls, p'⟩]) p' (own ++ later) proxy' := by
  obtain ⟨rfl, hops, hsent, henqueued⟩ := hin
  obtain ⟨q, hproxy, htasks, later, tasks, hlater, hlaterOps, hposted, hlaterSent, hframes⟩ :=
    Process.step_consults hrun.sound hop hstep
  rw [hproxy] at hlater
  have hqueue : (events ++ [(⟨p, h, calls, p'⟩ : ProcessEvent)]).flatMap ranIn ++ p'.tasks =
      events.flatMap ranIn ++ p.tasks ++ tasks := by
    rw [List.flatMap_append, List.flatMap_singleton, hposted, htasks]
    simp only [List.append_assoc]
  refine ⟨later, p'.proxy, hlater, rfl, ?_, ?_, ?_⟩
  · rw [List.map_append, hops, hlaterOps, List.flatMap_append, List.flatMap_singleton]
  · rw [hqueue, List.filterMap_append, hsent, hlaterSent, List.flatMap_append]
  · rw [hqueue, List.filterMap_append, henqueued, hframes, List.flatMap_append,
      List.flatMap_singleton]

theorem ProcessRun.inside (hrun : ProcessRun txTimeout cfg events p) :
    ∃ own, ProxyRun txTimeout own p.proxy ∧ Inside events p own p.proxy := by
  obtain ⟨own, proxy, hown, hin⟩ :
      ∃ own proxy, ProxyRun txTimeout own proxy ∧ Inside events p own proxy :=
    hrun.simulated ⟨rfl, rfl, rfl, rfl⟩
      fun _ _ _ _ _ _ _ hrun hin hop hstep => hin.step hrun hop hstep
  obtain rfl := hin.proxy
  exact ⟨own, hown, hin⟩

/-- In every run of the process the proxy goes through a run of its own. It is called with what
the sessions and the HLR transport deliver, with the NAK of every lost connection and with the
clean-ups of every tick, in the order in which these happen. What it sends, in order, is what the
posted tasks have passed on so far and what those that wait will pass on; and the frames for the
sessions, in order, are those of the recipients that each task for the server found when it was
run. -/
theorem proxy_runs_inside (hrun : ProcessRun txTimeout cfg events p) :
    ∃ own, ProxyRun txTimeout own p.proxy ∧ own.map (·.op) = events.flatMap opsOf ∧
      (events.flatMap ranIn ++ p.tasks).filterMap Task.send? = own.flatMap (·.outs) ∧
      (events.flatMap ranIn ++ p.tasks).filterMap Task.enqueued? = events.flatMap postedIn := by
  obtain ⟨own, hown, hin⟩ := ProcessRun.inside hrun
  exact ⟨own, hown, hin.ops, hin.sent, hin.enqueued⟩

/-! ## A run -/

instance (p : Process) (h : Happening) : Decidable (p.Possible h) :=
  have : Decidable (∀ op, h.completes = some op → op ∈ p.pending) :=
    inferInstanceAs (Decidable (∀ op ∈ h.completes, op ∈ p.pending))
  match h with
  | .sessionRead _ (some chunk) _ =>
      inferInstanceAs (Decidable (_ ∧ chunk.length ≤ kSgsnReadBufSize))
  | .hlrRead _ (some chunk) _ _ =>
      inferInstanceAs (Decidable (_ ∧ chunk.length ≤ kHlrReadBufSize))
  | .hlrRead _ none order _ | .hlrWritten _ _ _ order =>
      inferInstanceAs (Decidable (_ ∧ Enumerates order p.proxy.pendingOps))
  | .task order => inferInstanceAs (Decidable (_ ∧ Enumerates order p.server.sessions))
  | .tick sgsnOrder hlrOrder _ =>
      inferInstanceAs (Decidable (_ ∧ Enumerates sgsnOrder p.proxy.txMgr.transactions ∧
        Enumerates hlrOrder p.proxy.hlrTx))
  | .stopServer order => inferInstanceAs (Decidable (_ ∧ Enumerates order p.server.allSessions))
  | .accepted _ | .sessionRead _ none _ | .sessionWritten _ _ _ | .hlrConnected _ _
  | .reconnectTimer _ _ | .beatTimer _ | .stopHlr => inferInstanceAs (Decidable (_ ∧ True))

/-- The run in which these things happen, if there is one. -/
def Process.played (txTimeout : Int) (cfg : MapTransportConfig) (happenings : List Happening) :
    Option (List ProcessEvent × Process) :=
  play Process.step Process.Possible [] (Process.start txTimeout cfg) happenings

theorem Process.run_of_played {happenings : List Happening}
    {result : List ProcessEvent × Process}
    (h : Process.played txTimeout cfg happenings = some result) :
    ProcessRun txTimeout cfg result.1 result.2 :=
  Run.of_play .nil h

/-- An SGSN connects and identifies itself. -/
def sgsnConnects : List Happening :=
  [.accepted .connected, .sessionRead 0 (some ServerLink.idResp) 0]

/-- A Purge MS request for the IMSI 12345. -/
def purge12345 : Bytes := [0x0c, 0x01, 0x03, 0x21, 0x43, 0xF5]

/-- It reaches the proxy as the request of client 1, and what the proxy sends is posted. -/
theorem request_inside_process :
    ∃ events p own, ProcessRun 30 {} events p ∧ ProxyRun 30 own p.proxy ∧
      own.map (·.op) = [.gsup purge12345 1 7] ∧ (own.flatMap (·.outs)).length = 1 := by
  obtain ⟨result, hplayed, hops, hsent⟩ : ∃ result,
      Process.played 30 {} (sgsnConnects ++
        [.sessionRead 0 (some ([0x00, 0x07, 0xEE] ++ purge12345)) 7]) = some result ∧
      result.1.flatMap opsOf = [.gsup purge12345 1 7] ∧
      ((result.1.flatMap ranIn ++ result.2.tasks).filterMap Task.send?).length = 1 :=
    ⟨_, rfl, rfl, rfl⟩
  have hrun := Process.run_of_played hplayed
  obtain ⟨own, hown, hownOps, hownSent, -⟩ := proxy_runs_inside hrun
  refine ⟨_, _, own, hrun, hown, ?_, ?_⟩
  · rw [hownOps, hops]
  · rw [← hownSent, hsent]

end GsupMapProxy
