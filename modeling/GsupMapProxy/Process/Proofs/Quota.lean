import GsupMapProxy.Process.Proofs.ProxyRuns
import GsupMapProxy.Proxy.Proofs.Quota

/-!
# How much a session is sent

Between the proxy and the write queue of a session lie two posted tasks, and the tables of the
server decide in the first of them which session a message goes to. As long as client ids are not
used twice, a message for a client can only reach the session with its id, and a broadcast reaches
a session at most once: all in all a session is sent at most one message for each payload it has
delivered and for each payload the HLR has delivered.
-/

namespace GsupMapProxy

open Misc Transport

/-- The call delivers a payload of the session, or of the HLR. -/
def Call.delivers (object : Nat) : Call → Bool
  | .session o (.onGsup _) => o = object
  | .hlr (.messageCb _) => true
  | _ => false

/-! ## Sessions that take part -/

/-- The id of a session, and that of all sessions. -/
def idsOf (object : Nat) (client : ClientId) : Bool :=
  client = UInt64.ofNat (object + 1) ∨ client = 0

@[simp] theorem afterCall_accepted (server : IpaServer) (id : ClientId) (call : SessionCall) :
    (server.afterCall id call).accepted = server.accepted := by
  cases call with
  | onReady =>
    show (server.onSessionReady id).accepted = _
    unfold IpaServer.onSessionReady
    split <;> rfl
  | asyncRead | asyncWrite _ | closeSocket | onGsup _ | onDisconnect => rfl

theorem stop_accepted (server : IpaServer) (order : List ClientId) :
    (server.stop order).accepted = server.accepted := by
  unfold IpaServer.stop
  dsimp only
  refine List.foldlRecOn (motive := fun s : IpaServer => s.accepted = server.accepted)
    order _ rfl ?_
  intro s hs id _
  split
  · exact hs
  · split
    · exact hs
    · exact hs

namespace Process

variable {p p' : Process} {object : Nat} {now : TimePoint} {order : List UInt32}
  {calls : List Call}

/-- The calls come from sessions that were accepted. -/
def CallsKnown (accepted : Nat) (calls : List Call) : Prop :=
  ∀ o call, Call.session o call ∈ calls → o < accepted

theorem runSession_known {method : IpaSession → Except Fault (IpaSession × List SessionCall)}
    (hp : p.server.Sound) (h : p.runSession object now method = .ok (p', calls)) :
    p'.server.accepted = p.server.accepted ∧ CallsKnown p.server.accepted calls := by
  unfold runSession at h
  split at h
  · cases h
  · rename_i t ht
    obtain ⟨⟨t', c⟩, -, h⟩ := except_bind_eq_ok.mp h
    obtain ⟨p₁, hp₁, h⟩ := except_bind_eq_ok.mp h
    cases h
    constructor
    · rw [foldlM_part (fun _ _ _ => performSession_afterCall) hp₁]
      exact List.foldlRecOn (motive := fun s : IpaServer => s.accepted = p.server.accepted) c _ rfl
        fun s hs call _ => (afterCall_accepted s _ call).trans hs
    · intro o call hmem
      obtain ⟨_, -, hcall⟩ := List.mem_map.mp hmem
      cases hcall
      exact (hp.numbered.mem_objects object).mp (mem_of_lookup ht)

theorem runHlr_known {method : MapTransport → Except Fault (MapTransport × List MapCall)}
    (h : p.runHlr order now method = .ok (p', calls)) :
    p'.server.accepted = p.server.accepted ∧ CallsKnown p.server.accepted calls := by
  refine ⟨by rw [runHlr_server h], ?_⟩
  obtain ⟨⟨hlr, made⟩, -, h⟩ := except_bind_eq_ok.mp h
  obtain ⟨p₁, -, h⟩ := except_bind_eq_ok.mp h
  cases h
  intro o call hmem
  obtain ⟨_, -, hcall⟩ := List.mem_map.mp hmem
  cases hcall

theorem runTask_known {order : List ClientId} {task : Task} (hp : p.server.Sound)
    (h : p.runTask order task = .ok (p', calls)) :
    p'.server.accepted = p.server.accepted ∧ CallsKnown p.server.accepted calls := by
  cases task with
  | serverSend payload client =>
    obtain ⟨tasks, rfl, rfl, -⟩ := runTask_serverSend h
    exact ⟨rfl, fun _ _ hmem => absurd hmem List.not_mem_nil⟩
  | sessionEnqueue object frame => exact runSession_known hp h
  | hlrSend payload =>
    rw [runTask] at h
    exact runHlr_known h
  | hlrConnectFailed =>
    rw [runTask] at h
    exact runHlr_known h

theorem handle_known {h : Happening} (hp : p.server.Sound)
    (hstep : p.handle h = .ok (p', calls)) :
    p.server.accepted ≤ p'.server.accepted ∧ CallsKnown p'.server.accepted calls := by
  have hof : p'.server.accepted = p.server.accepted ∧ CallsKnown p.server.accepted calls →
      p.server.accepted ≤ p'.server.accepted ∧ CallsKnown p'.server.accepted calls := by
    rintro ⟨haccepted, hknown⟩
    rw [haccepted]
    exact ⟨Nat.le_refl _, hknown⟩
  cases h with
  | accepted result =>
    cases result with
    | failed =>
      cases hstep
      exact hof ⟨rfl, fun _ _ hmem => absurd hmem List.not_mem_nil⟩
    | connected =>
      obtain ⟨haccepted, hknown⟩ := runSession_known hp.addSession hstep
      rw [haccepted]
      exact ⟨Nat.le_succ _, hknown⟩
    | reset => cases hstep
  | sessionRead object result now => exact hof (runSession_known hp hstep)
  | sessionWritten object frame ok => exact hof (runSession_known hp hstep)
  | hlrConnected _ _ | hlrRead _ _ _ _ | hlrWritten _ _ _ _ | reconnectTimer _ _ | beatTimer _
  | stopHlr =>
    rw [handle] at hstep
    exact hof (runHlr_known hstep)
  | task order =>
    unfold handle at hstep
    dsimp only at hstep
    split at hstep
    · cases hstep
      exact hof ⟨rfl, fun _ _ hmem => absurd hmem List.not_mem_nil⟩
    · rename_i task tasks htasks
      have hrest : { p with tasks := tasks }.server.Sound := hp
      have hknown := runTask_known hrest hstep
      exact hof hknown
  | tick sgsnOrder hlrOrder now =>
    obtain ⟨p₁, hsgsn, hstep⟩ := except_bind_eq_ok.mp hstep
    obtain ⟨p₂, hhlr, hstep⟩ := except_bind_eq_ok.mp hstep
    cases hstep
    refine hof ⟨?_, fun _ _ hmem => absurd hmem List.not_mem_nil⟩
    rw [callProxy_server hhlr, callProxy_server hsgsn]
  | stopServer order =>
    cases hstep
    exact hof ⟨stop_accepted _ _, fun _ _ hmem => absurd hmem List.not_mem_nil⟩

theorem step_known {h : Happening} (hp : p.server.Sound) (hstep : p.step h = .ok (p', calls)) :
    p.server.accepted ≤ p'.server.accepted ∧ CallsKnown p'.server.accepted calls := by
  unfold step at hstep
  split at hstep
  · exact handle_known hp hstep
  · rename_i op hop
    have herased : { p with pending := p.pending.erase op }.server.Sound := hp
    have hknown := handle_known herased hstep
    exact hknown

end Process

variable {txTimeout : Int} {cfg : MapTransportConfig} {events : List ProcessEvent} {p : Process}

/-- In a run, all calls come from sessions accepted by now. -/
theorem ProcessRun.known (hrun : ProcessRun txTimeout cfg events p) :
    ∀ e ∈ events, Process.CallsKnown p.server.accepted e.outs := by
  induction hrun with
  | nil => simp
  | snoc earlier op hop hs ih =>
    obtain ⟨hle, hknown⟩ := Process.step_known (ProcessRun.sound earlier) hs
    intro e he o call hmem
    rcases List.mem_append.mp he with he | he
    · exact Nat.lt_of_lt_of_le (ih e he o call hmem) hle
    · rw [List.mem_singleton.mp he] at hmem
      exact hknown o call hmem

/-! ## From a task of the server to the sessions -/

section Recipients

variable {server : IpaServer}

/-- A message for a client reaches the session only under its id or under 0, and once. -/
theorem count_recipients (object : Nat) (hserver : server.Sound)
    (haccepted : server.accepted < 2 ^ 64) {order : List ClientId} (horder : order.Nodup)
    (client : ClientId) :
    (server.recipients order client).count object ≤ if idsOf object client then 1 else 0 := by
  have hagree := hserver.agree haccepted
  rw [hagree.recipients_eq]
  by_cases hzero : client = 0
  · rw [if_pos hzero, if_pos (by simp [idsOf, hzero])]
    exact List.nodup_iff_count_le_one.mp (hagree.broadcast_nodup horder) object
  · rw [if_neg hzero]
    cases hlookup : server.sessions.lookup client with
    | none => simp
    | some o =>
      rw [Option.toList_some, List.count_singleton]
      by_cases ho : o = object
      · -- the session is registered under its own id
        obtain ⟨hall, -⟩ := (hagree.ready client o).mp hlookup
        obtain ⟨session, hsession, hid, -⟩ := hagree.registered client o hall
        rw [hserver.numbered.clientId o session hsession] at hid
        subst ho
        have hown : idsOf o client = true := by simp [idsOf, hid]
        rw [hown]
        simp
      · rw [if_neg (by simpa using ho)]
        exact Nat.zero_le _

end Recipients

/-- What a step posts for a session is covered by what the task it runs passes on. -/
theorem count_postedIn {h : Happening} {calls : List Call} {p' : Process} (object : Nat)
    (hp : p.server.Sound) (haccepted : p.server.accepted < 2 ^ 64) (hop : p.Possible h) :
    (postedIn ⟨p, h, calls, p'⟩).countP (fun posted => posted.1 == object) ≤
      ((ranIn ⟨p, h, calls, p'⟩).filterMap Task.send?).countP (Send.isFor (idsOf object)) := by
  unfold postedIn ranIn
  dsimp only
  split
  · rename_i order task tasks htasks
    rw [htasks, List.take_succ_cons, List.take_zero]
    unfold Process.framesFor
    split
    · rename_i payload client
      have hbound := count_recipients object hp haccepted hop.2.1 client
      split
      · have hpassed : ([Task.serverSend payload client].filterMap Task.send?).countP
            (Send.isFor (idsOf object)) = if idsOf object client then 1 else 0 :=
          List.countP_singleton
        rw [List.countP_map, hpassed]
        exact hbound
      · exact Nat.zero_le _
    · exact Nat.zero_le _
  · exact Nat.zero_le _

theorem ProcessRun.count_posted (hrun : ProcessRun txTimeout cfg events p)
    (haccepted : p.server.accepted < 2 ^ 64) (object : Nat) :
    (events.flatMap postedIn).countP (fun posted => posted.1 == object) ≤
      ((events.flatMap ranIn).filterMap Task.send?).countP (Send.isFor (idsOf object)) := by
  induction hrun with
  | nil => simp
  | @snoc events s s' outs earlier op hop hs ih =>
    have hsound := ProcessRun.sound earlier
    have hbefore : s.server.accepted < 2 ^ 64 :=
      Nat.lt_of_le_of_lt (Process.step_known hsound hs).1 haccepted
    have hlast : (postedIn ⟨s, op, outs, s'⟩).countP (fun posted => posted.1 == object) ≤
        ((ranIn ⟨s, op, outs, s'⟩).filterMap Task.send?).countP (Send.isFor (idsOf object)) :=
      count_postedIn object hsound hbefore hop
    have hearlier := ih hbefore
    rw [List.flatMap_append, List.flatMap_append, List.flatMap_singleton, List.flatMap_singleton,
      List.countP_append, List.filterMap_append, List.countP_append]
    exact Nat.add_le_add hearlier hlast

/-! ## From the payloads to the proxy -/

theorem idsOf_ofNat {object o n : Nat} (hn : n < 2 ^ 64) (hobject : object < n) (ho : o < n)
    (h : idsOf object (UInt64.ofNat (o + 1)) = true) : o = object := by
  have hnat : ∀ i, i < n → (UInt64.ofNat (i + 1)).toNat = i + 1 := by
    intro i hi
    rw [UInt64.toNat_ofNat', Nat.mod_eq_of_lt (by omega)]
  rcases of_decide_eq_true h with heq | hzero
  · have := congrArg UInt64.toNat heq
    rw [hnat o ho, hnat object hobject] at this
    omega
  · have := congrArg UInt64.toNat hzero
    rw [hnat o ho] at this
    cases this

/-- What pays for messages to a session are payloads of that session and of the HLR. -/
theorem count_opsOf {e : ProcessEvent} {accepted object : Nat} (haccepted : accepted < 2 ^ 64)
    (hobject : object < accepted) (hknown : Process.CallsKnown accepted e.outs) :
    (opsOf e).countP (Op.paysFor (idsOf object)) ≤ e.outs.countP (Call.delivers object) := by
  have hcalls : ∀ now order, (e.outs.filterMap (Call.op? now order)).countP
      (Op.paysFor (idsOf object)) ≤ e.outs.countP (Call.delivers object) := by
    intro now order
    rw [List.countP_filterMap]
    apply List.countP_mono_left
    intro call hmem hpays
    cases call with
    | session o call =>
      cases call with
      | onGsup payload =>
        exact decide_eq_true (idsOf_ofNat haccepted hobject (hknown o _ hmem) hpays)
      | asyncRead | asyncWrite _ | closeSocket | onReady | onDisconnect => cases hpays
    | hlr call =>
      cases call with
      | messageCb payload => rfl
      | asyncConnect | asyncRead | asyncWrite _ | openSocket | closeSocket | armReconnect _
      | armBeat _ | cancelReconnect | cancelBeat | postConnectFailed | disconnectCb => cases hpays
  unfold opsOf
  split
  · exact Nat.zero_le _
  · exact hcalls _ _

/-- In every run of the process in which the client ids have not come round: the GSUP messages
that were ever put in line for a session, be they written or not, are at most as many as the
payloads that this session and the HLR have delivered. -/
theorem session_sent_at_most (hrun : ProcessRun txTimeout cfg events p)
    (haccepted : p.server.accepted < 2 ^ 64) {object : Nat}
    (hobject : object < p.server.accepted) :
    ((events.flatMap ranIn ++ p.tasks).filterMap Task.enqueued?).countP
        (fun posted => posted.1 == object) ≤
      (events.flatMap (·.outs)).countP (Call.delivers object) := by
  obtain ⟨own, hown, hin⟩ := ProcessRun.inside hrun
  have hops : ∀ {later : List ProcessEvent}, (∀ e ∈ later, e ∈ events) →
      (later.flatMap opsOf).countP (Op.paysFor (idsOf object)) ≤
        (later.flatMap (·.outs)).countP (Call.delivers object) := by
    intro later hlater
    induction later with
    | nil => simp
    | cons e later ih =>
      rw [List.flatMap_cons, List.flatMap_cons, List.countP_append, List.countP_append]
      exact Nat.add_le_add
        (count_opsOf haccepted hobject (ProcessRun.known hrun e (hlater e List.mem_cons_self)))
        (ih fun e he => hlater e (List.mem_cons_of_mem _ he))
  calc ((events.flatMap ranIn ++ p.tasks).filterMap Task.enqueued?).countP
        (fun posted => posted.1 == object)
      = (events.flatMap postedIn).countP (fun posted => posted.1 == object) := by rw [hin.enqueued]
    _ ≤ ((events.flatMap ranIn).filterMap Task.send?).countP (Send.isFor (idsOf object)) :=
        ProcessRun.count_posted hrun haccepted object
    _ ≤ ((events.flatMap ranIn ++ p.tasks).filterMap Task.send?).countP
          (Send.isFor (idsOf object)) := by
        rw [List.filterMap_append, List.countP_append]
        exact Nat.le_add_right _ _
    _ = (own.flatMap (·.outs)).countP (Send.isFor (idsOf object)) := by rw [hin.sent]
    _ ≤ (own.map (·.op)).countP (Op.paysFor (idsOf object)) :=
        Nat.le_of_add_right_le (ProxyRun.covered hown (idsOf object))
    _ = (events.flatMap opsOf).countP (Op.paysFor (idsOf object)) := by rw [hin.ops]
    _ ≤ (events.flatMap (·.outs)).countP (Call.delivers object) := hops fun _ he => he

/-- A request is refused when the HLR connection goes down: one payload, one message. -/
theorem nack_sent_once :
    ∃ events p, ProcessRun 30 {} events p ∧
      ((events.flatMap ranIn ++ p.tasks).filterMap Task.enqueued?).countP
        (fun posted => posted.1 == 0) = 1 ∧
      (events.flatMap (·.outs)).countP (Call.delivers 0) = 1 := by
  obtain ⟨result, hplayed, haccepted, hsent, hdelivered⟩ : ∃ result,
      Process.played 30 {} (sgsnConnects ++
        [.reconnectTimer true .started, .hlrConnected 1 true,
          .sessionRead 0 (some ([0x00, 0x07, 0xEE] ++ purge12345)) 7, .hlrRead 1 none [1] 8,
          .task [1], .task [1]]) = some result ∧
      result.2.server.accepted = 1 ∧
      1 ≤ ((result.1.flatMap ranIn ++ result.2.tasks).filterMap Task.enqueued?).countP
        (fun posted => posted.1 == 0) ∧
      (result.1.flatMap (·.outs)).countP (Call.delivers 0) = 1 :=
    ⟨_, rfl, rfl, by decide +kernel, by decide +kernel⟩
  have hrun := Process.run_of_played hplayed
  have hfirst : 0 < result.2.server.accepted := by
    rw [haccepted]
    decide
  have hmost := session_sent_at_most hrun (by rw [haccepted]; decide) hfirst
  rw [hdelivered] at hmost
  exact ⟨_, _, hrun, Nat.le_antisymm hmost hsent, hdelivered⟩

end GsupMapProxy
