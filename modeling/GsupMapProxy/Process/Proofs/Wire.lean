import GsupMapProxy.Process.Proofs.Correlation
import GsupMapProxy.Process.Proofs.Loopback
import GsupMapProxy.Transport.Proofs.HlrWrites

/-!
# What goes out to the HLR

From the requests of the SGSNs to the socket of the HLR: the frames that the process starts to
write are messages of the M3UA layer and, between them, PDUs that the proxy has handed over, in
their order and none of them twice. PDUs are lost where the HLR connection is not active or breaks
down, so the Invokes on the wire are some of the requests, in the order of their arrival.
-/

namespace GsupMapProxy

open Misc Transport M3ua

open scoped List

/-- The frame of a write that is started on the HLR connection. -/
def Call.hlrWrite? : Call → Option Bytes
  | .hlr call => call.write?
  | .session _ _ => none

def hlrWrites (e : ProcessEvent) : List Bytes := e.outs.filterMap Call.hlrWrite?

/-- The PDU of a message for the HLR. -/
def Send.pdu? : Send → Option Bytes
  | .hlr data => some data
  | .sgsn _ _ => none

/-- The PDUs of the task that a step runs. -/
def pdusRun (e : ProcessEvent) : List Bytes :=
  ((ranIn e).filterMap Task.send?).filterMap Send.pdu?

/-! ## Steps -/

namespace Process

variable {p p' : Process} {object : Nat} {client : ClientId} {now : TimePoint}
  {order : List UInt32} {calls : List Call} {payloads : List Bytes}

theorem callProxy_hlr {op : Op} (h : p.callProxy op = .ok p') : p'.hlr = p.hlr := by
  obtain ⟨proxy, tasks, hcall⟩ := p.callProxy_ok op
  cases hcall.symm.trans h
  rfl

theorem performSession_hlr {call : SessionCall}
    (h : p.performSession object client now call = .ok p') : p'.hlr = p.hlr := by
  cases call with
  | onGsup payload => exact callProxy_hlr h
  | asyncRead | asyncWrite _ | closeSocket | onReady | onDisconnect =>
    cases h
    rfl

theorem performHlr_hlr {call : MapCall} (h : p.performHlr order now call = .ok p') :
    p'.hlr = p.hlr := by
  cases call with
  | messageCb payload => exact callProxy_hlr h
  | disconnectCb => exact callProxy_hlr h
  | asyncConnect | asyncRead | asyncWrite _ | openSocket | closeSocket | armReconnect _ | armBeat _
  | cancelReconnect | cancelBeat | postConnectFailed =>
    cases h
    rfl

/-- A session does not write to the HLR. -/
theorem runSession_hlr {method : IpaSession → Except Fault (IpaSession × List SessionCall)}
    (h : p.runSession object now method = .ok (p', calls)) :
    p'.hlr = p.hlr ∧ calls.filterMap Call.hlrWrite? = [] := by
  unfold runSession at h
  split at h
  · cases h
  · rename_i t ht
    obtain ⟨⟨t', made⟩, -, h⟩ := except_bind_eq_ok.mp h
    obtain ⟨p₁, hp₁, h⟩ := except_bind_eq_ok.mp h
    cases h
    constructor
    · have hkept : ∀ (q : Process) (call : SessionCall) (q' : Process), q.hlr = p.hlr →
          q.performSession object t.clientId now call = .ok q' → q'.hlr = p.hlr :=
        fun q call q' hq hcall => (performSession_hlr hcall).trans hq
      have hstart : { p with server := p.server.update object t' }.hlr = p.hlr := rfl
      exact foldlM_invariant hkept hstart hp₁
    · rw [List.filterMap_map]
      exact List.filterMap_eq_nil_iff.mpr fun _ _ => rfl

/-- The HLR transport after one of its methods, and the writes that it has started. -/
theorem runHlr_hlr {method : MapTransport → Except Fault (MapTransport × List MapCall)}
    (h : p.runHlr order now method = .ok (p', calls)) :
    ∃ made, method p.hlr = .ok (p'.hlr, made) ∧ calls.filterMap Call.hlrWrite? = writesOf made := by
  obtain ⟨⟨hlr, made⟩, hmethod, h⟩ := except_bind_eq_ok.mp h
  obtain ⟨p₁, hp₁, h⟩ := except_bind_eq_ok.mp h
  cases h
  have hkept : ∀ (q : Process) (call : MapCall) (q' : Process), q.hlr = hlr →
      q.performHlr order now call = .ok q' → q'.hlr = hlr :=
    fun q call q' hq hcall => (performHlr_hlr hcall).trans hq
  have hstart : { p with hlr := hlr }.hlr = hlr := rfl
  refine ⟨made, ?_, ?_⟩
  · rw [foldlM_invariant hkept hstart hp₁]
    exact hmethod
  · rw [List.filterMap_map]
    rfl

theorem runSession_writes {method : IpaSession → Except Fault (IpaSession × List SessionCall)}
    (h : p.runSession object now method = .ok (p', calls)) (hengaged : p.hlr.Engaged) :
    p.hlr.Writes p'.hlr (calls.filterMap Call.hlrWrite?) payloads := by
  obtain ⟨hsame, hwrites⟩ := runSession_hlr h
  rw [hwrites]
  exact .none hengaged hsame

theorem runHlr_writes (attempt : ConnectAttempt) (handler : HlrHandler)
    (h : p.runHlr order now (fun t => MapLink.method t attempt handler) = .ok (p', calls))
    (hengaged : p.hlr.Engaged) :
    p.hlr.Writes p'.hlr (calls.filterMap Call.hlrWrite?) (MapLink.payloadsFor handler) := by
  obtain ⟨made, hmethod, hwrites⟩ := runHlr_hlr h
  rw [hwrites]
  exact MapLink.method_writes hengaged hmethod

theorem runTask_writes {order : List ClientId} {task : Task}
    (h : p.runTask order task = .ok (p', calls)) (hengaged : p.hlr.Engaged) :
    p.hlr.Writes p'.hlr (calls.filterMap Call.hlrWrite?)
      (task.send?.toList.filterMap Send.pdu?) := by
  cases task with
  | serverSend payload client =>
    obtain ⟨tasks, rfl, rfl, -⟩ := runTask_serverSend h
    exact .none hengaged rfl
  | sessionEnqueue object frame => exact (runSession_writes h hengaged :)
  | hlrSend payload =>
    rw [runTask] at h
    exact (runHlr_writes .started (.send payload) h hengaged :)
  | hlrConnectFailed =>
    rw [runTask] at h
    exact (runHlr_writes .started (.connectFailed 0) h hengaged :)

theorem step_writes {h : Happening} (hengaged : p.hlr.Engaged)
    (hstep : p.step h = .ok (p', calls)) :
    p.hlr.Writes p'.hlr (hlrWrites ⟨p, h, calls, p'⟩) (pdusRun ⟨p, h, calls, p'⟩) := by
  obtain ⟨ops, hhandle⟩ : ∃ ops, handle { p with pending := ops } h = .ok (p', calls) := by
    unfold step at hstep
    split at hstep
    · exact ⟨p.pending, hstep⟩
    · exact ⟨_, hstep⟩
  cases h with
  | accepted result =>
    cases result with
    | failed =>
      cases hhandle
      exact .none hengaged rfl
    | connected =>
      rw [handle] at hhandle
      exact (runSession_writes hhandle hengaged :)
    | reset => cases hhandle
  | sessionRead object result now =>
    rw [handle] at hhandle
    exact (runSession_writes hhandle hengaged :)
  | sessionWritten object frame ok =>
    rw [handle] at hhandle
    exact (runSession_writes hhandle hengaged :)
  | hlrConnected socket ok =>
    rw [handle] at hhandle
    exact (runHlr_writes .started (.connected socket ok) hhandle hengaged :)
  | hlrRead socket result order now =>
    rw [handle] at hhandle
    exact (runHlr_writes .started (.read socket result) hhandle hengaged :)
  | hlrWritten socket frame ok order =>
    rw [handle] at hhandle
    exact (runHlr_writes .started (.written socket frame ok) hhandle hengaged :)
  | reconnectTimer ok attempt =>
    rw [handle] at hhandle
    exact (runHlr_writes attempt (.reconnectTimer ok) hhandle hengaged :)
  | beatTimer ok =>
    rw [handle] at hhandle
    exact (runHlr_writes .started (.beatTimer 0 ok) hhandle hengaged :)
  | task order =>
    unfold handle at hhandle
    dsimp only at hhandle
    split at hhandle
    · cases hhandle
      exact .none hengaged rfl
    · rename_i task tasks htasks
      have hran : pdusRun ⟨p, .task order, calls, p'⟩ = task.send?.toList.filterMap Send.pdu? := by
        simp only [pdusRun, ranIn, htasks]
        cases task <;> rfl
      rw [hran]
      exact (runTask_writes hhandle hengaged :)
  | tick sgsnOrder hlrOrder now =>
    obtain ⟨p₁, hsgsn, hhandle⟩ := except_bind_eq_ok.mp hhandle
    obtain ⟨p₂, hhlr, hhandle⟩ := except_bind_eq_ok.mp hhandle
    cases hhandle
    have hsame := (callProxy_hlr hhlr).trans (callProxy_hlr hsgsn)
    exact .none hengaged hsame
  | stopServer order =>
    cases hhandle
    exact .none hengaged rfl
  | stopHlr =>
    rw [handle] at hhandle
    obtain ⟨made, hmethod, hwrites⟩ := runHlr_hlr hhandle
    obtain ⟨hstopped, rfl⟩ := Prod.mk.inj (Except.ok.inj hmethod)
    rw [hlrWrites, hwrites, ← hstopped]
    exact (MapTransport.Puts.untouched hengaged rfl rfl rfl rfl).writes

end Process

/-! ## Runs -/

variable {txTimeout : Int} {cfg : MapTransportConfig} {events : List ProcessEvent} {p : Process}

/-- What has been written to the HLR, and what waits behind the front of the queue, conveys PDUs
of the tasks that have been run. -/
structure Written (cfg : MapTransportConfig) (events : List ProcessEvent) (p : Process) :
    Prop where
  config : p.hlr.cfg = cfg
  engaged : p.hlr.Engaged
  conveyed : ∃ msgs, Conveys cfg (events.flatMap pdusRun) msgs ∧
    events.flatMap hlrWrites ++ p.hlr.writeQueue.tail = msgs.map M3ua.encode

theorem Written.step {h : Happening} {calls : List Call} {p' : Process}
    (hwritten : Written cfg events p) (hstep : p.step h = .ok (p', calls)) :
    Written cfg (events ++ [⟨p, h, calls, p'⟩]) p' := by
  obtain ⟨hcfg, hengaged, msgs, hmsgs, hsofar⟩ := hwritten
  obtain ⟨hcfg', hengaged', new, hnew, hwrites⟩ := Process.step_writes hengaged hstep
  rw [hcfg] at hcfg' hnew
  -- what is cleared was to be written last
  have hall : events.flatMap hlrWrites ++
      (hlrWrites ⟨p, h, calls, p'⟩ ++ p'.hlr.writeQueue.tail) <+:
        (msgs ++ new).map M3ua.encode := by
    rw [List.map_append, ← hsofar, List.append_assoc]
    exact (List.prefix_append_right_inj _).mpr hwrites
  obtain ⟨kept, hkept, heq⟩ := List.prefix_map_iff.mp hall
  refine ⟨hcfg', hengaged', kept, ?_, ?_⟩
  · rw [List.flatMap_append, List.flatMap_singleton]
    exact (hmsgs.append hnew).of_initial hkept
  · rw [List.flatMap_append, List.flatMap_singleton, List.append_assoc]
    exact heq

theorem ProcessRun.written (hrun : ProcessRun txTimeout cfg events p) : Written cfg events p := by
  induction hrun with
  | nil => exact ⟨rfl, by simp [Process.start, MapTransport.Engaged], [], .nothing _ _, rfl⟩
  | snoc earlier op hop hs ih => exact ih.step hs

/-- The PDUs that have been passed on are PDUs that were handed over. -/
theorem pdusRun_sublist (events : List ProcessEvent) (p : Process) :
    events.flatMap pdusRun <+ (handedOver events p).filterMap Send.pdu? := by
  have hran : events.flatMap pdusRun =
      ((events.flatMap ranIn).filterMap Task.send?).filterMap Send.pdu? := by
    rw [List.filterMap_flatMap, List.filterMap_flatMap]
    rfl
  rw [hran, handedOver, List.filterMap_append]
  exact (List.sublist_append_left _ _).filterMap _

/-- The Invokes among the PDUs that were handed over. -/
theorem filterMap_pdu_invoke (sends : List Send) :
    (sends.filterMap Send.pdu?).filterMap (fun pdu => (Send.hlr pdu).invoke?) =
      sends.filterMap Send.invoke? := by
  rw [List.filterMap_filterMap]
  congr 1
  funext send
  cases send <;> rfl

theorem filterMap_handedOn {msgs : List M3uaMessage} {sent : List Bytes}
    (hown : ∀ msg ∈ msgs, isData msg = false → IsSignalling cfg msg)
    (hrelayed : msgs.filter isData = sent.map (MapTransport.wrap cfg))
    (hhlr : cfg.hlrGt.length ≤ 30) (hlocal : cfg.localGt.length ≤ 30)
    (hlen : ∀ pdu ∈ sent, pdu.length ≤ 255) : msgs.filterMap handedOn? = sent := by
  have hdata : msgs.filterMap handedOn? = (msgs.filter isData).filterMap handedOn? := by
    rw [List.filterMap_filter]
    refine List.filterMap_congr ?_
    intro msg hmem
    cases hdata : isData msg with
    | true => rfl
    | false =>
      -- signalling brings no payload
      cases hown msg hmem hdata <;> rfl
  rw [hdata, hrelayed, List.filterMap_map]
  clear hdata hrelayed hown
  induction sent with
  | nil => rfl
  | cons pdu sent ih =>
    have hfirst : (handedOn? ∘ MapTransport.wrap cfg) pdu = some pdu :=
      MapLink.wrap_handedOn hhlr hlocal (hlen pdu (List.mem_cons_self))
    rw [List.filterMap_cons, hfirst, ih fun pdu hmem => hlen pdu (List.mem_cons_of_mem _ hmem)]

/-- In every run of the process in which the clean-ups come before the transaction ids have come
round, and the client ids have not come round: the frames written to the HLR are messages of the
M3UA layer and PDUs that the proxy has handed over, wrapped, in their order and each at most once;
so the Invokes among them are some of the requests that the sessions have delivered, in their
order, converted with the ids of their number. PDUs of at most 255 bytes can be taken out of the
frames again, if the Global Titles are not too long. -/
theorem invokes_on_the_wire (hrun : ProcessRun txTimeout cfg events p)
    (haccepted : p.server.accepted < 2 ^ 64)
    (hswept : SweptInTime txTimeout (events.flatMap opsOf)) :
    ∃ (msgs : List M3uaMessage) (sent : List Bytes),
      events.flatMap hlrWrites = msgs.map M3ua.encode ∧
      (∀ msg ∈ msgs, isData msg = false → IsSignalling cfg msg) ∧
      msgs.filter isData = sent.map (MapTransport.wrap cfg) ∧
      sent <+ (handedOver events p).filterMap Send.pdu? ∧
      sent.filterMap (fun pdu => (Send.hlr pdu).invoke?) <+ invokes 0 (events.flatMap opsOf) ∧
      (cfg.hlrGt.length ≤ 30 → cfg.localGt.length ≤ 30 → (∀ pdu ∈ sent, pdu.length ≤ 255) →
        msgs.filterMap handedOn? = sent) := by
  obtain ⟨-, -, msgs, hmsgs, hwritten⟩ := ProcessRun.written hrun
  obtain ⟨started, hstarted, heq⟩ :=
    List.prefix_map_iff.mp (hwritten ▸ List.prefix_append (events.flatMap hlrWrites) _)
  obtain ⟨hown, sent, hsent, hrelayed⟩ := hmsgs.of_initial hstarted
  have hhanded := hsent.trans (pdusRun_sublist events p)
  refine ⟨started, sent, heq, hown, hrelayed, hhanded, ?_, ?_⟩
  · have hinvokes := hhanded.filterMap fun pdu => (Send.hlr pdu).invoke?
    obtain ⟨own, hfresh, hin⟩ := hrun.inside_fresh hswept
    have hclients := hrun.client_ne_zero haccepted
    rw [← hin.ops] at hclients ⊢
    rw [filterMap_pdu_invoke, handedOver, hin.sent, (hfresh.relays hclients).1] at hinvokes
    exact hinvokes
  · exact filterMap_handedOn hown hrelayed

/-- The HLR connection becomes active; the ASPUP is still being written. -/
def hlrConnects : List Happening :=
  [.reconnectTimer true .started, .hlrConnected 1 true,
    .hlrRead 1 (some [1, 0, 3, 2, 0, 0, 0, 8, 1, 0, 4, 2, 0, 0, 0, 8]) [] 0]

/-- Behind the ASPUP and the ASPAC, a purge is written. -/
theorem purge_on_the_wire :
    ∃ (events : List ProcessEvent) (p : Process) (msgs : List M3uaMessage) (sent : List Bytes),
      ProcessRun 30 {} events p ∧
      (events.flatMap hlrWrites).length = 3 ∧ events.flatMap hlrWrites = msgs.map M3ua.encode ∧
      msgs.filterMap handedOn? = sent ∧
      sent.filterMap (fun pdu => (Send.hlr pdu).invoke?) <+ invokes 0 (events.flatMap opsOf) := by
  obtain ⟨result, hplayed, haccepted, hfew, hcount, hshort⟩ : ∃ result,
      Process.played 30 {} (sgsnConnects ++ hlrConnects ++
        [.sessionRead 0 (some ([0x00, 0x07, 0xEE] ++ purge12345)) 7, .task [1],
          .hlrWritten 1 (M3ua.encode makeAspUp) true [1],
          .hlrWritten 1 (M3ua.encode (makeAspAc none)) true [1]]) = some result ∧
      result.2.server.accepted = 1 ∧ requests (result.1.flatMap opsOf) ≤ 1 ∧
      (result.1.flatMap hlrWrites).length = 3 ∧
      ∀ pdu ∈ (handedOver result.1 result.2).filterMap Send.pdu?, pdu.length ≤ 255 :=
    ⟨_, rfl, rfl, by decide +kernel, by decide +kernel, by decide +kernel⟩
  have hrun := Process.run_of_played hplayed
  have hswept : SweptInTime 30 (result.1.flatMap opsOf) := .of_few (hfew.trans (by decide))
  obtain ⟨msgs, sent, hwrites, -, -, hhanded, hinvokes, hinside⟩ :=
    invokes_on_the_wire hrun (by rw [haccepted]; decide) hswept
  refine ⟨_, _, msgs, sent, hrun, hcount, hwrites, ?_, hinvokes⟩
  exact hinside (by decide) (by decide) fun pdu hmem => hshort pdu (hhanded.subset hmem)

end GsupMapProxy
