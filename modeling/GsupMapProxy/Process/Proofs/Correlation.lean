import GsupMapProxy.Process.Proofs.Quota
import GsupMapProxy.Proxy.Proofs.Relay

/-!
# Requests and answers from end to end

Between a session and the answer to its request lie the proxy, two posted tasks and the tables of
the server. As long as the clean-ups come before the transaction ids have come round, and client
ids are not used twice, what is put in line for a session is a broadcast or the answer to an
earlier request of this very session, and no request is answered twice. What is asked of either
side, in turn, depends on nothing but what was asked on the other.
-/

namespace GsupMapProxy

open Gsup Map Misc Transport

/-- What the proxy has handed to the transports by now, in order. -/
def handedOver (events : List ProcessEvent) (p : Process) : List Send :=
  (events.flatMap ranIn ++ p.tasks).filterMap Task.send?

/-- Output `j` of call `i` is this message for the client, and answers a request of this very
client: an earlier call has forwarded it, and the transaction the message ends is the one that was
made for it then, with its id, its IMSI and its client. -/
structure RepliesTo (own : List ProxyEvent) (b i j : Nat) (data : Bytes) (client : ClientId) :
    Prop where
  earlier : b < i
  answers : Answers own b i j
  served : ∃ e eb t now g, own[i]? = some e ∧ e.outs[j]? = some (.sgsn data client) ∧
    own[b]? = some eb ∧ Forwards eb t client now g ∧ Serves e j t ∧
    e.pre.txMgr.find t = some (eb.pre.txMgr.newTransaction g.imsi client now)

/-- Whatever the proxy sends to a single client answers a request of the client. -/
theorem FreshRun.exists_repliesTo {timeout : Int} {own : List ProxyEvent} {s : Proxy}
    (hrun : FreshRun timeout own s) {i j : Nat} {e : ProxyEvent} {data : Bytes} {client : ClientId}
    (he : own[i]? = some e) (hsend : e.outs[j]? = some (.sgsn data client))
    (hclient : client ≠ 0) : ∃ b, RepliesTo own b i j data client := by
  obtain ⟨t, hserves, hreply, -⟩ := serves_of_send (hrun.effect he).2 hsend hclient
  obtain ⟨tx, data', htx, hdata⟩ := replyTo_client hreply
  cases hdata
  obtain ⟨op, b, horigin⟩ := hrun.exists_origin he htx
  obtain ⟨eb, heb, client', now, g, hforwards, hrecord, -⟩ := horigin.2.1
  dsimp only at hrecord
  have hclient' : tx.clientContext = client' := congrArg (·.clientContext) hrecord
  rw [← hclient'] at hforwards hrecord
  exact ⟨b, horigin.1, ⟨t, (tx, op), e, horigin, he, hserves⟩, e, eb, t, now, g, he, hsend, heb,
    hforwards, hserves, htx.trans (congrArg some hrecord)⟩

/-! ## Answers and requests of the sessions -/

variable {txTimeout : Int} {cfg : MapTransportConfig} {events : List ProcessEvent} {p : Process}

/-- As long as ids are not reused, the proxy goes through a run in which they are fresh. -/
theorem ProcessRun.inside_fresh (hrun : ProcessRun txTimeout cfg events p)
    (hswept : SweptInTime txTimeout (events.flatMap opsOf)) :
    ∃ own, FreshRun txTimeout own p.proxy ∧ Inside events p own p.proxy := by
  obtain ⟨own, hown, hin⟩ := ProcessRun.inside hrun
  rw [← hin.ops] at hswept
  exact ⟨own, ProxyRun.fresh hown hswept, hin⟩

/-- A frame posted for a session holds a message that was handed over for it or for all. -/
theorem ProcessRun.posted_from (hrun : ProcessRun txTimeout cfg events p)
    (haccepted : p.server.accepted < 2 ^ 64) {object : Nat} {frame : Bytes}
    (h : (object, frame) ∈ events.flatMap postedIn) :
    ∃ data client, Task.serverSend data client ∈ events.flatMap ranIn ∧
      Ipa.encode Ipa.kStreamGsup data = .ok frame ∧ idsOf object client = true := by
  induction hrun with
  | nil => cases h
  | @snoc events s s' outs earlier op hop hs ih =>
    have hsound := ProcessRun.sound earlier
    have hbefore : s.server.accepted < 2 ^ 64 :=
      Nat.lt_of_le_of_lt (Process.step_known hsound hs).1 haccepted
    rw [List.flatMap_append, List.flatMap_singleton] at h ⊢
    rcases List.mem_append.mp h with h | h
    · obtain ⟨data, client, hran, hframe, hids⟩ := ih hbefore h
      exact ⟨data, client, List.mem_append_left _ hran, hframe, hids⟩
    · obtain ⟨order, data, client, rfl, hran, hrecipient, hframe⟩ := mem_postedIn h
      refine ⟨data, client, List.mem_append_right _ hran, hframe, ?_⟩
      -- otherwise the session would not be among the recipients
      have hcount := count_recipients object hsound hbefore hop.2.1 client
      by_contra hnot
      rw [if_neg hnot, Nat.le_zero, List.count_eq_zero] at hcount
      exact hcount hrecipient

/-- In every run of the process in which the clean-ups come before the transaction ids have come
round, and the client ids have not come round: whatever is put in line for a session, written or
not, is a broadcast or answers an earlier request that was delivered under the id of this session,
through the transaction made for it. A message answers one request only, and no request is answered
twice. -/
theorem sessions_get_own_answers (hrun : ProcessRun txTimeout cfg events p)
    (haccepted : p.server.accepted < 2 ^ 64)
    (hswept : SweptInTime txTimeout (events.flatMap opsOf)) :
    ∃ own, FreshRun txTimeout own p.proxy ∧ own.map (·.op) = events.flatMap opsOf ∧
      own.flatMap (·.outs) = handedOver events p ∧
      (∀ object frame, (object, frame) ∈
        (events.flatMap ranIn ++ p.tasks).filterMap Task.enqueued? →
        ∃ data, Ipa.encode Ipa.kStreamGsup data = .ok frame ∧
          (Send.sgsn data 0 ∈ handedOver events p ∨
            ∃ b i j, RepliesTo own b i j data (UInt64.ofNat (object + 1)))) ∧
      (∀ i j e data client, own[i]? = some e → e.outs[j]? = some (.sgsn data client) →
        client ≠ 0 → ∃ b, RepliesTo own b i j data client) ∧
      (∀ b b' i j, Answers own b i j → Answers own b' i j → b = b') ∧
      ∀ b i j i' j', Answers own b i j → Answers own b i' j' → i = i' ∧ j = j' := by
  obtain ⟨own, hfresh, hin⟩ := hrun.inside_fresh hswept
  have hsent : own.flatMap (·.outs) = handedOver events p := hin.sent.symm
  refine ⟨own, hfresh, hin.ops, hsent, ?_, ?_, ?_, ?_⟩
  · intro object frame h
    rw [hin.enqueued] at h
    obtain ⟨data, client, hran, hframe, hids⟩ := hrun.posted_from haccepted h
    have hmem : Send.sgsn data client ∈ handedOver events p := by
      rw [handedOver, List.filterMap_append]
      exact List.mem_append_left _ (List.mem_filterMap.mpr ⟨_, hran, rfl⟩)
    refine ⟨data, hframe, ?_⟩
    by_cases hzero : client = 0
    · subst hzero
      exact .inl hmem
    · obtain rfl := (of_decide_eq_true hids).resolve_right hzero
      rw [← hsent] at hmem
      obtain ⟨k, hk⟩ := List.mem_iff_getElem?.mp hmem
      obtain ⟨i, j, e, he, hsend, -⟩ := exists_getElem?_flatMap hk
      obtain ⟨b, hreplies⟩ := hfresh.exists_repliesTo he hsend hzero
      exact .inr ⟨b, i, j, hreplies⟩
  · intro i j e data client he hsend hclient
    exact hfresh.exists_repliesTo he hsend hclient
  · intro b b' i j h h'
    exact h.request_unique h'
  · intro b i j i' j' h h'
    exact hfresh.answer_unique h h'

/-- A purge is refused when the HLR connection goes down: what is put in line for the session
answers the purge. -/
theorem refused_purge_correlated :
    ∃ events p own, ProcessRun 30 {} events p ∧ own.map (·.op) = events.flatMap opsOf ∧
      (0, [0x00, 0x07, 0xEE, 0x0d] ++ purge12345.drop 1) ∈
        (events.flatMap ranIn ++ p.tasks).filterMap Task.enqueued? ∧
      ∃ data b i j, RepliesTo own b i j data 1 := by
  obtain ⟨result, hplayed, haccepted, hfew, ⟨pdu, hsent⟩, hqueued⟩ : ∃ result,
      Process.played 30 {} (sgsnConnects ++
        [.reconnectTimer true .started, .hlrConnected 1 true,
          .sessionRead 0 (some ([0x00, 0x07, 0xEE] ++ purge12345)) 7, .hlrRead 1 none [1] 8,
          .task [1], .task [1]]) = some result ∧
      result.2.server.accepted = 1 ∧ requests (result.1.flatMap opsOf) ≤ 1 ∧
      (∃ pdu, handedOver result.1 result.2 = [.hlr pdu, .sgsn (0x0d :: purge12345.drop 1) 1]) ∧
      (0, [0x00, 0x07, 0xEE, 0x0d] ++ purge12345.drop 1) ∈
        (result.1.flatMap ranIn ++ result.2.tasks).filterMap Task.enqueued? :=
    ⟨_, rfl, rfl, by decide +kernel, ⟨_, rfl⟩, by decide +kernel⟩
  have hrun := Process.run_of_played hplayed
  have hswept : SweptInTime 30 (result.1.flatMap opsOf) := .of_few (hfew.trans (by decide))
  obtain ⟨own, -, hops, -, hframes, -⟩ :=
    sessions_get_own_answers hrun (by rw [haccepted]; decide) hswept
  obtain ⟨data, -, hall | ⟨b, i, j, hreplies⟩⟩ := hframes 0 _ hqueued
  · rw [hsent] at hall
    simp at hall
  · exact ⟨_, _, own, hrun, hops, hqueued, data, b, i, j, hreplies⟩

/-! ## Requests -/

/-- No session has the id 0. -/
theorem ProcessRun.client_ne_zero (hrun : ProcessRun txTimeout cfg events p)
    (haccepted : p.server.accepted < 2 ^ 64) (payload : Bytes) (now : TimePoint) :
    Op.gsup payload 0 now ∉ events.flatMap opsOf := by
  intro hmem
  obtain ⟨e, he, hmem⟩ := List.mem_flatMap.mp hmem
  have hcalls : ∀ time order, Op.gsup payload 0 now ∉ e.outs.filterMap (Call.op? time order) := by
    intro time order hmem
    obtain ⟨call, hcall, hop⟩ := List.mem_filterMap.mp hmem
    cases call with
    | session object call =>
      have hobject := ProcessRun.known hrun e he object call hcall
      cases call with
      | onGsup payload' =>
        -- the id of the session is the number of its accept
        have hid : UInt64.ofNat (object + 1) = 0 := by
          simp only [Call.op?, Option.some.injEq, Op.gsup.injEq] at hop
          exact hop.2.1
        have hnat := congrArg UInt64.toNat hid
        rw [UInt64.toNat_ofNat', Nat.mod_eq_of_lt (by omega)] at hnat
        cases hnat
      | asyncRead | asyncWrite _ | closeSocket | onReady | onDisconnect => cases hop
    | hlr call => cases call <;> cases hop
  unfold opsOf at hmem
  split at hmem
  · simp at hmem
  · exact hcalls _ _ hmem

/-- In every run of the process in which the clean-ups come before the transaction ids have come
round, and the client ids have not come round: the Invokes handed over for the HLR are the
requests that the sessions have delivered, converted one by one with the ids of their number, and
the messages handed over for all sessions are the Invokes that the HLR has delivered, converted
one by one. -/
theorem requests_relayed_in_order (hrun : ProcessRun txTimeout cfg events p)
    (haccepted : p.server.accepted < 2 ^ 64)
    (hswept : SweptInTime txTimeout (events.flatMap opsOf)) :
    (handedOver events p).filterMap Send.invoke? = invokes 0 (events.flatMap opsOf) ∧
      (handedOver events p).filterMap Send.broadcast? =
        (events.flatMap opsOf).filterMap Op.broadcast? := by
  obtain ⟨own, hfresh, hin⟩ := hrun.inside_fresh hswept
  have hclients := hrun.client_ne_zero haccepted
  rw [← hin.ops] at hclients ⊢
  rw [handedOver, hin.sent]
  exact hfresh.relays hclients

/-- Two requests of a session go out with the ids 1 and 2. -/
theorem two_purges_relayed :
    ∃ events p, ProcessRun 30 {} events p ∧
      ((handedOver events p).filterMap Send.invoke?).map
        (fun m => (m.transactionId, m.invokeId, m.operation)) =
          [(1, 1, .purgeMS), (2, 2, .purgeMS)] := by
  obtain ⟨result, hplayed, haccepted, hfew, hinvokes⟩ : ∃ result,
      Process.played 30 {} (sgsnConnects ++
        [.sessionRead 0 (some ([0x00, 0x07, 0xEE] ++ purge12345)) 7,
          .sessionRead 0 (some ([0x00, 0x07, 0xEE] ++ purge12345)) 8]) = some result ∧
      result.2.server.accepted = 1 ∧ requests (result.1.flatMap opsOf) ≤ 2 ∧
      (invokes 0 (result.1.flatMap opsOf)).map
        (fun m => (m.transactionId, m.invokeId, m.operation)) =
          [(1, 1, .purgeMS), (2, 2, .purgeMS)] :=
    ⟨_, rfl, rfl, by decide +kernel, by decide +kernel⟩
  have hrun := Process.run_of_played hplayed
  have hswept : SweptInTime 30 (result.1.flatMap opsOf) := .of_few (hfew.trans (by decide))
  refine ⟨_, _, hrun, ?_⟩
  rw [(requests_relayed_in_order hrun (by rw [haccepted]; decide) hswept).1]
  exact hinvokes

end GsupMapProxy
