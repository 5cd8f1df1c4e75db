import GsupMapProxy.Proxy.Proofs.Tables

/-!
# Replies to the SGSNs

Which request a GSUP message answers is read off the run: the message was sent for the
transaction a call ended, and that transaction goes back to the last request that was forwarded
under its id.
-/

namespace GsupMapProxy

open Gsup Map Misc

/-- The event is a request `g` of `client` that was forwarded to the HLR under the id `t`. -/
structure Forwards (e : ProxyEvent) (t : UInt32) (client : ClientId) (now : TimePoint)
    (g : GsupMessage) : Prop where
  request : ∃ payload, e.op = .gsup payload client now ∧ Gsup.decode payload = .ok g
  initiated : isHlrInitiatedGsupType g.type = false
  sent : ∃ b, e.outs = [.hlr b]
  tid : t = e.pre.txMgr.peekTid

/-- Both tables at `t`. -/
def Proxy.pending (p : Proxy) (t : UInt32) : Option (PendingTransaction × MapOperation) :=
  (p.txMgr.find t).bind fun tx => (p.pendingOps.lookup t).map fun op => (tx, op)

/-- The event forwards a request that is filed under `t` with this record and operation. -/
def Opens (e : ProxyEvent) (t : UInt32) (v : PendingTransaction × MapOperation) : Prop :=
  ∃ client now g, Forwards e t client now g ∧
    v.1 = e.pre.txMgr.newTransaction g.imsi client now ∧ requestOperation g.type = some v.2

/-- Output `j` of the event is the reply to transaction `t`. -/
def Serves (e : ProxyEvent) (j : Nat) (t : UInt32) : Prop :=
  ((e.pre.closedBy e.op).filter fun t => (e.pre.replyTo e.op t).isSome)[j]? = some t

/-- Output `j` of event `i` answers the request of event `b`. -/
def Answers (events : List ProxyEvent) (b i j : Nat) : Prop :=
  ∃ t v e, Origin Proxy.pending Opens events t v b i ∧ events[i]? = some e ∧ Serves e j t

/-! ## One event -/

section Pending

variable {p : Proxy} {t : UInt32} {tx : PendingTransaction} {op : MapOperation}

theorem Proxy.pending_eq_some :
    p.pending t = some (tx, op) ↔ p.txMgr.find t = some tx ∧ p.pendingOps.lookup t = some op := by
  unfold pending
  cases p.txMgr.find t <;> cases p.pendingOps.lookup t <;> simp

theorem Proxy.Sync.pending_of_find (hsync : p.Sync) (h : p.txMgr.find t = some tx) :
    ∃ op, p.pending t = some (tx, op) := by
  obtain ⟨op, hop⟩ := Finmap.mem_iff.mp ((hsync.keys t).mp (mem_of_lookup h))
  exact ⟨op, pending_eq_some.mpr ⟨h, hop⟩⟩

theorem Proxy.pending_of_find_none (h : p.txMgr.find t = none) : p.pending t = none := by
  rw [pending, h]
  rfl

end Pending

namespace FreshRun

variable {timeout : Int} {events : List ProxyEvent} {s : Proxy} {i : Nat}
  {e : ProxyEvent}

/-- Before every event of a run the tables are in step, and the event has one of the two
effects. -/
theorem effect (hrun : FreshRun timeout events s) (he : events[i]? = some e) :
    e.pre.Sync ∧ Proxy.SgsnEffect e.pre e.op e.post e.outs := by
  obtain ⟨hop, hstep⟩ := Run.event hrun he
  have hsync : e.pre.Sync := FreshRun.sync (Run.before hrun he)
  exact ⟨hsync, Proxy.sgsnEffect_of_step hsync hop hstep⟩

end FreshRun

theorem tracks_of_effect {e : ProxyEvent}
    (heff : Proxy.SgsnEffect e.pre e.op e.post e.outs) : Tracks Proxy.pending Opens e := by
  cases heff with
  | opened payload client now g mapOp b hop hdec hreq hmap hfresh hfind hlookup houts =>
    constructor
    · rintro t ⟨tx, op⟩ ⟨client', now', g', ⟨⟨payload', hop', hdec'⟩, -, -, ht⟩, htx, hop''⟩
      rw [hop] at hop'
      cases hop'
      rw [hdec] at hdec'
      cases hdec'
      rw [Proxy.pending_eq_some, hfind t, hlookup t, if_pos ht, if_pos ht, ← hmap, hop'']
      exact ⟨congrArg some htx.symm, rfl⟩
    · rintro t ⟨tx, op⟩ hpending
      rw [Proxy.pending_eq_some, hfind t, hlookup t] at hpending
      by_cases ht : t = e.pre.txMgr.peekTid
      · rw [if_pos ht, if_pos ht] at hpending
        refine .inl ⟨client, now, g, ⟨⟨payload, hop, hdec⟩, hreq, ⟨b, houts⟩, ht⟩, ?_, ?_⟩
        · exact (Option.some.inj hpending.1).symm
        · rw [hmap, hpending.2]
      · rw [if_neg ht, if_neg ht] at hpending
        exact .inr (Proxy.pending_eq_some.mpr hpending)
  | closed hrefused hfind hlookup houts =>
    constructor
    · rintro t v ⟨client, now, g, ⟨⟨payload, hop, hdec⟩, hreq, ⟨b, hb⟩, -⟩, -, -⟩
      have hnone := (hrefused payload client now g hop hdec hreq).2
      rw [hnone] at hb
      cases hb
    · rintro t ⟨tx, op⟩ hpending
      rw [Proxy.pending_eq_some, hfind t, hlookup t] at hpending
      by_cases ht : t ∈ e.pre.closedBy e.op
      · rw [if_pos ht] at hpending
        cases hpending.1
      · rw [if_neg ht, if_neg ht] at hpending
        exact .inr (Proxy.pending_eq_some.mpr hpending)

/-- A forwarded request fixes the id and the record it is filed with. -/
theorem Opens.unique {e : ProxyEvent} {t t' : UInt32}
    {v v' : PendingTransaction × MapOperation} (h : Opens e t v) (h' : Opens e t' v') :
    t = t' ∧ v = v' := by
  obtain ⟨client, now, g, ⟨⟨payload, hop, hdec⟩, -, -, ht⟩, htx, hmap⟩ := h
  obtain ⟨client', now', g', ⟨⟨payload', hop', hdec'⟩, -, -, ht'⟩, htx', hmap'⟩ := h'
  rw [hop] at hop'
  cases hop'
  rw [hdec] at hdec'
  cases hdec'
  refine ⟨ht.trans ht'.symm, Prod.ext (htx.trans htx'.symm) ?_⟩
  rw [hmap] at hmap'
  exact Option.some.inj hmap'

/-- The transactions a call ends are pending before it and visited once. -/
theorem closedBy_live {p : Proxy} {op : Op} (hsync : p.Sync) (hop : op.Possible p) :
    (p.closedBy op).Nodup ∧ ∀ t ∈ p.closedBy op, t ∈ p.txMgr.transactions := by
  cases op with
  | gsup payload client now => exact ⟨List.nodup_nil, by simp [Proxy.closedBy]⟩
  | map payload now =>
    simp only [Proxy.closedBy]
    split
    · exact ⟨List.nodup_nil, by simp⟩
    · split
      · exact ⟨List.nodup_nil, by simp⟩
      · rename_i h
        rw [not_or, not_not] at h
        exact ⟨List.nodup_singleton _, by simpa using h.2⟩
  | nack order => exact ⟨hop.1, fun t ht => (hsync.keys t).mpr ((hop.2 t).mp ht)⟩
  | expireSgsn order now =>
    exact ⟨hop.1.filter _, fun t ht => (hop.2 t).mp (List.mem_of_mem_filter ht)⟩
  | expireHlr order timeout now => exact ⟨List.nodup_nil, by simp [Proxy.closedBy]⟩

/-- A reply of NAK or expiry goes to the client of the record. -/
theorem sendReturnError_eq_some {t : UInt32} {op : MapOperation} {tx : PendingTransaction}
    {send : Send} (h : Proxy.sendReturnError t op tx = some send) :
    ∃ data, send = .sgsn data tx.clientContext := by
  unfold Proxy.sendReturnError at h
  dsimp only at h
  split at h
  · cases h
    exact ⟨_, rfl⟩
  · cases h

/-- Every reply goes to the client of the transaction it is for. -/
theorem replyTo_client {p : Proxy} {op : Op} {t : UInt32} {send : Send}
    (h : p.replyTo op t = some send) :
    ∃ tx data, p.txMgr.find t = some tx ∧ send = .sgsn data tx.clientContext := by
  have herror : ∀ {send}, p.errorReply t = some send →
      ∃ tx data, p.txMgr.find t = some tx ∧ send = .sgsn data tx.clientContext := by
    intro send h
    unfold Proxy.errorReply at h
    split at h
    · rename_i mapOp tx _ htx
      obtain ⟨data, rfl⟩ := sendReturnError_eq_some h
      exact ⟨tx, data, htx, rfl⟩
    · cases h
  unfold Proxy.replyTo at h
  split at h
  · split at h
    · rename_i m tx _ htx
      unfold Proxy.answerReply at h
      split at h
      · cases h
        exact ⟨tx, _, htx, rfl⟩
      · cases h
    · cases h
  · exact herror h
  · exact herror h
  · cases h

/-- A client is only ever written to for a transaction the call ends. -/
theorem serves_of_send {e : ProxyEvent}
    (heff : Proxy.SgsnEffect e.pre e.op e.post e.outs) {j : Nat} {data : Bytes}
    {client : ClientId} (hsend : e.outs[j]? = some (.sgsn data client)) (hclient : client ≠ 0) :
    ∃ t, Serves e j t ∧ e.pre.replyTo e.op t = some (.sgsn data client) ∧
      e.post.txMgr.find t = none := by
  have hmem := List.mem_of_getElem? hsend
  cases heff with
  | opened payload client now g mapOp b hop hdec hreq hmap hfresh hfind hlookup houts =>
    rw [houts] at hmem
    simp at hmem
  | closed hrefused hfind hlookup houts =>
    rcases houts with houts | ⟨-, hzero⟩
    · rw [houts, getElem?_filterMap, Option.bind_eq_some_iff] at hsend
      obtain ⟨t, ht, hreply⟩ := hsend
      refine ⟨t, ht, hreply, ?_⟩
      rw [hfind t, if_pos (List.mem_of_mem_filter (List.mem_of_getElem? ht))]
    · exact absurd (hzero data client hmem) hclient

/-- The other way round: the transaction served at `j` ends, and its reply is output `j`. -/
theorem Serves.closes {e : ProxyEvent}
    (heff : Proxy.SgsnEffect e.pre e.op e.post e.outs) {j : Nat} {t : UInt32}
    (h : Serves e j t) :
    e.post.txMgr.find t = none ∧ e.outs[j]? = e.pre.replyTo e.op t := by
  have hmem : t ∈ e.pre.closedBy e.op := List.mem_of_mem_filter (List.mem_of_getElem? h)
  cases heff with
  | opened payload client now g mapOp b hop hdec hreq hmap hfresh hfind hlookup houts =>
    rw [hop] at hmem
    cases hmem
  | closed hrefused hfind hlookup houts =>
    refine ⟨by rw [hfind t, if_pos hmem], ?_⟩
    rcases houts with houts | ⟨hnil, -⟩
    · rw [houts, getElem?_filterMap, h]
      rfl
    · rw [hnil] at hmem
      cases hmem

theorem Serves.position_unique {e : ProxyEvent} (hsync : e.pre.Sync)
    (hop : e.op.Possible e.pre) {j j' : Nat} {t : UInt32} (h : Serves e j t)
    (h' : Serves e j' t) : j = j' := by
  have hnodup := (closedBy_live hsync hop).1.filter fun t => (e.pre.replyTo e.op t).isSome
  exact (List.getElem?_inj (List.getElem?_eq_some_iff.mp h).1 hnodup).mp (h.trans h'.symm)

/-! ## Whole runs -/

section Runs

variable {timeout : Int} {events : List ProxyEvent} {s : Proxy}

theorem FreshRun.tracks (hrun : FreshRun timeout events s) :
    ∀ e ∈ events, Tracks Proxy.pending Opens e := by
  intro e he
  obtain ⟨i, hi⟩ := List.mem_iff_getElem?.mp he
  exact tracks_of_effect (hrun.effect hi).2

/-- A pending transaction goes back to a forwarded request. -/
theorem FreshRun.exists_origin (hrun : FreshRun timeout events s) {i : Nat}
    {e : ProxyEvent} (he : events[i]? = some e) {t : UInt32} {tx : PendingTransaction}
    (htx : e.pre.txMgr.find t = some tx) :
    ∃ op b, Origin Proxy.pending Opens events t (tx, op) b i := by
  obtain ⟨op, hpending⟩ := (hrun.effect he).1.pending_of_find htx
  obtain ⟨b, hb⟩ := Run.exists_origin_before hrun (fun _ => rfl) hrun.tracks he hpending
  exact ⟨op, b, hb⟩

/-- An answer has one request. -/
theorem Answers.request_unique {b b' i j : Nat} (h : Answers events b i j)
    (h' : Answers events b' i j) : b = b' := by
  obtain ⟨t, v, e, horigin, he, hserves⟩ := h
  obtain ⟨t', v', e', horigin', he', hserves'⟩ := h'
  rw [he] at he'
  cases he'
  rw [Serves, hserves] at hserves'
  cases hserves'
  exact horigin.unique horigin'

/-- A request has one answer. -/
theorem FreshRun.answer_unique (hrun : FreshRun timeout events s) {b i j i' j' : Nat}
    (h : Answers events b i j) (h' : Answers events b i' j') : i = i' ∧ j = j' := by
  obtain ⟨t, v, e, horigin, he, hserves⟩ := h
  obtain ⟨t', v', e', horigin', he', hserves'⟩ := h'
  -- both transactions were opened by event `b`, so they are the same one
  obtain ⟨eb, heb, hopen⟩ := horigin.2.1
  obtain ⟨eb', heb', hopen'⟩ := horigin'.2.1
  rw [heb] at heb'
  cases heb'
  obtain ⟨rfl, rfl⟩ := hopen.unique hopen'
  obtain ⟨hsync, heff⟩ := hrun.effect he
  have hgone := Proxy.pending_of_find_none (hserves.closes heff).1
  have hgone' := Proxy.pending_of_find_none (hserves'.closes (hrun.effect he').2).1
  obtain rfl := horigin.removed_once horigin' he hgone he' hgone'
  rw [he] at he'
  cases he'
  exact ⟨rfl, hserves.position_unique hsync (Run.event hrun he).1.1 hserves'⟩

/-- Every GSUP message to a client answers an earlier request which that client made and which
was forwarded to the HLR; the request is determined by the message, and no request is answered
twice. In particular an answer of the HLR for an id that is not pending (any more) sends
nothing. -/
theorem replies_reach_own_client_at_most_once (hrun : FreshRun timeout events s) :
    (∀ (i j : Nat) (e : ProxyEvent) (data : Bytes) (client : ClientId), events[i]? = some e →
      e.outs[j]? = some (.sgsn data client) → client ≠ 0 →
      ∃ b eb t now g, Answers events b i j ∧ b < i ∧ events[b]? = some eb ∧
        Forwards eb t client now g) ∧
    (∀ b b' i j, Answers events b i j → Answers events b' i j → b = b') ∧
    (∀ b i j i' j', Answers events b i j → Answers events b i' j' → i = i' ∧ j = j') ∧
    ∀ (i : Nat) (e : ProxyEvent) (payload : Bytes) (now : TimePoint) (m : MapMessage),
      events[i]? = some e → e.op = .map payload now → Map.decode payload = .ok m →
      m.component ≠ .invoke → m.transactionId ∉ e.pre.txMgr.transactions → e.outs = [] := by
  refine ⟨?_, ?_, ?_, ?_⟩
  · intro i j e data client he hsend hclient
    obtain ⟨t, hserves, hreply, -⟩ := serves_of_send (hrun.effect he).2 hsend hclient
    obtain ⟨tx, data', htx, hdata⟩ := replyTo_client hreply
    cases hdata
    obtain ⟨op, b, horigin⟩ := hrun.exists_origin he htx
    obtain ⟨eb, heb, client', now, g, hforwards, hrecord, -⟩ := horigin.2.1
    have hclient' : tx.clientContext = client' := congrArg (·.clientContext) hrecord
    rw [hclient']
    exact ⟨b, eb, t, now, g, ⟨t, (tx, op), e, horigin, he, hserves⟩, horigin.1, heb, hforwards⟩
  · intro b b' i j h h'
    exact h.request_unique h'
  · intro b i j i' j' h h'
    exact hrun.answer_unique h h'
  · intro i e payload now m he hop hdec hinv hnone
    have hstep := (Run.event hrun he).2
    have hfind : e.pre.txMgr.find m.transactionId = none := Finmap.lookup_eq_none.mpr hnone
    rw [hop] at hstep
    simp only [Proxy.step, Proxy.handleMapPayload, hdec, if_neg hinv, Proxy.handleMapAnswer_eq,
      hfind, Except.ok.injEq, Prod.mk.injEq] at hstep
    exact hstep.2.symm

end Runs

/-- The HLR's ReturnResult to a PurgeMS with transaction id 1 and invoke id 1. -/
def purgeAnswer : Bytes :=
  [0x64, 0x14, 0x49, 0x04, 0x00, 0x00, 0x00, 0x01, 0x6c, 0x0c, 0xa2, 0x0a, 0x02, 0x01, 0x01, 0x30,
    0x05, 0x02, 0x01, 0x43, 0x30, 0x00]

theorem purge_reply_reaches_client :
    ∃ (events : List ProxyEvent) (s : Proxy), FreshRun 30 events s ∧
      ∃ b eb t now g, Answers events b 1 0 ∧ b < 1 ∧ events[b]? = some eb ∧
        Forwards eb t 7 now g := by
  obtain ⟨e, -, hrequest⟩ := freshRun_purgePending
  obtain ⟨s, data, hanswer⟩ :
      ∃ s data, purgePending.step (.map purgeAnswer 0) = .ok (s, [.sgsn data 7]) := ⟨_, _, rfl⟩
  have hrun := hrequest.snoc (Op.map purgeAnswer 0) ⟨trivial, trivial⟩ hanswer
  exact ⟨_, s, hrun,
    (replies_reach_own_client_at_most_once hrun).1 1 0 _ data 7 rfl rfl (by decide)⟩

end GsupMapProxy
