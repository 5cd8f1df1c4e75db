import GsupMapProxy.Proxy.Proofs.Replies

/-!
# Exactly which transactions NAK and expiry answer

`nackAllPendingTransactions` goes through the operations and takes the transactions out of the
other table, `expireSgsnTransactions` lets the transaction manager erase while it iterates and
goes through what that returns. Neither skips an entry nor handles one twice, and the order of the
hash maps shows only in the order of the messages.
-/

namespace GsupMapProxy

open Gsup Map Misc

/-! ## What is to be sent -/

/-- The message tells the client of `tx` that its request, which is of type `type`, has failed. -/
def ReportsError (tx : PendingTransaction) (type : MessageType) (send : Send) : Prop :=
  ∃ data errorType, send = .sgsn data tx.clientContext ∧ expectedGsupError type = .ok errorType ∧
    Gsup.decode data = .ok { type := errorType, imsi := tx.imsi }

/-- In the run, `tx` was opened under `t` by a request of type `type`, and it is still pending. -/
def Requested (events : List ProxyEvent) (t : UInt32) (tx : PendingTransaction)
    (type : MessageType) : Prop :=
  ∃ op b e client now g, Origin Proxy.pending Opens events t (tx, op) b events.length ∧
    events[b]? = some e ∧ Forwards e t client now g ∧ g.type = type

/-- The call answers and ends the transactions that are due and no others: it sends one message
for each of them whose IMSI has at most 15 digits, and nothing else, takes them all out of both
tables and leaves everything else alone. -/
structure AnswersExactly (events : List ProxyEvent) (s : Proxy) (due : UInt32 → Prop) (s' : Proxy)
    (outs : List Send) : Prop where
  replies : ∃ served : List UInt32, served.Nodup ∧
    (∀ t, t ∈ served ↔ due t ∧ ∃ tx, s.txMgr.find t = some tx ∧ tx.imsi.length ≤ 15) ∧
    List.Forall₂ (fun t send => ∃ tx type, s.txMgr.find t = some tx ∧
      Requested events t tx type ∧ ReportsError tx type send) served outs
  ended : ∀ t, due t → t ∉ s'.txMgr.transactions ∧ t ∉ s'.pendingOps
  kept : ∀ t, ¬ due t → s'.txMgr.find t = s.txMgr.find t ∧
    s'.pendingOps.lookup t = s.pendingOps.lookup t
  hlrTx : s'.hlrTx = s.hlrTx

/-- The transaction has been waiting for longer than the timeout, which is in seconds. -/
def Proxy.Overdue (s : Proxy) (now : TimePoint) (t : UInt32) : Prop :=
  ∃ tx, s.txMgr.find t = some tx ∧ now - tx.createdAt > s.txMgr.timeout * 1000000000

/-! ## One transaction -/

theorem gsupErrorType_of_request {type : MessageType} {op : MapOperation}
    (h : requestOperation type = some op) : gsupErrorType op = expectedGsupError type := by
  cases type <;> cases h <;> rfl

/-- The error for a transaction, as a GSUP message. -/
theorem mapToGsup_returnError {t : UInt32} {op : MapOperation} {imsi : Str}
    {type errorType : MessageType} (hmap : requestOperation type = some op)
    (herror : expectedGsupError type = .ok errorType) :
    mapToGsup { transactionId := t, operation := op, component := .returnError, imsi := imsi } =
      .ok { type := errorType, imsi := imsi } := by
  rw [mapToGsup, if_pos rfl]
  dsimp only
  rw [gsupErrorType_of_request hmap, herror]
  rfl

/-- A pending transaction is answered exactly if the GSUP encoder takes its IMSI. -/
theorem errorReply_spec {s : Proxy} (hsync : s.Sync) {t : UInt32} {tx : PendingTransaction}
    {op : MapOperation} {type : MessageType} (hpending : s.pending t = some (tx, op))
    (hmap : requestOperation type = some op) :
    (tx.imsi.length ≤ 15 ∧ ∃ send, s.errorReply t = some send ∧ ReportsError tx type send) ∨
      (15 < tx.imsi.length ∧ s.errorReply t = none) := by
  obtain ⟨htx, hop⟩ := Proxy.pending_eq_some.mp hpending
  obtain ⟨errorType, herror⟩ : ∃ errorType, expectedGsupError type = .ok errorType := by
    cases type <;> cases hmap <;> exact ⟨_, rfl⟩
  have hfits : (∃ data, Gsup.encode { type := errorType, imsi := tx.imsi } = .ok data) ↔
      tx.imsi.length ≤ 15 := by
    rw [encode_succeeds]
    constructor
    · intro h
      exact h.imsi.2
    · intro h
      exact ⟨⟨hsync.imsis t tx htx, h⟩, by simp, by simp [Fits], by simp [Fits], by simp⟩
  cases hencode : Gsup.encode { type := errorType, imsi := tx.imsi } with
  | ok data =>
    have hreply : s.errorReply t = some (.sgsn data tx.clientContext) := by
      simp only [Proxy.errorReply, hop, htx, Proxy.sendReturnError,
        mapToGsup_returnError hmap herror, except_ok_bind, hencode]
    refine .inl ⟨hfits.mp ⟨data, hencode⟩, _, hreply, data, errorType, rfl, herror, ?_⟩
    exact Gsup.decode_of_encode hencode ⟨by simp, by simp⟩
  | error e =>
    have hreply : s.errorReply t = none := by
      simp only [Proxy.errorReply, hop, htx, Proxy.sendReturnError,
        mapToGsup_returnError hmap herror, except_ok_bind, hencode]
    refine .inr ⟨?_, hreply⟩
    by_contra hle
    obtain ⟨data, hdata⟩ := hfits.mpr (Nat.le_of_not_lt hle)
    rw [hencode] at hdata
    cases hdata

variable {timeout : Int} {events : List ProxyEvent} {s : Proxy}

/-- Every pending transaction has its request in the run. -/
theorem FreshRun.requested (hrun : FreshRun timeout events s) {t : UInt32}
    {tx : PendingTransaction} (htx : s.txMgr.find t = some tx) :
    ∃ op type, s.pending t = some (tx, op) ∧ requestOperation type = some op ∧
      Requested events t tx type := by
  obtain ⟨op, hpending⟩ := hrun.sync.pending_of_find htx
  obtain ⟨b, horigin⟩ := Run.exists_origin hrun (fun _ => rfl) hrun.tracks hpending
  obtain ⟨e, he, client, now, g, hforwards, -, hmap⟩ := horigin.2.1
  exact ⟨op, g.type, hpending, hmap, op, b, e, client, now, g, horigin, he, hforwards, rfl⟩

/-! ## The calls -/

/-- A call that ends the transactions `ids` and sends their error replies. -/
theorem answersExactly_of_ids (hrun : FreshRun timeout events s) {due : UInt32 → Prop} {s' : Proxy}
    {outs : List Send} {ids : List UInt32} (hnodup : ids.Nodup)
    (hids : ∀ t, t ∈ ids ↔ due t ∧ t ∈ s.txMgr.transactions)
    (houts : outs = ids.filterMap s.errorReply)
    (hfind : ∀ t, s'.txMgr.find t = if t ∈ ids then none else s.txMgr.find t)
    (hlookup : ∀ t, s'.pendingOps.lookup t = if t ∈ ids then none else s.pendingOps.lookup t)
    (hhlr : s'.hlrTx = s.hlrTx) : AnswersExactly events s due s' outs := by
  have hsync := hrun.sync
  refine ⟨⟨ids.filter fun t => (s.errorReply t).isSome, hnodup.filter _, ?_, ?_⟩, ?_, ?_, hhlr⟩
  · intro t
    rw [List.mem_filter, hids t]
    constructor
    · rintro ⟨⟨hdue, hlive⟩, hsome⟩
      obtain ⟨tx, htx⟩ := Proxy.mem_transactions.mp hlive
      obtain ⟨op, type, hpending, hmap, -⟩ := hrun.requested htx
      rcases errorReply_spec hsync hpending hmap with ⟨hlen, -⟩ | ⟨-, hnone⟩
      · exact ⟨hdue, tx, htx, hlen⟩
      · rw [hnone] at hsome
        cases hsome
    · rintro ⟨hdue, tx, htx, hlen⟩
      obtain ⟨op, type, hpending, hmap, -⟩ := hrun.requested htx
      refine ⟨⟨hdue, mem_of_lookup htx⟩, ?_⟩
      rcases errorReply_spec hsync hpending hmap with ⟨-, send, hsend, -⟩ | ⟨hlong, -⟩
      · rw [hsend]
        rfl
      · omega
  · rw [houts]
    refine List.Forall₂.imp ?_ (forall₂_filterMap s.errorReply ids)
    intro t send hsend
    have hnack : s.replyTo (.nack ids) t = some send := hsend
    obtain ⟨tx, -, htx, -⟩ := replyTo_client hnack
    obtain ⟨op, type, hpending, hmap, hrequested⟩ := hrun.requested htx
    refine ⟨tx, type, htx, hrequested, ?_⟩
    rcases errorReply_spec hsync hpending hmap with ⟨-, send', hsend', hreports⟩ | ⟨-, hnone⟩
    · rw [hsend] at hsend'
      cases hsend'
      exact hreports
    · rw [hsend] at hnone
      cases hnone
  · intro t hdue
    rw [← Finmap.lookup_eq_none, ← Finmap.lookup_eq_none, hlookup t]
    change s'.txMgr.find t = none ∧ _
    rw [hfind t]
    by_cases hlive : t ∈ s.txMgr.transactions
    · have hmem := (hids t).mpr ⟨hdue, hlive⟩
      rw [if_pos hmem, if_pos hmem]
      exact ⟨rfl, rfl⟩
    · have hnot : t ∉ ids := fun h => hlive ((hids t).mp h).2
      rw [if_neg hnot, if_neg hnot]
      exact ⟨Finmap.lookup_eq_none.mpr hlive,
        Finmap.lookup_eq_none.mpr fun h => hlive ((hsync.keys t).mpr h)⟩
  · intro t hdue
    have hnot : t ∉ ids := fun h => hdue ((hids t).mp h).1
    rw [hfind t, hlookup t, if_neg hnot, if_neg hnot]
    exact ⟨rfl, rfl⟩

theorem nack_answersExactly (hrun : FreshRun timeout events s) {order : List UInt32}
    (horder : Enumerates order s.pendingOps) {s' : Proxy} {outs : List Send}
    (h : s.step (.nack order) = .ok (s', outs)) :
    AnswersExactly events s (fun _ => True) s' outs := by
  obtain ⟨houts, hhlr, hops, hfind⟩ := Proxy.step_nack horder.1 h
  refine answersExactly_of_ids hrun horder.1 ?_ houts ?_ ?_ hhlr
  · intro t
    rw [horder.2 t, hrun.sync.keys t, true_and]
  · intro t
    simp only [hfind t, ← horder.2 t, and_self]
  · intro t
    rw [hops, Finmap.lookup_empty]
    split
    · rfl
    · rename_i hnot
      rw [horder.2 t] at hnot
      exact (Finmap.lookup_eq_none.mpr hnot).symm

theorem stale_isSome_iff {now : TimePoint} {t : UInt32} :
    (s.txMgr.stale now t).isSome = true ↔ s.Overdue now t := by
  rw [TransactionManager.stale, Proxy.Overdue]
  cases s.txMgr.find t with
  | none => simp
  | some tx => simp [olderThan]

theorem expiry_answersExactly (hrun : FreshRun timeout events s) {order : List UInt32}
    (horder : Enumerates order s.txMgr.transactions) {now : TimePoint} {s' : Proxy}
    {outs : List Send} (h : s.step (.expireSgsn order now) = .ok (s', outs)) :
    AnswersExactly events s (s.Overdue now) s' outs := by
  obtain ⟨houts, hhlr, hfind, hlookup⟩ := Proxy.step_expireSgsn horder.1 hrun.sync.ids h
  refine answersExactly_of_ids hrun (horder.1.filter _) ?_ houts ?_ ?_ hhlr
  · intro t
    rw [List.mem_filter, horder.2 t, stale_isSome_iff, and_comm]
  · intro t
    simp only [hfind t, List.mem_filter]
  · intro t
    simp only [hlookup t, List.mem_filter]

/-! ## The order of the tables -/

theorem perm_of_enumerates {K V : Type} {table : Finmap fun _ : K => V} {order order' : List K}
    (h : Enumerates order table) (h' : Enumerates order' table) : order.Perm order' := by
  rw [List.perm_ext_iff_of_nodup h.1 h'.1]
  intro k
  rw [h.2 k, h'.2 k]

/-- States that differ from `s` in the tables at most, and have the same tables. -/
theorem Proxy.eq_of_tables {s₁ s₂ : Proxy}
    (hmgr₁ : s₁.txMgr = { s.txMgr with transactions := s₁.txMgr.transactions })
    (hmgr₂ : s₂.txMgr = { s.txMgr with transactions := s₂.txMgr.transactions })
    (hfind : ∀ t, s₁.txMgr.find t = s₂.txMgr.find t)
    (hlookup : ∀ t, s₁.pendingOps.lookup t = s₂.pendingOps.lookup t)
    (hhlr : s₁.hlrTx = s₂.hlrTx) : s₁ = s₂ := by
  have htransactions : s₁.txMgr.transactions = s₂.txMgr.transactions := Finmap.ext_lookup hfind
  have hmgr : s₁.txMgr = s₂.txMgr := by rw [hmgr₁, hmgr₂, htransactions]
  have hops : s₁.pendingOps = s₂.pendingOps := Finmap.ext_lookup hlookup
  obtain ⟨mgr₁, hlr₁, ops₁⟩ := s₁
  obtain ⟨mgr₂, hlr₂, ops₂⟩ := s₂
  cases hmgr
  cases hops
  cases hhlr
  rfl

/-- Two visits in different orders. -/
theorem nack_order {order order' : List UInt32} (h : Enumerates order s.pendingOps)
    (h' : Enumerates order' s.pendingOps) {s₁ s₂ : Proxy} {outs₁ outs₂ : List Send}
    (h₁ : s.step (.nack order) = .ok (s₁, outs₁)) (h₂ : s.step (.nack order') = .ok (s₂, outs₂)) :
    outs₁.Perm outs₂ ∧ s₁ = s₂ := by
  have hperm := perm_of_enumerates h h'
  obtain ⟨houts₁, hhlr₁, hops₁, hfind₁⟩ := Proxy.step_nack h.1 h₁
  obtain ⟨houts₂, hhlr₂, hops₂, hfind₂⟩ := Proxy.step_nack h'.1 h₂
  refine ⟨by rw [houts₁, houts₂]; exact hperm.filterMap _, ?_⟩
  have hmgr₁ := congrArg Proxy.txMgr (Proxy.nackLoop_frame order s [])
  have hmgr₂ := congrArg Proxy.txMgr (Proxy.nackLoop_frame order' s [])
  cases h₁
  cases h₂
  refine Proxy.eq_of_tables hmgr₁ hmgr₂ ?_ (fun t => rfl) (hhlr₁.trans hhlr₂.symm)
  intro t
  simp only [hfind₁ t, hfind₂ t, hperm.mem_iff]

theorem expiry_order (hids : ∀ t tx, s.txMgr.find t = some tx → tx.mapTransactionId = t)
    {order order' : List UInt32} (h : Enumerates order s.txMgr.transactions)
    (h' : Enumerates order' s.txMgr.transactions) {now : TimePoint} {s₁ s₂ : Proxy}
    {outs₁ outs₂ : List Send} (h₁ : s.step (.expireSgsn order now) = .ok (s₁, outs₁))
    (h₂ : s.step (.expireSgsn order' now) = .ok (s₂, outs₂)) :
    outs₁.Perm outs₂ ∧ s₁ = s₂ := by
  have hperm := perm_of_enumerates h h'
  obtain ⟨houts₁, hhlr₁, hfind₁, hlookup₁⟩ := Proxy.step_expireSgsn h.1 hids h₁
  obtain ⟨houts₂, hhlr₂, hfind₂, hlookup₂⟩ := Proxy.step_expireSgsn h'.1 hids h₂
  refine ⟨by rw [houts₁, houts₂]; exact (hperm.filter _).filterMap _, ?_⟩
  have hmgr₁ := TransactionManager.expireLoop_mgr now order [] s.txMgr
  have hmgr₂ := TransactionManager.expireLoop_mgr now order' [] s.txMgr
  cases h₁
  cases h₂
  refine Proxy.eq_of_tables hmgr₁ hmgr₂ ?_ ?_ (hhlr₁.trans hhlr₂.symm)
  · intro t
    simp only [hfind₁ t, hfind₂ t, hperm.mem_iff]
  · intro t
    simp only [hlookup₁ t, hlookup₂ t, hperm.mem_iff]

/-- In every state reached without reusing a live id, NAK answers and ends all pending
transactions and expiry exactly the overdue ones, whatever the order of the tables, and another
order gives the same state and the same messages in another order. -/
theorem nack_and_expiry_exact (hrun : FreshRun timeout events s) (now : TimePoint) :
    (∀ order, Enumerates order s.pendingOps → ∃ s' outs, s.step (.nack order) = .ok (s', outs) ∧
      AnswersExactly events s (fun _ => True) s' outs ∧ s'.txMgr.transactions = ∅ ∧
      s'.pendingOps = ∅) ∧
    (∀ order, Enumerates order s.txMgr.transactions →
      ∃ s' outs, s.step (.expireSgsn order now) = .ok (s', outs) ∧
        AnswersExactly events s (s.Overdue now) s' outs) ∧
    (∀ order order' s₁ s₂ outs₁ outs₂, Enumerates order s.pendingOps →
      Enumerates order' s.pendingOps → s.step (.nack order) = .ok (s₁, outs₁) →
      s.step (.nack order') = .ok (s₂, outs₂) → outs₁.Perm outs₂ ∧ s₁ = s₂) ∧
    ∀ order order' s₁ s₂ outs₁ outs₂, Enumerates order s.txMgr.transactions →
      Enumerates order' s.txMgr.transactions → s.step (.expireSgsn order now) = .ok (s₁, outs₁) →
      s.step (.expireSgsn order' now) = .ok (s₂, outs₂) → outs₁.Perm outs₂ ∧ s₁ = s₂ := by
  refine ⟨?_, ?_, ?_, ?_⟩
  · intro order horder
    obtain ⟨s', outs, h⟩ := Proxy.step_total s (.nack order)
    have hexact := nack_answersExactly hrun horder h
    refine ⟨s', outs, h, hexact, ?_, ?_⟩
    · apply Finmap.ext_lookup
      intro t
      exact Finmap.lookup_eq_none.mpr (hexact.ended t trivial).1
    · apply Finmap.ext_lookup
      intro t
      exact Finmap.lookup_eq_none.mpr (hexact.ended t trivial).2
  · intro order horder
    obtain ⟨s', outs, h⟩ := Proxy.step_total s (.expireSgsn order now)
    exact ⟨s', outs, h, expiry_answersExactly hrun horder h⟩
  · intro order order' s₁ s₂ outs₁ outs₂ h h' h₁ h₂
    exact nack_order h h' h₁ h₂
  · intro order order' s₁ s₂ outs₁ outs₂ h h' h₁ h₂
    exact expiry_order hrun.sync.ids h h' h₁ h₂

/-- The HLR is lost with the PurgeMS of client 7 pending. -/
theorem purge_nacked :
    ∃ events s', FreshRun 30 events purgePending ∧
      purgePending.step (.nack [1]) = .ok (s', [.sgsn [0x0d, 0x01, 0x01, 0xF1] 7]) ∧
      AnswersExactly events purgePending (fun _ => True) s' [.sgsn [0x0d, 0x01, 0x01, 0xF1] 7] ∧
      s'.txMgr.transactions = ∅ ∧ s'.pendingOps = ∅ := by
  obtain ⟨e, -, hrun⟩ := freshRun_purgePending
  have horder : Enumerates [1] purgePending.pendingOps := by
    refine ⟨by decide, ?_⟩
    intro t
    rw [List.mem_singleton, purgePending, Finmap.mem_insert]
    simp [Finmap.notMem_empty]
  obtain ⟨s', outs, h, hexact, htable, hops⟩ := (nack_and_expiry_exact hrun 0).1 [1] horder
  obtain ⟨s'', hsent⟩ : ∃ s'', purgePending.step (.nack [1]) =
      .ok (s'', [.sgsn [0x0d, 0x01, 0x01, 0xF1] 7]) := ⟨_, rfl⟩
  rw [h] at hsent
  cases hsent
  exact ⟨[e], s', hrun, h, hexact, htable, hops⟩

end GsupMapProxy
