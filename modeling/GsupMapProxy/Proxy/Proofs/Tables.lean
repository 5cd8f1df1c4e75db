import GsupMapProxy.Misc.Run
import GsupMapProxy.Proxy.Proofs.Handlers

/-!
# The two tables of pending transactions

Everything a call does to SGSN-initiated transactions is one of two things: it opens one, under
a fresh id and in both tables, or it closes some, in both tables, and answers those it can build
an answer for. `SgsnEffect` says this once; that the tables stay in step follows from it, and
so does every later result about replies.
-/

namespace GsupMapProxy

open Gsup Map Misc

/-- `allocate`, if the call reaches it, returns an id that is not in use. -/
def Op.Fresh (p : Proxy) : Op → Prop
  | .gsup payload _ _ =>
      ∀ g, Gsup.decode payload = .ok g → isHlrInitiatedGsupType g.type = false →
        p.txMgr.peekTid ∉ p.txMgr.transactions
  | _ => True

/-- The calls that can happen and do not reuse a live id. -/
def Op.PossibleFresh (p : Proxy) (op : Op) : Prop := op.Possible p ∧ op.Fresh p

namespace Proxy

/-- What links the tables: the same ids, each record filed under its own, operations that
requests are turned into, and decimal IMSIs. -/
structure Sync (p : Proxy) : Prop where
  keys : ∀ t, t ∈ p.txMgr.transactions ↔ t ∈ p.pendingOps
  ids : ∀ t tx, p.txMgr.find t = some tx → tx.mapTransactionId = t
  ops : ∀ t op, p.pendingOps.lookup t = some op → op ∈ requestOperations
  imsis : ∀ t tx, p.txMgr.find t = some tx → Digits tx.imsi

/-- The transactions a call ends, in the order it visits them. -/
def closedBy (p : Proxy) : Op → List UInt32
  | .map payload _ =>
      match Map.decode payload with
      | .error _ => []
      | .ok m =>
          if m.component = .invoke ∨ m.transactionId ∉ p.txMgr.transactions then []
          else [m.transactionId]
  | .nack order => order
  | .expireSgsn order now => order.filter fun t => (p.txMgr.stale now t).isSome
  | _ => []

/-- What a call sends to the client of a transaction it ends. -/
def replyTo (p : Proxy) (op : Op) (t : UInt32) : Option Send :=
  match op with
  | .map payload _ =>
      match Map.decode payload, p.txMgr.find t with
      | .ok m, some pending => p.answerReply pending m
      | _, _ => none
  | .nack _ => p.errorReply t
  | .expireSgsn _ _ => p.errorReply t
  | _ => none

/-- What a call does to the SGSN-initiated transactions. -/
inductive SgsnEffect (p : Proxy) (op : Op) (p' : Proxy) (outs : List Send) : Prop where
  | opened (payload : Bytes) (client : ClientId) (now : TimePoint) (g : GsupMessage)
      (mapOp : MapOperation) (b : Bytes) (hop : op = .gsup payload client now)
      (hdec : Gsup.decode payload = .ok g) (hreq : isHlrInitiatedGsupType g.type = false)
      (hmap : requestOperation g.type = some mapOp)
      (hfresh : p.txMgr.peekTid ∉ p.txMgr.transactions)
      (hfind : ∀ t, p'.txMgr.find t =
        if t = p.txMgr.peekTid then some (p.txMgr.newTransaction g.imsi client now)
        else p.txMgr.find t)
      (hlookup : ∀ t, p'.pendingOps.lookup t =
        if t = p.txMgr.peekTid then some mapOp else p.pendingOps.lookup t)
      (houts : outs = [.hlr b])
  | closed
      (hrefused : ∀ payload client now g, op = .gsup payload client now →
        Gsup.decode payload = .ok g → isHlrInitiatedGsupType g.type = false →
        requestOperation g.type = none ∧ outs = [])
      (hfind : ∀ t, p'.txMgr.find t = if t ∈ p.closedBy op then none else p.txMgr.find t)
      (hlookup : ∀ t, p'.pendingOps.lookup t =
        if t ∈ p.closedBy op then none else p.pendingOps.lookup t)
      (houts : outs = (p.closedBy op).filterMap (p.replyTo op) ∨
        p.closedBy op = [] ∧ ∀ data client, Send.sgsn data client ∈ outs → client = 0)

/-- A call that leaves both tables alone and answers nobody. -/
theorem SgsnEffect.quiet {p p' : Proxy} {op : Op} {outs : List Send}
    (hrefused : ∀ payload client now g, op = .gsup payload client now →
      Gsup.decode payload = .ok g → isHlrInitiatedGsupType g.type = false →
      requestOperation g.type = none ∧ outs = [])
    (hclosed : p.closedBy op = []) (hfind : ∀ t, p'.txMgr.find t = p.txMgr.find t)
    (hlookup : ∀ t, p'.pendingOps.lookup t = p.pendingOps.lookup t)
    (houts : ∀ data client, Send.sgsn data client ∈ outs → client = 0) :
    SgsnEffect p op p' outs := by
  refine .closed hrefused ?_ ?_ (.inr ⟨hclosed, houts⟩)
  · intro t
    rw [hclosed, hfind t]
    simp
  · intro t
    rw [hclosed, hlookup t]
    simp

/-- With a free id `allocate` enters the new record. -/
theorem allocated_fresh {p : Proxy} {g : GsupMessage} {client : ClientId} {now : TimePoint}
    (hnew : p.txMgr.peekTid ∉ p.txMgr.transactions) :
    p.allocated g client now = { p.txMgr.advance with
      transactions := p.txMgr.transactions.insert p.txMgr.peekTid
        (p.txMgr.newTransaction g.imsi client now) } :=
  TransactionManager.emplace_fresh hnew

/-- An SGSN's answer to an Invoke is no request. -/
theorem not_request {payload : Bytes} {client : ClientId} {now : TimePoint} {g : GsupMessage}
    {outs : List Send} (hdec : Gsup.decode payload = .ok g)
    (hanswer : isHlrInitiatedGsupType g.type = true) :
    ∀ payload' client' now' g', Op.gsup payload client now = .gsup payload' client' now' →
      Gsup.decode payload' = .ok g' → isHlrInitiatedGsupType g'.type = false →
      requestOperation g'.type = none ∧ outs = [] := by
  intro _ _ _ g' hop hok hfalse
  cases hop
  rw [hdec] at hok
  cases hok
  rw [hanswer] at hfalse
  cases hfalse

theorem sgsnEffect_gsup {p p' : Proxy} {payload : Bytes} {client : ClientId} {now : TimePoint}
    {outs : List Send} (hfresh : (Op.gsup payload client now).Fresh p)
    (h : p.handleGsupPayload payload client now = .ok (p', outs)) :
    SgsnEffect p (.gsup payload client now) p' outs := by
  cases handleGsupPayload_effect h with
  | undecoded hdec =>
    refine .quiet ?_ rfl (fun _ => rfl) (fun _ => rfl) (by simp)
    intro _ _ _ g hop hok
    cases hop
    rw [hdec] at hok
    cases hok
  | unmatched hdec hanswer hnone =>
    exact .quiet (not_request hdec hanswer) rfl (fun _ => rfl) (fun _ => rfl) (by simp)
  | answered hdec hanswer hentry =>
    refine .quiet (not_request hdec hanswer) rfl (fun _ => rfl) (fun _ => rfl) ?_
    intro data c hmem
    unfold hlrReply at hmem
    split at hmem <;> simp at hmem
  | @unsupported g hdec hreq hnone =>
    have hnew := hfresh g hdec hreq
    refine .quiet ?_ rfl ?_ (fun _ => rfl) (by simp)
    · intro _ _ _ g' hop hok' _
      cases hop
      rw [hdec] at hok'
      cases hok'
      exact ⟨hnone, rfl⟩
    · intro t
      dsimp only
      rw [allocated_fresh hnew]
      simp only [TransactionManager.find, TransactionManager.complete]
      rw [erase_insert_of_notMem hnew]
  | @forwarded g tx m op b hdec hreq hop hmap hb =>
    have hnew := hfresh g hdec hreq
    refine .opened payload client now g op b rfl hdec hreq hop hnew ?_
      (fun t => lookup_insert_ite) rfl
    intro t
    dsimp only
    rw [allocated_fresh hnew]
    exact lookup_insert_ite

theorem sgsnEffect_map {p p' : Proxy} {payload : Bytes} {now : TimePoint} {outs : List Send}
    (h : p.handleMapPayload payload now = .ok (p', outs)) :
    SgsnEffect p (.map payload now) p' outs := by
  -- an Invoke closes nothing
  have hinvoke : ∀ {m : MapMessage}, Map.decode payload = .ok m → m.component = .invoke →
      p.closedBy (.map payload now) = [] := by
    intro m hdec hinv
    simp only [closedBy, hdec, hinv, true_or, if_true]
  cases handleMapPayload_effect h with
  | undecoded hdec =>
    exact .quiet (by simp) (by simp only [closedBy, hdec]) (fun _ => rfl) (fun _ => rfl) (by simp)
  | refused hdec hinv hmap =>
    exact .quiet (by simp) (hinvoke hdec hinv) (fun _ => rfl) (fun _ => rfl) (by simp)
  | unencoded hdec hinv hmap henc =>
    exact .quiet (by simp) (hinvoke hdec hinv) (fun _ => rfl) (fun _ => rfl) (by simp)
  | stored hdec hinv hmap henc =>
    refine .quiet (by simp) (hinvoke hdec hinv) (fun _ => rfl) (fun _ => rfl) ?_
    intro data c hmem
    simp only [List.mem_singleton, Send.sgsn.injEq] at hmem
    exact hmem.2
  | @unmatched m hdec hnot hnone =>
    have hnotMem : m.transactionId ∉ p.txMgr.transactions := Finmap.lookup_eq_none.mp hnone
    refine .quiet (by simp) ?_ (fun _ => rfl) (fun _ => rfl) (by simp)
    simp only [closedBy, hdec, hnotMem, not_false_eq_true, or_true, if_true]
  | @answered m pending hdec hnot hfind =>
    have hmem : m.transactionId ∈ p.txMgr.transactions := mem_of_lookup hfind
    have hclosed : p.closedBy (.map payload now) = [m.transactionId] := by
      simp only [closedBy, hdec, hnot, hmem, not_true_eq_false, or_self, if_false]
    refine .closed (by simp) ?_ ?_ (.inl ?_)
    · intro t
      simp only [hclosed, List.mem_singleton]
      exact TransactionManager.find_complete
    · intro t
      simp only [hclosed, List.mem_singleton]
      exact lookup_erase_ite
    · rw [hclosed]
      simp only [List.filterMap_cons, List.filterMap_nil, replyTo, hdec, hfind]
      cases p.answerReply pending m <;> rfl

/-- Every call has one of the two effects, as long as it does not reuse a live id. -/
theorem sgsnEffect_of_step {p p' : Proxy} {op : Op} {outs : List Send} (hsync : Sync p)
    (hop : op.PossibleFresh p) (h : p.step op = .ok (p', outs)) : SgsnEffect p op p' outs := by
  obtain ⟨hpossible, hfresh⟩ := hop
  cases op with
  | gsup payload client now => exact sgsnEffect_gsup hfresh h
  | map payload now => exact sgsnEffect_map h
  | nack order =>
    obtain ⟨hnodup, hmem⟩ := hpossible
    obtain ⟨hsent, -, hops, hfind⟩ := step_nack hnodup h
    refine .closed (by simp) ?_ ?_ (.inl hsent)
    · intro t
      rw [hfind t]
      by_cases ht : t ∈ order
      · rw [if_pos ⟨ht, (hmem t).mp ht⟩, if_pos (show t ∈ p.closedBy (.nack order) from ht)]
      · rw [if_neg (fun h => ht h.1), if_neg (show ¬ t ∈ p.closedBy (.nack order) from ht)]
    · intro t
      rw [hops, Finmap.lookup_empty]
      by_cases ht : t ∈ order
      · rw [if_pos (show t ∈ p.closedBy (.nack order) from ht)]
      · rw [if_neg (show ¬ t ∈ p.closedBy (.nack order) from ht),
          Finmap.lookup_eq_none.mpr fun h => ht ((hmem t).mpr h)]
  | expireSgsn order now =>
    obtain ⟨hnodup, -⟩ := hpossible
    obtain ⟨hsent, -, hfind, hops⟩ := step_expireSgsn hnodup hsync.ids h
    refine .closed (by simp) ?_ ?_ (.inl hsent)
    · intro t
      simp only [hfind t, closedBy, List.mem_filter]
    · intro t
      simp only [hops t, closedBy, List.mem_filter]
  | expireHlr order timeout now =>
    cases h
    exact .quiet (by simp) rfl (fun _ => rfl) (fun _ => rfl) (by simp)

/-! ## The tables stay in step -/

theorem sync_start (timeout : Int) : Sync (start timeout) where
  keys := fun _ => Iff.rfl
  ids := by
    intro t tx h
    cases h
  ops := by
    intro t op h
    cases h
  imsis := by
    intro t tx h
    cases h

theorem mem_transactions {p : Proxy} {t : UInt32} :
    t ∈ p.txMgr.transactions ↔ ∃ tx, p.txMgr.find t = some tx := Finmap.mem_iff

/-- Both effects keep the tables in step. -/
theorem Sync.of_effect {p p' : Proxy} {op : Op} {outs : List Send} (hsync : Sync p)
    (h : SgsnEffect p op p' outs) : Sync p' := by
  obtain ⟨hkeys, hids, hops, himsis⟩ := hsync
  cases h with
  | opened payload client now g mapOp b hop hdec hreq hmap hfresh hfind hlookup houts =>
    refine ⟨?_, ?_, ?_, ?_⟩
    · intro t
      rw [mem_transactions, Finmap.mem_iff, hfind t, hlookup t]
      by_cases ht : t = p.txMgr.peekTid
      · simp [ht]
      · simp only [if_neg ht]
        rw [← mem_transactions]
        exact (hkeys t).trans Finmap.mem_iff
    · intro t tx h
      rw [hfind t] at h
      split at h
      · rename_i ht
        cases h
        exact ht.symm
      · exact hids t tx h
    · intro t o h
      rw [hlookup t] at h
      split at h
      · cases h
        exact requestOperation_mem hmap
      · exact hops t o h
    · intro t tx h
      rw [hfind t] at h
      split at h
      · cases h
        exact (Gsup.decoded_of_decode hdec).digits
      · exact himsis t tx h
  | closed hrefused hfind hlookup houts =>
    refine ⟨?_, ?_, ?_, ?_⟩
    · intro t
      rw [mem_transactions, Finmap.mem_iff, hfind t, hlookup t]
      by_cases ht : t ∈ p.closedBy op
      · simp [ht]
      · simp only [if_neg ht]
        rw [← mem_transactions]
        exact (hkeys t).trans Finmap.mem_iff
    · intro t tx h
      rw [hfind t] at h
      split at h
      · cases h
      · exact hids t tx h
    · intro t o h
      rw [hlookup t] at h
      split at h
      · cases h
      · exact hops t o h
    · intro t tx h
      rw [hfind t] at h
      split at h
      · cases h
      · exact himsis t tx h

theorem sync_step {p p' : Proxy} {op : Op} {outs : List Send} (hsync : Sync p)
    (hop : op.PossibleFresh p) (h : p.step op = .ok (p', outs)) : Sync p' :=
  hsync.of_effect (sgsnEffect_of_step hsync hop h)

end Proxy

/-- A call into the proxy, with the states around it and what it sent. -/
abbrev ProxyEvent := Event Proxy Op Send

/-- The runs in which `allocate` never returns a live id. -/
abbrev FreshRun (timeout : Int) : List ProxyEvent → Proxy → Prop :=
  Run Proxy.step (fun p op => op.PossibleFresh p) (Proxy.start timeout)

theorem FreshRun.sync {timeout : Int} {events : List ProxyEvent} {s : Proxy}
    (hrun : FreshRun timeout events s) : s.Sync :=
  Run.invariant hrun (Proxy.sync_start timeout) fun _ _ _ _ hs hop h => Proxy.sync_step hs hop h

/-- After every operation of a run both tables have the same keys, every record is stored under
its own id, every operation is one of the five, and no operation lets an exception escape. -/
theorem pending_tables_in_sync {timeout : Int} {events : List ProxyEvent} {s : Proxy}
    (hrun : FreshRun timeout events s) :
    s.txMgr.transactions.keys = s.pendingOps.keys ∧
    (∀ t tx, s.txMgr.transactions.lookup t = some tx → tx.mapTransactionId = t) ∧
    (∀ t op, s.pendingOps.lookup t = some op → op ∈ requestOperations) ∧
    ∀ op, ∃ s' outs, s.step op = .ok (s', outs) := by
  obtain ⟨hkeys, hids, hops, -⟩ := hrun.sync
  refine ⟨?_, hids, hops, Proxy.step_total s⟩
  ext t
  rw [Finmap.mem_keys, Finmap.mem_keys]
  exact hkeys t

/-- A PurgeMsRequest for the IMSI "1". -/
def purgeRequest : Bytes := [0x0c, 0x01, 0x01, 0xF1]

/-- The proxy after it has forwarded that request of client 7. -/
def purgePending : Proxy :=
  { txMgr :=
      { tidCounter := 2, invokeIdCounter := 2, timeout := 30,
        transactions := (∅ : Transactions).insert 1
          { mapTransactionId := 1, mapInvokeId := 1, imsi := [0x31], clientContext := 7,
            createdAt := 0 } },
    pendingOps := (∅ : PendingOps).insert 1 .purgeMS }

theorem step_purgeRequest :
    ∃ b, (Proxy.start 30).step (.gsup purgeRequest 7 0) = .ok (purgePending, [.hlr b]) := ⟨_, rfl⟩

/-- The run that leads there. -/
theorem freshRun_purgePending :
    ∃ e : ProxyEvent, e.op = .gsup purgeRequest 7 0 ∧ FreshRun 30 [e] purgePending := by
  obtain ⟨b, hb⟩ := step_purgeRequest
  exact ⟨_, rfl, .snoc .nil (Op.gsup purgeRequest 7 0) ⟨trivial, fun _ _ _ => by decide⟩ hb⟩

theorem pending_tables_in_sync_after_purge :
    1 ∈ purgePending.txMgr.transactions ∧
      purgePending.txMgr.transactions.keys = purgePending.pendingOps.keys := by
  obtain ⟨e, -, hrun⟩ := freshRun_purgePending
  exact ⟨by decide, (pending_tables_in_sync hrun).1⟩

end GsupMapProxy
