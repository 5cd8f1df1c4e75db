import GsupMapProxy.Misc.Sweep
import GsupMapProxy.Proxy.Proofs.Quota

/-!
# How long a record is kept

Both tables of the proxy are stamped with the clock of the payload that made the record, and both
are swept by the periodic clean-ups, `transactions_` with the timeout the proxy was made with and
`hlrTx_` with the one of the call.
-/

namespace GsupMapProxy

open Gsup Map Misc

/-- The clock a call reads. -/
def Op.clock : Op → Option TimePoint
  | .gsup _ _ now => some now
  | .map _ now => some now
  | .nack _ => none
  | .expireSgsn _ now => some now
  | .expireHlr _ _ now => some now

/-- The call takes the next ids: its payload is no answer to an Invoke. -/
def Op.allocates : Op → Bool
  | .gsup payload _ _ =>
      match Gsup.decode payload with
      | .ok g => !isHlrInitiatedGsupType g.type
      | .error _ => false
  | _ => false

def Op.isGsup : Op → Bool
  | .gsup _ _ _ => true
  | _ => false

def Op.isMap : Op → Bool
  | .map _ _ => true
  | _ => false

def Op.isExpireSgsn : Op → Bool
  | .expireSgsn _ _ => true
  | _ => false

def Op.isExpireHlr (seconds : Int) : Op → Bool
  | .expireHlr _ timeout _ => timeout = seconds
  | _ => false

/-- `transactions_`. -/
def sgsnRecords : Stamped Proxy Op UInt32 PendingTransaction where
  table := fun p t => p.txMgr.find t
  born := PendingTransaction.createdAt
  clock := Op.clock
  makes := Op.isGsup

/-- `hlrTx_`. -/
def hlrRecords : Stamped Proxy Op Str HlrTxEntry where
  table := fun p imsi => p.hlrTx.lookup imsi
  born := HlrTxEntry.createdAt
  clock := Op.clock
  makes := Op.isMap

namespace Proxy

variable {p p' : Proxy} {op : Op} {outs : List Send}

/-! ## Transactions of the SGSNs -/

theorem sgsn_enters (hp : p.Linked) (hop : op.Possible p) (h : p.step op = .ok (p', outs)) :
    sgsnRecords.Enters p op p' := by
  have hkept : (∀ t tx, p'.txMgr.find t = some tx → p.txMgr.find t = some tx) →
      sgsnRecords.Enters p op p' := fun h => .of_kept op p.txMgr.peekTid h
  cases op with
  | gsup payload client now =>
    have hnew : ∀ g, (∀ t tx, p'.txMgr.find t = some tx →
        (p.allocated g client now).find t = some tx) →
        sgsnRecords.Enters p (.gsup payload client now) p' := by
      intro g hg
      refine ⟨p.txMgr.peekTid, ?_⟩
      intro t tx htx
      rcases find_allocated (hg t tx htx) with hold | ⟨ht, rfl⟩
      · exact .inl hold
      · exact .inr ⟨ht, rfl, rfl⟩
    cases handleGsupPayload_effect h with
    | undecoded hdec => exact hkept fun _ _ h => h
    | unmatched hdec hanswer hnone => exact hkept fun _ _ h => h
    | answered hdec hanswer hentry => exact hkept fun _ _ h => h
    | @unsupported g hdec hreq hnone =>
      refine hnew g ?_
      intro t tx htx
      rw [TransactionManager.find_complete] at htx
      split at htx
      · cases htx
      · exact htx
    | @forwarded g tx m mapOp b hdec hreq hmapOp hmap hb => exact hnew g fun _ _ h => h
  | map payload now =>
    cases handleMapPayload_effect h with
    | undecoded _ | refused _ _ _ | unencoded _ _ _ _ | stored _ _ _ _ | unmatched _ _ _ =>
      exact hkept fun _ _ h => h
    | answered hdec hnot hfind =>
      refine hkept ?_
      intro t tx htx
      rw [forget, TransactionManager.find_complete] at htx
      split at htx
      · cases htx
      · exact htx
  | nack order =>
    obtain ⟨-, -, -, hfind⟩ := step_nack hop.1 h
    refine hkept ?_
    intro t tx htx
    rw [hfind t] at htx
    split at htx
    · cases htx
    · exact htx
  | expireSgsn order now =>
    obtain ⟨-, -, hfind, -⟩ := step_expireSgsn hop.1 hp.ids h
    refine hkept ?_
    intro t tx htx
    rw [hfind t] at htx
    split at htx
    · cases htx
    · exact htx
  | expireHlr order timeout now =>
    cases h
    exact hkept fun _ _ h => h

theorem sgsn_swept (hp : p.Linked) (hop : op.Possible p) (h : p.step op = .ok (p', outs))
    (hsweep : op.isExpireSgsn = true) {now : TimePoint} (hclock : op.clock = some now) :
    ∀ t tx, p'.txMgr.find t = some tx →
      now - tx.createdAt ≤ p.txMgr.timeout * 1000000000 := by
  cases op with
  | expireSgsn order now' =>
    cases hclock
    obtain ⟨-, -, hfind, -⟩ := step_expireSgsn hop.1 hp.ids h
    intro t tx htx
    rw [hfind t] at htx
    split at htx
    · cases htx
    · rename_i hnot
      -- the visit came by, and the record was not due
      have hvisited : t ∈ order := (hop.2 t).mpr (mem_of_lookup htx)
      by_contra hold
      refine hnot ⟨hvisited, ?_⟩
      rw [TransactionManager.stale, htx]
      simp only [Option.filter_some, olderThan]
      rw [if_pos (decide_eq_true (Int.not_le.mp hold))]
      rfl
  | gsup _ _ _ | map _ _ | nack _ | expireHlr _ _ _ => cases hsweep

/-- A call that allocates moves both counters on; beyond that, only the table ever changes. -/
theorem step_mgr (h : p.step op = .ok (p', outs)) :
    ∃ table, p'.txMgr =
      { (if op.allocates then p.txMgr.advance else p.txMgr) with transactions := table } := by
  have hallocated : ∀ g client now, ∃ table,
      p.allocated g client now = { p.txMgr.advance with transactions := table } := by
    intro g client now
    unfold allocated TransactionManager.emplace
    split
    · exact ⟨_, rfl⟩
    · exact ⟨_, rfl⟩
  cases op with
  | gsup payload client now =>
    cases handleGsupPayload_effect h with
    | undecoded hdec => exact ⟨p.txMgr.transactions, by simp [Op.allocates, hdec]⟩
    | unmatched hdec hanswer hnone =>
      exact ⟨p.txMgr.transactions, by simp [Op.allocates, hdec, hanswer]⟩
    | answered hdec hanswer hentry =>
      exact ⟨p.txMgr.transactions, by simp [Op.allocates, hdec, hanswer]⟩
    | @unsupported g hdec hreq hnone =>
      obtain ⟨table, htable⟩ := hallocated g client now
      refine ⟨table.erase p.txMgr.peekTid, ?_⟩
      simp [Op.allocates, hdec, hreq, TransactionManager.complete, htable]
    | @forwarded g tx m mapOp b hdec hreq hmapOp hmap hb =>
      obtain ⟨table, htable⟩ := hallocated g client now
      exact ⟨table, by simp [Op.allocates, hdec, hreq, htable]⟩
  | map payload now =>
    cases handleMapPayload_effect h with
    | undecoded _ | refused _ _ _ | unencoded _ _ _ _ | stored _ _ _ _ | unmatched _ _ _
    | answered _ _ _ => exact ⟨_, rfl⟩
  | nack order =>
    have hframe := congrArg Proxy.txMgr (nackLoop_frame order p [])
    cases h
    exact ⟨_, hframe⟩
  | expireSgsn order now =>
    cases h
    exact ⟨_, TransactionManager.expireLoop_mgr now order [] p.txMgr⟩
  | expireHlr order timeout now =>
    cases h
    exact ⟨_, rfl⟩

theorem step_timeout (h : p.step op = .ok (p', outs)) : p'.txMgr.timeout = p.txMgr.timeout := by
  obtain ⟨table, hmgr⟩ := step_mgr h
  rw [hmgr]
  split <;> rfl

/-! ## Transactions of the HLR -/

theorem hlr_enters (h : p.step op = .ok (p', outs)) : hlrRecords.Enters p op p' := by
  have hkept : (∀ imsi entry, p'.hlrTx.lookup imsi = some entry →
      p.hlrTx.lookup imsi = some entry) → hlrRecords.Enters p op p' := fun h => .of_kept op [] h
  have herased : ∀ imsi, p'.hlrTx = p.hlrTx.erase imsi → hlrRecords.Enters p op p' := by
    intro imsi heq
    refine hkept ?_
    intro k entry hentry
    rw [heq, lookup_erase_ite] at hentry
    split at hentry
    · cases hentry
    · exact hentry
  cases op with
  | gsup payload client now =>
    cases handleGsupPayload_effect h with
    | answered hdec hanswer hentry => exact herased _ rfl
    | undecoded _ | unmatched _ _ _ | unsupported _ _ _ | forwarded _ _ _ _ _ =>
      exact hkept fun _ _ h => h
  | map payload now =>
    cases handleMapPayload_effect h with
    | unencoded hdec hinv hmap henc => exact herased _ rfl
    | @stored m g data hdec hinv hmap henc =>
      refine ⟨m.imsi, ?_⟩
      intro k entry hentry
      have hentry : (p.hlrTx.insert m.imsi (hlrEntry m now)).lookup k = some entry := hentry
      rw [lookup_insert_ite] at hentry
      split at hentry
      · rename_i hk
        cases hentry
        exact .inr ⟨hk, rfl, rfl⟩
      · exact .inl hentry
    | undecoded _ | refused _ _ _ | unmatched _ _ _ | answered _ _ _ => exact hkept fun _ _ h => h
  | nack order =>
    cases h
    refine hkept ?_
    intro k entry hentry
    have hentry : (nackLoop order p []).1.hlrTx.lookup k = some entry := hentry
    rw [nackLoop_frame] at hentry
    exact hentry
  | expireSgsn order now =>
    cases h
    exact hkept fun _ _ h => h
  | expireHlr order timeout now =>
    cases h
    refine hkept ?_
    intro k entry hentry
    have hentry : (expireHlrLoop timeout now order p.hlrTx).lookup k = some entry := hentry
    rw [expireHlrLoop_lookup] at hentry
    split at hentry
    · cases hentry
    · exact hentry

theorem hlr_swept {seconds : Int} (hop : op.Possible p) (h : p.step op = .ok (p', outs))
    (hsweep : op.isExpireHlr seconds = true) {now : TimePoint} (hclock : op.clock = some now) :
    ∀ imsi entry, p'.hlrTx.lookup imsi = some entry →
      now - entry.createdAt ≤ seconds * 1000000000 := by
  cases op with
  | expireHlr order timeout now' =>
    cases hclock
    cases h
    obtain rfl : timeout = seconds := of_decide_eq_true hsweep
    intro imsi entry hentry
    have hentry : (expireHlrLoop timeout now order p.hlrTx).lookup imsi = some entry := hentry
    rw [expireHlrLoop_lookup] at hentry
    split at hentry
    · cases hentry
    · rename_i hnot
      have hvisited : imsi ∈ order := (hop.2 imsi).mpr (mem_of_lookup hentry)
      by_contra hold
      exact hnot ⟨hvisited, entry, hentry, decide_eq_true (Int.not_le.mp hold)⟩
  | gsup _ _ _ | map _ _ | nack _ | expireSgsn _ _ => cases hsweep

end Proxy

/-! ## Runs -/

section Runs

variable {timeout : Int} {events : List ProxyEvent} {s : Proxy} {e : ProxyEvent} {now : TimePoint}

theorem ProxyRun.timeout_eq (hrun : ProxyRun timeout events s) : s.txMgr.timeout = timeout :=
  Run.invariant (I := fun s => s.txMgr.timeout = timeout) hrun rfl
    fun _ _ _ _ hs _ hstep => (Proxy.step_timeout hstep).trans hs

/-- After a clean-up of `transactions_`. -/
theorem ProxyRun.sgsn_young (hrun : ProxyRun timeout events s) (htimeout : 0 ≤ timeout)
    (hclock : InOrder Op.clock (events.map (·.op))) (he : e ∈ events)
    (hsweep : e.op.isExpireSgsn = true) (hnow : e.op.clock = some now) :
    (∀ t tx, s.txMgr.find t = some tx → now - tx.createdAt ≤ timeout * 1000000000) ∧
      s.txMgr.transactions.keys.card ≤ (events.map (·.op)).countP
        (sgsnRecords.makesSince (now - timeout * 1000000000)) := by
  have henters : ∀ {events s op outs s'}, ProxyRun timeout events s → op.Possible s →
      s.step op = .ok (s', outs) → sgsnRecords.Enters s op s' :=
    fun hrun hop hstep => Proxy.sgsn_enters (ProxyRun.linked hrun) hop hstep
  have hyoung : ∀ t tx, s.txMgr.find t = some tx →
      now - tx.createdAt ≤ timeout * 1000000000 := by
    refine Run.swept (T := sgsnRecords) hrun (by omega) henters ?_ hclock he hsweep hnow
    intro events s op outs s' now hrun hop hstep hsweep hnow
    have hswept := Proxy.sgsn_swept (ProxyRun.linked hrun) hop hstep hsweep hnow
    rw [ProxyRun.timeout_eq hrun] at hswept
    exact hswept
  refine ⟨hyoung, ?_⟩
  refine Run.card_le_makers (T := sgsnRecords) (fun s => s.txMgr.transactions.keys) hrun ?_
    (fun _ => rfl) henters ?_
  · intro s t
    rw [Finmap.mem_keys]
    exact Finmap.mem_iff
  · intro t tx htx
    exact Int.sub_le_of_sub_le (hyoung t tx htx)

/-- After a clean-up of `hlrTx_`. -/
theorem ProxyRun.hlr_young {seconds : Int} (hrun : ProxyRun timeout events s)
    (hseconds : 0 ≤ seconds) (hclock : InOrder Op.clock (events.map (·.op))) (he : e ∈ events)
    (hsweep : e.op.isExpireHlr seconds = true) (hnow : e.op.clock = some now) :
    (∀ imsi entry, s.hlrTx.lookup imsi = some entry →
      now - entry.createdAt ≤ seconds * 1000000000) ∧
      s.hlrTx.keys.card ≤ (events.map (·.op)).countP
        (hlrRecords.makesSince (now - seconds * 1000000000)) := by
  have henters : ∀ {events s op outs s'}, ProxyRun timeout events s → op.Possible s →
      s.step op = .ok (s', outs) → hlrRecords.Enters s op s' :=
    fun _ _ hstep => Proxy.hlr_enters hstep
  have hyoung : ∀ imsi entry, s.hlrTx.lookup imsi = some entry →
      now - entry.createdAt ≤ seconds * 1000000000 := by
    refine Run.swept (T := hlrRecords) hrun (by omega) henters ?_ hclock he hsweep hnow
    intro events s op outs s' now hrun hop hstep hsweep hnow
    exact Proxy.hlr_swept hop hstep hsweep hnow
  refine ⟨hyoung, ?_⟩
  refine Run.card_le_makers (T := hlrRecords) (fun s => s.hlrTx.keys) hrun ?_ (fun _ => rfl)
    henters ?_
  · intro s imsi
    rw [Finmap.mem_keys]
    exact Finmap.mem_iff
  · intro imsi entry hentry
    exact Int.sub_le_of_sub_le (hyoung imsi entry hentry)

end Runs

end GsupMapProxy
