import GsupMapProxy.Proxy.Proofs.Ages
import GsupMapProxy.Proxy.Proofs.TransactionIds

/-!
# Ids that come round

The requests of a run take the transaction ids 1, 2, ... and the invoke ids 1, 2, ..., 127, 1, ...
whatever becomes of them. `allocate` does not look whether an id is in use. It need not, as long
as a clean-up that finds a record overdue comes before the requests have gone once through all
ids: nothing is left then for a request to run into.
-/

namespace GsupMapProxy

open Gsup Map Misc TransactionManager

/-- The number of requests among the calls. -/
def requests (ops : List Op) : Nat := ops.countP Op.allocates

/-- The invoke id of the request with this number. -/
def invokeIdAt (n : Nat) : UInt8 := UInt8.ofNat (n % 127 + 1)

/-- Before a request that comes a whole cycle of ids after another one, a clean-up finds the
record of the earlier one overdue. -/
def SweptInTime (timeout : Int) (ops : List Op) : Prop :=
  ∀ b i payload client now op, ops[b]? = some (.gsup payload client now) → ops[i]? = some op →
    op.allocates = true → tidPeriod ≤ requests ((ops.take i).drop b) →
    ∃ k order now', b < k ∧ k < i ∧ ops[k]? = some (.expireSgsn order now') ∧
      now' - now > timeout * 1000000000

/-! ## Counting requests -/

section Requests

variable {ops : List Op}

theorem requests_append (ops ops' : List Op) :
    requests (ops ++ ops') = requests ops + requests ops' := List.countP_append

/-- Short runs need no clean-up. -/
theorem SweptInTime.of_few {timeout : Int} (h : requests ops ≤ tidPeriod) :
    SweptInTime timeout ops := by
  intro b i payload client now op _ hi hop hcycle
  -- the window and the request behind it are too many
  have hsplit : requests ops = requests (ops.take i) + requests (ops.drop i) := by
    rw [← requests_append, List.take_append_drop]
  have hlast : 0 < requests (ops.drop i) := by
    refine List.countP_pos_iff.mpr ⟨op, ?_, hop⟩
    have hhead : (ops.drop i)[0]? = some op := by
      rw [List.getElem?_drop, Nat.add_zero]
      exact hi
    exact List.mem_of_getElem? hhead
  have hwindow : requests ((ops.take i).drop b) ≤ requests (ops.take i) :=
    (List.drop_sublist b _).countP_le
  omega

theorem SweptInTime.of_append {timeout : Int} {later : List Op}
    (h : SweptInTime timeout (ops ++ later)) : SweptInTime timeout ops := by
  intro b i payload client now op hb hi hop hcycle
  have hlt : ∀ {j : Nat} {op : Op}, ops[j]? = some op → j < ops.length :=
    fun hj => (List.getElem?_eq_some_iff.mp hj).1
  have hkept : ∀ {j : Nat}, j < ops.length → (ops ++ later)[j]? = ops[j]? :=
    fun hj => List.getElem?_append_left hj
  have htake : (ops ++ later).take i = ops.take i :=
    List.take_append_of_le_length (Nat.le_of_lt (hlt hi))
  rw [← htake] at hcycle
  obtain ⟨k, order, now', hbk, hki, hk, hold⟩ :=
    h b i payload client now op ((hkept (hlt hb)).trans hb) ((hkept (hlt hi)).trans hi) hop hcycle
  rw [hkept (hki.trans (hlt hi))] at hk
  exact ⟨k, order, now', hbk, hki, hk, hold⟩

end Requests

/-! ## The counters -/

theorem invokeIdAt_toNat (n : Nat) : (invokeIdAt n).toNat = n % 127 + 1 := by
  have hlt := Nat.mod_lt n (show 0 < 127 by decide)
  rw [invokeIdAt, UInt8.toNat_ofNat_of_lt']
  simp only [UInt8.size]
  omega

/-- The counter behind an invoke id leads to the next one. -/
theorem invokeIdAt_succ (n : Nat) :
    (if invokeIdAt n + 1 > 127 then 1 else invokeIdAt n + 1) = invokeIdAt (n + 1) := by
  have hlt := Nat.mod_lt n (show 0 < 127 by decide)
  have hadd : (invokeIdAt n + 1).toNat = n % 127 + 2 := by
    rw [UInt8.toNat_add, invokeIdAt_toNat]
    have hone : (1 : UInt8).toNat = 1 := rfl
    omega
  rw [← UInt8.toNat_inj, invokeIdAt_toNat]
  have hgt : invokeIdAt n + 1 > 127 ↔ n % 127 + 2 > 127 := by
    rw [gt_iff_lt, UInt8.lt_iff_toNat_lt, hadd]
    exact Iff.rfl
  by_cases hwrap : n % 127 + 2 > 127
  · rw [if_pos (hgt.mpr hwrap)]
    have hone : (1 : UInt8).toNat = 1 := rfl
    omega
  · rw [if_neg fun h => hwrap (hgt.mp h), hadd]
    omega

/-- The ids of the request with this number are next. -/
structure Proxy.NextIds (p : Proxy) (n : Nat) : Prop where
  tid : p.txMgr.peekTid = tidAt n
  invokeId : p.txMgr.peekInvokeId = invokeIdAt n

theorem Proxy.NextIds.step {p p' : Proxy} {op : Op} {outs : List Send} {n : Nat}
    (hp : p.NextIds n) (h : p.step op = .ok (p', outs)) :
    p'.NextIds (n + if op.allocates then 1 else 0) := by
  obtain ⟨table, hmgr⟩ := Proxy.step_mgr h
  cases hop : op.allocates with
  | true =>
    rw [hop, if_pos rfl] at hmgr
    constructor
    · rw [hmgr]
      show (if p.txMgr.peekTid + 1 = 0 then 1 else p.txMgr.peekTid + 1) = _
      rw [hp.tid]
      exact tidAt_succ n
    · rw [hmgr]
      show (if p.txMgr.peekInvokeId + 1 > 127 then 1 else p.txMgr.peekInvokeId + 1) = _
      rw [hp.invokeId]
      exact invokeIdAt_succ n
  | false =>
    rw [hop, if_neg Bool.false_ne_true] at hmgr
    constructor
    · rw [hmgr]
      exact hp.tid
    · rw [hmgr]
      exact hp.invokeId

section Runs

variable {timeout : Int} {events : List ProxyEvent} {s : Proxy}

/-- The next ids are those of the number of requests so far. -/
theorem ProxyRun.nextIds (hrun : ProxyRun timeout events s) :
    s.NextIds (requests (events.map (·.op))) := by
  induction hrun with
  | nil => exact ⟨rfl, rfl⟩
  | snoc earlier op hop hs ih =>
    have hstep := ih.step hs
    rw [List.map_append, requests_append]
    simp only [List.map_cons, List.map_nil, requests, List.countP_singleton]
    exact hstep

/-- Of two requests with the same id, the later one comes at least a cycle after the other. -/
theorem ProxyRun.cycle_of_peekTid (hrun : ProxyRun timeout events s) {b : Nat} {e : ProxyEvent}
    (he : events[b]? = some e) (halloc : e.op.allocates = true)
    (htid : s.txMgr.peekTid = e.pre.txMgr.peekTid) :
    tidPeriod ≤ requests ((events.map (·.op)).drop b) := by
  have hop : (events.map (·.op))[b]? = some e.op := by rw [List.getElem?_map, he]; rfl
  have hbefore : e.pre.NextIds (requests ((events.map (·.op)).take b)) := by
    rw [← List.map_take]
    exact ProxyRun.nextIds (Run.before hrun he)
  have hcycle : tidAt (requests (events.map (·.op))) =
      tidAt (requests ((events.map (·.op)).take b)) := by
    rw [← hrun.nextIds.tid, ← hbefore.tid, htid]
  have hsplit : requests (events.map (·.op)) =
      requests ((events.map (·.op)).take b) + requests ((events.map (·.op)).drop b) := by
    rw [← requests_append, List.take_append_drop]
  have hfirst : 0 < requests ((events.map (·.op)).drop b) := by
    refine List.countP_pos_iff.mpr ⟨e.op, ?_, halloc⟩
    have hhead : ((events.map (·.op)).drop b)[0]? = some e.op := by
      rw [List.getElem?_drop, Nat.add_zero]
      exact hop
    exact List.mem_of_getElem? hhead
  rw [tidAt_inj] at hcycle
  simp only [tidPeriod] at hcycle ⊢
  omega

/-- What is overdue at a clean-up is gone after it. -/
theorem ProxyRun.not_found_of_expired (hrun : ProxyRun timeout events s) {k : Nat}
    {e : ProxyEvent} (he : events[k]? = some e) {order : List UInt32} {now : TimePoint}
    (hop : e.op = .expireSgsn order now) {t : UInt32} {tx : PendingTransaction}
    (hold : now - tx.createdAt > timeout * 1000000000) : e.post.txMgr.find t ≠ some tx := by
  intro htx
  have hbefore : ProxyRun timeout (events.take k) e.pre := Run.before hrun he
  obtain ⟨hpossible, hstep⟩ := Run.event hrun he
  have hyoung := Proxy.sgsn_swept hbefore.linked hpossible hstep (by rw [hop]; rfl)
    (show e.op.clock = some now by rw [hop]; rfl) t tx htx
  rw [hbefore.timeout_eq] at hyoung
  exact absurd hold (Int.not_lt.mpr hyoung)

/-- A run whose clean-ups come in time never reuses a live id. -/
theorem ProxyRun.fresh (hrun : ProxyRun timeout events s)
    (hswept : SweptInTime timeout (events.map (·.op))) : FreshRun timeout events s := by
  induction hrun with
  | nil => exact .nil
  | @snoc events s s' outs earlier op hop hs ih =>
    rw [List.map_append] at hswept
    have hfresh : FreshRun timeout events s := ih hswept.of_append
    refine .snoc hfresh op ⟨hop, ?_⟩ hs
    cases op with
    | gsup payload client now =>
      intro g hdec hreq hused
      -- the record in the way goes back to a request, a cycle ago
      obtain ⟨tx, htx⟩ := Proxy.mem_transactions.mp hused
      obtain ⟨mapOp, hpending⟩ := hfresh.sync.pending_of_find htx
      obtain ⟨b, hb, ⟨eb, heb, client', now', g', hforwards, hrecord, -⟩, hbetween⟩ :=
        Run.exists_origin hfresh (fun _ => rfl) hfresh.tracks hpending
      obtain ⟨⟨payload', hop', hdec'⟩, hreq', -, htid⟩ := hforwards
      have halloc' : eb.op.allocates = true := by simp [hop', Op.allocates, hdec', hreq']
      have hcycle := ProxyRun.cycle_of_peekTid earlier heb halloc' htid
      have hlen : (events.map (·.op)).length = events.length := List.length_map _
      have hb' : (events.map (·.op) ++ [Op.gsup payload client now])[b]? =
          some (.gsup payload' client' now') := by
        rw [List.getElem?_append_left (by omega), List.getElem?_map, heb, ← hop']
        rfl
      obtain ⟨k, order, now'', hbk, hk, hsweep, hold⟩ :=
        hswept b events.length payload' client' now' (.gsup payload client now) hb'
          (by simp) (by simp [Op.allocates, hdec, hreq])
          (by rw [← hlen, List.take_left]; exact hcycle)
      -- a clean-up on the way has found it overdue, so it cannot be there
      rw [List.map_cons, List.map_nil, List.getElem?_append_left (by rw [hlen]; exact hk),
        List.getElem?_map, Option.map_eq_some_iff] at hsweep
      obtain ⟨ek, hek, hekop⟩ := hsweep
      have hkept := (Proxy.pending_eq_some.mp (hbetween k ek hbk hk hek).1).1
      have hcreated : tx.createdAt = now' := congrArg (·.createdAt) hrecord
      rw [← hcreated] at hold
      exact ProxyRun.not_found_of_expired earlier hek hekop hold hkept
    | map _ _ | nack _ | expireSgsn _ _ | expireHlr _ _ _ => trivial

end Runs

end GsupMapProxy
