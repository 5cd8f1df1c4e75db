import GsupMapProxy.Gsup.Proofs.Bounds
import GsupMapProxy.Map.Proofs.Bounds
import GsupMapProxy.Misc.Table
import GsupMapProxy.Proxy.Proxy

/-!
# What the handlers do

One lemma for each function the handlers call and one for each handler: how it ends, what it
sends and how the tables look afterwards. The modules on runs use these and never unfold a
handler.
-/

namespace GsupMapProxy

open Gsup Map Misc

/-! ## Converter -/

/-- The operation a request of the SGSN is turned into, for the five types `gsupToMap`
accepts. -/
def requestOperation : MessageType → Option MapOperation
  | .sendAuthInfoRequest => some .sendAuthenticationInfo
  | .updateLocationRequest => some .updateGprsLocation
  | .locationCancelRequest => some .cancelLocation
  | .insertDataRequest => some .insertSubscriberData
  | .purgeMsRequest => some .purgeMS
  | _ => none

/-- The five operations `gsupToMap` can produce. -/
def requestOperations : List MapOperation :=
  [.sendAuthenticationInfo, .updateGprsLocation, .cancelLocation, .insertSubscriberData, .purgeMS]

theorem requestOperation_mem {type : MessageType} {op : MapOperation}
    (h : requestOperation type = some op) : op ∈ requestOperations := by
  cases type <;> simp [requestOperation] at h <;> subst h <;> decide

/-- A request is converted to an Invoke of its operation, everything else is refused with a
`ConversionError`. -/
theorem gsupToMap_spec (g : GsupMessage) (tid : UInt32) (id : UInt8) :
    (requestOperation g.type = none ∧ ∃ what, gsupToMap g tid id = .error (.conversionError what)) ∨
    ∃ m op, requestOperation g.type = some op ∧ gsupToMap g tid id = .ok m ∧ m.operation = op ∧
      m.component = .invoke := by
  unfold gsupToMap requestOperation
  cases g.type
  case sendAuthInfoRequest => exact .inr ⟨_, _, rfl, rfl, rfl, rfl⟩
  case updateLocationRequest => exact .inr ⟨_, _, rfl, rfl, rfl, rfl⟩
  case locationCancelRequest => exact .inr ⟨_, _, rfl, rfl, rfl, rfl⟩
  case insertDataRequest => exact .inr ⟨_, _, rfl, rfl, rfl, rfl⟩
  case purgeMsRequest => exact .inr ⟨_, _, rfl, rfl, rfl, rfl⟩
  all_goals exact .inl ⟨rfl, _, rfl⟩

theorem gsupErrorType_error {op : MapOperation} {e : Exn} (h : gsupErrorType op = .error e) :
    ∃ what, e = .conversionError what := by
  cases op <;> cases h <;> exact ⟨_, rfl⟩

theorem mapToGsup_error {m : MapMessage} {e : Exn} (h : mapToGsup m = .error e) :
    ∃ what, e = .conversionError what := by
  unfold mapToGsup at h
  split at h
  · cases ht : gsupErrorType m.operation with
    | error e' =>
      rw [ht] at h
      cases h
      exact gsupErrorType_error ht
    | ok type => rw [ht] at h; cases h
  · unfold mapResultToGsup at h
    cases hop : m.operation <;> rw [hop] at h <;> cases h <;> exact ⟨_, rfl⟩

theorem mapInvokeToGsup_error {m : MapMessage} {e : Exn} (h : mapInvokeToGsup m = .error e) :
    ∃ what, e = .conversionError what := by
  unfold mapInvokeToGsup at h
  split at h
  · cases h
    exact ⟨_, rfl⟩
  · cases hop : m.operation <;> rw [hop] at h <;> cases h <;> exact ⟨_, rfl⟩

theorem mapInvokeToGsup_imsi {m : MapMessage} {g : GsupMessage} (h : mapInvokeToGsup m = .ok g) :
    g.imsi = m.imsi := by
  unfold mapInvokeToGsup at h
  split at h
  · cases h
  · cases hop : m.operation <;> rw [hop] at h <;> cases h <;> rfl

/-- Exactly the eight HLR-initiated types have an operation. -/
theorem answeredOperation_spec (type : MessageType) :
    (isHlrInitiatedGsupType type = true ∧ ∃ op, answeredOperation type = .ok op) ∨
    (isHlrInitiatedGsupType type = false ∧
      ∃ what, answeredOperation type = .error (.conversionError what)) := by
  cases type
  case insertDataResult => exact .inl ⟨rfl, _, rfl⟩
  case insertDataError => exact .inl ⟨rfl, _, rfl⟩
  case locationCancelResult => exact .inl ⟨rfl, _, rfl⟩
  case locationCancelError => exact .inl ⟨rfl, _, rfl⟩
  case deleteDataResult => exact .inl ⟨rfl, _, rfl⟩
  case deleteDataError => exact .inl ⟨rfl, _, rfl⟩
  case purgeMsResult => exact .inl ⟨rfl, _, rfl⟩
  case purgeMsError => exact .inl ⟨rfl, _, rfl⟩
  all_goals exact .inr ⟨rfl, _, rfl⟩

/-! ## Transaction manager -/

namespace TransactionManager

variable {mgr : TransactionManager} {imsi : Str} {client : ClientId} {now : TimePoint}

/-- The record `allocate` builds. -/
def newTransaction (mgr : TransactionManager) (imsi : Str) (client : ClientId)
    (now : TimePoint) : PendingTransaction :=
  { mapTransactionId := mgr.peekTid, mapInvokeId := mgr.peekInvokeId, imsi := imsi,
    clientContext := client, createdAt := now }

/-- The manager with both counters moved on. -/
def advance (mgr : TransactionManager) : TransactionManager :=
  { mgr with tidCounter := mgr.peekTid + 1, invokeIdCounter := mgr.peekInvokeId + 1 }

theorem allocate_eq :
    mgr.allocate imsi client now =
      (mgr.peekTid, mgr.advance.emplace mgr.peekTid (mgr.newTransaction imsi client now)) := rfl

theorem emplace_fresh {tid : UInt32} {t : PendingTransaction} (h : tid ∉ mgr.transactions) :
    mgr.emplace tid t = { mgr with transactions := mgr.transactions.insert tid t } := by
  rw [emplace, if_neg h]

/-- After `emplace` the id is taken, by the old record or the new one. -/
theorem find_emplace {tid : UInt32} {t : PendingTransaction} :
    ∃ tx, (mgr.emplace tid t).find tid = some tx := by
  unfold emplace
  split
  · rename_i h
    exact Finmap.mem_iff.mp h
  · exact ⟨t, Finmap.lookup_insert _⟩

@[simp] theorem find_complete {tid t : UInt32} :
    (mgr.complete tid).find t = if t = tid then none else mgr.find t := lookup_erase_ite

/-- The record under `tid`, if it is due at `now`. -/
def stale (mgr : TransactionManager) (now : TimePoint) (tid : UInt32) :
    Option PendingTransaction :=
  (mgr.find tid).filter fun t => olderThan mgr.timeout now t.createdAt

/-- A turn of `expireStale`. -/
def expireTurn (now : TimePoint) (mgr : TransactionManager) (tid : UInt32) :
    TransactionManager × Option PendingTransaction :=
  (if (mgr.stale now tid).isSome then mgr.complete tid else mgr, mgr.stale now tid)

theorem expireLoop_eq_visit (now : TimePoint) (order : List UInt32) :
    ∀ (expired : List PendingTransaction) (mgr : TransactionManager),
      expireLoop now order expired mgr = (visit (expireTurn now) order mgr expired).swap := by
  induction order with
  | nil => intro expired mgr; rfl
  | cons tid order ih =>
    intro expired mgr
    rw [visit, ← ih]
    cases hfind : mgr.find tid with
    | none =>
      have hstale : mgr.stale now tid = none := by simp [stale, hfind]
      simp [expireLoop, expireTurn, hfind, hstale]
    | some tx =>
      by_cases hold : olderThan mgr.timeout now tx.createdAt = true
      · have hstale : mgr.stale now tid = some tx := by simp [stale, hfind, hold]
        simp [expireLoop, expireTurn, hfind, hold, hstale]
      · have hstale : mgr.stale now tid = none := by simp [stale, hfind, hold]
        simp [expireLoop, expireTurn, hfind, hold, hstale]

theorem expireTurn_keyed (now : TimePoint) :
    Keyed (expireTurn now) id (fun mgr t => (mgr.find t, mgr.stale now t)) (fun e _ => e.2)
      (fun e _ => if e.2.isSome then (none, none) else e) where
  emits := fun _ _ => rfl
  changes := by
    intro mgr tid
    unfold expireTurn
    dsimp only [id]
    split
    · simp [stale]
    · rfl
  leaves := by
    intro mgr tid t hne
    rw [id] at hne
    unfold expireTurn
    split
    · simp only [stale, find_complete, if_neg hne]
      rfl
    · rfl

/-- `expireStale` collects the stale records in the order of its visit and removes exactly
them. -/
theorem expireLoop_spec (now : TimePoint) (order : List UInt32)
    (expired : List PendingTransaction) (mgr : TransactionManager) (hnodup : order.Nodup) :
    (expireLoop now order expired mgr).1 = expired ++ order.filterMap (mgr.stale now) ∧
    ∀ t, (expireLoop now order expired mgr).2.find t =
      if t ∈ order ∧ (mgr.stale now t).isSome then none else mgr.find t := by
  rw [expireLoop_eq_visit]
  obtain ⟨hexpired, hvisited, hother⟩ :=
    (expireTurn_keyed now).visit_spec order mgr expired (by rwa [List.map_id])
  refine ⟨hexpired, ?_⟩
  intro t
  by_cases ht : t ∈ order
  · have hentry := congrArg Prod.fst (hvisited t ht)
    dsimp only [id] at hentry
    rw [Prod.snd_swap, hentry]
    by_cases hstale : (mgr.stale now t).isSome = true
    · simp [ht, hstale]
    · simp [hstale]
  · have hentry := congrArg Prod.fst (hother t (by rwa [List.map_id]))
    rw [if_neg fun h => ht h.1]
    exact hentry

/-- `expireStale` changes the table only. -/
theorem expireLoop_mgr (now : TimePoint) (order : List UInt32) :
    ∀ (expired : List PendingTransaction) (mgr : TransactionManager),
      (expireLoop now order expired mgr).2 =
        { mgr with transactions := (expireLoop now order expired mgr).2.transactions } := by
  induction order with
  | nil => intro expired mgr; rfl
  | cons tid order ih =>
    intro expired mgr
    rw [expireLoop]
    split
    · exact ih expired mgr
    · split
      · exact ih _ _
      · exact ih expired mgr

end TransactionManager

/-! ## NAK and expiry -/

namespace Proxy

/-- What NAK and expiry send for a transaction. -/
def errorReply (p : Proxy) (tid : UInt32) : Option Send :=
  match p.pendingOps.lookup tid, p.txMgr.find tid with
  | some op, some pending => sendReturnError tid op pending
  | _, _ => none

/-- A turn of the NAK loop. -/
def nackTurn (p : Proxy) (tid : UInt32) : Proxy × Option Send :=
  (if tid ∈ p.pendingOps then { p with txMgr := p.txMgr.complete tid } else p, p.errorReply tid)

theorem nackLoop_eq_visit (order : List UInt32) :
    ∀ (p : Proxy) (sent : List Send), nackLoop order p sent = visit nackTurn order p sent := by
  induction order with
  | nil => intro p sent; rfl
  | cons tid order ih =>
    intro p sent
    rw [visit, ← ih]
    cases hop : p.pendingOps.lookup tid with
    | none =>
      have hmem : tid ∉ p.pendingOps := Finmap.lookup_eq_none.mp hop
      simp [nackLoop, nackTurn, errorReply, hop, hmem]
    | some op =>
      have hmem : tid ∈ p.pendingOps := mem_of_lookup hop
      cases hfind : p.txMgr.find tid with
      | none =>
        -- there is nothing to complete
        have hnot : tid ∉ p.txMgr.transactions := Finmap.lookup_eq_none.mp hfind
        have hsame : p.txMgr.complete tid = p.txMgr := by
          rw [TransactionManager.complete, erase_eq_self_iff.mpr hnot]
        simp [nackLoop, nackTurn, errorReply, hop, hfind, hmem, hsame]
      | some pending => simp [nackLoop, nackTurn, errorReply, hop, hfind, hmem]

theorem nackTurn_keyed :
    Keyed nackTurn id (fun p t => (p.pendingOps.lookup t, p.txMgr.find t))
      (fun e tid => e.1.bind fun op => e.2.bind fun pending => sendReturnError tid op pending)
      (fun e _ => (e.1, if e.1.isSome then none else e.2)) where
  emits := by
    intro p tid
    unfold nackTurn errorReply
    dsimp only [id]
    cases p.pendingOps.lookup tid <;> cases p.txMgr.find tid <;> rfl
  changes := by
    intro p tid
    unfold nackTurn
    dsimp only [id]
    by_cases hmem : tid ∈ p.pendingOps
    · obtain ⟨op, hop⟩ := Finmap.mem_iff.mp hmem
      simp [hmem, hop]
    · simp [hmem, Finmap.lookup_eq_none.mpr hmem]
  leaves := by
    intro p tid t hne
    rw [id] at hne
    unfold nackTurn
    split
    · simp [hne]
    · rfl

theorem nackLoop_frame (order : List UInt32) :
    ∀ (p : Proxy) (sent : List Send),
      (nackLoop order p sent).1 = { p with txMgr := { p.txMgr with
        transactions := (nackLoop order p sent).1.txMgr.transactions } } := by
  induction order with
  | nil => intro p sent; rfl
  | cons tid order ih =>
    intro p sent
    rw [nackLoop]
    split
    · exact ih _ _
    · exact ih p sent

/-- The NAK loop answers the transactions in the order of its visit and completes those that are
in both tables; the other tables stay. -/
theorem nackLoop_spec (order : List UInt32) (p : Proxy) (sent : List Send)
    (hnodup : order.Nodup) :
    (nackLoop order p sent).2 = sent ++ order.filterMap p.errorReply ∧
    (nackLoop order p sent).1.hlrTx = p.hlrTx ∧
    ∀ t, (nackLoop order p sent).1.txMgr.find t =
      if t ∈ order ∧ t ∈ p.pendingOps then none else p.txMgr.find t := by
  have hhlr : (nackLoop order p sent).1.hlrTx = p.hlrTx := by rw [nackLoop_frame]
  obtain ⟨hsent, hvisited, hother⟩ :=
    nackTurn_keyed.visit_spec order p sent (by rwa [List.map_id])
  rw [← nackLoop_eq_visit] at hsent hvisited hother
  refine ⟨?_, hhlr, ?_⟩
  · rw [hsent]
    congr 1
    apply List.filterMap_congr
    intro tid _
    exact (nackTurn_keyed.emits p tid).symm
  · intro t
    by_cases ht : t ∈ order
    · have hentry := congrArg Prod.snd (hvisited t ht)
      dsimp only [id] at hentry
      rw [hentry]
      simp [ht, Finmap.lookup_isSome]
    · have hentry := congrArg Prod.snd (hother t (by rwa [List.map_id]))
      rw [if_neg fun h => ht h.1]
      exact hentry

theorem nackAllPendingTransactions_spec (p : Proxy) {order : List UInt32} (h : order.Nodup) :
    (p.nackAllPendingTransactions order).2 = order.filterMap p.errorReply ∧
    (p.nackAllPendingTransactions order).1.hlrTx = p.hlrTx ∧
    (p.nackAllPendingTransactions order).1.pendingOps = ∅ ∧
    ∀ t, (p.nackAllPendingTransactions order).1.txMgr.find t =
      if t ∈ order ∧ t ∈ p.pendingOps then none else p.txMgr.find t := by
  obtain ⟨hsent, hhlr, hlook⟩ := nackLoop_spec order p [] h
  exact ⟨hsent, hhlr, rfl, hlook⟩

theorem step_nack {p p' : Proxy} {order : List UInt32} {outs : List Send} (hnodup : order.Nodup)
    (h : p.step (.nack order) = .ok (p', outs)) :
    outs = order.filterMap p.errorReply ∧ p'.hlrTx = p.hlrTx ∧ p'.pendingOps = ∅ ∧
      ∀ t, p'.txMgr.find t =
        if t ∈ order ∧ t ∈ p.pendingOps then none else p.txMgr.find t := by
  have hspec := nackAllPendingTransactions_spec p hnodup
  rw [show p.nackAllPendingTransactions order = (p', outs) from Except.ok.inj h] at hspec
  exact hspec

/-- A turn of the expiry loop. -/
def expireSgsnTurn (ops : PendingOps) (tx : PendingTransaction) : PendingOps × Option Send :=
  (ops.erase tx.mapTransactionId, (ops.lookup tx.mapTransactionId).bind fun op =>
    sendReturnError tx.mapTransactionId op tx)

theorem expireSgsnLoop_eq_visit (expired : List PendingTransaction) :
    ∀ (ops : PendingOps) (sent : List Send),
      expireSgsnLoop expired ops sent = visit expireSgsnTurn expired ops sent := by
  induction expired with
  | nil => intro ops sent; rfl
  | cons tx expired ih =>
    intro ops sent
    rw [visit, ← ih]
    cases hop : ops.lookup tx.mapTransactionId with
    | none =>
      have hsame : ops.erase tx.mapTransactionId = ops :=
        erase_eq_self_iff.mpr (Finmap.lookup_eq_none.mp hop)
      simp [expireSgsnLoop, expireSgsnTurn, hop, hsame]
    | some op => simp [expireSgsnLoop, expireSgsnTurn, hop]

theorem expireSgsnTurn_keyed :
    Keyed expireSgsnTurn PendingTransaction.mapTransactionId (fun ops t => ops.lookup t)
      (fun e tx => e.bind fun op => sendReturnError tx.mapTransactionId op tx)
      (fun _ _ => none) where
  emits := fun _ _ => rfl
  changes := fun _ _ => Finmap.lookup_erase _ _
  leaves := fun _ _ _ hne => Finmap.lookup_erase_ne hne

/-- The expiry loop answers the expired records in order and erases their operations. -/
theorem expireSgsnLoop_spec (expired : List PendingTransaction) (ops : PendingOps)
    (sent : List Send) (hnodup : (expired.map (·.mapTransactionId)).Nodup) :
    (expireSgsnLoop expired ops sent).2 = sent ++ expired.filterMap (fun tx =>
      (ops.lookup tx.mapTransactionId).bind fun op =>
        sendReturnError tx.mapTransactionId op tx) ∧
    ∀ t, (expireSgsnLoop expired ops sent).1.lookup t =
      if t ∈ expired.map (·.mapTransactionId) then none else ops.lookup t := by
  rw [expireSgsnLoop_eq_visit]
  obtain ⟨hsent, hvisited, hother⟩ := expireSgsnTurn_keyed.visit_spec expired ops sent hnodup
  refine ⟨hsent, ?_⟩
  intro t
  split
  · rename_i ht
    obtain ⟨tx, htx, rfl⟩ := List.mem_map.mp ht
    exact hvisited tx htx
  · rename_i ht
    exact hother t ht

/-- Expiry of SGSN transactions, in a state whose records know their own ids. -/
theorem expireSgsnTransactions_spec (p : Proxy) {order : List UInt32} (now : TimePoint)
    (h : order.Nodup) (hids : ∀ t tx, p.txMgr.find t = some tx → tx.mapTransactionId = t) :
    (p.expireSgsnTransactions order now).2 =
      (order.filter fun t => (p.txMgr.stale now t).isSome).filterMap p.errorReply ∧
    (p.expireSgsnTransactions order now).1.hlrTx = p.hlrTx ∧
    (∀ t, (p.expireSgsnTransactions order now).1.txMgr.find t =
      if t ∈ order ∧ (p.txMgr.stale now t).isSome then none else p.txMgr.find t) ∧
    ∀ t, (p.expireSgsnTransactions order now).1.pendingOps.lookup t =
      if t ∈ order ∧ (p.txMgr.stale now t).isSome then none else p.pendingOps.lookup t := by
  obtain ⟨hexp, hfind⟩ := TransactionManager.expireLoop_spec now order [] p.txMgr h
  rw [List.nil_append] at hexp
  have hid : ∀ t tx, p.txMgr.stale now t = some tx →
      tx.mapTransactionId = t ∧ p.txMgr.find t = some tx := by
    intro t tx hstale
    have hsome := (Option.filter_eq_some_iff.mp hstale).1
    exact ⟨hids t tx hsome, hsome⟩
  have hmap : (order.filterMap (p.txMgr.stale now)).map (·.mapTransactionId) =
      order.filter fun t => (p.txMgr.stale now t).isSome := by
    clear hexp hfind h
    induction order with
    | nil => rfl
    | cons t order ih =>
      cases hs : p.txMgr.stale now t with
      | none => rw [List.filterMap_cons_none hs, List.filter_cons_of_neg (by simp [hs]), ih]
      | some tx =>
        rw [List.filterMap_cons_some hs, List.filter_cons_of_pos (by simp [hs]), List.map_cons,
          (hid t tx hs).1, ih]
  obtain ⟨hsent, hlook⟩ := expireSgsnLoop_spec (order.filterMap (p.txMgr.stale now)) p.pendingOps
    [] (by rw [hmap]; exact h.filter _)
  have hrecords : (order.filterMap (p.txMgr.stale now)).filterMap (fun tx =>
      (p.pendingOps.lookup tx.mapTransactionId).bind fun op =>
        sendReturnError tx.mapTransactionId op tx) =
      (order.filter fun t => (p.txMgr.stale now t).isSome).filterMap p.errorReply := by
    rw [← hmap, List.filterMap_map]
    apply List.filterMap_congr
    intro tx htx
    obtain ⟨t, -, hstale⟩ := List.mem_filterMap.mp htx
    obtain ⟨rfl, hfound⟩ := hid t tx hstale
    simp only [Function.comp, errorReply, hfound]
    cases p.pendingOps.lookup tx.mapTransactionId <;> rfl
  simp only [expireSgsnTransactions, TransactionManager.expireStale, hexp]
  refine ⟨by rw [hsent, List.nil_append, hrecords], trivial, hfind, ?_⟩
  intro t
  rw [hlook t, hmap]
  simp only [List.mem_filter]

theorem step_expireSgsn {p p' : Proxy} {order : List UInt32} {now : TimePoint}
    {outs : List Send} (hnodup : order.Nodup)
    (hids : ∀ t tx, p.txMgr.find t = some tx → tx.mapTransactionId = t)
    (h : p.step (.expireSgsn order now) = .ok (p', outs)) :
    outs = (order.filter fun t => (p.txMgr.stale now t).isSome).filterMap p.errorReply ∧
      p'.hlrTx = p.hlrTx ∧
      (∀ t, p'.txMgr.find t =
        if t ∈ order ∧ (p.txMgr.stale now t).isSome then none else p.txMgr.find t) ∧
      ∀ t, p'.pendingOps.lookup t =
        if t ∈ order ∧ (p.txMgr.stale now t).isSome then none else p.pendingOps.lookup t := by
  have hspec := expireSgsnTransactions_spec p now hnodup hids
  rw [show p.expireSgsnTransactions order now = (p', outs) from Except.ok.inj h] at hspec
  exact hspec

/-- Expiry of HLR transactions only ever removes stale entries. -/
theorem expireHlrLoop_lookup (timeout : Int) (now : TimePoint) (order : List Str) :
    ∀ (hlrTx : HlrTransactions) (imsi : Str),
      (expireHlrLoop timeout now order hlrTx).lookup imsi =
        if imsi ∈ order ∧ ∃ entry, hlrTx.lookup imsi = some entry ∧
          olderThan timeout now entry.createdAt then none else hlrTx.lookup imsi := by
  induction order with
  | nil => intro hlrTx imsi; simp [expireHlrLoop]
  | cons key order ih =>
    intro hlrTx imsi
    cases hkey : hlrTx.lookup key with
    | none =>
      simp only [expireHlrLoop, hkey]
      rw [ih]
      by_cases himsi : imsi = key
      · subst himsi
        simp [hkey]
      · simp [himsi]
    | some entry =>
      by_cases hold : olderThan timeout now entry.createdAt = true
      · simp only [expireHlrLoop, hkey, if_pos hold]
        rw [ih, lookup_erase_ite]
        by_cases himsi : imsi = key
        · subst himsi
          simp [hkey, hold]
        · simp [himsi]
      · simp only [expireHlrLoop, hkey, if_neg hold]
        rw [ih]
        by_cases himsi : imsi = key
        · subst himsi
          simp [hkey, hold]
        · simp [himsi]

/-! ## Answers of the HLR -/

/-- What an answer of the HLR makes the proxy send for the pending transaction. -/
def answerReply (p : Proxy) (pending : PendingTransaction) (mapMsg : MapMessage) : Option Send :=
  match mapToGsup (p.fillIn pending mapMsg) >>= Gsup.encode with
  | .ok gsupData => some (.sgsn gsupData pending.clientContext)
  | .error _ => none

/-- An answer to a pending transaction ends it, whether or not a reply could be built. -/
theorem handleMapAnswer_eq (p : Proxy) (mapMsg : MapMessage) :
    p.handleMapAnswer mapMsg =
      match p.txMgr.find mapMsg.transactionId with
      | none => .ok (p, [])
      | some pending =>
          .ok (p.forget mapMsg.transactionId, (p.answerReply pending mapMsg).toList) := by
  unfold handleMapAnswer
  cases hfind : p.txMgr.find mapMsg.transactionId with
  | none => rfl
  | some pending =>
    dsimp only
    cases hmap : mapToGsup (p.fillIn pending mapMsg) with
    | error e =>
      obtain ⟨what, rfl⟩ := mapToGsup_error hmap
      simp [answerReply, hmap]
    | ok g =>
      dsimp only
      cases henc : Gsup.encode g with
      | error e => simp [answerReply, hmap, henc]
      | ok data => simp [answerReply, hmap, henc]

/-! ## HLR-initiated requests and their answers -/

/-- The entry stored for an Invoke. -/
def hlrEntry (mapMsg : MapMessage) (now : TimePoint) : HlrTxEntry :=
  { mapTransactionId := mapMsg.transactionId, mapInvokeId := mapMsg.invokeId,
    mapOperation := mapMsg.operation, createdAt := now }

/-- An Invoke is refused, or forgotten together with any earlier entry of its IMSI because it
cannot be encoded, or stored and broadcast. -/
theorem handleHlrInitiated_eq (p : Proxy) (mapMsg : MapMessage) (now : TimePoint) :
    p.handleHlrInitiated mapMsg now =
      match mapInvokeToGsup mapMsg with
      | .error _ => .ok (p, [])
      | .ok gsupMsg =>
          match Gsup.encode gsupMsg with
          | .error _ => .ok ({ p with hlrTx := p.hlrTx.erase mapMsg.imsi }, [])
          | .ok gsupData =>
              .ok ({ p with hlrTx := p.hlrTx.insert mapMsg.imsi (hlrEntry mapMsg now) },
                [.sgsn gsupData 0]) := by
  unfold handleHlrInitiated
  cases hmap : mapInvokeToGsup mapMsg with
  | error e =>
    obtain ⟨what, rfl⟩ := mapInvokeToGsup_error hmap
    rfl
  | ok g =>
    rw [← mapInvokeToGsup_imsi hmap]
    dsimp only
    cases henc : Gsup.encode g with
    | error e => simp [erase_insert]
    | ok data => rfl

/-- What an SGSN's answer makes the proxy send for the stored Invoke. -/
def hlrReply (entry : HlrTxEntry) (gsupMsg : GsupMessage) : Option Send :=
  match gsupToMapResult gsupMsg entry.mapTransactionId entry.mapInvokeId >>= Map.encode with
  | .ok mapData => some (.hlr mapData)
  | .error _ => none

/-- An SGSN's answer uses up the entry of its IMSI. -/
theorem handleGsupHlrResponse_eq (p : Proxy) (gsupMsg : GsupMessage) :
    p.handleGsupHlrResponse gsupMsg =
      match p.hlrTx.lookup gsupMsg.imsi with
      | none => .ok (p, [])
      | some entry =>
          .ok ({ p with hlrTx := p.hlrTx.erase gsupMsg.imsi },
            (hlrReply entry gsupMsg).toList) := by
  unfold handleGsupHlrResponse
  cases hfind : p.hlrTx.lookup gsupMsg.imsi with
  | none => rfl
  | some entry =>
    dsimp only
    rcases answeredOperation_spec gsupMsg.type with ⟨-, op, hop⟩ | ⟨-, what, hop⟩
    · simp only [gsupToMapResult, hlrReply, hop, except_ok_bind, except_pure]
      cases Map.encode _ <;> rfl
    · simp [gsupToMapResult, hlrReply, hop]

/-! ## Requests of an SGSN -/

/-- A decoded request is within the bounds of the MAP encoder. -/
theorem sized_of_gsupToMap {g : GsupMessage} {tid : UInt32} {id : UInt8} {m : MapMessage}
    (hg : Gsup.Decoded g) (h : gsupToMap g tid id = .ok m) : Map.Sized m := by
  have himsi := hg.imsi_length
  unfold gsupToMap at h
  cases htype : g.type <;> rw [htype] at h <;> cases h
  case insertDataRequest => exact ⟨himsi, by simp, by simp, hg.msisdn_length⟩
  all_goals exact ⟨himsi, by simp, by simp, by simp⟩

/-- The transaction manager after `allocate`. -/
def allocated (p : Proxy) (g : GsupMessage) (client : ClientId) (now : TimePoint) :
    TransactionManager :=
  p.txMgr.advance.emplace p.txMgr.peekTid (p.txMgr.newTransaction g.imsi client now)

/-- A request of a type that is not supported gives its transaction id back; any other one is
entered in both tables and goes to the HLR. -/
theorem handleGsupPayload_request {p : Proxy} {payload : Bytes} {g : GsupMessage}
    (client : ClientId) (now : TimePoint) (hdec : Gsup.decode payload = .ok g)
    (hreq : isHlrInitiatedGsupType g.type = false) :
    (requestOperation g.type = none ∧
      p.handleGsupPayload payload client now =
        .ok ({ p with txMgr := (p.allocated g client now).complete p.txMgr.peekTid }, [])) ∨
    ∃ tx m op b, requestOperation g.type = some op ∧
      (p.allocated g client now).find p.txMgr.peekTid = some tx ∧
      gsupToMap g p.txMgr.peekTid tx.mapInvokeId = .ok m ∧ m.operation = op ∧
      Map.encode m = .ok b ∧
      p.handleGsupPayload payload client now =
        .ok ({ p with
          txMgr := p.allocated g client now,
          pendingOps := p.pendingOps.insert p.txMgr.peekTid op }, [.hlr b]) := by
  obtain ⟨tx, htx⟩ : ∃ tx, (p.allocated g client now).find p.txMgr.peekTid = some tx :=
    TransactionManager.find_emplace
  rcases gsupToMap_spec g p.txMgr.peekTid tx.mapInvokeId with
    ⟨hnone, what, herr⟩ | ⟨m, op, hsome, hok, hop, hinv⟩
  · refine .inl ⟨hnone, ?_⟩
    simp only [allocated] at htx ⊢
    simp only [handleGsupPayload, hdec, hreq, Bool.false_eq_true, if_false,
      TransactionManager.allocate_eq, htx, herr]
  · obtain ⟨b, hb⟩ :=
      Map.encode_invoke_succeeds hinv (sized_of_gsupToMap (Gsup.decoded_of_decode hdec) hok)
    refine .inr ⟨tx, m, op, b, hsome, htx, hok, hop, hb, ?_⟩
    simp only [allocated] at htx ⊢
    simp only [handleGsupPayload, hdec, hreq, Bool.false_eq_true, if_false,
      TransactionManager.allocate_eq, htx, hok, hb, hop]

/-! ## What a payload does -/

/-- What a payload of an SGSN does. -/
inductive GsupEffect (p : Proxy) (payload : Bytes) (client : ClientId) (now : TimePoint) :
    Proxy → List Send → Prop
  | undecoded {e : Exn} (hdec : Gsup.decode payload = .error e) :
      GsupEffect p payload client now p []
  | unmatched {g : GsupMessage} (hdec : Gsup.decode payload = .ok g)
      (hanswer : isHlrInitiatedGsupType g.type = true) (hnone : p.hlrTx.lookup g.imsi = none) :
      GsupEffect p payload client now p []
  | answered {g : GsupMessage} {entry : HlrTxEntry} (hdec : Gsup.decode payload = .ok g)
      (hanswer : isHlrInitiatedGsupType g.type = true)
      (hentry : p.hlrTx.lookup g.imsi = some entry) :
      GsupEffect p payload client now { p with hlrTx := p.hlrTx.erase g.imsi }
        (hlrReply entry g).toList
  | unsupported {g : GsupMessage} (hdec : Gsup.decode payload = .ok g)
      (hreq : isHlrInitiatedGsupType g.type = false) (hnone : requestOperation g.type = none) :
      GsupEffect p payload client now
        { p with txMgr := (p.allocated g client now).complete p.txMgr.peekTid } []
  | forwarded {g : GsupMessage} {tx : PendingTransaction} {m : MapMessage} {op : MapOperation}
      {b : Bytes} (hdec : Gsup.decode payload = .ok g)
      (hreq : isHlrInitiatedGsupType g.type = false) (hop : requestOperation g.type = some op)
      (hmap : gsupToMap g p.txMgr.peekTid tx.mapInvokeId = .ok m) (hb : Map.encode m = .ok b) :
      GsupEffect p payload client now
        { p with
          txMgr := p.allocated g client now,
          pendingOps := p.pendingOps.insert p.txMgr.peekTid op } [.hlr b]

theorem handleGsupPayload_effect {p p' : Proxy} {payload : Bytes} {client : ClientId}
    {now : TimePoint} {outs : List Send}
    (h : p.handleGsupPayload payload client now = .ok (p', outs)) :
    GsupEffect p payload client now p' outs := by
  cases hdec : Gsup.decode payload with
  | error e =>
    rw [handleGsupPayload, hdec] at h
    cases h
    exact .undecoded hdec
  | ok g =>
    cases hreq : isHlrInitiatedGsupType g.type with
    | true =>
      simp only [handleGsupPayload, hdec, hreq, if_true, handleGsupHlrResponse_eq] at h
      split at h
      · rename_i hnone
        cases h
        exact .unmatched hdec hreq hnone
      · rename_i entry hentry
        cases h
        exact .answered hdec hreq hentry
    | false =>
      rcases handleGsupPayload_request (p := p) client now hdec hreq with
        ⟨hnone, hok⟩ | ⟨tx, m, op, b, hop, -, hmap, -, hb, hok⟩
      · rw [hok] at h
        cases h
        exact .unsupported hdec hreq hnone
      · rw [hok] at h
        cases h
        exact .forwarded hdec hreq hop hmap hb

/-- What a payload of the HLR does. -/
inductive MapEffect (p : Proxy) (payload : Bytes) (now : TimePoint) : Proxy → List Send → Prop
  | undecoded {e : Exn} (hdec : Map.decode payload = .error e) : MapEffect p payload now p []
  | refused {m : MapMessage} {e : Exn} (hdec : Map.decode payload = .ok m)
      (hinv : m.component = .invoke) (hmap : mapInvokeToGsup m = .error e) :
      MapEffect p payload now p []
  | unencoded {m : MapMessage} {g : GsupMessage} {e : Exn} (hdec : Map.decode payload = .ok m)
      (hinv : m.component = .invoke) (hmap : mapInvokeToGsup m = .ok g)
      (henc : Gsup.encode g = .error e) :
      MapEffect p payload now { p with hlrTx := p.hlrTx.erase m.imsi } []
  | stored {m : MapMessage} {g : GsupMessage} {data : Bytes} (hdec : Map.decode payload = .ok m)
      (hinv : m.component = .invoke) (hmap : mapInvokeToGsup m = .ok g)
      (henc : Gsup.encode g = .ok data) :
      MapEffect p payload now { p with hlrTx := p.hlrTx.insert m.imsi (hlrEntry m now) }
        [.sgsn data 0]
  | unmatched {m : MapMessage} (hdec : Map.decode payload = .ok m) (hnot : m.component ≠ .invoke)
      (hnone : p.txMgr.find m.transactionId = none) : MapEffect p payload now p []
  | answered {m : MapMessage} {pending : PendingTransaction} (hdec : Map.decode payload = .ok m)
      (hnot : m.component ≠ .invoke) (hfind : p.txMgr.find m.transactionId = some pending) :
      MapEffect p payload now (p.forget m.transactionId) (p.answerReply pending m).toList

theorem handleMapPayload_effect {p p' : Proxy} {payload : Bytes} {now : TimePoint}
    {outs : List Send} (h : p.handleMapPayload payload now = .ok (p', outs)) :
    MapEffect p payload now p' outs := by
  unfold handleMapPayload at h
  cases hdec : Map.decode payload with
  | error e =>
    rw [hdec] at h
    cases h
    exact .undecoded hdec
  | ok m =>
    simp only [hdec] at h
    split at h
    · rename_i hinv
      rw [handleHlrInitiated_eq] at h
      split at h
      · rename_i e hmap
        cases h
        exact .refused hdec hinv hmap
      · rename_i g hmap
        split at h
        · rename_i e henc
          cases h
          exact .unencoded hdec hinv hmap henc
        · rename_i data henc
          cases h
          exact .stored hdec hinv hmap henc
    · rename_i hnot
      rw [handleMapAnswer_eq] at h
      split at h
      · rename_i hnone
        cases h
        exact .unmatched hdec hnot hnone
      · rename_i pending hfind
        cases h
        exact .answered hdec hnot hfind

/-- No handler lets an exception escape or runs into undefined behaviour, whatever the state. -/
theorem step_total (p : Proxy) (op : Op) : ∃ p' outs, p.step op = .ok (p', outs) := by
  cases op with
  | gsup payload client now =>
    cases hdec : Gsup.decode payload with
    | error e => exact ⟨p, [], by simp only [step, handleGsupPayload, hdec]⟩
    | ok g =>
      cases hreq : isHlrInitiatedGsupType g.type with
      | true =>
        simp only [step, handleGsupPayload, hdec, hreq, if_true, handleGsupHlrResponse_eq]
        cases p.hlrTx.lookup g.imsi with
        | none => exact ⟨_, _, rfl⟩
        | some entry => exact ⟨_, _, rfl⟩
      | false =>
        rcases handleGsupPayload_request (p := p) client now hdec hreq with
          ⟨-, h⟩ | ⟨_, _, _, _, -, -, -, -, -, h⟩
        · exact ⟨_, _, h⟩
        · exact ⟨_, _, h⟩
  | map payload now =>
    simp only [step, handleMapPayload]
    cases Map.decode payload with
    | error e => exact ⟨_, _, rfl⟩
    | ok m =>
      dsimp only
      split
      · rw [handleHlrInitiated_eq]
        split
        · exact ⟨_, _, rfl⟩
        · split <;> exact ⟨_, _, rfl⟩
      · rw [handleMapAnswer_eq]
        split <;> exact ⟨_, _, rfl⟩
  | nack order => exact ⟨_, _, rfl⟩
  | expireSgsn order now => exact ⟨_, _, rfl⟩
  | expireHlr order timeout now => exact ⟨_, _, rfl⟩

end Proxy

end GsupMapProxy
