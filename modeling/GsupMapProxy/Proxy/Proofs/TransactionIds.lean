import GsupMapProxy.Misc.Run
import GsupMapProxy.Proxy.Proofs.Handlers

/-!
# Transaction ids across the wrap-around

`nextTid` goes through the ids from 1 to 2^32 - 1 and starts again at 1. It does not look whether
the id is free, and `emplace` keeps the record that is there. So the ids are as unique as the
transactions are short-lived: one that outlives a whole cycle of the counter meets its id again.
-/

namespace GsupMapProxy

open Misc

namespace TransactionManager

/-! ## Runs of the transaction manager -/

/-- The calls of `TransactionManager`. -/
inductive Call where
  | allocate (imsi : Str) (client : ClientId) (now : TimePoint)
  | complete (tid : UInt32)
  | find (tid : UInt32)
  | expireStale (order : List UInt32) (now : TimePoint)

/-- What a call returns. -/
inductive Answer where
  | tid (t : UInt32)
  | record (tx : Option PendingTransaction)
  | expired (txs : List PendingTransaction)

/-- The calls that can happen: the loop of `expireStale` visits the table. -/
def Call.Possible (mgr : TransactionManager) : Call → Prop
  | .expireStale order _ => Enumerates order mgr.transactions
  | _ => True

/-- One call. -/
def call (mgr : TransactionManager) : Call → Except Exn (TransactionManager × List Answer)
  | .allocate imsi client now =>
      .ok ((mgr.allocate imsi client now).2, [.tid (mgr.allocate imsi client now).1])
  | .complete tid => .ok (mgr.complete tid, [])
  | .find tid => .ok (mgr, [.record (mgr.find tid)])
  | .expireStale order now =>
      .ok ((mgr.expireStale order now).2, [.expired (mgr.expireStale order now).1])

abbrev CallEvent := Event TransactionManager Call Answer

abbrev CallRun (timeout : Int) (events : List CallEvent) (mgr : TransactionManager) : Prop :=
  Run call (fun mgr op => op.Possible mgr) { timeout := timeout } events mgr

/-- The live transactions. -/
def live (mgr : TransactionManager) : Nat := mgr.transactions.keys.card

/-- What `allocate` promises: an id that is not 0 and not in use, under which the new record is
found, and no change to any other record. -/
def AllocatesUnused (e : CallEvent) (imsi : Str) (client : ClientId) : Prop :=
  ∃ tid, e.outs = [.tid tid] ∧ tid ≠ 0 ∧ e.pre.find tid = none ∧
    (∀ t, t ≠ tid → e.post.find t = e.pre.find t) ∧
    ∃ tx, e.post.find tid = some tx ∧ tx.imsi = imsi ∧ tx.clientContext = client

/-! ## The counter -/

/-- The ids there are. -/
def tidPeriod : Nat := 2 ^ 32 - 1

def isAllocate (e : CallEvent) : Bool :=
  match e.op with
  | .allocate _ _ _ => true
  | _ => false

theorem exists_of_isAllocate {e : CallEvent} (h : isAllocate e = true) :
    ∃ imsi client now, e.op = .allocate imsi client now := by
  unfold isAllocate at h
  split at h
  · rename_i imsi client now hop
    exact ⟨imsi, client, now, hop⟩
  · cases h

/-- The number of `allocate` calls. -/
def allocations (events : List CallEvent) : Nat := events.countP isAllocate

/-- The id of the allocation with this number. -/
def tidAt (n : Nat) : UInt32 := UInt32.ofNat (n % tidPeriod + 1)

theorem tidAt_toNat (n : Nat) : (tidAt n).toNat = n % tidPeriod + 1 := by
  have hlt := Nat.mod_lt n (show 0 < tidPeriod by decide)
  rw [tidAt, UInt32.toNat_ofNat_of_lt']
  simp only [tidPeriod, UInt32.size] at hlt ⊢
  omega

theorem tidAt_inj {m n : Nat} : tidAt m = tidAt n ↔ m % tidPeriod = n % tidPeriod := by
  rw [← UInt32.toNat_inj, tidAt_toNat, tidAt_toNat]
  omega

/-- The counter behind an id leads to the next one. -/
theorem tidAt_succ (n : Nat) :
    (if tidAt n + 1 = 0 then 1 else tidAt n + 1) = tidAt (n + 1) := by
  have hlt := Nat.mod_lt n (show 0 < tidPeriod by decide)
  have hadd : (tidAt n + 1).toNat = (n % tidPeriod + 1 + 1) % 2 ^ 32 := by
    rw [UInt32.toNat_add, tidAt_toNat]
    rfl
  rw [← UInt32.toNat_inj, tidAt_toNat]
  by_cases hwrap : n % tidPeriod + 1 = tidPeriod
  · have hzero : tidAt n + 1 = 0 := by
      rw [← UInt32.toNat_inj, hadd, hwrap]
      rfl
    have hmod : (n + 1) % tidPeriod = 0 := by
      rw [Nat.add_mod, show 1 % tidPeriod = 1 from rfl, hwrap, Nat.mod_self]
    rw [if_pos hzero, hmod]
    rfl
  · have hmod : (n + 1) % tidPeriod = n % tidPeriod + 1 := by
      rw [Nat.add_mod, show 1 % tidPeriod = 1 from rfl, Nat.mod_eq_of_lt (by omega)]
    have hsmall : n % tidPeriod + 1 + 1 < 2 ^ 32 := by
      simp only [tidPeriod] at hlt hwrap ⊢
      omega
    rw [Nat.mod_eq_of_lt hsmall] at hadd
    have hne : tidAt n + 1 ≠ 0 := by
      intro h
      rw [h] at hadd
      simp at hadd
    rw [if_neg hne, hadd, hmod]

theorem emplace_tidCounter (mgr : TransactionManager) (tid : UInt32) (t : PendingTransaction) :
    (mgr.emplace tid t).tidCounter = mgr.tidCounter := by
  unfold emplace
  split <;> rfl

variable {timeout : Int} {events : List CallEvent} {mgr : TransactionManager}

theorem allocations_snoc (events : List CallEvent) (e : CallEvent) :
    allocations (events ++ [e]) = allocations events + if isAllocate e then 1 else 0 := by
  rw [allocations, List.countP_append, List.countP_singleton]
  rfl

/-- The next id is that of the number of allocations so far. -/
theorem peekTid_of_run (hrun : CallRun timeout events mgr) :
    mgr.peekTid = tidAt (allocations events) := by
  induction hrun with
  | nil => rfl
  | @snoc events s s' outs earlier op hop hs ih =>
    rw [allocations_snoc]
    cases op with
    | allocate imsi client now =>
      cases hs
      have hcounter : (s.allocate imsi client now).2.tidCounter = s.peekTid + 1 :=
        emplace_tidCounter _ _ _
      rw [peekTid, hcounter, ih]
      exact tidAt_succ _
    | complete tid =>
      cases hs
      exact ih
    | find tid =>
      cases hs
      exact ih
    | expireStale order now =>
      cases hs
      have hcounter : (s.expireStale order now).2.tidCounter = s.tidCounter := by
        rw [expireStale, expireLoop_mgr]
      rw [peekTid, hcounter]
      exact ih

theorem allocations_take_succ {i : Nat} {e : CallEvent} (he : events[i]? = some e) :
    allocations (events.take (i + 1)) =
      allocations (events.take i) + if isAllocate e then 1 else 0 := by
  rw [List.take_add_one, he]
  exact allocations_snoc _ _

theorem allocations_take_le {i j : Nat} (h : i ≤ j) :
    allocations (events.take i) ≤ allocations (events.take j) :=
  (List.take_sublist_take_left h).countP_le

/-! ## One call -/

theorem peekTid_ne_zero (mgr : TransactionManager) : mgr.peekTid ≠ 0 := by
  unfold peekTid
  split
  · decide
  · assumption

theorem allocate_used (imsi : Str) (client : ClientId) (now : TimePoint)
    (h : mgr.peekTid ∈ mgr.transactions) : (mgr.allocate imsi client now).2 = mgr.advance :=
  if_pos h

theorem allocate_unused (imsi : Str) (client : ClientId) (now : TimePoint)
    (h : mgr.peekTid ∉ mgr.transactions) :
    (mgr.allocate imsi client now).2.transactions =
      mgr.transactions.insert mgr.peekTid (mgr.newTransaction imsi client now) := by
  have hfree : mgr.peekTid ∉ mgr.advance.transactions := h
  exact congrArg transactions (emplace_fresh hfree)

theorem find_allocate (imsi : Str) (client : ClientId) (now : TimePoint) (t : UInt32) :
    (mgr.allocate imsi client now).2.find t =
      if t = mgr.peekTid ∧ mgr.peekTid ∉ mgr.transactions then
        some (mgr.newTransaction imsi client now) else mgr.find t := by
  by_cases hfree : mgr.peekTid ∈ mgr.transactions
  · rw [allocate_used imsi client now hfree, if_neg (fun h => h.2 hfree)]
    rfl
  · rw [find, allocate_unused imsi client now hfree, lookup_insert_ite]
    simp only [hfree, not_false_eq_true, and_true]
    rfl

/-- An allocation keeps its promise if and only if the next id is not in use. -/
theorem allocatesUnused_iff (mgr : TransactionManager) (imsi : Str) (client : ClientId)
    (now : TimePoint) :
    AllocatesUnused ⟨mgr, .allocate imsi client now, [.tid (mgr.allocate imsi client now).1],
      (mgr.allocate imsi client now).2⟩ imsi client ↔ mgr.find mgr.peekTid = none := by
  constructor
  · rintro ⟨tid, htid, -, hunused, -⟩
    cases htid
    exact hunused
  · intro hunused
    have hfree : mgr.peekTid ∉ mgr.transactions := Finmap.lookup_eq_none.mp hunused
    refine ⟨mgr.peekTid, rfl, peekTid_ne_zero mgr, hunused, ?_, ?_⟩
    · intro t ht
      dsimp only
      rw [find_allocate, if_neg (fun h => ht h.1)]
    · refine ⟨mgr.newTransaction imsi client now, ?_, rfl, rfl⟩
      dsimp only
      rw [find_allocate, if_pos ⟨rfl, hfree⟩]

/-- The call opens a record under an id that was not in use. -/
def Opens (e : CallEvent) (tid : UInt32) (tx : PendingTransaction) : Prop :=
  ∃ imsi client now, e.op = .allocate imsi client now ∧ tid = e.pre.peekTid ∧
    e.pre.peekTid ∉ e.pre.transactions ∧ tx = e.pre.newTransaction imsi client now

/-- Records appear through `allocate` only. -/
theorem call_tracks {op : Call} {mgr' : TransactionManager} {outs : List Answer}
    (hop : op.Possible mgr) (h : mgr.call op = .ok (mgr', outs)) :
    Tracks find Opens ⟨mgr, op, outs, mgr'⟩ := by
  cases op with
  | allocate imsi client now =>
    cases h
    constructor
    · rintro t tx ⟨_, _, _, hop, rfl, hfree, rfl⟩
      cases hop
      dsimp only
      rw [find_allocate, if_pos ⟨rfl, hfree⟩]
    · intro t tx htx
      dsimp only at htx ⊢
      rw [find_allocate] at htx
      split at htx
      · rename_i hnew
        cases htx
        exact .inl ⟨imsi, client, now, rfl, hnew.1, hnew.2, rfl⟩
      · exact .inr htx
  | complete tid =>
    cases h
    refine ⟨?_, ?_⟩
    · rintro t tx ⟨_, _, _, hop, -⟩
      cases hop
    · intro t tx htx
      dsimp only at htx ⊢
      rw [find_complete] at htx
      split at htx
      · cases htx
      · exact .inr htx
  | find tid =>
    cases h
    refine ⟨?_, fun t tx htx => .inr htx⟩
    rintro t tx ⟨_, _, _, hop, -⟩
    cases hop
  | expireStale order now =>
    obtain ⟨-, hfind⟩ := expireLoop_spec now order [] mgr hop.1
    cases h
    refine ⟨?_, ?_⟩
    · rintro t tx ⟨_, _, _, hop, -⟩
      cases hop
    · intro t tx htx
      dsimp only [expireStale] at htx ⊢
      rw [hfind t] at htx
      split at htx
      · cases htx
      · exact .inr htx

/-! ## Every run -/

/-- No transaction outlives a cycle of the counter: of two allocations that are a whole cycle
apart, the transaction of the first is not live all the way to the second. -/
def RetiredInTime (events : List CallEvent) : Prop :=
  ∀ i j e e' tid tid', events[i]? = some e → e.outs = [.tid tid] → events[j]? = some e' →
    e'.outs = [.tid tid'] →
    allocations (events.take j) = allocations (events.take i) + tidPeriod →
    ∃ l e'', i ≤ l ∧ l < j ∧ events[l]? = some e'' ∧ e''.post.find tid = none

/-- What an event of a run that returns an id is. -/
theorem allocate_of_outs {e : CallEvent} {tid : UInt32}
    (h : e.pre.call e.op = .ok (e.post, e.outs)) (houts : e.outs = [.tid tid]) :
    isAllocate e = true ∧ e.pre.peekTid = tid := by
  obtain ⟨pre, op, outs, post⟩ := e
  dsimp only at h houts
  subst houts
  cases op <;> cases h
  exact ⟨rfl, rfl⟩

theorem outs_of_allocate {e : CallEvent} {imsi : Str} {client : ClientId} {now : TimePoint}
    (h : e.pre.call e.op = .ok (e.post, e.outs)) (hop : e.op = .allocate imsi client now) :
    e.outs = [.tid e.pre.peekTid] := by
  rw [hop] at h
  exact (congrArg Prod.snd (Except.ok.inj h)).symm

theorem tracks_of_run (hrun : CallRun timeout events mgr) : ∀ e ∈ events, Tracks find Opens e := by
  intro e he
  obtain ⟨i, hi⟩ := List.mem_iff_getElem?.mp he
  obtain ⟨hpossible, hcall⟩ := hrun.event hi
  exact call_tracks hpossible hcall

/-- In a run that retires its transactions in time an allocation finds its id free. -/
theorem unused_of_retired (hrun : CallRun timeout events mgr) (hretired : RetiredInTime events)
    {j : Nat} {e : CallEvent} {tid : UInt32} (he : events[j]? = some e)
    (houts : e.outs = [.tid tid]) : e.pre.find tid = none := by
  obtain ⟨halloc, rfl⟩ := allocate_of_outs (hrun.event he).2 houts
  rw [Option.eq_none_iff_forall_ne_some]
  intro tx htx
  -- the record under the id goes back to an allocation, at least a cycle ago
  obtain ⟨b, hb, ⟨eb, heb, hopens⟩, hbetween⟩ :=
    hrun.exists_origin_before (fun _ => rfl) (tracks_of_run hrun) he htx
  have hopened := (tracks_of_run hrun eb (List.mem_of_getElem? heb)).1 _ _ hopens
  obtain ⟨imsi, client, now, hop, htid, -, -⟩ := hopens
  have hbouts := outs_of_allocate (hrun.event heb).2 hop
  have hcycle : tidAt (allocations (events.take j)) = tidAt (allocations (events.take b)) := by
    rw [← peekTid_of_run (hrun.before he), ← peekTid_of_run (hrun.before heb), htid]
  have hlater : allocations (events.take b) + 1 ≤ allocations (events.take j) := by
    have hsucc := allocations_take_succ heb
    rw [if_pos (allocate_of_outs (hrun.event heb).2 hbouts).1] at hsucc
    rw [← hsucc]
    exact allocations_take_le hb
  have hfar : allocations (events.take b) + tidPeriod ≤ allocations (events.take j) := by
    rw [tidAt_inj] at hcycle
    simp only [tidPeriod] at hcycle ⊢
    omega
  -- some allocation up to this one is exactly a cycle after that
  have hcounted : allocations (events.take b) + tidPeriod <
      (events.take (j + 1)).countP isAllocate := by
    have hsucc := allocations_take_succ he
    rw [if_pos halloc, allocations] at hsucc
    rw [hsucc]
    omega
  obtain ⟨k, ek, hk, hkalloc, hcount⟩ := exists_countP_take isAllocate hcounted
  have hkj : k < j + 1 := by
    have hlt := Run.getElem?_lt hk
    rw [List.length_take] at hlt
    omega
  rw [List.getElem?_take_of_lt hkj] at hk
  rw [List.take_take, Nat.min_eq_left (Nat.le_of_lt hkj)] at hcount
  obtain ⟨_, _, _, hkop⟩ := exists_of_isAllocate hkalloc
  have hkouts := outs_of_allocate (hrun.event hk).2 hkop
  obtain ⟨l, el, hbl, hlk, hl, hgone⟩ := hretired b k eb ek _ _ heb hbouts hk hkouts hcount
  -- but up to the allocation at hand the record was there
  rw [← htid] at hgone
  rcases Nat.eq_or_lt_of_le hbl with rfl | hbl
  · rw [heb] at hl
    cases hl
    rw [hopened] at hgone
    cases hgone
  · have hkept := (hbetween l el hbl (by omega) hl).1
    rw [hkept] at hgone
    cases hgone

/-- In every run `allocate` returns unused ids, and its record is found under them, if and only
if no transaction outlives a cycle of the counter. -/
theorem tids_unused_iff (hrun : CallRun timeout events mgr) :
    (∀ e ∈ events, ∀ imsi client now, e.op = .allocate imsi client now →
      AllocatesUnused e imsi client) ↔ RetiredInTime events := by
  constructor
  · intro h i j e e' tid tid' he houts he' houts' hcount
    have hij : i < j := by
      by_contra hle
      have hcount' : allocations (events.take j) ≤ allocations (events.take i) :=
        allocations_take_le (Nat.le_of_not_lt hle)
      simp only [tidPeriod] at hcount
      omega
    obtain ⟨-, rfl⟩ := allocate_of_outs (hrun.event he).2 houts
    obtain ⟨halloc', rfl⟩ := allocate_of_outs (hrun.event he').2 houts'
    have hcycle : e'.pre.peekTid = e.pre.peekTid := by
      rw [peekTid_of_run (hrun.before he), peekTid_of_run (hrun.before he'), tidAt_inj, hcount,
        Nat.add_mod_right]
    obtain ⟨imsi, client, now, hop⟩ := exists_of_isAllocate halloc'
    have hunused : e'.pre.find e'.pre.peekTid = none := by
      obtain ⟨t, ht, -, hnone, -⟩ := h e' (List.mem_of_getElem? he') imsi client now hop
      rw [houts'] at ht
      cases ht
      exact hnone
    obtain ⟨l, rfl⟩ : ∃ l, j = l + 1 := ⟨j - 1, by omega⟩
    have hl := Run.getElem?_lt he'
    obtain ⟨el, hel⟩ : ∃ el, events[l]? = some el :=
      ⟨_, List.getElem?_eq_getElem (by omega)⟩
    refine ⟨l, el, by omega, by omega, hel, ?_⟩
    rw [← hrun.pre_eq_post hel he', ← hcycle]
    exact hunused
  · intro hretired e he imsi client now hop
    obtain ⟨j, hj⟩ := List.mem_iff_getElem?.mp he
    have hcall := (hrun.event hj).2
    have hunused := unused_of_retired hrun hretired hj (outs_of_allocate hcall hop)
    obtain ⟨pre, op, outs, post⟩ := e
    obtain rfl : op = .allocate imsi client now := hop
    have hcall' : pre.call (.allocate imsi client now) = .ok (post, outs) := hcall
    obtain ⟨rfl, rfl⟩ := Prod.mk.inj (Except.ok.inj hcall')
    exact (allocatesUnused_iff pre imsi client now).mpr hunused

theorem two_allocations :
    ∃ events mgr, CallRun 30 events mgr ∧ allocations events = 2 ∧
      ∀ e ∈ events, ∀ imsi client now, e.op = .allocate imsi client now →
        AllocatesUnused e imsi client := by
  obtain ⟨e₁, e₂, mgr, hrun, hcount⟩ : ∃ e₁ e₂ mgr, CallRun 30 [e₁, e₂] mgr ∧
      allocations [e₁, e₂] = 2 :=
    ⟨_, _, _, Run.snoc (Run.snoc .nil (Call.allocate [0x31] 1 0) trivial rfl)
      (Call.allocate [0x32] 2 0) trivial rfl, rfl⟩
  refine ⟨_, mgr, hrun, hcount, (tids_unused_iff hrun).mpr ?_⟩
  intro i j e e' tid tid' _ _ _ _ hcycle
  have hle : allocations ([e₁, e₂].take j) ≤ allocations [e₁, e₂] :=
    (List.take_sublist j _).countP_le
  simp only [tidPeriod] at hcycle
  omega

/-! ## A transaction that outlives the cycle -/

/-- `n` transactions that are completed at once, the first of them with the id 2. -/
def shortLived (n : Nat) : List Call :=
  (List.range n).flatMap fun i => [.allocate [0x32] 2 0, .complete (tidAt (i + 1))]

theorem shortLived_succ (n : Nat) :
    shortLived (n + 1) = shortLived n ++ [.allocate [0x32] 2 0, .complete (tidAt (n + 1))] := by
  rw [shortLived, List.range_succ, List.flatMap_append]
  simp [shortLived]

/-- The table in which the first transaction is the only live one. -/
def firstAlone : Transactions := (∅ : Transactions).insert 1 ⟨1, 1, [0x31], 1, 0⟩

theorem card_keys_insert_le (table : Transactions) (tid : UInt32) (tx : PendingTransaction) :
    (table.insert tid tx).keys.card ≤ table.keys.card + 1 := by
  have hsubset : (table.insert tid tx).keys ⊆ insert tid table.keys := by
    intro t ht
    rw [Finmap.mem_keys, Finmap.mem_insert] at ht
    rw [Finset.mem_insert, Finmap.mem_keys]
    exact ht
  exact (Finset.card_le_card hsubset).trans (Finset.card_insert_le _ _)

theorem tidAt_notMem_firstAlone {n : Nat} (h : n + 1 < tidPeriod) : tidAt (n + 1) ∉ firstAlone := by
  intro hmem
  rcases Finmap.mem_insert.mp hmem with hone | hnone
  · have htid := congrArg UInt32.toNat hone
    rw [tidAt_toNat, Nat.mod_eq_of_lt h] at htid
    simp at htid
  · exact absurd hnone Finmap.notMem_empty

theorem live_firstAlone_insert_le (tid : UInt32) (tx : PendingTransaction) :
    firstAlone.keys.card ≤ 1 ∧ (firstAlone.insert tid tx).keys.card ≤ 2 := by
  have hfirst : firstAlone.keys.card ≤ 1 := card_keys_insert_le ∅ _ _
  have hinsert := card_keys_insert_le firstAlone tid tx
  exact ⟨hfirst, by omega⟩

/-- The short-lived transactions come and go beside the first one. -/
theorem run_shortLived : ∀ {n : Nat}, n + 1 ≤ tidPeriod →
    ∃ events mgr, CallRun 30 events mgr ∧ mgr.transactions = firstAlone ∧
      events.map (·.op) = .allocate [0x31] 1 0 :: shortLived n ∧ allocations events = n + 1 ∧
      ∀ e ∈ events, e.pre.live ≤ 2 ∧ e.post.live ≤ 2 := by
  intro n
  induction n with
  | zero =>
    intro _
    refine ⟨_, _, Run.snoc .nil (Call.allocate [0x31] 1 0) trivial rfl, rfl, rfl, rfl, ?_⟩
    intro e he
    obtain rfl := List.mem_singleton.mp he
    have hlive := (live_firstAlone_insert_le 0 ⟨0, 0, [], 0, 0⟩).1
    exact ⟨Nat.zero_le 2, hlive.trans (by decide)⟩
  | succ n ih =>
    intro hn
    obtain ⟨events, mgr, hrun, htable, hops, hcount, hlive⟩ := ih (by omega)
    have htid : mgr.peekTid = tidAt (n + 1) := by rw [peekTid_of_run hrun, hcount]
    have hfree : mgr.peekTid ∉ mgr.transactions := by
      rw [htid, htable]
      exact tidAt_notMem_firstAlone (by omega)
    have hopened : (mgr.allocate [0x32] 2 0).2.transactions =
        firstAlone.insert (tidAt (n + 1)) (mgr.newTransaction [0x32] 2 0) := by
      rw [← htid, ← htable]
      exact allocate_unused [0x32] 2 0 hfree
    have hclosed : ((mgr.allocate [0x32] 2 0).2.complete (tidAt (n + 1))).transactions =
        firstAlone := by
      rw [complete, hopened, erase_insert_of_notMem (tidAt_notMem_firstAlone (by omega))]
    refine ⟨_, _, Run.snoc (Run.snoc hrun (Call.allocate [0x32] 2 0) trivial rfl)
      (Call.complete (tidAt (n + 1))) trivial rfl, hclosed, ?_, ?_, ?_⟩
    · rw [List.map_append, List.map_append, hops, shortLived_succ]
      simp
    · rw [allocations_snoc, allocations_snoc, hcount]
      rfl
    · obtain ⟨hone, htwo⟩ :=
        live_firstAlone_insert_le (tidAt (n + 1)) (mgr.newTransaction [0x32] 2 0)
      intro e he
      rw [List.append_assoc, List.mem_append] at he
      rcases he with he | he
      · exact hlive e he
      · simp only [live]
        rcases List.mem_pair.mp he with rfl | rfl
        · dsimp only
          rw [htable, hopened]
          omega
        · dsimp only
          rw [hopened, hclosed]
          omega

/-- The first transaction is still waiting when its id comes round, with at most two transactions
live at a time. -/
theorem first_id_reused :
    ∃ events mgr, CallRun 30 events mgr ∧
      events.map (·.op) =
        .allocate [0x31] 1 0 :: shortLived (2 ^ 32 - 2) ++ [.allocate [0x33] 3 0] ∧
      (∀ e ∈ events, e.pre.live < 2 ^ 32 - 1 ∧ e.post.live < 2 ^ 32 - 1) ∧
      ¬ ∀ e ∈ events, ∀ imsi client now, e.op = .allocate imsi client now →
        AllocatesUnused e imsi client := by
  obtain ⟨events, mgr, hrun, htable, hops, hcount, hlive⟩ :=
    run_shortLived (n := 2 ^ 32 - 2) (by decide)
  have htid : mgr.peekTid = 1 := by
    rw [peekTid_of_run hrun, hcount]
    rfl
  have hused : mgr.peekTid ∈ mgr.transactions := by
    rw [htid, htable]
    exact Finmap.mem_insert.mpr (.inl rfl)
  have hkept : (mgr.allocate [0x33] 3 0).2.transactions = firstAlone := by
    rw [allocate_used [0x33] 3 0 hused]
    exact htable
  refine ⟨_, _, Run.snoc hrun (Call.allocate [0x33] 3 0) trivial rfl, ?_, ?_, ?_⟩
  · rw [List.map_append, hops]
    rfl
  · have hone := (live_firstAlone_insert_le 0 ⟨0, 0, [], 0, 0⟩).1
    intro e he
    rcases List.mem_append.mp he with he | he
    · have := hlive e he
      omega
    · obtain rfl := List.mem_singleton.mp he
      simp only [live]
      rw [htable, hkept]
      omega
  · intro h
    have hlast := h _ (List.mem_append_right _ (List.mem_singleton_self _)) [0x33] 3 0 rfl
    rw [allocatesUnused_iff] at hlast
    exact Finmap.lookup_eq_none.mp hlast hused

end TransactionManager

end GsupMapProxy
