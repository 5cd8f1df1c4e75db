import GsupMapProxy.Proxy.Proofs.Fidelity

/-!
# How much a client is sent

A reply to a client is paid for by a transaction of that client, which it ends, and a transaction
by a payload of the client. This needs nothing about transaction ids: when one is used twice, the
first transaction keeps the record and the reply, so that a client can get the wrong reply but
never one too many. A broadcast is paid for by the payload of the HLR it stems from.
-/

namespace GsupMapProxy

open Gsup Map Misc

/-- The message is addressed to one of these clients; 0 stands for all of them. -/
def Send.isFor (clients : ClientId → Bool) : Send → Bool
  | .sgsn _ client => clients client
  | .hlr _ => false

/-- The call can lead to a message for one of these clients. -/
def Op.paysFor (clients : ClientId → Bool) : Op → Bool
  | .gsup _ client _ => clients client
  | .map _ _ => clients 0
  | _ => false

namespace Proxy

variable {p p' : Proxy} {clients : ClientId → Bool} {t : UInt32} {outs : List Send}

/-- The live transactions of these clients. -/
def heldFor (p : Proxy) (clients : ClientId → Bool) : Finset UInt32 :=
  p.txMgr.transactions.keys.filter fun t =>
    (p.txMgr.find t).any fun tx => clients tx.clientContext

theorem mem_heldFor :
    t ∈ p.heldFor clients ↔ ∃ tx, p.txMgr.find t = some tx ∧ clients tx.clientContext = true := by
  rw [heldFor, Finset.mem_filter, Finmap.mem_keys, Option.any_eq_true]
  constructor
  · rintro ⟨-, h⟩
    exact h
  · rintro ⟨tx, htx, hclient⟩
    exact ⟨mem_of_lookup htx, tx, htx, hclient⟩

/-- Where a call ends transactions, each visited once, and replies to their clients only, the
replies to some clients are covered by what these lose. -/
theorem count_closed {ts : List UInt32} {reply : UInt32 → Option Send} (hnodup : ts.Nodup)
    (hreply : ∀ t ∈ ts, ∀ send, reply t = some send → send.isFor clients = true →
      t ∈ p.heldFor clients)
    (hgone : ∀ t ∈ p'.heldFor clients, t ∈ p.heldFor clients ∧ t ∉ ts) :
    (ts.filterMap reply).countP (Send.isFor clients) + (p'.heldFor clients).card ≤
      (p.heldFor clients).card := by
  have hcount : (ts.filterMap reply).countP (Send.isFor clients) ≤
      (ts.filter (· ∈ p.heldFor clients)).length := by
    rw [List.countP_filterMap, ← List.countP_eq_length_filter]
    apply List.countP_mono_left
    intro t ht hfor
    cases hsend : reply t with
    | none => simp [hsend] at hfor
    | some send =>
      rw [hsend] at hfor
      exact decide_eq_true (hreply t ht send hsend hfor)
  have hdisjoint : Disjoint (ts.filter (· ∈ p.heldFor clients)).toFinset (p'.heldFor clients) := by
    rw [Finset.disjoint_right]
    intro t ht hmem
    exact (hgone t ht).2 (List.mem_of_mem_filter (List.mem_toFinset.mp hmem))
  have hsubset : (ts.filter (· ∈ p.heldFor clients)).toFinset ∪ p'.heldFor clients ⊆
      p.heldFor clients := by
    intro t ht
    rcases Finset.mem_union.mp ht with ht | ht
    · simpa using (List.mem_filter.mp (List.mem_toFinset.mp ht)).2
    · exact (hgone t ht).1
  calc (ts.filterMap reply).countP (Send.isFor clients) + (p'.heldFor clients).card
      ≤ (ts.filter (· ∈ p.heldFor clients)).length + (p'.heldFor clients).card :=
        Nat.add_le_add_right hcount _
    _ = ((ts.filter (· ∈ p.heldFor clients)).toFinset ∪ p'.heldFor clients).card := by
        rw [Finset.card_union_of_disjoint hdisjoint,
          List.toFinset_card_of_nodup (hnodup.filter _)]
    _ ≤ (p.heldFor clients).card := Finset.card_le_card hsubset

theorem errorReply_for {send : Send} (h : p.errorReply t = some send)
    (hfor : send.isFor clients = true) : t ∈ p.heldFor clients := by
  unfold errorReply at h
  split at h
  · rename_i op pending hop hfind
    unfold sendReturnError at h
    dsimp only at h
    split at h
    · cases h
      exact mem_heldFor.mpr ⟨pending, hfind, by simpa [Send.isFor] using hfor⟩
    · cases h
  · cases h

theorem answerReply_for {pending : PendingTransaction} {m : MapMessage} {send : Send}
    (hfind : p.txMgr.find m.transactionId = some pending)
    (h : p.answerReply pending m = some send) (hfor : send.isFor clients = true) :
    m.transactionId ∈ p.heldFor clients := by
  unfold answerReply at h
  split at h
  · cases h
    exact mem_heldFor.mpr ⟨pending, hfind, by simpa [Send.isFor] using hfor⟩
  · cases h

/-- What `allocate` leaves in the table: the records that were there, and the new one unless its
id was taken. -/
theorem find_allocated {g : GsupMessage} {sender : ClientId} {now : TimePoint}
    {tx : PendingTransaction} (h : (p.allocated g sender now).find t = some tx) :
    p.txMgr.find t = some tx ∨
      t = p.txMgr.peekTid ∧ tx = p.txMgr.newTransaction g.imsi sender now := by
  unfold allocated at h
  rcases find_emplace_cases h with hold | hnew
  · exact .inl hold
  · exact .inr hnew

/-- A payload adds at most one transaction, which is one of its sender. -/
theorem card_heldFor_le (g : GsupMessage) (sender : ClientId) (now : TimePoint)
    (h : ∀ t tx, p'.txMgr.find t = some tx → (p.allocated g sender now).find t = some tx) :
    (p'.heldFor clients).card ≤ (p.heldFor clients).card + if clients sender then 1 else 0 := by
  split
  · have hsubset : p'.heldFor clients ⊆ insert p.txMgr.peekTid (p.heldFor clients) := by
      intro t ht
      obtain ⟨tx, htx, hclient⟩ := mem_heldFor.mp ht
      rcases find_allocated (h t tx htx) with hold | ⟨rfl, -⟩
      · exact Finset.mem_insert_of_mem (mem_heldFor.mpr ⟨tx, hold, hclient⟩)
      · exact Finset.mem_insert_self _ _
    exact (Finset.card_le_card hsubset).trans (Finset.card_insert_le _ _)
  · rename_i hother
    refine Finset.card_le_card ?_
    intro t ht
    obtain ⟨tx, htx, hclient⟩ := mem_heldFor.mp ht
    rcases find_allocated (h t tx htx) with hold | ⟨-, rfl⟩
    · exact mem_heldFor.mpr ⟨tx, hold, hclient⟩
    · exact absurd hclient hother

theorem GsupEffect.covered {payload : Bytes} {sender : ClientId} {now : TimePoint}
    (h : GsupEffect p payload sender now p' outs) :
    outs.countP (Send.isFor clients) + (p'.heldFor clients).card ≤
      (p.heldFor clients).card + if clients sender then 1 else 0 := by
  cases h with
  | undecoded hdec => simp
  | unmatched hdec hanswer hnone => simp
  | @answered g entry hdec hanswer hentry =>
    have hnone : (hlrReply entry g).toList.countP (Send.isFor clients) = 0 := by
      unfold hlrReply
      split <;> simp [Send.isFor]
    rw [hnone, Nat.zero_add]
    exact Nat.le_add_right _ _
  | @unsupported g hdec hreq hnone =>
    rw [List.countP_nil, Nat.zero_add]
    refine card_heldFor_le g sender now ?_
    intro t tx htx
    rw [TransactionManager.find_complete] at htx
    split at htx
    · cases htx
    · exact htx
  | @forwarded g tx m op b hdec hreq hop hmap hb =>
    rw [show [Send.hlr b].countP (Send.isFor clients) = 0 from rfl, Nat.zero_add]
    exact card_heldFor_le g sender now fun _ _ htx => htx

theorem MapEffect.covered {payload : Bytes} {now : TimePoint}
    (h : MapEffect p payload now p' outs) :
    outs.countP (Send.isFor clients) + (p'.heldFor clients).card ≤
      (p.heldFor clients).card + if clients 0 then 1 else 0 := by
  cases h with
  | undecoded hdec => simp
  | refused hdec hinv hmap => simp
  | unencoded hdec hinv hmap henc =>
    rw [List.countP_nil, Nat.zero_add]
    exact Nat.le_add_right _ _
  | stored hdec hinv hmap henc =>
    rw [List.countP_singleton, Nat.add_comm]
    exact Nat.le_refl _
  | unmatched hdec hnot hnone => simp
  | @answered m pending hdec hnot hfind =>
    refine Nat.le_add_right_of_le ?_
    have houts : (p.answerReply pending m).toList =
        [m.transactionId].filterMap fun _ => p.answerReply pending m := by
      cases p.answerReply pending m <;> rfl
    rw [houts]
    refine count_closed (List.nodup_singleton _) ?_ ?_
    · intro t ht send hsend hfor
      rw [List.mem_singleton.mp ht]
      exact answerReply_for hfind hsend hfor
    · intro t ht
      obtain ⟨tx, htx, hclient⟩ := mem_heldFor.mp ht
      rw [forget, TransactionManager.find_complete] at htx
      split at htx
      · cases htx
      · rename_i hne
        exact ⟨mem_heldFor.mpr ⟨tx, htx, hclient⟩, by simpa using hne⟩

/-- What a call sends to some clients is covered by the transactions it ends and by what it
brings in. -/
theorem step_covered {op : Op} (hp : p.Linked) (hop : op.Possible p)
    (h : p.step op = .ok (p', outs)) :
    outs.countP (Send.isFor clients) + (p'.heldFor clients).card ≤
      (p.heldFor clients).card + if op.paysFor clients then 1 else 0 := by
  cases op with
  | gsup payload sender now => exact (handleGsupPayload_effect h).covered
  | map payload now => exact (handleMapPayload_effect h).covered
  | nack order =>
    obtain ⟨rfl, -, -, hfind⟩ := step_nack hop.1 h
    refine Nat.le_add_right_of_le (count_closed hop.1 ?_ ?_)
    · intro t _ send hsend hfor
      exact errorReply_for hsend hfor
    · intro t ht
      obtain ⟨tx, htx, hclient⟩ := mem_heldFor.mp ht
      rw [hfind t] at htx
      split at htx
      · cases htx
      · rename_i hnot
        exact ⟨mem_heldFor.mpr ⟨tx, htx, hclient⟩, fun hmem => hnot ⟨hmem, (hop.2 t).mp hmem⟩⟩
  | expireSgsn order now =>
    obtain ⟨rfl, -, hfind, -⟩ := step_expireSgsn hop.1 hp.ids h
    refine Nat.le_add_right_of_le (count_closed (hop.1.filter _) ?_ ?_)
    · intro t _ send hsend hfor
      exact errorReply_for hsend hfor
    · intro t ht
      obtain ⟨tx, htx, hclient⟩ := mem_heldFor.mp ht
      rw [hfind t] at htx
      split at htx
      · cases htx
      · rename_i hnot
        exact ⟨mem_heldFor.mpr ⟨tx, htx, hclient⟩, fun hmem => hnot (List.mem_filter.mp hmem)⟩
  | expireHlr order timeout now =>
    cases h
    rw [List.countP_nil, Nat.zero_add]
    exact Nat.le_add_right_of_le (Nat.le_of_eq rfl)

end Proxy

/-- In every run, what has been sent to some clients and what is still owed to them is covered by
the payloads these clients have delivered, and the broadcasts among it by those of the HLR. -/
theorem ProxyRun.covered {timeout : Int} {events : List ProxyEvent} {s : Proxy}
    (hrun : ProxyRun timeout events s) (clients : ClientId → Bool) :
    (events.flatMap (·.outs)).countP (Send.isFor clients) + (s.heldFor clients).card ≤
      (events.map (·.op)).countP (Op.paysFor clients) := by
  have hstart : ((Proxy.start timeout).heldFor clients).card = 0 := rfl
  exact Run.covered (fun p => (p.heldFor clients).card) (Send.isFor clients) (Op.paysFor clients)
    hrun hstart fun hrun hop hstep => Proxy.step_covered (ProxyRun.linked hrun) hop hstep

end GsupMapProxy
