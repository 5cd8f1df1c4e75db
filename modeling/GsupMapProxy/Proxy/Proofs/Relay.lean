import GsupMapProxy.Proxy.Proofs.Freshness

/-!
# The proxy as a relay of requests

In both directions, what is asked of the other side is a function of what was asked on this side:
the Invokes for the HLR are the converted requests of the SGSNs, numbered in their order, and the
broadcasts are the converted Invokes of the HLR. Answers, lost connections and clean-ups that come
in between make no difference.
-/

namespace GsupMapProxy

open Gsup Map Misc TransactionManager

/-- The Invoke in a PDU for the HLR. -/
def Send.invoke? : Send → Option MapMessage
  | .hlr data => (Map.decode data).toOption.filter (·.component = .invoke)
  | .sgsn _ _ => none

/-- The message for all SGSNs. -/
def Send.broadcast? : Send → Option Bytes
  | .sgsn data client => if client = 0 then some data else none
  | .hlr _ => none

/-- The Invoke that a call is to be turned into, as the request with this number. -/
def Op.invoke? (n : Nat) : Op → Option MapMessage
  | .gsup payload _ _ =>
      (do gsupToMap (← Gsup.decode payload) (tidAt n) (invokeIdAt n)).toOption
  | _ => none

/-- The message for all SGSNs that a call is to be turned into. -/
def Op.broadcast? : Op → Option Bytes
  | .map payload _ => (do Gsup.encode (← mapInvokeToGsup (← Map.decode payload))).toOption
  | _ => none

/-- The Invokes for the HLR, the first request having the number `n`. -/
def invokes : Nat → List Op → List MapMessage
  | _, [] => []
  | n, op :: ops => (op.invoke? n).toList ++ invokes (n + requests [op]) ops

theorem invokes_append (n : Nat) (ops ops' : List Op) :
    invokes n (ops ++ ops') = invokes n ops ++ invokes (n + requests ops) ops' := by
  induction ops generalizing n with
  | nil => rfl
  | cons op ops ih =>
    have hcount : n + requests (op :: ops) = n + requests [op] + requests ops := by
      rw [← List.singleton_append, requests_append, Nat.add_assoc]
    rw [List.cons_append, invokes, invokes, ih, hcount, List.append_assoc]

/-! ## One call -/

section Calls

variable {p p' : Proxy} {op : Op} {outs : List Send}

/-- Answers to clients ask nothing of anybody. -/
theorem filterMap_replies
    (h : ∀ send ∈ outs, ∃ data client, send = .sgsn data client ∧ client ≠ 0) :
    outs.filterMap Send.invoke? = [] ∧ outs.filterMap Send.broadcast? = [] := by
  constructor
  · rw [List.filterMap_eq_nil_iff]
    intro send hmem
    obtain ⟨data, client, rfl, -⟩ := h send hmem
    rfl
  · rw [List.filterMap_eq_nil_iff]
    intro send hmem
    obtain ⟨data, client, rfl, hclient⟩ := h send hmem
    exact if_neg hclient

/-- The SGSN's answer to an Invoke is no Invoke. -/
theorem filterMap_hlrReply (entry : HlrTxEntry) (g : GsupMessage) :
    (Proxy.hlrReply entry g).toList.filterMap Send.invoke? = [] ∧
      (Proxy.hlrReply entry g).toList.filterMap Send.broadcast? = [] := by
  unfold Proxy.hlrReply
  split
  · rename_i data hencode
    obtain ⟨m, hm, hdata⟩ := except_bind_eq_ok.mp hencode
    obtain ⟨mapOp, -, hm⟩ := except_bind_eq_ok.mp hm
    have hcomp : m.component = .returnResult ∨ m.component = .returnError := by
      cases hm
      dsimp only
      split
      · exact .inr rfl
      · exact .inl rfl
    have hnot : m.component ≠ .invoke := by
      rcases hcomp with h | h <;> rw [h] <;> simp
    have hdec := Map.decode_of_encode (fun h => absurd h hnot) hdata
    have hview := (wireView_answer hcomp).2.1
    constructor
    · simp [Send.invoke?, hdec, Except.toOption, hview]
    · rfl
  · exact ⟨rfl, rfl⟩

/-- What is asked of the HLR by a request that finds its id free. -/
theorem filterMap_request {payload : Bytes} {client : ClientId} {now : TimePoint} {g : GsupMessage}
    {n : Nat} (hids : p.NextIds n) (hfree : p.txMgr.peekTid ∉ p.txMgr.transactions)
    (hdec : Gsup.decode payload = .ok g) (hreq : isHlrInitiatedGsupType g.type = false)
    (h : p.handleGsupPayload payload client now = .ok (p', outs)) :
    outs.filterMap Send.invoke? = ((Op.gsup payload client now).invoke? n).toList ∧
      outs.filterMap Send.broadcast? = [] := by
  rcases Proxy.handleGsupPayload_request (p := p) client now hdec hreq with
    ⟨hnone, hok⟩ | ⟨tx, m, op, b, hsome, htx, hmap, hop, hb, hok⟩
  · rw [hok] at h
    cases h
    rcases gsupToMap_spec g (tidAt n) (invokeIdAt n) with ⟨-, what, herror⟩ | ⟨-, op, hsome, -⟩
    · simp [Op.invoke?, hdec, herror, Except.toOption]
    · rw [hnone] at hsome
      cases hsome
  · rw [hok] at h
    cases h
    obtain rfl : tx = p.txMgr.newTransaction g.imsi client now := by
      rw [Proxy.allocated_fresh hfree, TransactionManager.find, Finmap.lookup_insert] at htx
      exact (Option.some.inj htx).symm
    have hmap : gsupToMap g (tidAt n) (invokeIdAt n) = .ok m := by
      rw [← hids.tid, ← hids.invokeId]
      exact hmap
    obtain ⟨hview, himsi⟩ := wireView_of_gsupToMap hmap
    have hdecode := Map.decode_of_encode (m := m)
      (fun _ => by rw [himsi]; exact (Gsup.decoded_of_decode hdec).digits) hb
    rw [hview] at hdecode
    have hinvoke : m.component = .invoke := by
      rcases gsupToMap_spec g (tidAt n) (invokeIdAt n) with
        ⟨-, what, herror⟩ | ⟨m', -, -, hm', -, h⟩
      · rw [herror] at hmap
        cases hmap
      · rw [hm'] at hmap
        cases hmap
        exact h
    have hsent : Send.invoke? (.hlr b) = some m := by
      simp [Send.invoke?, hdecode, hinvoke, Except.toOption]
    have hasked : (Op.gsup payload client now).invoke? n = some m := by
      simp [Op.invoke?, hdec, hmap, Except.toOption]
    constructor
    · rw [List.filterMap_cons_some hsent, hasked]
      rfl
    · rfl

theorem filterMap_gsup {payload : Bytes} {client : ClientId} {now : TimePoint} {n : Nat}
    (hids : p.NextIds n) (hfresh : (Op.gsup payload client now).Fresh p)
    (h : p.handleGsupPayload payload client now = .ok (p', outs)) :
    outs.filterMap Send.invoke? = ((Op.gsup payload client now).invoke? n).toList ∧
      outs.filterMap Send.broadcast? = [] := by
  -- an answer to an Invoke is no request
  have hanswer : ∀ {g}, Gsup.decode payload = .ok g → isHlrInitiatedGsupType g.type = true →
      (Op.gsup payload client now).invoke? n = none := by
    intro g hdec hanswer
    rcases gsupToMap_spec g (tidAt n) (invokeIdAt n) with ⟨-, what, herror⟩ | ⟨-, op, hsome, -⟩
    · simp [Op.invoke?, hdec, herror, Except.toOption]
    · cases htype : g.type <;> rw [htype] at hsome hanswer <;> cases hsome <;> cases hanswer
  cases Proxy.handleGsupPayload_effect h with
  | undecoded hdec => exact ⟨by simp [Op.invoke?, hdec, Except.toOption], rfl⟩
  | unmatched hdec htype hnone => exact ⟨by rw [hanswer hdec htype]; rfl, rfl⟩
  | @answered g entry hdec htype hentry =>
    obtain ⟨hinvoke, hbroadcast⟩ := filterMap_hlrReply entry g
    exact ⟨by rw [hanswer hdec htype, hinvoke]; rfl, hbroadcast⟩
  | @unsupported g hdec hreq hnone =>
    exact filterMap_request hids (hfresh g hdec hreq) hdec hreq h
  | @forwarded g tx m op b hdec hreq hop hmap hb =>
    exact filterMap_request hids (hfresh g hdec hreq) hdec hreq h

theorem filterMap_map {payload : Bytes} {now : TimePoint}
    (hclients : ∀ t tx, p.txMgr.find t = some tx → tx.clientContext ≠ 0)
    (h : p.handleMapPayload payload now = .ok (p', outs)) :
    outs.filterMap Send.invoke? = [] ∧
      outs.filterMap Send.broadcast? = ((Op.map payload now).broadcast?).toList := by
  -- only an Invoke is broadcast
  have hnone : ∀ {m}, Map.decode payload = .ok m → m.component ≠ .invoke →
      (Op.map payload now).broadcast? = none := by
    intro m hdec hnot
    simp [Op.broadcast?, hdec, mapInvokeToGsup, hnot, conversionError, Except.toOption]
  cases Proxy.handleMapPayload_effect h with
  | undecoded hdec => exact ⟨rfl, by simp [Op.broadcast?, hdec, Except.toOption]⟩
  | refused hdec hinv hmap => exact ⟨rfl, by simp [Op.broadcast?, hdec, hmap, Except.toOption]⟩
  | unencoded hdec hinv hmap henc =>
    exact ⟨rfl, by simp [Op.broadcast?, hdec, hmap, henc, Except.toOption]⟩
  | stored hdec hinv hmap henc =>
    exact ⟨rfl, by simp [Op.broadcast?, Send.broadcast?, hdec, hmap, henc, Except.toOption]⟩
  | unmatched hdec hnot hfind => exact ⟨rfl, by rw [hnone hdec hnot]; rfl⟩
  | @answered m pending hdec hnot hfind =>
    have hreplies : ∀ send ∈ (p.answerReply pending m).toList,
        ∃ data client, send = .sgsn data client ∧ client ≠ 0 := by
      intro send hmem
      unfold Proxy.answerReply at hmem
      split at hmem
      · obtain rfl := List.mem_singleton.mp hmem
        exact ⟨_, _, rfl, hclients _ pending hfind⟩
      · cases hmem
    obtain ⟨hinvoke, hbroadcast⟩ := filterMap_replies hreplies
    exact ⟨hinvoke, by rw [hnone hdec hnot, hbroadcast]; rfl⟩

/-- What a call asks of the two sides. -/
theorem filterMap_step {n : Nat} (hp : p.Sync) (hids : p.NextIds n)
    (hclients : ∀ t tx, p.txMgr.find t = some tx → tx.clientContext ≠ 0)
    (hop : op.PossibleFresh p) (h : p.step op = .ok (p', outs)) :
    outs.filterMap Send.invoke? = (op.invoke? n).toList ∧
      outs.filterMap Send.broadcast? = op.broadcast?.toList := by
  have herrors : ∀ order, ∀ send ∈ List.filterMap p.errorReply order,
      ∃ data client, send = .sgsn data client ∧ client ≠ 0 := by
    intro order send hmem
    obtain ⟨t, -, hreply⟩ := List.mem_filterMap.mp hmem
    have hnack : p.replyTo (.nack order) t = some send := hreply
    obtain ⟨tx, data, htx, rfl⟩ := replyTo_client hnack
    exact ⟨data, _, rfl, hclients t tx htx⟩
  cases op with
  | gsup payload client now => exact filterMap_gsup hids hop.2 h
  | map payload now => exact filterMap_map hclients h
  | nack order =>
    obtain ⟨rfl, -⟩ := Proxy.step_nack hop.1.1 h
    exact filterMap_replies (herrors order)
  | expireSgsn order now =>
    obtain ⟨rfl, -⟩ := Proxy.step_expireSgsn hop.1.1 hp.ids h
    exact filterMap_replies (herrors _)
  | expireHlr order timeout now =>
    cases h
    exact ⟨rfl, rfl⟩

end Calls

/-! ## Whole runs -/

section Runs

variable {timeout : Int} {events : List ProxyEvent} {s : Proxy}

/-- A record names the client of a request. -/
theorem FreshRun.client_ne_zero (hrun : FreshRun timeout events s)
    (hclients : ∀ payload now, Op.gsup payload 0 now ∉ events.map (·.op)) {t : UInt32}
    {tx : PendingTransaction} (htx : s.txMgr.find t = some tx) : tx.clientContext ≠ 0 := by
  obtain ⟨op, hpending⟩ := hrun.sync.pending_of_find htx
  obtain ⟨b, horigin⟩ := Run.exists_origin hrun (fun _ => rfl) hrun.tracks hpending
  obtain ⟨e, he, client, now, g, hforwards, hrecord, -⟩ := horigin.2.1
  obtain ⟨payload, hop, -⟩ := hforwards.request
  have hclient : tx.clientContext = client := congrArg (·.clientContext) hrecord
  rw [hclient]
  rintro rfl
  exact hclients payload now (List.mem_map.mpr ⟨e, List.mem_of_getElem? he, hop⟩)

/-- What the proxy asks of either side is what it was asked for on the other. -/
theorem FreshRun.relays (hrun : FreshRun timeout events s)
    (hclients : ∀ payload now, Op.gsup payload 0 now ∉ events.map (·.op)) :
    (events.flatMap (·.outs)).filterMap Send.invoke? = invokes 0 (events.map (·.op)) ∧
      (events.flatMap (·.outs)).filterMap Send.broadcast? =
        (events.map (·.op)).filterMap Op.broadcast? := by
  induction hrun with
  | nil => exact ⟨rfl, rfl⟩
  | @snoc events s s' outs earlier op hop hs ih =>
    rw [List.map_append] at hclients ⊢
    have hbefore : ∀ payload now, Op.gsup payload 0 now ∉ events.map (·.op) :=
      fun payload now hmem => hclients payload now (List.mem_append_left _ hmem)
    obtain ⟨hinvokes, hbroadcasts⟩ := ih hbefore
    have hrun : FreshRun timeout events s := earlier
    have hids : s.NextIds (requests (events.map (·.op))) :=
      ProxyRun.nextIds (Run.mono earlier fun _ _ h => h.1)
    obtain ⟨hinvoke, hbroadcast⟩ :=
      filterMap_step hrun.sync hids (fun _ _ => hrun.client_ne_zero hbefore) hop hs
    rw [List.flatMap_append, List.flatMap_singleton, List.filterMap_append, List.filterMap_append,
      invokes_append, hinvokes, hbroadcasts, hinvoke, hbroadcast, List.filterMap_append]
    constructor
    · simp [invokes]
    · cases hop : op.broadcast? <;> simp [hop]

end Runs

end GsupMapProxy
