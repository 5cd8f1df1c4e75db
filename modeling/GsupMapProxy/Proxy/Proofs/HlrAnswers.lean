import GsupMapProxy.Proxy.Proofs.Fidelity

/-!
# Answers to the HLR

The HLR's Invokes are kept by IMSI. An Invoke replaces an older one of the same IMSI, an answer
of any SGSN uses the entry up, and expiry drops it; `HlrEffect` says once what a call can do to
the table. Nothing here depends on transaction ids being fresh, so the results hold of all runs.
-/

namespace GsupMapProxy

open Gsup Map Misc

/-- The event is an Invoke `m` of the HLR that was broadcast to the SGSNs. -/
structure ForwardsInvoke (e : ProxyEvent) (m : MapMessage) (now : TimePoint) : Prop where
  request : ∃ payload, e.op = .map payload now ∧ Map.decode payload = .ok m
  component : m.component = .invoke
  sent : ∃ data, e.outs = [.sgsn data 0]

/-- The PDU is a TCAP End. -/
def IsEnd (data : Bytes) : Prop := data.head? = some kTcapTagEnd

/-- What the table holds under an IMSI. -/
def Proxy.invoked (p : Proxy) (imsi : Str) : Option HlrTxEntry := p.hlrTx.lookup imsi

/-- The event stores this entry under this IMSI. -/
def StoresInvoke (e : ProxyEvent) (imsi : Str) (entry : HlrTxEntry) : Prop :=
  ∃ m now, ForwardsInvoke e m now ∧ imsi = m.imsi ∧ entry = Proxy.hlrEntry m now

/-- Event `i` sends the HLR an End PDU, on a GSUP message with the IMSI of the Invoke of event
`b`, the last one forwarded for that IMSI. -/
def AnswersInvoke (events : List ProxyEvent) (b i : Nat) : Prop :=
  ∃ e payload client now g entry data,
    Origin Proxy.invoked StoresInvoke events g.imsi entry b i ∧ events[i]? = some e ∧
    e.op = .gsup payload client now ∧ Gsup.decode payload = .ok g ∧ e.outs = [.hlr data] ∧
    IsEnd data

/-! ## One event -/

/-- What a call does to the HLR's Invokes. -/
inductive HlrEffect (p : Proxy) (op : Op) (p' : Proxy) (outs : List Send) : Prop where
  | stored (payload : Bytes) (now : TimePoint) (m : MapMessage) (data : Bytes)
      (hop : op = .map payload now) (hdec : Map.decode payload = .ok m)
      (hinv : m.component = .invoke)
      (htable : p'.hlrTx = p.hlrTx.insert m.imsi (Proxy.hlrEntry m now))
      (houts : outs = [.sgsn data 0])
  | answered (payload : Bytes) (client : ClientId) (now : TimePoint) (g : GsupMessage)
      (entry : HlrTxEntry) (hop : op = .gsup payload client now)
      (hdec : Gsup.decode payload = .ok g) (hanswer : isHlrInitiatedGsupType g.type = true)
      (hentry : p.hlrTx.lookup g.imsi = some entry)
      (htable : p'.hlrTx = p.hlrTx.erase g.imsi) (houts : outs = (Proxy.hlrReply entry g).toList)
  | kept (hinvoke : ∀ payload now m, op = .map payload now → Map.decode payload = .ok m →
        m.component = .invoke → outs = [])
      (htable : ∀ imsi entry, p'.hlrTx.lookup imsi = some entry →
        p.hlrTx.lookup imsi = some entry)
      (houts : ∀ data, Send.hlr data ∈ outs → ¬ IsEnd data)

theorem replyTo_no_hlr {p : Proxy} {op : Op} {t : UInt32} {data : Bytes} :
    p.replyTo op t ≠ some (.hlr data) := by
  intro h
  obtain ⟨tx, data', -, hsend⟩ := replyTo_client h
  cases hsend

theorem errorReply_no_hlr {p : Proxy} {t : UInt32} {data : Bytes} :
    p.errorReply t ≠ some (.hlr data) :=
  show p.replyTo (.nack []) t ≠ some (.hlr data) from replyTo_no_hlr

theorem hlrEffect_gsup {p p' : Proxy} {payload : Bytes} {client : ClientId} {now : TimePoint}
    {outs : List Send} (h : p.handleGsupPayload payload client now = .ok (p', outs)) :
    HlrEffect p (.gsup payload client now) p' outs := by
  cases Proxy.handleGsupPayload_effect h with
  | undecoded hdec => exact .kept (by simp) (fun _ _ h => h) (by simp)
  | unmatched hdec hanswer hnone => exact .kept (by simp) (fun _ _ h => h) (by simp)
  | @answered g entry hdec hanswer hentry =>
    exact .answered payload client now g entry rfl hdec hanswer hentry rfl rfl
  | unsupported hdec hreq hnone => exact .kept (by simp) (fun _ _ h => h) (by simp)
  | @forwarded g tx m op b hdec hreq hop hmap hb =>
    refine .kept (by simp) (fun _ _ h => h) ?_
    intro data hdata
    obtain rfl : data = b := by simpa using hdata
    have hinv : m.component = .invoke := by
      rcases gsupToMap_spec g p.txMgr.peekTid tx.mapInvokeId with
        ⟨-, what, herr⟩ | ⟨m', _, -, hok', -, hinv⟩
      · rw [hmap] at herr
        cases herr
      · rw [hmap] at hok'
        cases hok'
        exact hinv
    rw [IsEnd, Map.encode_tag hb, if_pos hinv]
    decide

theorem hlrEffect_map {p p' : Proxy} {payload : Bytes} {now : TimePoint} {outs : List Send}
    (h : p.handleMapPayload payload now = .ok (p', outs)) :
    HlrEffect p (.map payload now) p' outs := by
  -- an answer of the HLR is no Invoke
  have hanswer : ∀ {m : MapMessage}, Map.decode payload = .ok m → m.component ≠ .invoke →
      ∀ payload' now' m', Op.map payload now = .map payload' now' →
        Map.decode payload' = .ok m' → m'.component = .invoke → outs = [] := by
    intro m hdec hnot _ _ m' hop hdec' hinv'
    cases hop
    rw [hdec] at hdec'
    cases hdec'
    exact absurd hinv' hnot
  cases Proxy.handleMapPayload_effect h with
  | undecoded hdec => exact .kept (by simp) (fun _ _ h => h) (by simp)
  | refused hdec hinv hmap => exact .kept (by simp) (fun _ _ h => h) (by simp)
  | unencoded hdec hinv hmap henc =>
    refine .kept (by simp) ?_ (by simp)
    intro imsi entry hlookup
    dsimp only at hlookup
    rw [lookup_erase_ite] at hlookup
    split at hlookup
    · cases hlookup
    · exact hlookup
  | @stored m g data hdec hinv hmap henc => exact .stored payload now m _ rfl hdec hinv rfl rfl
  | unmatched hdec hnot hnone => exact .kept (by simp) (fun _ _ h => h) (by simp)
  | @answered m pending hdec hnot hfind =>
    refine .kept (hanswer hdec hnot) (fun _ _ h => h) ?_
    intro data hdata
    have hreply : p.replyTo (.map payload now) m.transactionId = p.answerReply pending m := by
      simp only [Proxy.replyTo, hdec, hfind]
    rw [Option.mem_toList, ← hreply] at hdata
    exact absurd hdata replyTo_no_hlr

/-- A call that sends only error replies to SGSNs and leaves the table alone. -/
theorem hlrEffect_errorReplies {p p' : Proxy} {op : Op} {outs : List Send} {ids : List UInt32}
    (hop : ∀ payload now, op ≠ .map payload now) (hhlr : p'.hlrTx = p.hlrTx)
    (hsent : outs = ids.filterMap p.errorReply) : HlrEffect p op p' outs := by
  refine .kept ?_ ?_ ?_
  · intro payload now m h
    exact absurd h (hop payload now)
  · intro imsi entry hlookup
    rw [hhlr] at hlookup
    exact hlookup
  · intro data hdata
    rw [hsent, List.mem_filterMap] at hdata
    obtain ⟨t, -, ht⟩ := hdata
    exact absurd ht errorReply_no_hlr

theorem hlrEffect_of_step {p p' : Proxy} {op : Op} {outs : List Send} (hp : p.Linked)
    (hop : op.Possible p) (h : p.step op = .ok (p', outs)) : HlrEffect p op p' outs := by
  cases op with
  | gsup payload client now => exact hlrEffect_gsup h
  | map payload now => exact hlrEffect_map h
  | nack order =>
    obtain ⟨hsent, hhlr, -, -⟩ := Proxy.step_nack hop.1 h
    exact hlrEffect_errorReplies (by simp) hhlr hsent
  | expireSgsn order now =>
    obtain ⟨hsent, hhlr, -, -⟩ := Proxy.step_expireSgsn hop.1 hp.ids h
    exact hlrEffect_errorReplies (by simp) hhlr hsent
  | expireHlr order timeout now =>
    cases h
    refine .kept (by simp) ?_ (by simp)
    intro imsi entry hlookup
    simp only [Proxy.expireHlrTransactions, Proxy.expireHlrLoop_lookup] at hlookup
    split at hlookup
    · cases hlookup
    · exact hlookup

theorem tracks_of_hlrEffect {e : ProxyEvent} (heff : HlrEffect e.pre e.op e.post e.outs) :
    Tracks Proxy.invoked StoresInvoke e := by
  cases heff with
  | stored payload now m data hop hdec hinv htable houts =>
    constructor
    · rintro imsi entry ⟨m', now', ⟨⟨payload', hop', hdec'⟩, -, -⟩, rfl, rfl⟩
      rw [hop] at hop'
      cases hop'
      rw [hdec] at hdec'
      cases hdec'
      rw [Proxy.invoked, htable, Finmap.lookup_insert]
    · intro imsi entry hlookup
      rw [Proxy.invoked, htable, lookup_insert_ite] at hlookup
      split at hlookup
      · rename_i himsi
        exact .inl ⟨m, now, ⟨⟨payload, hop, hdec⟩, hinv, ⟨data, houts⟩⟩, himsi,
          (Option.some.inj hlookup).symm⟩
      · exact .inr hlookup
  | answered payload client now g entry hop hdec hanswer hentry htable houts =>
    constructor
    · rintro imsi entry' ⟨m, now', ⟨⟨payload', hop', -⟩, -, -⟩, -, -⟩
      rw [hop] at hop'
      cases hop'
    · intro imsi entry' hlookup
      rw [Proxy.invoked, htable, lookup_erase_ite] at hlookup
      split at hlookup
      · cases hlookup
      · exact .inr hlookup
  | kept hinvoke htable houts =>
    constructor
    · rintro imsi entry ⟨m, now, ⟨⟨payload, hop, hdec⟩, hinv, ⟨data, hsent⟩⟩, -, -⟩
      rw [hinvoke payload now m hop hdec hinv] at hsent
      cases hsent
    · intro imsi entry hlookup
      exact .inr (htable imsi entry hlookup)

/-- A forwarded Invoke fixes the IMSI and the entry it is stored with. -/
theorem StoresInvoke.unique {e : ProxyEvent} {imsi imsi' : Str} {entry entry' : HlrTxEntry}
    (h : StoresInvoke e imsi entry) (h' : StoresInvoke e imsi' entry') :
    imsi = imsi' ∧ entry = entry' := by
  obtain ⟨m, now, ⟨⟨payload, hop, hdec⟩, -, -⟩, rfl, rfl⟩ := h
  obtain ⟨m', now', ⟨⟨payload', hop', hdec'⟩, -, -⟩, rfl, rfl⟩ := h'
  rw [hop] at hop'
  cases hop'
  rw [hdec] at hdec'
  cases hdec'
  exact ⟨rfl, rfl⟩

/-- What `gsupToMapResult` builds: an answer of the operation the GSUP type stands for, with the
ids of the entry. -/
theorem gsupToMapResult_spec {g : GsupMessage} {tid : UInt32} {id : UInt8} {r : MapMessage}
    (h : gsupToMapResult g tid id = .ok r) :
    r.transactionId = tid ∧ r.invokeId = id ∧ answeredOperation g.type = .ok r.operation ∧
      r.component = (if isHlrInitiatedError g.type then .returnError else .returnResult) ∧
      r.errorCode = (if isHlrInitiatedError g.type then g.cause else none) ∧
      r.freezePtmsi = false := by
  obtain ⟨op, hop, h⟩ := except_bind_eq_ok.mp h
  cases h
  exact ⟨rfl, rfl, hop, rfl, rfl, rfl⟩

theorem gsupToMapResult_not_invoke {g : GsupMessage} {tid : UInt32} {id : UInt8} {r : MapMessage}
    (h : gsupToMapResult g tid id = .ok r) : r.component ≠ .invoke := by
  rw [(gsupToMapResult_spec h).2.2.2.1]
  split <;> simp

/-- An event that sends an End PDU answers an entry, and sends nothing else. -/
theorem answered_of_end {e : ProxyEvent} (heff : HlrEffect e.pre e.op e.post e.outs) {j : Nat}
    {data : Bytes} (hsend : e.outs[j]? = some (.hlr data)) (hend : IsEnd data) :
    ∃ payload client now g entry r, e.op = .gsup payload client now ∧
      Gsup.decode payload = .ok g ∧ isHlrInitiatedGsupType g.type = true ∧
      e.pre.hlrTx.lookup g.imsi = some entry ∧ e.post.hlrTx.lookup g.imsi = none ∧
      gsupToMapResult g entry.mapTransactionId entry.mapInvokeId = .ok r ∧
      Map.encode r = .ok data ∧ e.outs = [.hlr data] ∧ j = 0 := by
  have hmem := List.mem_of_getElem? hsend
  cases heff with
  | stored payload now m data' hop hdec hinv htable houts =>
    rw [houts] at hmem
    simp at hmem
  | answered payload client now g entry hop hdec hanswer hentry htable houts =>
    rw [houts] at hsend
    unfold Proxy.hlrReply at hsend houts
    split at hsend
    · rename_i data' hencode
      simp only [hencode] at houts
      obtain ⟨r, hr, hdata⟩ := except_bind_eq_ok.mp hencode
      have hj : j = 0 := by
        have := (List.getElem?_eq_some_iff.mp hsend).1
        simp at this
        exact this
      subst hj
      cases hsend
      refine ⟨payload, client, now, g, entry, r, hop, hdec, hanswer, hentry, ?_, hr, hdata,
        houts, rfl⟩
      rw [htable, Finmap.lookup_erase]
    · cases hsend
  | kept hinvoke htable houts => exact absurd hend (houts data hmem)

/-! ## Whole runs -/

section Runs

variable {timeout : Int} {events : List ProxyEvent} {s : Proxy}

theorem ProxyRun.hlrEffect (hrun : ProxyRun timeout events s) {i : Nat} {e : ProxyEvent}
    (he : events[i]? = some e) : HlrEffect e.pre e.op e.post e.outs := by
  obtain ⟨hop, hstep⟩ := Run.event hrun he
  exact hlrEffect_of_step (ProxyRun.linked (Run.before hrun he)) hop hstep

theorem ProxyRun.tracks (hrun : ProxyRun timeout events s) :
    ∀ e ∈ events, Tracks Proxy.invoked StoresInvoke e := by
  intro e he
  obtain ⟨i, hi⟩ := List.mem_iff_getElem?.mp he
  exact tracks_of_hlrEffect (hrun.hlrEffect hi)

/-- A stored entry goes back to a forwarded Invoke of its IMSI. -/
theorem ProxyRun.exists_origin (hrun : ProxyRun timeout events s) {i : Nat} {e : ProxyEvent}
    (he : events[i]? = some e) {imsi : Str} {entry : HlrTxEntry}
    (hentry : e.pre.hlrTx.lookup imsi = some entry) :
    ∃ b, Origin Proxy.invoked StoresInvoke events imsi entry b i :=
  Run.exists_origin_before hrun (fun _ => rfl) hrun.tracks he hentry

/-- The event that answers an Invoke uses its entry up. -/
theorem ProxyRun.answer_uses_up (hrun : ProxyRun timeout events s) {i : Nat} {e : ProxyEvent}
    {payload data : Bytes} {client : ClientId} {now : TimePoint} {g : GsupMessage}
    (he : events[i]? = some e) (hop : e.op = .gsup payload client now)
    (hdec : Gsup.decode payload = .ok g) (houts : e.outs = [.hlr data]) (hend : IsEnd data) :
    e.post.invoked g.imsi = none := by
  have hsend : e.outs[0]? = some (.hlr data) := by rw [houts]; rfl
  obtain ⟨payload', client', now', g', entry, r, hop', hdec', -, -, hgone, -⟩ :=
    answered_of_end (hrun.hlrEffect he) hsend hend
  rw [hop] at hop'
  cases hop'
  rw [hdec] at hdec'
  cases hdec'
  exact hgone

/-- Every End PDU the proxy sends answers an earlier Invoke that was forwarded to the SGSNs and
had the IMSI of the GSUP message that triggered it, and carries the transaction id and the
invoke id of that Invoke. An End PDU determines its Invoke, an Invoke is answered at most once,
and one whose entry has gone, by expiry or otherwise, is not answered any more. -/
theorem hlr_answers_solicited_at_most_once (hrun : ProxyRun timeout events s) :
    (∀ (i j : Nat) (e : ProxyEvent) (data : Bytes), events[i]? = some e →
      e.outs[j]? = some (.hlr data) → IsEnd data →
      ∃ b eb m now payload client now' g a, AnswersInvoke events b i ∧ b < i ∧
        events[b]? = some eb ∧ ForwardsInvoke eb m now ∧ e.op = .gsup payload client now' ∧
        Gsup.decode payload = .ok g ∧ g.imsi = m.imsi ∧ Map.decode data = .ok a ∧
        a.transactionId = m.transactionId ∧ a.invokeId = m.invokeId ∧ e.outs = [.hlr data]) ∧
    (∀ b b' i, AnswersInvoke events b i → AnswersInvoke events b' i → b = b') ∧
    (∀ b i i', AnswersInvoke events b i → AnswersInvoke events b i' → i = i') ∧
    ∀ (b l i : Nat) (eb el : ProxyEvent) (m : MapMessage) (now : TimePoint),
      events[b]? = some eb → ForwardsInvoke eb m now → events[l]? = some el → b < l → l < i →
      el.post.hlrTx.lookup m.imsi ≠ some (Proxy.hlrEntry m now) → ¬ AnswersInvoke events b i := by
  refine ⟨?_, ?_, ?_, ?_⟩
  · intro i j e data he hsend hend
    obtain ⟨payload, client, now', g, entry, r, hop, hdec, -, hentry, -, hr, hdata, houts, -⟩ :=
      answered_of_end (hrun.hlrEffect he) hsend hend
    obtain ⟨b, horigin⟩ := hrun.exists_origin he hentry
    obtain ⟨eb, heb, m, now, hforwards, himsi, rfl⟩ := horigin.2.1
    obtain ⟨htid, hid, -⟩ := gsupToMapResult_spec hr
    have hinv := gsupToMapResult_not_invoke hr
    have hview : (wireView r).transactionId = r.transactionId ∧
        (wireView r).invokeId = r.invokeId := by
      obtain ⟨tid, component, id, last, operation⟩ := r
      cases component with
      | invoke => exact absurd rfl hinv
      | returnResult => cases operation <;> exact ⟨rfl, rfl⟩
      | returnError => exact ⟨rfl, rfl⟩
      | reject => exact ⟨rfl, rfl⟩
    refine ⟨b, eb, m, now, payload, client, now', g, wireView r, ?_, horigin.1, heb, hforwards, hop,
      hdec, himsi, Map.decode_of_encode (fun h => absurd h hinv) hdata, hview.1.trans htid,
      hview.2.trans hid, houts⟩
    exact ⟨e, payload, client, now', g, _, data, horigin, he, hop, hdec, houts, hend⟩
  · rintro b b' i ⟨e, payload, client, now, g, entry, data, horigin, he, hop, hdec, -⟩
      ⟨e', payload', client', now', g', entry', data', horigin', he', hop', hdec', -⟩
    rw [he] at he'
    cases he'
    rw [hop] at hop'
    cases hop'
    rw [hdec] at hdec'
    cases hdec'
    exact horigin.unique horigin'
  · rintro b i i' ⟨e, payload, client, now, g, entry, data, horigin, he, hop, hdec, houts, hend⟩
      ⟨e', payload', client', now', g', entry', data', horigin', he', hop', hdec', houts', hend'⟩
    obtain ⟨eb, heb, hstores⟩ := horigin.2.1
    obtain ⟨eb', heb', hstores'⟩ := horigin'.2.1
    rw [heb] at heb'
    cases heb'
    obtain ⟨himsi, rfl⟩ := hstores.unique hstores'
    have hgone := hrun.answer_uses_up he hop hdec houts hend
    have hgone' := hrun.answer_uses_up he' hop' hdec' houts' hend'
    rw [← himsi] at horigin' hgone'
    exact horigin.removed_once horigin' he hgone he' hgone'
  · rintro b l i eb el m now heb hforwards hel hbl hli hlost
      ⟨e, payload, client, now', g, entry, data, horigin, -⟩
    obtain ⟨eb', heb', hstores⟩ := horigin.2.1
    rw [heb] at heb'
    cases heb'
    obtain ⟨himsi, rfl⟩ := hstores.unique ⟨m, now, hforwards, rfl, rfl⟩
    have hkept := (horigin.2.2 l el hbl hli hel).1
    rw [himsi] at hkept
    exact hlost hkept

end Runs

/-- A PurgeMS Invoke of the HLR for the IMSI "1", with transaction id 5 and invoke id 3. -/
def purgeInvoke : Bytes :=
  [0x62, 0x15, 0x48, 0x04, 0x00, 0x00, 0x00, 0x05, 0x6c, 0x0d, 0xa1, 0x0b, 0x02, 0x01, 0x03, 0x02,
    0x01, 0x43, 0x30, 0x03, 0x04, 0x01, 0xF1]

/-- An SGSN's PurgeMsResult for the IMSI "1". -/
def purgeResultPlain : Bytes := [0x0e, 0x01, 0x01, 0xF1]

/-- The same with the FreezePtmsi element. -/
def purgeResultFreeze : Bytes := [0x0e, 0x01, 0x01, 0xF1, 0x07, 0x00]

/-- The proxy after it has forwarded that Invoke. -/
def purgeInvoked : Proxy :=
  { Proxy.start 30 with
    hlrTx := (∅ : HlrTransactions).insert [0x31]
      { mapTransactionId := 5, mapInvokeId := 3, mapOperation := .purgeMS, createdAt := 0 } }

/-- The run in which the HLR's Invoke `q` is forwarded and a client answers it. -/
theorem proxyRun_answered {q payload forwarded data : Bytes} {s : Proxy}
    (hq : (Proxy.start 30).step (.map q 0) = .ok (purgeInvoked, [.sgsn forwarded 0]))
    (h : purgeInvoked.step (.gsup payload 7 0) = .ok (s, [.hlr data])) :
    ProxyRun 30 [⟨Proxy.start 30, .map q 0, [.sgsn forwarded 0], purgeInvoked⟩,
      ⟨purgeInvoked, .gsup payload 7 0, [.hlr data], s⟩] s :=
  ((Run.nil : ProxyRun 30 [] (Proxy.start 30)).snoc (Op.map q 0) trivial hq).snoc
    (Op.gsup payload 7 0) trivial h

theorem proxyRun_purgeInvoked {payload data : Bytes} {s : Proxy}
    (h : purgeInvoked.step (.gsup payload 7 0) = .ok (s, [.hlr data])) :
    ∃ e₀ : ProxyEvent, ProxyRun 30 [e₀, ⟨purgeInvoked, .gsup payload 7 0, [.hlr data], s⟩] s := by
  obtain ⟨forwarded, hinvoke⟩ : ∃ forwarded, (Proxy.start 30).step (.map purgeInvoke 0) =
      .ok (purgeInvoked, [.sgsn forwarded 0]) := ⟨_, rfl⟩
  exact ⟨_, proxyRun_answered hinvoke h⟩

theorem purge_invoke_answered :
    ∃ events s, ProxyRun 30 events s ∧ ∃ b, AnswersInvoke events b 1 ∧ b < 1 := by
  obtain ⟨s, data, hanswer, hend⟩ : ∃ s data, purgeInvoked.step (.gsup purgeResultPlain 7 0) =
      .ok (s, [.hlr data]) ∧ IsEnd data := ⟨_, _, rfl, rfl⟩
  obtain ⟨e₀, hrun⟩ := proxyRun_purgeInvoked hanswer
  obtain ⟨b, -, -, -, -, -, -, -, -, hanswers, hb, -⟩ :=
    (hlr_answers_solicited_at_most_once hrun).1 1 0 _ data rfl rfl hend
  exact ⟨_, s, hrun, b, hanswers, hb⟩

/-! ## What an answer says -/

/-- The GSUP type is an error of this operation. -/
def IsErrorOf (op : MapOperation) (type : MessageType) : Prop :=
  isHlrInitiatedError type = true ∧ answeredOperation type = .ok op

/-- The message `r` sent to the HLR is the SGSN's answer `g` to the Invoke of the entry. -/
structure FaithfulAnswer (entry : HlrTxEntry) (g : GsupMessage) (r : MapMessage) : Prop where
  operation : r.operation = entry.mapOperation
  error : r.component = .returnError ↔ IsErrorOf entry.mapOperation g.type
  errorCode : r.component = .returnError → r.errorCode.getD 34 = g.cause.getD 34
  freezePtmsi : entry.mapOperation = .purgeMS →
    (r.freezePtmsi = true ↔ g.type = .purgeMsResult ∧ g.freezePtmsi = true)

theorem faithfulAnswer_iff {entry : HlrTxEntry} {g : GsupMessage} {r : MapMessage}
    (h : gsupToMapResult g entry.mapTransactionId entry.mapInvokeId = .ok r) :
    FaithfulAnswer entry g r ↔
      answeredOperation g.type = .ok entry.mapOperation ∧
        ¬ (g.type = .purgeMsResult ∧ g.freezePtmsi = true) := by
  obtain ⟨-, -, hop, hcomp, hcode, hfreeze⟩ := gsupToMapResult_spec h
  have hisError : r.component = .returnError ↔ isHlrInitiatedError g.type = true := by
    rw [hcomp]
    split <;> simp [*]
  constructor
  · rintro ⟨hsame, -, -, hpurge⟩
    rw [hsame] at hop
    refine ⟨hop, ?_⟩
    rintro ⟨htype, hflag⟩
    -- a PurgeMsResult answers a PurgeMS, so the flag should have been set
    have hstored : entry.mapOperation = .purgeMS := by
      rw [htype] at hop
      exact (Except.ok.inj hop).symm
    have := (hpurge hstored).mpr ⟨htype, hflag⟩
    rw [hfreeze] at this
    cases this
  · rintro ⟨hsame, hnot⟩
    refine ⟨?_, ?_, ?_, ?_⟩
    · rw [hop] at hsame
      exact Except.ok.inj hsame
    · rw [hisError]
      exact ⟨fun h => ⟨h, hsame⟩, fun h => h.1⟩
    · intro herror
      rw [hcode, if_pos (hisError.mp herror)]
    · intro _
      rw [hfreeze]
      exact ⟨fun h => absurd h (by simp), fun h => absurd h hnot⟩

/-- In every run, when an SGSN's answer makes the proxy send an End PDU for a stored Invoke: the
message encoded is faithful if and only if the type of the answer belongs to the operation
invoked and the answer is no PurgeMsResult with the FreezePtmsi element. -/
theorem hlr_answer_faithful_iff {timeout : Int} {events : List ProxyEvent} {s : Proxy}
    (hrun : ProxyRun timeout events s) {i : Nat} {e : ProxyEvent} {payload data : Bytes}
    {client : ClientId} {now : TimePoint} {g : GsupMessage} {entry : HlrTxEntry}
    (he : events[i]? = some e) (hop : e.op = .gsup payload client now)
    (hdec : Gsup.decode payload = .ok g) (hanswer : isHlrInitiatedGsupType g.type = true)
    (hentry : e.pre.hlrTx.lookup g.imsi = some entry) (houts : e.outs = [.hlr data]) :
    ∃ b eb m now₀ r, Origin Proxy.invoked StoresInvoke events g.imsi entry b i ∧
      events[b]? = some eb ∧ ForwardsInvoke eb m now₀ ∧ entry.mapOperation = m.operation ∧
      gsupToMapResult g entry.mapTransactionId entry.mapInvokeId = .ok r ∧
      Map.encode r = .ok data ∧
      (FaithfulAnswer entry g r ↔
        answeredOperation g.type = .ok entry.mapOperation ∧
          ¬ (g.type = .purgeMsResult ∧ g.freezePtmsi = true)) := by
  obtain ⟨b, horigin⟩ := hrun.exists_origin he hentry
  obtain ⟨eb, heb, m, now₀, hforwards, -, hstored⟩ := horigin.2.1
  have hreply : Proxy.hlrReply entry g = some (.hlr data) := by
    have hstep := (Run.event hrun he).2
    rw [hop] at hstep
    simp only [Proxy.step, Proxy.handleGsupPayload, hdec, hanswer, if_true,
      Proxy.handleGsupHlrResponse_eq, hentry, Except.ok.injEq, Prod.mk.injEq, houts] at hstep
    cases hr : Proxy.hlrReply entry g with
    | none => rw [hr] at hstep; cases hstep.2
    | some send =>
      rw [hr] at hstep
      cases hstep.2
      rfl
  unfold Proxy.hlrReply at hreply
  split at hreply
  · rename_i hencode
    cases hreply
    obtain ⟨r, hr, hdata⟩ := except_bind_eq_ok.mp hencode
    exact ⟨b, eb, m, now₀, r, horigin, heb, hforwards, congrArg (·.mapOperation) hstored, hr, hdata,
      faithfulAnswer_iff hr⟩
  · cases hreply

/-- The entry of the pending PurgeMS. -/
def purgeEntry : HlrTxEntry := ⟨5, 3, .purgeMS, 0⟩

theorem plain_purge_answer_faithful :
    ∃ r, gsupToMapResult { type := .purgeMsResult, imsi := [0x31] } 5 3 = .ok r ∧
      FaithfulAnswer purgeEntry { type := .purgeMsResult, imsi := [0x31] } r := by
  obtain ⟨s, data, hanswer⟩ : ∃ s data, purgeInvoked.step (.gsup purgeResultPlain 7 0) =
      .ok (s, [.hlr data]) := ⟨_, _, rfl⟩
  obtain ⟨e₀, hrun⟩ := proxyRun_purgeInvoked hanswer
  obtain ⟨-, -, -, -, r, -, -, -, -, hr, -, hiff⟩ :=
    hlr_answer_faithful_iff (i := 1) hrun rfl rfl rfl rfl
      (show purgeInvoked.hlrTx.lookup [0x31] = some purgeEntry from rfl) rfl
  exact ⟨r, hr, hiff.mpr ⟨rfl, by simp⟩⟩

/-- The FreezePtmsi element of an SGSN's PurgeMsResult does not reach the HLR. -/
theorem freezePtmsi_not_passed_on :
    ¬ ∀ (timeout : Int) (events : List ProxyEvent) (s : Proxy) (i : Nat) (e : ProxyEvent)
      (payload data : Bytes) (client : ClientId) (now : TimePoint) (g : GsupMessage)
      (entry : HlrTxEntry) (r : MapMessage), ProxyRun timeout events s → events[i]? = some e →
      e.op = .gsup payload client now → Gsup.decode payload = .ok g →
      isHlrInitiatedGsupType g.type = true → e.pre.hlrTx.lookup g.imsi = some entry →
      gsupToMapResult g entry.mapTransactionId entry.mapInvokeId = .ok r →
      Map.encode r = .ok data → e.outs = [.hlr data] → FaithfulAnswer entry g r := by
  intro hclaim
  obtain ⟨s, data, r, hanswer, hr, hdata⟩ : ∃ s data r,
      purgeInvoked.step (.gsup purgeResultFreeze 7 0) = .ok (s, [.hlr data]) ∧
      gsupToMapResult { type := .purgeMsResult, imsi := [0x31], freezePtmsi := true } 5 3 = .ok r ∧
      Map.encode r = .ok data := ⟨_, _, _, rfl, rfl, rfl⟩
  obtain ⟨e₀, hrun⟩ := proxyRun_purgeInvoked hanswer
  have hfaithful := hclaim 30 _ s 1 _ purgeResultFreeze data 7 0
    { type := .purgeMsResult, imsi := [0x31], freezePtmsi := true } purgeEntry r hrun rfl rfl rfl
    rfl rfl hr hdata rfl
  exact ((faithfulAnswer_iff hr).mp hfaithful).2 ⟨rfl, rfl⟩

end GsupMapProxy
