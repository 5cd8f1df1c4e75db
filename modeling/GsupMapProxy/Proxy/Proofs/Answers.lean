import GsupMapProxy.Proxy.Proofs.Replies

/-!
# Which requests are answered, and with what

A transaction leaves the tables without a reply when the reply cannot be built: the HLR names
an operation that no GSUP answer exists for, or a field does not fit GSUP. `Op.Answerable` says
when a call runs into none of this. The type and the IMSI of a reply come from the HLR's PDU
where it carries them and from the stored transaction where it does not.
-/

namespace GsupMapProxy

open Gsup Map Misc

/-! ## Building a reply -/

/-- The GSUP results and errors. -/
def isResultOrError : MessageType → Bool
  | .sendAuthInfoResult | .sendAuthInfoError | .updateLocationResult | .updateLocationError
  | .locationCancelResult | .locationCancelError | .insertDataResult | .insertDataError
  | .deleteDataResult | .deleteDataError | .purgeMsResult | .purgeMsError => true
  | _ => false

/-- Every field of the auth vectors fits a one-octet length. -/
def AuthVectorsFit (m : MapMessage) : Prop :=
  (∀ t ∈ m.authTriplets, t.rand.length ≤ 255 ∧ t.sres.length ≤ 255 ∧ t.kc.length ≤ 255) ∧
  ∀ q ∈ m.authQuintuplets, q.rand.length ≤ 255 ∧ q.xres.length ≤ 255 ∧ q.ck.length ≤ 255 ∧
    q.ik.length ≤ 255 ∧ q.autn.length ≤ 255

theorem AuthVectorsFit.authTuples {m : MapMessage} (h : AuthVectorsFit m) :
    ∀ t ∈ m.authTriplets.map tripletToAuthTuple ++ m.authQuintuplets.map quintupletToAuthTuple,
      t.Fits := by
  intro t ht
  rcases List.mem_append.mp ht with ht | ht
  · obtain ⟨triplet, htriplet, rfl⟩ := List.mem_map.mp ht
    obtain ⟨hrand, hsres, hkc⟩ := h.1 triplet htriplet
    exact ⟨hrand, hsres, hkc, by simp [Fits, tripletToAuthTuple],
      by simp [Fits, tripletToAuthTuple], by simp [Fits, tripletToAuthTuple],
      by simp [Fits, tripletToAuthTuple]⟩
  · obtain ⟨q, hq, rfl⟩ := List.mem_map.mp ht
    obtain ⟨hrand, hxres, hck, hik, hautn⟩ := h.2 q hq
    exact ⟨hrand, by simp [quintupletToAuthTuple], by simp [quintupletToAuthTuple],
      by simpa [Fits, quintupletToAuthTuple] using hik,
      by simpa [Fits, quintupletToAuthTuple] using hck,
      by simpa [Fits, quintupletToAuthTuple] using hautn,
      by simpa [Fits, quintupletToAuthTuple] using hxres⟩

/-- What the GSUP encoder needs of an answer, beyond the IMSI: results carry auth vectors or an
HLR number. -/
def FieldsFit (m : MapMessage) : Prop :=
  m.component ≠ .returnError →
    (m.operation = .sendAuthenticationInfo → AuthVectorsFit m) ∧
    (m.operation = .updateGprsLocation → Fits m.hlrNumber)

/-- A reply can be built for each of the five operations. -/
theorem reply_encodes {m : MapMessage} (hop : m.operation ∈ requestOperations)
    (himsi : ShortImsi m.imsi) (hfields : FieldsFit m) :
    ∃ g data, mapToGsup m = .ok g ∧ Gsup.encode g = .ok data ∧ isResultOrError g.type = true := by
  have hanswer : ∀ g : GsupMessage, isResultOrError g.type = true → g.imsi = m.imsi →
      g.pdpInfoList = [] → g.msisdn = none → (∀ t ∈ g.authTuples, t.Fits) → Fits g.hlrNumber →
      ∃ g' data, (Except.ok g : Except Exn GsupMessage) = .ok g' ∧ Gsup.encode g' = .ok data ∧
        isResultOrError g'.type = true := by
    intro g htype himsi' hpdp hmsisdn hauth hhlr
    have hmsisdn' : Fits g.msisdn := by simp [hmsisdn, Fits]
    rw [← himsi'] at himsi
    obtain ⟨data, hdata⟩ :=
      encode_succeeds.mpr ⟨himsi, hauth, hmsisdn', hhlr, by simp [hpdp]⟩
    exact ⟨g, data, rfl, hdata, htype⟩
  simp only [requestOperations, List.mem_cons, List.not_mem_nil, or_false] at hop
  by_cases hcomp : m.component = .returnError
  · rw [mapToGsup, if_pos hcomp]
    rcases hop with hop | hop | hop | hop | hop <;> rw [hop] <;>
      exact hanswer _ rfl rfl rfl rfl (by simp) (by simp [Fits])
  · obtain ⟨hauth, hhlr⟩ := hfields hcomp
    rw [mapToGsup, if_neg hcomp]
    rcases hop with hop | hop | hop | hop | hop <;> simp only [mapResultToGsup, hop]
    · exact hanswer _ rfl rfl rfl rfl (hauth hop).authTuples (by simp [Fits])
    · exact hanswer _ rfl rfl rfl rfl (by simp) (hhlr hop)
    · exact hanswer _ rfl rfl rfl rfl (by simp) (by simp [Fits])
    · exact hanswer _ rfl rfl rfl rfl (by simp) (by simp [Fits])
    · exact hanswer _ rfl rfl rfl rfl (by simp) (by simp [Fits])

/-- The operation an answer is taken to be for: the one in the PDU, or the stored one when the
PDU carries none. -/
def effectiveOperation (p : Proxy) (m : MapMessage) : Option MapOperation :=
  if m.operation = .unknown then p.pendingOps.lookup m.transactionId else some m.operation

/-- The IMSI of the reply: the one in the PDU, or the stored one when the PDU carries none. -/
def effectiveImsi (tx : PendingTransaction) (m : MapMessage) : Str :=
  if m.imsi = [] then tx.imsi else m.imsi

theorem fillIn_eq {p : Proxy} {tx : PendingTransaction} {m : MapMessage} {op : MapOperation}
    (hop : effectiveOperation p m = some op) :
    p.fillIn tx m = { m with imsi := effectiveImsi tx m, operation := op } := by
  unfold effectiveOperation at hop
  unfold Proxy.fillIn effectiveImsi
  by_cases hunknown : m.operation = .unknown
  · rw [if_pos hunknown] at hop
    split
    · simp only [hunknown, if_true, hop]
    · simp only [hunknown, if_true, hop]
  · rw [if_neg hunknown] at hop
    cases hop
    split
    · simp only [hunknown, if_false]
    · simp only [hunknown, if_false]

/-! ## When a call answers every transaction it ends -/

/-- The HLR's answer `m` to the transaction `tx` can be turned into a reply. -/
structure AnswerFits (p : Proxy) (tx : PendingTransaction) (m : MapMessage) : Prop where
  operation : ∃ op ∈ requestOperations, effectiveOperation p m = some op
  imsi : (effectiveImsi tx m).length ≤ 15
  fields : m.component ≠ .returnError →
    (effectiveOperation p m = some .sendAuthenticationInfo → AuthVectorsFit m) ∧
    (effectiveOperation p m = some .updateGprsLocation → Fits m.hlrNumber)

/-- The call loses no request. A request gets an id that is not in use and is not a
DeleteDataRequest; the HLR's answer to a pending transaction fits; a transaction that is
NAKed or expires has an IMSI of at most 15 digits. -/
def Op.Answerable (p : Proxy) : Op → Prop
  | .gsup payload _ _ =>
      ∀ g, Gsup.decode payload = .ok g → isHlrInitiatedGsupType g.type = false →
        p.txMgr.peekTid ∉ p.txMgr.transactions ∧ g.type ≠ .deleteDataRequest
  | .map payload _ =>
      ∀ m tx, Map.decode payload = .ok m → m.component ≠ .invoke →
        p.txMgr.find m.transactionId = some tx → AnswerFits p tx m
  | .nack _ => ∀ t tx, p.txMgr.find t = some tx → tx.imsi.length ≤ 15
  | .expireSgsn _ now => ∀ t tx, p.txMgr.stale now t = some tx → tx.imsi.length ≤ 15
  | .expireHlr _ _ _ => True

theorem Op.Answerable.fresh {p : Proxy} {op : Op} (h : op.Answerable p) : op.Fresh p := by
  cases op with
  | gsup payload client now => exact fun g hdec hreq => (h g hdec hreq).1
  | _ => exact trivial

/-- The payload's first octet is the type of a GSUP result or error. -/
def IsResultOrError (data : Bytes) : Prop :=
  ∃ type, data.head?.map MessageType.ofByte = some type ∧ isResultOrError type = true

theorem answerReply_of_fits {p : Proxy} {tx : PendingTransaction} {m : MapMessage}
    (hdigits : Digits tx.imsi) (hm : Map.Decoded m) (hfits : AnswerFits p tx m) :
    ∃ data, p.answerReply tx m = some (.sgsn data tx.clientContext) ∧ IsResultOrError data := by
  obtain ⟨⟨op, hmem, hop⟩, himsi, hfields⟩ := hfits
  have hshort : ShortImsi (effectiveImsi tx m) := by
    refine ⟨?_, himsi⟩
    unfold effectiveImsi
    split
    · exact hdigits
    · exact hm.digits
  rw [hop] at hfields
  have hfill : FieldsFit { m with imsi := effectiveImsi tx m, operation := op } :=
    fun hcomp => ⟨fun h => (hfields hcomp).1 (congrArg some h),
      fun h => (hfields hcomp).2 (congrArg some h)⟩
  obtain ⟨g, data, hg, hdata, htype⟩ := reply_encodes hmem hshort hfill
  refine ⟨data, ?_, g.type, encode_type hdata, htype⟩
  simp only [Proxy.answerReply, fillIn_eq hop, hg, except_ok_bind, hdata]

theorem errorReply_of_short {p : Proxy} (hsync : p.Sync) {t : UInt32} {tx : PendingTransaction}
    (htx : p.txMgr.find t = some tx) (hlen : tx.imsi.length ≤ 15) :
    ∃ data, p.errorReply t = some (.sgsn data tx.clientContext) ∧ IsResultOrError data := by
  obtain ⟨op, hop⟩ := Finmap.mem_iff.mp ((hsync.keys t).mp (mem_of_lookup htx))
  obtain ⟨g, data, hg, hdata, htype⟩ := reply_encodes
    (m := { transactionId := t, operation := op, component := .returnError, imsi := tx.imsi })
    (hsync.ops t op hop) ⟨hsync.imsis t tx htx, hlen⟩ (fun h => absurd rfl h)
  refine ⟨data, ?_, g.type, encode_type hdata, htype⟩
  simp only [Proxy.errorReply, hop, htx, Proxy.sendReturnError, hg, except_ok_bind, hdata]

/-- Every transaction such a call ends is answered, with a result or an error to its client. -/
theorem replyTo_of_answerable {p : Proxy} {op : Op} (hsync : p.Sync) (hop : op.Possible p)
    (h : op.Answerable p) {t : UInt32} (ht : t ∈ p.closedBy op) :
    ∃ tx data, p.txMgr.find t = some tx ∧
      p.replyTo op t = some (.sgsn data tx.clientContext) ∧ IsResultOrError data := by
  obtain ⟨tx, htx⟩ := Finmap.mem_iff.mp ((closedBy_live hsync hop).2 t ht)
  suffices ∃ data, p.replyTo op t = some (.sgsn data tx.clientContext) ∧ IsResultOrError data by
    obtain ⟨data, hdata⟩ := this
    exact ⟨tx, data, htx, hdata⟩
  cases op with
  | gsup payload client now => cases ht
  | map payload now =>
    cases hdec : Map.decode payload with
    | error e => simp only [Proxy.closedBy, hdec, List.not_mem_nil] at ht
    | ok m =>
      simp only [Proxy.closedBy, hdec] at ht
      split at ht
      · cases ht
      · rename_i hlive
        rw [not_or] at hlive
        obtain rfl := List.mem_singleton.mp ht
        have hfits := h m tx hdec hlive.1 htx
        obtain ⟨data, hreply, hdata⟩ :=
          answerReply_of_fits (hsync.imsis _ tx htx) (Map.decoded_of_decode hdec) hfits
        refine ⟨data, ?_, hdata⟩
        simp only [Proxy.replyTo, hdec]
        rw [show p.txMgr.find m.transactionId = some tx from htx]
        exact hreply
  | nack order => exact errorReply_of_short hsync htx (h t tx htx)
  | expireSgsn order now =>
    have hstale := List.of_mem_filter ht
    obtain ⟨tx', htx'⟩ := Option.isSome_iff_exists.mp hstale
    obtain rfl : tx' = tx := by
      have hfind := (Option.filter_eq_some_iff.mp htx').1
      rw [show p.txMgr.find t = some tx from htx] at hfind
      exact (Option.some.inj hfind).symm
    exact errorReply_of_short hsync htx (h t tx' htx')
  | expireHlr order timeout now => cases ht

/-! ## No request is lost -/

/-- The six request types of the table of operations in the README. -/
def documentedRequests : List MessageType :=
  [.sendAuthInfoRequest, .updateLocationRequest, .locationCancelRequest, .insertDataRequest,
    .deleteDataRequest, .purgeMsRequest]

/-- At the end of the run the request of event `k` is pending for its client and has not been
answered. -/
def StillPending (events : List ProxyEvent) (s : Proxy) (k : Nat) (client : ClientId) : Prop :=
  (∃ t v, Origin Proxy.pending Opens events t v k events.length ∧ s.pending t = some v ∧
    v.1.clientContext = client) ∧ ∀ i j, ¬ Answers events k i j

/-- Exactly one output of the run answers the request of event `k`, and it is a result or an
error for its client. -/
def AnsweredOnce (events : List ProxyEvent) (k : Nat) (client : ClientId) : Prop :=
  ∃ i j e data, Answers events k i j ∧ events[i]? = some e ∧
    e.outs[j]? = some (.sgsn data client) ∧ IsResultOrError data ∧
    ∀ i' j', Answers events k i' j' → i' = i ∧ j' = j

/-- The runs in which no call loses a request. -/
abbrev AnswerableRun (timeout : Int) : List ProxyEvent → Proxy → Prop :=
  Run Proxy.step (fun p op => op.Possible p ∧ op.Answerable p) (Proxy.start timeout)

theorem AnswerableRun.fresh {timeout : Int} {events : List ProxyEvent} {s : Proxy}
    (hrun : AnswerableRun timeout events s) : FreshRun timeout events s :=
  Run.mono hrun fun _ _ h => ⟨h.1, h.2.fresh⟩

/-- A documented request in such a run opens a transaction. -/
theorem AnswerableRun.opens {timeout : Int} {events : List ProxyEvent} {s : Proxy}
    (hrun : AnswerableRun timeout events s) {k : Nat} {e : ProxyEvent} {payload : Bytes}
    {client : ClientId} {now : TimePoint} {g : GsupMessage} (he : events[k]? = some e)
    (hop : e.op = .gsup payload client now) (hdec : Gsup.decode payload = .ok g)
    (hg : g.type ∈ documentedRequests) :
    ∃ t v, Opens e t v ∧ v.1.clientContext = client := by
  have hreq : isHlrInitiatedGsupType g.type = false := by
    simp only [documentedRequests, List.mem_cons, List.not_mem_nil, or_false] at hg
    rcases hg with hg | hg | hg | hg | hg | hg <;> rw [hg] <;> rfl
  have hnot : g.type ≠ .deleteDataRequest := by
    have hans := (Run.event hrun he).1.2
    rw [hop] at hans
    exact (hans g hdec hreq).2
  cases (FreshRun.effect hrun.fresh he).2 with
  | opened payload' client' now' g' mapOp b hop' hdec' hreq' hmap hfresh hfind hlookup houts =>
    rw [hop] at hop'
    cases hop'
    rw [hdec] at hdec'
    cases hdec'
    exact ⟨_, (e.pre.txMgr.newTransaction g.imsi client now, mapOp), ⟨client, now, g,
      ⟨⟨payload, hop, hdec⟩, hreq, ⟨b, houts⟩, rfl⟩, rfl, hmap⟩, rfl⟩
  | closed hrefused hfind hlookup houts =>
    have hnone := (hrefused payload client now g hop hdec hreq).1
    simp only [documentedRequests, List.mem_cons, List.not_mem_nil, or_false] at hg
    rcases hg with hg | hg | hg | hg | hg | hg
    case inr.inr.inr.inr.inl => exact absurd hg hnot
    all_goals
      rw [hg] at hnone
      cases hnone

/-- A transaction leaves the tables only with a reply to its client. -/
theorem AnswerableRun.removal_answered {timeout : Int} {events : List ProxyEvent} {s : Proxy}
    (hrun : AnswerableRun timeout events s) {i : Nat} {e : ProxyEvent} (he : events[i]? = some e)
    {t : UInt32} {tx : PendingTransaction} (htx : e.pre.txMgr.find t = some tx)
    (hgone : e.post.txMgr.find t = none) :
    ∃ j data, Serves e j t ∧ e.outs[j]? = some (.sgsn data tx.clientContext) ∧
      IsResultOrError data := by
  obtain ⟨hsync, heff⟩ := FreshRun.effect hrun.fresh he
  obtain ⟨hpossible, hans⟩ := (Run.event hrun he).1
  have hmem : t ∈ e.pre.closedBy e.op := by
    cases heff with
    | opened payload client now g mapOp b hop hdec hreq hmap hfresh hfind hlookup houts =>
      rw [hfind t] at hgone
      split at hgone
      · cases hgone
      · rw [htx] at hgone
        cases hgone
    | closed hrefused hfind hlookup houts =>
      rw [hfind t] at hgone
      split at hgone
      · assumption
      · rw [htx] at hgone
        cases hgone
  obtain ⟨tx', data, htx', hreply, hdata⟩ := replyTo_of_answerable hsync hpossible hans hmem
  rw [htx] at htx'
  cases htx'
  have hserved : t ∈ (e.pre.closedBy e.op).filter fun t => (e.pre.replyTo e.op t).isSome :=
    List.mem_filter.mpr ⟨hmem, by rw [hreply]; rfl⟩
  obtain ⟨j, hj⟩ := List.mem_iff_getElem?.mp hserved
  refine ⟨j, data, hj, ?_, hdata⟩
  rw [(Serves.closes heff hj).2, hreply]

/-- A transaction that does not stay as it is goes away: an event that opens a transaction uses
an id that was free. -/
theorem find_none_of_end {e : ProxyEvent} (heff : Proxy.SgsnEffect e.pre e.op e.post e.outs)
    {t : UInt32} {v : PendingTransaction × MapOperation} (hpre : e.pre.pending t = some v)
    (hend : e.post.pending t ≠ some v ∨ ∃ v', Opens e t v') : e.post.txMgr.find t = none := by
  obtain ⟨tx, op⟩ := v
  obtain ⟨hfind, hlookup⟩ := Proxy.pending_eq_some.mp hpre
  cases heff with
  | opened payload client now g mapOp b hop hdec hreq hmap hfresh hfind' hlookup' houts =>
    have hne : t ≠ e.pre.txMgr.peekTid := fun h => hfresh (h ▸ mem_of_lookup hfind)
    rcases hend with hend | ⟨v', _, _, _, hforwards, -⟩
    · exfalso
      apply hend
      rw [Proxy.pending_eq_some, hfind' t, hlookup' t, if_neg hne, if_neg hne]
      exact ⟨hfind, hlookup⟩
    · exact absurd hforwards.tid hne
  | closed hrefused hfind' hlookup' houts =>
    by_cases hmem : t ∈ e.pre.closedBy e.op
    · rw [hfind' t, if_pos hmem]
    · exfalso
      rcases hend with hend | ⟨v', client, now, g, hforwards, -⟩
      · apply hend
        rw [Proxy.pending_eq_some, hfind' t, hlookup' t, if_neg hmem, if_neg hmem]
        exact ⟨hfind, hlookup⟩
      · obtain ⟨⟨payload, hop, hdec⟩, hreq, ⟨b, hb⟩, -⟩ := hforwards
        rw [(hrefused payload client now g hop hdec hreq).2] at hb
        cases hb

/-- In a run whose calls are all answerable, every documented request is pending for its client
or was answered exactly once, with a result or an error, and no transaction leaves the table
without a message to its client. -/
theorem no_request_lost {timeout : Int} {events : List ProxyEvent} {s : Proxy}
    (hrun : AnswerableRun timeout events s) :
    (∀ (k : Nat) (e : ProxyEvent) (payload : Bytes) (client : ClientId) (now : TimePoint)
      (g : GsupMessage), events[k]? = some e → e.op = .gsup payload client now →
      Gsup.decode payload = .ok g → g.type ∈ documentedRequests →
      StillPending events s k client ∨ AnsweredOnce events k client) ∧
    ∀ (i : Nat) (e : ProxyEvent) (t : UInt32) (tx : PendingTransaction), events[i]? = some e →
      e.pre.txMgr.find t = some tx → e.post.txMgr.find t = none →
      ∃ j data, Serves e j t ∧ e.outs[j]? = some (.sgsn data tx.clientContext) ∧
        IsResultOrError data := by
  refine ⟨?_, fun i e t tx he htx hgone => hrun.removal_answered he htx hgone⟩
  intro k e payload client now g he hop hdec hg
  obtain ⟨t, v, hopens, hclient⟩ := hrun.opens he hop hdec hg
  rcases Run.lifetime hrun hrun.fresh.tracks he hopens with
    ⟨horigin, halive⟩ | ⟨i, e', horigin, he', hpre, hend⟩
  · refine .inl ⟨⟨t, v, horigin, halive, hclient⟩, ?_⟩
    rintro i j ⟨t', v', e', horigin', he', hserves⟩
    -- an answer would have ended a transaction that is still there
    obtain ⟨eb, heb, hopens'⟩ := horigin'.2.1
    rw [he] at heb
    cases heb
    obtain ⟨rfl, rfl⟩ := hopens.unique hopens'
    have hkept := (horigin.2.2 i e' horigin'.1 (Run.getElem?_lt he') he').1
    rw [Proxy.pending_of_find_none (hserves.closes (FreshRun.effect hrun.fresh he').2).1] at hkept
    cases hkept
  · obtain ⟨tx, op⟩ := v
    obtain ⟨hfind, -⟩ := Proxy.pending_eq_some.mp hpre
    have hgone := find_none_of_end (FreshRun.effect hrun.fresh he').2 hpre hend
    obtain ⟨j, data, hserves, hsend, hdata⟩ := hrun.removal_answered he' hfind hgone
    have hanswers : Answers events k i j := ⟨t, (tx, op), e', horigin, he', hserves⟩
    rw [show tx.clientContext = client from hclient] at hsend
    refine .inr ⟨i, j, e', data, hanswers, he', hsend, hdata, ?_⟩
    intro i' j' h'
    exact hrun.fresh.answer_unique h' hanswers

/-- NAKing the pending purge answers it. -/
theorem nacked_purge_answered :
    ∃ events s, AnswerableRun 30 events s ∧ events.length = 2 ∧
      (StillPending events s 0 7 ∨ AnsweredOnce events 0 7) := by
  obtain ⟨b, hb⟩ := step_purgeRequest
  have hfirst : (Op.gsup purgeRequest 7 0).Answerable (Proxy.start 30) := by
    intro g hdec _
    cases hdec
    exact ⟨by decide, by decide⟩
  have hrequest := (Run.nil : AnswerableRun 30 [] (Proxy.start 30)).snoc
    (Op.gsup purgeRequest 7 0) ⟨trivial, hfirst⟩ hb
  obtain ⟨s, outs, hnack⟩ := Proxy.step_total purgePending (.nack [1])
  have hmem : ∀ t, t ∈ [1] ↔ t ∈ purgePending.pendingOps := by
    intro t
    rw [purgePending, Finmap.mem_insert]
    simp [Finmap.notMem_empty]
  have hshort : ∀ t tx, purgePending.txMgr.find t = some tx → tx.imsi.length ≤ 15 := by
    intro t tx htx
    have hlookup := lookup_insert_ite.symm.trans htx
    split at hlookup
    · cases hlookup
      decide
    · cases hlookup
  have hrun := hrequest.snoc (Op.nack [1]) ⟨⟨by decide, hmem⟩, hshort⟩ hnack
  exact ⟨_, s, hrun, rfl,
    (no_request_lost hrun).1 0 _ purgeRequest 7 0 _ rfl rfl rfl (by decide)⟩

/-- A DeleteDataRequest for the IMSI "1". -/
def deleteRequest : Bytes := [0x14, 0x01, 0x01, 0xF1]

/-- A DeleteDataRequest is dropped: it is neither pending afterwards nor answered. -/
theorem deleteDataRequest_lost :
    ¬ ∀ (timeout : Int) (events : List ProxyEvent) (s : Proxy),
      Run Proxy.step (fun p op => op.Possible p) (Proxy.start timeout) events s →
      ∀ (k : Nat) (e : ProxyEvent) (payload : Bytes) (client : ClientId) (now : TimePoint)
        (g : GsupMessage), events[k]? = some e → e.op = .gsup payload client now →
        Gsup.decode payload = .ok g → g.type ∈ documentedRequests →
        StillPending events s k client ∨ AnsweredOnce events k client := by
  intro hclaim
  obtain ⟨s, hstep, hempty⟩ : ∃ s, (Proxy.start 30).step (.gsup deleteRequest 7 0) = .ok (s, []) ∧
      ∀ t, s.txMgr.find t = none := by
    refine ⟨_, rfl, ?_⟩
    intro t
    rw [TransactionManager.find_complete]
    split
    · rfl
    · rename_i hne
      exact Finmap.lookup_insert_of_ne _ hne
  rcases hclaim 30 _ s (.snoc .nil (Op.gsup deleteRequest 7 0) trivial hstep) 0 _ deleteRequest 7 0
      _ rfl rfl rfl (by decide) with
    ⟨⟨t, v, -, hpending, -⟩, -⟩ | ⟨i, j, e, data, ⟨t, v, e', horigin, he', -⟩, -⟩
  · rw [Proxy.pending_of_find_none (hempty t)] at hpending
    cases hpending
  · have hlt := Run.getElem?_lt he'
    have hpos := horigin.1
    simp only [List.nil_append, List.length_singleton] at hlt
    omega

/-! ## What a reply says -/

/-- The type of a converted answer is the one expected for the request type its operation
stands for. -/
theorem mapToGsup_type {m : MapMessage} {g : GsupMessage} (h : mapToGsup m = .ok g) :
    g.imsi = m.imsi ∧ ∃ type, requestOperation type = some m.operation ∧
      if m.component = .returnError then expectedGsupError type = .ok g.type
      else expectedGsupResult type = .ok g.type := by
  unfold mapToGsup at h
  split at h
  · rename_i hcomp
    simp only [hcomp, if_true]
    cases hop : m.operation <;> rw [hop] at h <;> cases h
    case sendAuthenticationInfo.refl => exact ⟨rfl, .sendAuthInfoRequest, rfl, rfl⟩
    case updateGprsLocation.refl => exact ⟨rfl, .updateLocationRequest, rfl, rfl⟩
    case cancelLocation.refl => exact ⟨rfl, .locationCancelRequest, rfl, rfl⟩
    case insertSubscriberData.refl => exact ⟨rfl, .insertDataRequest, rfl, rfl⟩
    case purgeMS.refl => exact ⟨rfl, .purgeMsRequest, rfl, rfl⟩
  · rename_i hcomp
    simp only [hcomp, if_false]
    unfold mapResultToGsup at h
    cases hop : m.operation <;> rw [hop] at h <;> cases h
    case sendAuthenticationInfo.refl => exact ⟨rfl, .sendAuthInfoRequest, rfl, rfl⟩
    case updateGprsLocation.refl => exact ⟨rfl, .updateLocationRequest, rfl, rfl⟩
    case cancelLocation.refl => exact ⟨rfl, .locationCancelRequest, rfl, rfl⟩
    case insertSubscriberData.refl => exact ⟨rfl, .insertDataRequest, rfl, rfl⟩
    case purgeMS.refl => exact ⟨rfl, .purgeMsRequest, rfl, rfl⟩

theorem requestOperation_injective {type type' : MessageType} {op : MapOperation}
    (h : requestOperation type = some op) (h' : requestOperation type' = some op) :
    type = type' := by
  cases type <;> cases h <;> cases type' <;> cases h' <;> rfl

/-- The reply type for a request of type `type`, by the kind of the HLR's answer. -/
def expectedReply (component : ComponentType) (type : MessageType) : Except Exn MessageType :=
  if component = .returnError then expectedGsupError type else expectedGsupResult type

/-- What is sent for a pending transaction: a message to its client, with the IMSI and the type
that follow from the answer and, where it has none, from the transaction. -/
theorem answerReply_sent {p : Proxy} {tx : PendingTransaction} {m : MapMessage}
    {op : MapOperation} {data : Bytes} {client : ClientId}
    (hop : effectiveOperation p m = some op)
    (h : p.answerReply tx m = some (.sgsn data client)) :
    client = tx.clientContext ∧ ∃ g type, Gsup.encode g = .ok data ∧
      (g.imsi = if m.imsi = [] then tx.imsi else m.imsi) ∧ requestOperation type = some op ∧
      expectedReply m.component type = .ok g.type := by
  unfold Proxy.answerReply at h
  rw [fillIn_eq hop] at h
  split at h
  · rename_i hencode
    cases h
    obtain ⟨g, hg, hdata⟩ := except_bind_eq_ok.mp hencode
    obtain ⟨himsi, type, htype, hexpected⟩ := mapToGsup_type hg
    refine ⟨rfl, g, type, hdata, himsi, htype, ?_⟩
    unfold expectedReply
    split
    · rename_i hcomp
      rwa [if_pos hcomp] at hexpected
    · rename_i hcomp
      rwa [if_neg hcomp] at hexpected
  · cases h

/-- The invoke id of an answer plays no part in the reply. -/
theorem answerReply_invokeId {p : Proxy} {tx : PendingTransaction} {m : MapMessage}
    {op : MapOperation} (hop : effectiveOperation p m = some op) (id : UInt8) :
    p.answerReply tx { m with invokeId := id } = p.answerReply tx m := by
  have hop' : effectiveOperation p { m with invokeId := id } = some op := hop
  rw [Proxy.answerReply, fillIn_eq hop', Proxy.answerReply, fillIn_eq hop]
  rfl

/-- The reply to a pending transaction goes to the client whose request opened it. Its type is
the one expected for that request when the PDU carries no operation or the request's own, and
otherwise the one for the operation in the PDU; its IMSI is the request's when the PDU carries
none, and otherwise the PDU's. The invoke id of the PDU is not looked at. -/
theorem reply_follows_pdu_then_request {timeout : Int} {events : List ProxyEvent} {s s' : Proxy}
    (hrun : FreshRun timeout events s) {payload data : Bytes} {now : TimePoint} {m : MapMessage}
    {client : ClientId} (hdec : Map.decode payload = .ok m) (hinv : m.component ≠ .invoke)
    (hstep : s.step (.map payload now) = .ok (s', [.sgsn data client])) :
    ∃ tx op b eb now₀ g₀ g,
      Origin Proxy.pending Opens events m.transactionId (tx, op) b events.length ∧
      events[b]? = some eb ∧ Forwards eb m.transactionId client now₀ g₀ ∧
      Gsup.encode g = .ok data ∧
      (m.operation = .unknown ∨ requestOperation g₀.type = some m.operation →
        expectedReply m.component g₀.type = .ok g.type) ∧
      (m.operation ≠ .unknown → ∃ type, requestOperation type = some m.operation ∧
        expectedReply m.component type = .ok g.type) ∧
      (g.imsi = if m.imsi = [] then g₀.imsi else m.imsi) ∧
      ∀ payload' m', Map.decode payload' = .ok m' → m' = { m with invokeId := m'.invokeId } →
        s.step (.map payload' now) = s.step (.map payload now) := by
  have hhandle : s.step (.map payload now) = s.handleMapAnswer m := by
    simp only [Proxy.step, Proxy.handleMapPayload, hdec, if_neg hinv]
  rw [hhandle, Proxy.handleMapAnswer_eq] at hstep
  cases hfind : s.txMgr.find m.transactionId with
  | none =>
    rw [hfind] at hstep
    cases hstep
  | some tx =>
    simp only [hfind, Except.ok.injEq, Prod.mk.injEq] at hstep
    obtain ⟨op, hpending⟩ := hrun.sync.pending_of_find hfind
    obtain ⟨-, hlookup⟩ := Proxy.pending_eq_some.mp hpending
    obtain ⟨b, horigin⟩ := Run.exists_origin hrun (fun _ => rfl) hrun.tracks hpending
    obtain ⟨eb, heb, client₀, now₀, g₀, hforwards, hrecord, hreqOp⟩ := horigin.2.1
    have hop : effectiveOperation s m =
        some (if m.operation = .unknown then op else m.operation) := by
      unfold effectiveOperation
      split
      · exact hlookup
      · rfl
    have hreply : s.answerReply tx m = some (.sgsn data client) := by
      cases hr : s.answerReply tx m with
      | none => rw [hr] at hstep; cases hstep.2
      | some send =>
        rw [hr] at hstep
        cases hstep.2
        rfl
    obtain ⟨hclient, g, type, hdata, himsi, htype, hexpected⟩ := answerReply_sent hop hreply
    have hclient₀ : tx.clientContext = client₀ := congrArg (·.clientContext) hrecord
    have himsi₀ : tx.imsi = g₀.imsi := congrArg (·.imsi) hrecord
    rw [hclient, hclient₀]
    refine ⟨tx, op, b, eb, now₀, g₀, g, horigin, heb, hforwards, hdata, ?_, ?_, ?_, ?_⟩
    · intro hsame
      have htype₀ : requestOperation g₀.type =
          some (if m.operation = .unknown then op else m.operation) := by
        split
        · exact hreqOp
        · rename_i hknown
          exact hsame.resolve_left hknown
      rw [requestOperation_injective htype₀ htype]
      exact hexpected
    · intro hknown
      rw [if_neg hknown] at htype
      exact ⟨type, htype, hexpected⟩
    · rw [himsi, himsi₀]
    · intro payload' m' hdec' hm'
      have hinv' : m'.component ≠ .invoke := by rw [hm']; exact hinv
      rw [hhandle]
      simp only [Proxy.step, Proxy.handleMapPayload, hdec', if_neg hinv']
      rw [hm', Proxy.handleMapAnswer_eq, Proxy.handleMapAnswer_eq]
      simp only [hfind, answerReply_invokeId hop]

/-- What is forwarded in a run of a purge alone is the purge. -/
theorem purge_forwarded {e eb : ProxyEvent} (he : e.op = .gsup purgeRequest 7 0) {b : Nat}
    (heb : [e][b]? = some eb) {t : UInt32} {client : ClientId} {now : TimePoint} {g : GsupMessage}
    (hforwards : Forwards eb t client now g) : Gsup.decode purgeRequest = .ok g := by
  obtain rfl := List.mem_singleton.mp (List.mem_of_getElem? heb)
  obtain ⟨payload, hop, hdec⟩ := hforwards.request
  rw [he] at hop
  cases hop
  exact hdec

/-- A purge is answered as a purge. -/
theorem purge_reply_type :
    ∃ g data, Gsup.encode g = .ok data ∧ expectedReply .returnResult .purgeMsRequest = .ok g.type ∧
      g.imsi = [0x31] := by
  obtain ⟨e, he, hrun⟩ := freshRun_purgePending
  obtain ⟨s', data, hstep⟩ :
      ∃ s data, purgePending.step (.map purgeAnswer 0) = .ok (s, [.sgsn data 7]) := ⟨_, _, rfl⟩
  obtain ⟨tx, op, b, eb, now₀, g₀, g, horigin, heb, hforwards, hdata, htype, -, himsi, -⟩ :=
    reply_follows_pdu_then_request hrun
      (m := { transactionId := 1, component := .returnResult, operation := .purgeMS })
      rfl (by decide) hstep
  cases purge_forwarded he heb hforwards
  exact ⟨g, data, hdata, htype (.inr rfl), himsi⟩

/-- `purgeAnswer` with the operation code of UpdateGprsLocation. -/
def locationAnswer : Bytes :=
  [0x64, 0x14, 0x49, 0x04, 0x00, 0x00, 0x00, 0x01, 0x6c, 0x0c, 0xa2, 0x0a, 0x02, 0x01, 0x01, 0x30,
    0x05, 0x02, 0x01, 0x17, 0x30, 0x00]

/-- A pending purge that the HLR answers as an UpdateGprsLocation is reported to the SGSN as an
UpdateLocationResult. -/
theorem purge_answered_as_location_update :
    ¬ ∀ (timeout : Int) (events : List ProxyEvent) (s s' : Proxy) (payload data : Bytes)
      (now : TimePoint) (m : MapMessage) (client : ClientId) (tx : PendingTransaction)
      (op : MapOperation) (b : Nat) (eb : ProxyEvent) (client₀ : ClientId) (now₀ : TimePoint)
      (g₀ : GsupMessage), FreshRun timeout events s → Map.decode payload = .ok m →
      m.component ≠ .invoke → s.step (.map payload now) = .ok (s', [.sgsn data client]) →
      Origin Proxy.pending Opens events m.transactionId (tx, op) b events.length →
      events[b]? = some eb → Forwards eb m.transactionId client₀ now₀ g₀ →
      ∃ g, Gsup.encode g = .ok data ∧
        (expectedGsupResult g₀.type = .ok g.type ∨ expectedGsupError g₀.type = .ok g.type) ∧
        g.imsi = g₀.imsi ∧ m.invokeId = tx.mapInvokeId := by
  intro hclaim
  obtain ⟨e, he, hrun⟩ := freshRun_purgePending
  obtain ⟨s', data, hstep, hdata⟩ : ∃ s data,
      purgePending.step (.map locationAnswer 0) = .ok (s, [.sgsn data 7]) ∧
        data.head?.map MessageType.ofByte = some .updateLocationResult := ⟨_, _, rfl, rfl⟩
  have hpending : purgePending.pending 1 = some _ := rfl
  obtain ⟨b, horigin⟩ := Run.exists_origin hrun (fun _ => rfl) hrun.tracks hpending
  obtain ⟨eb, heb, client₀, now₀, g₀, hforwards, -, -⟩ := horigin.2.1
  obtain ⟨g, hencode, htype, -, -⟩ := hclaim 30 [e] purgePending s' locationAnswer data 0
    { transactionId := 1, component := .returnResult, operation := .updateGprsLocation } 7 _ _ b eb
    client₀ now₀ g₀ hrun rfl (by decide) hstep horigin heb hforwards
  rw [encode_type hencode] at hdata
  have hg : g.type = .updateLocationResult := Option.some.inj hdata
  cases purge_forwarded he heb hforwards
  rw [hg] at htype
  rcases htype with h | h <;> cases h

end GsupMapProxy
