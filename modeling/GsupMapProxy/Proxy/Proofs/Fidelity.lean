import GsupMapProxy.Proxy.Proofs.Answers

/-!
# What is forwarded says what was received

The request path, the answer path and the HLR-initiated path each put a decoder, a converter
and an encoder in a row. Read back with the peer's decoder, what they send is the converted
message, field by field.
-/

namespace GsupMapProxy

open Gsup Map Misc

/-! ## Requests -/

/-- The five request types `gsupToMap` accepts. -/
def acceptedRequests : List MessageType :=
  [.sendAuthInfoRequest, .updateLocationRequest, .locationCancelRequest, .insertDataRequest,
    .purgeMsRequest]

theorem requestOperation_isSome {type : MessageType} :
    type ∈ acceptedRequests ↔ ∃ op, requestOperation type = some op := by
  cases type <;> simp [acceptedRequests, requestOperation]

/-- A converted request travels in full. -/
theorem wireView_of_gsupToMap {g : GsupMessage} {tid : UInt32} {id : UInt8} {m : MapMessage}
    (h : gsupToMap g tid id = .ok m) : wireView m = m ∧ m.imsi = g.imsi := by
  unfold gsupToMap at h
  cases htype : g.type <;> rw [htype] at h <;> cases h <;> exact ⟨rfl, rfl⟩

/-- A request ends in one of three ways. A payload that does not decode changes nothing; a type
that is not accepted only moves the counters; an accepted one is sent to the HLR as a PDU that
decodes to the converted request, and adds exactly its own entry to the two tables. -/
theorem request_forwarded_or_rolled_back (p : Proxy) (payload : Bytes) (client : ClientId)
    (now : TimePoint) (hfresh : p.txMgr.peekTid ∉ p.txMgr.transactions)
    (hreq : ∀ g, Gsup.decode payload = .ok g → isHlrInitiatedGsupType g.type = false) :
    match Gsup.decode payload with
    | .error _ => p.handleGsupPayload payload client now = .ok (p, [])
    | .ok g =>
        if g.type ∈ acceptedRequests then
          ∃ m b, gsupToMap g p.txMgr.peekTid p.txMgr.peekInvokeId = .ok m ∧
            Map.encode m = .ok b ∧ Map.decode b = .ok m ∧
            p.handleGsupPayload payload client now = .ok ({ p with
              txMgr := { p.txMgr with
                tidCounter := p.txMgr.peekTid + 1
                invokeIdCounter := p.txMgr.peekInvokeId + 1
                transactions := p.txMgr.transactions.insert p.txMgr.peekTid
                  { mapTransactionId := p.txMgr.peekTid, mapInvokeId := p.txMgr.peekInvokeId,
                    imsi := g.imsi, clientContext := client, createdAt := now } }
              pendingOps := p.pendingOps.insert p.txMgr.peekTid m.operation }, [.hlr b])
        else p.handleGsupPayload payload client now =
          .ok ({ p with txMgr := { p.txMgr with
            tidCounter := p.txMgr.peekTid + 1
            invokeIdCounter := p.txMgr.peekInvokeId + 1 } }, []) := by
  cases hdec : Gsup.decode payload with
  | error e => simp only [Proxy.handleGsupPayload, hdec]
  | ok g =>
    have hmgr : p.allocated g client now =
        { p.txMgr.advance with
          transactions := p.txMgr.transactions.insert p.txMgr.peekTid
            (p.txMgr.newTransaction g.imsi client now) } :=
      TransactionManager.emplace_fresh hfresh
    dsimp only
    rcases Proxy.handleGsupPayload_request (p := p) client now hdec (hreq g hdec) with
      ⟨hnone, hok⟩ | ⟨tx, m, op, b, hsome, htx, hmap, hop, hb, hok⟩
    · rw [if_neg (by rw [requestOperation_isSome, hnone]; simp), hok, hmgr]
      simp only [TransactionManager.complete]
      rw [erase_insert_of_notMem hfresh]
      rfl
    · rw [if_pos (requestOperation_isSome.mpr ⟨op, hsome⟩)]
      obtain rfl : tx = p.txMgr.newTransaction g.imsi client now := by
        rw [hmgr, TransactionManager.find, Finmap.lookup_insert] at htx
        exact (Option.some.inj htx).symm
      obtain ⟨hview, himsi⟩ := wireView_of_gsupToMap hmap
      have hdecode := Map.decode_of_encode (m := m)
        (fun _ => by rw [himsi]; exact (Gsup.decoded_of_decode hdec).digits) hb
      rw [hview] at hdecode
      refine ⟨m, b, hmap, hb, hdecode, ?_⟩
      rw [hok, hmgr, hop]
      rfl

theorem purgeRequest_forwarded :
    ∃ m b p', gsupToMap { type := .purgeMsRequest, imsi := [0x31] } 1 1 = .ok m ∧
      Map.encode m = .ok b ∧ Map.decode b = .ok m ∧
      (Proxy.start 30).handleGsupPayload purgeRequest 7 0 = .ok (p', [.hlr b]) := by
  have h := request_forwarded_or_rolled_back (Proxy.start 30) purgeRequest 7 0 (by decide)
    (fun g hdec => by cases hdec; rfl)
  obtain ⟨m, b, hmap, hb, hdec, hok⟩ := h
  exact ⟨m, b, _, hmap, hb, hdec, hok⟩

/-! ## What every run keeps

Also when an id is reused: `emplace` keeps the older record then, and the operation is
overwritten, but no transaction is ever without an operation. -/

namespace Proxy

/-- Every pending transaction has an operation that a reply exists for, is filed under its own
id and has a decimal IMSI. -/
structure Linked (p : Proxy) : Prop where
  op : ∀ t, t ∈ p.txMgr.transactions → t ∈ p.pendingOps
  ids : ∀ t tx, p.txMgr.find t = some tx → tx.mapTransactionId = t
  ops : ∀ t op, p.pendingOps.lookup t = some op → op ∈ requestOperations
  imsis : ∀ t tx, p.txMgr.find t = some tx → Digits tx.imsi

theorem linked_start (timeout : Int) : Linked (start timeout) where
  op := fun _ h => h
  ids := (sync_start timeout).ids
  ops := (sync_start timeout).ops
  imsis := (sync_start timeout).imsis

/-- Removing transactions, and operations that no transaction is left for, keeps the link. -/
theorem Linked.of_removed {p p' : Proxy} (h : Linked p)
    (hfind : ∀ t tx, p'.txMgr.find t = some tx → p.txMgr.find t = some tx)
    (hlookup : ∀ t op, p'.pendingOps.lookup t = some op → p.pendingOps.lookup t = some op)
    (hkept : ∀ t tx, p'.txMgr.find t = some tx →
      p'.pendingOps.lookup t = p.pendingOps.lookup t) : Linked p' where
  op := by
    intro t ht
    obtain ⟨tx, htx⟩ := mem_transactions.mp ht
    obtain ⟨o, ho⟩ := Finmap.mem_iff.mp (h.op t (mem_of_lookup (hfind t tx htx)))
    exact mem_of_lookup ((hkept t tx htx).trans ho)
  ids := fun t tx htx => h.ids t tx (hfind t tx htx)
  ops := fun t o ho => h.ops t o (hlookup t o ho)
  imsis := fun t tx htx => h.imsis t tx (hfind t tx htx)

/-- The link only speaks of the two tables. -/
theorem Linked.congr {p p' : Proxy} (h : Linked p) (hmgr : p'.txMgr = p.txMgr)
    (hops : p'.pendingOps = p.pendingOps) : Linked p' :=
  h.of_removed (by rw [hmgr]; exact fun _ _ h => h) (by rw [hops]; exact fun _ _ h => h)
    (by rw [hops]; exact fun _ _ _ => rfl)

theorem find_emplace_cases {mgr : TransactionManager} {tid t : UInt32} {new tx : PendingTransaction}
    (h : (mgr.emplace tid new).find t = some tx) :
    mgr.find t = some tx ∨ t = tid ∧ tx = new := by
  unfold TransactionManager.emplace at h
  split at h
  · exact .inl h
  · rw [TransactionManager.find, lookup_insert_ite] at h
    split at h
    · rename_i ht
      exact .inr ⟨ht, (Option.some.inj h).symm⟩
    · exact .inl h

theorem linked_gsup {p p' : Proxy} {payload : Bytes} {client : ClientId} {now : TimePoint}
    {outs : List Send} (hp : Linked p)
    (h : p.handleGsupPayload payload client now = .ok (p', outs)) : Linked p' := by
  -- what is found after an allocation was there before or is new
  have hnew : ∀ g t tx, (p.allocated g client now).find t = some tx →
      p.txMgr.find t = some tx ∨
        t = p.txMgr.peekTid ∧ tx = p.txMgr.newTransaction g.imsi client now := by
    intro g t tx htx
    unfold allocated at htx
    rcases find_emplace_cases htx with hold | hnew
    · exact .inl hold
    · exact .inr hnew
  cases handleGsupPayload_effect h with
  | undecoded hdec => exact hp
  | unmatched hdec hanswer hnone => exact hp
  | answered hdec hanswer hentry => exact hp.congr rfl rfl
  | @unsupported g hdec hreq hnone =>
    refine hp.of_removed ?_ (fun _ _ h => h) (fun _ _ _ => rfl)
    intro t tx htx
    dsimp only at htx
    rw [TransactionManager.find_complete] at htx
    split at htx
    · cases htx
    · rename_i hne
      exact (hnew g t tx htx).resolve_right fun h => hne h.1
  | @forwarded g _ m op b hdec hreq hop hmap hb =>
    refine ⟨?_, ?_, ?_, ?_⟩
    · intro t ht
      obtain ⟨tx, htx⟩ := mem_transactions.mp ht
      rw [Finmap.mem_insert]
      rcases hnew g t tx htx with hold | ⟨ht, -⟩
      · exact .inr (hp.op t (mem_of_lookup hold))
      · exact .inl ht
    · intro t tx htx
      rcases hnew g t tx htx with hold | ⟨rfl, rfl⟩
      · exact hp.ids t tx hold
      · rfl
    · intro t o ho
      dsimp only at ho
      rw [lookup_insert_ite] at ho
      split at ho
      · cases ho
        exact requestOperation_mem hop
      · exact hp.ops t o ho
    · intro t tx htx
      rcases hnew g t tx htx with hold | ⟨rfl, rfl⟩
      · exact hp.imsis t tx hold
      · exact (Gsup.decoded_of_decode hdec).digits

theorem linked_map {p p' : Proxy} {payload : Bytes} {now : TimePoint} {outs : List Send}
    (hp : Linked p) (h : p.handleMapPayload payload now = .ok (p', outs)) : Linked p' := by
  cases handleMapPayload_effect h with
  | undecoded hdec => exact hp
  | refused hdec hinv hmap => exact hp
  | unencoded hdec hinv hmap henc => exact hp.congr rfl rfl
  | stored hdec hinv hmap henc => exact hp.congr rfl rfl
  | unmatched hdec hnot hnone => exact hp
  | @answered m pending hdec hnot hfind =>
    have hkept : ∀ t tx, (p.forget m.transactionId).txMgr.find t = some tx →
        t ≠ m.transactionId ∧ p.txMgr.find t = some tx := by
      intro t tx htx
      rw [forget, TransactionManager.find_complete] at htx
      split at htx
      · cases htx
      · exact ⟨‹_›, htx⟩
    refine hp.of_removed (fun t tx htx => (hkept t tx htx).2) ?_ ?_
    · intro t o ho
      rw [forget, lookup_erase_ite] at ho
      split at ho
      · cases ho
      · exact ho
    · intro t tx htx
      rw [forget, lookup_erase_ite, if_neg (hkept t tx htx).1]

theorem linked_step {p p' : Proxy} {op : Op} {outs : List Send} (hp : Linked p)
    (hop : op.Possible p) (h : p.step op = .ok (p', outs)) : Linked p' := by
  cases op with
  | gsup payload client now => exact linked_gsup hp h
  | map payload now => exact linked_map hp h
  | nack order =>
    obtain ⟨-, -, hops, hfind⟩ := step_nack hop.1 h
    -- every transaction has an operation, so the visit covers them all
    have hgone : ∀ t tx, p'.txMgr.find t ≠ some tx := by
      intro t tx htx
      rw [hfind t] at htx
      split at htx
      · cases htx
      · rename_i hnot
        have hmem := hp.op t (mem_of_lookup htx)
        exact hnot ⟨(hop.2 t).mpr hmem, hmem⟩
    refine hp.of_removed (fun t tx htx => absurd htx (hgone t tx)) ?_
      (fun t tx htx => absurd htx (hgone t tx))
    intro t o ho
    rw [hops, Finmap.lookup_empty] at ho
    cases ho
  | expireSgsn order now =>
    obtain ⟨-, -, hfind, hops⟩ := step_expireSgsn hop.1 hp.ids h
    refine hp.of_removed ?_ ?_ ?_
    · intro t tx htx
      rw [hfind t] at htx
      split at htx
      · cases htx
      · exact htx
    · intro t o ho
      rw [hops t] at ho
      split at ho
      · cases ho
      · exact ho
    · intro t tx htx
      rw [hfind t] at htx
      split at htx
      · cases htx
      · rename_i hnot
        rw [hops t, if_neg hnot]
  | expireHlr order timeout now =>
    cases h
    exact hp.congr rfl rfl

end Proxy

/-- All runs. -/
abbrev ProxyRun (timeout : Int) : List ProxyEvent → Proxy → Prop :=
  Run Proxy.step (fun p op => op.Possible p) (Proxy.start timeout)

theorem ProxyRun.linked {timeout : Int} {events : List ProxyEvent} {s : Proxy}
    (hrun : ProxyRun timeout events s) : s.Linked :=
  Run.invariant hrun (Proxy.linked_start timeout) fun _ _ _ _ hs hop h =>
    Proxy.linked_step hs hop h

/-! ## Answers and Invokes of the HLR -/

/-- Every byte-string field of the message is at most 255 bytes long. -/
structure ByteFieldsFit (r : MapMessage) : Prop where
  auth : AuthVectorsFit r
  sgsnNumber : Fits r.sgsnNumber
  sgsnAddress : Fits r.sgsnAddress
  hlrNumber : Fits r.hlrNumber
  msisdn : Fits r.msisdn

/-- The AuthTuples the auth vectors of `r` become have bodies of at most 255 bytes. -/
def SmallAuthTuples (r : MapMessage) : Prop :=
  ∀ t ∈ r.authTriplets.map tripletToAuthTuple ++ r.authQuintuplets.map quintupletToAuthTuple,
    ∀ body, authTupleBody t = .ok body → body.length ≤ 255

/-- The answer with what the proxy takes from the stored transaction, and with the error code
the encoder writes when there is none. -/
def inContext (r : MapMessage) (imsi : Str) (op : MapOperation) : MapMessage :=
  { r with imsi := imsi, operation := op, errorCode := some (r.errorCode.getD 34) }

/-- The GSUP type of an answer to each operation. -/
def answerType (component : ComponentType) : MapOperation → Option MessageType
  | .sendAuthenticationInfo =>
      some (if component = .returnError then .sendAuthInfoError else .sendAuthInfoResult)
  | .updateGprsLocation =>
      some (if component = .returnError then .updateLocationError else .updateLocationResult)
  | .cancelLocation =>
      some (if component = .returnError then .locationCancelError else .locationCancelResult)
  | .insertSubscriberData =>
      some (if component = .returnError then .insertDataError else .insertDataResult)
  | .purgeMS => some (if component = .returnError then .purgeMsError else .purgeMsResult)
  | _ => none

/-- The authentication vectors of an answer as the SGSN gets them: all triplets, then all
quintuplets, each with all its parts. -/
def deliveredVectors (r : MapMessage) : List AuthTuple :=
  r.authTriplets.map (fun t => { rand := t.rand, sres := t.sres, kc := t.kc }) ++
    r.authQuintuplets.map fun q =>
      { rand := q.rand, sres := [], kc := [], ik := some q.ik, ck := some q.ck,
        autn := some q.autn, res := some q.xres }

/-- What the SGSN learns of an answer: of an error the cause, 34 if it came without one; of a
result what its operation returns; and nothing else. -/
structure AnswerFields (r : MapMessage) (imsi : Str) (op : MapOperation) (g : GsupMessage) :
    Prop where
  type : answerType r.component op = some g.type
  imsi : g.imsi = imsi
  cause : g.cause = if r.component = .returnError then some (r.errorCode.getD 34) else none
  vectors : g.authTuples =
    if r.component = .returnResult ∧ op = .sendAuthenticationInfo then deliveredVectors r else []
  hlrNumber : g.hlrNumber =
    if r.component = .returnResult ∧ op = .updateGprsLocation then r.hlrNumber else none
  freezePtmsi : g.freezePtmsi =
    if r.component = .returnResult ∧ op = .purgeMS then r.freezePtmsi else false
  rest : g =
    { type := g.type, imsi := g.imsi, cause := g.cause, authTuples := g.authTuples,
      hlrNumber := g.hlrNumber, freezePtmsi := g.freezePtmsi }

theorem answerFields_of_mapToGsup {r : MapMessage} {imsi : Str} {op : MapOperation}
    {g : GsupMessage} (hcomp : r.component = .returnResult ∨ r.component = .returnError)
    (h : mapToGsup (inContext r imsi op) = .ok g) : AnswerFields r imsi op g := by
  obtain ⟨tid, component, id, last, operation⟩ := r
  rcases hcomp with rfl | rfl
  · cases op <;> cases h <;> exact ⟨rfl, rfl, rfl, rfl, rfl, rfl, rfl⟩
  · cases op <;> cases h <;> exact ⟨rfl, rfl, rfl, rfl, rfl, rfl, rfl⟩

/-- The GSUP type of a request for each operation the HLR invokes. -/
def invokeType : MapOperation → Option MessageType
  | .insertSubscriberData => some .insertDataRequest
  | .cancelLocation => some .locationCancelRequest
  | .deleteSubscriberData => some .deleteDataRequest
  | .purgeMS => some .purgeMsRequest
  | _ => none

/-- What the SGSNs learn of an Invoke of the HLR. -/
structure InvokeFields (r : MapMessage) (g : GsupMessage) : Prop where
  type : invokeType r.operation = some g.type
  imsi : g.imsi = r.imsi
  msisdn : g.msisdn = if r.operation = .insertSubscriberData then r.msisdn else none
  cancelType : g.cancelType = if r.operation = .cancelLocation then r.cancelType else none
  rest : g = { type := g.type, imsi := g.imsi, msisdn := g.msisdn, cancelType := g.cancelType }

theorem invokeFields_of_mapInvokeToGsup {r : MapMessage} {g : GsupMessage}
    (h : mapInvokeToGsup r = .ok g) : InvokeFields r g := by
  unfold mapInvokeToGsup at h
  split at h
  · cases h
  · cases hop : r.operation <;> rw [hop] at h <;> cases h
    all_goals exact ⟨by rw [hop]; rfl, rfl, by rw [hop]; rfl, by rw [hop]; rfl, rfl⟩

/-- A converted answer has no nested elements beyond its AuthTuples. -/
theorem mapToGsup_small {m : MapMessage} {g : GsupMessage} (hsmall : SmallAuthTuples m)
    (h : mapToGsup m = .ok g) : SmallBodies g ∧ g.freezePtmsiResult = false := by
  unfold mapToGsup at h
  split at h
  · obtain ⟨type, -, h⟩ := except_bind_eq_ok.mp h
    cases h
    exact ⟨⟨by simp, by simp⟩, rfl⟩
  · unfold mapResultToGsup at h
    cases hop : m.operation <;> rw [hop] at h <;> cases h
    case sendAuthenticationInfo.refl => exact ⟨⟨hsmall, by simp⟩, rfl⟩
    all_goals exact ⟨⟨by simp, by simp⟩, rfl⟩

theorem mapInvokeToGsup_small {m : MapMessage} {g : GsupMessage} (h : mapInvokeToGsup m = .ok g) :
    SmallBodies g ∧ g.freezePtmsiResult = false := by
  unfold mapInvokeToGsup at h
  split at h
  · cases h
  · cases hop : m.operation <;> rw [hop] at h <;> cases h <;> exact ⟨⟨by simp, by simp⟩, rfl⟩

/-- The proxy sees the answer of the HLR as the converter would see it in context: the fields
that do not travel are not read. -/
theorem mapToGsup_wireView {r : MapMessage} {imsi : Str} {op : MapOperation}
    (hcomp : r.component = .returnResult ∨ r.component = .returnError)
    (hop : r.component = .returnResult → r.operation = op) :
    mapToGsup { wireView r with imsi := imsi, operation := op } =
      mapToGsup (inContext r imsi op) := by
  obtain ⟨tid, component, id, last, operation⟩ := r
  rcases hcomp with rfl | rfl
  · obtain rfl : operation = op := hop rfl
    cases operation <;> rfl
  · rfl

theorem effectiveOperation_wireView {p : Proxy} {r : MapMessage} {op : MapOperation}
    (hcomp : r.component = .returnResult ∨ r.component = .returnError)
    (hlookup : p.pendingOps.lookup r.transactionId = some op)
    (hop : r.component = .returnResult → r.operation = op) :
    effectiveOperation p (wireView r) = some op := by
  obtain ⟨tid, component, id, last, operation⟩ := r
  unfold effectiveOperation
  rcases hcomp with rfl | rfl
  · obtain rfl : operation = op := hop rfl
    cases operation <;> simp [wireView, wireHead, hlookup]
  · exact hlookup

theorem wireView_answer {r : MapMessage}
    (hcomp : r.component = .returnResult ∨ r.component = .returnError) :
    (wireView r).transactionId = r.transactionId ∧ (wireView r).component ≠ .invoke ∧
      (wireView r).imsi = [] := by
  obtain ⟨tid, component, id, last, operation⟩ := r
  rcases hcomp with rfl | rfl
  · cases operation <;> exact ⟨rfl, by simp [wireView, wireHead], rfl⟩
  · exact ⟨rfl, by simp [wireView], rfl⟩

/-- An answer of the HLR to a pending transaction reaches the client complete. -/
theorem answer_delivered {p : Proxy} (hp : p.Linked) {r : MapMessage} {b : Bytes}
    (hb : Map.encode r = .ok b) (hfields : ByteFieldsFit r) (hsmall : SmallAuthTuples r)
    (now : TimePoint) (hcomp : r.component = .returnResult ∨ r.component = .returnError)
    {tx : PendingTransaction} (htx : p.txMgr.find r.transactionId = some tx)
    (hlen : tx.imsi.length ≤ 15)
    (hop : r.component = .returnResult →
      p.pendingOps.lookup r.transactionId = some r.operation) :
    ∃ op g data p', p.pendingOps.lookup r.transactionId = some op ∧
      mapToGsup (inContext r tx.imsi op) = .ok g ∧
      p.step (.map b now) = .ok (p', [.sgsn data tx.clientContext]) ∧
      Gsup.decode data = .ok g := by
  obtain ⟨op, hlookup⟩ := Finmap.mem_iff.mp (hp.op _ (mem_of_lookup htx))
  have hop' : r.component = .returnResult → r.operation = op := by
    intro h
    have := (hop h).symm.trans hlookup
    exact Option.some.inj this
  have hinv : r.component ≠ .invoke := by
    rcases hcomp with h | h <;> rw [h] <;> simp
  obtain ⟨hvtid, hvinv, hvimsi⟩ := wireView_answer hcomp
  have hdec : Map.decode b = .ok (wireView r) := Map.decode_of_encode (fun h => absurd h hinv) hb
  have hshort : ShortImsi tx.imsi := ⟨hp.imsis _ tx htx, hlen⟩
  obtain ⟨g, data, hg, hdata, -⟩ := reply_encodes (m := inContext r tx.imsi op)
    (hp.ops _ op hlookup) hshort fun _ => ⟨fun _ => hfields.auth, fun _ => hfields.hlrNumber⟩
  have hreply : p.answerReply tx (wireView r) = some (.sgsn data tx.clientContext) := by
    rw [Proxy.answerReply, fillIn_eq (effectiveOperation_wireView hcomp hlookup hop')]
    rw [effectiveImsi, if_pos hvimsi, mapToGsup_wireView hcomp hop', hg, except_ok_bind, hdata]
  obtain ⟨hbodies, hfreeze⟩ := mapToGsup_small (m := inContext r tx.imsi op) hsmall hg
  refine ⟨op, g, data, p.forget r.transactionId, hlookup, hg, ?_, ?_⟩
  · simp only [Proxy.step, Proxy.handleMapPayload, hdec, if_neg hvinv, Proxy.handleMapAnswer_eq,
      hvtid, htx, hreply, Option.toList_some]
  · rw [Gsup.decode_of_encode hdata hbodies, ← hfreeze]

/-- An Invoke of the HLR is broadcast complete. -/
theorem invoke_broadcast (p : Proxy) {r : MapMessage} {b : Bytes} (hb : Map.encode r = .ok b)
    (hfields : ByteFieldsFit r) (now : TimePoint) (hcomp : r.component = .invoke)
    (hop : r.operation ∈ [.insertSubscriberData, .cancelLocation, .deleteSubscriberData,
      .purgeMS]) (himsi : ShortImsi r.imsi) :
    ∃ g data p', mapInvokeToGsup r = .ok g ∧ p.step (.map b now) = .ok (p', [.sgsn data 0]) ∧
      Gsup.decode data = .ok g := by
  have hdec : Map.decode b = .ok (wireView r) := Map.decode_of_encode (fun _ => himsi.1) hb
  -- the converter reads only fields that travel
  obtain ⟨g, hg, hview⟩ : ∃ g, mapInvokeToGsup r = .ok g ∧
      mapInvokeToGsup (wireView r) = .ok g ∧ (wireView r).component = .invoke := by
    obtain ⟨tid, component, id, last, operation⟩ := r
    obtain rfl : component = .invoke := hcomp
    simp only [List.mem_cons, List.not_mem_nil, or_false] at hop
    rcases hop with rfl | rfl | rfl | rfl <;> exact ⟨_, rfl, rfl, rfl⟩
  obtain ⟨hbodies, hfreeze⟩ := mapInvokeToGsup_small hg
  obtain ⟨data, hdata⟩ : ∃ data, Gsup.encode g = .ok data := by
    have himsi' : ShortImsi g.imsi := by rw [mapInvokeToGsup_imsi hg]; exact himsi
    unfold mapInvokeToGsup at hg
    rw [if_neg (not_not.mpr hcomp)] at hg
    cases hm : r.operation <;> rw [hm] at hg <;> cases hg
    case insertSubscriberData.refl =>
      exact encode_succeeds.mpr ⟨himsi', by simp, hfields.msisdn, by simp [Fits], by simp⟩
    all_goals
      exact encode_succeeds.mpr ⟨himsi', by simp, by simp [Fits], by simp [Fits], by simp⟩
  have hstep : p.step (.map b now) = .ok ({ p with
      hlrTx := p.hlrTx.insert (wireView r).imsi (Proxy.hlrEntry (wireView r) now) },
      [.sgsn data 0]) := by
    simp only [Proxy.step, Proxy.handleMapPayload, hdec, if_pos hview.2,
      Proxy.handleHlrInitiated_eq, hview.1, hdata]
  refine ⟨g, data, _, hg, hstep, ?_⟩
  rw [Gsup.decode_of_encode hdata hbodies, ← hfreeze]

/-- In every state a run reaches: an encoded answer to a pending transaction makes the proxy
send one GSUP message to the pending client, which decodes to the answer converted in the
context of the transaction; an encoded Invoke of the four operations makes it broadcast one
that decodes to the converted Invoke. Either way the fields arrive as they were sent: the vectors
complete and in order, the HLR number, the freeze flag, the cause, the MSISDN, the cancel type. -/
theorem map_to_gsup_fidelity {timeout : Int} {events : List ProxyEvent} {p : Proxy}
    (hrun : ProxyRun timeout events p) {r : MapMessage} {b : Bytes} (hb : Map.encode r = .ok b)
    (hfields : ByteFieldsFit r) (hsmall : SmallAuthTuples r) (now : TimePoint) :
    (∀ tx, r.component = .returnResult ∨ r.component = .returnError →
      p.txMgr.find r.transactionId = some tx → tx.imsi.length ≤ 15 →
      (r.component = .returnResult →
        p.pendingOps.lookup r.transactionId = some r.operation) →
      ∃ op g data p', p.pendingOps.lookup r.transactionId = some op ∧
        mapToGsup (inContext r tx.imsi op) = .ok g ∧
        p.step (.map b now) = .ok (p', [.sgsn data tx.clientContext]) ∧
        Gsup.decode data = .ok g ∧ AnswerFields r tx.imsi op g) ∧
    (r.component = .invoke →
      r.operation ∈ [.insertSubscriberData, .cancelLocation, .deleteSubscriberData, .purgeMS] →
      Digits r.imsi → r.imsi.length ≤ 15 →
      ∃ g data p', mapInvokeToGsup r = .ok g ∧ p.step (.map b now) = .ok (p', [.sgsn data 0]) ∧
        Gsup.decode data = .ok g ∧ InvokeFields r g) := by
  constructor
  · intro tx hcomp htx hlen hop
    obtain ⟨op, g, data, p', hlookup, hg, hstep, hdec⟩ :=
      answer_delivered hrun.linked hb hfields hsmall now hcomp htx hlen hop
    exact ⟨op, g, data, p', hlookup, hg, hstep, hdec, answerFields_of_mapToGsup hcomp hg⟩
  · intro hcomp hop hdigits hlen
    obtain ⟨g, data, p', hg, hstep, hdec⟩ :=
      invoke_broadcast p hb hfields now hcomp hop ⟨hdigits, hlen⟩
    exact ⟨g, data, p', hg, hstep, hdec, invokeFields_of_mapInvokeToGsup hg⟩

/-- A SendAuthInfoRequest for the IMSI "1". -/
def authRequest : Bytes := [0x08, 0x01, 0x01, 0xF1]

/-- The HLR's result with one triplet and one quintuplet. -/
def authResult : MapMessage :=
  { transactionId := 1, component := .returnResult, operation := .sendAuthenticationInfo
    authTriplets := [{ rand := [0xA0, 0xA1], sres := [0xB0], kc := [0xC0] }]
    authQuintuplets := [{ rand := [0x10, 0x11], xres := [0x20], ck := [0x30], ik := [0x40]
                          autn := [0x50] }] }

/-- Client 7 has asked for vectors, and gets both. -/
theorem authResult_delivered :
    ∃ events p p' b reply g, ProxyRun 30 events p ∧ Map.encode authResult = .ok b ∧
      p.step (.map b 5) = .ok (p', [.sgsn reply 7]) ∧ Gsup.decode reply = .ok g ∧
      g.authTuples =
        [{ rand := [0xA0, 0xA1], sres := [0xB0], kc := [0xC0] },
          { rand := [0x10, 0x11], sres := [], kc := [], ik := some [0x40], ck := some [0x30],
            autn := some [0x50], res := some [0x20] }] := by
  obtain ⟨p, outs, hstep, tx, htx, hclient, hlen, hop⟩ :
      ∃ p outs, (Proxy.start 30).step (.gsup authRequest 7 0) = .ok (p, outs) ∧
        ∃ tx, p.txMgr.find 1 = some tx ∧ tx.clientContext = 7 ∧ tx.imsi.length ≤ 15 ∧
          p.pendingOps.lookup 1 = some .sendAuthenticationInfo :=
    ⟨_, _, rfl, _, rfl, rfl, by decide, rfl⟩
  have hrun : ProxyRun 30 _ p := Run.snoc Run.nil (Op.gsup authRequest 7 0) trivial hstep
  obtain ⟨b, hb⟩ : ∃ b, Map.encode authResult = .ok b := ⟨_, rfl⟩
  have hfields : ByteFieldsFit authResult :=
    ⟨⟨by decide, by decide⟩, nofun, nofun, nofun, nofun⟩
  have hsmall : SmallAuthTuples authResult := by
    intro t ht body hbody
    rcases List.mem_pair.mp ht with rfl | rfl
    · cases hbody
      decide
    · cases hbody
      decide
  obtain ⟨op, g, reply, p', hlookup, -, hanswer, hdec, hanswered⟩ :=
    (map_to_gsup_fidelity hrun hb hfields hsmall 5).1 tx (.inl rfl) htx hlen fun _ => hop
  obtain rfl : op = .sendAuthenticationInfo := Option.some.inj (hlookup.symm.trans hop)
  rw [hclient] at hanswer
  exact ⟨_, p, p', b, reply, g, hrun, hb, hanswer, hdec, hanswered.vectors⟩

end GsupMapProxy
