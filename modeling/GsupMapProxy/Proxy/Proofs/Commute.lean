import GsupMapProxy.Proxy.Proofs.HlrAnswers

/-!
# Calls that commute

The proxy's state is a family of cells: one for each transaction id, one for each IMSI, and the
counters. A message of the HLR and an SGSN's answer to an Invoke each touch the cell of their
transaction id or of their IMSI, so two of them on different cells can arrive in either order.
-/

namespace GsupMapProxy

open Gsup Map Misc

/-- A part of the proxy's state. -/
inductive Cell where
  | counters
  | transaction (tid : UInt32)
  | invoke (imsi : Str)

/-- What a cell holds: a transaction with its operation, or the entry of an Invoke. -/
def Cell.Content : Cell → Type
  | .counters => UInt32 × UInt8 × Int
  | .transaction _ => Option PendingTransaction × Option MapOperation
  | .invoke _ => Option HlrTxEntry

namespace Proxy

def content (p : Proxy) : (c : Cell) → c.Content
  | .counters => (p.txMgr.tidCounter, p.txMgr.invokeIdCounter, p.txMgr.timeout)
  | .transaction tid => (p.txMgr.find tid, p.pendingOps.lookup tid)
  | .invoke imsi => p.hlrTx.lookup imsi

theorem content_transaction_eq_iff {p p' : Proxy} {tid : UInt32} :
    p.content (.transaction tid) = p'.content (.transaction tid) ↔
      p.txMgr.find tid = p'.txMgr.find tid ∧ p.pendingOps.lookup tid = p'.pendingOps.lookup tid :=
  Prod.mk.injEq .. ▸ Iff.rfl

theorem content_invoke_eq_iff {p p' : Proxy} {imsi : Str} :
    p.content (.invoke imsi) = p'.content (.invoke imsi) ↔
      p.hlrTx.lookup imsi = p'.hlrTx.lookup imsi :=
  Iff.rfl

/-- The cells make up the state. -/
theorem eq_of_content (p p' : Proxy) (h : ∀ c, p.content c = p'.content c) : p = p' := by
  obtain ⟨htid, hrest⟩ := Prod.mk.inj (h .counters)
  obtain ⟨hinvoke, htimeout⟩ := Prod.mk.inj hrest
  have htransactions : p.txMgr.transactions = p'.txMgr.transactions :=
    Finmap.ext_lookup fun tid => (content_transaction_eq_iff.mp (h (.transaction tid))).1
  have hops : p.pendingOps = p'.pendingOps :=
    Finmap.ext_lookup fun tid => (content_transaction_eq_iff.mp (h (.transaction tid))).2
  have hhlr : p.hlrTx = p'.hlrTx := Finmap.ext_lookup fun imsi => h (.invoke imsi)
  obtain ⟨⟨tid, id, timeout, transactions⟩, hlrTx, ops⟩ := p
  obtain ⟨⟨tid', id', timeout', transactions'⟩, hlrTx', ops'⟩ := p'
  cases htid
  cases hinvoke
  cases htimeout
  cases htransactions
  cases hops
  cases hhlr
  rfl

/-! ## Answers of the HLR -/

/-- What an answer of the HLR does. -/
def onAnswer (m : MapMessage) (p : Proxy) : Proxy × List Send :=
  match p.txMgr.find m.transactionId with
  | none => (p, [])
  | some pending => (p.forget m.transactionId, (p.answerReply pending m).toList)

theorem handleMapAnswer_eq_onAnswer (p : Proxy) (m : MapMessage) :
    p.handleMapAnswer m = .ok (onAnswer m p) := by
  rw [handleMapAnswer_eq, onAnswer]
  cases p.txMgr.find m.transactionId <;> rfl

/-- Of the pending operations, a reply is made with that of its own transaction. -/
theorem answerReply_congr {p p' : Proxy} {m : MapMessage}
    (h : p.pendingOps.lookup m.transactionId = p'.pendingOps.lookup m.transactionId)
    (pending : PendingTransaction) : p.answerReply pending m = p'.answerReply pending m := by
  have hfill : p.fillIn pending m = p'.fillIn pending m := by
    unfold fillIn
    by_cases himsi : m.imsi = []
    · rw [if_pos himsi]
      dsimp only
      rw [h]
    · rw [if_neg himsi]
      dsimp only
      rw [h]
  rw [answerReply, answerReply, hfill]

theorem onAnswer_local (m : MapMessage) :
    Local content (.transaction m.transactionId) (onAnswer m) where
  emits := by
    intro p p' h
    obtain ⟨hfind, hop⟩ := content_transaction_eq_iff.mp h
    rw [onAnswer, onAnswer, hfind]
    cases p'.txMgr.find m.transactionId with
    | none => rfl
    | some pending =>
      dsimp only
      rw [answerReply_congr hop]
  changes := by
    intro p p' h
    obtain ⟨hfind, hop⟩ := content_transaction_eq_iff.mp h
    rw [onAnswer, onAnswer, hfind]
    cases p'.txMgr.find m.transactionId with
    | none => exact h
    | some pending =>
      apply content_transaction_eq_iff.mpr
      simp [forget]
  leaves := by
    intro p c hne
    rw [onAnswer]
    cases p.txMgr.find m.transactionId with
    | none => rfl
    | some pending =>
      cases c with
      | counters => rfl
      | invoke imsi => rfl
      | transaction tid =>
        have htid : tid ≠ m.transactionId := fun heq => hne (by rw [heq])
        apply content_transaction_eq_iff.mpr
        simp [forget, htid]

/-! ## Invokes of the HLR and the answers to them -/

/-- What an Invoke of the HLR does. -/
def onInvoke (m : MapMessage) (now : TimePoint) (p : Proxy) : Proxy × List Send :=
  match mapInvokeToGsup m with
  | .error _ => (p, [])
  | .ok gsupMsg =>
      match Gsup.encode gsupMsg with
      | .error _ => ({ p with hlrTx := p.hlrTx.erase m.imsi }, [])
      | .ok gsupData =>
          ({ p with hlrTx := p.hlrTx.insert m.imsi (hlrEntry m now) }, [.sgsn gsupData 0])

theorem handleHlrInitiated_eq_onInvoke (p : Proxy) (m : MapMessage) (now : TimePoint) :
    p.handleHlrInitiated m now = .ok (onInvoke m now p) := by
  rw [handleHlrInitiated_eq, onInvoke]
  cases mapInvokeToGsup m with
  | error e => rfl
  | ok g =>
    dsimp only
    cases Gsup.encode g <;> rfl

/-- What an SGSN's answer to an Invoke does. -/
def onResponse (g : GsupMessage) (p : Proxy) : Proxy × List Send :=
  match p.hlrTx.lookup g.imsi with
  | none => (p, [])
  | some entry => ({ p with hlrTx := p.hlrTx.erase g.imsi }, (hlrReply entry g).toList)

theorem handleGsupHlrResponse_eq_onResponse (p : Proxy) (g : GsupMessage) :
    p.handleGsupHlrResponse g = .ok (onResponse g p) := by
  rw [handleGsupHlrResponse_eq, onResponse]
  cases p.hlrTx.lookup g.imsi <;> rfl

/-- A change of the entries under one IMSI leaves the other cells alone. -/
theorem content_of_hlrTx {p : Proxy} {hlrTx : HlrTransactions} {imsi : Str}
    (h : ∀ imsi', imsi' ≠ imsi → hlrTx.lookup imsi' = p.hlrTx.lookup imsi') {c : Cell}
    (hne : c ≠ .invoke imsi) : { p with hlrTx := hlrTx }.content c = p.content c := by
  cases c with
  | counters => rfl
  | transaction tid => rfl
  | invoke imsi' => exact h imsi' fun heq => hne (by rw [heq])

theorem onInvoke_local (m : MapMessage) (now : TimePoint) :
    Local content (.invoke m.imsi) (onInvoke m now) where
  emits := by
    intro p p' h
    simp only [onInvoke]
    cases mapInvokeToGsup m with
    | error e => rfl
    | ok g =>
      dsimp only
      cases Gsup.encode g <;> rfl
  changes := by
    intro p p' h
    simp only [onInvoke]
    cases mapInvokeToGsup m with
    | error e => exact h
    | ok g =>
      dsimp only
      cases Gsup.encode g with
      | error e =>
        apply content_invoke_eq_iff.mpr
        rw [Finmap.lookup_erase, Finmap.lookup_erase]
      | ok data =>
        apply content_invoke_eq_iff.mpr
        rw [Finmap.lookup_insert, Finmap.lookup_insert]
  leaves := by
    intro p c hne
    simp only [onInvoke]
    cases mapInvokeToGsup m with
    | error e => rfl
    | ok g =>
      dsimp only
      cases Gsup.encode g with
      | error e => exact content_of_hlrTx (fun imsi' h => Finmap.lookup_erase_ne h) hne
      | ok data => exact content_of_hlrTx (fun imsi' h => Finmap.lookup_insert_of_ne _ h) hne

theorem onResponse_local (g : GsupMessage) : Local content (.invoke g.imsi) (onResponse g) where
  emits := by
    intro p p' h
    rw [onResponse, onResponse, content_invoke_eq_iff.mp h]
    cases p'.hlrTx.lookup g.imsi <;> rfl
  changes := by
    intro p p' h
    rw [onResponse, onResponse, content_invoke_eq_iff.mp h]
    cases p'.hlrTx.lookup g.imsi with
    | none => exact h
    | some entry =>
      apply content_invoke_eq_iff.mpr
      rw [Finmap.lookup_erase, Finmap.lookup_erase]
  leaves := by
    intro p c hne
    rw [onResponse]
    cases p.hlrTx.lookup g.imsi with
    | none => rfl
    | some entry => exact content_of_hlrTx (fun imsi' h => Finmap.lookup_erase_ne h) hne

/-! ## Calls on different cells -/

/-- The call returns and touches one cell of the state only. -/
def ActsOn (op : Op) (c : Cell) : Prop :=
  ∃ f, (∀ p : Proxy, p.step op = .ok (f p)) ∧ Local content c f

theorem actsOn_answer {q : Bytes} {m : MapMessage} (hdec : Map.decode q = .ok m)
    (h : m.component ≠ .invoke) (now : TimePoint) :
    ActsOn (.map q now) (.transaction m.transactionId) := by
  refine ⟨onAnswer m, ?_, onAnswer_local m⟩
  intro p
  simp only [step, handleMapPayload, hdec, if_neg h]
  exact handleMapAnswer_eq_onAnswer p m

theorem actsOn_invoke {q : Bytes} {m : MapMessage} (hdec : Map.decode q = .ok m)
    (h : m.component = .invoke) (now : TimePoint) : ActsOn (.map q now) (.invoke m.imsi) := by
  refine ⟨onInvoke m now, ?_, onInvoke_local m now⟩
  intro p
  simp only [step, handleMapPayload, hdec, if_pos h]
  exact handleHlrInitiated_eq_onInvoke p m now

theorem actsOn_response {payload : Bytes} {g : GsupMessage} (hdec : Gsup.decode payload = .ok g)
    (h : isHlrInitiatedGsupType g.type = true) (client : ClientId) (now : TimePoint) :
    ActsOn (.gsup payload client now) (.invoke g.imsi) := by
  refine ⟨onResponse g, ?_, onResponse_local g⟩
  intro p
  simp only [step, handleGsupPayload, hdec, h, if_true]
  exact handleGsupHlrResponse_eq_onResponse p g

/-- Both orders of the two calls return, with the same state in the end, and each call sends the
same messages in both of them. -/
def CallsCommute (p : Proxy) (a b : Op) : Prop :=
  ∃ pa pb p' sentA sentB,
    p.step a = .ok (pa, sentA) ∧ pa.step b = .ok (p', sentB) ∧
    p.step b = .ok (pb, sentB) ∧ pb.step a = .ok (p', sentA)

theorem callsCommute_of_actsOn {a b : Op} {c d : Cell} (ha : ActsOn a c) (hb : ActsOn b d)
    (hne : c ≠ d) (p : Proxy) : CallsCommute p a b := by
  obtain ⟨f, hf, hfloc⟩ := ha
  obtain ⟨g, hg, hgloc⟩ := hb
  have hstate := hfloc.swap hgloc hne eq_of_content p
  have hsentA := hfloc.emits_after hgloc hne p
  have hsentB := hgloc.emits_after hfloc hne.symm p
  refine ⟨(f p).1, (g p).1, (g (f p).1).1, (f p).2, (g p).2, hf p, ?_, hg p, ?_⟩
  · rw [hg, ← hsentB]
  · rw [hf, ← hstate, ← hsentA]

/-- Messages of the HLR that are not both answers to one transaction and not both Invokes for one
IMSI can arrive in either order, and so can an answer of the HLR and an SGSN's answer to an
Invoke, and SGSN answers for different IMSIs. -/
theorem independent_messages_commute (p : Proxy) (now : TimePoint) :
    (∀ q₁ q₂ m₁ m₂, Map.decode q₁ = .ok m₁ → Map.decode q₂ = .ok m₂ →
      ¬ (m₁.component ≠ .invoke ∧ m₂.component ≠ .invoke ∧
        m₁.transactionId = m₂.transactionId) →
      ¬ (m₁.component = .invoke ∧ m₂.component = .invoke ∧ m₁.imsi = m₂.imsi) →
      CallsCommute p (.map q₁ now) (.map q₂ now)) ∧
    (∀ q m payload g client, Map.decode q = .ok m → m.component ≠ .invoke →
      Gsup.decode payload = .ok g → isHlrInitiatedGsupType g.type = true →
      CallsCommute p (.map q now) (.gsup payload client now)) ∧
    (∀ payload₁ payload₂ g₁ g₂ client₁ client₂, Gsup.decode payload₁ = .ok g₁ →
      Gsup.decode payload₂ = .ok g₂ → isHlrInitiatedGsupType g₁.type = true →
      isHlrInitiatedGsupType g₂.type = true → g₁.imsi ≠ g₂.imsi →
      CallsCommute p (.gsup payload₁ client₁ now) (.gsup payload₂ client₂ now)) := by
  refine ⟨?_, ?_, ?_⟩
  · intro q₁ q₂ m₁ m₂ hdec₁ hdec₂ hanswers hinvokes
    by_cases h₁ : m₁.component = .invoke
    · have hact₁ := actsOn_invoke hdec₁ h₁ now
      by_cases h₂ : m₂.component = .invoke
      · have himsi : m₁.imsi ≠ m₂.imsi := fun heq => hinvokes ⟨h₁, h₂, heq⟩
        exact callsCommute_of_actsOn hact₁ (actsOn_invoke hdec₂ h₂ now) (by simpa using himsi) p
      · exact callsCommute_of_actsOn hact₁ (actsOn_answer hdec₂ h₂ now) (by simp) p
    · have hact₁ := actsOn_answer hdec₁ h₁ now
      by_cases h₂ : m₂.component = .invoke
      · exact callsCommute_of_actsOn hact₁ (actsOn_invoke hdec₂ h₂ now) (by simp) p
      · have htid : m₁.transactionId ≠ m₂.transactionId := fun heq => hanswers ⟨h₁, h₂, heq⟩
        exact callsCommute_of_actsOn hact₁ (actsOn_answer hdec₂ h₂ now) (by simpa using htid) p
  · intro q m payload g client hdec h hdec' h'
    exact callsCommute_of_actsOn (actsOn_answer hdec h now) (actsOn_response hdec' h' client now)
      (by simp) p
  · intro payload₁ payload₂ g₁ g₂ client₁ client₂ hdec₁ hdec₂ h₁ h₂ himsi
    exact callsCommute_of_actsOn (actsOn_response hdec₁ h₁ client₁ now)
      (actsOn_response hdec₂ h₂ client₂ now) (by simpa using himsi) p

/-- An SGSN's PurgeMsResult for the IMSI "2". -/
def purgeResultOther : Bytes := [0x0e, 0x01, 0x01, 0xF2]

theorem purge_messages_commute :
    CallsCommute purgePending (.map purgeAnswer 0) (.map purgeInvoke 0) ∧
    CallsCommute purgeInvoked (.map purgeAnswer 0) (.gsup purgeResultPlain 7 0) ∧
    CallsCommute purgeInvoked (.gsup purgeResultPlain 7 0) (.gsup purgeResultOther 8 0) := by
  obtain ⟨m, hm, hanswer⟩ : ∃ m, Map.decode purgeAnswer = .ok m ∧ m.component ≠ .invoke :=
    ⟨_, rfl, by decide⟩
  obtain ⟨m', hm', hinvoke⟩ : ∃ m, Map.decode purgeInvoke = .ok m ∧ m.component = .invoke :=
    ⟨_, rfl, rfl⟩
  refine ⟨?_, ?_, ?_⟩
  · exact (independent_messages_commute purgePending 0).1 purgeAnswer purgeInvoke m m' hm hm'
      (fun h => h.2.1 hinvoke) (fun h => hanswer h.1)
  · exact (independent_messages_commute purgeInvoked 0).2.1 purgeAnswer m purgeResultPlain _ 7 hm
      hanswer rfl rfl
  · exact (independent_messages_commute purgeInvoked 0).2.2 purgeResultPlain purgeResultOther _ _
      7 8 rfl rfl rfl rfl (by decide)

end Proxy

end GsupMapProxy
