import GsupMapProxy.Misc.Parallel
import GsupMapProxy.Proxy.Proofs.Fidelity

/-!
# The two halves of the proxy

Requests of the SGSNs live in `transactions_` and `pendingOps_`, Invokes of the HLR in `hlrTx_`.
Which of the two a payload is about shows in the payload alone: an SGSN's answer to an Invoke and
an Invoke go to the one half, everything else to the other. Neither half ever looks at the other,
so the proxy is the two of them side by side.
-/

namespace GsupMapProxy

open Gsup Map Misc

/-- The call is about requests of the SGSNs. Payloads that do not decode are counted here. -/
def Op.sgsnSide : Op → Bool
  | .gsup payload _ _ =>
      match Gsup.decode payload with
      | .ok g => !isHlrInitiatedGsupType g.type
      | .error _ => true
  | .map payload _ =>
      match Map.decode payload with
      | .ok m => m.component ≠ .invoke
      | .error _ => true
  | .nack _ => true
  | .expireSgsn _ _ => true
  | .expireHlr _ _ _ => false

/-- The requests of `a` and the Invokes of `b`. -/
def Proxy.beside (a b : Proxy) : Proxy :=
  { txMgr := a.txMgr, hlrTx := b.hlrTx, pendingOps := a.pendingOps }

namespace Proxy

variable {a b : Proxy} {payload : Bytes} {client : ClientId} {now : TimePoint}

/-! ## Requests of the SGSNs -/

theorem nackLoop_beside (a b : Proxy) (order : List UInt32) : ∀ (sent : List Send),
    nackLoop order (a.beside b) sent =
      ((nackLoop order a sent).1.beside b, (nackLoop order a sent).2) := by
  induction order generalizing a with
  | nil => intro sent; rfl
  | cons tid order ih =>
    intro sent
    have hops : (a.beside b).pendingOps = a.pendingOps := rfl
    have hmgr : (a.beside b).txMgr = a.txMgr := rfl
    rw [nackLoop, nackLoop, hops, hmgr]
    split
    · exact ih { a with txMgr := a.txMgr.complete tid } _
    · exact ih a sent

theorem handleMapAnswer_beside (m : MapMessage) :
    (a.beside b).handleMapAnswer m = (a.handleMapAnswer m).map fun r => (r.1.beside b, r.2) := by
  have hreply : ∀ pending, (a.beside b).answerReply pending m = a.answerReply pending m :=
    fun _ => rfl
  have hfind : (a.beside b).txMgr.find m.transactionId = a.txMgr.find m.transactionId := rfl
  rw [handleMapAnswer_eq, handleMapAnswer_eq, hfind]
  split
  · rfl
  · rw [hreply]
    rfl

theorem handleGsupPayload_request_beside {g : GsupMessage} (hdec : Gsup.decode payload = .ok g)
    (hreq : isHlrInitiatedGsupType g.type = false) :
    (a.beside b).handleGsupPayload payload client now =
      (a.handleGsupPayload payload client now).map fun r => (r.1.beside b, r.2) := by
  have hmgr : (a.beside b).txMgr = a.txMgr := rfl
  simp only [handleGsupPayload, hdec, hreq, Bool.false_eq_true, if_false, hmgr]
  split
  · rfl
  · split
    · rfl
    · rfl
    · split <;> rfl

theorem step_beside_left (a b : Proxy) (op : Op) (hside : op.sgsnSide = true) :
    (a.beside b).step op = (a.step op).map fun r => (r.1.beside b, r.2) := by
  cases op with
  | gsup payload client now =>
    simp only [step]
    cases hdec : Gsup.decode payload with
    | error e =>
      simp only [handleGsupPayload, hdec]
      rfl
    | ok g =>
      simp only [Op.sgsnSide, hdec, Bool.not_eq_true'] at hside
      exact handleGsupPayload_request_beside hdec hside
  | map payload now =>
    simp only [step, handleMapPayload]
    cases hdec : Map.decode payload with
    | error e => rfl
    | ok m =>
      have hnot : m.component ≠ .invoke := by simpa [Op.sgsnSide, hdec] using hside
      dsimp only
      rw [if_neg hnot, if_neg hnot]
      exact handleMapAnswer_beside m
  | nack order =>
    simp only [step, nackAllPendingTransactions, nackLoop_beside]
    rfl
  | expireSgsn order now => rfl
  | expireHlr order timeout now => cases hside

/-! ## Invokes of the HLR -/

theorem step_beside_right (a b : Proxy) (op : Op) (hside : op.sgsnSide = false) :
    (a.beside b).step op = (b.step op).map fun r => (a.beside r.1, r.2) := by
  cases op with
  | gsup payload client now =>
    cases hdec : Gsup.decode payload with
    | error e =>
      simp only [Op.sgsnSide, hdec] at hside
      cases hside
    | ok g =>
      simp only [Op.sgsnSide, hdec, Bool.not_eq_false'] at hside
      have hlookup : (a.beside b).hlrTx = b.hlrTx := rfl
      simp only [step, handleGsupPayload, hdec, hside, if_true, handleGsupHlrResponse_eq, hlookup]
      split <;> rfl
  | map payload now =>
    cases hdec : Map.decode payload with
    | error e =>
      simp only [Op.sgsnSide, hdec] at hside
      cases hside
    | ok m =>
      have hinv : m.component = .invoke := by simpa [Op.sgsnSide, hdec] using hside
      simp only [step, handleMapPayload, hdec, hinv, if_true, handleHlrInitiated_eq]
      split
      · rfl
      · split <;> rfl
  | expireHlr order timeout now => rfl
  | nack order => cases hside
  | expireSgsn order now => cases hside

theorem halves (timeout : Int) :
    Halves step (fun p op => op.Possible p) (start timeout) Op.sgsnSide beside where
  start := rfl
  stepLeft := step_beside_left
  stepRight := step_beside_right
  possibleLeft := by
    intro a b op hside
    cases op with
    | gsup _ _ _ | map _ _ | nack _ | expireSgsn _ _ => exact Iff.rfl
    | expireHlr _ _ _ => cases hside
  possibleRight := by
    intro a b op hside
    cases op with
    | gsup _ _ _ | map _ _ | expireHlr _ _ _ => exact Iff.rfl
    | nack _ | expireSgsn _ _ => cases hside

end Proxy

/-- The runs of the proxy are the interleavings of a run with calls about requests of the SGSNs
only and a run with calls about Invokes of the HLR only. In particular, what the one half sends
and keeps is the same whatever happens to the other, and every interleaving is possible. -/
theorem halves_run_apart (timeout : Int) (outside : List (Op × List Send)) (s : Proxy) :
    (∃ events, ProxyRun timeout events s ∧ trace events = outside) ↔
      ∃ own own' a b, ProxyRun timeout own a ∧ ProxyRun timeout own' b ∧ s = a.beside b ∧
        trace own = outside.filter (fun x => x.1.sgsnSide) ∧
        trace own' = outside.filter (fun x => !x.1.sgsnSide) := by
  constructor
  · rintro ⟨events, hrun, rfl⟩
    exact Run.split (Proxy.halves timeout) hrun
  · rintro ⟨own, own', a, b, hown, hown', rfl, htrace, htrace'⟩
    exact Run.merge (Proxy.halves timeout) outside hown hown' htrace htrace'

end GsupMapProxy
