import GsupMapProxy.Map.Proofs.RoundTrip
import GsupMapProxy.Proxy.Proofs.HlrAnswers

/-!
# Invokes of the HLR that are not forwarded

`handleHlrInitiated` stores an Invoke under its IMSI before it encodes the request for the SGSN,
and when that fails it erases the key. An Invoke that was waiting under this IMSI is overwritten
first and erased then.
-/

namespace GsupMapProxy

open Gsup Map Misc

/-- The operations `mapInvokeToGsup` has a request for. -/
def invokeOperations : List MapOperation :=
  [.insertSubscriberData, .cancelLocation, .deleteSubscriberData, .purgeMS]

theorem mapInvokeToGsup_succeeds {m : MapMessage} (hinv : m.component = .invoke) :
    (∃ g, mapInvokeToGsup m = .ok g) ↔ m.operation ∈ invokeOperations := by
  rw [mapInvokeToGsup, if_neg (not_not.mpr hinv)]
  cases m.operation <;> simp [invokeOperations, conversionError]

namespace Proxy

/-- The Invoke does not become a GSUP message: the converter or the encoder refuses it. -/
def NotForwarded (m : MapMessage) : Prop :=
  (∃ e, mapInvokeToGsup m = .error e) ∨ ∃ g e, mapInvokeToGsup m = .ok g ∧ Gsup.encode g = .error e

/-- The call sends nothing and leaves the three tables as they were. -/
def LeavesIntact (p : Proxy) (q : Bytes) (now : TimePoint) : Prop :=
  ∃ p', p.handleMapPayload q now = .ok (p', []) ∧ p'.hlrTx = p.hlrTx ∧
    p'.txMgr.transactions = p.txMgr.transactions ∧ p'.pendingOps = p.pendingOps

variable {p : Proxy} {q : Bytes} {m : MapMessage}

/-- What becomes of an Invoke that is not forwarded. -/
theorem handleMapPayload_notForwarded (hdec : Map.decode q = .ok m) (hinv : m.component = .invoke)
    (hnot : NotForwarded m) (now : TimePoint) :
    p.handleMapPayload q now = .ok (if m.operation ∈ invokeOperations then
      { p with hlrTx := p.hlrTx.erase m.imsi } else p, []) := by
  have hconverts := mapInvokeToGsup_succeeds hinv
  simp only [handleMapPayload, hdec, hinv, if_true, handleHlrInitiated_eq]
  rcases hnot with ⟨e, he⟩ | ⟨g, e, hg, he⟩
  · rw [if_neg (by rw [← hconverts, he]; simp), he]
  · rw [if_pos (hconverts.mp ⟨g, hg⟩), hg]
    dsimp only
    rw [he]

/-- An Invoke that is not forwarded leaves the earlier ones alone if and only if the converter is
what refuses it, or none is waiting under its IMSI. -/
theorem leaves_earlier_invokes_iff (hdec : Map.decode q = .ok m) (hinv : m.component = .invoke)
    (hnot : NotForwarded m) (now : TimePoint) :
    p.LeavesIntact q now ↔ (m.operation ∈ invokeOperations → m.imsi ∉ p.hlrTx) := by
  have hresult := handleMapPayload_notForwarded (p := p) hdec hinv hnot now
  constructor
  · rintro ⟨p', hp', hhlr, -, -⟩ hop hmem
    rw [hresult, if_pos hop] at hp'
    cases hp'
    exact erase_eq_self_iff.mp hhlr hmem
  · intro h
    refine ⟨_, hresult, ?_⟩
    by_cases hop : m.operation ∈ invokeOperations
    · rw [if_pos hop]
      exact ⟨erase_eq_self_iff.mpr (h hop), rfl, rfl⟩
    · rw [if_neg hop]
      exact ⟨rfl, rfl, rfl⟩

/-- An Invoke of SendAuthenticationInfo, which the HLR does not send to an SGSN. -/
theorem sendAuthInfo_invoke_ignored :
    (Proxy.start 30).LeavesIntact [0x62, 0x15, 0x48, 0x04, 0x00, 0x00, 0x00, 0x01, 0x6c, 0x0d,
      0xa1, 0x0b, 0x02, 0x01, 0x01, 0x02, 0x01, 0x38, 0x30, 0x03, 0x04, 0x01, 0x21] 0 := by
  have hdec : Map.decode [0x62, 0x15, 0x48, 0x04, 0x00, 0x00, 0x00, 0x01, 0x6c, 0x0d, 0xa1, 0x0b,
      0x02, 0x01, 0x01, 0x02, 0x01, 0x38, 0x30, 0x03, 0x04, 0x01, 0x21] =
      .ok { transactionId := 1, operation := .sendAuthenticationInfo, imsi := [0x31, 0x32] } := rfl
  apply (leaves_earlier_invokes_iff hdec rfl (.inl ⟨_, rfl⟩) 0).mpr
  intro hop
  exact absurd hop (by decide)

/-! ## The lost Invoke -/

/-- An InsertSubscriberData for the IMSI of `purgeInvoke`, with an MSISDN of 256 octets. -/
def longMsisdnInvoke : Bytes :=
  [0x62, 0x82, 0x01, 0x1f, 0x48, 0x04, 0x00, 0x00, 0x00, 0x02, 0x6c, 0x82, 0x01, 0x15, 0xa1, 0x82,
    0x01, 0x11, 0x02, 0x01, 0x01, 0x02, 0x01, 0x07, 0x30, 0x82, 0x01, 0x07, 0x04, 0x01, 0xF1, 0x04,
    0x82, 0x01, 0x00] ++ List.replicate 256 0x21

def longMsisdnRequest : MapMessage where
  transactionId := 2
  operation := .insertSubscriberData
  imsi := [0x31]
  msisdn := some (List.replicate 256 0x21)

theorem decode_longMsisdnInvoke : Map.decode longMsisdnInvoke = .ok longMsisdnRequest := by
  have hencode : Map.encode longMsisdnRequest = .ok longMsisdnInvoke := by decide +kernel
  have hview : wireView longMsisdnRequest = longMsisdnRequest := rfl
  rw [← hview]
  exact Map.decode_of_encode (fun _ => by decide +kernel) hencode

/-- The InsertSubscriberData is not forwarded, and the PurgeMS is forgotten. -/
theorem purge_forgotten :
    (Proxy.start 30).handleMapPayload purgeInvoke 0 =
        .ok (purgeInvoked, [.sgsn [0x0c, 0x01, 0x01, 0xF1] 0]) ∧
      Map.decode longMsisdnInvoke = .ok longMsisdnRequest ∧ NotForwarded longMsisdnRequest ∧
      ¬ purgeInvoked.LeavesIntact longMsisdnInvoke 0 := by
  have hnot : NotForwarded longMsisdnRequest := by
    obtain ⟨g, hg⟩ := (mapInvokeToGsup_succeeds (m := longMsisdnRequest) rfl).mpr (by decide)
    cases hencode : Gsup.encode g with
    | error e => exact .inr ⟨g, e, hg, hencode⟩
    | ok data =>
      cases hg
      have hlen := (encode_succeeds.mp ⟨data, hencode⟩).msisdn _ rfl
      rw [List.length_replicate] at hlen
      exact absurd hlen (by decide)
  refine ⟨rfl, decode_longMsisdnInvoke, hnot, ?_⟩
  rintro ⟨p', hp', hhlr, -, -⟩
  rw [handleMapPayload_notForwarded decode_longMsisdnInvoke rfl hnot, if_pos (by decide)] at hp'
  cases hp'
  have hwaiting : longMsisdnRequest.imsi ∈ purgeInvoked.hlrTx := Finmap.mem_insert.mpr (.inl rfl)
  exact erase_eq_self_iff.mp hhlr hwaiting

end Proxy

end GsupMapProxy
