import GsupMapProxy.Transport.MapTransport
import GsupMapProxy.Transport.Proofs.M3uaFraming
import GsupMapProxy.Transport.Proofs.SessionEffects
import GsupMapProxy.Transport.Proofs.UdtBounds

/-!
# When a read completion returns

The `next` of either decoder is called outside of any `try` block, so its exceptions leave the
handler. What the handlers do with a frame never throws; the HLR side can only run into the
undefined reads of `decodeUdt`.
-/

namespace GsupMapProxy.Transport

open Misc

/-! ## SGSN side -/

namespace IpaSession

open Ipa

theorem processFrame_ok (s : IpaSession) (frame : IpaFrame) :
    ∃ result, s.processFrame frame = .ok result := by
  by_cases hresp : frame.isCcm kCcmIdResp = true
  · exact ⟨_, s.processFrame_idResp hresp⟩
  · by_cases hping : frame.isCcm kCcmPing = true
    · exact ⟨_, s.processFrame_ping hping⟩
    · exact ⟨_, s.processFrame_other hresp hping⟩

theorem readTurn_ok_iff (acc : IpaSession × List SessionCall) (frame : IpaFrame) :
    (∃ acc', readTurn acc frame = .ok acc') ↔ True := by
  obtain ⟨⟨s, calls⟩, hframe⟩ := acc.1.processFrame_ok frame
  rw [readTurn, hframe]
  exact ⟨fun _ => trivial, fun _ => ⟨_, rfl⟩⟩

/-- A session's read handler returns exactly when its buffer and the bytes read make a sequence
of frames. -/
theorem onRead_ok_iff (s : IpaSession) (chunk : Bytes) :
    (∃ result, s.onRead (some chunk) = .ok result) ↔ WellFramed (s.decoder ++ chunk) := by
  have hpump := pump_ok_iff Fault.thrown next_shrinking readTurn_ok_iff (s, [])
    (s.decoder ++ chunk)
  simp only [implies_true, and_true, ← wellFramed_iff] at hpump
  rw [← hpump]
  exact except_bind_ok_iff

end IpaSession

/-! ## HLR side -/

namespace MapTransport

open M3ua Sccp

/-- The message can be dispatched: if it is SCCP data, its UDT has its addresses inside. -/
def Dispatchable (msg : M3uaMessage) : Prop :=
  msg.msgClass = kClassTransf → msg.msgType = kTypeData →
    ∀ pd, msg.protocolData = some pd → pd.si = kSiSccp → AddressesInside pd.userData

/-- What `processMessage` can do: all it can run into is a UDT with an address that does not end
inside. -/
theorem processMessage_cases (t : MapTransport) (msg : M3uaMessage) :
    (∃ result, t.processMessage msg = .ok result) ∧ Dispatchable msg ∨
      (∃ what, t.processMessage msg = .error (.undefined what)) ∧ ¬ Dispatchable msg := by
  by_cases hdata : msg.msgClass = kClassTransf ∧ msg.msgType = kTypeData
  · obtain ⟨hclass, htype⟩ := hdata
    have hne : kClassTransf ≠ kClassAspsm ∧ kClassTransf ≠ kClassAsptm := by decide
    rw [processMessage, hclass, htype, if_neg (fun h => hne.1 h.1), if_neg (fun h => hne.2 h.1),
      if_neg (fun h => hne.1 h.1), if_neg (fun h => hne.1 h.1), if_pos ⟨rfl, rfl⟩]
    cases hpd : msg.protocolData with
    | none => exact .inl ⟨⟨_, rfl⟩, fun _ _ pd h => by rw [hpd] at h; cases h⟩
    | some pd =>
      dsimp only
      by_cases hsi : pd.si = kSiSccp
      · have hiff : Dispatchable msg ↔ Defined (decodeUdt pd.userData) := by
          rw [decodeUdt_defined_iff]
          constructor
          · intro h
            exact h hclass htype pd hpd hsi
          · intro h _ _ pd' hpd' _
            rw [hpd] at hpd'
            cases hpd'
            exact h
        rw [if_neg (not_not.mpr hsi), hiff]
        cases hudt : decodeUdt pd.userData with
        | ok udt => exact .inl ⟨⟨_, rfl⟩, defined_ok _⟩
        | error f =>
          cases f with
          | thrown e => exact .inl ⟨⟨_, rfl⟩, defined_thrown _⟩
          | undefined what => exact .inr ⟨⟨what, rfl⟩, fun h => h what rfl⟩
      · rw [if_pos hsi]
        refine .inl ⟨⟨_, rfl⟩, fun _ _ pd' h hsi' => ?_⟩
        rw [hpd] at h
        cases h
        exact absurd hsi' hsi
  · refine .inl ⟨?_, fun hclass htype => absurd ⟨hclass, htype⟩ hdata⟩
    unfold processMessage
    rw [if_neg hdata]
    split
    · exact ⟨_, rfl⟩
    split
    · exact ⟨_, rfl⟩
    split
    · exact ⟨_, rfl⟩
    split
    · exact ⟨_, rfl⟩
    · exact ⟨_, rfl⟩

theorem readTurn_ok_iff (acc : MapTransport × List MapCall) (msg : M3uaMessage) :
    (∃ acc', readTurn acc msg = .ok acc') ↔ Dispatchable msg := by
  unfold readTurn
  rcases acc.1.processMessage_cases msg with ⟨⟨⟨t, calls⟩, hok⟩, hmsg⟩ | ⟨⟨what, herr⟩, hmsg⟩
  · rw [hok]
    exact ⟨fun _ => hmsg, fun _ => ⟨_, rfl⟩⟩
  · rw [herr]
    constructor
    · rintro ⟨acc', h⟩
      cases h
    · intro h
      exact absurd h hmsg

/-- The HLR transport's read handler returns exactly when its buffer and the bytes read make a
sequence of messages that can be dispatched. -/
theorem onRead_ok_iff (t : MapTransport) (chunk : Bytes) :
    (∃ result, t.onRead (some chunk) = .ok result) ↔
      WellFramed Dispatchable (t.decoder ++ chunk) := by
  rw [wellFramed_iff, ← pump_ok_iff Fault.thrown next_shrinking readTurn_ok_iff (t, [])]
  exact except_bind_ok_iff

end MapTransport

end GsupMapProxy.Transport
