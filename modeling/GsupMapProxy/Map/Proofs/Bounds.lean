import GsupMapProxy.Map.Proofs.RoundTrip

/-!
# What the MAP decoder yields and when the encoder succeeds
-/

namespace GsupMapProxy.Map

open Misc Ber

/-! ## Decoded messages -/

section Invariant

variable {σ : Type} {f : σ → UInt8 → Bytes → Except Exn σ} {P : σ → Prop}

/-- What the body of a loop over TLVs keeps true, the loop keeps true. -/
theorem drain_tlvTurn_invariant (hf : ∀ s t val s', P s → f s t val = .ok s' → P s') {s s' : σ}
    {bs : Bytes} (hs : P s) (h : drain (tlvTurn f) s bs = .ok s') : P s' := by
  refine drain_invariant (tlvTurn_consuming f) P ?_ bs.length bs s s' (Nat.le_refl _) hs h
  intro s xs s' rest hs hturn
  simp only [tlvTurn, except_bind_eq_ok] at hturn
  obtain ⟨⟨⟨t, val⟩, r⟩, -, s'', hs'', h⟩ := hturn
  cases h
  exact hf s t val _ hs hs''

theorem decodeSequence_invariant (hf : ∀ s t val s', P s → f s t val = .ok s' → P s') {s s' : σ}
    {r : BufferReader} (hs : P s) (h : decodeSequence f s r = .ok s') : P s' := by
  unfold decodeSequence at h
  split at h
  · cases h
    exact hs
  · rw [except_bind_eq_ok] at h
    obtain ⟨⟨⟨_, seqVal⟩, _⟩, -, h⟩ := h
    exact drain_tlvTurn_invariant hf hs h

/-- The same for the decoders that carry the `firstOctet` flag. -/
theorem decodeSequence_fst_invariant {P : MapMessage → Prop}
    {f : MapMessage × Bool → UInt8 → Bytes → Except Exn (MapMessage × Bool)}
    (hf : ∀ s t val s', P s.1 → f s t val = .ok s' → P s'.1) {m m' : MapMessage}
    {r : BufferReader} (hm : P m)
    (h : (decodeSequence f (m, true) r >>= fun s => .ok s.1) = .ok m') : P m' := by
  rw [except_bind_eq_ok] at h
  obtain ⟨s, hs, h⟩ := h
  cases h
  exact decodeSequence_invariant (P := fun s => P s.1) hf hm hs

end Invariant

/-- The properties of a message that no argument decoder can break: they survive every update
one of them makes. -/
structure ArgsClosed (P : MapMessage → Prop) : Prop where
  imsi : ∀ m s, P m → Digits s → P { m with imsi := s }
  numVectors : ∀ m n, P m → P { m with numRequestedVectors := n }
  triplets : ∀ m ts, P m → P { m with authTriplets := ts }
  quintuplets : ∀ m qs, P m → P { m with authQuintuplets := qs }
  sgsnNumber : ∀ m v, P m → P { m with sgsnNumber := v }
  sgsnAddress : ∀ m v, P m → P { m with sgsnAddress := v }
  hlrNumber : ∀ m v, P m → P { m with hlrNumber := v }
  msisdn : ∀ m v, P m → P { m with msisdn := v }
  cancelType : ∀ m v, P m → P { m with cancelType := v }
  freezePtmsi : ∀ m v, P m → P { m with freezePtmsi := v }

section Args

variable {P : MapMessage → Prop} (hP : ArgsClosed P) {m m' : MapMessage} {s s' : MapMessage × Bool}
  {t : UInt8} {val : Bytes} {r : BufferReader}

include hP

/-- The first octet string of an argument is its IMSI, and is not the first any more. -/
theorem setImsi_keeps (hm : P m)
    (h : (do let imsi ← bcdToImsi val; return ({ m with imsi := imsi }, false)) = .ok s') :
    P s'.1 := by
  obtain ⟨imsi, himsi, h⟩ := except_bind_eq_ok.mp h
  cases h
  exact hP.imsi m imsi hm (digits_of_unpackDigits himsi)

theorem sendAuthInfoReqField_keeps (hm : P m) (h : sendAuthInfoReqField m t val = .ok m') :
    P m' := by
  unfold sendAuthInfoReqField at h
  split at h
  · obtain ⟨imsi, himsi, h⟩ := except_bind_eq_ok.mp h
    cases h
    exact hP.imsi m imsi hm (digits_of_unpackDigits himsi)
  · split at h
    · obtain ⟨v, -, h⟩ := except_bind_eq_ok.mp h
      cases h
      exact hP.numVectors m _ hm
    · cases h
      exact hm

theorem sendAuthInfoResField_keeps (hm : P m) (h : sendAuthInfoResField m t val = .ok m') :
    P m' := by
  unfold sendAuthInfoResField at h
  split at h
  · cases h
    exact hm
  · obtain ⟨fields, -, h⟩ := except_bind_eq_ok.mp h
    cases h
    unfold addAuthVector
    split
    · exact hP.quintuplets m _ hm
    · exact hP.triplets m _ hm
    · exact hm

theorem updateGprsLocationReqField_keeps (hm : P s.1)
    (h : updateGprsLocationReqField s t val = .ok s') : P s'.1 := by
  unfold updateGprsLocationReqField at h
  dsimp only at h
  split at h
  · split at h
    · exact setImsi_keeps hP hm h
    · split at h
      · cases h
        exact hP.sgsnNumber s.1 _ hm
      · split at h
        · cases h
          exact hP.sgsnAddress s.1 _ hm
        · cases h
          exact hm
  · cases h
    exact hm

theorem cancelLocationReqField_keeps (hm : P s.1)
    (h : cancelLocationReqField s t val = .ok s') : P s'.1 := by
  unfold cancelLocationReqField at h
  dsimp only at h
  split at h
  · exact setImsi_keeps hP hm h
  · split at h
    · obtain ⟨v, -, h⟩ := except_bind_eq_ok.mp h
      cases h
      exact hP.cancelType s.1 _ hm
    · cases h
      exact hm

theorem insertSubscriberDataReqField_keeps (hm : P s.1)
    (h : insertSubscriberDataReqField s t val = .ok s') : P s'.1 := by
  unfold insertSubscriberDataReqField at h
  dsimp only at h
  split at h
  · split at h
    · exact setImsi_keeps hP hm h
    · split at h
      · cases h
        exact hP.msisdn s.1 _ hm
      · cases h
        exact hm
  · cases h
    exact hm

theorem purgeMsReqField_keeps (hm : P s.1) (h : purgeMsReqField s t val = .ok s') : P s'.1 := by
  unfold purgeMsReqField at h
  dsimp only at h
  split at h
  · split at h
    · exact setImsi_keeps hP hm h
    · split at h
      · cases h
        exact hP.sgsnNumber s.1 _ hm
      · cases h
        exact hm
  · cases h
    exact hm

theorem decodeDeleteSubscriberDataReq_keeps (hm : P m)
    (h : decodeDeleteSubscriberDataReq r m = .ok m') : P m' := by
  unfold decodeDeleteSubscriberDataReq at h
  split at h
  · cases h
    exact hm
  · obtain ⟨⟨⟨_, seqVal⟩, _⟩, -, h⟩ := except_bind_eq_ok.mp h
    dsimp only at h
    split at h
    · cases h
      exact hm
    · obtain ⟨⟨⟨t, val⟩, _⟩, -, h⟩ := except_bind_eq_ok.mp h
      dsimp only at h
      split at h
      · obtain ⟨imsi, himsi, h⟩ := except_bind_eq_ok.mp h
        cases h
        exact hP.imsi m imsi hm (digits_of_unpackDigits himsi)
      · cases h
        exact hm

theorem decodeInvokeArgs_keeps (hm : P m) (h : decodeInvokeArgs r m = .ok m') : P m' := by
  unfold decodeInvokeArgs at h
  split at h
  · unfold decodeSendAuthInfoReq at h
    split at h
    · cases h
      exact hm
    · obtain ⟨⟨⟨tag, seqVal⟩, _⟩, -, h⟩ := except_bind_eq_ok.mp h
      dsimp only at h
      split at h
      · cases h
        exact hm
      · exact drain_tlvTurn_invariant (fun _ _ _ _ => sendAuthInfoReqField_keeps hP) hm h
  · exact decodeSequence_fst_invariant (fun _ _ _ _ => updateGprsLocationReqField_keeps hP) hm h
  · exact decodeSequence_fst_invariant (fun _ _ _ _ => cancelLocationReqField_keeps hP) hm h
  · exact decodeSequence_fst_invariant (fun _ _ _ _ => insertSubscriberDataReqField_keeps hP) hm h
  · exact decodeDeleteSubscriberDataReq_keeps hP hm h
  · exact decodeSequence_fst_invariant (fun _ _ _ _ => purgeMsReqField_keeps hP) hm h
  · cases h
    exact hm

theorem decodeResultArgs_keeps (hm : P m) (h : decodeResultArgs r m = .ok m') : P m' := by
  unfold decodeResultArgs at h
  split at h
  · exact decodeSequence_invariant (fun _ _ _ _ => sendAuthInfoResField_keeps hP) hm h
  · refine decodeSequence_invariant ?_ hm h
    intro s t val s' hs h
    unfold updateGprsLocationResField at h
    split at h
    · cases h
      exact hP.hlrNumber s _ hs
    · cases h
      exact hs
  · refine decodeSequence_invariant ?_ hm h
    intro s t val s' hs h
    unfold purgeMsResField at h
    split at h
    · cases h
      exact hP.freezePtmsi s _ hs
    · cases h
      exact hs
  · cases h
    exact hm

end Args

/-- What the decoder guarantees of every message it yields: it never reports a Reject, and an
IMSI it stores is decimal. -/
structure Decoded (m : MapMessage) : Prop where
  component : m.component ≠ .reject
  digits : Digits m.imsi

theorem decoded_argsClosed : ArgsClosed Decoded where
  imsi := fun _ _ hm hs => ⟨hm.component, hs⟩
  numVectors := fun _ _ hm => ⟨hm.component, hm.digits⟩
  triplets := fun _ _ hm => ⟨hm.component, hm.digits⟩
  quintuplets := fun _ _ hm => ⟨hm.component, hm.digits⟩
  sgsnNumber := fun _ _ hm => ⟨hm.component, hm.digits⟩
  sgsnAddress := fun _ _ hm => ⟨hm.component, hm.digits⟩
  hlrNumber := fun _ _ hm => ⟨hm.component, hm.digits⟩
  msisdn := fun _ _ hm => ⟨hm.component, hm.digits⟩
  cancelType := fun _ _ hm => ⟨hm.component, hm.digits⟩
  freezePtmsi := fun _ _ hm => ⟨hm.component, hm.digits⟩

theorem decodeComponent_decoded {m m' : MapMessage} {t : UInt8} {val : Bytes} (hm : Decoded m)
    (h : decodeComponent m t val = .ok m') : Decoded m' := by
  unfold decodeComponent at h
  split at h
  · simp only [except_bind_eq_ok] at h
    obtain ⟨_, _, _, _, _, _, _, _, h⟩ := h
    refine decodeInvokeArgs_keeps decoded_argsClosed ?_ h
    exact ⟨by simp, hm.digits⟩
  · split at h
    · simp only [except_bind_eq_ok] at h
      obtain ⟨_, _, _, _, _, _, _, _, _, _, h⟩ := h
      refine decodeResultArgs_keeps decoded_argsClosed ?_ h
      exact ⟨by simp, hm.digits⟩
    · split at h
      · simp only [except_bind_eq_ok] at h
        obtain ⟨_, _, _, _, _, _, _, _, h⟩ := h
        cases h
        exact ⟨by simp, hm.digits⟩
      · cases h
        exact hm

/-- Whatever the PDU, a decoded message is no Reject and its IMSI is decimal. -/
theorem decoded_of_decode {data : Bytes} {m : MapMessage} (h : decode data = .ok m) :
    Decoded m := by
  obtain ⟨⟨⟨_, body⟩, _⟩, -, h⟩ := except_bind_eq_ok.mp h
  refine drain_tlvTurn_invariant (P := Decoded) ?_ ⟨by simp, digits_nil⟩ h
  intro s t val s' hs hf
  unfold decodeTcapField at hf
  split at hf
  · cases hf
    exact ⟨hs.component, hs.digits⟩
  · split at hf
    · exact drain_tlvTurn_invariant (fun _ _ _ _ => decodeComponent_decoded) hs hf
    · cases hf
      exact hs

/-! ## Encodable Invokes -/

/-- A value whose length needs at most two octets is written, with at most four octets added. -/
theorem writeTlv_sized (tag : UInt8) {val : Bytes} {n : Nat} (hval : val.length ≤ n)
    (hn : n ≤ 0xFFFF) : ∃ b, writeTlv tag val = .ok b ∧ b.length ≤ n + 4 := by
  unfold writeTlv writeLength
  split
  · exact ⟨_, rfl, by simp only [List.length_cons, List.length_append, List.length_nil]; omega⟩
  · split
    · exact ⟨_, rfl, by simp only [List.length_cons, List.length_append, List.length_nil]; omega⟩
    · rw [if_pos (by omega)]
      exact ⟨_, rfl, by simp only [List.length_cons, List.length_append, List.length_nil]; omega⟩

theorem writeOptOctets_sized {o : Option Bytes} (h : ∀ val ∈ o, val.length ≤ 255) :
    ∃ b, writeOptOctets o = .ok b ∧ b.length ≤ 259 := by
  cases o with
  | none => exact ⟨[], rfl, by simp⟩
  | some val => exact writeTlv_sized _ (h val rfl) (by omega)

theorem writeTlvInt_sized (tag v : UInt8) :
    ∃ b, writeTlvInt tag (widen v) = .ok b ∧ b.length ≤ 6 :=
  writeTlv_sized _ (encodeInt_widen_length v) (by omega)

/-- The bounds under which every Invoke can be encoded. -/
structure Sized (m : MapMessage) : Prop where
  imsi : m.imsi.length ≤ 510
  sgsnNumber : ∀ val ∈ m.sgsnNumber, val.length ≤ 255
  sgsnAddress : ∀ val ∈ m.sgsnAddress, val.length ≤ 255
  msisdn : ∀ val ∈ m.msisdn, val.length ≤ 255

theorem writeImsi_sized {m : MapMessage} (hm : Sized m) :
    ∃ b, writeTlv kBerOctetStr (imsiToBcd m.imsi) = .ok b ∧ b.length ≤ 259 := by
  apply writeTlv_sized _ _ (by omega)
  rw [imsiToBcd, packDigits_length]
  have := hm.imsi
  omega

theorem encodeArgs_sized {m : MapMessage} (hinv : m.component = .invoke) (hm : Sized m) :
    ∃ args, encodeArgs m = .ok args ∧ args.length ≤ 800 := by
  obtain ⟨imsi, himsi, hlen⟩ := writeImsi_sized hm
  obtain ⟨num, hnum, hnumLen⟩ := writeOptOctets_sized hm.sgsnNumber
  obtain ⟨addr, haddr, haddrLen⟩ := writeOptOctets_sized hm.sgsnAddress
  obtain ⟨msisdn, hmsisdn, hmsisdnLen⟩ := writeOptOctets_sized hm.msisdn
  obtain ⟨vec, hvec, hvecLen⟩ := writeTlvInt_sized kBerInt (m.numRequestedVectors.getD 1)
  have hwrap : ∀ inner : Bytes, inner.length ≤ 796 →
      ∃ args, wrapConstructed kBerSequence inner = .ok args ∧ args.length ≤ 800 :=
    fun inner hinner => writeTlv_sized _ hinner (by omega)
  unfold encodeArgs
  cases m.operation with
  | sendAuthenticationInfo =>
    simp only [hinv, if_true, encodeSendAuthInfoReq, himsi, hvec, except_ok_bind]
    exact hwrap _ (by rw [List.length_append]; omega)
  | updateGprsLocation =>
    simp only [hinv, if_true, encodeUpdateGprsLocationReq, himsi, hnum, haddr, except_ok_bind]
    exact hwrap _ (by rw [List.length_append, List.length_append]; omega)
  | cancelLocation =>
    simp only [encodeCancelLocationReq, himsi, except_ok_bind]
    apply hwrap
    cases m.cancelType with
    | none => simp only [Option.map_none, Option.getD_none, List.append_nil]; omega
    | some ct =>
      simp only [Option.map_some, Option.getD_some, writeTlvOctet, List.length_append,
        List.length_cons, List.length_nil]
      omega
  | insertSubscriberData =>
    simp only [encodeInsertSubscriberDataReq, himsi, hmsisdn, except_ok_bind]
    exact hwrap _ (by rw [List.length_append]; omega)
  | deleteSubscriberData =>
    simp only [encodeDeleteSubscriberDataReq, himsi, except_ok_bind]
    exact hwrap _ (by omega)
  | purgeMS =>
    simp only [hinv, if_true, encodePurgeMsReq, himsi, hnum, except_ok_bind]
    exact hwrap _ (by rw [List.length_append]; omega)
  | _ => exact ⟨[], rfl, by simp⟩

/-- An Invoke within the bounds is encoded. -/
theorem encode_invoke_succeeds {m : MapMessage} (hinv : m.component = .invoke) (hm : Sized m) :
    ∃ b, encode m = .ok b := by
  obtain ⟨args, hargs, hargsLen⟩ := encodeArgs_sized hinv hm
  obtain ⟨id, hid, hidLen⟩ := writeTlvInt_sized kBerInt m.invokeId
  obtain ⟨op, hop, hopLen⟩ := writeTlvInt_sized kBerInt m.operation.toByte
  have hinner : (id ++ (op ++ args)).length ≤ 812 := by
    rw [List.length_append, List.length_append]
    omega
  obtain ⟨comp, hcomp, hcompLen⟩ :=
    writeTlv_sized kCompTagInvoke hinner (by omega)
  obtain ⟨portion, hportion, hportionLen⟩ :=
    writeTlv_sized kTcapTagComponents hcompLen (by omega)
  have htidLen : (writeBE32 m.transactionId).length ≤ 4 := Nat.le_refl _
  obtain ⟨tid, htid, htidLen'⟩ := writeTlv_sized kTcapTagOtid htidLen (by omega)
  have hbody : (tid ++ portion).length ≤ 828 := by
    rw [List.length_append]
    omega
  obtain ⟨b, hb, -⟩ := writeTlv_sized kTcapTagBegin hbody (by omega)
  refine ⟨b, ?_⟩
  simp only [encode, hargs, except_ok_bind, encodeComponent, hinv, encodeInvoke, hid, hop,
    wrapConstructed, hcomp, hportion, if_true, htid, hb]

/-- The outer tag tells a request from an answer. -/
theorem encode_tag {m : MapMessage} {b : Bytes} (h : encode m = .ok b) :
    b.head? = some (if m.component = .invoke then kTcapTagBegin else kTcapTagEnd) := by
  simp only [encode, except_bind_eq_ok] at h
  obtain ⟨_, _, _, _, _, _, _, _, hb⟩ := h
  obtain ⟨l, -, hb⟩ := except_bind_eq_ok.mp hb
  cases hb
  rfl

end GsupMapProxy.Map
