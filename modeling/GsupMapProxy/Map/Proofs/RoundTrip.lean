import GsupMapProxy.Map.Codec

/-!
# MAP round trip

`wireView m` is what of a message travels: the transaction id, the invoke id and the fields the
encoder of `m`'s component and operation writes. Decoding an encoded message gives exactly its
view. For an Invoke the IMSI must be decimal, since `map::imsiToBcd` packs any octets; answers
do not carry one the decoder looks at.
-/

namespace GsupMapProxy.Map

open Misc Ber

/-! ## Loops over TLVs -/

theorem tlvTurn_consuming {σ : Type} (f : σ → UInt8 → Bytes → Except Exn σ) :
    Consuming (tlvTurn f) := by
  intro s x xs s' rest h
  simp only [tlvTurn, except_bind_eq_ok] at h
  obtain ⟨⟨⟨t, val⟩, r⟩, hr, s'', hs, h⟩ := h
  cases h
  have := readTlv_length hr
  simp only [List.length_cons] at this ⊢
  omega

theorem writeTlv_ne_nil {tag : UInt8} {val b : Bytes} (h : writeTlv tag val = .ok b) : b ≠ [] := by
  obtain ⟨l, -, hb⟩ := except_bind_eq_ok.mp h
  cases hb
  simp

/-- A written TLV in front of a loop's input is one turn of the loop. -/
theorem drain_writeTlv {σ : Type} (f : σ → UInt8 → Bytes → Except Exn σ) {tag : UInt8}
    {val b : Bytes} (s : σ) (rest : Bytes) (h : writeTlv tag val = .ok b) :
    drain (tlvTurn f) s (b ++ rest) = (f s tag val >>= fun s' => drain (tlvTurn f) s' rest) := by
  obtain ⟨x, xs, rfl⟩ := List.exists_cons_of_ne_nil (writeTlv_ne_nil h)
  have hread := readTlv_writeTlv rest h
  rw [List.cons_append] at hread ⊢
  rw [drain_cons (tlvTurn_consuming f), tlvTurn, hread, except_ok_bind]
  dsimp only
  cases f s tag val with
  | error e => rfl
  | ok s' => rfl

theorem drain_writeTlv_last {σ : Type} (f : σ → UInt8 → Bytes → Except Exn σ) {tag : UInt8}
    {val b : Bytes} (s : σ) (h : writeTlv tag val = .ok b) :
    drain (tlvTurn f) s b = f s tag val := by
  have := drain_writeTlv f s [] h
  rw [List.append_nil] at this
  rw [this]
  cases f s tag val with
  | error e => rfl
  | ok s' => rfl

theorem drain_writeOptOctets {σ : Type} (f : σ → UInt8 → Bytes → Except Exn σ)
    {o : Option Bytes} {b : Bytes} (s : σ) (rest : Bytes) (h : writeOptOctets o = .ok b) :
    drain (tlvTurn f) s (b ++ rest) =
      (o.elim (.ok s) (f s kBerOctetStr) >>= fun s' => drain (tlvTurn f) s' rest) := by
  cases o with
  | none => cases h; rfl
  | some val => exact drain_writeTlv f s rest h

theorem drain_writeOptOctets_last {σ : Type} (f : σ → UInt8 → Bytes → Except Exn σ)
    {o : Option Bytes} {b : Bytes} (s : σ) (h : writeOptOctets o = .ok b) :
    drain (tlvTurn f) s b = o.elim (.ok s) (f s kBerOctetStr) := by
  cases o with
  | none => cases h; rfl
  | some val => exact drain_writeTlv_last f s h

theorem readTlv_wrapConstructed {tag : UInt8} {inner b : Bytes}
    (h : wrapConstructed tag inner = .ok b) : readTlv b = .ok ((tag, inner), []) := by
  have := readTlv_writeTlv [] h
  rwa [List.append_nil] at this

theorem decodeSequence_wrapConstructed {σ : Type} (f : σ → UInt8 → Bytes → Except Exn σ)
    {tag : UInt8} {inner b : Bytes} (s : σ) (h : wrapConstructed tag inner = .ok b) :
    decodeSequence f s b = drain (tlvTurn f) s inner := by
  rw [decodeSequence, if_neg (writeTlv_ne_nil h), readTlv_wrapConstructed h, except_ok_bind]

/-! ## Identifiers -/

theorem readTlv_writeTlvInt {tag : UInt8} {v : Int64} {b : Bytes} (rest : Bytes)
    (h : writeTlvInt tag v = .ok b) : readTlv (b ++ rest) = .ok ((tag, encodeInt v), rest) :=
  readTlv_writeTlv rest h

/-- Four octets are read back as the transaction id they were written from. -/
@[simp] theorem tidOfOctets_writeBE32 (v : UInt32) : tidOfOctets (writeBE32 v) = v := by
  apply UInt32.toNat_inj.mp
  have hv := uint32_octets_toNat v
  have hlt := v.toNat_lt
  simp only [tidOfOctets, writeBE32, List.foldl_cons, List.foldl_nil, uint32_shl8_or_toNat]
  omega

/-! ## What travels -/

/-- The fields every Invoke and ReturnResult carries. -/
def wireHead (m : MapMessage) : MapMessage :=
  { transactionId := m.transactionId, component := m.component, invokeId := m.invokeId,
    operation := m.operation }

/-- The fields of a message that its encoding carries, as the decoder files them: a lone SGSN
address of an UpdateGprsLocation comes back as the SGSN number, because only the position tells
the two apart. -/
def wireView (m : MapMessage) : MapMessage :=
  match m.component with
  | .invoke =>
      match m.operation with
      | .sendAuthenticationInfo =>
          { wireHead m with
            imsi := m.imsi, numRequestedVectors := some (m.numRequestedVectors.getD 1) }
      | .updateGprsLocation =>
          { wireHead m with
            imsi := m.imsi, sgsnNumber := m.sgsnNumber.or m.sgsnAddress,
            sgsnAddress := m.sgsnNumber.bind fun _ => m.sgsnAddress }
      | .cancelLocation => { wireHead m with imsi := m.imsi, cancelType := m.cancelType }
      | .insertSubscriberData => { wireHead m with imsi := m.imsi, msisdn := m.msisdn }
      | .deleteSubscriberData => { wireHead m with imsi := m.imsi }
      | .purgeMS => { wireHead m with imsi := m.imsi, sgsnNumber := m.sgsnNumber }
      | _ => wireHead m
  | .returnResult =>
      match m.operation with
      | .sendAuthenticationInfo =>
          { wireHead m with
            authTriplets := m.authTriplets, authQuintuplets := m.authQuintuplets }
      | .updateGprsLocation => { wireHead m with hlrNumber := m.hlrNumber }
      | .purgeMS => { wireHead m with freezePtmsi := m.freezePtmsi }
      | _ => wireHead m
  | _ =>
      { transactionId := m.transactionId, component := .returnError, invokeId := m.invokeId,
        errorCode := some (m.errorCode.getD 34) }

theorem bcdToImsi_imsiToBcd {imsi : Str} (h : Digits imsi) :
    bcdToImsi (imsiToBcd imsi) = .ok imsi :=
  unpackDigits_packDigits _ imsi h

/-! ## Invoke arguments -/

section Invoke

variable {m : MapMessage} {args : Bytes}

theorem decodeSendAuthInfoReq_encode (hd : Digits m.imsi)
    (h : encodeSendAuthInfoReq m = .ok args) :
    decodeSendAuthInfoReq args (wireHead m) =
      .ok { wireHead m with
        imsi := m.imsi, numRequestedVectors := some (m.numRequestedVectors.getD 1) } := by
  simp only [encodeSendAuthInfoReq, except_bind_eq_ok] at h
  obtain ⟨imsi, himsi, num, hnum, hseq⟩ := h
  rw [decodeSendAuthInfoReq, if_neg (writeTlv_ne_nil hseq), readTlv_wrapConstructed hseq,
    except_ok_bind]
  simp only [ne_eq, not_true_eq_false, if_false]
  rw [drain_writeTlv _ _ _ himsi, sendAuthInfoReqField, if_pos ⟨rfl, rfl⟩,
    bcdToImsi_imsiToBcd hd, except_ok_bind, except_pure, except_ok_bind,
    drain_writeTlv_last _ _ hnum, sendAuthInfoReqField, if_neg (by simp [kBerInt, kBerOctetStr]),
    if_pos ⟨rfl, rfl⟩, decodeInt_encodeInt_widen, except_ok_bind, narrow_widen]
  rfl

theorem decodeUpdateGprsLocationReq_encode (hd : Digits m.imsi)
    (h : encodeUpdateGprsLocationReq m = .ok args) :
    decodeUpdateGprsLocationReq args (wireHead m) =
      .ok { wireHead m with
        imsi := m.imsi, sgsnNumber := m.sgsnNumber.or m.sgsnAddress,
        sgsnAddress := m.sgsnNumber.bind fun _ => m.sgsnAddress } := by
  simp only [encodeUpdateGprsLocationReq, except_bind_eq_ok] at h
  obtain ⟨imsi, himsi, num, hnum, addr, haddr, hseq⟩ := h
  rw [decodeUpdateGprsLocationReq, decodeSequence_wrapConstructed _ _ hseq,
    drain_writeTlv _ _ _ himsi]
  have hfirst : updateGprsLocationReqField (wireHead m, true) kBerOctetStr (imsiToBcd m.imsi) =
      .ok ({ wireHead m with imsi := m.imsi }, false) := by
    simp only [updateGprsLocationReqField, if_true]
    rw [if_pos ⟨trivial, rfl⟩, bcdToImsi_imsiToBcd hd]
    rfl
  rw [hfirst, except_ok_bind, drain_writeOptOctets _ _ _ hnum]
  cases hn : m.sgsnNumber with
  | none =>
    simp only [Option.elim_none, except_ok_bind]
    rw [drain_writeOptOctets_last _ _ haddr]
    cases m.sgsnAddress <;> rfl
  | some num =>
    have hsecond : updateGprsLocationReqField ({ wireHead m with imsi := m.imsi }, false)
        kBerOctetStr num =
        .ok ({ wireHead m with imsi := m.imsi, sgsnNumber := some num }, false) := rfl
    rw [Option.elim_some, hsecond, except_ok_bind, drain_writeOptOctets_last _ _ haddr]
    cases m.sgsnAddress <;> rfl

theorem decodeCancelLocationReq_encode (hd : Digits m.imsi)
    (h : encodeCancelLocationReq m = .ok args) :
    decodeCancelLocationReq args (wireHead m) =
      .ok { wireHead m with imsi := m.imsi, cancelType := m.cancelType } := by
  simp only [encodeCancelLocationReq, except_bind_eq_ok] at h
  obtain ⟨imsi, himsi, hseq⟩ := h
  rw [decodeCancelLocationReq, decodeSequence_wrapConstructed _ _ hseq,
    drain_writeTlv _ _ _ himsi]
  have hfirst : cancelLocationReqField (wireHead m, true) kBerOctetStr (imsiToBcd m.imsi) =
      .ok ({ wireHead m with imsi := m.imsi }, false) := by
    simp only [cancelLocationReqField, and_self, if_true]
    rw [bcdToImsi_imsiToBcd hd]
    rfl
  rw [hfirst, except_ok_bind]
  cases m.cancelType with
  | none => rfl
  | some ct =>
    rw [Option.map_some, Option.getD_some, drain_writeTlv_last _ _ (writeTlvOctet_eq kBerInt ct)]
    have hint := decodeInt_octet ct
    cases hv : decodeInt [ct] with
    | error e => rw [hv] at hint; cases hint
    | ok v =>
      rw [hv] at hint
      have hct : narrow v = ct := by simpa [Except.map] using hint
      simp only [cancelLocationReqField]
      rw [if_neg (by simp), if_pos trivial, hv, except_ok_bind, hct]
      rfl

theorem decodeInsertSubscriberDataReq_encode (hd : Digits m.imsi)
    (h : encodeInsertSubscriberDataReq m = .ok args) :
    decodeInsertSubscriberDataReq args (wireHead m) =
      .ok { wireHead m with imsi := m.imsi, msisdn := m.msisdn } := by
  simp only [encodeInsertSubscriberDataReq, except_bind_eq_ok] at h
  obtain ⟨imsi, himsi, num, hnum, hseq⟩ := h
  rw [decodeInsertSubscriberDataReq, decodeSequence_wrapConstructed _ _ hseq,
    drain_writeTlv _ _ _ himsi]
  have hfirst : insertSubscriberDataReqField (wireHead m, true) kBerOctetStr
      (imsiToBcd m.imsi) = .ok ({ wireHead m with imsi := m.imsi }, false) := by
    simp only [insertSubscriberDataReqField, if_true]
    rw [bcdToImsi_imsiToBcd hd]
    rfl
  rw [hfirst, except_ok_bind, drain_writeOptOctets_last _ _ hnum]
  cases m.msisdn <;> rfl

theorem decodeDeleteSubscriberDataReq_encode (hd : Digits m.imsi)
    (h : encodeDeleteSubscriberDataReq m = .ok args) :
    decodeDeleteSubscriberDataReq args (wireHead m) =
      .ok { wireHead m with imsi := m.imsi } := by
  simp only [encodeDeleteSubscriberDataReq, except_bind_eq_ok] at h
  obtain ⟨imsi, himsi, hseq⟩ := h
  rw [decodeDeleteSubscriberDataReq, if_neg (writeTlv_ne_nil hseq),
    readTlv_wrapConstructed hseq, except_ok_bind]
  simp only [if_neg (writeTlv_ne_nil himsi)]
  rw [readTlv_wrapConstructed himsi, except_ok_bind]
  rw [if_pos ⟨rfl, rfl⟩, bcdToImsi_imsiToBcd hd]
  rfl

theorem decodePurgeMsReq_encode (hd : Digits m.imsi) (h : encodePurgeMsReq m = .ok args) :
    decodePurgeMsReq args (wireHead m) =
      .ok { wireHead m with imsi := m.imsi, sgsnNumber := m.sgsnNumber } := by
  simp only [encodePurgeMsReq, except_bind_eq_ok] at h
  obtain ⟨imsi, himsi, num, hnum, hseq⟩ := h
  rw [decodePurgeMsReq, decodeSequence_wrapConstructed _ _ hseq, drain_writeTlv _ _ _ himsi]
  have hfirst : purgeMsReqField (wireHead m, true) kBerOctetStr (imsiToBcd m.imsi) =
      .ok ({ wireHead m with imsi := m.imsi }, false) := by
    simp only [purgeMsReqField, if_true]
    rw [bcdToImsi_imsiToBcd hd]
    rfl
  rw [hfirst, except_ok_bind, drain_writeOptOctets_last _ _ hnum]
  cases m.sgsnNumber <;> rfl

/-- The arguments of an Invoke are read back as written. -/
theorem decodeInvokeArgs_encodeArgs (hinv : m.component = .invoke) (hd : Digits m.imsi)
    (h : encodeArgs m = .ok args) : decodeInvokeArgs args (wireHead m) = .ok (wireView m) := by
  obtain ⟨tid, component, id, last, operation⟩ := m
  obtain rfl : component = .invoke := hinv
  cases operation with
  | sendAuthenticationInfo => exact decodeSendAuthInfoReq_encode hd h
  | updateGprsLocation => exact decodeUpdateGprsLocationReq_encode hd h
  | cancelLocation => exact decodeCancelLocationReq_encode hd h
  | insertSubscriberData => exact decodeInsertSubscriberDataReq_encode hd h
  | deleteSubscriberData => exact decodeDeleteSubscriberDataReq_encode hd h
  | purgeMS => exact decodePurgeMsReq_encode hd h
  | _ => rfl

end Invoke

/-! ## Result arguments -/

/-- The OCTET STRINGs of one auth vector are collected in order. -/
theorem drain_octetStrings (vs : List Bytes) :
    ∀ (acc : List Bytes) {b : Bytes}, writeEach (writeTlv kBerOctetStr) vs = .ok b →
      drain (tlvTurn octetStringField) acc b = .ok (acc ++ vs) := by
  induction vs with
  | nil =>
    intro acc b h
    cases h
    rw [drain_nil, List.append_nil]
  | cons v vs ih =>
    intro acc b h
    obtain ⟨head, tail, hhead, htail, rfl⟩ := writeEach_cons.mp h
    rw [drain_writeTlv _ _ _ hhead, octetStringField, if_pos rfl, except_ok_bind, ih _ htail,
      List.append_assoc, List.singleton_append]

/-- A loop over SEQUENCEs of OCTET STRINGs files one auth vector per SEQUENCE. -/
theorem drain_authVectors {α : Type} {enc : α → Except Exn Bytes} (fields : α → List Bytes)
    (henc : ∀ a, enc a = writeEach (writeTlv kBerOctetStr) (fields a) >>=
      wrapConstructed kBerSequence) (xs : List α) :
    ∀ (m : MapMessage) (rest : Bytes) {b : Bytes}, writeEach enc xs = .ok b →
      drain (tlvTurn sendAuthInfoResField) m (b ++ rest) =
        drain (tlvTurn sendAuthInfoResField) ((xs.map fields).foldl addAuthVector m) rest := by
  induction xs with
  | nil =>
    intro m rest b h
    cases h
    rfl
  | cons x xs ih =>
    intro m rest b h
    obtain ⟨head, tail, hhead, htail, rfl⟩ := writeEach_cons.mp h
    rw [henc, except_bind_eq_ok] at hhead
    obtain ⟨inner, hinner, hwrap⟩ := hhead
    rw [List.append_assoc, drain_writeTlv _ _ _ hwrap, sendAuthInfoResField,
      if_neg (not_not.mpr rfl), drain_octetStrings _ [] hinner, except_ok_bind, except_pure,
      except_ok_bind, ih _ _ htail, List.nil_append, List.map_cons, List.foldl_cons]

theorem foldl_triplets (ts : List MapAuthTriplet) :
    ∀ m : MapMessage, (ts.map fun t => [t.rand, t.sres, t.kc]).foldl addAuthVector m =
      { m with authTriplets := m.authTriplets ++ ts } := by
  induction ts with
  | nil => intro m; rw [List.append_nil]; rfl
  | cons t ts ih =>
    intro m
    have hadd : addAuthVector m [t.rand, t.sres, t.kc] =
        { m with authTriplets := m.authTriplets ++ [t] } := rfl
    rw [List.map_cons, List.foldl_cons, hadd, ih]
    simp only [List.append_assoc, List.singleton_append]

theorem foldl_quintuplets (qs : List MapAuthQuintuplet) :
    ∀ m : MapMessage,
      (qs.map fun q => [q.rand, q.xres, q.ck, q.ik, q.autn]).foldl addAuthVector m =
        { m with authQuintuplets := m.authQuintuplets ++ qs } := by
  induction qs with
  | nil => intro m; rw [List.append_nil]; rfl
  | cons q qs ih =>
    intro m
    have hadd : addAuthVector m [q.rand, q.xres, q.ck, q.ik, q.autn] =
        { m with authQuintuplets := m.authQuintuplets ++ [q] } := rfl
    rw [List.map_cons, List.foldl_cons, hadd, ih]
    simp only [List.append_assoc, List.singleton_append]

section Result

variable {m : MapMessage} {args : Bytes}

/-- All triplets, then all quintuplets, complete and in order. -/
theorem decodeSendAuthInfoRes_encode (h : encodeSendAuthInfoRes m = .ok args) :
    decodeSendAuthInfoRes args (wireHead m) =
      .ok { wireHead m with
        authTriplets := m.authTriplets, authQuintuplets := m.authQuintuplets } := by
  simp only [encodeSendAuthInfoRes, except_bind_eq_ok] at h
  obtain ⟨triplets, ht, quintuplets, hq, hseq⟩ := h
  rw [decodeSendAuthInfoRes, decodeSequence_wrapConstructed _ _ hseq,
    drain_authVectors (fun t : MapAuthTriplet => [t.rand, t.sres, t.kc]) (fun _ => rfl) _ _ _ ht,
    foldl_triplets, ← List.append_nil quintuplets,
    drain_authVectors (fun q : MapAuthQuintuplet => [q.rand, q.xres, q.ck, q.ik, q.autn])
      (fun _ => rfl) _ _ _ hq, foldl_quintuplets, drain_nil]
  rfl

theorem decodeUpdateGprsLocationRes_encode (h : encodeUpdateGprsLocationRes m = .ok args) :
    decodeUpdateGprsLocationRes args (wireHead m) =
      .ok { wireHead m with hlrNumber := m.hlrNumber } := by
  simp only [encodeUpdateGprsLocationRes, except_bind_eq_ok] at h
  obtain ⟨num, hnum, hseq⟩ := h
  rw [decodeUpdateGprsLocationRes, decodeSequence_wrapConstructed _ _ hseq,
    drain_writeOptOctets_last _ _ hnum]
  cases m.hlrNumber <;> rfl

theorem decodePurgeMsRes_encode (h : encodePurgeMsRes m = .ok args) :
    decodePurgeMsRes args (wireHead m) =
      .ok { wireHead m with freezePtmsi := m.freezePtmsi } := by
  rw [decodePurgeMsRes, decodeSequence_wrapConstructed _ _ h]
  have hnull : writeTlv kBerNull [] = .ok [kBerNull, 0] := rfl
  cases m.freezePtmsi with
  | false => rfl
  | true => rw [if_pos rfl, drain_writeTlv_last _ _ hnull]; rfl

/-- The arguments of a ReturnResult are read back as written, less those the decoder skips. -/
theorem decodeResultArgs_encodeArgs (hres : m.component = .returnResult)
    (h : encodeArgs m = .ok args) : decodeResultArgs args (wireHead m) = .ok (wireView m) := by
  obtain ⟨tid, component, id, last, operation⟩ := m
  obtain rfl : component = .returnResult := hres
  cases operation with
  | sendAuthenticationInfo => exact decodeSendAuthInfoRes_encode h
  | updateGprsLocation => exact decodeUpdateGprsLocationRes_encode h
  | purgeMS => exact decodePurgeMsRes_encode h
  | _ => rfl

end Result

/-! ## The whole message -/

/-- The component of an encoded message is decoded to its view. -/
theorem decodeComponent_encodeComponent {m : MapMessage} {args comp : Bytes}
    (hd : m.component = .invoke → Digits m.imsi) (hargs : encodeArgs m = .ok args)
    (hcomp : encodeComponent m args = .ok comp) :
    drain (tlvTurn decodeComponent) { transactionId := m.transactionId } comp =
      .ok (wireView m) := by
  unfold encodeComponent at hcomp
  cases hc : m.component <;> rw [hc] at hcomp <;> simp only at hcomp
  case invoke =>
    simp only [encodeInvoke, except_bind_eq_ok] at hcomp
    obtain ⟨id, hid, op, hop, hwrap⟩ := hcomp
    rw [drain_writeTlv_last _ _ hwrap, decodeComponent, if_pos rfl, readTlv_writeTlvInt _ hid,
      except_ok_bind]
    dsimp only
    rw [decodeInt_encodeInt_widen, except_ok_bind, readTlv_writeTlvInt _ hop, except_ok_bind]
    dsimp only
    rw [decodeInt_encodeInt_widen, except_ok_bind, narrow_widen, narrow_widen,
      MapOperation.ofByte_toByte, ← hc]
    exact decodeInvokeArgs_encodeArgs hc (hd hc) hargs
  case returnResult =>
    simp only [encodeReturnResult, except_bind_eq_ok] at hcomp
    obtain ⟨op, hop, seq, hseq, id, hid, hwrap⟩ := hcomp
    rw [drain_writeTlv_last _ _ hwrap, decodeComponent, if_neg (by decide), if_pos rfl,
      readTlv_writeTlvInt _ hid, except_ok_bind]
    dsimp only
    rw [decodeInt_encodeInt_widen, except_ok_bind, readTlv_wrapConstructed hseq, except_ok_bind]
    dsimp only
    rw [readTlv_writeTlvInt _ hop, except_ok_bind]
    dsimp only
    rw [decodeInt_encodeInt_widen, except_ok_bind, narrow_widen, narrow_widen,
      MapOperation.ofByte_toByte, ← hc]
    exact decodeResultArgs_encodeArgs hc hargs
  case returnError =>
    simp only [encodeReturnError, except_bind_eq_ok] at hcomp
    obtain ⟨id, hid, code, hcode, hwrap⟩ := hcomp
    rw [drain_writeTlv_last _ _ hwrap, decodeComponent, if_neg (by decide), if_neg (by decide),
      if_pos rfl, readTlv_writeTlvInt _ hid, except_ok_bind]
    dsimp only
    rw [decodeInt_encodeInt_widen, except_ok_bind, readTlv_wrapConstructed hcode, except_ok_bind]
    dsimp only
    rw [decodeInt_encodeInt_widen, except_ok_bind, narrow_widen, narrow_widen]
    simp only [wireView, hc, except_pure]
  case reject => cases hcomp

/-- `map::decode` of what `map::encode` returns is the message's view. -/
theorem decode_of_encode {m : MapMessage} {b : Bytes}
    (hd : m.component = .invoke → Digits m.imsi) (h : encode m = .ok b) :
    decode b = .ok (wireView m) := by
  simp only [encode, except_bind_eq_ok] at h
  obtain ⟨args, hargs, comp, hcomp, portion, hportion, tid, htid, hb⟩ := h
  rw [decode, readTlv_wrapConstructed hb, except_ok_bind]
  dsimp only
  have htidField : decodeTcapField {} (if m.component = .invoke then kTcapTagOtid else kTcapTagDtid)
      (writeBE32 m.transactionId) = .ok { transactionId := m.transactionId } := by
    rw [decodeTcapField, if_pos (by split <;> simp), tidOfOctets_writeBE32]
  rw [drain_writeTlv _ _ _ htid, htidField, except_ok_bind, drain_writeTlv_last _ _ hportion,
    decodeTcapField, if_neg (by decide), if_pos rfl]
  exact decodeComponent_encodeComponent hd hargs hcomp

/-- The fields a PDU carries, each under its own name: the view, except that the two SGSN fields
of an UpdateGprsLocation are not filed by their position. -/
def wireProjection (m : MapMessage) : MapMessage :=
  match m.component, m.operation with
  | .invoke, .updateGprsLocation =>
      { wireHead m with
        imsi := m.imsi, sgsnNumber := m.sgsnNumber, sgsnAddress := m.sgsnAddress }
  | _, _ => wireView m

/-- The two differ only for an SGSN address that comes without an SGSN number. -/
theorem wireView_eq_wireProjection {m : MapMessage}
    (haddr : m.sgsnAddress ≠ none → m.sgsnNumber ≠ none) : wireView m = wireProjection m := by
  unfold wireProjection
  split
  · rename_i hinv hop
    rw [wireView, hinv, hop]
    dsimp only
    cases hnum : m.sgsnNumber with
    | some num => rfl
    | none =>
      have hnone : m.sgsnAddress = none := by
        by_contra hsome
        exact haddr hsome hnum
      rw [hnone]
      rfl
  · rfl

/-- The codec's round trip: whatever `map::encode` returns for a message with a decimal IMSI is
decoded to the fields that message's PDU carries, and to the defaults of all others. -/
theorem decode_encode_projection {m : MapMessage} {b : Bytes} (hdigits : Digits m.imsi)
    (haddr : m.sgsnAddress ≠ none → m.sgsnNumber ≠ none) (h : encode m = .ok b) :
    decode b = .ok (wireProjection m) := by
  rw [← wireView_eq_wireProjection haddr]
  exact decode_of_encode (fun _ => hdigits) h

/-- An UpdateGprsLocation with an SGSN number and an SGSN address. -/
def locationUpdate : MapMessage :=
  { transactionId := 7, invokeId := 200, operation := .updateGprsLocation, imsi := [0x31, 0x32]
    sgsnNumber := some [0x91, 0x94], sgsnAddress := some [] }

theorem locationUpdate_round_trip :
    ∃ b, encode locationUpdate = .ok b ∧ decode b = .ok locationUpdate :=
  ⟨_, rfl, decode_encode_projection (m := locationUpdate) (by decide +kernel) (by decide) rfl⟩

end GsupMapProxy.Map
