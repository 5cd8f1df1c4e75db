import GsupMapProxy.Gsup.Proofs.Bounds

/-!
# Lengths of the nested GSUP elements

`writeTlv` refuses a value that does not fit its length octet. `encodeAuthTuple` and
`encodePdpInfo` write several such values and then patch the number of octets they wrote into one
octet, without looking whether it fits.
-/

namespace GsupMapProxy.Gsup

open Misc

/-! ## Sizes -/

/-- The octets `writeTlv` takes for a value: the tag, the length and the value. -/
def tlvSize (val : Bytes) : Nat := 2 + val.length

/-- The octets of a value that may be left out. -/
def optTlvSize (o : Option Bytes) : Nat := (o.map tlvSize).getD 0

/-- The octets of an auth tuple behind its length octet. -/
def AuthTuple.bodySize (t : AuthTuple) : Nat :=
  tlvSize t.rand + tlvSize t.sres + tlvSize t.kc + optTlvSize t.ik + optTlvSize t.ck +
    optTlvSize t.autn + optTlvSize t.res

/-- The octets of a PDP context behind its length octet. -/
def PdpInfo.bodySize (p : PdpInfo) : Nat :=
  3 + (if p.pdpType.isSome then 4 else 0) + optTlvSize p.apn + optTlvSize p.pdpAddress +
    optTlvSize p.qos

theorem writeTlv_length {tag : IeTag} {val b : Bytes} (h : writeTlv tag val = .ok b) :
    b.length = tlvSize val := by
  unfold writeTlv at h
  split at h
  · cases h
  · cases h
    simp only [tlvSize, List.length_cons]
    omega

theorem writeOptTlv_length {tag : IeTag} {o : Option Bytes} {b : Bytes}
    (h : writeOptTlv tag o = .ok b) : b.length = optTlvSize o := by
  cases o with
  | none => cases h; rfl
  | some val => exact writeTlv_length h

theorem authTupleBody_length {t : AuthTuple} {body : Bytes} (h : authTupleBody t = .ok body) :
    body.length = t.bodySize := by
  simp only [authTupleBody, except_bind_eq_ok] at h
  obtain ⟨_, hrand, _, hsres, _, hkc, _, hik, _, hck, _, hautn, _, hres, h⟩ := h
  cases h
  simp only [List.length_append, AuthTuple.bodySize, writeTlv_length hrand,
    writeTlv_length hsres, writeTlv_length hkc, writeOptTlv_length hik, writeOptTlv_length hck,
    writeOptTlv_length hautn, writeOptTlv_length hres]
  omega

theorem pdpInfoBody_length {p : PdpInfo} {body : Bytes} (h : pdpInfoBody p = .ok body) :
    body.length = p.bodySize := by
  simp only [pdpInfoBody, except_bind_eq_ok] at h
  obtain ⟨_, htype, _, hapn, _, haddress, _, hqos, h⟩ := h
  cases h
  have hsize : optTlvSize (p.pdpType.map fun v : UInt16 =>
      [(v >>> 8).toUInt8, (v &&& 0xFF).toUInt8]) = if p.pdpType.isSome then 4 else 0 := by
    cases p.pdpType <;> rfl
  simp only [List.length_append, PdpInfo.bodySize, writeOptTlv_length htype, hsize,
    writeOptTlv_length hapn, writeOptTlv_length haddress, writeOptTlv_length hqos]
  simp only [writeTlv1, List.length_cons, List.length_nil]
  omega

/-! ## The elements in the message -/

/-- The length octet of the element says how many octets follow it. -/
def LengthMatches (ie : Bytes) : Prop :=
  ∃ tag len body, ie = tag :: len :: body ∧ len.toNat = body.length

theorem lengthMatches_of_small {tag : UInt8} {body : Bytes} (h : body.length ≤ 255) :
    LengthMatches (tag :: UInt8.ofNat body.length :: body) :=
  ⟨tag, _, body, rfl, toNat_ofNat_length h⟩

/-- `ie` stands somewhere in `b`. -/
def Within (ie b : Bytes) : Prop := ∃ before after, b = before ++ (ie ++ after)

theorem Within.append {ie b : Bytes} (h : Within ie b) (pre post : Bytes) :
    Within ie (pre ++ (b ++ post)) := by
  obtain ⟨before, after, rfl⟩ := h
  exact ⟨pre ++ before, after ++ post, by simp⟩

/-- Each element of the loop over a list is written, and it stands in what the loop writes. -/
theorem writeEach_within {α : Type} {write : α → Except Exn Bytes} {xs : List α} {b : Bytes}
    (h : writeEach write xs = .ok b) : ∀ x ∈ xs, ∃ ie, write x = .ok ie ∧ Within ie b := by
  induction xs generalizing b with
  | nil => simp
  | cons x xs ih =>
    obtain ⟨head, tail, hhead, htail, rfl⟩ := writeEach_cons.mp h
    rw [List.forall_mem_cons]
    refine ⟨⟨head, hhead, [], tail, rfl⟩, ?_⟩
    intro y hy
    obtain ⟨ie, hie, hwithin⟩ := ih htail y hy
    refine ⟨ie, hie, ?_⟩
    simpa using hwithin.append head []

/-- The nested elements of a message that is returned stand in it one by one. -/
theorem encode_nested {m : GsupMessage} {b : Bytes} (h : encode m = .ok b) :
    (∀ t ∈ m.authTuples, ∃ ie, encodeAuthTuple t = .ok ie ∧ Within ie b) ∧
      ∀ p ∈ m.pdpInfoList, ∃ ie, encodePdpInfo p = .ok ie ∧ Within ie b := by
  simp only [encode, except_bind_eq_ok] at h
  obtain ⟨imsi, -, tuples, htuples, msisdn, -, hlr, -, pdps, hpdps, h⟩ := h
  cases h
  constructor
  · intro t ht
    obtain ⟨ie, hie, hwithin⟩ := writeEach_within htuples t ht
    refine ⟨ie, hie, ?_⟩
    have hmessage := hwithin.append (m.type.toByte :: (imsi ++ (writeOptTlv1 .cause m.cause ++
      writeOptTlv1 .numVectorsReq m.numVectorsRequested)))
    simp only [List.cons_append, List.append_assoc] at hmessage
    exact hmessage _
  · intro p hp
    obtain ⟨ie, hie, hwithin⟩ := writeEach_within hpdps p hp
    refine ⟨ie, hie, ?_⟩
    have hmessage := hwithin.append (m.type.toByte :: (imsi ++ (writeOptTlv1 .cause m.cause ++
      (writeOptTlv1 .numVectorsReq m.numVectorsRequested ++ (tuples ++ (msisdn ++ (hlr ++
        writeFlag .pdpInfoComplete m.pdpInfoComplete)))))))
    simp only [List.cons_append, List.append_assoc] at hmessage
    exact hmessage _

/-! ## Who notices -/

/-- Every nested body fits its length octet. -/
def NestedFit (m : GsupMessage) : Prop :=
  (∀ t ∈ m.authTuples, t.bodySize ≤ 255) ∧ ∀ p ∈ m.pdpInfoList, p.bodySize ≤ 255

/-- A message with a nested body that is too large is refused, and in one that is returned the
length octet of every nested element is the size of its body. -/
structure FramesNested (m : GsupMessage) : Prop where
  refuses : ¬ NestedFit m → ∃ exn, encode m = .error exn
  authTuples : ∀ b, encode m = .ok b →
    ∀ t ∈ m.authTuples, ∃ ie, encodeAuthTuple t = .ok ie ∧ Within ie b ∧ LengthMatches ie
  pdpInfos : ∀ b, encode m = .ok b →
    ∀ p ∈ m.pdpInfoList, ∃ ie, encodePdpInfo p = .ok ie ∧ Within ie b ∧ LengthMatches ie

theorem encodeAuthTuple_lengthMatches {t : AuthTuple} {ie : Bytes} (hsize : t.bodySize ≤ 255)
    (h : encodeAuthTuple t = .ok ie) : LengthMatches ie := by
  obtain ⟨body, hbody, h⟩ := except_bind_eq_ok.mp h
  cases h
  exact lengthMatches_of_small (by rw [authTupleBody_length hbody]; exact hsize)

theorem encodePdpInfo_lengthMatches {p : PdpInfo} {ie : Bytes} (hsize : p.bodySize ≤ 255)
    (h : encodePdpInfo p = .ok ie) : LengthMatches ie := by
  obtain ⟨body, hbody, h⟩ := except_bind_eq_ok.mp h
  cases h
  exact lengthMatches_of_small (by rw [pdpInfoBody_length hbody]; exact hsize)

/-- `gsup::encode` frames the nested elements of a message if and only if their bodies fit or
something else about the message is refused. -/
theorem frames_nested_iff (m : GsupMessage) : FramesNested m ↔ (m.Fits → NestedFit m) := by
  constructor
  · intro h hfits
    by_contra hnested
    obtain ⟨b, hb⟩ := encode_succeeds.mpr hfits
    obtain ⟨exn, hexn⟩ := h.refuses hnested
    rw [hb] at hexn
    cases hexn
  · intro h
    have hok : ∀ b, encode m = .ok b → NestedFit m := fun b hb => h (encode_succeeds.mp ⟨b, hb⟩)
    refine ⟨?_, ?_, ?_⟩
    · intro hnested
      cases hm : encode m with
      | error exn => exact ⟨exn, rfl⟩
      | ok b => exact absurd (hok b hm) hnested
    · intro b hb t ht
      obtain ⟨ie, hie, hwithin⟩ := (encode_nested hb).1 t ht
      exact ⟨ie, hie, hwithin, encodeAuthTuple_lengthMatches ((hok b hb).1 t ht) hie⟩
    · intro b hb p hp
      obtain ⟨ie, hie, hwithin⟩ := (encode_nested hb).2 p hp
      exact ⟨ie, hie, hwithin, encodePdpInfo_lengthMatches ((hok b hb).2 p hp) hie⟩

/-- An auth tuple whose values of 200 and 100 octets fit, with a body of 306 octets. -/
def longTuple : AuthTuple where
  rand := List.replicate 200 0x11
  sres := List.replicate 100 0x22

/-- The message that carries it is returned, with a length octet of 50. -/
theorem longTuple_misframed :
    (∃ b, encode { type := .sendAuthInfoResult, authTuples := [longTuple] } = .ok b) ∧
      ¬ FramesNested { type := .sendAuthInfoResult, authTuples := [longTuple] } := by
  have hreturned :
      ∃ b, encode { type := .sendAuthInfoResult, authTuples := [longTuple] } = .ok b := by
    apply encode_succeeds.mpr
    refine ⟨⟨digits_nil, by simp⟩, ?_, by simp [Fits], by simp [Fits], by simp⟩
    rw [List.forall_mem_singleton]
    refine ⟨?_, ?_, by simp [longTuple], by simp [Fits, longTuple], by simp [Fits, longTuple],
      by simp [Fits, longTuple], by simp [Fits, longTuple]⟩
    · rw [longTuple, List.length_replicate]
      decide
    · rw [longTuple, List.length_replicate]
      decide
  refine ⟨hreturned, ?_⟩
  intro h
  have hsize : longTuple.bodySize = 306 := by
    rw [AuthTuple.bodySize, tlvSize, tlvSize, longTuple, List.length_replicate,
      List.length_replicate]
    rfl
  have hnested : ¬ NestedFit { type := .sendAuthInfoResult, authTuples := [longTuple] } := by
    rintro ⟨htuples, -⟩
    have hle := htuples longTuple (by simp)
    omega
  obtain ⟨b, hb⟩ := hreturned
  obtain ⟨exn, hexn⟩ := h.refuses hnested
  rw [hb] at hexn
  cases hexn

end GsupMapProxy.Gsup
