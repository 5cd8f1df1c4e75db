import GsupMapProxy.Gsup.Proofs.RoundTrip

/-!
# What the GSUP decoder yields and what the encoder accepts

The two sides do not meet: `gsup::decode` yields IMSIs of up to 510 digits, while
`gsup::encode` takes at most 15.
-/

namespace GsupMapProxy.Gsup

open Misc

/-! ## Decoded messages -/

/-- What the decoder guarantees of the fields the request path reads. -/
structure Decoded (m : GsupMessage) : Prop where
  digits : Digits m.imsi
  imsi_length : m.imsi.length ≤ 510
  msisdn_length : ∀ val ∈ m.msisdn, val.length ≤ 255

theorem decoded_empty (type : MessageType) : Decoded { type := type } where
  digits := digits_nil
  imsi_length := by simp
  msisdn_length := by simp

/-- The switch on the tag keeps `Decoded`: only two branches touch the fields it speaks of. -/
theorem decodeIeValue_decoded {msg msg' : GsupMessage} {tag : IeTag} {n : Nat}
    {r rest : BufferReader} (hn : n ≤ 255) (hm : Decoded msg)
    (h : decodeIeValue msg tag n r = .ok (msg', rest)) : Decoded msg' := by
  obtain ⟨hdigits, hlen, hmsisdn⟩ := hm
  cases tag <;> simp only [decodeIeValue, except_bind_eq_ok] at h
  case imsi =>
    obtain ⟨⟨bcd, r'⟩, hr, imsi, himsi, h⟩ := h
    cases h
    have hbcd := (readBytes_eq_ok hr).2
    have hle := unpackDigits_length himsi
    refine ⟨digits_of_unpackDigits himsi, ?_, hmsisdn⟩
    simp only at hbcd hle ⊢
    omega
  case msisdn =>
    obtain ⟨⟨val, r'⟩, hr, h⟩ := h
    cases h
    refine ⟨hdigits, hlen, ?_⟩
    intro val' hval
    cases hval
    rw [(readBytes_eq_ok hr).2]
    exact hn
  case authTuple | pdpInfo =>
    obtain ⟨_, _, _, _, h⟩ := h
    cases h
    exact ⟨hdigits, hlen, hmsisdn⟩
  all_goals
    obtain ⟨_, _, h⟩ := h
    cases h
    exact ⟨hdigits, hlen, hmsisdn⟩

theorem decodeIe_decoded {msg msg' : GsupMessage} {r rest : BufferReader} (hm : Decoded msg)
    (h : decodeIe msg r = .ok (msg', rest)) : Decoded msg' := by
  unfold decodeIe at h
  split at h
  · cases h
  · simp only [except_bind_eq_ok] at h
    obtain ⟨⟨tag, r1⟩, -, ⟨ieLen, r2⟩, -, h⟩ := h
    dsimp only at h
    split at h
    · cases h
    · have hlt := ieLen.toNat_lt
      exact decodeIeValue_decoded (by omega) hm h

/-- Whatever the payload, a decoded message has a decimal IMSI and bounded fields. -/
theorem decoded_of_decode {payload : Bytes} {m : GsupMessage} (h : decode payload = .ok m) :
    Decoded m := by
  unfold decode at h
  split at h
  · cases h
  · rw [except_bind_eq_ok] at h
    obtain ⟨⟨type, r⟩, -, h⟩ := h
    exact drain_invariant decodeIe_consuming Decoded (fun _ _ _ _ hm hs => decodeIe_decoded hm hs)
      r.length r _ _ (Nat.le_refl _) (decoded_empty _) h

/-! ## Encodable messages -/

/-- An IMSI the encoder takes; the empty one is left out of the message. -/
def ShortImsi (imsi : Str) : Prop := Digits imsi ∧ imsi.length ≤ 15

instance (imsi : Str) : Decidable (ShortImsi imsi) := inferInstanceAs (Decidable (_ ∧ _))

/-- An optional value that fits a one-octet length. -/
def Fits (o : Option Bytes) : Prop := ∀ val ∈ o, val.length ≤ 255

/-- Every field of the tuple fits a one-octet length. -/
def AuthTuple.Fits (t : AuthTuple) : Prop :=
  t.rand.length ≤ 255 ∧ t.sres.length ≤ 255 ∧ t.kc.length ≤ 255 ∧
    Gsup.Fits t.ik ∧ Gsup.Fits t.ck ∧ Gsup.Fits t.autn ∧ Gsup.Fits t.res

/-- Every field of the PDP context fits a one-octet length. -/
def PdpInfo.Fits (p : PdpInfo) : Prop :=
  Gsup.Fits p.apn ∧ Gsup.Fits p.pdpAddress ∧ Gsup.Fits p.qos

theorem writeTlv_succeeds (tag : IeTag) (val : Bytes) :
    (∃ b, writeTlv tag val = .ok b) ↔ val.length ≤ 255 := by
  unfold writeTlv
  split
  · simp only [reduceCtorEq, exists_false, false_iff]
    omega
  · simp only [Except.ok.injEq, exists_eq', true_iff]
    omega

theorem writeOptTlv_succeeds (tag : IeTag) (o : Option Bytes) :
    (∃ b, writeOptTlv tag o = .ok b) ↔ Fits o := by
  cases o with
  | none => simp [writeOptTlv, Fits]
  | some val => simp [writeOptTlv, Fits, writeTlv_succeeds]

theorem writeEach_succeeds {α : Type} {write : α → Except Exn Bytes} {xs : List α} :
    (∃ b, writeEach write xs = .ok b) ↔ ∀ x ∈ xs, ∃ b, write x = .ok b := by
  induction xs with
  | nil => simp [writeEach]
  | cons x xs ih =>
    rw [List.forall_mem_cons, ← ih]
    constructor
    · rintro ⟨b, h⟩
      obtain ⟨head, tail, hhead, htail, -⟩ := writeEach_cons.mp h
      exact ⟨⟨head, hhead⟩, ⟨tail, htail⟩⟩
    · rintro ⟨⟨head, hhead⟩, ⟨tail, htail⟩⟩
      exact ⟨head ++ tail, writeEach_cons.mpr ⟨head, tail, hhead, htail, rfl⟩⟩

theorem encodeAuthTuple_succeeds {t : AuthTuple} :
    (∃ b, encodeAuthTuple t = .ok b) ↔ t.Fits := by
  simp only [AuthTuple.Fits, ← writeTlv_succeeds .rand t.rand, ← writeTlv_succeeds .sres t.sres,
    ← writeTlv_succeeds .kc t.kc, ← writeOptTlv_succeeds .ik t.ik,
    ← writeOptTlv_succeeds .ck t.ck, ← writeOptTlv_succeeds .autn t.autn,
    ← writeOptTlv_succeeds .res t.res, encodeAuthTuple, authTupleBody, except_bind_eq_ok]
  constructor
  · rintro ⟨_, _, ⟨r, hr, s, hs, k, hk, ik, hik, ck, hck, au, hau, re, hre, -⟩, -⟩
    exact ⟨⟨r, hr⟩, ⟨s, hs⟩, ⟨k, hk⟩, ⟨ik, hik⟩, ⟨ck, hck⟩, ⟨au, hau⟩, ⟨re, hre⟩⟩
  · rintro ⟨⟨r, hr⟩, ⟨s, hs⟩, ⟨k, hk⟩, ⟨ik, hik⟩, ⟨ck, hck⟩, ⟨au, hau⟩, ⟨re, hre⟩⟩
    exact ⟨_, _, ⟨r, hr, s, hs, k, hk, ik, hik, ck, hck, au, hau, re, hre, rfl⟩, rfl⟩

theorem encodePdpInfo_succeeds {p : PdpInfo} :
    (∃ b, encodePdpInfo p = .ok b) ↔ p.Fits := by
  have htype : ∃ b, writeOptTlv .pdpType
      (p.pdpType.map fun v : UInt16 => [(v >>> 8).toUInt8, (v &&& 0xFF).toUInt8]) = .ok b := by
    rw [writeOptTlv_succeeds]
    intro val hval
    obtain ⟨v, -, rfl⟩ := Option.map_eq_some_iff.mp hval
    simp
  simp only [PdpInfo.Fits, ← writeOptTlv_succeeds .accessPointName p.apn,
    ← writeOptTlv_succeeds .pdpAddress p.pdpAddress, ← writeOptTlv_succeeds .pdpQos p.qos,
    encodePdpInfo, pdpInfoBody, except_bind_eq_ok]
  constructor
  · rintro ⟨_, _, ⟨ty, -, apn, hapn, ad, had, qos, hqos, -⟩, -⟩
    exact ⟨⟨apn, hapn⟩, ⟨ad, had⟩, ⟨qos, hqos⟩⟩
  · rintro ⟨⟨apn, hapn⟩, ⟨ad, had⟩, ⟨qos, hqos⟩⟩
    obtain ⟨ty, hty⟩ := htype
    exact ⟨_, _, ⟨ty, hty, apn, hapn, ad, had, qos, hqos, rfl⟩, rfl⟩

theorem imsiToBcd_of_shortImsi {imsi : Str} (hne : imsi ≠ []) (h : ShortImsi imsi) :
    imsiToBcd imsi = .ok (packDigits imsi) := by
  obtain ⟨hdigits, hlen⟩ := h
  have hrange : ¬ ∃ c ∈ imsi, c < 0x30 ∨ c > 0x39 := by
    rintro ⟨c, hc, hlt | hgt⟩
    · exact absurd (hdigits c hc).1 (UInt8.not_le.mpr hlt)
    · exact absurd (hdigits c hc).2 (UInt8.not_le.mpr hgt)
  rw [imsiToBcd, if_neg (by simp [hne]; omega), if_neg hrange]

theorem writeImsi_succeeds {imsi : Str} : (∃ b, writeImsi imsi = .ok b) ↔ ShortImsi imsi := by
  by_cases hne : imsi = []
  · subst hne
    simp [writeImsi, ShortImsi, digits_nil]
  · rw [writeImsi, if_neg hne]
    constructor
    · rintro ⟨b, h⟩
      obtain ⟨bcd, hbcd, -⟩ := except_bind_eq_ok.mp h
      obtain ⟨-, hdigits, -, hlen⟩ := imsiToBcd_eq_ok hbcd
      exact ⟨hdigits, hlen⟩
    · intro h
      rw [imsiToBcd_of_shortImsi hne h, except_ok_bind]
      apply (writeTlv_succeeds _ _).mpr
      rw [packDigits_length]
      have := h.2
      omega

/-- Every field the encoder checks fits: the IMSI its digits, the others a one-octet length. -/
structure GsupMessage.Fits (m : GsupMessage) : Prop where
  imsi : ShortImsi m.imsi
  authTuples : ∀ t ∈ m.authTuples, t.Fits
  msisdn : Gsup.Fits m.msisdn
  hlrNumber : Gsup.Fits m.hlrNumber
  pdpInfos : ∀ p ∈ m.pdpInfoList, p.Fits

/-- The messages `gsup::encode` accepts. -/
theorem encode_succeeds {m : GsupMessage} : (∃ b, encode m = .ok b) ↔ m.Fits := by
  have htuples : (∀ t ∈ m.authTuples, t.Fits) ↔
      ∃ b, writeEach encodeAuthTuple m.authTuples = .ok b := by
    rw [writeEach_succeeds]
    exact forall₂_congr fun _ _ => encodeAuthTuple_succeeds.symm
  have hpdps : (∀ p ∈ m.pdpInfoList, p.Fits) ↔
      ∃ b, writeEach encodePdpInfo m.pdpInfoList = .ok b := by
    rw [writeEach_succeeds]
    exact forall₂_congr fun _ _ => encodePdpInfo_succeeds.symm
  simp only [encode, except_bind_eq_ok]
  constructor
  · rintro ⟨_, i, hi, t, ht, ms, hms, hl, hhl, ps, hps, -⟩
    exact ⟨writeImsi_succeeds.mp ⟨i, hi⟩, htuples.mpr ⟨t, ht⟩,
      (writeOptTlv_succeeds _ _).mp ⟨ms, hms⟩, (writeOptTlv_succeeds _ _).mp ⟨hl, hhl⟩,
      hpdps.mpr ⟨ps, hps⟩⟩
  · intro h
    obtain ⟨i, hi⟩ := writeImsi_succeeds.mpr h.imsi
    obtain ⟨t, ht⟩ := htuples.mp h.authTuples
    obtain ⟨ms, hms⟩ := (writeOptTlv_succeeds .msisdn _).mpr h.msisdn
    obtain ⟨hl, hhl⟩ := (writeOptTlv_succeeds .hlrNumber _).mpr h.hlrNumber
    obtain ⟨ps, hps⟩ := hpdps.mp h.pdpInfos
    exact ⟨_, i, hi, t, ht, ms, hms, hl, hhl, ps, hps, rfl⟩

/-- The first octet of an encoded message is its type. -/
theorem encode_type {m : GsupMessage} {b : Bytes} (h : encode m = .ok b) :
    b.head?.map MessageType.ofByte = some m.type := by
  simp only [encode, except_bind_eq_ok] at h
  obtain ⟨_, _, _, _, _, _, _, _, _, _, hb⟩ := h
  cases hb
  simp

end GsupMapProxy.Gsup
