import GsupMapProxy.Gsup.Codec
import GsupMapProxy.Misc.BigEndian

/-!
# GSUP round trip

Each element `gsup::encode` writes is read back by one turn of a decoder loop, which stops
exactly behind it; the round trip of a whole message chains these facts over the elements in
the order the encoder writes them. The one-octet length of a nested element is the only
length that is not checked, so the bound on those bodies is a hypothesis here.
-/

namespace GsupMapProxy.Gsup

open Misc

/-! ## One element -/

theorem toNat_ofNat_length {val : Bytes} (h : val.length ≤ 255) :
    (UInt8.ofNat val.length).toNat = val.length := by
  rw [UInt8.toNat_ofNat']
  omega

theorem readBytes_length {n : Nat} {r rest : BufferReader} {bs : Bytes}
    (h : readBytes n r = .ok (bs, rest)) : rest.length ≤ r.length := by
  obtain ⟨rfl, -⟩ := readBytes_eq_ok h
  simp

theorem read8_length {r rest : BufferReader} {b : UInt8} (h : read8 r = .ok (b, rest)) :
    rest.length + 1 = r.length := by
  rw [read8_eq_ok.mp h]
  simp

theorem readSubIe_append {tag : IeTag} {val : Bytes} (rest : Bytes) (h : val.length ≤ 255) :
    readSubIe (tag.toByte :: UInt8.ofNat val.length :: (val ++ rest)) = .ok ((tag, val), rest) := by
  simp only [readSubIe, read8_cons, except_ok_bind, toNat_ofNat_length h, readBytes_append rfl,
    except_pure, IeTag.ofByte_toByte]

theorem subIeTurn_consuming {σ : Type} (set : σ → IeTag → Bytes → σ) :
    Consuming (subIeTurn set) := by
  intro s x xs s' rest h
  simp only [subIeTurn, readSubIe, read8_cons, except_ok_bind, except_bind_eq_ok] at h
  obtain ⟨p, ⟨q, hq, v, hv, hp⟩, hs⟩ := h
  cases hp
  cases hs
  have h1 := read8_length hq
  have h2 := readBytes_length hv
  simp only at h2 ⊢
  omega

/-- One sub-element is read off the front of a nested body. -/
theorem drain_sub_writeTlv {σ : Type} (set : σ → IeTag → Bytes → σ) {tag : IeTag}
    {val b : Bytes} (s : σ) (rest : Bytes) (h : writeTlv tag val = .ok b) :
    drain (subIeTurn set) s (b ++ rest) = drain (subIeTurn set) (set s tag val) rest := by
  unfold writeTlv at h
  split at h
  · cases h
  · rename_i hlen
    cases h
    apply drain_append (subIeTurn_consuming set) (by simp)
    simp only [subIeTurn, List.cons_append, readSubIe_append rest (show val.length ≤ 255 by omega),
      except_ok_bind, except_pure]

theorem drain_sub_writeOptTlv {σ : Type} (set : σ → IeTag → Bytes → σ) {tag : IeTag}
    {o : Option Bytes} {b : Bytes} (s : σ) (rest : Bytes) (h : writeOptTlv tag o = .ok b) :
    drain (subIeTurn set) s (b ++ rest) =
      drain (subIeTurn set) (o.elim s (set s tag)) rest := by
  cases o with
  | none => cases h; rfl
  | some val => exact drain_sub_writeTlv set s rest h

theorem drain_sub_nil_append {σ : Type} (set : σ → IeTag → Bytes → σ) {tag : IeTag}
    {o : Option Bytes} {b : Bytes} (s : σ) (h : writeOptTlv tag o = .ok b) :
    drain (subIeTurn set) s b = .ok (o.elim s (set s tag)) := by
  have := drain_sub_writeOptTlv set s [] h
  simpa using this

/-! ## Nested elements -/

/-- `decodeAuthTuple` inverts the body `encodeAuthTuple` writes. -/
theorem decodeAuthTuple_body {t : AuthTuple} {body : Bytes} (h : authTupleBody t = .ok body) :
    decodeAuthTuple body = .ok t := by
  simp only [authTupleBody, except_bind_eq_ok] at h
  obtain ⟨rand, hrand, sres, hsres, kc, hkc, ik, hik, ck, hck, autn, hautn, res, hres, hb⟩ := h
  cases hb
  rw [decodeAuthTuple, drain_sub_writeTlv _ _ _ hrand, drain_sub_writeTlv _ _ _ hsres,
    drain_sub_writeTlv _ _ _ hkc, drain_sub_writeOptTlv _ _ _ hik,
    drain_sub_writeOptTlv _ _ _ hck, drain_sub_writeOptTlv _ _ _ hautn,
    drain_sub_nil_append _ _ hres]
  obtain ⟨rand, sres, kc, ik, ck, autn, res⟩ := t
  -- the seven updates hit seven different fields, so they rebuild the tuple
  cases ik <;> cases ck <;> cases autn <;> cases res <;> rfl

/-- `decodePdpInfo` inverts the body `encodePdpInfo` writes. -/
theorem decodePdpInfo_body {p : PdpInfo} {body : Bytes} (h : pdpInfoBody p = .ok body) :
    decodePdpInfo body = .ok p := by
  simp only [pdpInfoBody, except_bind_eq_ok] at h
  obtain ⟨pdpType, htype, apn, hapn, addr, haddr, qos, hqos, hb⟩ := h
  cases hb
  have hctx : writeTlv IeTag.pdpContextId [p.contextId] =
      .ok (writeTlv1 IeTag.pdpContextId p.contextId) := rfl
  rw [decodePdpInfo, drain_sub_writeTlv _ _ _ hctx, drain_sub_writeOptTlv _ _ _ htype,
    drain_sub_writeOptTlv _ _ _ hapn, drain_sub_writeOptTlv _ _ _ haddr,
    drain_sub_nil_append _ _ hqos]
  obtain ⟨contextId, pdpType, apn, addr, qos⟩ := p
  cases pdpType with
  | none => cases apn <;> cases addr <;> cases qos <;> rfl
  | some v =>
    have hv : ∀ q : PdpInfo, setPdpInfoIe q IeTag.pdpType
        [(v >>> 8).toUInt8, (v &&& 0xFF).toUInt8] = { q with pdpType := some v } := by
      intro q
      simp only [setPdpInfoIe, uint16_split_join]
    simp only [Option.map_some, Option.elim_some, hv]
    cases apn <;> cases addr <;> cases qos <;> rfl

/-! ## Top-level elements -/

/-- An element that is not empty is read as a Cause is. -/
theorem readOctetIe_of_pos {n : Nat} (h : n ≥ 1) (r : BufferReader) :
    readOctetIe n r = (readCauseIe n r >>= fun p => .ok (some p.1, p.2)) := by
  rw [readOctetIe, if_pos h, readCauseIe]
  cases read8 r with
  | error e => rfl
  | ok p =>
    simp only [except_ok_bind]
    split
    · cases readBytes (n - 1) p.2 <;> rfl
    · rfl

theorem readCauseIe_length {n : Nat} {r rest : BufferReader} {b : UInt8}
    (h : readCauseIe n r = .ok (b, rest)) : rest.length ≤ r.length := by
  simp only [readCauseIe, except_bind_eq_ok] at h
  obtain ⟨p, hp, h⟩ := h
  have hp' := read8_length hp
  split at h
  · simp only [except_bind_eq_ok] at h
    obtain ⟨q, hq, hr⟩ := h
    cases hr
    have := readBytes_length hq
    omega
  · cases h
    omega

theorem readOctetIe_length {n : Nat} {r rest : BufferReader} {b : Option UInt8}
    (h : readOctetIe n r = .ok (b, rest)) : rest.length ≤ r.length := by
  by_cases hn : n ≥ 1
  · rw [readOctetIe_of_pos hn] at h
    obtain ⟨p, hp, h⟩ := except_bind_eq_ok.mp h
    cases h
    exact readCauseIe_length hp
  · rw [readOctetIe, if_neg hn] at h
    cases h
    exact Nat.le_refl _

/-- The switch never gives bytes back. -/
theorem decodeIeValue_length {msg msg' : GsupMessage} {tag : IeTag} {n : Nat}
    {r rest : BufferReader} (h : decodeIeValue msg tag n r = .ok (msg', rest)) :
    rest.length ≤ r.length := by
  cases tag <;> simp only [decodeIeValue, except_bind_eq_ok] at h
  case imsi =>
    obtain ⟨p, hp, _, _, hr⟩ := h
    cases hr; exact readBytes_length hp
  case cause =>
    obtain ⟨p, hp, hr⟩ := h
    cases hr; exact readCauseIe_length hp
  case authTuple | pdpInfo =>
    obtain ⟨p, hp, _, _, hr⟩ := h
    cases hr; exact readBytes_length hp
  case cancelType | numVectorsReq | cnDomain =>
    obtain ⟨p, hp, hr⟩ := h
    cases hr; exact readOctetIe_length hp
  all_goals
    obtain ⟨p, hp, hr⟩ := h
    cases hr; exact readBytes_length hp

theorem decodeIe_consuming : Consuming decodeIe := by
  intro msg x xs msg' rest h
  unfold decodeIe at h
  split at h
  · cases h
  · simp only [read8_cons, except_ok_bind, except_bind_eq_ok] at h
    obtain ⟨p, hp, h⟩ := h
    have hp' := read8_length hp
    split at h
    · cases h
    · have := decodeIeValue_length h
      omega

/-- A turn over an element with its full value in front is the switch on its tag. -/
theorem decodeIe_octets {msg : GsupMessage} {tag : UInt8} {val : Bytes} (rest : Bytes)
    (h : val.length ≤ 255) :
    decodeIe msg (tag :: UInt8.ofNat val.length :: (val ++ rest)) =
      decodeIeValue msg (IeTag.ofByte tag) val.length (val ++ rest) := by
  have hlen : ¬ (tag :: UInt8.ofNat val.length :: (val ++ rest)).length < 2 := by simp
  have hval : ¬ (val ++ rest).length < val.length := by simp
  simp only [decodeIe, if_neg hlen, read8_cons, except_ok_bind, toNat_ofNat_length h, if_neg hval]

theorem decodeIe_element {msg : GsupMessage} {tag : IeTag} {val : Bytes} (rest : Bytes)
    (h : val.length ≤ 255) :
    decodeIe msg (tag.toByte :: UInt8.ofNat val.length :: (val ++ rest)) =
      decodeIeValue msg tag val.length (val ++ rest) := by
  rw [decodeIe_octets rest h, IeTag.ofByte_toByte]

/-- An element whose switch branch turns `msg` into `msg'` and stops behind the value is read
off the front of the payload. -/
theorem drain_element {msg msg' : GsupMessage} {tag : IeTag} {val : Bytes} (rest : Bytes)
    (hlen : val.length ≤ 255)
    (h : decodeIeValue msg tag val.length (val ++ rest) = .ok (msg', rest)) :
    drain decodeIe msg (tag.toByte :: UInt8.ofNat val.length :: val ++ rest) =
      drain decodeIe msg' rest := by
  apply drain_append decodeIe_consuming (by simp)
  rw [List.cons_append, List.cons_append, decodeIe_element rest hlen, h]

/-! ## The fields in the order the encoder writes them

Each lemma reads one field back into a message that does not have it yet. -/

section Fields

variable {msg : GsupMessage} {b : Bytes} (rest : Bytes)

theorem imsiToBcd_eq_ok {imsi : Str} (h : imsiToBcd imsi = .ok b) :
    b = packDigits imsi ∧ Digits imsi ∧ imsi ≠ [] ∧ imsi.length ≤ 15 := by
  unfold imsiToBcd at h
  split at h
  · cases h
  · rename_i hlen
    split at h
    · cases h
    · rename_i hdigits
      cases h
      push Not at hlen hdigits
      refine ⟨rfl, ?_, hlen.1, hlen.2⟩
      intro c hc
      obtain ⟨h1, h2⟩ := hdigits c hc
      exact ⟨UInt8.not_lt.mp h1, UInt8.not_lt.mp h2⟩

theorem drain_writeImsi {imsi : Str} (hnone : msg.imsi = []) (h : writeImsi imsi = .ok b) :
    drain decodeIe msg (b ++ rest) = drain decodeIe { msg with imsi := imsi } rest := by
  unfold writeImsi at h
  split at h
  · rename_i hempty
    cases h
    subst hempty
    rw [List.nil_append, ← hnone]
  · obtain ⟨bcd, hbcd, hb⟩ := except_bind_eq_ok.mp h
    obtain ⟨rfl, hdigits, -, hlen⟩ := imsiToBcd_eq_ok hbcd
    have hsize : (packDigits imsi).length ≤ 255 := by
      rw [packDigits_length]
      omega
    rw [writeTlv, if_neg (by omega)] at hb
    cases hb
    apply drain_element rest hsize
    simp only [decodeIeValue, readBytes_append rfl, except_ok_bind, bcdToImsi,
      unpackDigits_packDigits _ _ hdigits, except_pure]

theorem drain_writeOptTlv {tag : IeTag} {o : Option Bytes} {f : Option Bytes → GsupMessage}
    (hnone : f none = msg)
    (hsome : ∀ val, decodeIeValue msg tag val.length (val ++ rest) = .ok (f (some val), rest))
    (h : writeOptTlv tag o = .ok b) :
    drain decodeIe msg (b ++ rest) = drain decodeIe (f o) rest := by
  cases o with
  | none => cases h; rw [hnone]; rfl
  | some val =>
    rw [writeOptTlv, writeTlv] at h
    split at h
    · cases h
    · cases h
      exact drain_element rest (by omega) (hsome val)

theorem drain_writeOptTlv1 {tag : IeTag} (o : Option UInt8) {f : Option UInt8 → GsupMessage}
    (hnone : f none = msg)
    (hsome : ∀ val, decodeIeValue msg tag 1 ([val] ++ rest) = .ok (f (some val), rest)) :
    drain decodeIe msg (writeOptTlv1 tag o ++ rest) = drain decodeIe (f o) rest := by
  cases o with
  | none => rw [hnone]; rfl
  | some val => exact drain_element rest (show [val].length ≤ 255 by simp) (hsome val)

theorem drain_writeFlag {tag : IeTag} (flag : Bool) {f : Bool → GsupMessage}
    (hfalse : f false = msg)
    (htrue : decodeIeValue msg tag 0 rest = .ok (f true, rest)) :
    drain decodeIe msg (writeFlag tag flag ++ rest) = drain decodeIe (f flag) rest := by
  cases flag with
  | false => rw [hfalse]; rfl
  | true => exact drain_element rest (show ([] : Bytes).length ≤ 255 by simp) htrue

theorem readBytes_zero (r : BufferReader) : readBytes 0 r = .ok ([], r) := rfl

theorem readOctetIe_one (v : UInt8) : readOctetIe 1 ([v] ++ rest) = .ok (some v, rest) := rfl

theorem readCauseIe_one (v : UInt8) : readCauseIe 1 ([v] ++ rest) = .ok (v, rest) := rfl

/-- A list of nested elements, one decoder turn each. `body` is what the encoder writes into
the element and `set` what the decoder does with what it reads there. -/
theorem drain_writeEach {α : Type} {tag : IeTag} {body : α → Except Exn Bytes}
    {encodeOne : α → Except Exn Bytes} {set : GsupMessage → α → GsupMessage}
    (hencode : ∀ x, encodeOne x =
      (body x >>= fun bs => .ok (tag.toByte :: UInt8.ofNat bs.length :: bs)))
    (hset : ∀ msg x bs rest, body x = .ok bs →
      decodeIeValue msg tag bs.length (bs ++ rest) = .ok (set msg x, rest)) :
    ∀ (xs : List α) (msg : GsupMessage) (b : Bytes), writeEach encodeOne xs = .ok b →
      (∀ x ∈ xs, ∀ bs, body x = .ok bs → bs.length ≤ 255) →
      drain decodeIe msg (b ++ rest) = drain decodeIe (xs.foldl set msg) rest := by
  intro xs
  induction xs with
  | nil => intro msg b h _; cases h; rfl
  | cons x xs ih =>
    intro msg b h hsmall
    obtain ⟨head, tail, hhead, htail, rfl⟩ := writeEach_cons.mp h
    rw [hencode x, except_bind_eq_ok] at hhead
    obtain ⟨bs, hbs, hhead⟩ := hhead
    cases hhead
    rw [List.append_assoc, drain_element _ (hsmall x (by simp) bs hbs) (hset msg x bs _ hbs)]
    exact ih _ _ htail (fun y hy => hsmall y (by simp [hy]))

theorem drain_cause (hnone : msg.cause = none) (o : Option UInt8) :
    drain decodeIe msg (writeOptTlv1 .cause o ++ rest) =
      drain decodeIe { msg with cause := o } rest :=
  drain_writeOptTlv1 rest o (f := fun o => { msg with cause := o }) (by rw [← hnone])
    (fun v => by simp only [decodeIeValue, readCauseIe_one, except_ok_bind, except_pure])

theorem drain_numVectors (hnone : msg.numVectorsRequested = none) (o : Option UInt8) :
    drain decodeIe msg (writeOptTlv1 .numVectorsReq o ++ rest) =
      drain decodeIe { msg with numVectorsRequested := o } rest :=
  drain_writeOptTlv1 rest o (f := fun o => { msg with numVectorsRequested := o })
    (by rw [← hnone])
    (fun v => by simp only [decodeIeValue, readOctetIe_one, except_ok_bind, except_pure,
      Option.some_or])

theorem drain_cancelType (hnone : msg.cancelType = none) (o : Option UInt8) :
    drain decodeIe msg (writeOptTlv1 .cancelType o ++ rest) =
      drain decodeIe { msg with cancelType := o } rest :=
  drain_writeOptTlv1 rest o (f := fun o => { msg with cancelType := o }) (by rw [← hnone])
    (fun v => by simp only [decodeIeValue, readOctetIe_one, except_ok_bind, except_pure,
      Option.some_or])

theorem drain_cnDomain (hnone : msg.cnDomain = none) (o : Option UInt8) :
    drain decodeIe msg (writeOptTlv1 .cnDomain o ++ rest) =
      drain decodeIe { msg with cnDomain := o } rest :=
  drain_writeOptTlv1 rest o (f := fun o => { msg with cnDomain := o }) (by rw [← hnone])
    (fun v => by simp only [decodeIeValue, readOctetIe_one, except_ok_bind, except_pure,
      Option.some_or])

theorem drain_msisdn (hnone : msg.msisdn = none) {o : Option Bytes}
    (h : writeOptTlv .msisdn o = .ok b) :
    drain decodeIe msg (b ++ rest) = drain decodeIe { msg with msisdn := o } rest :=
  drain_writeOptTlv rest (f := fun o => { msg with msisdn := o }) (by rw [← hnone])
    (fun v => by simp only [decodeIeValue, readBytes_append rfl, except_ok_bind, except_pure]) h

theorem drain_hlrNumber (hnone : msg.hlrNumber = none) {o : Option Bytes}
    (h : writeOptTlv .hlrNumber o = .ok b) :
    drain decodeIe msg (b ++ rest) = drain decodeIe { msg with hlrNumber := o } rest :=
  drain_writeOptTlv rest (f := fun o => { msg with hlrNumber := o }) (by rw [← hnone])
    (fun v => by simp only [decodeIeValue, readBytes_append rfl, except_ok_bind, except_pure]) h

theorem drain_pdpInfoComplete (hnone : msg.pdpInfoComplete = false) (flag : Bool) :
    drain decodeIe msg (writeFlag .pdpInfoComplete flag ++ rest) =
      drain decodeIe { msg with pdpInfoComplete := flag } rest :=
  drain_writeFlag rest flag (f := fun o => { msg with pdpInfoComplete := o }) (by rw [← hnone])
    (by simp only [decodeIeValue, readBytes_zero, except_ok_bind, except_pure])

theorem drain_freezePtmsi (hnone : msg.freezePtmsi = false) (flag : Bool) :
    drain decodeIe msg (writeFlag .freezePtmsi flag ++ rest) =
      drain decodeIe { msg with freezePtmsi := flag } rest :=
  drain_writeFlag rest flag (f := fun o => { msg with freezePtmsi := o }) (by rw [← hnone])
    (by simp only [decodeIeValue, readBytes_zero, except_ok_bind, except_pure])

theorem foldl_authTuples (ts : List AuthTuple) (msg : GsupMessage) :
    ts.foldl (fun m t => { m with authTuples := m.authTuples ++ [t] }) msg =
      { msg with authTuples := msg.authTuples ++ ts } := by
  induction ts generalizing msg with
  | nil => simp
  | cons t ts ih => rw [List.foldl_cons, ih]; simp

theorem drain_authTuples (hnone : msg.authTuples = []) {ts : List AuthTuple}
    (h : writeEach encodeAuthTuple ts = .ok b)
    (hsmall : ∀ t ∈ ts, ∀ bs, authTupleBody t = .ok bs → bs.length ≤ 255) :
    drain decodeIe msg (b ++ rest) = drain decodeIe { msg with authTuples := ts } rest := by
  have hset : ∀ (msg : GsupMessage) t bs rest, authTupleBody t = .ok bs →
      decodeIeValue msg .authTuple bs.length (bs ++ rest) =
        .ok ({ msg with authTuples := msg.authTuples ++ [t] }, rest) := by
    intro msg t bs rest hbs
    simp only [decodeIeValue, readBytes_append rfl, except_ok_bind, decodeAuthTuple_body hbs,
      except_pure]
  rw [drain_writeEach rest (fun _ => rfl) hset ts msg b h hsmall, foldl_authTuples, hnone,
    List.nil_append]

theorem foldl_pdpInfos (ps : List PdpInfo) (msg : GsupMessage) :
    ps.foldl (fun m p => { m with pdpInfoList := m.pdpInfoList ++ [p] }) msg =
      { msg with pdpInfoList := msg.pdpInfoList ++ ps } := by
  induction ps generalizing msg with
  | nil => simp
  | cons p ps ih => rw [List.foldl_cons, ih]; simp

theorem drain_pdpInfos (hnone : msg.pdpInfoList = []) {ps : List PdpInfo}
    (h : writeEach encodePdpInfo ps = .ok b)
    (hsmall : ∀ p ∈ ps, ∀ bs, pdpInfoBody p = .ok bs → bs.length ≤ 255) :
    drain decodeIe msg (b ++ rest) = drain decodeIe { msg with pdpInfoList := ps } rest := by
  have hset : ∀ (msg : GsupMessage) p bs rest, pdpInfoBody p = .ok bs →
      decodeIeValue msg .pdpInfo bs.length (bs ++ rest) =
        .ok ({ msg with pdpInfoList := msg.pdpInfoList ++ [p] }, rest) := by
    intro msg p bs rest hbs
    simp only [decodeIeValue, readBytes_append rfl, except_ok_bind, decodePdpInfo_body hbs,
      except_pure]
  rw [drain_writeEach rest (fun _ => rfl) hset ps msg b h hsmall, foldl_pdpInfos, hnone,
    List.nil_append]

end Fields

/-- Every nested body of `m` fits the one-octet length that is patched in front of it. -/
def SmallBodies (m : GsupMessage) : Prop :=
  (∀ t ∈ m.authTuples, ∀ bs, authTupleBody t = .ok bs → bs.length ≤ 255) ∧
    ∀ p ∈ m.pdpInfoList, ∀ bs, pdpInfoBody p = .ok bs → bs.length ≤ 255

/-- `gsup::decode` gives back every message `gsup::encode` accepts, up to the field
`freezePtmsiResult`, which has no element on the wire. -/
theorem decode_of_encode {m : GsupMessage} {b : Bytes} (h : encode m = .ok b)
    (hsmall : SmallBodies m) :
    decode b = .ok { m with freezePtmsiResult := false } := by
  simp only [encode, except_bind_eq_ok] at h
  obtain ⟨imsi, himsi, tuples, htuples, msisdn, hmsisdn, hlr, hhlr, pdps, hpdps, hb⟩ := h
  cases hb
  simp only [decode, List.length_cons, read8_cons, except_ok_bind, MessageType.ofByte_toByte]
  -- one rewrite per field; the projections are reduced in between, or the message read so far
  -- would be copied into each of its thirteen fields at every step
  rw [if_neg (by omega), drain_writeImsi _ rfl himsi]; dsimp only
  rw [drain_cause _ rfl]; dsimp only
  rw [drain_numVectors _ rfl]; dsimp only
  rw [drain_authTuples _ rfl htuples hsmall.1]; dsimp only
  rw [drain_msisdn _ rfl hmsisdn]; dsimp only
  rw [drain_hlrNumber _ rfl hhlr]; dsimp only
  rw [drain_pdpInfoComplete _ rfl]; dsimp only
  rw [drain_pdpInfos _ rfl hpdps hsmall.2]; dsimp only
  rw [drain_cancelType _ rfl]; dsimp only
  rw [drain_freezePtmsi _ rfl]; dsimp only
  rw [← List.append_nil (writeOptTlv1 IeTag.cnDomain m.cnDomain), drain_cnDomain _ rfl, drain_nil]

/-- The codec's round trip: a message whose nested bodies fit their length octet comes back
field for field, if the one field that does not travel is at its default. -/
theorem decode_encode_eq {m : GsupMessage} {b : Bytes} (hfreeze : m.freezePtmsiResult = false)
    (hsmall : SmallBodies m) (h : encode m = .ok b) : decode b = .ok m := by
  rw [decode_of_encode h hsmall, ← hfreeze]

/-- An InsertDataRequest with an auth tuple and two PDP contexts. -/
def subscriberData : GsupMessage :=
  { type := .insertDataRequest, imsi := [0x31, 0x32, 0x33], cause := some 0
    authTuples := [{ rand := [1], sres := [], kc := [2, 3], res := some [] }]
    msisdn := some [0x91], pdpInfoComplete := true
    pdpInfoList := [{ contextId := 1, pdpType := some 0x0121 }, { apn := some [0x61] }]
    cnDomain := some 1 }

theorem subscriberData_round_trip :
    ∃ b, encode subscriberData = .ok b ∧ decode b = .ok subscriberData := by
  refine ⟨_, rfl, decode_encode_eq rfl ⟨?_, ?_⟩ rfl⟩
  · intro t ht bs hbs
    obtain rfl := List.mem_singleton.mp ht
    cases hbs
    decide
  · intro p hp bs hbs
    rcases List.mem_cons.mp hp with rfl | hp
    · cases hbs
      decide
    · obtain rfl := List.mem_singleton.mp hp
      cases hbs
      decide

end GsupMapProxy.Gsup
