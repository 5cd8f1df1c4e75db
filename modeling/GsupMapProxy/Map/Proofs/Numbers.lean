import GsupMapProxy.Map.Proofs.Fields

/-!
# The numbers a PDU carries

`map::decode` puts a transaction id of any length into 32 bits, and INTEGERs of any length into
64 bits and then into 8. Nothing is rejected for its size: a number that does not fit becomes
another one.
-/

namespace GsupMapProxy.Map

open Misc Ber

/-- The INTEGERs of a component, as they stand on the wire. -/
structure WireNumbers where
  invokeId : Int
  operation : Option Int
  errorCode : Option Int

/-- Where the INTEGERs of a component stand. Components with other tags are skipped. -/
def wireNumbers (compTag : UInt8) (compVal : Bytes) : Option WireNumbers :=
  if compTag = kCompTagInvoke then do
    let ((_, iv), cbr) ← (readTlv compVal).toOption
    let ((_, ov), _) ← (readTlv cbr).toOption
    return ⟨integerValue iv, some (integerValue ov), none⟩
  else if compTag = kCompTagReturnResult then do
    let ((_, iv), cbr) ← (readTlv compVal).toOption
    let ((_, resultVal), _) ← (readTlv cbr).toOption
    let ((_, ov), _) ← (readTlv resultVal).toOption
    return ⟨integerValue iv, some (integerValue ov), none⟩
  else if compTag = kCompTagReturnError then do
    let ((_, iv), cbr) ← (readTlv compVal).toOption
    let ((_, ev), _) ← (readTlv cbr).toOption
    return ⟨integerValue iv, none, some (integerValue ev)⟩
  else none

/-- The transaction id octets that count: those of the last such field. -/
def tidOctets (fields : List Tlv) : Option Bytes := lastOf [kTcapTagOtid, kTcapTagDtid] fields

/-- The decoded numbers are those on the wire: the transaction id, the invoke id as a signed
octet, the operation (or it is Unknown) and the error code. -/
structure NumbersExact (fields : List Tlv) (compTag : UInt8) (compVal : Bytes) (m : MapMessage) :
    Prop where
  tid : ∀ octets ∈ tidOctets fields, m.transactionId.toNat = octetsValue octets
  invokeId : ∀ w ∈ wireNumbers compTag compVal, m.invokeId.toInt8.toInt = w.invokeId
  operation : ∀ w ∈ wireNumbers compTag compVal, ∀ op ∈ w.operation,
    (m.operation.toByte.toNat : Int) = op ∨ m.operation = .unknown
  errorCode : ∀ w ∈ wireNumbers compTag compVal, ∀ e ∈ w.errorCode,
    ∃ code, m.errorCode = some code ∧ (code.toNat : Int) = e

/-- The numbers on the wire are in range: the transaction id below `2 ^ 32`, the invoke id a
signed octet, the operation an octet or one that becomes `0xFF`, the error code an octet. -/
structure NumbersInRange (fields : List Tlv) (compTag : UInt8) (compVal : Bytes) : Prop where
  tid : ∀ octets ∈ tidOctets fields, octetsValue octets < 2 ^ 32
  invokeId : ∀ w ∈ wireNumbers compTag compVal, -128 ≤ w.invokeId ∧ w.invokeId ≤ 127
  operation : ∀ w ∈ wireNumbers compTag compVal, ∀ op ∈ w.operation,
    (0 ≤ op ∧ op ≤ 255) ∨ op % 256 = 255
  errorCode : ∀ w ∈ wireNumbers compTag compVal, ∀ e ∈ w.errorCode, 0 ≤ e ∧ e ≤ 255

/-! ## What decoding keeps of the numbers -/

/-- The numbers of a message that come from INTEGERs. -/
def numbers (m : MapMessage) : UInt8 × MapOperation × Option UInt8 :=
  (m.invokeId, m.operation, m.errorCode)

/-- Every number is kept modulo 256. -/
def Narrowed (w : WireNumbers) (n : UInt8 × MapOperation × Option UInt8) : Prop :=
  (n.1.toNat : Int) = w.invokeId % 256 ∧
    (∀ op ∈ w.operation, (n.2.1.toByte.toNat : Int) = op % 256) ∧
    ∀ e ∈ w.errorCode, ∃ code, n.2.2 = some code ∧ (code.toNat : Int) = e % 256

theorem toByte_ofByte (b : UInt8) : (MapOperation.ofByte b).toByte = b := by
  revert b
  apply forall_octet
  decide +kernel

/-- A component sets the numbers from its INTEGERs, or it is skipped. -/
def NumbersStep (compTag : UInt8) (compVal : Bytes) (m m' : MapMessage) : Prop :=
  (∃ w, wireNumbers compTag compVal = some w ∧ Narrowed w (numbers m')) ∨
    (wireNumbers compTag compVal = none ∧ numbers m' = numbers m)

/-- An Invoke and a ReturnResult set the invoke id and the operation. -/
theorem narrowed_operation {iv ov : Bytes} {v o : Int64} (hv : decodeInt iv = .ok v)
    (ho : decodeInt ov = .ok o) (code : Option UInt8) :
    Narrowed ⟨integerValue iv, some (integerValue ov), none⟩
      (narrow v, MapOperation.ofByte (narrow o), code) := by
  refine ⟨narrow_decodeInt hv, ?_, by simp⟩
  intro op hop
  cases hop
  rw [toByte_ofByte]
  exact narrow_decodeInt ho

theorem decodeComponent_numbers {m m' : MapMessage} {t : UInt8} {val : Bytes}
    (h : decodeComponent m t val = .ok m') : NumbersStep t val m m' := by
  cases decodeComponent_readsHead h with
  | @invoke id op v o htag hid hv hop ho hhead =>
    refine .inl ⟨⟨integerValue id.1.2, some (integerValue op.1.2), none⟩, ?_, ?_⟩
    · rw [wireNumbers, if_pos htag, hid]
      dsimp only [Except.toOption, Option.bind_eq_bind, Option.bind_some]
      rw [hop]
      rfl
    · rw [show numbers m' = _ from (Prod.mk.inj hhead).2]
      exact narrowed_operation hv ho _
  | @returnResult id result op v o hinvoke htag hid hv hresult hop ho hhead =>
    refine .inl ⟨⟨integerValue id.1.2, some (integerValue op.1.2), none⟩, ?_, ?_⟩
    · rw [wireNumbers, if_neg hinvoke, if_pos htag, hid]
      dsimp only [Except.toOption, Option.bind_eq_bind, Option.bind_some]
      rw [hresult]
      dsimp only [Except.toOption, Option.bind_eq_bind, Option.bind_some]
      rw [hop]
      rfl
    · rw [show numbers m' = _ from (Prod.mk.inj hhead).2]
      exact narrowed_operation hv ho _
  | @returnError id code v e hinvoke hresult htag hid hv hcode he hhead =>
    refine .inl ⟨⟨integerValue id.1.2, none, some (integerValue code.1.2)⟩, ?_, ?_⟩
    · rw [wireNumbers, if_neg hinvoke, if_neg hresult, if_pos htag, hid]
      dsimp only [Except.toOption, Option.bind_eq_bind, Option.bind_some]
      rw [hcode]
      rfl
    · rw [show numbers m' = _ from (Prod.mk.inj hhead).2]
      refine ⟨narrow_decodeInt hv, by simp, ?_⟩
      intro e' he'
      cases he'
      exact ⟨narrow e, rfl, narrow_decodeInt he⟩
  | skipped hinvoke hresult herror hhead =>
    refine .inr ⟨?_, (Prod.mk.inj hhead).2⟩
    rw [wireNumbers, if_neg hinvoke, if_neg hresult, if_neg herror]

/-- What a component portion with at most one component does to the numbers. -/
def NumbersAfter (comps : List Tlv) (m m' : MapMessage) : Prop :=
  (comps = [] → numbers m' = numbers m) ∧
    ∀ t val, comps = [(t, val)] → NumbersStep t val m m'

theorem foldlM_decodeComponent_numbers {comps : List Tlv} {m m' : MapMessage}
    (h : comps.foldlM (fun s field => decodeComponent s field.1 field.2) m = .ok m') :
    NumbersAfter comps m m' := by
  constructor
  · rintro rfl
    cases h
    rfl
  · rintro t val rfl
    rw [List.foldlM_cons, except_bind_eq_ok] at h
    obtain ⟨m₁, hm₁, h⟩ := h
    cases h
    exact decodeComponent_numbers hm₁

theorem NumbersAfter.trans {xs ys : List Tlv} {m m₁ m' : MapMessage} (hxs : NumbersAfter xs m m₁)
    (hys : NumbersAfter ys m₁ m') : NumbersAfter (xs ++ ys) m m' := by
  constructor
  · intro h
    obtain ⟨hx, hy⟩ := List.append_eq_nil_iff.mp h
    exact (hys.1 hy).trans (hxs.1 hx)
  · intro t val h
    rcases List.append_eq_singleton_iff.mp h with ⟨hx, hy⟩ | ⟨hx, hy⟩
    · rcases hys.2 t val hy with ⟨w, hw, hn⟩ | ⟨hw, hn⟩
      · exact .inl ⟨w, hw, hn⟩
      · exact .inr ⟨hw, hn.trans (hxs.1 hx)⟩
    · rcases hxs.2 t val hx with ⟨w, hw, hn⟩ | ⟨hw, hn⟩
      · exact .inl ⟨w, hw, by rw [hys.1 hy]; exact hn⟩
      · exact .inr ⟨hw, (hys.1 hy).trans hn⟩

/-- Over the whole PDU: fields that are no component portion leave the numbers alone. -/
theorem foldlM_decodeTcapField_numbers (fields : List Tlv) :
    ∀ {m m' : MapMessage},
      fields.foldlM (fun s field => decodeTcapField s field.1 field.2) m = .ok m' →
      ∃ comps, components fields = .ok comps ∧ NumbersAfter comps m m' := by
  induction fields with
  | nil =>
    intro m m' h
    cases h
    exact ⟨[], rfl, fun _ => rfl, fun t val h => by cases h⟩
  | cons field fields ih =>
    intro m m' h
    obtain ⟨t, val⟩ := field
    rw [List.foldlM_cons, except_bind_eq_ok] at h
    obtain ⟨m₁, hm₁, h⟩ := h
    obtain ⟨comps, hcomps, hafter⟩ := ih h
    have hskip : numbers m₁ = numbers m → NumbersAfter [] m m₁ :=
      fun hn => ⟨fun _ => hn, fun t val h => by cases h⟩
    rcases decodeTcapField_cases hm₁ with ⟨-, hne, rfl⟩ | ⟨-, hcomp, inner, hinner, hfold⟩ |
      ⟨-, hne, rfl⟩
    · exact ⟨comps, by rw [components, if_neg hne, hcomps], (hskip rfl).trans hafter⟩
    · refine ⟨inner ++ comps, ?_, (foldlM_decodeComponent_numbers hfold).trans hafter⟩
      rw [components, if_pos hcomp, hinner, except_ok_bind, hcomps]
      rfl
    · exact ⟨comps, by rw [components, if_neg hne, hcomps], (hskip rfl).trans hafter⟩

/-- The numbers of a decoded PDU with one component. -/
theorem numbers_of_decode {data : Bytes} {m : MapMessage} {fields : List Tlv} {t : UInt8}
    {val : Bytes} (h : decode data = .ok m) (hfields : pduFields data = .ok fields)
    (hsingle : components fields = .ok [(t, val)]) :
    ∀ w ∈ wireNumbers t val, Narrowed w (numbers m) := by
  obtain ⟨comps, hcomps, hafter⟩ := foldlM_decodeTcapField_numbers fields (fold_of_decode h hfields)
  rw [hsingle] at hcomps
  cases hcomps
  intro w hw
  rcases hafter.2 t val rfl with ⟨w', hw', hn⟩ | ⟨hnone, -⟩
  · rw [Option.mem_def.mp hw] at hw'
    cases hw'
    exact hn
  · rw [hnone] at hw
    cases hw

/-! ## Which numbers survive -/

theorem tidOfOctets_toNat (octets : Bytes) :
    (tidOfOctets octets).toNat = octetsValue octets % 2 ^ 32 := by
  induction octets using List.reverseRecOn with
  | nil => rfl
  | append_singleton octets b ih =>
    rw [tidOfOctets, List.foldl_append, List.foldl_cons, List.foldl_nil, uint32_shl8_or_toNat,
      ← tidOfOctets, ih, octetsValue_concat]
    omega

/-- An octet that agrees with a number modulo 256 is that number as a signed one if it is in the
range of those. -/
theorem toInt8_eq_iff {b : UInt8} {v : Int} (h : (b.toNat : Int) = v % 256) :
    b.toInt8.toInt = v ↔ -128 ≤ v ∧ v ≤ 127 := by
  have hb := b.toNat_lt
  have hcond : b.toInt8.toInt = b.toBitVec.toInt := rfl
  have hnat : b.toBitVec.toNat = b.toNat := rfl
  rw [hcond, BitVec.toInt_eq_toNat_cond, hnat]
  split <;> omega

theorem octet_eq_iff {b : UInt8} {v : Int} (h : (b.toNat : Int) = v % 256) :
    (b.toNat : Int) = v ↔ 0 ≤ v ∧ v ≤ 255 := by
  have hb := b.toNat_lt
  omega

theorem eq_unknown_iff (op : MapOperation) : op = .unknown ↔ op.toByte.toNat = 255 := by
  constructor
  · rintro rfl
    rfl
  · intro h
    have hbyte : op.toByte = 0xFF := UInt8.toNat_inj.mp h
    rw [← MapOperation.ofByte_toByte op, hbyte]
    rfl

/-- The numbers of an accepted PDU with one component come out as they stand on the wire exactly
when they are in range. -/
theorem decode_numbers_exact_iff {q : Bytes} {m : MapMessage} {fields : List Tlv} {t : UInt8}
    {val : Bytes} (h : decode q = .ok m) (hfields : pduFields q = .ok fields)
    (hsingle : components fields = .ok [(t, val)]) :
    NumbersExact fields t val m ↔ NumbersInRange fields t val := by
  have hnarrowed := numbers_of_decode h hfields hsingle
  obtain ⟨htid, -⟩ := ids_of_decode h hfields
  have htidNat : ∀ octets ∈ tidOctets fields,
      m.transactionId.toNat = octetsValue octets % 2 ^ 32 := by
    intro octets hoctets
    rw [htid, ← tidOctets, Option.mem_def.mp hoctets]
    exact tidOfOctets_toNat octets
  constructor
  · intro hexact
    refine ⟨?_, ?_, ?_, ?_⟩
    · intro octets hoctets
      rw [← hexact.tid octets hoctets]
      exact m.transactionId.toNat_lt
    · intro w hw
      exact (toInt8_eq_iff (hnarrowed w hw).1).mp (hexact.invokeId w hw)
    · intro w hw op hop
      have hbyte := (hnarrowed w hw).2.1 op hop
      rcases hexact.operation w hw op hop with heq | hunknown
      · exact .inl ((octet_eq_iff hbyte).mp heq)
      · right
        rw [← hbyte]
        exact_mod_cast (eq_unknown_iff _).mp hunknown
    · intro w hw e he
      obtain ⟨code, hcode, heq⟩ := hexact.errorCode w hw e he
      obtain ⟨code', hcode', hmod⟩ := (hnarrowed w hw).2.2 e he
      rw [numbers, hcode] at hcode'
      cases hcode'
      exact (octet_eq_iff hmod).mp heq
  · intro hrange
    refine ⟨?_, ?_, ?_, ?_⟩
    · intro octets hoctets
      rw [htidNat octets hoctets, Nat.mod_eq_of_lt (hrange.tid octets hoctets)]
    · intro w hw
      exact (toInt8_eq_iff (hnarrowed w hw).1).mpr (hrange.invokeId w hw)
    · intro w hw op hop
      have hbyte := (hnarrowed w hw).2.1 op hop
      rcases hrange.operation w hw op hop with hoctet | hff
      · exact .inl ((octet_eq_iff hbyte).mpr hoctet)
      · right
        rw [eq_unknown_iff]
        rw [hff] at hbyte
        exact_mod_cast hbyte
    · intro w hw e he
      obtain ⟨code, hcode, hmod⟩ := (hnarrowed w hw).2.2 e he
      exact ⟨code, hcode, (octet_eq_iff hmod).mpr (hrange.errorCode w hw e he)⟩

/-- A PurgeMS answer whose transaction id has five octets. -/
def longTid : Bytes :=
  [0x64, 0x13, 0x49, 0x05, 0x01, 0x00, 0x00, 0x00, 0x2a, 0x6c, 0x0a, 0xa2, 0x08, 0x02, 0x01, 0x01,
    0x30, 0x03, 0x02, 0x01, 0x43]

/-- The value of its only component. -/
def longTidComponent : Bytes := [0x02, 0x01, 0x01, 0x30, 0x03, 0x02, 0x01, 0x43]

/-- It is accepted as an answer to transaction 42. -/
theorem longTid_aliases :
    ∃ m fields, decode longTid = .ok m ∧ pduFields longTid = .ok fields ∧
      components fields = .ok [(kCompTagReturnResult, longTidComponent)] ∧ m.transactionId = 42 ∧
      tidOctets fields = some [0x01, 0x00, 0x00, 0x00, 0x2a] ∧
      ¬ NumbersExact fields kCompTagReturnResult longTidComponent m := by
  refine ⟨_, _, rfl, rfl, rfl, rfl, rfl, ?_⟩
  intro h
  have := h.tid _ rfl
  revert this
  decide

/-- A PurgeMS answer to transaction 42 with invoke id 1. -/
def purgeResult : Bytes :=
  [0x64, 0x12, 0x49, 0x04, 0x00, 0x00, 0x00, 0x2a, 0x6c, 0x0a, 0xa2, 0x08, 0x02, 0x01, 0x01,
    0x30, 0x03, 0x02, 0x01, 0x43]

theorem purgeResult_numbers_exact :
    ∃ m fields, decode purgeResult = .ok m ∧ pduFields purgeResult = .ok fields ∧
      components fields = .ok [(kCompTagReturnResult, longTidComponent)] ∧
      NumbersExact fields kCompTagReturnResult longTidComponent m := by
  refine ⟨_, _, rfl, rfl, rfl, (decode_numbers_exact_iff (q := purgeResult) rfl rfl rfl).mpr ?_⟩
  refine ⟨?_, ?_, ?_, ?_⟩
  · intro octets hoctets
    cases hoctets
    decide
  · intro w hw
    cases hw
    decide
  · intro w hw op hop
    cases hw
    cases hop
    decide
  · intro w hw e he
    cases hw
    cases he

end GsupMapProxy.Map
