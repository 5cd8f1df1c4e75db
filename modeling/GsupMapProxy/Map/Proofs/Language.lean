import GsupMapProxy.Map.Proofs.BerCursor
import GsupMapProxy.Misc.Grammar

/-!
# What `map::decode` accepts

The format that `map::decode` reads, said without a reader: TLVs inside TLVs, each with a length
in any of the forms BER has for it. Where the code reads all of a value, the value is a sequence of
complete TLVs; where it reads one or two TLVs of it, bytes behind them are let through. The decoder
accepts exactly what has this form, and makes of it what the format says.
-/

namespace GsupMapProxy.Map

open Ber Misc

/-! ## The format -/

/-- A TLV as it stands in a PDU. -/
structure BerTlv where
  tag : UInt8
  length : Bytes
  value : Bytes
  declares : DeclaresLength length value.length

def BerTlv.wire (t : BerTlv) : Bytes := t.tag :: (t.length ++ t.value)

/-- One TLV after the other. -/
inductive Steps {σ : Type} (R : σ → BerTlv → σ → Prop) : σ → List BerTlv → σ → Prop
  | nil {s : σ} : Steps R s [] s
  | cons {s s₁ s' : σ} {t : BerTlv} {tlvs : List BerTlv} (first : R s t s₁)
      (later : Steps R s₁ tlvs s') : Steps R s (t :: tlvs) s'

/-- The bytes are TLVs that lead from `s` to `s'`. -/
def Sequence {σ : Type} (R : σ → BerTlv → σ → Prop) (s : σ) (bs : Bytes) (s' : σ) : Prop :=
  ∃ tlvs : List BerTlv, bs = tlvs.flatMap BerTlv.wire ∧ Steps R s tlvs s'

/-- There is nothing, or a TLV for which `P` holds and whatever comes behind it. -/
def Optional {σ : Type} (P : BerTlv → σ → Prop) (s : σ) (bs : Bytes) (s' : σ) : Prop :=
  bs = [] ∧ s' = s ∨ ∃ (t : BerTlv) (rest : Bytes), bs = t.wire ++ rest ∧ P t s'

/-- What the body of a loop does with a TLV. -/
def Does {σ : Type} (f : σ → UInt8 → Bytes → Except Exn σ) (s : σ) (t : BerTlv) (s' : σ) : Prop :=
  f s t.tag t.value = .ok s'

/-- Arguments: a SEQUENCE, whatever its tag. -/
def Arguments {σ : Type} (R : σ → BerTlv → σ → Prop) (s : σ) : Bytes → σ → Prop :=
  Optional (fun seq s' => Sequence R s seq.value s') s

/-- The TLV is an INTEGER, whatever its tag, and the octet is what is left of its value. -/
def BerTlv.IsOctet (t : BerTlv) (b : UInt8) : Prop := ∃ v, decodeInt t.value = .ok v ∧ b = narrow v

/-- The IMSI of a DeleteSubscriberData. -/
def DeletedImsi (m : MapMessage) (t : BerTlv) (m' : MapMessage) : Prop :=
  if t.tag = kBerOctetStr ∧ m.imsi = [] then
    ∃ imsi, bcdToImsi t.value = .ok imsi ∧ m' = { m with imsi := imsi }
  else m' = m

/-- The arguments of an Invoke. Only SendAuthenticationInfo has to have its SEQUENCE tag, or is
ignored; of DeleteSubscriberData, only the first argument is looked at. -/
def InvokeArgs (m : MapMessage) (args : Bytes) (m' : MapMessage) : Prop :=
  match m.operation with
  | .sendAuthenticationInfo =>
      Optional (fun seq m' => if seq.tag = kBerSequence then
        Sequence (Does sendAuthInfoReqField) m seq.value m' else m' = m) m args m'
  | .updateGprsLocation =>
      ∃ first, Arguments (Does updateGprsLocationReqField) (m, true) args (m', first)
  | .cancelLocation => ∃ first, Arguments (Does cancelLocationReqField) (m, true) args (m', first)
  | .insertSubscriberData =>
      ∃ first, Arguments (Does insertSubscriberDataReqField) (m, true) args (m', first)
  | .deleteSubscriberData =>
      Optional (fun seq m' => Optional (DeletedImsi m) m seq.value m') m args m'
  | .purgeMS => ∃ first, Arguments (Does purgeMsReqField) (m, true) args (m', first)
  | _ => m' = m

/-- A SEQUENCE of OCTET STRINGs is an authentication vector. -/
def AuthVector (m : MapMessage) (t : BerTlv) (m' : MapMessage) : Prop :=
  if t.tag = kBerSequence then
    ∃ fields, Sequence (Does octetStringField) [] t.value fields ∧ m' = addAuthVector m fields
  else m' = m

/-- The arguments of a ReturnResult. -/
def ResultArgs (m : MapMessage) (args : Bytes) (m' : MapMessage) : Prop :=
  match m.operation with
  | .sendAuthenticationInfo => Arguments AuthVector m args m'
  | .updateGprsLocation => Arguments (Does updateGprsLocationResField) m args m'
  | .purgeMS => Arguments (Does purgeMsResField) m args m'
  | _ => m' = m

/-- A component, with what it makes of the message. Unknown ones are skipped. -/
inductive Component (m : MapMessage) (comp : BerTlv) (m' : MapMessage) : Prop
  | invoke (htag : comp.tag = kCompTagInvoke) (id op : BerTlv) (args : Bytes)
      (invokeId opCode : UInt8)
      (hvalue : comp.value = id.wire ++ (op.wire ++ args)) (hid : id.IsOctet invokeId)
      (hop : op.IsOctet opCode)
      (hargs : InvokeArgs { m with
        component := .invoke, invokeId := invokeId,
        operation := MapOperation.ofByte opCode } args m')
  | returnResult (htag : comp.tag = kCompTagReturnResult) (id result op : BerTlv)
      (args rest : Bytes) (invokeId opCode : UInt8)
      (hvalue : comp.value = id.wire ++ (result.wire ++ rest))
      (hresult : result.value = op.wire ++ args) (hid : id.IsOctet invokeId)
      (hop : op.IsOctet opCode)
      (hargs : ResultArgs { m with
        component := .returnResult, invokeId := invokeId,
        operation := MapOperation.ofByte opCode } args m')
  | returnError (htag : comp.tag = kCompTagReturnError) (id error : BerTlv) (rest : Bytes)
      (invokeId code : UInt8) (hvalue : comp.value = id.wire ++ (error.wire ++ rest))
      (hid : id.IsOctet invokeId) (hcode : error.IsOctet code)
      (hm : m' = { m with component := .returnError, invokeId := invokeId, errorCode := some code })
  | skipped (hinvoke : comp.tag ≠ kCompTagInvoke) (hresult : comp.tag ≠ kCompTagReturnResult)
      (herror : comp.tag ≠ kCompTagReturnError) (hm : m' = m)

/-- A field of the PDU, with what it makes of the message. Unknown ones are skipped. -/
inductive TcapField (m : MapMessage) (field : BerTlv) (m' : MapMessage) : Prop
  | tid (htag : field.tag = kTcapTagOtid ∨ field.tag = kTcapTagDtid)
      (hm : m' = { m with transactionId := tidOfOctets field.value })
  | components (htag : field.tag = kTcapTagComponents)
      (hcomps : Sequence Component m field.value m')
  | skipped (hotid : field.tag ≠ kTcapTagOtid) (hdtid : field.tag ≠ kTcapTagDtid)
      (hcomps : field.tag ≠ kTcapTagComponents) (hm : m' = m)

/-- The bytes are a PDU, whatever its tag, and whatever comes behind it. -/
def IsPdu (data : Bytes) (m : MapMessage) : Prop :=
  ∃ (pdu : BerTlv) (rest : Bytes), data = pdu.wire ++ rest ∧ Sequence TcapField {} pdu.value m

/-! ## Single TLVs -/

theorem readLengthOctets_append (octets : Bytes) (acc : Nat) (rest : BufferReader) :
    readLengthOctets octets.length acc (octets ++ rest) =
      .ok (octets.foldl (fun acc b => acc * 256 + b.toNat) acc, rest) := by
  induction octets generalizing acc with
  | nil => rfl
  | cons b octets ih =>
    rw [List.length_cons, readLengthOctets, List.cons_append, read8_cons, except_ok_bind]
    dsimp only
    rw [ih, shiftLeft_eight_or _ b.toNat_lt]
    rfl

/-- The first octet of the long form. -/
theorem longForm_first : ∀ n, 0 < n → n ≤ 4 → ¬ UInt8.ofNat (128 + n) ≤ 0x7F ∧
    ¬ UInt8.ofNat (128 + n) = 0x80 ∧ ¬ UInt8.ofNat (128 + n) &&& 0x7F > 4 ∧
    (UInt8.ofNat (128 + n) &&& 0x7F).toNat = n := by
  intro n hpos hmax
  obtain rfl | rfl | rfl | rfl : n = 1 ∨ n = 2 ∨ n = 3 ∨ n = 4 := by omega
  all_goals decide

theorem readLength_of_declares {octets : Bytes} {len : Nat} (h : DeclaresLength octets len)
    (rest : BufferReader) : readLength (octets ++ rest) = .ok (len, rest) := by
  cases h with
  | @short b h =>
    have hle : b ≤ 0x7F := by
      rw [UInt8.le_iff_toNat_le]
      exact Nat.le_of_lt_succ h
    rw [readLength, List.singleton_append, read8_cons, except_ok_bind]
    dsimp only
    rw [if_pos hle]
    rfl
  | @long octets hpos hmax =>
    obtain ⟨h7f, h80, h4, hcount⟩ := longForm_first octets.length hpos hmax
    rw [readLength, List.cons_append, read8_cons, except_ok_bind]
    dsimp only
    rw [if_neg h7f, if_neg h80, if_neg h4, hcount, readLengthOctets_append]
    rfl

/-- `readTlv` takes a TLV off the front, and only that. -/
theorem readTlv_eq_ok_iff {tag : UInt8} {value : Bytes} {r rest : BufferReader} :
    readTlv r = .ok ((tag, value), rest) ↔
      ∃ t : BerTlv, t.tag = tag ∧ t.value = value ∧ r = t.wire ++ rest := by
  constructor
  · intro h
    obtain ⟨octets, hr, hlen⟩ := readTlv_layout h
    exact ⟨⟨tag, octets, value, hlen⟩, rfl, rfl, hr⟩
  · rintro ⟨t, rfl, rfl, rfl⟩
    rw [readTlv, BerTlv.wire, List.cons_append, List.append_assoc, read8_cons, except_ok_bind]
    dsimp only
    rw [readLength_of_declares t.declares, except_ok_bind]
    dsimp only
    rw [readBytes_append rfl]
    rfl

/-- The rest of a computation that starts with `readTlv`. -/
theorem readTlv_bind_eq_ok_iff {α : Type} {g : (UInt8 × Bytes) × BufferReader → Except Exn α}
    {r : BufferReader} {a : α} :
    (readTlv r >>= g) = .ok a ↔
      ∃ (t : BerTlv) (rest : Bytes), r = t.wire ++ rest ∧ g ((t.tag, t.value), rest) = .ok a := by
  rw [except_bind_eq_ok]
  constructor
  · rintro ⟨⟨⟨tag, value⟩, rest⟩, hread, h⟩
    obtain ⟨t, rfl, rfl, hr⟩ := readTlv_eq_ok_iff.mp hread
    exact ⟨t, rest, hr, h⟩
  · rintro ⟨t, rest, hr, h⟩
    exact ⟨_, readTlv_eq_ok_iff.mpr ⟨t, rfl, rfl, hr⟩, h⟩

/-! ## Sequences of TLVs -/

theorem tlvTurn_readsItems {σ : Type} (f : σ → UInt8 → Bytes → Except Exn σ) :
    ReadsItems (tlvTurn f) BerTlv.wire (fun s t => f s t.tag t.value) where
  nonempty := fun t => by simp [BerTlv.wire]
  turn := by
    intro s r s' rest
    rw [tlvTurn, readTlv_bind_eq_ok_iff]
    constructor
    · rintro ⟨t, rest', hr, h⟩
      obtain ⟨s₁, hf, h⟩ := except_bind_eq_ok.mp h
      cases h
      exact ⟨t, hr, hf⟩
    · rintro ⟨t, hr, hf⟩
      exact ⟨t, rest, hr, except_bind_eq_ok.mpr ⟨s', hf, rfl⟩⟩

theorem foldlM_iff_steps {σ : Type} {f : σ → UInt8 → Bytes → Except Exn σ}
    {R : σ → BerTlv → σ → Prop} (hR : ∀ s t s', f s t.tag t.value = .ok s' ↔ R s t s')
    {tlvs : List BerTlv} {s s' : σ} :
    tlvs.foldlM (fun s t => f s t.tag t.value) s = .ok s' ↔ Steps R s tlvs s' := by
  constructor
  · intro h
    induction tlvs generalizing s with
    | nil =>
      cases h
      exact .nil
    | cons t tlvs ih =>
      rw [List.foldlM_cons] at h
      obtain ⟨s₁, hf, h⟩ := except_bind_eq_ok.mp h
      exact .cons ((hR s t s₁).mp hf) (ih h)
  · intro h
    induction h with
    | nil => rfl
    | @cons s s₁ s' t tlvs first later ih =>
      rw [List.foldlM_cons, (hR s t s₁).mpr first]
      exact ih

/-- A loop over a reader with a body that does what `R` says. -/
theorem drain_iff_sequence {σ : Type} {f : σ → UInt8 → Bytes → Except Exn σ}
    {R : σ → BerTlv → σ → Prop} (hR : ∀ s t s', f s t.tag t.value = .ok s' ↔ R s t s') {s s' : σ}
    {bs : Bytes} : drain (tlvTurn f) s bs = .ok s' ↔ Sequence R s bs s' := by
  rw [(tlvTurn_readsItems f).drain_eq_ok_iff]
  simp only [foldlM_iff_steps hR, Sequence]

/-- A reader that may be empty. -/
theorem ite_readTlv_iff_optional {σ : Type}
    {g : (UInt8 × Bytes) × BufferReader → Except Exn σ} {P : BerTlv → σ → Prop}
    (hP : ∀ t rest s', g ((t.tag, t.value), rest) = .ok s' ↔ P t s') {s s' : σ} {bs : Bytes} :
    (if bs = [] then .ok s else readTlv bs >>= g) = .ok s' ↔ Optional P s bs s' := by
  unfold Optional
  split
  · rename_i hnil
    subst hnil
    constructor
    · intro h
      cases h
      exact .inl ⟨rfl, rfl⟩
    · rintro (⟨-, rfl⟩ | ⟨t, rest, hbs, -⟩)
      · rfl
      · simp [BerTlv.wire] at hbs
  · rename_i hne
    rw [readTlv_bind_eq_ok_iff]
    constructor
    · rintro ⟨t, rest, hbs, h⟩
      exact .inr ⟨t, rest, hbs, (hP t rest s').mp h⟩
    · rintro (⟨hnil, -⟩ | ⟨t, rest, hbs, h⟩)
      · exact absurd hnil hne
      · exact ⟨t, rest, hbs, (hP t rest s').mpr h⟩

theorem decodeSequence_iff_arguments {σ : Type} {f : σ → UInt8 → Bytes → Except Exn σ}
    {R : σ → BerTlv → σ → Prop} (hR : ∀ s t s', f s t.tag t.value = .ok s' ↔ R s t s') {s s' : σ}
    {bs : Bytes} : decodeSequence f s bs = .ok s' ↔ Arguments R s bs s' :=
  ite_readTlv_iff_optional fun _ _ _ => drain_iff_sequence hR

/-- The arguments that are read with a flag. -/
theorem decodeFlagged_iff {f : MapMessage × Bool → UInt8 → Bytes → Except Exn (MapMessage × Bool)}
    {m m' : MapMessage} {bs : Bytes} :
    (do let s ← decodeSequence f (m, true) bs; return s.1) = (.ok m' : Except Exn MapMessage) ↔
      ∃ first, Arguments (Does f) (m, true) bs (m', first) := by
  rw [except_bind_eq_ok]
  constructor
  · rintro ⟨⟨m₁, first⟩, h, heq⟩
    cases heq
    exact ⟨first, (decodeSequence_iff_arguments fun _ _ _ => Iff.rfl).mp h⟩
  · rintro ⟨first, h⟩
    exact ⟨(m', first), (decodeSequence_iff_arguments fun _ _ _ => Iff.rfl).mpr h, rfl⟩

/-! ## Arguments -/

theorem decodeSendAuthInfoReq_iff {m m' : MapMessage} {args : Bytes} :
    decodeSendAuthInfoReq args m = .ok m' ↔
      Optional (fun seq m' => if seq.tag = kBerSequence then
        Sequence (Does sendAuthInfoReqField) m seq.value m' else m' = m) m args m' := by
  refine ite_readTlv_iff_optional fun seq rest m' => ?_
  dsimp only
  by_cases htag : seq.tag = kBerSequence
  · rw [if_neg (not_not_intro htag), if_pos htag]
    exact drain_iff_sequence fun _ _ _ => Iff.rfl
  · rw [if_pos htag, if_neg htag]
    exact ⟨fun h => (Except.ok.inj h).symm, fun h => congrArg Except.ok h.symm⟩

theorem decodeDeleteSubscriberDataReq_iff {m m' : MapMessage} {args : Bytes} :
    decodeDeleteSubscriberDataReq args m = .ok m' ↔
      Optional (fun seq m' => Optional (DeletedImsi m) m seq.value m') m args m' := by
  refine ite_readTlv_iff_optional fun seq rest m' => ?_
  refine ite_readTlv_iff_optional fun t rest m' => ?_
  unfold DeletedImsi
  dsimp only
  split
  · rw [except_bind_eq_ok]
    constructor
    · rintro ⟨imsi, himsi, h⟩
      exact ⟨imsi, himsi, (Except.ok.inj h).symm⟩
    · rintro ⟨imsi, himsi, rfl⟩
      exact ⟨imsi, himsi, rfl⟩
  · exact ⟨fun h => (Except.ok.inj h).symm, fun h => congrArg Except.ok h.symm⟩

theorem decodeInvokeArgs_iff {m m' : MapMessage} {args : Bytes} :
    decodeInvokeArgs args m = .ok m' ↔ InvokeArgs m args m' := by
  unfold decodeInvokeArgs InvokeArgs
  cases m.operation with
  | sendAuthenticationInfo => exact decodeSendAuthInfoReq_iff
  | updateGprsLocation => exact decodeFlagged_iff
  | cancelLocation => exact decodeFlagged_iff
  | insertSubscriberData => exact decodeFlagged_iff
  | deleteSubscriberData => exact decodeDeleteSubscriberDataReq_iff
  | purgeMS => exact decodeFlagged_iff
  | _ => exact ⟨fun h => (Except.ok.inj h).symm, fun h => congrArg Except.ok h.symm⟩

theorem sendAuthInfoResField_iff (m : MapMessage) (t : BerTlv) (m' : MapMessage) :
    sendAuthInfoResField m t.tag t.value = .ok m' ↔ AuthVector m t m' := by
  unfold sendAuthInfoResField AuthVector
  by_cases htag : t.tag = kBerSequence
  · rw [if_neg (not_not_intro htag), if_pos htag, except_bind_eq_ok]
    have hfields {fields : List Bytes} :
        drain (tlvTurn octetStringField) [] t.value = .ok fields ↔
          Sequence (Does octetStringField) [] t.value fields :=
      drain_iff_sequence fun _ _ _ => Iff.rfl
    constructor
    · rintro ⟨fields, hdrain, h⟩
      exact ⟨fields, hfields.mp hdrain, (Except.ok.inj h).symm⟩
    · rintro ⟨fields, hseq, rfl⟩
      exact ⟨fields, hfields.mpr hseq, rfl⟩
  · rw [if_pos htag, if_neg htag]
    exact ⟨fun h => (Except.ok.inj h).symm, fun h => congrArg Except.ok h.symm⟩

theorem decodeResultArgs_iff {m m' : MapMessage} {args : Bytes} :
    decodeResultArgs args m = .ok m' ↔ ResultArgs m args m' := by
  unfold decodeResultArgs ResultArgs
  cases m.operation with
  | sendAuthenticationInfo => exact decodeSequence_iff_arguments sendAuthInfoResField_iff
  | updateGprsLocation => exact decodeSequence_iff_arguments fun _ _ _ => Iff.rfl
  | purgeMS => exact decodeSequence_iff_arguments fun _ _ _ => Iff.rfl
  | _ => exact ⟨fun h => (Except.ok.inj h).symm, fun h => congrArg Except.ok h.symm⟩

/-! ## Components -/

theorem invoke_iff {m m' : MapMessage} {comp : BerTlv} (htag : comp.tag = kCompTagInvoke) :
    decodeComponent m comp.tag comp.value = .ok m' ↔ Component m comp m' := by
  rw [decodeComponent, if_pos htag]
  constructor
  · intro h
    obtain ⟨id, rest, hvalue, h⟩ := readTlv_bind_eq_ok_iff.mp h
    obtain ⟨idValue, hid, h⟩ := except_bind_eq_ok.mp h
    obtain ⟨op, args, rfl, hop⟩ := readTlv_bind_eq_ok_iff.mp h
    obtain ⟨opValue, hop, hargs⟩ := except_bind_eq_ok.mp hop
    exact .invoke htag id op args _ _ hvalue ⟨idValue, hid, rfl⟩ ⟨opValue, hop, rfl⟩
      (decodeInvokeArgs_iff.mp hargs)
  · intro h
    cases h with
    | invoke _ id op args invokeId opCode hvalue hid hop hargs =>
      obtain ⟨idValue, hid, rfl⟩ := hid
      obtain ⟨opValue, hop, rfl⟩ := hop
      refine readTlv_bind_eq_ok_iff.mpr ⟨id, _, hvalue, ?_⟩
      refine except_bind_eq_ok.mpr ⟨idValue, hid, ?_⟩
      refine readTlv_bind_eq_ok_iff.mpr ⟨op, args, rfl, ?_⟩
      exact except_bind_eq_ok.mpr ⟨opValue, hop, decodeInvokeArgs_iff.mpr hargs⟩
    | returnResult hother | returnError hother =>
      rw [hother] at htag
      exact absurd htag (by decide)
    | skipped hother => exact absurd htag hother

theorem returnResult_iff {m m' : MapMessage} {comp : BerTlv}
    (htag : comp.tag = kCompTagReturnResult) :
    decodeComponent m comp.tag comp.value = .ok m' ↔ Component m comp m' := by
  rw [decodeComponent, if_neg (by rw [htag]; decide), if_pos htag]
  constructor
  · intro h
    obtain ⟨id, rest, hvalue, h⟩ := readTlv_bind_eq_ok_iff.mp h
    obtain ⟨idValue, hid, h⟩ := except_bind_eq_ok.mp h
    obtain ⟨result, rest, rfl, hresult⟩ := readTlv_bind_eq_ok_iff.mp h
    obtain ⟨op, args, hresult, hop⟩ := readTlv_bind_eq_ok_iff.mp hresult
    obtain ⟨opValue, hop, hargs⟩ := except_bind_eq_ok.mp hop
    exact .returnResult htag id result op args rest _ _ hvalue hresult ⟨idValue, hid, rfl⟩
      ⟨opValue, hop, rfl⟩ (decodeResultArgs_iff.mp hargs)
  · intro h
    cases h with
    | returnResult _ id result op args rest invokeId opCode hvalue hresult hid hop hargs =>
      obtain ⟨idValue, hid, rfl⟩ := hid
      obtain ⟨opValue, hop, rfl⟩ := hop
      refine readTlv_bind_eq_ok_iff.mpr ⟨id, _, hvalue, ?_⟩
      refine except_bind_eq_ok.mpr ⟨idValue, hid, ?_⟩
      refine readTlv_bind_eq_ok_iff.mpr ⟨result, rest, rfl, ?_⟩
      refine readTlv_bind_eq_ok_iff.mpr ⟨op, args, hresult, ?_⟩
      exact except_bind_eq_ok.mpr ⟨opValue, hop, decodeResultArgs_iff.mpr hargs⟩
    | invoke hother | returnError hother =>
      rw [hother] at htag
      exact absurd htag (by decide)
    | skipped _ hother => exact absurd htag hother

theorem returnError_iff {m m' : MapMessage} {comp : BerTlv}
    (htag : comp.tag = kCompTagReturnError) :
    decodeComponent m comp.tag comp.value = .ok m' ↔ Component m comp m' := by
  rw [decodeComponent, if_neg (by rw [htag]; decide), if_neg (by rw [htag]; decide), if_pos htag]
  constructor
  · intro h
    obtain ⟨id, rest, hvalue, h⟩ := readTlv_bind_eq_ok_iff.mp h
    obtain ⟨idValue, hid, h⟩ := except_bind_eq_ok.mp h
    obtain ⟨error, rest, rfl, herror⟩ := readTlv_bind_eq_ok_iff.mp h
    obtain ⟨code, hcode, hm⟩ := except_bind_eq_ok.mp herror
    exact .returnError htag id error rest _ _ hvalue ⟨idValue, hid, rfl⟩ ⟨code, hcode, rfl⟩
      (Except.ok.inj hm).symm
  · intro h
    cases h with
    | returnError _ id error rest invokeId code hvalue hid hcode hm =>
      obtain ⟨idValue, hid, rfl⟩ := hid
      obtain ⟨code, hcode, rfl⟩ := hcode
      refine readTlv_bind_eq_ok_iff.mpr ⟨id, _, hvalue, ?_⟩
      refine except_bind_eq_ok.mpr ⟨idValue, hid, ?_⟩
      refine readTlv_bind_eq_ok_iff.mpr ⟨error, rest, rfl, ?_⟩
      exact except_bind_eq_ok.mpr ⟨code, hcode, congrArg Except.ok hm.symm⟩
    | invoke hother | returnResult hother =>
      rw [hother] at htag
      exact absurd htag (by decide)
    | skipped _ _ hother => exact absurd htag hother

theorem decodeComponent_iff (m : MapMessage) (comp : BerTlv) (m' : MapMessage) :
    decodeComponent m comp.tag comp.value = .ok m' ↔ Component m comp m' := by
  by_cases hinvoke : comp.tag = kCompTagInvoke
  · exact invoke_iff hinvoke
  by_cases hresult : comp.tag = kCompTagReturnResult
  · exact returnResult_iff hresult
  by_cases herror : comp.tag = kCompTagReturnError
  · exact returnError_iff herror
  rw [decodeComponent, if_neg hinvoke, if_neg hresult, if_neg herror]
  constructor
  · intro h
    exact .skipped hinvoke hresult herror (Except.ok.inj h).symm
  · intro h
    cases h with
    | skipped _ _ _ hm => exact congrArg Except.ok hm.symm
    | invoke htag => exact absurd htag hinvoke
    | returnResult htag => exact absurd htag hresult
    | returnError htag => exact absurd htag herror

/-! ## The PDU -/

theorem decodeTcapField_iff (m : MapMessage) (field : BerTlv) (m' : MapMessage) :
    decodeTcapField m field.tag field.value = .ok m' ↔ TcapField m field m' := by
  have hcomponents : drain (tlvTurn decodeComponent) m field.value = .ok m' ↔
      Sequence Component m field.value m' := drain_iff_sequence decodeComponent_iff
  unfold decodeTcapField
  by_cases htid : field.tag = kTcapTagOtid ∨ field.tag = kTcapTagDtid
  · rw [if_pos htid]
    constructor
    · intro h
      exact .tid htid (Except.ok.inj h).symm
    · intro h
      cases h with
      | tid _ hm => exact congrArg Except.ok hm.symm
      | components htag =>
        rw [htag] at htid
        exact absurd htid (by decide)
      | skipped hotid hdtid => exact absurd htid (not_or.mpr ⟨hotid, hdtid⟩)
  · rw [if_neg htid]
    obtain ⟨hotid, hdtid⟩ := not_or.mp htid
    by_cases hcomps : field.tag = kTcapTagComponents
    · rw [if_pos hcomps, hcomponents]
      constructor
      · exact .components hcomps
      · intro h
        cases h with
        | components _ hseq => exact hseq
        | tid htag => exact absurd htag htid
        | skipped _ _ htag => exact absurd hcomps htag
    · rw [if_neg hcomps]
      constructor
      · intro h
        exact .skipped hotid hdtid hcomps (Except.ok.inj h).symm
      · intro h
        cases h with
        | skipped _ _ _ hm => exact congrArg Except.ok hm.symm
        | tid htag => exact absurd htag htid
        | components htag => exact absurd htag hcomps

/-- Bytes are decoded to a message if and only if the format says that they are this message. -/
theorem decodes_iff_isPdu (data : Bytes) (m : MapMessage) : decode data = .ok m ↔ IsPdu data m := by
  rw [decode, readTlv_bind_eq_ok_iff]
  have hfields {pdu : BerTlv} : drain (tlvTurn decodeTcapField) {} pdu.value = .ok m ↔
      Sequence TcapField {} pdu.value m := drain_iff_sequence decodeTcapField_iff
  constructor
  · rintro ⟨pdu, rest, hdata, h⟩
    exact ⟨pdu, rest, hdata, hfields.mp h⟩
  · rintro ⟨pdu, rest, hdata, h⟩
    exact ⟨pdu, rest, hdata, hfields.mpr h⟩

end GsupMapProxy.Map
