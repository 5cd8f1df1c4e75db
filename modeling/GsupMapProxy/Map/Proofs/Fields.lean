import GsupMapProxy.Map.Proofs.Bounds
import GsupMapProxy.Map.Proofs.Integers

/-!
# The identifiers a PDU carries

`pduFields` lists the TLVs of a PDU's TCAP portion, as they stand on the wire, and `components`
those of its component portions. The transaction id of a decoded message is the value of the
last transaction id TLV, its invoke id that of the last component the decoder knows.
-/

namespace GsupMapProxy.Map

open Misc Ber

/-- Tag and value of one TLV. -/
abbrev Tlv := UInt8 × Bytes

/-- The TLVs of a byte string, in order. -/
def tlvs (bs : Bytes) : Except Exn (List Tlv) :=
  drain (tlvTurn fun acc t val => .ok (acc ++ [(t, val)])) [] bs

/-- The TLVs inside the outermost TLV of a PDU. -/
def pduFields (data : Bytes) : Except Exn (List Tlv) := do
  let ((_, body), _) ← readTlv data
  tlvs body

/-- The TLVs of all component portions, in order. -/
def components : List Tlv → Except Exn (List Tlv)
  | [] => .ok []
  | (t, val) :: fields =>
      if t = kTcapTagComponents then do
        let comps ← tlvs val
        let rest ← components fields
        return comps ++ rest
      else components fields

/-- The value of the last TLV with one of the tags. -/
def lastOf (tags : List UInt8) (fields : List Tlv) : Option Bytes :=
  fields.foldl (fun found f => if f.1 ∈ tags then some f.2 else found) none

/-- The tags of the components the decoder knows. -/
def componentTags : List UInt8 := [kCompTagInvoke, kCompTagReturnResult, kCompTagReturnError]

/-- The value of a two's-complement INTEGER. -/
def integerValue (octets : Bytes) : Int :=
  let sign : Int := if octets.headD 0 &&& 0x80 ≠ 0 then -1 else 0
  octets.foldl (fun acc b => acc * 256 + (b.toNat : Int)) sign

/-- The INTEGER a component starts with. -/
def componentInvokeId (comp : Bytes) : Option Int :=
  match readTlv comp with
  | .ok ((_, val), _) => some (integerValue val)
  | .error _ => none

/-- The invoke id of a PDU: that of the last component the decoder knows. -/
def invokeIdOf (fields : List Tlv) : Option Int :=
  match components fields with
  | .ok comps => (lastOf componentTags comps).bind componentInvokeId
  | .error _ => none

/-! ## Loops as folds over the TLVs -/

/-- A loop over TLVs that succeeds is a fold of its body over the TLVs of its input. -/
theorem drain_tlvTurn_fold {σ : Type} {f : σ → UInt8 → Bytes → Except Exn σ} :
    ∀ (n : Nat) (bs : Bytes) (s s' : σ), bs.length ≤ n → drain (tlvTurn f) s bs = .ok s' →
      ∃ fields : List Tlv,
        (∀ acc, drain (tlvTurn fun acc t val => .ok (acc ++ [(t, val)])) acc bs =
          (.ok (acc ++ fields) : Except Exn (List Tlv))) ∧
        fields.foldlM (fun s field => f s field.1 field.2) s = .ok s' := by
  intro n
  induction n with
  | zero =>
    intro bs s s' hlen h
    obtain rfl : bs = [] := List.length_eq_zero_iff.mp (by omega)
    cases h
    exact ⟨[], fun acc => by rw [drain_nil, List.append_nil], rfl⟩
  | succ n ih =>
    intro bs s s' hlen h
    cases bs with
    | nil =>
      cases h
      exact ⟨[], fun acc => by rw [drain_nil, List.append_nil], rfl⟩
    | cons x xs =>
      rw [drain_cons (tlvTurn_consuming f), except_bind_eq_ok] at h
      obtain ⟨⟨s₁, rest⟩, hturn, hrest⟩ := h
      have hle := tlvTurn_consuming f s x xs s₁ rest hturn
      simp only [tlvTurn, except_bind_eq_ok] at hturn
      obtain ⟨⟨⟨t, val⟩, r⟩, hread, s₂, hf, hpair⟩ := hturn
      obtain ⟨rfl, rfl⟩ := Prod.mk.inj (Except.ok.inj hpair)
      simp only [List.length_cons] at hlen
      obtain ⟨fields, hfields, hfold⟩ := ih r s₂ s' (by dsimp only at hle; omega) hrest
      refine ⟨(t, val) :: fields, ?_, ?_⟩
      · intro acc
        rw [drain_cons (tlvTurn_consuming _), tlvTurn, hread, except_ok_bind]
        dsimp only
        rw [except_ok_bind, except_pure, except_ok_bind, hfields, List.append_assoc,
          List.singleton_append]
      · rw [List.foldlM_cons, hf]
        exact hfold

theorem fold_of_drain {σ : Type} {f : σ → UInt8 → Bytes → Except Exn σ} {bs : Bytes} {s s' : σ}
    (h : drain (tlvTurn f) s bs = .ok s') :
    ∃ fields, tlvs bs = .ok fields ∧
      fields.foldlM (fun s field => f s field.1 field.2) s = .ok s' := by
  obtain ⟨fields, hfields, hfold⟩ := drain_tlvTurn_fold bs.length bs s s' (Nat.le_refl _) h
  exact ⟨fields, by rw [tlvs, hfields [], List.nil_append], hfold⟩

/-- The decoded message is the fold over the TLVs of the PDU. -/
theorem fold_of_decode {data : Bytes} {m : MapMessage} {fields : List Tlv}
    (h : decode data = .ok m) (hfields : pduFields data = .ok fields) :
    fields.foldlM (fun s field => decodeTcapField s field.1 field.2) {} = .ok m := by
  obtain ⟨⟨⟨tag, body⟩, rest⟩, hread, h⟩ := except_bind_eq_ok.mp h
  dsimp only at h
  obtain ⟨fields', hfields', hfold⟩ := fold_of_drain h
  obtain rfl : fields' = fields := by
    rw [pduFields, hread, except_ok_bind] at hfields
    dsimp only at hfields
    rw [hfields'] at hfields
    exact Except.ok.inj hfields
  exact hfold

theorem lastOf_append (tags : List UInt8) (xs ys : List Tlv) :
    lastOf tags (xs ++ ys) = (lastOf tags ys).or (lastOf tags xs) := by
  unfold lastOf
  rw [List.foldl_append]
  generalize List.foldl (fun found f => if f.1 ∈ tags then some f.2 else found) none xs = start
  induction ys using List.reverseRecOn with
  | nil => rfl
  | append_singleton ys y ih =>
    rw [List.foldl_append, List.foldl_append, List.foldl_cons, List.foldl_nil, List.foldl_cons,
      List.foldl_nil]
    split
    · rfl
    · exact ih

theorem lastOf_cons (tags : List UInt8) (t : UInt8) (val : Bytes) (fields : List Tlv) :
    lastOf tags ((t, val) :: fields) =
      (lastOf tags fields).or (if t ∈ tags then some val else none) :=
  lastOf_append tags [(t, val)] fields

theorem exists_lastOf {tags tags' : List UInt8} (hsub : tags ⊆ tags') {fields : List Tlv}
    {val : Bytes} (h : lastOf tags fields = some val) :
    ∃ val', lastOf tags' fields = some val' := by
  induction fields generalizing val with
  | nil => cases h
  | cons field fields ih =>
    obtain ⟨t, fieldVal⟩ := field
    rw [lastOf_cons] at h ⊢
    cases hlater : lastOf tags' fields with
    | some val' => exact ⟨val', rfl⟩
    | none =>
      cases hrest : lastOf tags fields with
      | some val₁ =>
        obtain ⟨val', hval'⟩ := ih hrest
        rw [hlater] at hval'
        cases hval'
      | none =>
        rw [hrest, Option.none_or] at h
        split at h
        · rename_i ht
          exact ⟨fieldVal, by rw [Option.none_or, if_pos (hsub ht)]⟩
        · cases h

/-! ## Identifiers of a decoded message -/

theorem integerValue_eq_signedValue (octets : Bytes) :
    integerValue octets = signedValue octets := by
  have hfold : ∀ (bs : Bytes) (sign : Int),
      bs.foldl (fun acc b => acc * 256 + (b.toNat : Int)) sign =
        sign * 256 ^ bs.length + octetsValue bs := by
    intro bs sign
    induction bs using List.reverseRecOn with
    | nil => simp
    | append_singleton bs b ih =>
      rw [List.foldl_append, ih, octetsValue_concat, List.length_append, List.length_singleton,
        List.foldl_cons, List.foldl_nil, pow_succ]
      push_cast
      ring
  have hsign : octets.headD 0 &&& 0x80 ≠ 0 ↔ SignBit octets := by
    rw [Ne, and_0x80_eq_zero, SignBit]
    omega
  rw [integerValue, hfold, signedValue]
  by_cases hs : SignBit octets
  · rw [if_pos (hsign.mpr hs), if_pos hs]
    ring
  · rw [if_neg (fun h => hs (hsign.mp h)), if_neg hs]
    ring

/-- `decodeInt` is right about the low octet for INTEGERs of any length. -/
theorem narrow_decodeInt {octets : Bytes} {v : Int64} (h : decodeInt octets = .ok v) :
    ((narrow v).toNat : Int) = integerValue octets % 256 := by
  rw [integerValue_eq_signedValue]
  exact narrow_decodeInt_signed h

/-- The fields of a message that no argument decoder writes. -/
def head (m : MapMessage) : UInt32 × UInt8 × MapOperation × Option UInt8 :=
  (m.transactionId, m.invokeId, m.operation, m.errorCode)

theorem head_argsClosed (v : UInt32 × UInt8 × MapOperation × Option UInt8) :
    ArgsClosed fun m => head m = v where
  imsi := fun _ _ hm _ => hm
  numVectors := fun _ _ hm => hm
  triplets := fun _ _ hm => hm
  quintuplets := fun _ _ hm => hm
  sgsnNumber := fun _ _ hm => hm
  sgsnAddress := fun _ _ hm => hm
  hlrNumber := fun _ _ hm => hm
  msisdn := fun _ _ hm => hm
  cancelType := fun _ _ hm => hm
  freezePtmsi := fun _ _ hm => hm

/-- What a component can do to those fields, and where the INTEGERs stand that it takes them
from. -/
inductive ReadsHead (m m' : MapMessage) (t : UInt8) (val : Bytes) : Prop
  | invoke {id op : Tlv × BufferReader} {v o : Int64} (htag : t = kCompTagInvoke)
      (hid : readTlv val = .ok id) (hv : decodeInt id.1.2 = .ok v)
      (hop : readTlv id.2 = .ok op) (ho : decodeInt op.1.2 = .ok o)
      (hhead : head m' =
        (m.transactionId, narrow v, MapOperation.ofByte (narrow o), m.errorCode))
  | returnResult {id result op : Tlv × BufferReader} {v o : Int64} (hinvoke : t ≠ kCompTagInvoke)
      (htag : t = kCompTagReturnResult) (hid : readTlv val = .ok id)
      (hv : decodeInt id.1.2 = .ok v) (hresult : readTlv id.2 = .ok result)
      (hop : readTlv result.1.2 = .ok op) (ho : decodeInt op.1.2 = .ok o)
      (hhead : head m' =
        (m.transactionId, narrow v, MapOperation.ofByte (narrow o), m.errorCode))
  | returnError {id code : Tlv × BufferReader} {v e : Int64} (hinvoke : t ≠ kCompTagInvoke)
      (hresult : t ≠ kCompTagReturnResult) (htag : t = kCompTagReturnError)
      (hid : readTlv val = .ok id) (hv : decodeInt id.1.2 = .ok v)
      (hcode : readTlv id.2 = .ok code) (he : decodeInt code.1.2 = .ok e)
      (hhead : head m' = (m.transactionId, narrow v, m.operation, some (narrow e)))
  | skipped (hinvoke : t ≠ kCompTagInvoke) (hresult : t ≠ kCompTagReturnResult)
      (herror : t ≠ kCompTagReturnError) (hhead : head m' = head m)

theorem decodeComponent_readsHead {m m' : MapMessage} {t : UInt8} {val : Bytes}
    (h : decodeComponent m t val = .ok m') : ReadsHead m m' t val := by
  unfold decodeComponent at h
  split at h
  · rename_i htag
    simp only [except_bind_eq_ok] at h
    obtain ⟨id, hid, v, hv, op, hop, o, ho, h⟩ := h
    exact .invoke htag hid hv hop ho (decodeInvokeArgs_keeps (head_argsClosed _) rfl h)
  · rename_i hinvoke
    split at h
    · rename_i htag
      simp only [except_bind_eq_ok] at h
      obtain ⟨id, hid, v, hv, result, hresult, op, hop, o, ho, h⟩ := h
      exact .returnResult hinvoke htag hid hv hresult hop ho
        (decodeResultArgs_keeps (head_argsClosed _) rfl h)
    · rename_i hresult
      split at h
      · rename_i htag
        simp only [except_bind_eq_ok] at h
        obtain ⟨id, hid, v, hv, code, hcode, e, he, h⟩ := h
        cases h
        exact .returnError hinvoke hresult htag hid hv hcode he rfl
      · rename_i herror
        cases h
        exact .skipped hinvoke hresult herror rfl

/-- A component the decoder knows sets the invoke id from its first TLV, any other one nothing;
neither touches the transaction id. -/
theorem decodeComponent_ids {m m' : MapMessage} {t : UInt8} {val : Bytes}
    (h : decodeComponent m t val = .ok m') :
    m'.transactionId = m.transactionId ∧
      if t ∈ componentTags then
        ∃ v, componentInvokeId val = some v ∧ (m'.invokeId.toNat : Int) = v % 256
      else m'.invokeId = m.invokeId := by
  -- the three known components start alike
  have hknown : ∀ {id : Tlv × BufferReader} {v : Int64}, readTlv val = .ok id →
      decodeInt id.1.2 = .ok v → m'.invokeId = narrow v →
        ∃ v, componentInvokeId val = some v ∧ (m'.invokeId.toNat : Int) = v % 256 := by
    intro id v hid hv hm'
    exact ⟨_, by rw [componentInvokeId, hid], by rw [hm', narrow_decodeInt hv]⟩
  cases decodeComponent_readsHead h with
  | invoke htag hid hv _ _ hhead =>
    obtain ⟨htid, hrest⟩ := Prod.mk.inj hhead
    rw [if_pos (by simp [htag, componentTags])]
    exact ⟨htid, hknown hid hv (Prod.mk.inj hrest).1⟩
  | returnResult _ htag hid hv _ _ _ hhead =>
    obtain ⟨htid, hrest⟩ := Prod.mk.inj hhead
    rw [if_pos (by simp [htag, componentTags])]
    exact ⟨htid, hknown hid hv (Prod.mk.inj hrest).1⟩
  | returnError _ _ htag hid hv _ _ hhead =>
    obtain ⟨htid, hrest⟩ := Prod.mk.inj hhead
    rw [if_pos (by simp [htag, componentTags])]
    exact ⟨htid, hknown hid hv (Prod.mk.inj hrest).1⟩
  | skipped hinvoke hresult herror hhead =>
    obtain ⟨htid, hrest⟩ := Prod.mk.inj hhead
    rw [if_neg (by simp [componentTags, hinvoke, hresult, herror])]
    exact ⟨htid, (Prod.mk.inj hrest).1⟩

/-- Over a whole component portion the last known component counts. -/
theorem foldlM_decodeComponent_ids (comps : List Tlv) :
    ∀ {m m' : MapMessage},
      comps.foldlM (fun s field => decodeComponent s field.1 field.2) m = .ok m' →
      m'.transactionId = m.transactionId ∧
        match lastOf componentTags comps with
        | none => m'.invokeId = m.invokeId
        | some comp =>
            ∃ v, componentInvokeId comp = some v ∧ (m'.invokeId.toNat : Int) = v % 256 := by
  induction comps with
  | nil =>
    intro m m' h
    cases h
    exact ⟨rfl, rfl⟩
  | cons comp comps ih =>
    intro m m' h
    obtain ⟨t, val⟩ := comp
    rw [List.foldlM_cons, except_bind_eq_ok] at h
    obtain ⟨m₁, hm₁, h⟩ := h
    obtain ⟨htid₁, hid₁⟩ := decodeComponent_ids hm₁
    obtain ⟨htid, hid⟩ := ih h
    refine ⟨htid.trans htid₁, ?_⟩
    rw [lastOf_cons]
    cases hlast : lastOf componentTags comps with
    | some later =>
      rw [hlast] at hid
      exact hid
    | none =>
      rw [hlast] at hid
      by_cases htag : t ∈ componentTags
      · rw [if_pos htag] at hid₁
        obtain ⟨v, hv, hid₁⟩ := hid₁
        rw [if_pos htag]
        exact ⟨v, hv, by rw [hid, hid₁]⟩
      · rw [if_neg htag] at hid₁
        rw [if_neg htag]
        exact hid.trans hid₁

/-- What a TCAP field can do: set the transaction id, or decode the components in it, or
nothing. -/
theorem decodeTcapField_cases {m m' : MapMessage} {t : UInt8} {val : Bytes}
    (h : decodeTcapField m t val = .ok m') :
    (t ∈ [kTcapTagOtid, kTcapTagDtid] ∧ t ≠ kTcapTagComponents ∧
      m' = { m with transactionId := tidOfOctets val }) ∨
    (t ∉ [kTcapTagOtid, kTcapTagDtid] ∧ t = kTcapTagComponents ∧ ∃ comps, tlvs val = .ok comps ∧
      comps.foldlM (fun s field => decodeComponent s field.1 field.2) m = .ok m') ∨
    (t ∉ [kTcapTagOtid, kTcapTagDtid] ∧ t ≠ kTcapTagComponents ∧ m' = m) := by
  unfold decodeTcapField at h
  split at h
  · rename_i htag
    have hne : t ≠ kTcapTagComponents := by
      rcases htag with rfl | rfl <;> decide
    cases h
    exact .inl ⟨by simpa using htag, hne, rfl⟩
  · rename_i htag
    have hmem : t ∉ [kTcapTagOtid, kTcapTagDtid] := by simpa using htag
    split at h
    · rename_i hcomp
      exact .inr (.inl ⟨hmem, hcomp, fold_of_drain h⟩)
    · rename_i hcomp
      cases h
      exact .inr (.inr ⟨hmem, hcomp, rfl⟩)

/-- Over the whole PDU: the last transaction id TLV and the last known component count. -/
theorem foldlM_decodeTcapField_ids (fields : List Tlv) :
    ∀ {m m' : MapMessage},
      fields.foldlM (fun s field => decodeTcapField s field.1 field.2) m = .ok m' →
      m'.transactionId = ((lastOf [kTcapTagOtid, kTcapTagDtid] fields).map tidOfOctets).getD
        m.transactionId ∧
      ∃ comps, components fields = .ok comps ∧
        match lastOf componentTags comps with
        | none => m'.invokeId = m.invokeId
        | some comp =>
            ∃ v, componentInvokeId comp = some v ∧ (m'.invokeId.toNat : Int) = v % 256 := by
  induction fields with
  | nil =>
    intro m m' h
    cases h
    exact ⟨rfl, [], rfl, rfl⟩
  | cons field fields ih =>
    intro m m' h
    obtain ⟨t, val⟩ := field
    rw [List.foldlM_cons, except_bind_eq_ok] at h
    obtain ⟨m₁, hm₁, h⟩ := h
    obtain ⟨htid, comps, hcomps, hid⟩ := ih h
    rw [lastOf_cons]
    rcases decodeTcapField_cases hm₁ with ⟨hmem, hne, rfl⟩ | ⟨hmem, hcomp, inner, hinner, hfold⟩ |
      ⟨hmem, hne, rfl⟩
    · refine ⟨?_, comps, by rw [components, if_neg hne, hcomps], hid⟩
      rw [htid, if_pos hmem]
      cases lastOf [kTcapTagOtid, kTcapTagDtid] fields <;> rfl
    · obtain ⟨htid₁, hid₁⟩ := foldlM_decodeComponent_ids inner hfold
      rw [if_neg hmem, Option.or_none]
      refine ⟨by rw [htid, htid₁], inner ++ comps, ?_, ?_⟩
      · rw [components, if_pos hcomp, hinner, except_ok_bind, hcomps]
        rfl
      · rw [lastOf_append]
        cases hlast : lastOf componentTags comps with
        | some later =>
          rw [hlast] at hid
          exact hid
        | none =>
          rw [hlast] at hid
          dsimp only at hid
          rw [Option.none_or, hid]
          exact hid₁
    · rw [if_neg hmem, Option.or_none]
      exact ⟨htid, comps, by rw [components, if_neg hne, hcomps], hid⟩

/-- The identifiers of a decoded message, from the TLVs of its PDU. -/
theorem ids_of_decode {data : Bytes} {m : MapMessage} {fields : List Tlv}
    (h : decode data = .ok m) (hfields : pduFields data = .ok fields) :
    m.transactionId = ((lastOf [kTcapTagOtid, kTcapTagDtid] fields).map tidOfOctets).getD 0 ∧
      ∀ v, invokeIdOf fields = some v → (m.invokeId.toNat : Int) = v % 256 := by
  obtain ⟨htid, comps, hcomps, hid⟩ := foldlM_decodeTcapField_ids fields (fold_of_decode h hfields)
  refine ⟨htid, ?_⟩
  intro v hv
  rw [invokeIdOf, hcomps] at hv
  dsimp only at hv
  cases hlast : lastOf componentTags comps with
  | none => rw [hlast] at hv; cases hv
  | some comp =>
    rw [hlast] at hid hv
    obtain ⟨v', hv', hid⟩ := hid
    rw [Option.bind_some, hv'] at hv
    cases hv
    exact hid

/-! ## Identifiers of an encoded answer -/

theorem integerValue_encodeInt_widen (b : UInt8) :
    integerValue (encodeInt (widen b)) = (b.toNat : Int) := by
  revert b
  apply forall_octet
  decide +kernel

theorem tlvs_writeTlv {tag : UInt8} {val b : Bytes} (h : writeTlv tag val = .ok b) :
    tlvs b = .ok [(tag, val)] := by
  rw [tlvs, drain_writeTlv_last _ _ h]
  rfl

/-- An encoded answer holds its transaction id as four octets in a DTID, and its invoke id as
the INTEGER of the unsigned octet. -/
theorem ids_of_encode {r : MapMessage} {data : Bytes} (hinv : r.component ≠ .invoke)
    (h : encode r = .ok data) :
    ∃ fields, pduFields data = .ok fields ∧
      lastOf [kTcapTagDtid] fields = some (writeBE32 r.transactionId) ∧
      invokeIdOf fields = some (r.invokeId.toNat : Int) := by
  simp only [encode, if_neg hinv, except_bind_eq_ok] at h
  obtain ⟨args, -, comp, hcomp, portion, hportion, tid, htid, hb⟩ := h
  have hfields : pduFields data = .ok [(kTcapTagDtid, writeBE32 r.transactionId),
      (kTcapTagComponents, comp)] := by
    rw [pduFields, readTlv_wrapConstructed hb, except_ok_bind]
    dsimp only
    rw [tlvs, drain_writeTlv _ _ _ htid, except_ok_bind, drain_writeTlv_last _ _ hportion]
    rfl
  refine ⟨_, hfields, rfl, ?_⟩
  obtain ⟨tag, inner, rest, htag, hwrap, hread⟩ : ∃ tag inner rest, tag ∈ componentTags ∧
      wrapConstructed tag inner = .ok comp ∧
      readTlv inner = .ok ((kBerInt, encodeInt (widen r.invokeId)), rest) := by
    unfold encodeComponent at hcomp
    cases hc : r.component <;> rw [hc] at hcomp <;> dsimp only at hcomp
    case invoke => exact absurd hc hinv
    case returnResult =>
      simp only [encodeReturnResult, except_bind_eq_ok] at hcomp
      obtain ⟨op, -, seq, -, id, hid, hwrap⟩ := hcomp
      exact ⟨_, _, _, by simp [componentTags], hwrap, readTlv_writeTlvInt _ hid⟩
    case returnError =>
      simp only [encodeReturnError, except_bind_eq_ok] at hcomp
      obtain ⟨id, hid, code, -, hwrap⟩ := hcomp
      exact ⟨_, _, _, by simp [componentTags], hwrap, readTlv_writeTlvInt _ hid⟩
    case reject => cases hcomp
  have hcomps : components [(kTcapTagDtid, writeBE32 r.transactionId), (kTcapTagComponents, comp)] =
      .ok [(tag, inner)] := by
    rw [components, if_neg (by decide), components, if_pos rfl, tlvs_writeTlv hwrap,
      except_ok_bind]
    rfl
  have hlast : lastOf componentTags [(tag, inner)] = some inner := by
    rw [lastOf_cons, if_pos htag]
    rfl
  rw [invokeIdOf, hcomps]
  dsimp only
  rw [hlast, Option.bind_some, componentInvokeId, hread]
  dsimp only
  rw [integerValue_encodeInt_widen]

/-! ## Reading and writing identifiers -/

/-- Only four-octet identifiers survive being read and written. -/
theorem writeBE32_tidOfOctets_iff {d o : Bytes} :
    writeBE32 (tidOfOctets d) = o ↔ o.length = 4 ∧ tidOfOctets d = tidOfOctets o := by
  constructor
  · rintro rfl
    exact ⟨rfl, (tidOfOctets_writeBE32 _).symm⟩
  · rintro ⟨hlen, hvalue⟩
    rw [hvalue]
    obtain ⟨a, b, c, d', rfl⟩ : ∃ a b c d' : UInt8, o = [a, b, c, d'] := by
      match o, hlen with
      | [a, b, c, d'], _ => exact ⟨a, b, c, d', rfl⟩
    have hnat : (tidOfOctets [a, b, c, d']).toNat =
        a.toNat * 2 ^ 24 + b.toNat * 2 ^ 16 + c.toNat * 2 ^ 8 + d'.toNat := by
      have ha := a.toNat_lt
      have hb := b.toNat_lt
      have hc := c.toNat_lt
      have hd := d'.toNat_lt
      have hzero : (0 : UInt32).toNat = 0 := rfl
      simp only [tidOfOctets, List.foldl_cons, List.foldl_nil, uint32_shl8_or_toNat, hzero]
      omega
    have hoctet : ∀ (k : UInt32) (x : UInt8), k.toNat < 32 →
        (tidOfOctets [a, b, c, d']).toNat / 2 ^ k.toNat % 256 = x.toNat →
        ((tidOfOctets [a, b, c, d'] >>> k) &&& 0xFF).toUInt8 = x := by
      intro k x hk hx
      apply UInt8.toNat_inj.mp
      rw [uint32_octet_toNat _ k hk, hx]
    have ha := a.toNat_lt
    have hb := b.toNat_lt
    have hc := c.toNat_lt
    have hd := d'.toNat_lt
    have e24 : (24 : UInt32).toNat = 24 := rfl
    have e16 : (16 : UInt32).toNat = 16 := rfl
    have e8 : (8 : UInt32).toNat = 8 := rfl
    have e0 : (0 : UInt32).toNat = 0 := rfl
    have h24 := hoctet 24 a (by decide) (by rw [hnat, e24]; omega)
    have h16 := hoctet 16 b (by decide) (by rw [hnat, e16]; omega)
    have h8 := hoctet 8 c (by decide) (by rw [hnat, e8]; omega)
    have h0 := hoctet 0 d' (by decide) (by rw [hnat, e0]; omega)
    rw [show tidOfOctets [a, b, c, d'] >>> 0 = tidOfOctets [a, b, c, d'] by simp] at h0
    rw [writeBE32, h24, h16, h8, h0]

end GsupMapProxy.Map
