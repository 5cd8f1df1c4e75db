import GsupMapProxy.Map.Proofs.RoundTrip

/-!
# Which messages share an encoding

Two messages of one operation and component that are encoded alike agree in the fields the encoder
writes, with two reservations: an absent number of vectors and an absent error code are written as
their defaults, and a lone SGSN number looks like a lone SGSN address.
-/

namespace GsupMapProxy.Map

open Misc Ber

/-- The fields that `map::encode` writes for the component and operation of a message, the others
at their defaults. A ReturnResult is written with the request encoder for the three operations
that the HLR invokes. -/
def writtenFields (m : MapMessage) : MapMessage :=
  match m.component with
  | .invoke =>
      match m.operation with
      | .sendAuthenticationInfo =>
          { wireHead m with imsi := m.imsi, numRequestedVectors := m.numRequestedVectors }
      | .updateGprsLocation =>
          { wireHead m with
            imsi := m.imsi, sgsnNumber := m.sgsnNumber, sgsnAddress := m.sgsnAddress }
      | .cancelLocation => { wireHead m with imsi := m.imsi, cancelType := m.cancelType }
      | .insertSubscriberData => { wireHead m with imsi := m.imsi, msisdn := m.msisdn }
      | .deleteSubscriberData => { wireHead m with imsi := m.imsi }
      | .purgeMS => { wireHead m with imsi := m.imsi, sgsnNumber := m.sgsnNumber }
      | _ => wireHead m
  | .returnResult =>
      match m.operation with
      | .sendAuthenticationInfo =>
          { wireHead m with
            authTriplets := m.authTriplets, authQuintuplets := m.authQuintuplets }
      | .updateGprsLocation => { wireHead m with hlrNumber := m.hlrNumber }
      | .cancelLocation => { wireHead m with imsi := m.imsi, cancelType := m.cancelType }
      | .insertSubscriberData => { wireHead m with imsi := m.imsi, msisdn := m.msisdn }
      | .deleteSubscriberData => { wireHead m with imsi := m.imsi }
      | .purgeMS => { wireHead m with freezePtmsi := m.freezePtmsi }
      | _ => wireHead m
  | _ =>
      { transactionId := m.transactionId, component := m.component, invokeId := m.invokeId,
        errorCode := m.errorCode }

/-- The values written in place of absent ones (`MapCodec.cpp:80` and `207`). -/
def withDefaults (m : MapMessage) : MapMessage :=
  { m with
    numRequestedVectors := some (m.numRequestedVectors.getD 1)
    errorCode := some (m.errorCode.getD 34) }

/-- One UpdateGprsLocation has an SGSN number alone, the other an SGSN address alone. -/
def LoneSwapped (m₁ m₂ : MapMessage) : Prop :=
  m₁.operation = .updateGprsLocation ∧ m₁.component = .invoke ∧
    ((m₁.sgsnNumber.isSome ∧ m₁.sgsnAddress = none ∧ m₂.sgsnNumber = none ∧
        m₂.sgsnAddress.isSome) ∨
      (m₂.sgsnNumber.isSome ∧ m₂.sgsnAddress = none ∧ m₁.sgsnNumber = none ∧
        m₁.sgsnAddress.isSome))

/-- The other fields. -/
def withoutSgsn (m : MapMessage) : MapMessage := { m with sgsnNumber := none, sgsnAddress := none }

/-! ## Encodings cut into TLVs -/

/-- A TLV determines where it ends in a longer byte string. -/
theorem writeTlv_append_inj {t₁ t₂ : UInt8} {v₁ v₂ b₁ b₂ r₁ r₂ : Bytes}
    (h₁ : writeTlv t₁ v₁ = .ok b₁) (h₂ : writeTlv t₂ v₂ = .ok b₂) (h : b₁ ++ r₁ = b₂ ++ r₂) :
    t₁ = t₂ ∧ v₁ = v₂ ∧ r₁ = r₂ := by
  have hread₁ := readTlv_writeTlv r₁ h₁
  have hread₂ := readTlv_writeTlv r₂ h₂
  rw [h, hread₂] at hread₁
  simp only [Except.ok.injEq, Prod.mk.injEq] at hread₁
  exact ⟨hread₁.1.1.symm, hread₁.1.2.symm, hread₁.2.symm⟩

theorem writeTlv_inj {t₁ t₂ : UInt8} {v₁ v₂ b : Bytes} (h₁ : writeTlv t₁ v₁ = .ok b)
    (h₂ : writeTlv t₂ v₂ = .ok b) : v₁ = v₂ := by
  have h : b ++ [] = b ++ [] := rfl
  exact (writeTlv_append_inj h₁ h₂ h).2.1

/-- Answers with equal encodings have equal arguments. -/
theorem encodeArgs_eq_of_encode {m₁ m₂ : MapMessage} {b : Bytes}
    (hres₁ : m₁.component = .returnResult) (hres₂ : m₂.component = .returnResult)
    (h₁ : encode m₁ = .ok b) (h₂ : encode m₂ = .ok b) :
    ∃ args, encodeArgs m₁ = .ok args ∧ encodeArgs m₂ = .ok args := by
  simp only [encode, encodeComponent, hres₁, encodeReturnResult, except_bind_eq_ok] at h₁
  simp only [encode, encodeComponent, hres₂, encodeReturnResult, except_bind_eq_ok] at h₂
  obtain ⟨args₁, hargs₁, comp₁, ⟨op₁, hop₁, seq₁, hseq₁, id₁, hid₁, hcomp₁⟩, portion₁, hportion₁,
    tid₁, htid₁, hb₁⟩ := h₁
  obtain ⟨args₂, hargs₂, comp₂, ⟨op₂, hop₂, seq₂, hseq₂, id₂, hid₂, hcomp₂⟩, portion₂, hportion₂,
    tid₂, htid₂, hb₂⟩ := h₂
  obtain ⟨-, -, rfl⟩ := writeTlv_append_inj htid₁ htid₂ (writeTlv_inj hb₁ hb₂)
  obtain rfl := writeTlv_inj hportion₁ hportion₂
  obtain ⟨-, -, rfl⟩ := writeTlv_append_inj hid₁ hid₂ (writeTlv_inj hcomp₁ hcomp₂)
  obtain ⟨-, -, rfl⟩ := writeTlv_append_inj hop₁ hop₂ (writeTlv_inj hseq₁ hseq₂)
  exact ⟨args₁, hargs₁, hargs₂⟩

/-! ## Equal encodings -/

section

variable {m₁ m₂ : MapMessage} {b : Bytes}

theorem wireView_eq_of_encode (hd₁ : Digits m₁.imsi) (hd₂ : Digits m₂.imsi)
    (h₁ : encode m₁ = .ok b) (h₂ : encode m₂ = .ok b) : wireView m₁ = wireView m₂ := by
  have hview₁ := decode_of_encode (fun _ => hd₁) h₁
  have hview₂ := decode_of_encode (fun _ => hd₂) h₂
  rw [hview₁] at hview₂
  exact Except.ok.inj hview₂

/-- The two SGSN fields from what the decoder makes of them. -/
theorem sgsn_fields_eq {n₁ n₂ a₁ a₂ : Option Bytes} (hor : n₁.or a₁ = n₂.or a₂)
    (hbind : (n₁.bind fun _ => a₁) = n₂.bind fun _ => a₂)
    (hswap : ¬ ((n₁.isSome ∧ a₁ = none ∧ n₂ = none ∧ a₂.isSome) ∨
      (n₂.isSome ∧ a₂ = none ∧ n₁ = none ∧ a₁.isSome))) : n₁ = n₂ ∧ a₁ = a₂ := by
  cases n₁ <;> cases n₂ <;> cases a₁ <;> cases a₂ <;> simp_all

/-- The operations whose results carry arguments that the decoder skips. -/
def skippedResults : List MapOperation :=
  [.cancelLocation, .insertSubscriberData, .deleteSubscriberData]

/-- Elsewhere the decoder returns what was written. -/
theorem writtenFields_eq_wireView {m : MapMessage} (hrej : m.component ≠ .reject)
    (hinv : m.component = .invoke → m.operation ≠ .updateGprsLocation)
    (hres : m.component = .returnResult → m.operation ∉ skippedResults) :
    writtenFields (withDefaults m) = wireView m := by
  obtain ⟨tid, component, id, last, operation⟩ := m
  cases component with
  | invoke =>
    cases operation with
    | updateGprsLocation => exact absurd rfl (hinv rfl)
    | _ => rfl
  | returnResult =>
    cases operation with
    | cancelLocation => exact absurd (by simp [skippedResults]) (hres rfl)
    | insertSubscriberData => exact absurd (by simp [skippedResults]) (hres rfl)
    | deleteSubscriberData => exact absurd (by simp [skippedResults]) (hres rfl)
    | _ => rfl
  | returnError => rfl
  | reject => exact absurd rfl hrej

theorem wireHead_eq_of_wireView (hcomp : m₁.component = m₂.component)
    (hop : m₁.operation = m₂.operation) (hview : wireView m₁ = wireView m₂) :
    wireHead m₁ = wireHead m₂ := by
  have hids : ∀ m, (wireView m).transactionId = m.transactionId ∧
      (wireView m).invokeId = m.invokeId := by
    rintro ⟨tid, component, id, last, operation⟩
    cases component <;> cases operation <;> exact ⟨rfl, rfl⟩
  rw [wireHead, wireHead, hcomp, hop, ← (hids m₁).1, ← (hids m₂).1, ← (hids m₁).2, ← (hids m₂).2,
    hview]

theorem updateGprsLocation_writtenFields_eq (hinv₁ : m₁.component = .invoke)
    (hinv₂ : m₂.component = .invoke) (hop₁ : m₁.operation = .updateGprsLocation)
    (hop₂ : m₂.operation = .updateGprsLocation) (hview : wireView m₁ = wireView m₂) :
    withoutSgsn (writtenFields (withDefaults m₁)) =
        withoutSgsn (writtenFields (withDefaults m₂)) ∧
      (¬ LoneSwapped m₁ m₂ →
        writtenFields (withDefaults m₁) = writtenFields (withDefaults m₂)) := by
  have hform : ∀ m : MapMessage, m.component = .invoke → m.operation = .updateGprsLocation →
      wireView m = { wireHead m with
        imsi := m.imsi, sgsnNumber := m.sgsnNumber.or m.sgsnAddress,
        sgsnAddress := m.sgsnNumber.bind fun _ => m.sgsnAddress } ∧
      writtenFields (withDefaults m) = { wireHead m with
        imsi := m.imsi, sgsnNumber := m.sgsnNumber, sgsnAddress := m.sgsnAddress } := by
    rintro ⟨tid, component, id, last, operation⟩ rfl rfl
    exact ⟨rfl, rfl⟩
  obtain ⟨hview₁, hfields₁⟩ := hform m₁ hinv₁ hop₁
  obtain ⟨hview₂, hfields₂⟩ := hform m₂ hinv₂ hop₂
  have hhead := wireHead_eq_of_wireView (hinv₁.trans hinv₂.symm) (hop₁.trans hop₂.symm) hview
  rw [hview₁, hview₂] at hview
  have himsi := congrArg MapMessage.imsi hview
  have hor := congrArg MapMessage.sgsnNumber hview
  have hbind := congrArg MapMessage.sgsnAddress hview
  dsimp only at himsi hor hbind
  rw [hfields₁, hfields₂, hhead, himsi]
  refine ⟨rfl, ?_⟩
  intro hswap
  obtain ⟨hnumber, haddress⟩ := sgsn_fields_eq hor hbind (fun h => hswap ⟨hop₁, hinv₁, h⟩)
  rw [hnumber, haddress]

/-- The arguments of a result that the decoder skips can be read with that of the request. -/
theorem skippedResult_decodes {op : MapOperation} (hskipped : op ∈ skippedResults) :
    ∃ read : BufferReader → MapMessage → Except Exn MapMessage, ∀ (m : MapMessage) (args : Bytes),
      m.component = .returnResult → m.operation = op → Digits m.imsi → encodeArgs m = .ok args →
      read args (wireHead m) = .ok (writtenFields (withDefaults m)) := by
  simp only [skippedResults, List.mem_cons, List.not_mem_nil, or_false] at hskipped
  rcases hskipped with rfl | rfl | rfl
  · refine ⟨decodeCancelLocationReq, ?_⟩
    rintro ⟨tid, component, id, last, operation⟩ args rfl rfl hd hargs
    exact decodeCancelLocationReq_encode hd hargs
  · refine ⟨decodeInsertSubscriberDataReq, ?_⟩
    rintro ⟨tid, component, id, last, operation⟩ args rfl rfl hd hargs
    exact decodeInsertSubscriberDataReq_encode hd hargs
  · refine ⟨decodeDeleteSubscriberDataReq, ?_⟩
    rintro ⟨tid, component, id, last, operation⟩ args rfl rfl hd hargs
    exact decodeDeleteSubscriberDataReq_encode hd hargs

theorem skippedResult_writtenFields_eq (hres₁ : m₁.component = .returnResult)
    (hres₂ : m₂.component = .returnResult) (hop : m₁.operation = m₂.operation)
    (hskipped : m₁.operation ∈ skippedResults) (hd₁ : Digits m₁.imsi) (hd₂ : Digits m₂.imsi)
    (hhead : wireHead m₁ = wireHead m₂) (h₁ : encode m₁ = .ok b) (h₂ : encode m₂ = .ok b) :
    writtenFields (withDefaults m₁) = writtenFields (withDefaults m₂) := by
  obtain ⟨args, hargs₁, hargs₂⟩ := encodeArgs_eq_of_encode hres₁ hres₂ h₁ h₂
  obtain ⟨read, hread⟩ := skippedResult_decodes hskipped
  have hread₁ := hread m₁ args hres₁ rfl hd₁ hargs₁
  have hread₂ := hread m₂ args hres₂ hop.symm hd₂ hargs₂
  rw [hhead, hread₂] at hread₁
  exact (Except.ok.inj hread₁).symm

theorem component_ne_reject {m : MapMessage} (h : encode m = .ok b) : m.component ≠ .reject := by
  intro hrej
  simp only [encode, encodeComponent, hrej, except_bind_eq_ok] at h
  obtain ⟨_, -, _, hcomp, -⟩ := h
  cases hcomp

end

/-- Messages of one operation and component with equal encodings agree in the fields that are
written, absent values counted as the defaults that stand for them; in the SGSN fields, unless one
UpdateGprsLocation has an SGSN number alone and the other an SGSN address alone. -/
theorem encode_unambiguous {m₁ m₂ : MapMessage} {b : Bytes} (hop : m₁.operation = m₂.operation)
    (hcomp : m₁.component = m₂.component) (hd₁ : Digits m₁.imsi) (hd₂ : Digits m₂.imsi)
    (h₁ : encode m₁ = .ok b) (h₂ : encode m₂ = .ok b) :
    withoutSgsn (writtenFields (withDefaults m₁)) =
        withoutSgsn (writtenFields (withDefaults m₂)) ∧
      (¬ LoneSwapped m₁ m₂ →
        writtenFields (withDefaults m₁) = writtenFields (withDefaults m₂)) := by
  have hview := wireView_eq_of_encode hd₁ hd₂ h₁ h₂
  by_cases hupdate : m₁.component = .invoke ∧ m₁.operation = .updateGprsLocation
  · obtain ⟨hinv, hupdate⟩ := hupdate
    exact updateGprsLocation_writtenFields_eq hinv (hcomp ▸ hinv) hupdate (hop ▸ hupdate) hview
  have hfields : writtenFields (withDefaults m₁) = writtenFields (withDefaults m₂) := by
    by_cases hskipped : m₁.component = .returnResult ∧ m₁.operation ∈ skippedResults
    · obtain ⟨hres, hskipped⟩ := hskipped
      exact skippedResult_writtenFields_eq hres (hcomp ▸ hres) hop hskipped hd₁ hd₂
        (wireHead_eq_of_wireView hcomp hop hview) h₁ h₂
    · rw [writtenFields_eq_wireView (component_ne_reject h₁) (fun h h' => hupdate ⟨h, h'⟩)
        (fun h h' => hskipped ⟨h, h'⟩), hview]
      rw [hcomp, hop] at hupdate hskipped
      rw [writtenFields_eq_wireView (component_ne_reject h₂) (fun h h' => hupdate ⟨h, h'⟩)
        (fun h h' => hskipped ⟨h, h'⟩)]
  exact ⟨congrArg withoutSgsn hfields, fun _ => hfields⟩

/-- An UpdateGprsLocation with an SGSN number alone, and one with the same octets as an SGSN
address. -/
def loneNumber : MapMessage :=
  { operation := .updateGprsLocation, imsi := [0x31, 0x32], sgsnNumber := some [0x0A, 0x00] }

def loneAddress : MapMessage :=
  { operation := .updateGprsLocation, imsi := [0x31, 0x32], sgsnAddress := some [0x0A, 0x00] }

/-- Two absent error codes. -/
theorem encode_unambiguous_returnError :
    writtenFields (withDefaults { component := .returnError, transactionId := 7 }) =
      writtenFields (withDefaults
        { component := .returnError, transactionId := 7, errorCode := some 34 }) :=
  (encode_unambiguous rfl rfl digits_nil digits_nil rfl rfl).2 (fun h => by cases h.1)

/-- The two are encoded alike, and so are an absent number of vectors and one vector. -/
theorem lone_sgsn_field_ambiguous :
    (∃ b, encode loneNumber = .ok b ∧ encode loneAddress = .ok b ∧
      writtenFields loneNumber ≠ writtenFields loneAddress) ∧
    ∃ b, encode { operation := .sendAuthenticationInfo } = .ok b ∧
      encode { operation := .sendAuthenticationInfo, numRequestedVectors := some 1 } = .ok b ∧
      writtenFields { operation := .sendAuthenticationInfo } ≠
        writtenFields { operation := .sendAuthenticationInfo, numRequestedVectors := some 1 } := by
  refine ⟨⟨_, rfl, rfl, ?_⟩, _, rfl, rfl, ?_⟩
  · decide
  · decide

end GsupMapProxy.Map
