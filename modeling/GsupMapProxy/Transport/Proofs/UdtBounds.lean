import GsupMapProxy.Transport.ScccpCodec

/-!
# Reads outside a UDT

`decodeUdt` checks where its pointers lead, and for the data how long they say it is. For the
two addresses it does not, so an address that claims to extend past the message is read from
beyond it.
-/

namespace GsupMapProxy.Sccp

open Misc

/-- The computation has no undefined behaviour. It may throw. -/
def Defined {α : Type} (x : Except Fault α) : Prop := ∀ what, x ≠ .error (.undefined what)

/-- The part that the pointer at `pos` leads to, if it leads anywhere, ends inside the message. -/
def PartInside (raw : Bytes) (pos : Nat) : Prop :=
  ∀ ptr len, raw[pos]? = some ptr → raw[pos + ptr.toNat]? = some len →
    pos + ptr.toNat + 1 + len.toNat ≤ raw.length

/-- The addresses of a UDT end inside it. The calling one counts if the called one can be
decoded. -/
def AddressesInside (raw : Bytes) : Prop :=
  5 ≤ raw.length → raw.head? = some kMsgUdt →
    PartInside raw 2 ∧ ((∃ addr, decodeCalledParty raw = .ok addr) → PartInside raw 3)

@[simp] theorem defined_ok {α : Type} (a : α) : Defined (.ok a) := by
  intro what h
  cases h

@[simp] theorem defined_thrown {α : Type} (e : Exn) :
    Defined (.error (.thrown e) : Except Fault α) := by
  intro what h
  cases h

theorem defined_mapError {α : Type} (x : Except Exn α) : Defined (x.mapError Fault.thrown) := by
  cases x with
  | ok a => exact defined_ok a
  | error e => exact defined_thrown e

theorem defined_bind {α β : Type} {x : Except Fault α} {f : α → Except Fault β} :
    Defined (x >>= f) ↔ Defined x ∧ ∀ a, x = .ok a → Defined (f a) := by
  cases x with
  | ok a => simp
  | error e =>
    simp only [except_error_bind, reduceCtorEq, false_implies, implies_true, and_true, Defined,
      ne_eq, Except.error.injEq]

theorem partLength_defined {raw : Bytes} {pos : Nat} (h : pos < raw.length) (what : String) :
    Defined (partLength raw pos what) := by
  rw [partLength, List.getElem?_eq_getElem h]
  dsimp only
  split
  · exact defined_thrown _
  · exact defined_ok _

theorem partLength_eq_ok {raw : Bytes} {pos lenPos n : Nat} {what : String} :
    partLength raw pos what = .ok (lenPos, n) ↔ ∃ ptr len, raw[pos]? = some ptr ∧
      raw[pos + ptr.toNat]? = some len ∧ pos + ptr.toNat = lenPos ∧ len.toNat = n := by
  constructor
  · intro h
    unfold partLength at h
    split at h
    · cases h
    · rename_i ptr hptr
      split at h
      · cases h
      · rename_i len hlen
        cases h
        exact ⟨ptr, len, hptr, hlen, rfl, rfl⟩
  · rintro ⟨ptr, len, hptr, hlen, rfl, rfl⟩
    rw [partLength, hptr]
    dsimp only
    rw [hlen]

theorem slice_defined_iff {raw : Bytes} {lenPos len : Nat} :
    Defined (slice raw lenPos len) ↔ lenPos + 1 + len ≤ raw.length := by
  unfold slice
  split
  · simp [*]
  · rename_i h
    constructor
    · intro hdefined
      exact absurd rfl (hdefined _)
    · intro h'
      exact absurd h' h

/-- Decoding an address reads inside the message exactly when the address lies inside. -/
theorem decodeParty_defined_iff {raw : Bytes} {pos : Nat} (h : pos < raw.length) (what : String) :
    Defined (decodeParty raw pos what) ↔ PartInside raw pos := by
  rw [decodeParty, defined_bind]
  constructor
  · rintro ⟨-, hslice⟩ ptr len hptr hlen
    have hpart : partLength raw pos what = .ok (pos + ptr.toNat, len.toNat) :=
      partLength_eq_ok.mpr ⟨ptr, len, hptr, hlen, rfl, rfl⟩
    exact slice_defined_iff.mp (defined_bind.mp (hslice _ hpart)).1
  · intro hinside
    refine ⟨partLength_defined h what, ?_⟩
    rintro ⟨lenPos, n⟩ hpart
    obtain ⟨ptr, len, hptr, hlen, rfl, rfl⟩ := partLength_eq_ok.mp hpart
    rw [defined_bind]
    refine ⟨slice_defined_iff.mpr (hinside ptr len hptr hlen), ?_⟩
    intro bytes _
    exact defined_mapError _

theorem decodeUdt_defined_iff (raw : Bytes) : Defined (decodeUdt raw) ↔ AddressesInside raw := by
  unfold decodeUdt
  split
  · rename_i msgType protoClass p1 p2 p3 rest
    have hlen : 5 ≤ (msgType :: protoClass :: p1 :: p2 :: p3 :: rest).length := by simp
    split
    · rename_i htype
      constructor
      · intro _ _ hhead
        exact absurd (Option.some.inj hhead) htype
      · intro _
        exact defined_thrown _
    · rename_i htype
      rw [not_not] at htype
      rw [defined_bind, decodeCalledParty, decodeParty_defined_iff (by omega)]
      constructor
      · rintro ⟨hcalled, hcalling⟩ _ _
        refine ⟨hcalled, ?_⟩
        rintro ⟨addr, haddr⟩
        have := (defined_bind.mp (hcalling addr haddr)).1
        rwa [decodeCallingParty, decodeParty_defined_iff (by omega)] at this
      · intro hinside
        obtain ⟨hcalled, hcalling⟩ := hinside hlen (by rw [htype]; rfl)
        refine ⟨hcalled, ?_⟩
        intro addr haddr
        rw [defined_bind, decodeCallingParty, decodeParty_defined_iff (by omega)]
        refine ⟨hcalling ⟨addr, haddr⟩, ?_⟩
        intro calling _
        rw [defined_bind]
        refine ⟨partLength_defined (by omega) _, ?_⟩
        rintro ⟨dataLenPos, dataLen⟩ _
        dsimp only
        split
        · exact defined_thrown _
        · rename_i hfits
          rw [defined_bind]
          exact ⟨slice_defined_iff.mpr (by omega), fun _ _ => defined_ok _⟩
  · rename_i hshort
    constructor
    · intro _ hlen
      obtain ⟨msgType, protoClass, p1, p2, p3, rest, rfl⟩ :
          ∃ msgType protoClass p1 p2 p3 rest,
            raw = msgType :: protoClass :: p1 :: p2 :: p3 :: rest := by
        match raw, hlen with
        | a :: b :: c :: d :: e :: rest, _ => exact ⟨a, b, c, d, e, rest, rfl⟩
      exact absurd rfl (hshort msgType protoClass p1 p2 p3 rest)
    · intro _
      exact defined_thrown _

/-! ## The condition on the octets -/

/-- The octets `decodeAddress` reads one by one, by the address indicator: the indicator, the
subsystem number and the three octets in front of the digits. -/
def addressHeader (ai : UInt8) : Nat :=
  1 + (if ai &&& kAiSsnPresent ≠ 0 then 1 else 0) + if ai &&& 0x70 = kGtiTtNpEsNai then 3 else 0

/-- The address has the octets its indicator announces. -/
def AddressComplete (bytes : Bytes) : Prop := ∃ ai ∈ bytes.head?, addressHeader ai ≤ bytes.length

theorem decodeAddress_succeeds {bytes : Bytes} :
    (∃ addr, decodeAddress bytes = .ok addr) ↔ AddressComplete bytes := by
  cases bytes with
  | nil => simp [decodeAddress, AddressComplete, read8]
  | cons ai rest =>
    have hcomplete : AddressComplete (ai :: rest) ↔ addressHeader ai ≤ rest.length + 1 := by
      simp [AddressComplete]
    rw [hcomplete, addressHeader, decodeAddress, read8_cons, except_ok_bind]
    by_cases hssn : ai &&& kAiSsnPresent = 0 <;> by_cases hgti : ai &&& 0x70 = kGtiTtNpEsNai
    · rcases rest with _ | ⟨_, _ | ⟨_, _ | _⟩⟩ <;> simp [hssn, hgti, read8]
    · simp [hssn, hgti]
    · rcases rest with _ | ⟨_, _ | ⟨_, _ | ⟨_, _ | _⟩⟩⟩ <;> simp [hssn, hgti, read8]
    · cases rest <;> simp [hssn, hgti, read8]

/-- The called address has a length octet to start at and the octets its indicator announces. -/
def CalledComplete (raw : Bytes) : Prop :=
  ∃ ptr len, raw[2]? = some ptr ∧ raw[2 + ptr.toNat]? = some len ∧
    AddressComplete ((raw.drop (2 + ptr.toNat + 1)).take len.toNat)

/-- The called address ends inside the UDT, and so does the calling one, which is not looked at
if the called one is cut short. -/
def LengthsInside (raw : Bytes) : Prop :=
  5 ≤ raw.length → raw.head? = some kMsgUdt →
    PartInside raw 2 ∧ (CalledComplete raw → PartInside raw 3)

theorem mapError_thrown_eq_ok {α : Type} {x : Except Exn α} {a : α} :
    x.mapError Fault.thrown = .ok a ↔ x = .ok a := by
  cases x <;> simp [Except.mapError]

theorem decodeCalledParty_succeeds {raw : Bytes} (h : PartInside raw 2) :
    (∃ addr, decodeCalledParty raw = .ok addr) ↔ CalledComplete raw := by
  constructor
  · rintro ⟨addr, haddr⟩
    rw [decodeCalledParty, decodeParty, except_bind_eq_ok] at haddr
    obtain ⟨⟨lenPos, n⟩, hpart, haddr⟩ := haddr
    obtain ⟨bytes, hbytes, haddr⟩ := except_bind_eq_ok.mp haddr
    obtain ⟨ptr, len, hptr, hlen, rfl, rfl⟩ := partLength_eq_ok.mp hpart
    rw [slice, if_pos (h ptr len hptr hlen)] at hbytes
    cases hbytes
    exact ⟨ptr, len, hptr, hlen,
      decodeAddress_succeeds.mp ⟨addr, mapError_thrown_eq_ok.mp haddr⟩⟩
  · rintro ⟨ptr, len, hptr, hlen, hcomplete⟩
    obtain ⟨addr, haddr⟩ := decodeAddress_succeeds.mpr hcomplete
    refine ⟨addr, ?_⟩
    rw [decodeCalledParty, decodeParty, partLength_eq_ok.mpr ⟨ptr, len, hptr, hlen, rfl, rfl⟩,
      except_ok_bind]
    dsimp only
    rw [slice, if_pos (h ptr len hptr hlen), except_ok_bind, haddr]
    rfl

/-- Every octet and every part that `decodeUdt` takes lies inside the message, and it returns or
throws, if and only if the length octets of the two addresses keep to the message. -/
theorem decodeUdt_inside_iff (raw : Bytes) : Defined (decodeUdt raw) ↔ LengthsInside raw := by
  rw [decodeUdt_defined_iff]
  refine forall₂_congr fun _ _ => and_congr_right fun hcalled => ?_
  rw [decodeCalledParty_succeeds hcalled]

/-- A UDT of eight octets whose called address claims to have 255 of them. -/
theorem called_past_the_end :
    decodeUdt [0x09, 0x00, 0x03, 0x05, 0x07, 0xff, 0x42, 0x06] =
        .error (.undefined "iterator past the end") ∧
      ¬ Defined (decodeUdt [0x09, 0x00, 0x03, 0x05, 0x07, 0xff, 0x42, 0x06]) := by
  have hpast : decodeUdt [0x09, 0x00, 0x03, 0x05, 0x07, 0xff, 0x42, 0x06] =
      .error (.undefined "iterator past the end") := rfl
  exact ⟨hpast, fun h => h _ hpast⟩

end GsupMapProxy.Sccp
