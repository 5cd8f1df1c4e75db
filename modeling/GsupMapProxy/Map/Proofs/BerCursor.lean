import GsupMapProxy.Map.BerCursor
import GsupMapProxy.Map.Proofs.Bounds

/-!
# Reading TLVs stays in bounds and ends

A length comes from at most four octets, so it is below `2 ^ 32` and `pos_ + n` in `check` does
not wrap: reading with machine arithmetic is reading from the unread bytes. A TLV takes at least
two octets, so every loop over TLVs ends.
-/

namespace GsupMapProxy

open Misc

/-! ## Machine arithmetic -/

theorem raise_simulates {α β : Type} (view : α → β) (e : Exn) (r : Cursor) :
    Simulates view (.raise e) (fun _ => .error e) r where
  data := rfl
  checks := ⟨[], by rw [List.append_nil]; rfl, by simp⟩
  returns := by
    intro b rest hok
    cases hok
  throws := by
    intro e' herror
    cases herror
    rfl

theorem uint64_toNat_ofOctet (b : UInt8) : b.toUInt64.toNat = b.toNat := rfl

/-- The accumulator holds the octets read so far, and has room for those to come. -/
theorem readLengthOctets_simulates {n : Nat} {len : UInt64}
    (hroom : (len.toNat + 1) * 256 ^ n ≤ 2 ^ 32) (r : Cursor) :
    Simulates UInt64.toNat (Cursor.readLengthOctets n len)
      (Map.Ber.readLengthOctets n len.toNat) r := by
  induction n generalizing len r with
  | zero => exact simulates_pure rfl r
  | succ n ih =>
    refine (read8_simulates r).bind (g := fun b => Cursor.readLengthOctets n ((len <<< 8) |||
      b.toUInt64)) (h := fun b => Map.Ber.readLengthOctets n ((len.toNat <<< 8) ||| b.toNat)) ?_
    intro b rest _
    have hb := b.toNat_lt
    rw [pow_succ] at hroom
    have hone : 1 ≤ 256 ^ n := Nat.one_le_pow _ _ (by omega)
    have hlen : (len.toNat + 1) * 256 ≤ 2 ^ 32 := by
      calc (len.toNat + 1) * 256 = (len.toNat + 1) * (1 * 256) := by rw [Nat.one_mul]
        _ ≤ (len.toNat + 1) * (256 ^ n * 256) :=
          Nat.mul_le_mul_left _ (Nat.mul_le_mul_right _ hone)
        _ ≤ 2 ^ 32 := hroom
    have hword : ((len <<< 8) ||| b.toUInt64).toNat = len.toNat * 256 + b.toNat := by
      rw [uint64_shl8_or_toNat, Nat.mod_eq_of_lt (by omega)]
    have hnat : (len.toNat <<< 8) ||| b.toNat = len.toNat * 256 + b.toNat :=
      shiftLeft_eight_or _ hb
    rw [id_eq, hnat, ← hword]
    apply ih
    rw [hword]
    calc (len.toNat * 256 + b.toNat + 1) * 256 ^ n ≤ ((len.toNat + 1) * 256) * 256 ^ n :=
          Nat.mul_le_mul_right _ (by omega)
      _ = (len.toNat + 1) * (256 ^ n * 256) := by ring
      _ ≤ 2 ^ 32 := hroom

theorem readLength_simulates (r : Cursor) :
    Simulates UInt64.toNat Cursor.readLength Map.Ber.readLength r := by
  refine (read8_simulates r).bind (h := fun first rd =>
    if first ≤ 0x7F then pure (first.toNat, rd)
    else if first = 0x80 then
      .error (.runtimeError "BER: indefinite-length form not supported")
    else if first &&& 0x7F > 4 then .error (.runtimeError "BER: length field too large")
    else Map.Ber.readLengthOctets (first &&& 0x7F).toNat 0 rd) ?_
  intro first rest _
  rw [id_eq]
  by_cases h7f : first ≤ 0x7F
  · simp only [if_pos h7f]
    exact simulates_pure (uint64_toNat_ofOctet first) _
  simp only [if_neg h7f]
  by_cases h80 : first = 0x80
  · simp only [if_pos h80]
    exact raise_simulates _ _ _
  simp only [if_neg h80]
  by_cases h4 : first &&& 0x7F > 4
  · simp only [if_pos h4]
    exact raise_simulates _ _ _
  simp only [if_neg h4]
  apply readLengthOctets_simulates
  have hle : (first &&& 0x7F).toNat ≤ 4 := by
    rw [gt_iff_lt, UInt8.lt_iff_toNat_lt] at h4
    exact Nat.le_of_not_lt h4
  calc ((0 : UInt64).toNat + 1) * 256 ^ (first &&& 0x7F).toNat = 256 ^ (first &&& 0x7F).toNat := by
        rw [show (0 : UInt64).toNat = 0 from rfl, Nat.zero_add, Nat.one_mul]
    _ ≤ 256 ^ 4 := Nat.pow_le_pow_right (by omega) hle
    _ = 2 ^ 32 := by norm_num

/-! ## What a length field says -/

namespace Map

open Ber

theorem DeclaresLength.lt {octets : Bytes} {len : Nat} (h : DeclaresLength octets len) :
    len < 2 ^ 32 := by
  cases h with
  | short h => omega
  | @long octets hpos hmax =>
    calc octetsValue octets < 256 ^ octets.length := octetsValue_lt octets
      _ ≤ 256 ^ 4 := Nat.pow_le_pow_right (by omega) hmax
      _ = 2 ^ 32 := by norm_num

theorem DeclaresLength.length_pos {octets : Bytes} {len : Nat} (h : DeclaresLength octets len) :
    1 ≤ octets.length := by
  cases h with
  | short h => exact Nat.le_refl 1
  | long hpos hmax => exact Nat.le_add_left 1 _

theorem readLengthOctets_value {n acc len : Nat} {r rest : BufferReader}
    (h : readLengthOctets n acc r = .ok (len, rest)) :
    ∃ octets : Bytes, r = octets ++ rest ∧ octets.length = n ∧
      len = octets.foldl (fun acc b => acc * 256 + b.toNat) acc := by
  induction n generalizing acc r with
  | zero =>
    cases h
    exact ⟨[], rfl, rfl, rfl⟩
  | succ n ih =>
    simp only [readLengthOctets, except_bind_eq_ok] at h
    obtain ⟨⟨b, r'⟩, hb, hrec⟩ := h
    obtain ⟨octets, hr', hlen, hvalue⟩ := ih hrec
    dsimp only at hr'
    rw [shiftLeft_eight_or _ b.toNat_lt] at hvalue
    refine ⟨b :: octets, ?_, by rw [List.length_cons, hlen], hvalue⟩
    rw [read8_eq_ok.mp hb, hr', List.cons_append]

/-- The first octet of the long form says how many follow. -/
theorem longForm_octet (first : UInt8) : ¬ first ≤ 0x7F → ¬ first = 0x80 →
    ¬ first &&& 0x7F > 4 → 0 < (first &&& 0x7F).toNat ∧ (first &&& 0x7F).toNat ≤ 4 ∧
      first = UInt8.ofNat (128 + (first &&& 0x7F).toNat) := by
  revert first
  apply forall_octet
  decide +kernel

theorem readLength_declares {len : Nat} {r rest : BufferReader}
    (h : readLength r = .ok (len, rest)) :
    ∃ octets, r = octets ++ rest ∧ DeclaresLength octets len := by
  simp only [readLength, except_bind_eq_ok] at h
  obtain ⟨⟨first, r'⟩, hfirst, h⟩ := h
  rw [read8_eq_ok.mp hfirst]
  dsimp only at h
  split at h
  · rename_i h7f
    cases h
    refine ⟨[first], rfl, .short ?_⟩
    rw [UInt8.le_iff_toNat_le] at h7f
    exact Nat.lt_succ_of_le h7f
  rename_i h7f
  split at h
  · cases h
  rename_i h80
  split at h
  · cases h
  rename_i h4
  obtain ⟨octets, rfl, hlen, rfl⟩ := readLengthOctets_value h
  obtain ⟨hpos, hmax, hform⟩ := longForm_octet first h7f h80 h4
  rw [← hlen] at hpos hmax hform
  refine ⟨first :: octets, rfl, ?_⟩
  rw [hform]
  exact .long hpos hmax

/-- A TLV stands in front of the unread bytes as tag, length field and value. -/
theorem readTlv_layout {tag : UInt8} {value : Bytes} {r rest : BufferReader}
    (h : readTlv r = .ok ((tag, value), rest)) :
    ∃ octets, r = (tag :: (octets ++ value)) ++ rest ∧ DeclaresLength octets value.length := by
  simp only [readTlv, except_bind_eq_ok] at h
  obtain ⟨⟨t, r1⟩, h1, ⟨len, r2⟩, h2, ⟨v, r3⟩, h3, hr⟩ := h
  cases hr
  obtain ⟨octets, hr1, hlen⟩ := readLength_declares h2
  obtain ⟨hr2, hvalue⟩ := readBytes_eq_ok h3
  dsimp only at hr1 hr2 hvalue
  refine ⟨octets, ?_, by rw [hvalue]; exact hlen⟩
  rw [read8_eq_ok.mp h1, hr1, hr2, List.cons_append, List.append_assoc]

end Map

/-! ## TLVs -/

theorem readTlv_simulates (r : Cursor) : Simulates id Cursor.readTlv Map.Ber.readTlv r := by
  refine (read8_simulates r).bind (h := fun tag rd =>
    Map.Ber.readLength rd >>= fun p => GsupMapProxy.readBytes p.1 p.2 >>= fun q =>
      .ok ((tag, q.1), q.2)) ?_
  intro tag rest _
  refine (readLength_simulates _).bind (h := fun len rd =>
    GsupMapProxy.readBytes len rd >>= fun q => .ok ((tag, q.1), q.2)) ?_
  intro len rest' hlen
  obtain ⟨octets, -, hdeclares⟩ := Map.readLength_declares hlen
  refine (readBytes_simulates hdeclares.lt _).bind
    (h := fun value rd => .ok ((tag, value), rd)) ?_
  intro value rest'' _
  exact simulates_pure rfl _

namespace Map

open Ber

/-- Reading a TLV at `r` throws, or returns the tag there and exactly as many bytes behind the
length field as it declares, and stops behind them; no check it makes wraps. -/
def TlvExact (r : Cursor) : Prop :=
  let out := Cursor.readTlv r
  (∃ more, out.2.checks = r.checks ++ more ∧ ∀ c ∈ more, Unwrapped c) ∧
    ((∃ e, out.1 = .error (.thrown e)) ∨
      ∃ tag octets value, out.1 = .ok (tag, value) ∧ DeclaresLength octets value.length ∧
        r.rest = (tag :: (octets ++ value)) ++ out.2.rest ∧ out.2.data = r.data ∧
        out.2.pos.toNat = r.pos.toNat + 1 + octets.length + value.length ∧
        out.2.pos.toNat ≤ r.data.length ∧ r.pos.toNat + 2 ≤ out.2.pos.toNat)

theorem readTlv_exact (r : Cursor) : TlvExact r := by
  have hsim := readTlv_simulates r
  refine ⟨hsim.checks, ?_⟩
  cases hread : readTlv r.rest with
  | error e => exact .inl ⟨e, hsim.throws e hread⟩
  | ok p =>
    obtain ⟨⟨tag, value⟩, rest⟩ := p
    obtain ⟨out, hout, hview, hrest⟩ := hsim.returns _ _ hread
    rw [id_eq] at hview
    obtain ⟨octets, hlayout, hdeclares⟩ := readTlv_layout hread
    rw [← hrest] at hlayout
    have hpos := Cursor.pos_eq_of_rest hsim.data hlayout
    have hinside := (Cursor.readTlv r).2.inside
    have hone := hdeclares.length_pos
    rw [hsim.data] at hinside
    rw [List.length_cons, List.length_append] at hpos
    exact .inr ⟨tag, octets, value, by rw [hout, hview], hdeclares, hlayout, hsim.data, by omega,
      hinside, by omega⟩

/-- The loop over the TLVs of any reader ends, with what `drain` computes. -/
theorem tlvLoop_ends {σ : Type} (f : σ → UInt8 → Bytes → Except Exn σ) :
    ∀ (n : Nat) (s : σ) (r : Cursor), r.rest.length ≤ n →
      TlvLoop f s r ((drain (tlvTurn f) s r.rest).mapError .thrown) := by
  intro n
  induction n with
  | zero =>
    intro s r hlen
    have hnil : r.rest = [] := List.length_eq_zero_iff.mp (by omega)
    rw [hnil]
    exact .done (r.empty_iff.mpr hnil)
  | succ n ih =>
    intro s r hlen
    cases hr : r.rest with
    | nil => exact .done (r.empty_iff.mpr hr)
    | cons x xs =>
      have hmore : ¬ r.empty := by
        rw [r.empty_iff, hr]
        exact List.cons_ne_nil x xs
      have hsim := readTlv_simulates r
      rw [drain_cons (tlvTurn_consuming f), ← hr, tlvTurn]
      cases hread : readTlv r.rest with
      | error e => exact .readThrows hmore (hsim.throws e hread)
      | ok p =>
        obtain ⟨⟨t, val⟩, rest⟩ := p
        obtain ⟨out, hout, hview, hrest⟩ := hsim.returns _ _ hread
        obtain rfl : out = (t, val) := hview
        rw [except_ok_bind]
        dsimp only
        cases hbody : f s t val with
        | error e => exact .bodyThrows hmore hout hbody
        | ok s' =>
          rw [except_ok_bind, except_pure, except_ok_bind, ← hrest]
          have hshorter := readTlv_length hread
          exact .turn hmore hout hbody (ih s' _ (by rw [hrest]; omega))

theorem writeTlv_throws {tag : UInt8} {value : Bytes} (h : 0xFFFF < value.length) :
    writeTlv tag value = .error (.runtimeError "BER: length too large for 2-byte form") := by
  rw [writeTlv, writeLength, if_neg (by omega), if_neg (by omega), if_neg (by omega)]
  rfl

/-- Reading a TLV is exact wherever the reader stands, every loop over TLVs ends whatever its
body and its input, and a TLV that was written is read back up to its last byte. -/
theorem tlv_reading_exact :
    (∀ r : Cursor, TlvExact r) ∧
    (∀ {σ : Type} (f : σ → UInt8 → Bytes → Except Exn σ) (s : σ) (r : Cursor),
      TlvLoop f s r ((drain (tlvTurn f) s r.rest).mapError .thrown)) ∧
    (∀ (tag : UInt8) (value : Bytes), value.length ≤ 0xFFFF →
      ∃ b, writeTlv tag value = .ok b ∧ ∀ (r : Cursor) (suffix : Bytes), r.rest = b ++ suffix →
        (Cursor.readTlv r).1 = .ok (tag, value) ∧ (Cursor.readTlv r).2.rest = suffix ∧
        (Cursor.readTlv r).2.pos.toNat = r.pos.toNat + b.length) ∧
    ∀ (tag : UInt8) (value : Bytes), 0xFFFF < value.length →
      ∃ e, writeTlv tag value = .error e := by
  refine ⟨readTlv_exact, ?_, ?_, ?_⟩
  · intro σ f s r
    exact tlvLoop_ends f _ s r (Nat.le_refl _)
  · intro tag value hlen
    obtain ⟨b, hb, -⟩ := writeTlv_sized tag (Nat.le_refl _) hlen
    refine ⟨b, hb, ?_⟩
    intro r suffix hr
    have hsim := readTlv_simulates r
    have hread := readTlv_writeTlv suffix hb
    rw [← hr] at hread
    obtain ⟨out, hout, hview, hrest⟩ := hsim.returns _ _ hread
    rw [id_eq] at hview
    refine ⟨by rw [hout, hview], hrest, Cursor.pos_eq_of_rest hsim.data ?_⟩
    rw [hrest, hr]
  · intro tag value hlong
    exact ⟨_, writeTlv_throws hlong⟩

/-- A reader behind the tag of an octet string of two bytes, and one more byte after it. -/
theorem tlv_reading_at_one :
    (Cursor.readTlv ⟨[0x30, 0x04, 0x02, 0x11, 0x22, 0x05], 1, [], by decide, by decide⟩).1 =
        .ok (0x04, [0x11, 0x22]) ∧
      (Cursor.readTlv ⟨[0x30, 0x04, 0x02, 0x11, 0x22, 0x05], 1, [], by decide, by decide⟩).2.rest =
        [0x05] := by
  obtain ⟨b, hb, hread⟩ := tlv_reading_exact.2.2.1 0x04 [0x11, 0x22] (by decide)
  cases hb
  obtain ⟨hvalue, hrest, -⟩ :=
    hread ⟨[0x30, 0x04, 0x02, 0x11, 0x22, 0x05], 1, [], by decide, by decide⟩ [0x05] rfl
  exact ⟨hvalue, hrest⟩

end Map

end GsupMapProxy
