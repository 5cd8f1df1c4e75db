import GsupMapProxy.Transport.M3uaCodec

/-!
# What the M3UA decoder accepts

A buffer from which `next` never throws is a sequence of well-formed messages of at most
`kMaxM3uaMessageSize` bytes, followed by something that makes it wait: the beginning of a
message, or a header whose length field is smaller than the header itself.
-/

namespace GsupMapProxy.M3ua

open Misc

/-- A big-endian 16-bit word. -/
def word (b0 b1 : UInt8) : UInt16 := (b0.toUInt16 <<< 8) ||| b1.toUInt16

/-- A sequence of TLVs: each has its declared length, Protocol Data its twelve fixed bytes, and
the padding is there unless the message ends before it. Up to three bytes may follow. -/
inductive TlvBody : Bytes → Prop
  | done {bs : Bytes} (h : bs.length < 4) : TlvBody bs
  | tlv {t0 t1 l0 l1 : UInt8} {value pad rest : Bytes}
      (hlen : (word l0 l1).toNat = 4 + value.length)
      (hdata : word t0 t1 = kTagProtocolData → 12 ≤ value.length)
      (hpad : pad.length = padding value.length ∨
        pad = [] ∧ rest.length < padding value.length)
      (later : TlvBody rest) : TlvBody (t0 :: t1 :: l0 :: l1 :: (value ++ (pad ++ rest)))

/-- A message as it stands on the wire. -/
def WellFormed (raw : Bytes) : Prop :=
  ∃ reserved msgClass msgType b4 b5 b6 b7 body,
    raw = kVersion :: reserved :: msgClass :: msgType :: b4 :: b5 :: b6 :: b7 :: body ∧
    (headerLength b4 b5 b6 b7).toNat = raw.length ∧ TlvBody body

/-- What makes the decoder wait for more input. -/
inductive Waiting : Bytes → Prop
  | header {bs : Bytes} (h : bs.length < kCommonHeaderSize) : Waiting bs
  | body {b0 b1 b2 b3 b4 b5 b6 b7 : UInt8} {bs : Bytes}
      (hmax : (headerLength b4 b5 b6 b7).toNat ≤ kMaxM3uaMessageSize)
      (hmore : bs.length + kCommonHeaderSize < (headerLength b4 b5 b6 b7).toNat) :
      Waiting (b0 :: b1 :: b2 :: b3 :: b4 :: b5 :: b6 :: b7 :: bs)
  | runt {b0 b1 b2 b3 b4 b5 b6 b7 : UInt8} {bs : Bytes}
      (hlen : (headerLength b4 b5 b6 b7).toNat < kCommonHeaderSize) :
      Waiting (b0 :: b1 :: b2 :: b3 :: b4 :: b5 :: b6 :: b7 :: bs)

/-! ## The TLVs of one message -/

theorem readBE32_of_length {r : BufferReader} (h : 4 ≤ r.length) :
    ∃ v rest, readBE32 r = .ok (v, rest) ∧ rest.length + 4 = r.length := by
  match r, h with
  | b0 :: b1 :: b2 :: b3 :: rest, _ => exact ⟨_, rest, rfl, rfl⟩

theorem read8_of_length {r : BufferReader} (h : 1 ≤ r.length) :
    ∃ v rest, read8 r = .ok (v, rest) ∧ rest.length + 1 = r.length := by
  match r, h with
  | b :: rest, _ => exact ⟨b, rest, rfl, rfl⟩

theorem decodeProtocolData_ok {value : Bytes} (h : 12 ≤ value.length) :
    ∃ pd, decodeProtocolData value = .ok pd := by
  rw [decodeProtocolData, if_neg (by omega)]
  obtain ⟨opc, r₁, hopc, hr₁⟩ := readBE32_of_length (r := value) (by omega)
  obtain ⟨dpc, r₂, hdpc, hr₂⟩ := readBE32_of_length (r := r₁) (by omega)
  obtain ⟨si, r₃, hsi, hr₃⟩ := read8_of_length (r := r₂) (by omega)
  obtain ⟨ni, r₄, hni, hr₄⟩ := read8_of_length (r := r₃) (by omega)
  obtain ⟨mp, r₅, hmp, hr₅⟩ := read8_of_length (r := r₄) (by omega)
  obtain ⟨sls, r₆, hsls, -⟩ := read8_of_length (r := r₅) (by omega)
  simp only [hopc, hdpc, hsi, hni, hmp, hsls, except_ok_bind, except_pure]
  exact ⟨_, rfl⟩

/-- The only TLV that can be refused for its value is a short Protocol Data. -/
theorem setTlv_ok_iff (msg : M3uaMessage) (tag : UInt16) (value : Bytes) :
    (∃ msg', setTlv msg tag value = .ok msg') ↔ (tag = kTagProtocolData → 12 ≤ value.length) := by
  unfold setTlv
  split
  · rename_i htag
    have hne : tag ≠ kTagProtocolData := by rw [htag]; decide
    constructor
    · intro _ h
      exact absurd h hne
    · intro _
      split
      · exact ⟨_, rfl⟩
      · exact ⟨_, rfl⟩
  · split
    · rename_i htag
      have hne : tag ≠ kTagProtocolData := by rw [htag]; decide
      exact ⟨fun _ h => absurd h hne, fun _ => ⟨_, rfl⟩⟩
    · split
      · rename_i htag
        constructor
        · rintro ⟨msg', h⟩ -
          obtain ⟨pd, hpd, -⟩ := except_bind_eq_ok.mp h
          rw [decodeProtocolData] at hpd
          split at hpd
          · cases hpd
          · omega
        · intro h
          obtain ⟨pd, hpd⟩ := decodeProtocolData_ok (h htag)
          rw [hpd]
          exact ⟨_, rfl⟩
      · rename_i htag
        exact ⟨fun _ h => absurd h htag, fun _ => ⟨_, rfl⟩⟩

theorem skipPadding_eq {n : Nat} {pad rest : Bytes}
    (h : pad.length = padding n ∨ pad = [] ∧ rest.length < padding n) :
    skipPadding n (pad ++ rest) = rest := by
  unfold skipPadding
  dsimp only
  rcases h with h | ⟨rfl, h⟩
  · rcases Nat.eq_zero_or_pos (padding n) with h0 | hpos
    · obtain rfl : pad = [] := List.length_eq_zero_iff.mp (by omega)
      rw [if_neg (by omega)]
      rfl
    · rw [if_pos ⟨hpos, by rw [List.length_append]; omega⟩, ← h, List.drop_left]
  · rw [List.nil_append, if_neg (by omega)]

/-- Conversely, what `skipPadding` leaves stands behind a padding. -/
theorem exists_padding (n : Nat) (r : Bytes) :
    ∃ pad, r = pad ++ skipPadding n r ∧
      (pad.length = padding n ∨ pad = [] ∧ (skipPadding n r).length < padding n) := by
  unfold skipPadding
  dsimp only
  split
  · rename_i h
    refine ⟨r.take (padding n), (List.take_append_drop _ _).symm, .inl ?_⟩
    rw [List.length_take]
    omega
  · rename_i h
    refine ⟨[], rfl, ?_⟩
    by_cases h0 : padding n = 0
    · exact .inl h0.symm
    · exact .inr ⟨rfl, by omega⟩

/-- One turn of the loop, inverted. -/
theorem tlvTurn_cases {msg msg' : M3uaMessage} {r rest : BufferReader}
    (h : tlvTurn msg r = .ok (msg', rest)) :
    (r.length < 4 ∧ rest = []) ∨
      ∃ t0 t1 l0 l1 value pad, r = t0 :: t1 :: l0 :: l1 :: (value ++ (pad ++ rest)) ∧
        (word l0 l1).toNat = 4 + value.length ∧
        (word t0 t1 = kTagProtocolData → 12 ≤ value.length) ∧
        (pad.length = padding value.length ∨ pad = [] ∧ rest.length < padding value.length) := by
  unfold tlvTurn at h
  split at h
  · rename_i hshort
    cases h
    exact .inl ⟨hshort, rfl⟩
  · rename_i hlong
    obtain ⟨t0, t1, l0, l1, tail, rfl⟩ : ∃ t0 t1 l0 l1 tail, r = t0 :: t1 :: l0 :: l1 :: tail := by
      match r, Nat.le_of_not_lt hlong with
      | t0 :: t1 :: l0 :: l1 :: tail, _ => exact ⟨t0, t1, l0, l1, tail, rfl⟩
    simp only [readBE16, except_ok_bind] at h
    change (if word l0 l1 < 4 then _ else _) = _ at h
    split at h
    · cases h
    rename_i hlen
    split at h
    · cases h
    rename_i hfits
    rw [UInt16.lt_iff_toNat_lt, show (4 : UInt16).toNat = 4 from rfl] at hlen
    simp only [except_bind_eq_ok] at h
    obtain ⟨⟨value, r'⟩, hread, msg'', hset, hpair⟩ := h
    obtain ⟨rfl, hvalue⟩ := readBytes_eq_ok hread
    obtain ⟨rfl, rfl⟩ := Prod.mk.inj (Except.ok.inj hpair)
    obtain ⟨pad, hr', hpad⟩ := exists_padding ((word l0 l1).toNat - 4) r'
    refine .inr ⟨t0, t1, l0, l1, value, pad, ?_, ?_, ?_, ?_⟩
    · exact congrArg (fun behind => t0 :: t1 :: l0 :: l1 :: (value ++ behind)) hr'
    · change value.length = (word l0 l1).toNat - 4 at hvalue
      omega
    · exact (setTlv_ok_iff msg _ value).mp ⟨_, hset⟩
    · rw [hvalue]
      exact hpad

theorem tlvTurn_tlv (msg : M3uaMessage) {t0 t1 l0 l1 : UInt8} {value pad rest : Bytes}
    (hlen : (word l0 l1).toNat = 4 + value.length)
    (hdata : word t0 t1 = kTagProtocolData → 12 ≤ value.length)
    (hpad : pad.length = padding value.length ∨ pad = [] ∧ rest.length < padding value.length) :
    ∃ msg', tlvTurn msg (t0 :: t1 :: l0 :: l1 :: (value ++ (pad ++ rest))) = .ok (msg', rest) := by
  obtain ⟨msg', hset⟩ := (setTlv_ok_iff msg (word t0 t1) value).mpr hdata
  refine ⟨msg', ?_⟩
  have hge : ¬ word l0 l1 < 4 := by
    rw [UInt16.lt_iff_toNat_lt, show (4 : UInt16).toNat = 4 from rfl]
    omega
  have hvalue : value.length = (word l0 l1).toNat - 4 := by omega
  rw [tlvTurn, if_neg (by simp only [List.length_cons]; omega)]
  simp only [readBE16, except_ok_bind]
  change (if word l0 l1 < 4 then _ else if _ < (word l0 l1).toNat - 4 then _ else
    readBytes ((word l0 l1).toNat - 4) _ >>= fun p => setTlv msg (word t0 t1) p.1 >>= fun msg =>
      pure (msg, skipPadding ((word l0 l1).toNat - 4) p.2)) = _
  rw [if_neg hge, if_neg (by rw [List.length_append]; omega), readBytes_append hvalue,
    except_ok_bind, hset, except_ok_bind, ← hvalue, skipPadding_eq hpad, except_pure]

theorem tlvTurn_consuming : Consuming tlvTurn := by
  intro msg b r msg' rest h
  rcases tlvTurn_cases h with ⟨-, rfl⟩ | ⟨t0, t1, l0, l1, value, pad, hr, -⟩
  · simp
  · have hlen := congrArg List.length hr
    simp only [List.length_cons, List.length_append] at hlen
    omega

/-- The loop over the TLVs ends normally exactly on a sequence of TLVs. -/
theorem tlvBody_iff (msg : M3uaMessage) (body : Bytes) :
    (∃ msg', drain tlvTurn msg body = .ok msg') ↔ TlvBody body := by
  constructor
  · intro h
    induction hn : body.length using Nat.strongRecOn generalizing msg body with
    | ind n ih =>
      obtain ⟨msg', h⟩ := h
      cases body with
      | nil => exact .done (by decide)
      | cons b bs =>
        rw [drain_cons tlvTurn_consuming] at h
        obtain ⟨⟨msg₁, rest⟩, hturn, h⟩ := except_bind_eq_ok.mp h
        have hle := tlvTurn_consuming msg b bs msg₁ rest hturn
        rcases tlvTurn_cases hturn with
          ⟨hshort, -⟩ | ⟨t0, t1, l0, l1, value, pad, hr, hlen, hdata, hpad⟩
        · exact .done hshort
        · rw [hr]
          refine .tlv hlen hdata hpad (ih rest.length ?_ msg₁ rest ⟨msg', h⟩ rfl)
          rw [← hn, List.length_cons]
          omega
  · intro h
    induction h generalizing msg with
    | @done bs h =>
      cases bs with
      | nil => exact ⟨msg, rfl⟩
      | cons b bs =>
        refine ⟨msg, ?_⟩
        rw [drain_cons tlvTurn_consuming, tlvTurn, if_pos h]
        rfl
    | tlv hlen hdata hpad later ih =>
      obtain ⟨msg₁, hturn⟩ := tlvTurn_tlv msg hlen hdata hpad
      obtain ⟨msg', hrest⟩ := ih msg₁
      refine ⟨msg', ?_⟩
      rw [drain_cons tlvTurn_consuming, hturn]
      exact hrest

/-! ## One message -/

/-- `decode` on a message whose header has its length. -/
theorem decode_whole {b0 b1 b2 b3 b4 b5 b6 b7 : UInt8} {body : Bytes}
    (hlen : (headerLength b4 b5 b6 b7).toNat = body.length + kCommonHeaderSize) :
    decode (b0 :: b1 :: b2 :: b3 :: b4 :: b5 :: b6 :: b7 :: body) =
      if b0 ≠ kVersion then .error (.runtimeError "M3UA: unexpected version")
      else drain tlvTurn { msgClass := b2, msgType := b3 } body >>= fun msg => .ok (some msg) := by
  rw [decode, if_neg (by simp only [List.length_cons, kCommonHeaderSize]; omega)]
  simp only [read8_cons, readBE32, except_ok_bind]
  change (if b0 ≠ kVersion then _ else
    if (headerLength b4 b5 b6 b7).toNat < kCommonHeaderSize then _ else
    if _ < (headerLength b4 b5 b6 b7).toNat then _ else
    drain tlvTurn _ (body.take ((headerLength b4 b5 b6 b7).toNat - kCommonHeaderSize)) >>= _) = _
  split
  · rfl
  · rw [hlen, if_neg (by omega), if_neg (by simp only [List.length_cons, kCommonHeaderSize]; omega),
      Nat.add_sub_cancel, List.take_length]
    rfl

theorem decode_short {data : Bytes} (h : data.length < kCommonHeaderSize) :
    decode data = .ok none := by
  rw [decode, if_pos h]

/-- A buffer of at least a header. -/
theorem exists_header {buf : Bytes} (h : kCommonHeaderSize ≤ buf.length) :
    ∃ b0 b1 b2 b3 b4 b5 b6 b7 bs, buf = b0 :: b1 :: b2 :: b3 :: b4 :: b5 :: b6 :: b7 :: bs := by
  match buf, h with
  | b0 :: b1 :: b2 :: b3 :: b4 :: b5 :: b6 :: b7 :: bs, _ => exact ⟨_, _, _, _, _, _, _, _, _, rfl⟩

/-- `next` on a buffer that starts with as many bytes as the header says decodes these. -/
theorem next_whole {b0 b1 b2 b3 b4 b5 b6 b7 : UInt8} {body : Bytes}
    (hlen : (headerLength b4 b5 b6 b7).toNat = body.length + kCommonHeaderSize)
    (hmax : body.length + kCommonHeaderSize ≤ kMaxM3uaMessageSize) (rest : Bytes) :
    M3uaDecoder.next (b0 :: b1 :: b2 :: b3 :: b4 :: b5 :: b6 :: b7 :: body ++ rest) =
      (decode (b0 :: b1 :: b2 :: b3 :: b4 :: b5 :: b6 :: b7 :: body), rest) := by
  generalize hraw : b0 :: b1 :: b2 :: b3 :: b4 :: b5 :: b6 :: b7 :: body = raw
  have htake : (raw ++ rest).take raw.length = raw := List.take_left
  have hdrop : (raw ++ rest).drop raw.length = rest := List.drop_left
  have hlong : raw.length ≤ (raw ++ rest).length := by simp
  have hsize : raw.length = (headerLength b4 b5 b6 b7).toNat := by
    rw [hlen, ← hraw]
    rfl
  rw [hsize] at htake hdrop hlong
  subst hraw
  simp only [List.cons_append] at htake hdrop hlong ⊢
  rw [M3uaDecoder.next, if_neg (by omega), if_neg (by omega), htake, hdrop]

/-- `next` on a buffer that starts with a message reads exactly that message. -/
theorem next_append {raw : Bytes} (h : WellFormed raw) (hmax : raw.length ≤ kMaxM3uaMessageSize)
    (rest : Bytes) :
    ∃ msg, decode raw = .ok (some msg) ∧
      M3uaDecoder.next (raw ++ rest) = (.ok (some msg), rest) := by
  obtain ⟨reserved, msgClass, msgType, b4, b5, b6, b7, body, rfl, hlen, hbody⟩ := h
  obtain ⟨msg, hmsg⟩ := (tlvBody_iff { msgClass, msgType } body).mpr hbody
  have hdecode : decode (kVersion :: reserved :: msgClass :: msgType :: b4 :: b5 :: b6 :: b7 ::
      body) = .ok (some msg) := by
    rw [decode_whole hlen, if_neg (by simp), hmsg]
    rfl
  refine ⟨msg, hdecode, ?_⟩
  rw [next_whole hlen hmax, hdecode]

/-- `next` inverted: what a buffer looks like when `next` does not throw. -/
theorem next_cases {buf rest : Bytes} {result : Option M3uaMessage}
    (h : M3uaDecoder.next buf = (.ok result, rest)) :
    (result = none ∧ Waiting buf) ∨
      ∃ msg raw, result = some msg ∧ WellFormed raw ∧ raw.length ≤ kMaxM3uaMessageSize ∧
        decode raw = .ok (some msg) ∧ buf = raw ++ rest := by
  by_cases hshort : buf.length < kCommonHeaderSize
  · left
    refine ⟨?_, .header hshort⟩
    unfold M3uaDecoder.next at h
    split at h
    · simp only [List.length_cons, kCommonHeaderSize] at hshort
      omega
    · cases h
      rfl
  obtain ⟨b0, b1, b2, b3, b4, b5, b6, b7, bs, rfl⟩ := exists_header (Nat.le_of_not_lt hshort)
  rw [M3uaDecoder.next] at h
  split at h
  · cases h
  rename_i hmax
  split at h
  · rename_i hmore
    cases h
    simp only [List.length_cons] at hmore
    exact .inl ⟨rfl, .body (by omega) (by rw [kCommonHeaderSize]; omega)⟩
  rename_i hwhole
  simp only [Prod.mk.injEq] at h
  obtain ⟨hdecode, rfl⟩ := h
  by_cases hrunt : (headerLength b4 b5 b6 b7).toNat < kCommonHeaderSize
  · left
    refine ⟨?_, .runt hrunt⟩
    rw [decode_short (by rw [List.length_take]; omega)] at hdecode
    cases hdecode
    rfl
  obtain ⟨n, hn⟩ : ∃ n, (headerLength b4 b5 b6 b7).toNat = n + kCommonHeaderSize :=
    ⟨(headerLength b4 b5 b6 b7).toNat - kCommonHeaderSize, by omega⟩
  have htake : (b0 :: b1 :: b2 :: b3 :: b4 :: b5 :: b6 :: b7 :: bs).take
      (headerLength b4 b5 b6 b7).toNat =
        b0 :: b1 :: b2 :: b3 :: b4 :: b5 :: b6 :: b7 :: bs.take n := by
    rw [hn]
    rfl
  have hbody : (bs.take n).length = n := by
    simp only [List.length_cons, hn, kCommonHeaderSize] at hwhole
    rw [List.length_take]
    omega
  rw [htake, decode_whole (by rw [hbody, hn])] at hdecode
  split at hdecode
  · cases hdecode
  rename_i hversion
  rw [not_not] at hversion
  subst hversion
  obtain ⟨msg, hmsg, hsome⟩ := except_bind_eq_ok.mp hdecode
  cases hsome
  refine .inr ⟨msg, _, rfl, ⟨b1, b2, b3, b4, b5, b6, b7, bs.take n, rfl, ?_, ?_⟩, ?_, ?_, ?_⟩
  · simp only [List.length_cons, hbody, hn, kCommonHeaderSize]
  · exact (tlvBody_iff _ _).mp ⟨msg, hmsg⟩
  · simp only [List.length_cons, hbody]
    rw [hn, kCommonHeaderSize] at hmax
    omega
  · rw [decode_whole (by rw [hbody, hn]), if_neg (by simp), hmsg]
    rfl
  · rw [← htake, List.take_append_drop]

theorem next_waiting {buf : Bytes} (h : Waiting buf) : (M3uaDecoder.next buf).1 = .ok none := by
  cases h with
  | header h =>
    unfold M3uaDecoder.next
    split
    · simp only [List.length_cons, kCommonHeaderSize] at h
      omega
    · rfl
  | body hmax hmore =>
    rw [kCommonHeaderSize] at hmore
    rw [M3uaDecoder.next, if_neg (by omega), if_pos (by simp only [List.length_cons]; omega)]
  | runt hlen =>
    rw [kCommonHeaderSize] at hlen
    rw [M3uaDecoder.next, if_neg (by rw [kMaxM3uaMessageSize]; omega),
      if_neg (by simp only [List.length_cons]; omega),
      decode_short (by rw [List.length_take, kCommonHeaderSize]; omega)]

theorem next_shrinking : Shrinking M3uaDecoder.next := by
  intro buf msg rest h
  rcases next_cases h with
    ⟨hnone, -⟩ | ⟨msg', raw, -, ⟨_, _, _, _, _, _, _, _, rfl, -, -⟩, -, -, rfl⟩
  · cases hnone
  · simp only [List.length_append, List.length_cons]
    omega

/-! ## The whole buffer -/

/-- A sequence of whole messages that satisfy `P`, and something that makes the decoder wait. -/
def WellFramed (P : M3uaMessage → Prop) (buf : Bytes) : Prop :=
  ∃ (raws : List Bytes) (rest : Bytes), buf = raws.flatten ++ rest ∧
    (∀ raw ∈ raws, WellFormed raw ∧ raw.length ≤ kMaxM3uaMessageSize ∧
      ∀ msg, decode raw = .ok (some msg) → P msg) ∧ Waiting rest

theorem wellFramed_iff {P : M3uaMessage → Prop} {buf : Bytes} :
    WellFramed P buf ↔
      ∃ msgs rest, Yields M3uaDecoder.next buf msgs rest ∧ ∀ msg ∈ msgs, P msg := by
  constructor
  · rintro ⟨raws, rest, rfl, hraws, hwait⟩
    induction raws with
    | nil =>
      exact ⟨[], _, .wait (Prod.ext (next_waiting hwait) rfl), by simp⟩
    | cons raw raws ih =>
      obtain ⟨hwell, hmax, hP⟩ := hraws raw (by simp)
      obtain ⟨msgs, rest', hyields, hmsgs⟩ := ih fun raw' h => hraws raw' (by simp [h])
      rw [List.flatten_cons, List.append_assoc]
      obtain ⟨msg, hdecode, hnext⟩ := next_append hwell hmax (raws.flatten ++ rest)
      refine ⟨msg :: msgs, rest', .frame hnext hyields, ?_⟩
      intro msg' hmem
      rcases List.mem_cons.mp hmem with rfl | hmem
      · exact hP msg' hdecode
      · exact hmsgs msg' hmem
  · rintro ⟨msgs, rest, hyields, hmsgs⟩
    induction hyields with
    | wait h =>
      rcases next_cases h with ⟨-, hwait⟩ | ⟨msg, raw, hsome, -⟩
      · exact ⟨[], _, rfl, by simp, hwait⟩
      · cases hsome
    | frame h later ih =>
      obtain ⟨raws, rest', rfl, hraws, hwait⟩ := ih fun msg hmem => hmsgs msg (by simp [hmem])
      rcases next_cases h with ⟨hnone, -⟩ | ⟨msg, raw, hsome, hwell, hmax, hdecode, rfl⟩
      · cases hnone
      · cases hsome
        refine ⟨raw :: raws, rest', by rw [List.flatten_cons, List.append_assoc], ?_, hwait⟩
        intro raw' hmem
        rcases List.mem_cons.mp hmem with rfl | hmem
        · refine ⟨hwell, hmax, ?_⟩
          intro msg' hdecode'
          rw [hdecode] at hdecode'
          cases hdecode'
          exact hmsgs _ (by simp)
        · exact hraws raw' hmem

end GsupMapProxy.M3ua
