import GsupMapProxy.Common.Bcd
import GsupMapProxy.Misc.BigEndian
import GsupMapProxy.Transport.Proofs.UdtBounds

/-!
# UDTs written and read back

As long as the two addresses take at most 252 octets together, the pointers and lengths that
`encodeUdt` writes are right, and what comes back is up to the addresses.
-/

namespace GsupMapProxy.Sccp

open Misc

/-! ## Parts of a UDT -/

/-- A pointer leads over what stands between it and the length octet of its part. -/
theorem partLength_append {raw front mid rest : Bytes} {ptr len : UInt8} {pos : Nat}
    (what : String) (hraw : raw = front ++ ptr :: (mid ++ len :: rest))
    (hpos : pos = front.length) (hptr : ptr.toNat = mid.length + 1) :
    partLength raw pos what = .ok (pos + mid.length + 1, len.toNat) := by
  subst hpos
  have hat : raw[front.length]? = some ptr := by
    rw [hraw]
    simp
  have hlen : raw[front.length + ptr.toNat]? = some len := by
    rw [hraw, hptr, List.getElem?_append_right (by omega), Nat.add_sub_cancel_left,
      List.getElem?_cons_succ]
    simp
  rw [partLength, hat]
  dsimp only
  rw [hlen]
  dsimp only
  rw [hptr, Nat.add_assoc]

/-- The part itself, as the iterators copy it: the octets its length octet counts. -/
theorem slice_append {raw front mid rest : Bytes} {ptr len : UInt8} {pos : Nat}
    (hraw : raw = front ++ ptr :: (mid ++ len :: rest)) (hpos : pos = front.length)
    (hlen : len.toNat ≤ rest.length) :
    pos + mid.length + 1 + 1 + len.toNat ≤ raw.length ∧
      slice raw (pos + mid.length + 1) len.toNat = .ok (rest.take len.toNat) := by
  have hlength : raw.length = pos + mid.length + 1 + 1 + rest.length := by
    rw [hraw, hpos]
    simp only [List.length_append, List.length_cons]
    omega
  have hdrop : raw.drop (pos + mid.length + 1 + 1) = rest := by
    have hsplit : raw = (front ++ ptr :: (mid ++ [len])) ++ rest := by
      rw [hraw]
      simp
    rw [hsplit]
    apply List.drop_left'
    rw [hpos]
    simp only [List.length_append, List.length_cons, List.length_nil]
    omega
  have hinside : pos + mid.length + 1 + 1 + len.toNat ≤ raw.length := by omega
  refine ⟨hinside, ?_⟩
  rw [slice, if_pos hinside, hdrop]

theorem partLength_le {raw : Bytes} {pos lenPos len : Nat} {what : String}
    (h : partLength raw pos what = .ok (lenPos, len)) : len ≤ 255 := by
  unfold partLength at h
  split at h
  · cases h
  · split at h
    · cases h
    · rename_i octet _
      cases h
      have := octet.toNat_lt
      omega

theorem slice_length {raw part : Bytes} {lenPos len : Nat} (h : slice raw lenPos len = .ok part) :
    part.length ≤ len := by
  unfold slice at h
  split at h
  · cases h
    exact List.length_take_le _ _
  · cases h

/-- The data of a decoded UDT is no longer than its length octet can say. -/
theorem decodeUdt_data_length {raw : Bytes} {udt : SccpUdt} (h : decodeUdt raw = .ok udt) :
    udt.data.length ≤ 255 := by
  unfold decodeUdt at h
  split at h
  · split at h
    · cases h
    · simp only [except_bind_eq_ok] at h
      obtain ⟨calledAddr, -, callingAddr, -, ⟨dataLenPos, dataLen⟩, hpart, h⟩ := h
      split at h
      · cases h
      · rw [except_bind_eq_ok] at h
        obtain ⟨data, hdata, hudt⟩ := h
        cases hudt
        exact Nat.le_trans (slice_length hdata) (partLength_le hpart)
  · cases h

/-! ## Addresses -/

theorem packBcd_length (digits : Str) : (packBcd digits).length = (digits.length + 1) / 2 := by
  fun_induction packBcd digits with
  | case1 => rfl
  | case2 d => simp
  | case3 d0 d1 digits ih =>
    simp only [List.length_cons, ih]
    omega

/-- The octets of a Global Title with a subsystem number. -/
theorem exists_encodeAddress_eq (digits : Str) (ssn : UInt8) :
    ∃ npEs nai, encodeAddress (makeGtAddress digits ssn true) =
      0x48 :: ssn :: kTtInternational :: npEs :: nai :: packBcd digits :=
  ⟨_, _, rfl⟩

theorem encodeAddress_length (digits : Str) (ssn : UInt8) :
    (encodeAddress (makeGtAddress digits ssn true)).length = (digits.length + 1) / 2 + 5 := by
  obtain ⟨npEs, nai, heq⟩ := exists_encodeAddress_eq digits ssn
  rw [heq]
  simp only [List.length_cons, packBcd_length]

theorem decodeAddress_ok (digits : Str) (ssn : UInt8) :
    ∃ addr, decodeAddress (encodeAddress (makeGtAddress digits ssn true)) = .ok addr := by
  obtain ⟨npEs, nai, heq⟩ := exists_encodeAddress_eq digits ssn
  rw [heq]
  exact ⟨_, rfl⟩

/-! ## The whole UDT -/

/-- An address is decoded from where its pointer leads. -/
theorem decodeParty_append {raw front mid part rest : Bytes} {ptr len : UInt8} {pos : Nat}
    (what : String) (hraw : raw = front ++ ptr :: (mid ++ len :: (part ++ rest)))
    (hpos : pos = front.length) (hptr : ptr.toNat = mid.length + 1)
    (hlen : len.toNat = part.length) :
    decodeParty raw pos what = (decodeAddress part).mapError .thrown := by
  have hfits : len.toNat ≤ (part ++ rest).length := by
    rw [List.length_append]
    omega
  obtain ⟨-, hslice⟩ := slice_append hraw hpos hfits
  rw [decodeParty, partLength_append what hraw hpos hptr, except_ok_bind]
  dsimp only
  rw [hslice, except_ok_bind, hlen, List.take_left]

/-- A message whose pointers and lengths are right is taken apart into its parts. -/
theorem decodeUdt_layout {protoClass ptr2 ptr3 calledLen callingLen dataLen : UInt8}
    {a b data : Bytes}
    (hptr2 : ptr2.toNat = a.length + 3) (hptr3 : ptr3.toNat = a.length + b.length + 3)
    (hcalledLen : calledLen.toNat = a.length) (hcallingLen : callingLen.toNat = b.length)
    (hdataLen : dataLen.toNat ≤ data.length) :
    decodeUdt (kMsgUdt :: protoClass :: 3 :: ptr2 :: ptr3 :: calledLen ::
      (a ++ callingLen :: (b ++ dataLen :: data))) =
      ((decodeAddress a).mapError .thrown >>= fun called =>
        (decodeAddress b).mapError .thrown >>= fun calling =>
          .ok ⟨protoClass, called, calling, data.take dataLen.toNat⟩) := by
  generalize hraw : kMsgUdt :: protoClass :: 3 :: ptr2 :: ptr3 :: calledLen ::
    (a ++ callingLen :: (b ++ dataLen :: data)) = raw
  -- the message once for each pointer, split there and at the length octet it leads to
  have hfirst : raw = [kMsgUdt, protoClass] ++ 3 :: ([ptr2, ptr3] ++ calledLen ::
      (a ++ callingLen :: (b ++ dataLen :: data))) := by
    rw [← hraw]
    rfl
  have hsecond : raw = [kMsgUdt, protoClass, 3] ++ ptr2 :: ((ptr3 :: calledLen :: a) ++
      callingLen :: (b ++ dataLen :: data)) := by
    rw [← hraw]
    rfl
  have hthird : raw = [kMsgUdt, protoClass, 3, ptr2] ++ ptr3 ::
      ((calledLen :: (a ++ callingLen :: b)) ++ dataLen :: data) := by
    rw [← hraw]
    simp
  have hptr : ptr3.toNat = (calledLen :: (a ++ callingLen :: b)).length + 1 := by
    simp only [List.length_append, List.length_cons]
    omega
  have hpart := partLength_append "SCCP UDT: data pointer out of range" hthird (Eq.refl 4) hptr
  obtain ⟨hinside, hslice⟩ := slice_append hthird (Eq.refl 4) hdataLen
  have hdecode : decodeUdt raw = (decodeCalledParty raw >>= fun calledAddr =>
      decodeCallingParty raw >>= fun callingAddr =>
        partLength raw 4 "SCCP UDT: data pointer out of range" >>= fun part =>
          if part.1 + 1 + part.2 > raw.length then
            throw (.thrown (.runtimeError "SCCP UDT: data extends past message"))
          else slice raw part.1 part.2 >>= fun data =>
            pure ⟨protoClass, calledAddr, callingAddr, data⟩) := by
    rw [← hraw]
    rfl
  have hcalledParty : decodeCalledParty raw = (decodeAddress a).mapError .thrown :=
    decodeParty_append _ hfirst rfl rfl hcalledLen
  have hcallingParty : decodeCallingParty raw = (decodeAddress b).mapError .thrown :=
    decodeParty_append _ hsecond rfl hptr2 hcallingLen
  rw [hdecode, hcalledParty, hcallingParty, hpart]
  simp only [except_ok_bind, if_neg (Nat.not_lt.mpr hinside), hslice, except_pure]

/-- The octets of the two addresses. -/
def addressOctets (udt : SccpUdt) : Nat :=
  (encodeAddress udt.calledParty).length + (encodeAddress udt.callingParty).length

/-- Where the pointers fit their octets, the addresses are read from where they were written, and
as much of the data as its length octet says. -/
theorem decodeUdt_encodeUdt {udt : SccpUdt} (hlen : addressOctets udt ≤ 252) :
    decodeUdt (encodeUdt udt) =
      ((decodeAddress (encodeAddress udt.calledParty)).mapError .thrown >>= fun called =>
        (decodeAddress (encodeAddress udt.callingParty)).mapError .thrown >>= fun calling =>
          .ok ⟨udt.protocolClass, called, calling, udt.data.take (udt.data.length % 256)⟩) := by
  rw [addressOctets] at hlen
  have hoctet : ∀ n m : Nat, n = m → m ≤ 255 → (UInt8.ofNat n).toNat = m := by
    rintro n m rfl hm
    rw [UInt8.toNat_ofNat', Nat.mod_eq_of_lt (by omega)]
  have hdata : (UInt8.ofNat udt.data.length).toNat = udt.data.length % 256 :=
    UInt8.toNat_ofNat'
  rw [encodeUdt]
  simp only [List.cons_append, List.nil_append, List.append_assoc]
  rw [decodeUdt_layout (hoctet _ _ (by omega) (by omega)) (hoctet _ _ (by omega) (by omega))
    (hoctet _ _ rfl (by omega)) (hoctet _ _ rfl (by omega))
    (by rw [hdata]; exact Nat.mod_le _ _), hdata]

/-- With addresses that can be decoded and data that fits its length octet. -/
theorem decodeUdt_encodeUdt_ok {udt : SccpUdt} {called calling : SccpAddress}
    (hlen : addressOctets udt ≤ 252)
    (hcalled : decodeAddress (encodeAddress udt.calledParty) = .ok called)
    (hcalling : decodeAddress (encodeAddress udt.callingParty) = .ok calling)
    (hdata : udt.data.length ≤ 255) :
    decodeUdt (encodeUdt udt) = .ok ⟨udt.protocolClass, called, calling, udt.data⟩ := by
  rw [decodeUdt_encodeUdt hlen, hcalled, hcalling, Nat.mod_eq_of_lt (by omega), List.take_length]
  rfl

/-! ## Global Titles -/

/-- Digits come back if the unpacker is told whether their number is odd. -/
theorem unpackBcd_packBcd {digits : Str} (h : Digits digits) :
    unpackBcd (digits.length % 2 ≠ 0) (packBcd digits) = digits := by
  fun_induction packBcd digits with
  | case1 => rfl
  | case2 d =>
    obtain ⟨a, rfl⟩ := (h d (by simp)).exists_fin
    obtain ⟨hlo, -⟩ := nibbles_of_last a
    rw [sub_zero_char]
    simp only [unpackBcd, hlo]
    simp
  | case3 d0 d1 digits ih =>
    obtain ⟨a, rfl⟩ := (h d0 (by simp)).exists_fin
    obtain ⟨b, rfl⟩ := (h d1 (by simp)).exists_fin
    obtain ⟨hlo, hhi⟩ := nibbles_of_pair a b
    have hrest := ih (fun c hc => h c (by simp [hc]))
    have hparity : (((0x30 + UInt8.ofNat a.val : UInt8) :: (0x30 + UInt8.ofNat b.val) ::
        digits).length % 2 ≠ 0) = (digits.length % 2 ≠ 0) := by
      simp only [List.length_cons]
      congr 1
      rw [show digits.length + 1 + 1 = digits.length + 2 from rfl, Nat.add_mod_right]
    have hmore : ¬ (packBcd digits = [] ∧ decide (digits.length % 2 ≠ 0) = true) := by
      rintro ⟨hnil, hodd⟩
      have hlen := packBcd_length digits
      rw [hnil, List.length_nil] at hlen
      have : digits.length = 0 := by omega
      rw [this] at hodd
      cases hodd
    rw [sub_zero_char, sub_zero_char]
    simp only [hparity, unpackBcd, hlo, hhi, hrest]
    rw [if_neg hmore]

theorem np_masked (np : UInt8) :
    (np ||| kEsBcdOdd) &&& 0xF0 = np &&& 0xF0 ∧ (np ||| kEsBcdEven) &&& 0xF0 = np &&& 0xF0 := by
  revert np
  apply forall_octet
  decide +kernel

theorem np_high_nibble (np : UInt8) : np &&& 0x0F = 0 → np &&& 0xF0 = np := by
  revert np
  apply forall_octet
  decide +kernel

/-- The odd flag in the octet of the nature of address. -/
theorem nai_flag (nai : UInt8) : nai.toNat < 128 →
    (nai ||| 0x80) &&& 0x80 ≠ 0 ∧ (nai ||| 0x80) &&& 0x7F = nai ∧ nai &&& 0x80 = 0 ∧
      nai &&& 0x7F = nai := by
  revert nai
  apply forall_octet
  decide +kernel

theorem decodeAddress_plain (tt npEs naiRaw : UInt8) (bcd : Bytes) :
    decodeAddress (0x40 :: tt :: npEs :: naiRaw :: bcd) = .ok
      { tt, np := npEs &&& 0xF0, nai := naiRaw &&& 0x7F
        digits := unpackBcd (naiRaw &&& 0x80 ≠ 0) bcd } := rfl

theorem decodeAddress_ssn (ssn tt npEs naiRaw : UInt8) (bcd : Bytes) :
    decodeAddress (0x48 :: ssn :: tt :: npEs :: naiRaw :: bcd) = .ok
      { tt, np := npEs &&& 0xF0, nai := naiRaw &&& 0x7F
        digits := unpackBcd (naiRaw &&& 0x80 ≠ 0) bcd, ssnPresent := true, ssn } := rfl

/-- What is left of a Global Title address: all but the low nibble of the numbering plan and a
point code; and the digits as they are unpacked. -/
theorem decodeAddress_gt {addr : SccpAddress} (hgt : addr.routeByGt = true)
    (hnai : addr.nai.toNat < 128) :
    decodeAddress (encodeAddress addr) = .ok
      { digits := unpackBcd (addr.digits.length % 2 ≠ 0) (packBcd addr.digits)
        tt := addr.tt, np := addr.np &&& 0xF0, nai := addr.nai
        ssnPresent := addr.ssnPresent, ssn := if addr.ssnPresent then addr.ssn else 0 } := by
  obtain ⟨hodd, heven⟩ := np_masked addr.np
  obtain ⟨hflag, hflagged, hnoflag, hplain⟩ := nai_flag addr.nai hnai
  have hoctets : ∀ npEs nai, npEs &&& 0xF0 = addr.np &&& 0xF0 → nai &&& 0x7F = addr.nai →
      decide (nai &&& 0x80 ≠ 0) = decide (addr.digits.length % 2 ≠ 0) →
      decodeAddress ((if addr.ssnPresent then [0x48, addr.ssn] else [0x40]) ++
        addr.tt :: npEs :: nai :: packBcd addr.digits) = .ok
        { digits := unpackBcd (addr.digits.length % 2 ≠ 0) (packBcd addr.digits)
          tt := addr.tt, np := addr.np &&& 0xF0, nai := addr.nai
          ssnPresent := addr.ssnPresent, ssn := if addr.ssnPresent then addr.ssn else 0 } := by
    intro npEs nai hnp hnai' hparity
    cases hssn : addr.ssnPresent with
    | false =>
      rw [if_neg Bool.false_ne_true, List.singleton_append, decodeAddress_plain, hnp, hnai',
        hparity]
      rfl
    | true =>
      rw [if_pos rfl, List.cons_append, List.singleton_append, decodeAddress_ssn, hnp, hnai',
        hparity]
      rfl
  have hencode : ∀ npEs nai,
      [if addr.ssnPresent then kAiRoutByGt ||| kGtiTtNpEsNai ||| kAiSsnPresent
        else kAiRoutByGt ||| kGtiTtNpEsNai] ++ (if addr.ssnPresent then [addr.ssn] else []) ++
        [addr.tt, npEs, nai] ++ packBcd addr.digits =
      (if addr.ssnPresent then [0x48, addr.ssn] else [0x40]) ++
        addr.tt :: npEs :: nai :: packBcd addr.digits := by
    intro npEs nai
    cases addr.ssnPresent <;> rfl
  rw [encodeAddress, if_pos hgt]
  dsimp only
  rw [hencode]
  apply hoctets
  · split
    · exact hodd
    · exact heven
  · split
    · exact hflagged
    · exact hplain
  · by_cases hparity : addr.digits.length % 2 = 0
    · simp [hparity, hnoflag]
    · simp [hparity, hflag]

/-- A Global Title address with decimal digits and values that fit their fields, without a point
code. -/
structure GtAddress (addr : SccpAddress) : Prop where
  routeByGt : addr.routeByGt = true
  digits : Digits addr.digits
  np : addr.np &&& 0x0F = 0
  nai : addr.nai.toNat < 128
  ssn : addr.ssnPresent = false → addr.ssn = 0
  pcPresent : addr.pcPresent = false
  pc : addr.pc = 0

theorem decodeAddress_encodeAddress {addr : SccpAddress} (h : GtAddress addr) :
    decodeAddress (encodeAddress addr) = .ok addr := by
  rw [decodeAddress_gt h.routeByGt h.nai, unpackBcd_packBcd h.digits, np_high_nibble _ h.np]
  obtain ⟨routeByGt, digits, tt, np, nai, ssnPresent, ssn, pcPresent, pc⟩ := addr
  obtain rfl : routeByGt = true := h.routeByGt
  obtain rfl : pcPresent = false := h.pcPresent
  obtain rfl : pc = 0 := h.pc
  cases ssnPresent with
  | false =>
    obtain rfl : ssn = 0 := h.ssn rfl
    rfl
  | true => rfl

/-- A UDT between Global Titles comes back as it was. -/
theorem udt_round_trip {u : SccpUdt} (hcalled : GtAddress u.calledParty)
    (hcalling : GtAddress u.callingParty)
    (haddresses : (encodeAddress u.calledParty).length +
      (encodeAddress u.callingParty).length ≤ 252)
    (hdata : u.data.length ≤ 255) : decodeUdt (encodeUdt u) = .ok u :=
  decodeUdt_encodeUdt_ok haddresses (decodeAddress_encodeAddress hcalled)
    (decodeAddress_encodeAddress hcalling) hdata

/-- Eleven digits with a subsystem number, twelve without. -/
theorem udt_round_trip_odd_even :
    decodeUdt (encodeUdt
      { calledParty := makeGtAddress [0x34, 0x39, 0x31, 0x36, 0x31, 0x30, 0x30, 0x30, 0x30, 0x30,
          0x31] kSsnHlr true
        callingParty := makeGtAddress [0x34, 0x39, 0x31, 0x36, 0x31, 0x30, 0x30, 0x30, 0x30, 0x30,
          0x30, 0x30] 0 false
        data := [0xFF] }) = .ok
      { calledParty := makeGtAddress [0x34, 0x39, 0x31, 0x36, 0x31, 0x30, 0x30, 0x30, 0x30, 0x30,
          0x31] kSsnHlr true
        callingParty := makeGtAddress [0x34, 0x39, 0x31, 0x36, 0x31, 0x30, 0x30, 0x30, 0x30, 0x30,
          0x30, 0x30] 0 false
        data := [0xFF] } :=
  udt_round_trip
    ⟨rfl, by decide +kernel, by decide, by decide, by decide, rfl, rfl⟩
    ⟨rfl, by decide +kernel, by decide, by decide, by decide, rfl, rfl⟩ (by decide) (by decide)

/-! ## A leading plus sign -/

/-- `'+' - '0'` is `0xFB`: the low nibble is that of a semicolon, and the next digit is gone. -/
theorem plus_nibble (x : UInt8) : ((x <<< 4) ||| (0x2B - 0x30)) &&& 0x0F = 0x0B := by
  revert x
  apply forall_octet
  decide +kernel

/-- A title with a plus sign comes back with a semicolon in front. -/
theorem unpackBcd_plus (odd : Bool) (digits : Str) :
    (unpackBcd odd (packBcd (0x2B :: digits))).head? = some 0x3B := by
  cases digits with
  | nil =>
    rw [packBcd, unpackBcd, plus_nibble]
    split <;> rfl
  | cons d digits =>
    rw [packBcd, unpackBcd, plus_nibble]
    split <;> rfl

/-! ## Point codes -/

/-- The two addresses of a UDT. -/
inductive Party where
  | called
  | calling
  deriving DecidableEq

def Party.other : Party → Party
  | .called => .calling
  | .calling => .called

def SccpUdt.party (u : SccpUdt) : Party → SccpAddress
  | .called => u.calledParty
  | .calling => u.callingParty

/-- Encoding and decoding a UDT brings back routing, subsystem number and point code of one of
its addresses, and the data. -/
def Restores (u : SccpUdt) (p : Party) : Prop :=
  ∃ u', decodeUdt (encodeUdt u) = .ok u' ∧
    (u'.party p).routeByGt = (u.party p).routeByGt ∧
    (u'.party p).ssnPresent = (u.party p).ssnPresent ∧ (u'.party p).ssn = (u.party p).ssn ∧
    (u'.party p).pcPresent = (u.party p).pcPresent ∧ (u'.party p).pc = (u.party p).pc ∧
    u'.data = u.data

/-- A subsystem number and no point code. -/
def SsnOnly (addr : SccpAddress) : Prop :=
  addr.ssnPresent = true ∧ addr.pcPresent = false ∧ addr.pc = 0

/-- There is an octet to be taken for the subsystem number the indicator announces. -/
def HasOctets (addr : SccpAddress) : Prop :=
  addr.routeByGt = true ∨ addr.ssnPresent = true ∨ addr.pcPresent = true

/-- No decoded address has a point code. -/
theorem decodeAddress_pc {bytes : Bytes} {addr : SccpAddress} (h : decodeAddress bytes = .ok addr) :
    addr.pcPresent = false ∧ addr.pc = 0 := by
  rw [decodeAddress, except_bind_eq_ok] at h
  obtain ⟨⟨ai, r⟩, -, h⟩ := h
  dsimp only at h
  split at h
  · simp only [except_bind_eq_ok] at h
    obtain ⟨_, -, _, hpair, h⟩ := h
    cases hpair
    split at h
    · simp only [except_bind_eq_ok] at h
      obtain ⟨_, -, _, -, _, -, hok⟩ := h
      cases hok
      exact ⟨rfl, rfl⟩
    · cases h
      exact ⟨rfl, rfl⟩
  · rw [except_pure, except_ok_bind] at h
    split at h
    · simp only [except_bind_eq_ok] at h
      obtain ⟨_, -, _, -, _, -, hok⟩ := h
      cases hok
      exact ⟨rfl, rfl⟩
    · cases h
      exact ⟨rfl, rfl⟩

/-- An address routed by subsystem number: the indicator announces one in any case. -/
theorem decodeAddress_bySsn {addr : SccpAddress} (hroute : addr.routeByGt = false) :
    decodeAddress (encodeAddress addr) =
      if addr.ssnPresent then
        .ok { routeByGt := false, ssnPresent := true, ssn := addr.ssn }
      else if addr.pcPresent then
        .ok { routeByGt := false, ssnPresent := true, ssn := (addr.pc &&& 0xFF).toUInt8 }
      else .error pastEnd := by
  rw [encodeAddress, if_neg (by rw [hroute]; exact Bool.false_ne_true)]
  dsimp only
  cases addr.ssnPresent <;> cases addr.pcPresent <;> rfl

theorem decodeAddress_hasOctets {addr : SccpAddress} :
    (∃ addr', decodeAddress (encodeAddress addr) = .ok addr') ↔ HasOctets addr := by
  cases hroute : addr.routeByGt with
  | true =>
    refine iff_of_true ?_ (.inl hroute)
    rw [encodeAddress, if_pos hroute]
    dsimp only
    cases addr.ssnPresent with
    | false => exact ⟨_, decodeAddress_plain _ _ _ _⟩
    | true => exact ⟨_, decodeAddress_ssn _ _ _ _ _⟩
  | false =>
    rw [decodeAddress_bySsn hroute, HasOctets, hroute]
    cases addr.ssnPresent with
    | true => simp
    | false => cases addr.pcPresent <;> simp

/-- Restoring one address of a UDT whose pointers fit is a matter of that address, and of the
other one being decoded at all. -/
theorem restores_iff_of_fits {u : SccpUdt} (hlen : addressOctets u ≤ 252)
    (hdata : u.data.length ≤ 255) (p : Party) :
    Restores u p ↔ (∃ a, decodeAddress (encodeAddress (u.party p)) = .ok a ∧
      a.routeByGt = (u.party p).routeByGt ∧ a.ssnPresent = (u.party p).ssnPresent ∧
      a.ssn = (u.party p).ssn ∧ a.pcPresent = (u.party p).pcPresent ∧ a.pc = (u.party p).pc) ∧
      HasOctets (u.party p.other) := by
  rw [← decodeAddress_hasOctets]
  constructor
  · rintro ⟨u', hdecode, h⟩
    rw [decodeUdt_encodeUdt hlen, except_bind_eq_ok] at hdecode
    obtain ⟨called, hcalled, hdecode⟩ := hdecode
    obtain ⟨calling, hcalling, hu'⟩ := except_bind_eq_ok.mp hdecode
    rw [mapError_thrown_eq_ok] at hcalled hcalling
    cases hu'
    obtain ⟨hroute, hssnPresent, hssn, hpcPresent, hpc, -⟩ := h
    cases p with
    | called =>
      exact ⟨⟨called, hcalled, hroute, hssnPresent, hssn, hpcPresent, hpc⟩, calling, hcalling⟩
    | calling =>
      exact ⟨⟨calling, hcalling, hroute, hssnPresent, hssn, hpcPresent, hpc⟩, called, hcalled⟩
  · rintro ⟨⟨a, ha, hroute, hssnPresent, hssn, hpcPresent, hpc⟩, b, hb⟩
    cases p with
    | called =>
      exact ⟨_, decodeUdt_encodeUdt_ok hlen ha hb hdata, hroute, hssnPresent, hssn, hpcPresent,
        hpc, rfl⟩
    | calling =>
      exact ⟨_, decodeUdt_encodeUdt_ok hlen hb ha hdata, hroute, hssnPresent, hssn, hpcPresent,
        hpc, rfl⟩

/-- A decoded UDT has no point codes, wherever its pointers lead. -/
theorem decodeUdt_pc {raw : Bytes} {u : SccpUdt} (h : decodeUdt raw = .ok u) (p : Party) :
    (u.party p).pcPresent = false ∧ (u.party p).pc = 0 := by
  have hparty : ∀ {pos : Nat} {what : String} {addr : SccpAddress},
      decodeParty raw pos what = .ok addr → addr.pcPresent = false ∧ addr.pc = 0 := by
    intro pos what addr haddr
    simp only [decodeParty, except_bind_eq_ok, mapError_thrown_eq_ok] at haddr
    obtain ⟨_, -, bytes, -, haddr⟩ := haddr
    exact decodeAddress_pc haddr
  unfold decodeUdt at h
  split at h
  · split at h
    · cases h
    · simp only [except_bind_eq_ok] at h
      obtain ⟨called, hcalled, calling, hcalling, _, -, h⟩ := h
      split at h
      · cases h
      · obtain ⟨data, -, hu⟩ := except_bind_eq_ok.mp h
        cases hu
        cases p with
        | called => exact hparty hcalled
        | calling => exact hparty hcalling
  · cases h

/-- Where the pointers lead over both addresses, one that is routed by subsystem number comes back
exactly if it has one and no point code, and the other address can be decoded. -/
theorem restores_bySsn_iff {u : SccpUdt} (hlen : addressOctets u ≤ 252)
    (hdata : u.data.length ≤ 255) {p : Party} (hroute : (u.party p).routeByGt = false) :
    Restores u p ↔ SsnOnly (u.party p) ∧ HasOctets (u.party p.other) := by
  rw [restores_iff_of_fits hlen hdata, decodeAddress_bySsn hroute, hroute, SsnOnly]
  refine and_congr_left fun _ => ?_
  cases (u.party p).ssnPresent with
  | true =>
    rw [if_pos rfl]
    constructor
    · rintro ⟨a, ha, -, -, -, hpcPresent, hpc⟩
      cases ha
      exact ⟨rfl, hpcPresent.symm, hpc.symm⟩
    · rintro ⟨-, hpcPresent, hpc⟩
      exact ⟨_, rfl, rfl, rfl, rfl, hpcPresent.symm, hpc.symm⟩
  | false =>
    rw [if_neg Bool.false_ne_true]
    refine iff_of_false ?_ (fun h => Bool.false_ne_true h.1)
    rintro ⟨a, ha, -, hssnPresent, -⟩
    split at ha
    · cases ha
      cases hssnPresent
    · cases ha

/-- An address routed by subsystem number comes back if it has one and no point code, the other
address can be decoded, and the pointers lead over both. As long as they do, it comes back in no
other case; and a point code is lost in any case. -/
theorem ssn_restored_when (u : SccpUdt) (p : Party) (hroute : (u.party p).routeByGt = false)
    (hdata : u.data.length ≤ 255) :
    (SsnOnly (u.party p) ∧ HasOctets (u.party p.other) ∧ addressOctets u ≤ 252 → Restores u p) ∧
    (addressOctets u ≤ 252 → Restores u p → SsnOnly (u.party p) ∧ HasOctets (u.party p.other)) ∧
    (Restores u p → (u.party p).pcPresent = false ∧ (u.party p).pc = 0) := by
  refine ⟨?_, ?_, ?_⟩
  · rintro ⟨hssn, hother, hlen⟩
    exact (restores_bySsn_iff hlen hdata hroute).mpr ⟨hssn, hother⟩
  · intro hlen hrestores
    exact (restores_bySsn_iff hlen hdata hroute).mp hrestores
  · rintro ⟨u', hdecode, -, -, -, hpcPresent, hpc, -⟩
    obtain ⟨hpcPresent', hpc'⟩ := decodeUdt_pc hdecode p
    exact ⟨hpcPresent.symm.trans hpcPresent', hpc.symm.trans hpc'⟩

/-- The HLR's subsystem number alone, called from a Global Title. -/
theorem ssn_alone_restored :
    Restores
      { calledParty := { routeByGt := false, ssnPresent := true, ssn := kSsnHlr }
        callingParty := makeGtAddress [0x34, 0x39, 0x31] 0 false, data := [0x01] } .called :=
  (ssn_restored_when _ .called rfl (by decide)).1 ⟨⟨rfl, rfl, rfl⟩, .inl rfl, by decide⟩

/-- What `makeSsnAddress` builds is not restored. -/
theorem makeSsnAddress_not_restored :
    (∃ u', decodeUdt (encodeUdt
        { calledParty := makeSsnAddress 0x1234 kSsnHlr
          callingParty := makeGtAddress [0x34, 0x39, 0x31] 0 false, data := [0x01] }) = .ok u' ∧
      u'.calledParty.pcPresent = false) ∧
    ¬ Restores
      { calledParty := makeSsnAddress 0x1234 kSsnHlr
        callingParty := makeGtAddress [0x34, 0x39, 0x31] 0 false, data := [0x01] } .called := by
  constructor
  · exact ⟨_, rfl, rfl⟩
  · rintro ⟨u', hdecode, -, -, -, hpcPresent, -⟩
    rw [(decodeUdt_pc hdecode .called).1] at hpcPresent
    cases hpcPresent

end GsupMapProxy.Sccp
