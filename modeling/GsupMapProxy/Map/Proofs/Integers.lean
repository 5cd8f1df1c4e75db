import GsupMapProxy.Map.BerCodec
import GsupMapProxy.Misc.TwosComplement

/-!
# BER INTEGERs

`encodeInt` writes the minimal two's-complement representation of a value, and `decodeInt` reads
the value of any representation of up to eight octets. `WhileOctets` and `DoWhileOctets` are the
runs of the loops of `encodeInt` that end, without the fuel `lowOctets` and `lowOctetsNeg` have.
-/

namespace GsupMapProxy.Map.Ber

open Misc

/-- `while (uv > 0)` ends, having pushed these octets (`BerCodec.cpp:81-84`). -/
inductive WhileOctets : Nat → Bytes → Prop
  | done : WhileOctets 0 []
  | turn {uv : Nat} {be : Bytes} (hpos : uv > 0) (later : WhileOctets (uv >>> 8) be) :
      WhileOctets uv (UInt8.ofNat (uv &&& 0xFF) :: be)

/-- `do ... while (tmp != -1 || (be.back() & 0x80) == 0)` ends, having pushed these octets
(`BerCodec.cpp:95-99`). -/
inductive DoWhileOctets : Int → Bytes → Prop
  | last {tmp : Int}
      (h : ¬ (tmp >>> (8 : Nat) ≠ -1 ∨ UInt8.ofNat (tmp % 256).toNat &&& 0x80 = 0)) :
      DoWhileOctets tmp [UInt8.ofNat (tmp % 256).toNat]
  | turn {tmp : Int} {be : Bytes}
      (h : tmp >>> (8 : Nat) ≠ -1 ∨ UInt8.ofNat (tmp % 256).toNat &&& 0x80 = 0)
      (later : DoWhileOctets (tmp >>> (8 : Nat)) be) :
      DoWhileOctets tmp (UInt8.ofNat (tmp % 256).toNat :: be)

/-- `neg ? -(value + 1) : value`, where the first loop starts (`BerCodec.cpp:78`). -/
def firstUv (value : Int64) : Nat :=
  if value < 0 then (-(value.toInt + 1)).toNat else value.toInt.toNat

/-- Every loop that `encodeInt` enters ends, with the octets that it goes on with. -/
def LoopsEnd (value : Int64) : Prop :=
  WhileOctets (firstUv value) (lowOctets 9 (firstUv value)) ∧
    (value < 0 → DoWhileOctets value.toInt (lowOctetsNeg 9 value.toInt))

/-! ## Octets of a number -/

theorem and_0x80_eq_zero (b : UInt8) : b &&& 0x80 = 0 ↔ b.toNat < 128 := by
  revert b
  apply forall_octet
  decide +kernel

theorem shiftRight_eight (n : Nat) : n >>> 8 = n / 256 := by
  rw [Nat.shiftRight_eq_div_pow]

theorem int_shiftRight_eight (n : Int) : n >>> (8 : Nat) = n / 256 := by
  rw [Int.shiftRight_eq_div_pow]
  rfl

theorem lowOctet_toNat (n : Nat) : (UInt8.ofNat (n &&& 0xFF)).toNat = n % 256 := by
  rw [UInt8.toNat_ofNat', and_0xFF]
  omega

theorem lowOctetNeg_toNat (n : Int) : ((UInt8.ofNat (n % 256).toNat).toNat : Int) = n % 256 := by
  rw [UInt8.toNat_ofNat']
  omega

/-! ## The loops end -/

theorem lowOctets_ends {fuel uv : Nat} (h : uv < 256 ^ fuel) :
    WhileOctets uv (lowOctets fuel uv) := by
  induction fuel generalizing uv with
  | zero =>
    obtain rfl : uv = 0 := by
      rw [Nat.pow_zero] at h
      omega
    exact .done
  | succ fuel ih =>
    rw [lowOctets]
    split
    · rename_i hpos
      rw [pow_succ] at h
      exact .turn hpos (ih (by rw [shiftRight_eight]; omega))
    · rename_i hzero
      obtain rfl : uv = 0 := by omega
      exact .done

/-- `n + 1` octets hold a negative number down to `-(128 * 256 ^ n)`. -/
theorem lowOctetsNeg_ends {n : Nat} {tmp : Int} (hlo : -(128 * 256 ^ n) ≤ tmp) (hneg : tmp < 0) :
    DoWhileOctets tmp (lowOctetsNeg (n + 1) tmp) := by
  induction n generalizing tmp with
  | zero =>
    rw [pow_zero] at hlo
    have hoctet := lowOctetNeg_toNat tmp
    have hstop : ¬ (tmp >>> (8 : Nat) ≠ -1 ∨ UInt8.ofNat (tmp % 256).toNat &&& 0x80 = 0) := by
      rw [int_shiftRight_eight, and_0x80_eq_zero]
      omega
    rw [lowOctetsNeg]
    rw [if_neg hstop]
    exact .last hstop
  | succ n ih =>
    rw [lowOctetsNeg]
    split
    · rename_i hgo
      rw [pow_succ] at hlo
      refine .turn hgo (ih ?_ ?_)
      · rw [int_shiftRight_eight]
        omega
      · rw [int_shiftRight_eight]
        omega
    · rename_i hstop
      exact .last hstop

theorem loopsEnd (value : Int64) : LoopsEnd value := by
  have hlo := value.le_toInt
  have hhi := value.toInt_lt
  constructor
  · apply lowOctets_ends
    rw [firstUv]
    split
    · omega
    · omega
  · intro hneg
    rw [Int64.lt_iff_toInt_lt, Int64.toInt_zero] at hneg
    exact lowOctetsNeg_ends (by omega) hneg

/-! ## What the loops push -/

theorem WhileOctets.value {uv : Nat} {be : Bytes} (h : WhileOctets uv be) :
    octetsValue be.reverse = uv := by
  induction h with
  | done => rfl
  | @turn uv be _ _ ih =>
    rw [List.reverse_cons, octetsValue_concat, ih, lowOctet_toNat, shiftRight_eight]
    omega

/-- The octet pushed last is not zero. -/
theorem WhileOctets.head {uv : Nat} {be : Bytes} (h : WhileOctets uv be) (hpos : 0 < uv) :
    ∃ b0 rest, be.reverse = b0 :: rest ∧ 0 < b0.toNat := by
  induction h with
  | done => omega
  | @turn uv be _ later ih =>
    rw [List.reverse_cons]
    by_cases hmore : 0 < uv >>> 8
    · obtain ⟨b0, rest, hrev, hb0⟩ := ih hmore
      exact ⟨b0, _, by rw [hrev, List.cons_append], hb0⟩
    · have hzero : uv >>> 8 = 0 := by omega
      rw [hzero] at later
      cases later with
      | done =>
        refine ⟨_, [], rfl, ?_⟩
        rw [lowOctet_toNat]
        rw [shiftRight_eight] at hzero
        omega
      | turn hpos' => omega

/-- What the loop for negative values pushes is the minimal representation. -/
theorem DoWhileOctets.spec {tmp : Int} {be : Bytes} (h : DoWhileOctets tmp be) (hneg : tmp < 0) :
    be.reverse ≠ [] ∧ signedValue be.reverse = tmp ∧ Minimal be.reverse := by
  induction h with
  | @last tmp hstop =>
    have hoctet := lowOctetNeg_toNat tmp
    rw [int_shiftRight_eight, and_0x80_eq_zero] at hstop
    refine ⟨by simp, ?_, minimal_singleton _⟩
    rw [List.reverse_singleton, signedValue_singleton, if_pos (by omega)]
    omega
  | @turn tmp be hgo later ih =>
    have hoctet := lowOctetNeg_toNat tmp
    rw [int_shiftRight_eight] at ih hgo
    rw [and_0x80_eq_zero] at hgo
    obtain ⟨hne, hvalue, hmin⟩ := ih (by omega)
    rw [List.reverse_cons]
    refine ⟨by simp, ?_, ?_⟩
    · rw [signedValue_concat hne, hvalue, hoctet]
      omega
    · -- one more octet matters only behind a single one
      rcases hrev : be.reverse with _ | ⟨b0, _ | ⟨b1, rest⟩⟩
      · exact absurd hrev hne
      · rw [hrev, signedValue_singleton] at hvalue
        have hb0 := b0.toNat_lt
        rw [List.singleton_append, minimal_cons_cons]
        constructor
        · rintro ⟨rfl, -⟩
          rw [if_neg (by decide)] at hvalue
          have : ((0 : UInt8).toNat : Int) = 0 := rfl
          omega
        · rintro ⟨rfl, hbit⟩
          rw [if_pos (by decide)] at hvalue
          have : ((0xFF : UInt8).toNat : Int) = 255 := rfl
          omega
      · rw [hrev] at hmin
        rw [minimal_append (by simp)]
        exact hmin

/-- The octets of a positive value, behind a zero octet if the first one would set the sign. -/
theorem WhileOctets.signed {uv : Nat} {be : Bytes} (h : WhileOctets uv be) (hpos : 0 < uv) :
    let out := if be.reverse.headD 0 &&& 0x80 ≠ 0 then 0x00 :: be.reverse else be.reverse
    out ≠ [] ∧ signedValue out = uv ∧ Minimal out := by
  obtain ⟨b0, rest, hrev, hb0⟩ := h.head hpos
  have hvalue := h.value
  rw [hrev] at hvalue ⊢
  dsimp only
  have hsign : b0 &&& 0x80 ≠ 0 ↔ 128 ≤ b0.toNat := by
    rw [Ne, and_0x80_eq_zero]
    omega
  rw [List.headD_cons]
  split
  · rename_i hbit
    rw [hsign] at hbit
    refine ⟨by simp, ?_, ?_⟩
    · rw [signedValue, if_neg (by rw [signBit_cons]; decide), octetsValue_cons, hvalue]
      simp
    · rw [minimal_cons_cons]
      exact ⟨fun hzero => by omega, fun hff => absurd hff.1 (by decide)⟩
  · rename_i hbit
    rw [hsign] at hbit
    refine ⟨by simp, ?_, ?_⟩
    · rw [signedValue, if_neg (by rw [signBit_cons]; exact hbit), hvalue]
      simp
    · intro c0 c1 tail heq
      cases heq
      constructor
      · rintro ⟨rfl, -⟩
        exact absurd hb0 (by decide)
      · rintro ⟨rfl, -⟩
        exact hbit (by decide)

/-- `encodeInt` returns the minimal representation of its argument. -/
theorem encodeInt_spec (value : Int64) :
    encodeInt value ≠ [] ∧ signedValue (encodeInt value) = value.toInt ∧
      Minimal (encodeInt value) := by
  obtain ⟨hwhile, hdo⟩ := loopsEnd value
  unfold encodeInt
  split
  · rename_i hzero
    subst hzero
    exact ⟨by simp, by decide, minimal_singleton _⟩
  · rename_i hne
    split
    · rename_i hneg
      have hneg' : value.toInt < 0 := by
        rwa [Int64.lt_iff_toInt_lt, Int64.toInt_zero] at hneg
      exact (hdo hneg).spec hneg'
    · rename_i hnonneg
      have hpos : 0 < value.toInt := by
        rw [Int64.lt_iff_toInt_lt, Int64.toInt_zero] at hnonneg
        have hne' : value.toInt ≠ 0 := fun h => hne (Int64.toInt_inj.mp h)
        omega
      rw [firstUv, if_neg hnonneg] at hwhile
      obtain ⟨hout, hvalue, hmin⟩ := hwhile.signed (by omega)
      exact ⟨hout, by rw [hvalue]; omega, hmin⟩

theorem encodeInt_length (value : Int64) : (encodeInt value).length ≤ 8 := by
  obtain ⟨-, hvalue, hmin⟩ := encodeInt_spec value
  have hlo := value.le_toInt
  have hhi := value.toInt_lt
  exact hmin.length_le_of_bounds (n := 7) (by omega) (by omega)

/-! ## What `decodeInt` reads -/

theorem foldl_uint64_toNat (bs : Bytes) :
    (bs.foldl (fun (acc : UInt64) b => (acc <<< 8) ||| b.toUInt64) 0).toNat =
      octetsValue bs % 2 ^ 64 := by
  induction bs using List.reverseRecOn with
  | nil => rfl
  | append_singleton bs b ih =>
    rw [List.foldl_append, List.foldl_cons, List.foldl_nil, uint64_shl8_or_toNat, ih,
      octetsValue_concat]
    omega

/-- The mask sets the bits above those of `n` octets. -/
theorem or_signMask_toNat {n : Nat} {x : UInt64} (hpos : 0 < n) (hlt : n < 8)
    (hx : x.toNat < 256 ^ n) :
    (x ||| ((0 : UInt64) - (1 <<< UInt64.ofNat (n * 8)))).toNat + 256 ^ n = x.toNat + 2 ^ 64 := by
  obtain ⟨k, hmask, hk⟩ : ∃ k, ((0 : UInt64) - (1 <<< UInt64.ofNat (n * 8))).toNat =
      2 ^ (8 * n) * k ∧ 2 ^ (8 * n) * k + 256 ^ n = 2 ^ 64 := by
    have hn : n = 1 ∨ n = 2 ∨ n = 3 ∨ n = 4 ∨ n = 5 ∨ n = 6 ∨ n = 7 := by omega
    refine ⟨2 ^ (64 - 8 * n) - 1, ?_⟩
    rcases hn with rfl | rfl | rfl | rfl | rfl | rfl | rfl <;> exact ⟨rfl, rfl⟩
  have hx' : x.toNat < 2 ^ (8 * n) := by
    rw [pow_mul]
    exact hx
  rw [UInt64.toNat_or, hmask, Nat.or_comm, ← Nat.two_pow_add_eq_or_of_lt hx']
  omega

/-- The word `decodeInt` makes is the value of the octets modulo `2 ^ 64`, for INTEGERs of any
length. -/
theorem decodeInt_word {octets : Bytes} (hne : octets ≠ []) :
    ∃ word : UInt64, decodeInt octets = .ok word.toInt64 ∧
      (word.toNat : Int) = signedValue octets % 2 ^ 64 := by
  obtain ⟨v0, tail, rfl⟩ := List.exists_cons_of_ne_nil hne
  have hvalue := octetsValue_lt (v0 :: tail)
  have hfold := foldl_uint64_toNat (v0 :: tail)
  have hsign : v0 &&& 0x80 ≠ 0 ↔ SignBit (v0 :: tail) := by
    rw [Ne, and_0x80_eq_zero, signBit_cons]
    omega
  rw [decodeInt]
  generalize hlen : (v0 :: tail).length = n at *
  have hpos : 0 < n := by
    rw [← hlen, List.length_cons]
    omega
  by_cases hs : SignBit (v0 :: tail)
  · rw [signedValue, if_pos hs, hlen]
    by_cases hshort : n * 8 < 64
    · have hpow : 256 ^ n ≤ 256 ^ 7 := Nat.pow_le_pow_right (by omega) (by omega)
      have hx : octetsValue (v0 :: tail) % 2 ^ 64 < 256 ^ n := by omega
      rw [if_pos ⟨hsign.mpr hs, hshort⟩]
      refine ⟨_, rfl, ?_⟩
      have hmask := or_signMask_toNat hpos (by omega) (by rw [hfold]; exact hx)
      rw [hfold] at hmask
      have hcast : ((256 ^ n : Nat) : Int) = 256 ^ n := by push_cast; rfl
      omega
    · rw [if_neg (fun h => hshort h.2)]
      refine ⟨_, rfl, ?_⟩
      have hdvd : (2 ^ 64 : Int) ∣ 256 ^ n := by
        rw [show (2 ^ 64 : Int) = 256 ^ 8 by norm_num]
        exact pow_dvd_pow 256 (by omega)
      rw [hfold]
      omega
  · rw [if_neg (fun h => hs (hsign.mp h.1)), signedValue, if_neg hs]
    refine ⟨_, rfl, ?_⟩
    rw [hfold]
    omega

/-- The cast to `uint8_t` keeps the value modulo 256, for INTEGERs of any length. -/
theorem narrow_decodeInt_signed {octets : Bytes} {v : Int64} (h : decodeInt octets = .ok v) :
    ((narrow v).toNat : Int) = signedValue octets % 256 := by
  have hne : octets ≠ [] := by
    rintro rfl
    cases h
  obtain ⟨word, hdecode, hword⟩ := decodeInt_word hne
  rw [hdecode] at h
  cases h
  rw [narrow, UInt64.toUInt64_toInt64, UInt64.toNat_toUInt8]
  omega

/-- A word that agrees with a 64-bit number modulo `2 ^ 64` is that number. -/
theorem toInt64_toInt {word : UInt64} {v : Int} (h : (word.toNat : Int) = v % 2 ^ 64)
    (hlo : -2 ^ 63 ≤ v) (hhi : v < 2 ^ 63) : word.toInt64.toInt = v := by
  have hword := word.toNat_lt
  have hcond : word.toInt64.toInt = word.toBitVec.toInt := rfl
  have hnat : word.toBitVec.toNat = word.toNat := rfl
  rw [hcond, BitVec.toInt_eq_toNat_cond, hnat]
  split <;> omega

/-- `decodeInt` returns the value of the octets exactly when it is one of 64 bits. -/
theorem decodeInt_fits {octets : Bytes} (hne : octets ≠ []) (hlo : -2 ^ 63 ≤ signedValue octets)
    (hhi : signedValue octets < 2 ^ 63) :
    ∃ v, decodeInt octets = .ok v ∧ v.toInt = signedValue octets := by
  obtain ⟨word, hdecode, hword⟩ := decodeInt_word hne
  exact ⟨_, hdecode, toInt64_toInt hword hlo hhi⟩

theorem decodeInt_spec {octets : Bytes} (hne : octets ≠ []) (hlen : octets.length ≤ 8) :
    ∃ v, decodeInt octets = .ok v ∧ v.toInt = signedValue octets := by
  obtain ⟨n, hn⟩ : ∃ n, octets.length = n + 1 :=
    ⟨octets.length - 1, by have := List.length_pos_iff.mpr hne; omega⟩
  obtain ⟨hlo, hhi⟩ := signedValue_bounds hn
  have hpow : (256 : Int) ^ n ≤ 256 ^ 7 := pow_le_pow_right₀ (by omega) (by omega)
  exact decodeInt_fits hne (by omega) (by omega)

theorem decodeInt_encodeInt (value : Int64) : decodeInt (encodeInt value) = .ok value := by
  obtain ⟨hne, hvalue, -⟩ := encodeInt_spec value
  obtain ⟨v, hv, hspec⟩ := decodeInt_spec hne (encodeInt_length value)
  rw [hv, Int64.toInt_inj.mp (hspec.trans hvalue)]

/-! ## The codec -/

/-- The octets are the only shortest two's-complement representation of the value. -/
def UniqueShortest (octets : Bytes) (v : Int) : Prop :=
  octets ≠ [] ∧ signedValue octets = v ∧
    ∀ other : Bytes, other ≠ [] → signedValue other = v →
      octets.length < other.length ∨ other = octets

/-- `encodeInt` ends for every value and writes its unique shortest representation, which
`decodeInt` reads back; `decodeInt` reads the value of up to eight octets, and exactly the minimal
ones are written again. -/
theorem integer_codec_exact :
    (∀ v : Int64, LoopsEnd v ∧ 1 ≤ (encodeInt v).length ∧ (encodeInt v).length ≤ 8 ∧
      UniqueShortest (encodeInt v) v.toInt ∧ Minimal (encodeInt v) ∧
      decodeInt (encodeInt v) = .ok v) ∧
    ∀ octets : Bytes, octets ≠ [] → octets.length ≤ 8 →
      ∃ v, decodeInt octets = .ok v ∧ v.toInt = signedValue octets ∧
        (encodeInt v = octets ↔ Minimal octets) := by
  constructor
  · intro v
    obtain ⟨hne, hvalue, hmin⟩ := encodeInt_spec v
    refine ⟨loopsEnd v, List.length_pos_iff.mpr hne, encodeInt_length v, ⟨hne, hvalue, ?_⟩, hmin,
      decodeInt_encodeInt v⟩
    intro other hother hsame
    exact hmin.shortest hother (hvalue.trans hsame.symm)
  · intro octets hne hlen
    obtain ⟨v, hv, hspec⟩ := decodeInt_spec hne hlen
    obtain ⟨hne', hvalue, hmin⟩ := encodeInt_spec v
    refine ⟨v, hv, hspec, ?_⟩
    constructor
    · intro h
      rw [← h]
      exact hmin
    · intro h
      exact hmin.eq h hne' hne (hvalue.trans hspec)

/-- The smallest value, and nine set bits in front of a byte that two octets do not need. -/
theorem integer_codec_min_value :
    (1 ≤ (encodeInt Int64.minValue).length ∧
      decodeInt (encodeInt Int64.minValue) = .ok Int64.minValue) ∧
    ∃ v, decodeInt [0xFF, 0x80] = .ok v ∧ v.toInt = -128 ∧ encodeInt v ≠ [0xFF, 0x80] := by
  obtain ⟨-, hlen, -, -, -, hdecode⟩ := integer_codec_exact.1 Int64.minValue
  obtain ⟨v, hv, hvalue, hiff⟩ := integer_codec_exact.2 [0xFF, 0x80] (by decide) (by decide)
  refine ⟨⟨hlen, hdecode⟩, v, hv, by rw [hvalue]; decide, ?_⟩
  intro h
  exact ((minimal_cons_cons _ _ _).mp (hiff.mp h)).2 (by decide)

end GsupMapProxy.Map.Ber
