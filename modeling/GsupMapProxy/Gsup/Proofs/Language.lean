import GsupMapProxy.Gsup.Proofs.Elements
import GsupMapProxy.Misc.BigEndian
import GsupMapProxy.Misc.Grammar

/-!
# What `gsup::decode` accepts

A payload is accepted if and only if it is a type octet and a sequence of complete elements, with
nothing in between and nothing behind, whose values can be interpreted; then the message is what
the elements say, from left to right. The one irregular element is a Cause that declares no value
and has one octet nevertheless. Nested elements are sequences of elements in the same way.
-/

namespace GsupMapProxy.Gsup

open Misc

/-- What the decoder takes for an element. -/
inductive Item where
  | element (e : Element) (hcause : ¬ e.EmptyCause)
  | bareCause (octet : UInt8)

namespace Item

def wire : Item → Bytes
  | element e _ => e.wire
  | bareCause octet => [IeTag.cause.toByte, 0, octet]

def interpret (msg : GsupMessage) : Item → Except Exn GsupMessage
  | element e _ => e.interpret msg
  | bareCause octet => .ok { msg with cause := some octet }

end Item

/-! ## Elements at the front -/

theorem Element.wire_ne_nil (e : Element) : e.wire ≠ [] := by simp [wire]

theorem Element.prefixFree : PrefixFree Element.wire := by
  intro e e' xs ys heq
  obtain ⟨tag, value, hfits⟩ := e
  obtain ⟨tag', value', hfits'⟩ := e'
  simp only [Element.wire, List.cons_append, List.cons.injEq] at heq
  obtain ⟨rfl, hlen, heq⟩ := heq
  have hlength : value.length = value'.length := by
    rw [← toNat_ofNat_length hfits, hlen, toNat_ofNat_length hfits']
  obtain ⟨rfl, hrest⟩ := List.append_inj heq hlength
  exact ⟨rfl, hrest⟩

/-- Two octets and as many as the second of them says are an element. -/
theorem exists_element (tag : UInt8) {len : UInt8} {r : Bytes} (h : len.toNat ≤ r.length) :
    ∃ e : Element, e.tag = tag ∧ e.value = r.take len.toNat ∧
      tag :: len :: r = e.wire ++ r.drop len.toNat := by
  have hlength : (r.take len.toNat).length = len.toNat := by
    rw [List.length_take, Nat.min_eq_left h]
  refine ⟨⟨tag, r.take len.toNat, ?_⟩, rfl, rfl, ?_⟩
  · have := len.toNat_lt
    omega
  · have hocted : UInt8.ofNat (r.take len.toNat).length = len := by
      rw [hlength]
      exact UInt8.ofNat_toNat
    simp only [Element.wire, hocted, List.cons_append, List.take_append_drop]

/-! ## Nested elements -/

/-- A turn of a loop over sub-elements. -/
theorem subIeTurn_readsItems {σ : Type} (set : σ → IeTag → Bytes → σ) :
    ReadsItems (subIeTurn set) Element.wire
      (fun s e => .ok (set s (IeTag.ofByte e.tag) e.value)) where
  nonempty := Element.wire_ne_nil
  turn := by
    intro s xs s' rest
    constructor
    · intro h
      obtain ⟨⟨⟨tag, val⟩, r⟩, hread, h⟩ := except_bind_eq_ok.mp h
      cases h
      obtain ⟨⟨octet, r₁⟩, hfirst, hread⟩ := except_bind_eq_ok.mp hread
      obtain ⟨⟨len, r₂⟩, hsecond, hread⟩ := except_bind_eq_ok.mp hread
      obtain ⟨⟨value, r₃⟩, hvalue, hread⟩ := except_bind_eq_ok.mp hread
      cases hread
      rw [read8_eq_ok.mp hfirst, read8_eq_ok.mp hsecond]
      unfold readBytes at hvalue
      split at hvalue
      · cases hvalue
      · rename_i hlen
        cases hvalue
        obtain ⟨e, rfl, hval, heq⟩ := exists_element octet (Nat.le_of_not_lt hlen)
        exact ⟨e, heq, by rw [hval]⟩
    · rintro ⟨e, rfl, hact⟩
      cases hact
      have hbytes : readBytes e.value.length (e.value ++ rest) = .ok (e.value, rest) :=
        readBytes_append rfl
      simp only [subIeTurn, readSubIe, Element.wire, List.cons_append, read8_cons, except_ok_bind,
        toNat_ofNat_length e.fits, hbytes, except_pure]

/-! ## Elements of a message -/

theorem decodeIe_bareCause (msg : GsupMessage) (octet : UInt8) (rest : Bytes) :
    decodeIe msg (IeTag.cause.toByte :: 0 :: octet :: rest) =
      .ok ({ msg with cause := some octet }, rest) := by
  have hempty : ([] : Bytes).length ≤ 255 := by decide
  exact (decodeIe_element (octet :: rest) hempty : decodeIe msg (IeTag.cause.toByte ::
    UInt8.ofNat ([] : Bytes).length :: ([] ++ octet :: rest)) = _)

theorem IeTag.toByte_ofByte (b : UInt8) : (IeTag.ofByte b).toByte = b := by
  revert b
  apply forall_octet
  decide +kernel

theorem decodeIe_readsItems : ReadsItems decodeIe Item.wire Item.interpret where
  nonempty := by
    intro item
    cases item with
    | element e hcause => exact e.wire_ne_nil
    | bareCause octet => simp [Item.wire]
  turn := by
    intro msg xs msg' rest
    constructor
    · intro h
      have hparts := h
      unfold decodeIe at hparts
      split at hparts
      · cases hparts
      · obtain ⟨⟨tag, r₁⟩, hfirst, hparts⟩ := except_bind_eq_ok.mp hparts
        obtain ⟨⟨len, r⟩, hsecond, hparts⟩ := except_bind_eq_ok.mp hparts
        dsimp only at hparts
        split at hparts
        · cases hparts
        · rename_i hlen
          obtain ⟨e, rfl, hvalue, heq⟩ := exists_element tag (Nat.le_of_not_lt hlen)
          have hxs : xs = e.wire ++ r.drop len.toNat := by
            rw [read8_eq_ok.mp hfirst, read8_eq_ok.mp hsecond, heq]
          by_cases hcause : e.EmptyCause
          · -- the octet behind the element is taken for the cause
            obtain ⟨htag, hnil⟩ := hcause
            rw [Element.wire, ← IeTag.toByte_ofByte e.tag, htag, hnil] at hxs
            rw [hxs] at h
            cases htail : r.drop len.toNat with
            | nil =>
              rw [htail] at h
              cases h
            | cons octet r' =>
              rw [htail] at h hxs
              have hcause := decodeIe_bareCause msg octet r'
              have h : decodeIe msg (IeTag.cause.toByte :: 0 :: octet :: r') = .ok (msg', rest) := h
              rw [hcause] at h
              cases h
              exact ⟨.bareCause octet, hxs, rfl⟩
          · rw [hxs, decodeIe_wire hcause] at h
            obtain ⟨msg₁, hinterpret, hpair⟩ := except_map_eq_ok.mp h
            cases hpair
            exact ⟨.element e hcause, hxs, hinterpret⟩
    · rintro ⟨item, rfl, hact⟩
      cases item with
      | element e hcause =>
        have hact : e.interpret msg = .ok msg' := hact
        rw [Item.wire, decodeIe_wire hcause, hact]
        rfl
      | bareCause octet =>
        cases hact
        exact decodeIe_bareCause msg octet rest

theorem Item.prefixFree : PrefixFree Item.wire := by
  -- an element that starts like a bare cause declares no value
  have hbare : ∀ {e : Element} {octet : UInt8} {xs ys : Bytes}, ¬ e.EmptyCause →
      e.wire ++ xs ≠ IeTag.cause.toByte :: 0 :: octet :: ys := by
    intro e octet xs ys hcause heq
    simp only [Element.wire, List.cons_append, List.cons.injEq] at heq
    obtain ⟨htag, hlen, -⟩ := heq
    refine hcause ⟨by rw [htag, IeTag.ofByte_toByte], ?_⟩
    rw [← List.length_eq_zero_iff, ← toNat_ofNat_length e.fits, hlen]
    rfl
  intro item item' xs ys heq
  cases item with
  | element e hcause =>
    cases item' with
    | element e' hcause' =>
      obtain ⟨rfl, hrest⟩ := Element.prefixFree heq
      exact ⟨rfl, hrest⟩
    | bareCause octet => exact absurd heq (hbare hcause)
  | bareCause octet =>
    cases item' with
    | element e' hcause' => exact absurd heq.symm (hbare hcause')
    | bareCause octet' =>
      cases heq
      exact ⟨rfl, rfl⟩

/-! ## The language -/

/-- A payload is decoded to a message if and only if it is a type octet and a sequence of complete
elements that say so, in which case there is exactly one such sequence. The value of an AuthTuple
or a PdpInfo is decoded if and only if it is a sequence of complete elements. -/
theorem decode_language (payload : Bytes) (m : GsupMessage) :
    (decode payload = .ok m ↔ ∃ (type : UInt8) (items : List Item),
      payload = type :: items.flatMap Item.wire ∧
      items.foldlM Item.interpret { type := MessageType.ofByte type } = .ok m) ∧
    (∀ (type : UInt8) (items items' : List Item), payload = type :: items.flatMap Item.wire →
      payload = type :: items'.flatMap Item.wire → items = items') ∧
    (∀ body t, decodeAuthTuple body = .ok t ↔ ∃ subs : List Element,
      body = subs.flatMap Element.wire ∧
      subs.foldl (fun t e => setAuthTupleIe t (IeTag.ofByte e.tag) e.value) {} = t) ∧
    ∀ body p, decodePdpInfo body = .ok p ↔ ∃ subs : List Element,
      body = subs.flatMap Element.wire ∧
      subs.foldl (fun p e => setPdpInfoIe p (IeTag.ofByte e.tag) e.value) {} = p := by
  refine ⟨?_, ?_, ?_, ?_⟩
  · cases payload with
    | nil => simp [decode]
    | cons type r =>
      rw [decode, if_neg (by simp), read8_cons, except_ok_bind]
      dsimp only
      rw [decodeIe_readsItems.drain_eq_ok_iff]
      constructor
      · rintro ⟨items, rfl, hfold⟩
        exact ⟨type, items, rfl, hfold⟩
      · rintro ⟨type', items, heq, hfold⟩
        cases heq
        exact ⟨items, rfl, hfold⟩
  · rintro type items items' rfl heq
    exact Item.prefixFree.flatMap_inj decodeIe_readsItems.nonempty (List.cons.inj heq).2
  · intro body t
    rw [decodeAuthTuple, (subIeTurn_readsItems setAuthTupleIe).drain_eq_ok_iff]
    simp only [foldlM_ok_eq, Except.ok.injEq]
  · intro body p
    rw [decodePdpInfo, (subIeTurn_readsItems setPdpInfoIe).drain_eq_ok_iff]
    simp only [foldlM_ok_eq, Except.ok.injEq]

end GsupMapProxy.Gsup
