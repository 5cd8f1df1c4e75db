import GsupMapProxy.Gsup.Proofs.RoundTrip

/-!
# GSUP element by element

What `gsup::decode` makes of a payload, said without a cursor: the elements are interpreted one
after the other, each by its own tag and value. The decoder does that unless there is a Cause
without a value, whose branch reads an octet that belongs to the next element.
-/

namespace GsupMapProxy.Gsup

open Misc

/-- An information element: a tag octet, and a value that fits the length octet. -/
structure Element where
  tag : UInt8
  value : Bytes
  fits : value.length ≤ 255

/-- The tags `gsup::decode` has a branch for. -/
def knownTags : List IeTag :=
  [.imsi, .cause, .authTuple, .pdpInfoComplete, .pdpInfo, .cancelType, .freezePtmsi, .msisdn,
    .hlrNumber, .numVectorsReq, .cnDomain]

/-- What a value says about a message under a tag. An octet that is not there says nothing. -/
def interpretValue (msg : GsupMessage) (tag : IeTag) (value : Bytes) : Except Exn GsupMessage :=
  match tag with
  | .imsi => do
      let imsi ← bcdToImsi value
      return { msg with imsi := imsi }
  | .cause => .ok { msg with cause := value.head?.or msg.cause }
  | .authTuple => do
      let t ← decodeAuthTuple value
      return { msg with authTuples := msg.authTuples ++ [t] }
  | .pdpInfoComplete => .ok { msg with pdpInfoComplete := true }
  | .pdpInfo => do
      let p ← decodePdpInfo value
      return { msg with pdpInfoList := msg.pdpInfoList ++ [p] }
  | .cancelType => .ok { msg with cancelType := value.head?.or msg.cancelType }
  | .freezePtmsi => .ok { msg with freezePtmsi := true }
  | .msisdn => .ok { msg with msisdn := some value }
  | .hlrNumber => .ok { msg with hlrNumber := some value }
  | .numVectorsReq =>
      .ok { msg with numVectorsRequested := value.head?.or msg.numVectorsRequested }
  | .cnDomain => .ok { msg with cnDomain := value.head?.or msg.cnDomain }
  | _ => .ok msg

namespace Element

def wire (e : Element) : Bytes := e.tag :: UInt8.ofNat e.value.length :: e.value

def interpret (msg : GsupMessage) (e : Element) : Except Exn GsupMessage :=
  interpretValue msg (IeTag.ofByte e.tag) e.value

def Unknown (e : Element) : Prop := IeTag.ofByte e.tag ∉ knownTags

/-- A Cause without a value. -/
def EmptyCause (e : Element) : Prop := IeTag.ofByte e.tag = .cause ∧ e.value = []

end Element

/-! ## The branches -/

theorem readCauseIe_append {value : Bytes} (h : value ≠ []) (rest : Bytes) :
    ∃ b, value.head? = some b ∧ readCauseIe value.length (value ++ rest) = .ok (b, rest) := by
  obtain ⟨b, value, rfl⟩ := List.exists_cons_of_ne_nil h
  refine ⟨b, rfl, ?_⟩
  cases value with
  | nil => rfl
  | cons b' value =>
    have hskip : readBytes (b' :: value).length ((b' :: value) ++ rest) =
        .ok (b' :: value, rest) := readBytes_append rfl
    simp only [readCauseIe, List.length_cons, List.cons_append, read8_cons, except_ok_bind,
      Nat.add_sub_cancel] at hskip ⊢
    rw [if_pos (by omega), hskip]
    rfl

theorem readOctetIe_append (value rest : Bytes) :
    readOctetIe value.length (value ++ rest) = .ok (value.head?, rest) := by
  by_cases hnil : value = []
  · subst hnil
    rfl
  · obtain ⟨b, hhead, hread⟩ := readCauseIe_append hnil rest
    rw [readOctetIe_of_pos (List.length_pos_iff.mpr hnil), hread, hhead]
    rfl

/-- Every branch reads the value and nothing else, the one for Cause if there is a value. -/
theorem decodeIeValue_append {msg : GsupMessage} {tag : IeTag} {value : Bytes}
    (h : tag = .cause → value ≠ []) (rest : Bytes) :
    decodeIeValue msg tag value.length (value ++ rest) =
      (interpretValue msg tag value).map fun msg' => (msg', rest) := by
  have hbytes : readBytes value.length (value ++ rest) = .ok (value, rest) := readBytes_append rfl
  cases tag with
  | imsi =>
    simp only [decodeIeValue, interpretValue, hbytes, except_ok_bind]
    cases bcdToImsi value <;> rfl
  | cause =>
    obtain ⟨b, hhead, hread⟩ := readCauseIe_append (h rfl) rest
    simp only [decodeIeValue, interpretValue, hread, hhead, except_ok_bind]
    rfl
  | authTuple =>
    simp only [decodeIeValue, interpretValue, hbytes, except_ok_bind]
    cases decodeAuthTuple value <;> rfl
  | pdpInfo =>
    simp only [decodeIeValue, interpretValue, hbytes, except_ok_bind]
    cases decodePdpInfo value <;> rfl
  | cancelType | numVectorsReq | cnDomain =>
    simp only [decodeIeValue, interpretValue, readOctetIe_append, except_ok_bind]
    rfl
  | _ =>
    simp only [decodeIeValue, interpretValue, hbytes, except_ok_bind]
    rfl

/-! ## The loop -/

/-- A turn takes one element off the front. -/
theorem decodeIe_wire {e : Element} (h : ¬ e.EmptyCause) (msg : GsupMessage) (rest : Bytes) :
    decodeIe msg (e.wire ++ rest) = (e.interpret msg).map fun msg' => (msg', rest) := by
  have hvalue : IeTag.ofByte e.tag = .cause → e.value ≠ [] := fun htag hnil => h ⟨htag, hnil⟩
  rw [Element.wire, List.cons_append, List.cons_append, decodeIe_octets rest e.fits,
    decodeIeValue_append hvalue]
  rfl

/-- The branch for Cause takes an octet even if there is none. -/
theorem decodeIe_emptyCause {e : Element} (h : e.EmptyCause) (msg : GsupMessage) (rest : Bytes) :
    decodeIe msg (e.wire ++ rest) ≠ (e.interpret msg).map fun msg' => (msg', rest) := by
  obtain ⟨htag, hvalue⟩ := h
  have hturn : decodeIe msg (e.wire ++ rest) = decodeIeValue msg .cause 0 rest := by
    rw [Element.wire, List.cons_append, List.cons_append, decodeIe_octets rest e.fits, htag,
      hvalue]
    rfl
  have hinterpret : e.interpret msg = .ok msg := by
    rw [Element.interpret, htag, hvalue]
    rfl
  rw [hturn, hinterpret]
  cases rest with
  | nil =>
    intro heq
    cases heq
  | cons b rest =>
    intro heq
    have hrest : rest = b :: rest := congrArg Prod.snd (Except.ok.inj heq)
    simp at hrest

theorem drain_wire {elements : List Element} (h : ∀ e ∈ elements, ¬ e.EmptyCause) :
    ∀ msg, drain decodeIe msg (elements.flatMap Element.wire) =
      elements.foldlM Element.interpret msg := by
  induction elements with
  | nil => intro msg; rfl
  | cons e elements ih =>
    intro msg
    rw [List.forall_mem_cons] at h
    have hturn := decodeIe_wire h.1 msg (elements.flatMap Element.wire)
    rw [Element.wire, List.cons_append] at hturn
    rw [List.flatMap_cons, Element.wire, List.cons_append, drain_cons decodeIe_consuming, hturn,
      List.foldlM_cons]
    cases e.interpret msg with
    | error exn => rfl
    | ok msg' => exact ih h.2 msg'

theorem decode_wire {elements : List Element} (h : ∀ e ∈ elements, ¬ e.EmptyCause)
    (type : UInt8) : decode (type :: elements.flatMap Element.wire) =
      elements.foldlM Element.interpret { type := MessageType.ofByte type } := by
  rw [decode, if_neg (by simp), read8_cons, except_ok_bind]
  exact drain_wire h _

theorem interpret_unknown {e : Element} (h : e.Unknown) (msg : GsupMessage) :
    e.interpret msg = .ok msg := by
  unfold Element.Unknown at h
  rw [Element.interpret]
  generalize IeTag.ofByte e.tag = tag at h
  cases tag <;> first | rfl | exact absurd (by decide) h

/-- The payload is read element by element: the result is the interpretation of the elements,
further elements with unknown tags do not change it, and the turn that starts at an element makes
of it what its own tag and value say, and ends where the next one starts. -/
structure ReadsElements (type : UInt8) (elements : List Element) : Prop where
  result : decode (type :: elements.flatMap Element.wire) =
    elements.foldlM Element.interpret { type := MessageType.ofByte type }
  unknown : ∀ before after e, elements = before ++ after → e.Unknown →
    decode (type :: (before ++ e :: after).flatMap Element.wire) =
      decode (type :: elements.flatMap Element.wire)
  boundary : ∀ before e after msg, elements = before ++ e :: after →
    decodeIe msg (e.wire ++ after.flatMap Element.wire) =
      (e.interpret msg).map fun msg' => (msg', after.flatMap Element.wire)

/-- `gsup::decode` keeps to the boundaries of the elements if and only if none of them is a Cause
without a value. -/
theorem reads_elements_iff (type : UInt8) (elements : List Element) :
    ReadsElements type elements ↔ ∀ e ∈ elements, ¬ e.EmptyCause := by
  constructor
  · intro h e he hempty
    obtain ⟨before, after, heq⟩ := List.append_of_mem he
    exact decodeIe_emptyCause hempty {} _ (h.boundary before e after {} heq)
  · intro h
    refine ⟨decode_wire h type, ?_, ?_⟩
    · intro before after e heq hunknown
      have hwith : ∀ e' ∈ before ++ e :: after, ¬ e'.EmptyCause := by
        intro e' he'
        rcases List.mem_append.mp he' with he' | he'
        · exact h e' (by rw [heq]; exact List.mem_append_left _ he')
        · rcases List.mem_cons.mp he' with rfl | he'
          · intro hempty
            exact hunknown (by rw [hempty.1]; decide)
          · exact h e' (by rw [heq]; exact List.mem_append_right _ he')
      rw [decode_wire hwith, decode_wire h, heq, List.foldlM_append, List.foldlM_append]
      congr 1
      funext msg
      rw [List.foldlM_cons, interpret_unknown hunknown]
      rfl
    · intro before e after msg heq
      exact decodeIe_wire (h e (by rw [heq]; simp)) msg _

/-- A LocationCancel request whose Cause has no value. The type of the cancellation that follows
is read as the cause, and there is no type any more. -/
theorem cancelType_taken_for_cause :
    decode [0x1c, 0x02, 0x00, 0x06, 0x01, 0x00] =
        .ok { type := .locationCancelRequest, cause := some 0x06 } ∧
      [⟨0x02, [], by decide⟩, ⟨0x06, [0x00], by decide⟩].foldlM Element.interpret
        { type := .locationCancelRequest } =
          .ok { type := .locationCancelRequest, cancelType := some 0x00 } ∧
      ¬ ReadsElements 0x1c [⟨0x02, [], by decide⟩, ⟨0x06, [0x00], by decide⟩] := by
  refine ⟨rfl, rfl, ?_⟩
  intro h
  have hcause : (some 0x06 : Option UInt8) = none :=
    congrArg GsupMessage.cause (Except.ok.inj h.result)
  cases hcause

end GsupMapProxy.Gsup
