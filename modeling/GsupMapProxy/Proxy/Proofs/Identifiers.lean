import GsupMapProxy.Map.Proofs.Fields
import GsupMapProxy.Proxy.Proofs.HlrAnswers

/-!
# Identifiers echoed to the HLR

The ids of an Invoke pass through `MapMessage` and `HlrTxEntry`, a 32-bit and an 8-bit word, on
their way into the End PDU. What comes out are the ids of the Invoke as long as it has the form
the encoder writes: a transaction id of four octets and an invoke id that is not negative.
-/

namespace GsupMapProxy

open Gsup Map Misc

/-- What the encoder makes of the low octet of an INTEGER. -/
theorem emod_256_eq_self_iff {v : Int} : v % 256 = v ↔ 0 ≤ v ∧ v ≤ 255 := by
  constructor
  · intro h
    omega
  · rintro ⟨hlo, hhi⟩
    omega

/-- The ids in the answer to an Invoke are what its decoder kept of them. -/
theorem ids_of_answer {timeout : Int} {events : List ProxyEvent} {s : Proxy}
    (hrun : ProxyRun timeout events s) {b i : Nat} {eb e : ProxyEvent} {m : MapMessage}
    {now : TimePoint} {data : Bytes} (heb : events[b]? = some eb)
    (hforwards : ForwardsInvoke eb m now) (hanswers : AnswersInvoke events b i)
    (he : events[i]? = some e) (houts : e.outs = [.hlr data]) :
    ∃ fields, pduFields data = .ok fields ∧
      lastOf [kTcapTagDtid] fields = some (writeBE32 m.transactionId) ∧
      invokeIdOf fields = some (m.invokeId.toNat : Int) := by
  obtain ⟨e', payload, client, now', g, entry, data', horigin, he', hop, hdec, houts', hend⟩ :=
    hanswers
  rw [he] at he'
  cases he'
  rw [houts] at houts'
  cases houts'
  have hsend : e.outs[0]? = some (.hlr data) := by rw [houts]; rfl
  obtain ⟨payload', client', now'', g', entry', r, hop', hdec', -, hentry', -, hr, hdata, -⟩ :=
    answered_of_end (hrun.hlrEffect he) hsend hend
  rw [hop] at hop'
  cases hop'
  rw [hdec] at hdec'
  cases hdec'
  -- the entry answered is the one this Invoke stored
  obtain ⟨b', horigin'⟩ := hrun.exists_origin he hentry'
  obtain rfl : b = b' := horigin.unique horigin'
  obtain ⟨eb', heb', hstores⟩ := horigin'.2.1
  rw [heb] at heb'
  cases heb'
  obtain ⟨-, rfl⟩ := hstores.unique ⟨m, now, hforwards, rfl, rfl⟩
  obtain ⟨htid, hid, -⟩ := gsupToMapResult_spec hr
  have hids := ids_of_encode (gsupToMapResult_not_invoke hr) hdata
  rw [htid, hid] at hids
  exact hids

/-- In every run, the End PDU that answers an Invoke has the octets of the Invoke's OTID in its
DTID and the Invoke's invoke id if and only if the OTID has four octets, no later transaction id
TLV of the Invoke has another value, and the invoke id fits an unsigned octet. -/
theorem identifiers_echoed_iff {timeout : Int} {events : List ProxyEvent} {s : Proxy}
    (hrun : ProxyRun timeout events s) {b i : Nat} {eb e : ProxyEvent} {m : MapMessage}
    {now : TimePoint} {q data otid : Bytes} {fields : List Tlv} {v : Int}
    (heb : events[b]? = some eb) (hop : eb.op = .map q now) (hforwards : ForwardsInvoke eb m now)
    (hanswers : AnswersInvoke events b i) (he : events[i]? = some e)
    (houts : e.outs = [.hlr data]) (hfields : pduFields q = .ok fields)
    (hotid : lastOf [kTcapTagOtid] fields = some otid) (hid : invokeIdOf fields = some v) :
    ∃ fields', pduFields data = .ok fields' ∧
      ((lastOf [kTcapTagDtid] fields' = some otid ∧ invokeIdOf fields' = some v) ↔
        otid.length = 4 ∧
          (∀ tid, lastOf [kTcapTagOtid, kTcapTagDtid] fields = some tid →
            tidOfOctets tid = tidOfOctets otid) ∧ 0 ≤ v ∧ v ≤ 255) := by
  obtain ⟨payload, hop', hdec⟩ := hforwards.request
  rw [hop] at hop'
  cases hop'
  obtain ⟨fields', hfields', hdtid, hid'⟩ := ids_of_answer hrun heb hforwards hanswers he houts
  obtain ⟨htid, hkept⟩ := ids_of_decode hdec hfields
  refine ⟨fields', hfields', ?_⟩
  have hsub : [kTcapTagOtid] ⊆ [kTcapTagOtid, kTcapTagDtid] := by simp
  obtain ⟨tid, hlast⟩ := exists_lastOf hsub hotid
  rw [hlast, Option.map_some, Option.getD_some] at htid
  rw [hdtid, hid', htid, hkept v hid, Option.some.injEq, Option.some.injEq,
    writeBE32_tidOfOctets_iff, emod_256_eq_self_iff, and_assoc]
  simp only [hlast, Option.some.injEq, forall_eq']

/-- The first event of the runs below: the HLR's Invoke `q` is forwarded. -/
abbrev invokeEvent (q forwarded : Bytes) : ProxyEvent :=
  ⟨Proxy.start 30, .map q 0, [.sgsn forwarded 0], purgeInvoked⟩

/-- A client's PurgeMsResult answers it. -/
theorem answersInvoke_purge {q forwarded data : Bytes} {m : MapMessage} {s : Proxy}
    (hforwards : ForwardsInvoke (invokeEvent q forwarded) m 0) (himsi : m.imsi = [0x31])
    (hend : IsEnd data) :
    AnswersInvoke [invokeEvent q forwarded,
      ⟨purgeInvoked, .gsup purgeResultPlain 7 0, [.hlr data], s⟩] 0 1 := by
  refine ⟨_, purgeResultPlain, 7, 0, _, Proxy.hlrEntry m 0, data, ?_, rfl, rfl, rfl, rfl, hend⟩
  refine ⟨Nat.zero_lt_one, ⟨_, rfl, m, 0, hforwards, himsi.symm, rfl⟩, ?_⟩
  intro l e hl hl'
  omega

theorem purge_identifiers_echoed :
    ∃ s data fields, purgeInvoked.step (.gsup purgeResultPlain 7 0) = .ok (s, [.hlr data]) ∧
      pduFields data = .ok fields ∧ lastOf [kTcapTagDtid] fields = some [0x00, 0x00, 0x00, 0x05] ∧
      invokeIdOf fields = some 3 := by
  obtain ⟨forwarded, m, hq, hdec, hinv, himsi⟩ : ∃ forwarded m,
      (Proxy.start 30).step (.map purgeInvoke 0) = .ok (purgeInvoked, [.sgsn forwarded 0]) ∧
      Map.decode purgeInvoke = .ok m ∧ m.component = .invoke ∧ m.imsi = [0x31] :=
    ⟨_, _, rfl, rfl, rfl, rfl⟩
  obtain ⟨fields, hfields, hotid, hlast, hid⟩ : ∃ fields, pduFields purgeInvoke = .ok fields ∧
      lastOf [kTcapTagOtid] fields = some [0x00, 0x00, 0x00, 0x05] ∧
      lastOf [kTcapTagOtid, kTcapTagDtid] fields = some [0x00, 0x00, 0x00, 0x05] ∧
      invokeIdOf fields = some 3 := ⟨_, rfl, rfl, rfl, rfl⟩
  obtain ⟨s, data, hanswer, hend⟩ : ∃ s data, purgeInvoked.step (.gsup purgeResultPlain 7 0) =
      .ok (s, [.hlr data]) ∧ IsEnd data := ⟨_, _, rfl, rfl⟩
  have hforwards : ForwardsInvoke (invokeEvent purgeInvoke forwarded) m 0 :=
    ⟨⟨purgeInvoke, rfl, hdec⟩, hinv, ⟨forwarded, rfl⟩⟩
  obtain ⟨fields', hfields', hiff⟩ :=
    identifiers_echoed_iff (proxyRun_answered hq hanswer) (b := 0) (i := 1) rfl rfl hforwards
      (answersInvoke_purge hforwards himsi hend) rfl rfl hfields hotid hid
  refine ⟨s, data, fields', hanswer, hfields', hiff.mpr ⟨rfl, ?_, by decide, by decide⟩⟩
  intro tid htid
  rw [hlast] at htid
  cases htid
  rfl

/-- An Invoke with a transaction id of one octet. -/
def purgeInvokeShort : Bytes :=
  [0x62, 0x12, 0x48, 0x01, 0x05, 0x6c, 0x0d, 0xa1, 0x0b, 0x02, 0x01, 0x03, 0x02, 0x01, 0x43, 0x30,
    0x03, 0x04, 0x01, 0xF1]

/-- Its answer carries four octets. -/
theorem short_otid_not_echoed :
    ¬ ∀ (timeout : Int) (events : List ProxyEvent) (s : Proxy) (b i : Nat) (eb e : ProxyEvent)
      (m : MapMessage) (now : TimePoint) (q data otid : Bytes) (fields : List Tlv) (v : Int),
      ProxyRun timeout events s → events[b]? = some eb → eb.op = .map q now →
      ForwardsInvoke eb m now → AnswersInvoke events b i → events[i]? = some e →
      e.outs = [.hlr data] → pduFields q = .ok fields →
      lastOf [kTcapTagOtid] fields = some otid → 1 ≤ otid.length → otid.length ≤ 4 →
      invokeIdOf fields = some v → -128 ≤ v → v ≤ 127 →
      ∃ fields', pduFields data = .ok fields' ∧ lastOf [kTcapTagDtid] fields' = some otid ∧
        invokeIdOf fields' = some v := by
  intro hclaim
  obtain ⟨forwarded, m, hq, hdec, hinv, himsi⟩ : ∃ forwarded m,
      (Proxy.start 30).step (.map purgeInvokeShort 0) = .ok (purgeInvoked, [.sgsn forwarded 0]) ∧
      Map.decode purgeInvokeShort = .ok m ∧ m.component = .invoke ∧ m.imsi = [0x31] :=
    ⟨_, _, rfl, rfl, rfl, rfl⟩
  obtain ⟨fields, hfields, hotid, hid⟩ : ∃ fields, pduFields purgeInvokeShort = .ok fields ∧
      lastOf [kTcapTagOtid] fields = some [0x05] ∧ invokeIdOf fields = some 3 :=
    ⟨_, rfl, rfl, rfl⟩
  obtain ⟨s, data, sent, hanswer, hend, hsent, hdtid⟩ : ∃ s data sent,
      purgeInvoked.step (.gsup purgeResultPlain 7 0) = .ok (s, [.hlr data]) ∧ IsEnd data ∧
      pduFields data = .ok sent ∧ lastOf [kTcapTagDtid] sent = some [0x00, 0x00, 0x00, 0x05] :=
    ⟨_, _, _, rfl, rfl, rfl, rfl⟩
  have hforwards : ForwardsInvoke (invokeEvent purgeInvokeShort forwarded) m 0 :=
    ⟨⟨purgeInvokeShort, rfl, hdec⟩, hinv, ⟨forwarded, rfl⟩⟩
  obtain ⟨fields', hfields', hecho, -⟩ := hclaim 30 _ s 0 1 _ _ m 0 purgeInvokeShort data [0x05]
    fields 3 (proxyRun_answered hq hanswer) rfl rfl hforwards
    (answersInvoke_purge hforwards himsi hend) rfl rfl hfields hotid (by decide) (by decide) hid
    (by decide) (by decide)
  rw [hsent] at hfields'
  cases hfields'
  rw [hdtid] at hecho
  cases hecho

end GsupMapProxy
