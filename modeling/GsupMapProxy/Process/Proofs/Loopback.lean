import GsupMapProxy.Process.Proofs.Delivery
import GsupMapProxy.Transport.Proofs.HlrStream

/-!
# Two transports back to back

What one `MapTransport` sends is what another one hands to its proxy: UDT, M3UA message and TCP
stream on the way down, and the same on the way up. ASPUP, ASPAC and heartbeats run in the same
stream and do not get in the way.
-/

namespace GsupMapProxy

open Misc Transport

/-! ## Heartbeats fit -/

namespace M3ua

variable {msg msg' : M3uaMessage}

theorem setTlv_heartbeatData {tag : UInt16} {value : Bytes}
    (h : setTlv msg tag value = .ok msg') :
    msg'.heartbeatData = msg.heartbeatData ∨ msg'.heartbeatData = value := by
  unfold setTlv at h
  split at h
  · split at h
    · cases h
      exact .inl rfl
    · cases h
      exact .inl rfl
  · split at h
    · cases h
      exact .inr rfl
    · split at h
      · obtain ⟨pd, -, h⟩ := except_bind_eq_ok.mp h
        cases h
        exact .inl rfl
      · cases h
        exact .inl rfl

theorem readBE16_length {r rest : BufferReader} {v : UInt16} (h : readBE16 r = .ok (v, rest)) :
    r.length = rest.length + 2 := by
  unfold readBE16 at h
  split at h
  · cases h
    rfl
  · cases h

theorem tlvTurn_heartbeatData {r rest : BufferReader} (h : tlvTurn msg r = .ok (msg', rest)) :
    msg'.heartbeatData = msg.heartbeatData ∨ msg'.heartbeatData.length + 4 ≤ r.length := by
  unfold tlvTurn at h
  split at h
  · cases h
    exact .inl rfl
  · obtain ⟨⟨tag, r₁⟩, htag, h⟩ := except_bind_eq_ok.mp h
    obtain ⟨⟨len, r₂⟩, hlen, h⟩ := except_bind_eq_ok.mp h
    dsimp only at h
    split at h
    · cases h
    · split at h
      · cases h
      · obtain ⟨⟨value, r₃⟩, hvalue, h⟩ := except_bind_eq_ok.mp h
        obtain ⟨msg₁, hset, h⟩ := except_bind_eq_ok.mp h
        cases h
        rcases setTlv_heartbeatData hset with hsame | hnew
        · exact .inl hsame
        · right
          have hr := readBE16_length htag
          have hr₁ := readBE16_length hlen
          have hr₂ := congrArg List.length (readBytes_eq_ok hvalue).1
          rw [List.length_append] at hr₂
          rw [hnew]
          dsimp only at hr hr₁ hr₂ ⊢
          omega

/-- A heartbeat's data is no longer than the TLVs it came in, less a TLV header. -/
theorem drain_heartbeatData {limit : Nat} : ∀ (n : Nat) (r : BufferReader) (msg msg' : M3uaMessage),
    r.length ≤ n → n ≤ limit + 4 → msg.heartbeatData.length ≤ limit →
      drain tlvTurn msg r = .ok msg' → msg'.heartbeatData.length ≤ limit := by
  intro n
  induction n with
  | zero =>
    intro r msg msg' hlen hn hmsg h
    obtain rfl : r = [] := List.length_eq_zero_iff.mp (by omega)
    cases h
    exact hmsg
  | succ n ih =>
    intro r msg msg' hlen hn hmsg h
    cases r with
    | nil =>
      cases h
      exact hmsg
    | cons b r =>
      rw [drain_cons tlvTurn_consuming, except_bind_eq_ok] at h
      obtain ⟨⟨msg₁, rest⟩, hturn, h⟩ := h
      have hrest := tlvTurn_consuming msg b r msg₁ rest hturn
      rw [List.length_cons] at hlen
      refine ih rest msg₁ msg' (by omega) (by omega) ?_ h
      rcases tlvTurn_heartbeatData hturn with hsame | hshort
      · rw [hsame]
        exact hmsg
      · rw [List.length_cons] at hshort
        omega

theorem heartbeatTlv_length (data : Bytes) :
    (heartbeatTlv data).length ≤ 4 + data.length + padding data.length := by
  unfold heartbeatTlv
  split
  · exact Nat.zero_le _
  · exact Nat.le_of_eq (writeTlv_length _ _)

/-- The answer to a heartbeat that could be read can be read. -/
theorem heartbeatAck_fits {buf rest : Bytes} {msg : M3uaMessage}
    (h : M3uaDecoder.next buf = (.ok (some msg), rest)) :
    (makeHeartbeatAck msg.heartbeatData).Fits := by
  rcases next_cases h with ⟨hnone, -⟩ | ⟨_, raw, heq, hformed, hmax, hdecode, -⟩
  · cases hnone
  · cases heq
    obtain ⟨reserved, msgClass, msgType, b4, b5, b6, b7, body, rfl, hlen, hbody⟩ := hformed
    rw [decode_whole hlen, if_neg (by simp)] at hdecode
    obtain ⟨_, hdrain, hmsg⟩ := except_bind_eq_ok.mp hdecode
    cases hmsg
    simp only [List.length_cons, kMaxM3uaMessageSize] at hmax
    have hdata : msg.heartbeatData.length ≤ 65524 :=
      drain_heartbeatData body.length body _ msg (Nat.le_refl _) (by omega) (Nat.zero_le _) hdrain
    rw [M3uaMessage.Fits, encode_length, encodeBody_eq, List.length_append, List.length_append]
    simp only [makeHeartbeatAck, routingContextTlv, protocolDataTlv, Option.map_none,
      Option.getD_none, List.length_nil, kCommonHeaderSize, kMaxM3uaMessageSize]
    have hbeat := heartbeatTlv_length msg.heartbeatData
    rw [padding] at hbeat
    omega

end M3ua

namespace Transport

namespace MapLink

open M3ua Sccp

variable {a b : MapLink} {cfg cfg' : MapTransportConfig} {eventsA eventsB : List LinkEvent}

/-! ## What goes out -/

/-- The payload of a posted `send` that runs while the transport is active. -/
def payloadsSent (e : LinkEvent) : List Bytes :=
  match e.op with
  | .run (.send payload) _ => if e.pre.transport.state = .active then [payload] else []
  | _ => []

theorem wrap_handedOn (hhlr : cfg.hlrGt.length ≤ 30) (hlocal : cfg.localGt.length ≤ 30)
    {payload : Bytes} (hlen : payload.length ≤ 255) :
    handedOn? (MapTransport.wrap cfg payload) = some payload := by
  obtain ⟨msg, pd, udt, rest, hnext, hpd, hudt, hdata⟩ := wrap_delivers hhlr hlocal hlen
  have hencode := next_encode (wrap_fits hhlr hlocal hlen) []
  rw [List.append_nil, hnext] at hencode
  cases hencode
  have hsi : pd.si = kSiSccp := by
    cases hpd
    rfl
  have hclass : (MapTransport.wrap cfg payload).msgClass = kClassTransf ∧
      (MapTransport.wrap cfg payload).msgType = kTypeData := ⟨rfl, rfl⟩
  rw [handedOn?, if_pos hclass, hpd]
  show (if pd.si = kSiSccp then _ else _) = _
  rw [if_pos hsi, hudt]
  exact congrArg some hdata

theorem answer_handedOn {msg reply : M3uaMessage} (h : answer? cfg msg = some reply) :
    handedOn? reply = none := by
  unfold answer? at h
  split at h
  · cases h
    rfl
  · split at h
    · cases h
      rfl
    · cases h

/-- Only a `send` puts a payload into the queue. -/
theorem queued_handedOn {e : LinkEvent} (hhlr : e.pre.transport.cfg.hlrGt.length ≤ 30)
    (hlocal : e.pre.transport.cfg.localGt.length ≤ 30)
    (hlen : ∀ p ∈ payloadsSent e, p.length ≤ 255) :
    (queued e).filterMap handedOn? = payloadsSent e := by
  unfold queued
  split
  · rename_i hop
    rw [payloadsSent, hop]
    rfl
  · rename_i hop
    rw [payloadsSent, hop, List.filterMap_eq_nil_iff]
    intro reply hreply
    obtain ⟨msg, -, hanswer⟩ := List.mem_filterMap.mp hreply
    exact answer_handedOn hanswer
  · rename_i hop
    rw [payloadsSent, hop]
    split <;> rfl
  · rename_i payload attempt hop
    rw [payloadsSent, hop] at hlen
    rw [payloadsSent, hop]
    dsimp only at hlen ⊢
    split
    · rename_i hactive
      rw [if_pos hactive] at hlen
      rw [List.filterMap_cons, wrap_handedOn hhlr hlocal (hlen payload (by simp))]
      rfl
    · rfl
  · rename_i hconnected hread hbeat hsend
    have hnone : payloadsSent e = [] := by
      unfold payloadsSent
      split
      · rename_i payload attempt hop
        exact absurd hop (hsend payload attempt)
      · rfl
    rw [hnone]
    rfl

theorem makeAspAc_fits (rc : Option UInt32) : (makeAspAc rc).Fits := by
  have hcontext : (routingContextTlv rc).length ≤ 8 := by
    cases rc with
    | none => decide
    | some rc => simp [routingContextTlv, writeTlvU32, writeTlv_length, writeBE32, padding]
  rw [M3uaMessage.Fits, encode_length, encodeBody_eq, List.length_append, List.length_append]
  simp only [makeAspAc, heartbeatTlv, if_true, protocolDataTlv, Option.map_none, Option.getD_none,
    List.length_nil, kCommonHeaderSize, kMaxM3uaMessageSize]
  omega

/-- Whatever is put into the queue, the other side can read. -/
theorem queued_fits {e : LinkEvent} (hstep : step e.pre e.op = .ok (e.post, e.outs))
    (hhlr : e.pre.transport.cfg.hlrGt.length ≤ 30)
    (hlocal : e.pre.transport.cfg.localGt.length ≤ 30)
    (hlen : ∀ p ∈ payloadsSent e, p.length ≤ 255) (hresetting : resetting e = false) :
    ∀ msg ∈ queued e, msg.Fits := by
  have hread : ∀ msg ∈ messagesRead e, (makeHeartbeatAck msg.heartbeatData).Fits := by
    rcases step_streams hstep with ⟨-, hstreams⟩ | hresets
    · rcases hstreams.reads with ⟨-, hnone, -⟩ | hyields
      · rw [show messagesRead e = [] from hnone]
        simp
      · exact hyields.forall fun _ _ _ h => heartbeatAck_fits h
    · have htrue : resetting e = true := hresets.resetting
      rw [hresetting] at htrue
      cases htrue
  unfold queued
  split
  · intro msg hmsg
    rw [List.mem_singleton.mp hmsg]
    show (M3ua.encode makeAspUp).length ≤ kMaxM3uaMessageSize
    decide
  · intro reply hreply
    obtain ⟨msg, hmsg, hanswer⟩ := List.mem_filterMap.mp hreply
    unfold answer? at hanswer
    split at hanswer
    · cases hanswer
      exact makeAspAc_fits _
    · split at hanswer
      · cases hanswer
        exact hread msg hmsg
      · cases hanswer
  · intro msg hmsg
    split at hmsg
    · rw [List.mem_singleton.mp hmsg]
      show (M3ua.encode makeHeartbeat).length ≤ kMaxM3uaMessageSize
      decide
    · cases hmsg
  · rename_i payload attempt hop
    intro msg hmsg
    rw [payloadsSent, hop] at hlen
    dsimp only at hlen
    split at hmsg
    · rename_i hactive
      rw [if_pos hactive] at hlen
      rw [List.mem_singleton.mp hmsg]
      exact wrap_fits hhlr hlocal (hlen payload (by simp))
    · cases hmsg
  · simp

theorem run_queued (hhlr : cfg.hlrGt.length ≤ 30) (hlocal : cfg.localGt.length ≤ 30)
    (hrun : LinkRun cfg eventsA a) (hlen : ∀ p ∈ since payloadsSent eventsA, p.length ≤ 255) :
    (∀ msg ∈ since queued eventsA, msg.Fits) ∧
      (since queued eventsA).filterMap handedOn? = since payloadsSent eventsA := by
  induction hrun with
  | nil => exact ⟨by simp [since], rfl⟩
  | @snoc events s s' outs earlier op hop hstep ih =>
    rw [since_snoc, since_snoc]
    rw [since_snoc] at hlen
    have hcfg := run_cfg earlier
    cases hresetting : resetting ⟨s, op, outs, s'⟩ with
    | true =>
      simp only [if_true]
      exact ⟨by simp, rfl⟩
    | false =>
      simp only [hresetting, Bool.false_eq_true, if_false] at hlen ⊢
      obtain ⟨hfits, hpayloads⟩ := ih fun p hp => hlen p (List.mem_append_left _ hp)
      have hnew : ∀ p ∈ payloadsSent ⟨s, op, outs, s'⟩, p.length ≤ 255 :=
        fun p hp => hlen p (List.mem_append_right _ hp)
      have hhlr' : s.transport.cfg.hlrGt.length ≤ 30 := by rw [hcfg]; exact hhlr
      have hlocal' : s.transport.cfg.localGt.length ≤ 30 := by rw [hcfg]; exact hlocal
      refine ⟨?_, ?_⟩
      · intro msg hmsg
        rcases List.mem_append.mp hmsg with hmsg | hmsg
        · exact hfits msg hmsg
        · exact queued_fits (e := ⟨s, op, outs, s'⟩) hstep hhlr' hlocal' hnew hresetting msg hmsg
      · rw [List.filterMap_append, hpayloads,
          queued_handedOn (e := ⟨s, op, outs, s'⟩) hhlr' hlocal' hnew]

/-! ## And comes in -/

/-- If all that one transport has read since its last reset is what another one, whose queue was
never cleared under a write, has written since its own, or the beginning of it, then it has handed
on the payloads sent there, in order, or the first of them; and all of them once it has read
everything. A queue that is cleared too early makes a late completion drop a later frame unsent. -/
theorem payloads_relayed (hhlr : cfg.hlrGt.length ≤ 30) (hlocal : cfg.localGt.length ≤ 30)
    (hrunA : LinkRun cfg eventsA a) (hsafe : ∀ e ∈ eventsA, ClearsSafely e.pre e.op)
    (hlen : ∀ p ∈ since payloadsSent eventsA, p.length ≤ 255) (hrunB : LinkRun cfg' eventsB b)
    (hwire : since bytesRead eventsB <+: (since wrote eventsA ++ a.transport.writeQueue).flatten) :
    since handed eventsB <+: since payloadsSent eventsA ∧
      (since bytesRead eventsB = (since wrote eventsA ++ a.transport.writeQueue).flatten →
        since handed eventsB = since payloadsSent eventsA) := by
  obtain ⟨hfits, hpayloads⟩ := run_queued hhlr hlocal hrunA hlen
  have hstream : (since wrote eventsA ++ a.transport.writeQueue).flatten =
      (since queued eventsA).flatMap M3ua.encode := by
    rw [run_writes hrunA hsafe, List.flatMap_def]
  rw [hstream] at hwire ⊢
  have hread := run_readSoFar hfits hrunB hwire
  rw [run_handed hrunB, ← hpayloads]
  refine ⟨hread.messages.filterMap handedOn?, ?_⟩
  intro hall
  rw [(hread.complete hfits hall).1]

/-- A configuration with short titles, and what a transport that has it writes when it gets active
and is given a payload. -/
def shortTitles : MapTransportConfig :=
  { hlrGt := [0x31, 0x32, 0x33], localGt := [0x34, 0x35, 0x36] }

def threeMessages : Bytes :=
  [makeAspUp, makeAspAc none, MapTransport.wrap shortTitles [0x62, 0x02, 0x48, 0x00]].flatMap
    M3ua.encode

/-- The payload arrives behind the ASPUP and the ASPAC. -/
theorem payload_behind_handshake_relayed :
    ∃ eventsA a eventsB b, LinkRun shortTitles eventsA a ∧ LinkRun {} eventsB b ∧
      since payloadsSent eventsA = [[0x62, 0x02, 0x48, 0x00]] ∧
      since handed eventsB = [[0x62, 0x02, 0x48, 0x00]] := by
  let acks : Bytes := [0x01, 0x00, 0x03, 0x02, 0x00, 0x00, 0x00, 0x08,
    0x01, 0x00, 0x04, 0x02, 0x00, 0x00, 0x00, 0x08]
  obtain ⟨resultA, hplayA, hsafe, hsent, hwrites⟩ : ∃ result,
      played shortTitles (connecting ++
        [.finish (.read 1) (.read 1 (some acks)), .run (.read 1 (some acks)) .started,
          .send [0x62, 0x02, 0x48, 0x00], .run (.send [0x62, 0x02, 0x48, 0x00]) .started]) =
        some result ∧
      (∀ e ∈ result.1, ClearsSafely e.pre e.op) ∧
      since payloadsSent result.1 = [[0x62, 0x02, 0x48, 0x00]] ∧
      (since wrote result.1 ++ result.2.transport.writeQueue).flatten = threeMessages :=
    ⟨_, rfl, by decide, by decide, by decide⟩
  obtain ⟨resultB, hplayB, hread⟩ : ∃ result,
      played {} (connecting ++
        [.finish (.read 1) (.read 1 (some threeMessages)),
          .run (.read 1 (some threeMessages)) .started]) = some result ∧
      since bytesRead result.1 = threeMessages :=
    ⟨_, rfl, by decide⟩
  have hrunA := run_of_played hplayA
  have hrunB := run_of_played hplayB
  have hlen : ∀ p ∈ since payloadsSent resultA.1, p.length ≤ 255 := by
    rw [hsent]
    decide
  have hrelayed := payloads_relayed (by decide) (by decide) hrunA hsafe hlen hrunB
    (by rw [hread, hwrites])
  refine ⟨_, _, _, _, hrunA, hrunB, hsent, ?_⟩
  rw [← hsent]
  exact hrelayed.2 (by rw [hread, hwrites])

end MapLink

end Transport

end GsupMapProxy
