import GsupMapProxy.Transport.Proofs.WriteQueue

/-!
# What MapTransport writes

A frame is written when it comes to the front of the queue. So frames are written in the order in
which they were put into the queue, and none of them twice, also where the queue is cleared under
a write and the completion of that write pops the front of the queue of the next connection.
-/

namespace GsupMapProxy.Transport

open Misc M3ua

open scoped List

/-! ## Messages -/

/-- The messages that the transport sends on its own account. -/
inductive IsSignalling (cfg : MapTransportConfig) : M3uaMessage → Prop
  | aspUp : IsSignalling cfg makeAspUp
  | aspAc : IsSignalling cfg (makeAspAc cfg.routingContext)
  | heartbeat : IsSignalling cfg makeHeartbeat
  | heartbeatAck (data : Bytes) : IsSignalling cfg (makeHeartbeatAck data)

def isData (msg : M3uaMessage) : Bool := msg.msgClass = kClassTransf

/-- Messages of the transport, and some of these payloads, in their order. -/
structure Conveys (cfg : MapTransportConfig) (payloads : List Bytes) (msgs : List M3uaMessage) :
    Prop where
  own : ∀ msg ∈ msgs, isData msg = false → IsSignalling cfg msg
  relayed : ∃ sent, sent <+ payloads ∧ msgs.filter isData = sent.map (MapTransport.wrap cfg)

namespace Conveys

variable {cfg : MapTransportConfig} {payloads payloads' : List Bytes}
  {msgs msgs' : List M3uaMessage}

theorem nothing (cfg : MapTransportConfig) (payloads : List Bytes) : Conveys cfg payloads [] :=
  ⟨by simp, [], List.nil_sublist _, rfl⟩

theorem signalling {msg : M3uaMessage} (h : IsSignalling cfg msg) : Conveys cfg [] [msg] := by
  refine ⟨?_, [], List.nil_sublist _, ?_⟩
  · intro msg' hmem _
    rw [List.mem_singleton.mp hmem]
    exact h
  · cases h <;> rfl

theorem payload (cfg : MapTransportConfig) (payload : Bytes) :
    Conveys cfg [payload] [MapTransport.wrap cfg payload] := by
  refine ⟨?_, [payload], List.Sublist.refl _, rfl⟩
  intro msg hmem hdata
  rw [List.mem_singleton.mp hmem] at hdata
  cases hdata

theorem append (h : Conveys cfg payloads msgs) (h' : Conveys cfg payloads' msgs') :
    Conveys cfg (payloads ++ payloads') (msgs ++ msgs') := by
  obtain ⟨sent, hsent, hmsgs⟩ := h.relayed
  obtain ⟨sent', hsent', hmsgs'⟩ := h'.relayed
  refine ⟨?_, sent ++ sent', hsent.append hsent', ?_⟩
  · intro msg hmem hdata
    rcases List.mem_append.mp hmem with hmem | hmem
    · exact h.own msg hmem hdata
    · exact h'.own msg hmem hdata
  · rw [List.filter_append, hmsgs, hmsgs', List.map_append]

/-- What comes later may be missing. -/
theorem of_initial (h : Conveys cfg payloads msgs) (hinitial : msgs' <+: msgs) :
    Conveys cfg payloads msgs' := by
  obtain ⟨sent, hsent, hmsgs⟩ := h.relayed
  have hfilter := hinitial.filter isData
  rw [hmsgs] at hfilter
  obtain ⟨sent', hsent', hmsgs'⟩ := List.prefix_map_iff.mp hfilter
  refine ⟨?_, sent', hsent'.sublist.trans hsent, hmsgs'⟩
  intro msg hmem hdata
  exact h.own msg (hinitial.subset hmem) hdata

end Conveys

/-! ## Methods -/

namespace MapTransport

variable {t t' : MapTransport} {calls : List MapCall} {payloads : List Bytes}

/-- There is a write as long as there is something to write. -/
def Engaged (t : MapTransport) : Prop := t.writing = true ↔ t.writeQueue ≠ []

/-- What is written or put into the queue conveys these payloads. The front of the queue has been
written before. -/
structure Puts (t t' : MapTransport) (calls : List MapCall) (payloads : List Bytes) : Prop where
  cfg : t'.cfg = t.cfg
  engaged : t'.Engaged
  queue : ∃ msgs, Conveys t.cfg payloads msgs ∧
    writesOf calls ++ t'.writeQueue.tail = t.writeQueue.tail ++ msgs.map M3ua.encode

/-- The same where the queue may be cleared. -/
def Writes (t t' : MapTransport) (writes payloads : List Bytes) : Prop :=
  t'.cfg = t.cfg ∧ t'.Engaged ∧ ∃ msgs, Conveys t.cfg payloads msgs ∧
    writes ++ t'.writeQueue.tail <+: t.writeQueue.tail ++ msgs.map M3ua.encode

theorem Puts.writes (h : Puts t t' calls payloads) : Writes t t' (writesOf calls) payloads := by
  obtain ⟨hcfg, hengaged, msgs, hmsgs, heq⟩ := h
  refine ⟨hcfg, hengaged, msgs, hmsgs, ?_⟩
  rw [heq]

theorem Writes.none (hengaged : t.Engaged) (h : t' = t) : Writes t t' [] payloads := by
  subst h
  refine ⟨rfl, hengaged, [], .nothing _ _, ?_⟩
  rw [List.map_nil, List.append_nil]
  exact List.prefix_refl _

/-- The queue is left alone. -/
theorem Puts.untouched (hengaged : t.Engaged) (hcfg : t'.cfg = t.cfg)
    (hqueue : t'.writeQueue = t.writeQueue) (hwriting : t'.writing = t.writing)
    (hcalls : writesOf calls = []) : Puts t t' calls payloads := by
  refine ⟨hcfg, ?_, [], .nothing _ _, ?_⟩
  · rw [Engaged, hqueue, hwriting]
    exact hengaged
  · rw [hcalls, hqueue]
    exact (List.append_nil _).symm

theorem Puts.trans {t₁ : MapTransport} {calls' : List MapCall} {payloads' : List Bytes}
    (h : Puts t t₁ calls payloads) (h' : Puts t₁ t' calls' payloads') :
    Puts t t' (calls ++ calls') (payloads ++ payloads') := by
  obtain ⟨msgs, hmsgs, hwrites⟩ := h.queue
  obtain ⟨msgs', hmsgs', hwrites'⟩ := h'.queue
  rw [h.cfg] at hmsgs'
  refine ⟨h'.cfg.trans h.cfg, h'.engaged, msgs ++ msgs', hmsgs.append hmsgs', ?_⟩
  rw [writesOf_append, List.append_assoc, hwrites', ← List.append_assoc, hwrites, List.map_append,
    List.append_assoc]

theorem enqueue_puts (hengaged : t.Engaged) {msg : M3uaMessage} (h : Conveys t.cfg payloads [msg]) :
    Puts t (t.enqueue (M3ua.encode msg)).1 (t.enqueue (M3ua.encode msg)).2 payloads := by
  refine ⟨by rw [enqueue_fst], ?_, [msg], h, ?_⟩
  · rw [Engaged, enqueue_fst]
    simp
  · rw [enqueue_fst]
    cases hqueue : t.writeQueue with
    | nil =>
      have hidle : ¬ t.writing = true := fun hwriting => (hengaged.mp hwriting) hqueue
      simp [enqueue, doWrite, hidle, hqueue, writesOf, MapCall.write?]
    | cons front queue =>
      have hwriting : t.writing = true := hengaged.mpr (by rw [hqueue]; exact List.cons_ne_nil _ _)
      simp [enqueue, hwriting, writesOf]

theorem processMessage_puts (hengaged : t.Engaged) {msg : M3uaMessage}
    (h : t.processMessage msg = .ok (t', calls)) : Puts t t' calls [] := by
  rcases processMessage_effect h with
    ⟨-, heq⟩ | ⟨-, rfl, rfl⟩ | ⟨-, -, heq⟩ | ⟨-, -, rfl, rfl | ⟨payload, rfl⟩⟩
  · rw [show t' = _ from congrArg Prod.fst heq, show calls = _ from congrArg Prod.snd heq]
    exact enqueue_puts hengaged (.signalling .aspAc)
  · exact .untouched hengaged rfl rfl rfl rfl
  · rw [show t' = _ from congrArg Prod.fst heq, show calls = _ from congrArg Prod.snd heq]
    exact enqueue_puts hengaged (.signalling (.heartbeatAck _))
  · exact .untouched hengaged rfl rfl rfl rfl
  · exact .untouched hengaged rfl rfl rfl rfl

theorem onRead_puts (hengaged : t.Engaged) {chunk : Bytes}
    (h : t.onRead (some chunk) = .ok (t', calls)) : Puts t t' calls [] := by
  obtain ⟨msgs, rest, t₁, calls₁, -, hfold, rfl, rfl⟩ := onRead_some_eq_ok.mp h
  have hloop : Puts t t₁ calls₁ [] := by
    refine foldlM_invariant (P := fun acc => Puts t acc.1 acc.2 []) ?_
      (.untouched hengaged rfl rfl rfl rfl) hfold
    intro acc msg acc' hacc hturn
    obtain ⟨t₂, calls₂, hmsg, rfl⟩ := readTurn_eq_ok.mp hturn
    exact hacc.trans (processMessage_puts hacc.engaged hmsg)
  -- the next read is not a write
  have hlast : ∀ {made : List MapCall}, writesOf made = [] →
      Puts t { t₁ with decoder := rest } (calls₁ ++ made) [] :=
    fun hmade => hloop.trans (.untouched hloop.engaged rfl rfl rfl hmade)
  split
  · exact hlast rfl
  · rw [← List.append_nil calls₁]
    exact hlast rfl

theorem onWritten_puts (h : t.onWritten true = .ok (t', calls)) : Puts t t' calls [] := by
  rw [onWritten, if_pos rfl] at h
  split at h
  · cases h
  · rename_i front queue hqueue
    have heq := Except.ok.inj h
    obtain rfl : _ = t' := congrArg Prod.fst heq
    obtain rfl : _ = calls := congrArg Prod.snd heq
    cases queue with
    | nil =>
      refine ⟨rfl, by simp [doWrite, Engaged], [], .nothing _ _, ?_⟩
      simp [doWrite, hqueue, writesOf]
    | cons next queue =>
      refine ⟨rfl, by simp [doWrite, Engaged], [], .nothing _ _, ?_⟩
      simp [doWrite, hqueue, writesOf, MapCall.write?]

end MapTransport

/-! ## Handlers -/

namespace MapLink

variable {t t' : MapTransport} {calls : List MapCall} {attempt : ConnectAttempt}
  {handler : HlrHandler}

/-- The payload a handler is given to send. -/
def payloadsFor : HlrHandler → List Bytes
  | .send payload => [payload]
  | _ => []

theorem Stays.puts (hengaged : t.Engaged) (h : Stays t t' calls handler) :
    t.Puts t' calls (payloadsFor handler) := by
  cases h with
  | idle hnot ht hcalls =>
    subst ht hcalls
    exact .untouched hengaged rfl rfl rfl rfl
  | connected epoch h =>
    cases h
    have hstate : t.Puts { t with state := .aspUp } [.asyncRead] [] :=
      .untouched hengaged rfl rfl rfl rfl
    exact hstate.trans (MapTransport.enqueue_puts hstate.engaged (.signalling .aspUp))
  | read epoch chunk h => exact MapTransport.onRead_puts hengaged h
  | written epoch frame h => exact MapTransport.onWritten_puts h
  | beat epoch ok hactive ht hcalls =>
    subst ht hcalls
    have hputs := MapTransport.enqueue_puts hengaged (.signalling .heartbeat)
    exact hputs.trans (.untouched hputs.engaged rfl rfl rfl rfl)
  | send payload hactive ht hcalls =>
    subst ht hcalls
    exact MapTransport.enqueue_puts hengaged (.payload _ _)

/-- A handler puts messages behind the others, or clears the queue. -/
theorem method_writes (hengaged : t.Engaged) (h : method t attempt handler = .ok (t', calls)) :
    t.Writes t' (writesOf calls) (payloadsFor handler) := by
  cases hbegins : beginsEpoch t handler with
  | false => exact ((method_stays hbegins h).puts hengaged).writes
  | true =>
    rcases method_begins hbegins h with ⟨-, -, hconnect⟩ | ⟨rfl, hcalls⟩
    · apply MapTransport.Puts.writes
      rw [show t' = _ from congrArg Prod.fst hconnect,
        show calls = _ from congrArg Prod.snd hconnect]
      cases attempt <;> exact .untouched hengaged rfl rfl rfl rfl
    · have hnone : writesOf calls = [] := by
        rcases hcalls with ⟨-, rfl⟩ | ⟨-, -, rfl⟩ | ⟨-, -, rfl⟩ <;> rfl
      refine ⟨rfl, by simp [reset, MapTransport.resetConnection, MapTransport.Engaged], [],
        .nothing _ _, ?_⟩
      rw [hnone]
      exact List.nil_prefix

end MapLink

end GsupMapProxy.Transport
