import GsupMapProxy.Transport.Proofs.MapLink

/-!
# The write queue and the write in flight

`doWrite` starts a write of the front of the queue and leaves it there; the handler of the write
takes it out. That is right as long as the queue is not cleared in between. `resetConnection`
clears it in every handler that has failed, while a write may have succeeded with its handler
still queued; after a failed `connect` the socket is not even closed, so a write may go on. Where
neither happens, the front of the queue is the frame in flight.
-/

namespace GsupMapProxy.Transport

open Misc M3ua

open scoped List

theorem writesOf_append (calls calls' : List MapCall) :
    writesOf (calls ++ calls') = writesOf calls ++ writesOf calls' := List.filterMap_append

/-- The writes that have not failed: at most one, of the front of the queue. While there is none
and none has failed, the queue is empty. -/
structure InFlight (t : MapTransport) (frames : List Bytes) : Prop where
  single : frames.length ≤ 1
  front : ∀ frame ∈ frames, t.writing = true ∧ t.writeQueue.head? = some frame
  idle : t.writing = false → t.writeQueue = []

namespace InFlight

variable {t t' : MapTransport} {frames frames' : List Bytes} {calls : List MapCall}

theorem mono (h : InFlight t frames) (hless : frames' <+~ frames) : InFlight t frames' :=
  ⟨Nat.le_trans hless.length_le h.single, fun frame hf => h.front frame (hless.subset hf), h.idle⟩

theorem congr (h : InFlight t frames) (hqueue : t'.writeQueue = t.writeQueue)
    (hwriting : t'.writing = t.writing) : InFlight t' frames := by
  refine ⟨h.single, ?_, ?_⟩
  · rw [hqueue, hwriting]
    exact h.front
  · rw [hqueue, hwriting]
    exact h.idle

theorem cleared (t : MapTransport) : InFlight (MapLink.reset t) [] :=
  ⟨Nat.zero_le _, fun _ hf => absurd hf List.not_mem_nil, fun _ => rfl⟩

theorem single_write {frame : Bytes} (hwriting : t.writing = true)
    (hqueue : t.writeQueue.head? = some frame) : InFlight t [frame] := by
  refine ⟨Nat.le_refl 1, ?_, ?_⟩
  · intro f hf
    obtain rfl := List.mem_singleton.mp hf
    exact ⟨hwriting, hqueue⟩
  · intro hidle
    rw [hwriting] at hidle
    cases hidle

/-- A frame put at the end of the queue is written at once only if nothing is in flight. -/
theorem enqueue (h : InFlight t frames) (frame : Bytes) :
    InFlight (t.enqueue frame).1 (frames ++ writesOf (t.enqueue frame).2) := by
  cases hwriting : t.writing with
  | true =>
    have heq : t.enqueue frame = ({ t with writeQueue := t.writeQueue ++ [frame] }, []) := by
      rw [MapTransport.enqueue]
      dsimp only
      rw [if_pos hwriting]
    rw [heq]
    refine ⟨by simpa [writesOf] using h.single, ?_, ?_⟩
    · intro f hf
      rw [writesOf, List.filterMap_nil, List.append_nil] at hf
      refine ⟨hwriting, ?_⟩
      rw [List.head?_append, (h.front f hf).2]
      rfl
    · intro hidle
      rw [hwriting] at hidle
      cases hidle
  | false =>
    have hqueue := h.idle hwriting
    have hframes : frames = [] := by
      rw [List.eq_nil_iff_forall_not_mem]
      intro f hf
      rw [(h.front f hf).1] at hwriting
      cases hwriting
    have heq : t.enqueue frame =
        ({ t with writeQueue := [frame], writing := true }, [.asyncWrite frame]) := by
      rw [MapTransport.enqueue]
      dsimp only
      rw [if_neg (by rw [hwriting]; decide), hqueue]
      rfl
    rw [heq, hframes]
    exact single_write rfl rfl

theorem processMessage (h : InFlight t frames) {msg : M3uaMessage}
    (hmsg : t.processMessage msg = .ok (t', calls)) : InFlight t' (frames ++ writesOf calls) := by
  rcases MapTransport.processMessage_effect hmsg with ⟨-, heq⟩ | ⟨-, rfl, rfl⟩ | ⟨-, -, heq⟩ |
    ⟨-, -, rfl, rfl | ⟨payload, rfl⟩⟩
  · rw [show t' = _ from congrArg Prod.fst heq, show calls = _ from congrArg Prod.snd heq]
    exact h.enqueue _
  · have hsame : frames ++ writesOf [.armBeat t.cfg.beatInterval] = frames := List.append_nil _
    rw [hsame]
    exact h.congr rfl rfl
  · rw [show t' = _ from congrArg Prod.fst heq, show calls = _ from congrArg Prod.snd heq]
    exact h.enqueue _
  · have hsame : frames ++ writesOf [] = frames := List.append_nil _
    rwa [hsame]
  · have hsame : frames ++ writesOf [.messageCb payload] = frames := List.append_nil _
    rwa [hsame]

theorem onRead (h : InFlight t frames) {chunk : Bytes}
    (hread : t.onRead (some chunk) = .ok (t', calls)) :
    InFlight t' (frames ++ writesOf calls) := by
  obtain ⟨msgs, rest, t₁, calls₁, -, hfold, rfl, rfl⟩ := MapTransport.onRead_some_eq_ok.mp hread
  have hloop : InFlight t₁ (frames ++ writesOf calls₁) := by
    refine foldlM_invariant (P := fun acc => InFlight acc.1 (frames ++ writesOf acc.2)) ?_ ?_ hfold
    · intro acc msg acc' hacc hturn
      obtain ⟨t₂, calls₂, hmsg, rfl⟩ := MapTransport.readTurn_eq_ok.mp hturn
      dsimp only
      rw [writesOf_append, ← List.append_assoc]
      exact hacc.processMessage hmsg
    · dsimp only
      rw [writesOf, List.filterMap_nil, List.append_nil]
      exact h
  split
  · rw [writesOf_append, show writesOf [.asyncRead] = [] from rfl, List.append_nil]
    exact hloop.congr rfl rfl
  · exact hloop.congr rfl rfl

/-- The frame written is taken out, and the next one is up. -/
theorem onWritten (hwritten : t.onWritten true = .ok (t', calls)) :
    InFlight t' (writesOf calls) := by
  rw [MapTransport.onWritten, if_pos rfl] at hwritten
  split at hwritten
  · cases hwritten
  · rename_i front queue hqueue
    have heq := Except.ok.inj hwritten
    rw [show t' = _ from (congrArg Prod.fst heq).symm,
      show calls = _ from (congrArg Prod.snd heq).symm]
    cases queue with
    | nil => exact ⟨Nat.zero_le _, fun _ hf => absurd hf List.not_mem_nil, fun _ => rfl⟩
    | cons next queue => exact single_write rfl rfl

end InFlight

/-! ## Along a run -/

namespace MapLink

variable {s s' : MapLink}

/-- A handler that clears the queue finds no write that has succeeded, and none going on if it
leaves the socket open. -/
def ClearsSafely (s : MapLink) : LinkInput → Prop
  | .run (.connected _ false) _ => s.frames = []
  | .run (.connectFailed _) _ => s.frames = []
  | .run (.read _ none) _ => s.transport.state ≠ .stopped → s.sent = []
  | .run (.written _ _ false) _ => s.transport.state ≠ .stopped → s.sent = []
  | _ => True

instance (s : MapLink) (op : LinkInput) : Decidable (s.ClearsSafely op) :=
  match op with
  | .run (.connected _ false) _ | .run (.connectFailed _) _ =>
      inferInstanceAs (Decidable (s.frames = []))
  | .run (.read _ none) _ | .run (.written _ _ false) _ =>
      inferInstanceAs (Decidable (s.transport.state ≠ .stopped → s.sent = []))
  | .start | .stop | .send _ | .finish _ _ | .run (.connected _ true) _ | .run (.read _ (some _)) _
  | .run (.written _ _ true) _ | .run (.reconnectTimer _) _ | .run (.beatTimer _ _) _
  | .run (.send _) _ => .isTrue trivial

/-- Handlers that stay within the connection. -/
theorem Stays.inFlight {handler : HlrHandler} {t' : MapTransport} {calls : List MapCall}
    (hmatch : InFlight s.transport s.frames) (hready : .ready handler ∈ s.io)
    (h : Stays s.transport t' calls handler) :
    InFlight t' ((s.taking handler).frames ++ writesOf calls) := by
  have htaken : InFlight s.transport (s.taking handler).frames :=
    hmatch.mono (taking_view_subperm hready _)
  cases h with
  | idle hnot ht hcalls =>
    rw [ht, hcalls, writesOf, List.filterMap_nil, List.append_nil]
    exact htaken
  | connected epoch h =>
    cases h
    have haspUp : InFlight { s.transport with state := .aspUp }
        (s.taking (.connected epoch true)).frames := htaken.congr rfl rfl
    exact haspUp.enqueue _
  | read epoch chunk h => exact htaken.onRead h
  | written epoch frame h =>
    -- the write that succeeded is the only one
    have hperm : s.frames ~ [frame] ++ (s.taking (.written epoch frame true)).frames :=
      Proactor.perm_view_take hready
    have hnil : (s.taking (.written epoch frame true)).frames = [] := by
      have hlen := hperm.length_eq
      have hsingle := hmatch.single
      rw [List.length_append, List.length_singleton] at hlen
      exact List.eq_nil_of_length_eq_zero (by omega)
    rw [hnil, List.nil_append]
    exact .onWritten h
  | beat epoch ok hactive ht hcalls =>
    rw [ht, hcalls, writesOf_append, show writesOf [.armBeat _] = [] from rfl, List.append_nil]
    exact htaken.enqueue _
  | send payload hactive ht hcalls =>
    rw [ht, hcalls]
    exact htaken.enqueue _

theorem step_inFlight {op : LinkInput} {outs : List MapCall}
    (hmatch : InFlight s.transport s.frames) (hop : Possible s op)
    (h : step s op = .ok (s', outs)) (hsafe : ClearsSafely s op) :
    InFlight s'.transport s'.frames := by
  rcases step_cases hop h with ⟨hsame, -⟩ | ⟨-, -, hclosed⟩ |
    ⟨handler, attempt, t', rfl, hready, heffect⟩
  · rw [hsame.transport]
    exact hmatch.mono hsame.frames
  · rw [hclosed.transport, hclosed.frames]
    exact (hmatch.mono sent_sublist.subperm).congr rfl rfl
  · have htaken : (s.taking handler).frames <+~ s.frames := taking_view_subperm hready _
    cases heffect with
    | stays hbegins hstays hextends =>
      rw [hextends.transport]
      exact (hstays.inFlight hmatch hready).mono hextends.frames.subperm
    | connects attempt hhandler hrunning hcalls hconnects =>
      rw [hconnects.transport]
      exact (hmatch.mono (hconnects.frames.subperm.trans htaken)).congr rfl rfl
    | unconnected epoch hhandler hcalls hrearmed =>
      have hnone : s.frames = [] := by
        rcases hhandler with rfl | rfl
        · exact hsafe
        · exact hsafe
      have hframes : s'.frames = [] := by
        rw [hnone] at htaken
        exact List.subperm_nil.mp (hrearmed.frames.trans htaken)
      rw [hrearmed.transport, hframes]
      exact .cleared _
    | lost epoch hhandler hrunning hcalls hclosed =>
      have hnone : s.sent = [] := by
        rcases hhandler with rfl | ⟨frame, rfl⟩
        · exact hsafe hrunning
        · exact hsafe hrunning
      have hframes : s'.frames = [] := by
        have hsent : (s.taking handler).sent <+~ s.sent := taking_view_subperm hready _
        rw [hnone] at hsent
        rw [hclosed.frames]
        exact List.subperm_nil.mp hsent
      rw [hclosed.transport, hframes]
      exact .cleared _

/-- A write that has succeeded is one of the front of the queue, and at most one write is going on
or has succeeded. -/
structure WriteQueueMatches (s : MapLink) : Prop where
  front : ∀ epoch frame, .ready (.written epoch frame true) ∈ s.io →
    s.transport.writeQueue.head? = some frame
  single : s.frames.length ≤ 1

theorem InFlight.writeQueueMatches (h : InFlight s.transport s.frames) : WriteQueueMatches s := by
  refine ⟨?_, h.single⟩
  intro epoch frame hready
  exact (h.front frame (mem_view_ready hready rfl)).2

/-- In a run in which the queue is never cleared under a write, it matches the write in flight
throughout. -/
theorem write_queue_matches {cfg : MapTransportConfig} {events : List LinkEvent} {s : MapLink}
    (hrun : LinkRun cfg events s) (hsafe : ∀ e ∈ events, ClearsSafely e.pre e.op) :
    WriteQueueMatches s := by
  refine InFlight.writeQueueMatches (hrun.history (I := fun _ s => InFlight s.transport s.frames)
    hsafe ?_ ?_)
  · exact ⟨Nat.zero_le _, fun _ hf => absurd hf List.not_mem_nil, fun _ => rfl⟩
  · intro _ s op outs s' hmatch hop hstep hclears
    exact step_inFlight hmatch hop hstep hclears

/-- The ASPUP has been written and its handler is queued. -/
theorem aspUp_is_front :
    ∃ events s, LinkRun {} events s ∧ (∀ e ∈ events, ClearsSafely e.pre e.op) ∧
      .ready (.written 1 (M3ua.encode makeAspUp) true) ∈ s.io ∧
      s.transport.writeQueue.head? = some (M3ua.encode makeAspUp) := by
  obtain ⟨result, hplay, hsafe, hready⟩ : ∃ result, played {}
      (connecting ++ [.finish (.write 1 (M3ua.encode makeAspUp))
        (.written 1 (M3ua.encode makeAspUp) true)]) = some result ∧
      (∀ e ∈ result.1, ClearsSafely e.pre e.op) ∧
      .ready (.written 1 (M3ua.encode makeAspUp) true) ∈ result.2.io :=
    ⟨_, rfl, by decide, by decide⟩
  have hrun := run_of_played hplay
  exact ⟨_, _, hrun, hsafe, hready, (write_queue_matches hrun hsafe).front _ _ hready⟩

/-- The same, but the read fails and is handled first: the queue is empty when the handler of the
write gets to take its front out. -/
theorem aspUp_cleared :
    ¬ ∀ cfg events s, LinkRun cfg events s → WriteQueueMatches s := by
  intro h
  obtain ⟨result, hplay, hready, hqueue⟩ : ∃ result,
      played {} (connecting ++ [.finish (.write 1 (M3ua.encode makeAspUp))
            (.written 1 (M3ua.encode makeAspUp) true),
          .finish (.read 1) (.read 1 none), .run (.read 1 none) .started]) = some result ∧
      .ready (.written 1 (M3ua.encode makeAspUp) true) ∈ result.2.io ∧
      result.2.transport.writeQueue.head? = none :=
    ⟨_, rfl, by decide, rfl⟩
  have hfront := (h _ _ _ (run_of_played hplay)).front _ _ hready
  rw [hqueue] at hfront
  cases hfront

end MapLink

end GsupMapProxy.Transport
