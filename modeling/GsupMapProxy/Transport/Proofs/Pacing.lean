import GsupMapProxy.Transport.Proofs.MapLink

/-!
# The delay before the next connection

`scheduleConnect` takes a transport that is `Disconnected` for one that has never been connected
and waits for no time at all. The handlers of a failed connect, read or write set the state to
`Disconnected` before they call it, so what they schedule is as immediate as the first attempt,
and `reconnectInterval` is not waited for.
-/

namespace GsupMapProxy.Transport

open Misc

namespace MapLink

variable {s s' : MapLink} {op : LinkInput} {outs : List MapCall} {events : List LinkEvent}

/-- The handler of a failed connect, read or write runs. -/
def HandlesFailure : LinkInput → Prop
  | .run (.connected _ false) _ => True
  | .run (.connectFailed _) _ => True
  | .run (.read _ none) _ => True
  | .run (.written _ _ false) _ => True
  | _ => False

/-- After a failure the reconnect timer is armed with `reconnectInterval`; `start` arms the timer
of a new transport without a delay, and nothing else does. -/
structure Paced (cfg : MapTransportConfig) (events : List LinkEvent) : Prop where
  failure : ∀ e ∈ events, HandlesFailure e.op → ∀ delay, .armReconnect delay ∈ e.outs →
    delay = cfg.reconnectInterval
  first : ∀ e ∈ events, e.op = .start → e.pre.transport.state = .disconnected →
    e.outs = [.armReconnect 0]
  immediate : ∀ e ∈ events, .armReconnect 0 ∈ e.outs → e.op = .start

/-- The handler of a failure runs and gets to `scheduleConnect`: that of a failed read or write
looks at the state first, that of a failed connect does not. -/
def Retries (s : MapLink) : LinkInput → Prop
  | .run (.connected _ false) _ => True
  | .run (.connectFailed _) _ => True
  | .run (.read _ none) _ => s.transport.state ≠ .stopped
  | .run (.written _ _ false) _ => s.transport.state ≠ .stopped
  | _ => False

instance (s : MapLink) (op : LinkInput) : Decidable (s.Retries op) :=
  match op with
  | .run (.connected _ false) _ | .run (.connectFailed _) _ => .isTrue trivial
  | .run (.read _ none) _ | .run (.written _ _ false) _ =>
      inferInstanceAs (Decidable (s.transport.state ≠ .stopped))
  | .start | .stop | .send _ | .finish _ _ | .run (.connected _ true) _ | .run (.read _ (some _)) _
  | .run (.written _ _ true) _ | .run (.reconnectTimer _) _ | .run (.beatTimer _ _) _
  | .run (.send _) _ => .isFalse id

/-! ## One step -/

theorem Retries.begins {handler : HlrHandler} {attempt : ConnectAttempt}
    (h : Retries s (.run handler attempt)) :
    beginsEpoch s.transport handler = true ∧ handler ≠ .reconnectTimer true := by
  cases handler with
  | connected epoch ok =>
    cases ok with
    | false => exact ⟨rfl, by simp⟩
    | true => exact h.elim
  | connectFailed epoch => exact ⟨rfl, by simp⟩
  | read epoch result =>
    cases result with
    | none =>
      have hrunning : s.transport.state ≠ .stopped := h
      exact ⟨by simpa [beginsEpoch] using hrunning, by simp⟩
    | some chunk => exact h.elim
  | written epoch frame ok =>
    cases ok with
    | false =>
      have hrunning : s.transport.state ≠ .stopped := h
      exact ⟨by simpa [beginsEpoch] using hrunning, by simp⟩
    | true => exact h.elim
  | reconnectTimer ok => exact h.elim
  | beatTimer epoch ok => exact h.elim
  | send payload => exact h.elim

/-- A handler that gets to `scheduleConnect` arms the timer without a delay. -/
theorem Retries.immediate (h : Retries s op) (hop : Possible s op)
    (hstep : step s op = .ok (s', outs)) : .armReconnect 0 ∈ outs := by
  rcases step_cases hop hstep with ⟨-, hrun, -⟩ | ⟨rfl, -⟩ |
    ⟨handler, attempt, t', rfl, -, heffect⟩
  · cases op with
    | run handler attempt => exact absurd rfl (hrun handler attempt)
    | _ => exact h.elim
  · exact h.elim
  · obtain ⟨hbegins, hnot⟩ := h.begins
    cases heffect with
    | stays hnotBegins _ _ =>
      rw [hbegins] at hnotBegins
      cases hnotBegins
    | connects attempt' hhandler _ _ _ => exact absurd hhandler hnot
    | unconnected epoch _ hcalls _ => simp [hcalls]
    | lost epoch _ _ hcalls _ => rcases hcalls with rfl | rfl <;> simp [teardown]

/-- Apart from `start`, only such a handler arms the timer. -/
theorem retries_of_armReconnect (hop : Possible s op) (hstep : step s op = .ok (s', outs))
    {delay : Int} (h : .armReconnect delay ∈ outs) : op = .start ∨ Retries s op := by
  cases op with
  | start => exact .inl rfl
  | stop =>
    cases hstep
    simp [MapTransport.stop] at h
  | send payload =>
    cases hstep
    cases h
  | finish op handler =>
    cases hstep
    cases h
  | run handler attempt =>
    right
    obtain ⟨⟨t', calls⟩, hmethod, hstep⟩ := except_bind_eq_ok.mp hstep
    cases hstep
    cases run_effect hmethod with
    | stays _ hstays _ => exact (hstays.isLocal _ h).elim
    | connects attempt' _ _ hcalls _ =>
      subst hcalls
      cases attempt' <;> simp [MapTransport.connect] at h
    | unconnected epoch hhandler _ _ => rcases hhandler with rfl | rfl <;> trivial
    | lost epoch hhandler hrunning _ _ => rcases hhandler with rfl | ⟨frame, rfl⟩ <;> exact hrunning

/-! ## Runs -/

/-- Reconnects are paced in exactly the runs in which no handler of a failure gets to schedule
one. -/
theorem reconnects_paced_iff {cfg : MapTransportConfig} (hrun : LinkRun cfg events s) :
    Paced cfg events ↔ ∀ e ∈ events, ¬ Retries e.pre e.op := by
  have hevent : ∀ e ∈ events, Possible e.pre e.op ∧ step e.pre e.op = .ok (e.post, e.outs) := by
    intro e he
    obtain ⟨i, hi⟩ := List.mem_iff_getElem?.mp he
    exact Run.event hrun hi
  constructor
  · intro h e he hretries
    obtain ⟨hop, hstep⟩ := hevent e he
    have hstart := h.immediate e he (hretries.immediate hop hstep)
    rw [hstart] at hretries
    exact hretries
  · intro h
    -- whoever arms the timer is `start`
    have hstart : ∀ e ∈ events, ∀ delay, .armReconnect delay ∈ e.outs → e.op = .start := by
      intro e he delay harm
      obtain ⟨hop, hstep⟩ := hevent e he
      rcases retries_of_armReconnect hop hstep harm with hstart | hretries
      · exact hstart
      · exact absurd hretries (h e he)
    refine ⟨?_, ?_, ?_⟩
    · intro e he hfailure delay harm
      rw [hstart e he delay harm] at hfailure
      exact hfailure.elim
    · intro e he hop hstate
      obtain ⟨-, hstep⟩ := hevent e he
      rw [hop] at hstep
      have houts : e.outs = e.pre.transport.start.2 :=
        (congrArg Prod.snd (Except.ok.inj hstep)).symm
      rw [houts, MapTransport.start, MapTransport.scheduleConnect, hstate]
      rfl
    · intro e he harm
      exact hstart e he 0 harm

/-- The transport gets a connection at once. -/
theorem first_attempt_paced :
    ∃ events s, LinkRun {} events s ∧ events.length = 5 ∧ Paced {} events := by
  obtain ⟨result, hplay, hlen, hnone⟩ : ∃ result, played {} connecting = some result ∧
      result.1.length = 5 ∧ ∀ e ∈ result.1, ¬ Retries e.pre e.op :=
    ⟨_, rfl, rfl, by decide⟩
  have hrun := run_of_played hplay
  exact ⟨_, _, hrun, hlen, (reconnects_paced_iff hrun).mpr hnone⟩

/-- The name of the peer cannot be resolved: the next attempt follows at once. -/
theorem unresolved_retried_at_once :
    ¬ ∀ cfg events s, LinkRun cfg events s → Paced cfg events := by
  intro h
  obtain ⟨result, e, hplay, he, hop, harm⟩ : ∃ result e,
      played {} [.start, .finish .reconnectWait (.reconnectTimer true),
        .run (.reconnectTimer true) .unresolved, .run (.connectFailed 1) .unresolved] =
          some result ∧
      e ∈ result.1 ∧ e.op = .run (.connectFailed 1) .unresolved ∧ .armReconnect 0 ∈ e.outs :=
    ⟨_, _, rfl, List.mem_of_getElem? (i := 3) rfl, rfl, by decide⟩
  have hfailure : HandlesFailure e.op := by rw [hop]; trivial
  have hdelay := (h _ _ _ (run_of_played hplay)).failure e he hfailure 0 harm
  exact absurd hdelay (by decide)

end MapLink

end GsupMapProxy.Transport
