import GsupMapProxy.Transport.Proofs.Handshake

/-!
# What MapTransport waits for

A transport that is not stopped is driven by its pending operations alone, so it must not be left
without one: disconnected it waits for the reconnect timer, connecting for an attempt, connected
for a read, and active for a heartbeat as well. This holds whatever late completions run. With it
a transport that is not stopped can always get back to `Active`.
-/

namespace GsupMapProxy.Transport

open Misc M3ua

open scoped List

/-! ## Timers -/

/-- The two timers of `MapTransport` (`MapTransport.hpp:108-109`). -/
inductive HlrTimer where
  | reconnect
  | beat
  deriving DecidableEq, Repr

namespace HlrTimer

/-- The waits on a timer. -/
def isWait : HlrTimer → HlrOp → Bool
  | .reconnect, .reconnectWait => true
  | .beat, .beatWait _ => true
  | _, _ => false

/-- The handlers of its waits. -/
def isExpiry (ok : Bool) : HlrTimer → HlrHandler → Bool
  | .reconnect, .reconnectTimer ok' => ok' = ok
  | .beat, .beatTimer _ ok' => ok' = ok
  | _, _ => false

/-- `expires_after` and `async_wait` on it. -/
def arms : HlrTimer → MapCall → Bool
  | .reconnect, .armReconnect _ => true
  | .beat, .armBeat _ => true
  | _, _ => false

/-- `cancel` on it. -/
def cancelled : HlrTimer → MapCall
  | .reconnect => .cancelReconnect
  | .beat => .cancelBeat

/-- How its waits complete then. -/
def abort : HlrTimer → HlrOp → Option HlrHandler
  | .reconnect => HlrOp.reconnectCancelled
  | .beat => HlrOp.beatCancelled

theorem abort_isSome (timer : HlrTimer) {op : HlrOp} (hop : timer.isWait op) :
    (timer.abort op).isSome := by
  cases timer with
  | reconnect =>
    cases op <;> cases hop
    rfl
  | beat =>
    cases op <;> cases hop
    rfl

/-- Waits that have not been cancelled, up to their handler. -/
def armed? (timer : HlrTimer) : Pending HlrOp HlrHandler → Option Unit
  | .running op => if timer.isWait op then some () else none
  | .ready handler => if timer.isExpiry true handler then some () else none

/-- Waits on the timer. -/
def waiting? (timer : HlrTimer) : Pending HlrOp HlrHandler → Option Unit
  | .running op => if timer.isWait op then some () else none
  | .ready _ => none

/-- A view that sees nothing but the timer. -/
structure Shows {γ : Type} (timer : HlrTimer) (v : Pending HlrOp HlrHandler → Option γ) :
    Prop where
  running : ∀ op, ¬ timer.isWait op → v (.running op) = none
  ready : ∀ handler, (∀ ok, ¬ timer.isExpiry ok handler) → v (.ready handler) = none

theorem shows_armed? (timer : HlrTimer) : timer.Shows timer.armed? :=
  ⟨fun _ h => if_neg h, fun _ h => if_neg (h true)⟩

theorem shows_waiting? (timer : HlrTimer) : timer.Shows timer.waiting? :=
  ⟨fun _ h => if_neg h, fun _ _ => rfl⟩

/-- The operations on the socket are no waits. -/
theorem not_closed (timer : HlrTimer) {op : HlrOp} {handler : HlrHandler}
    (h : op.closed = some handler) :
    ¬ timer.isWait op ∧ ∀ ok, ¬ timer.isExpiry ok handler := by
  cases op <;> cases h <;> cases timer <;> simp [isWait, isExpiry]

end HlrTimer

namespace MapLink

variable {s s' : MapLink} {timer : HlrTimer} {call : MapCall} {calls : List MapCall}

/-- The timer is going to expire, or has and its handler is queued. -/
def Armed (s : MapLink) (timer : HlrTimer) : Prop := s.io.view timer.armed? ≠ []

def waits (s : MapLink) (timer : HlrTimer) : List Unit := s.io.view timer.waiting?

section Shows

variable {γ : Type} {v : Pending HlrOp HlrHandler → Option γ}

theorem beginOnSocket_shows (hv : timer.Shows v) {op : HlrOp} {failed : HlrHandler}
    (h : op.closed = some failed) : (s.beginOnSocket op failed).io.view v = s.io.view v := by
  obtain ⟨hop, hfailed⟩ := timer.not_closed h
  unfold beginOnSocket
  split
  · rw [Proactor.view_begin, hv.running op hop]
    exact List.append_nil _
  · rw [Proactor.view_post, hv.ready failed hfailed]
    exact List.append_nil _

/-- Cancelling what is no wait on the timer. -/
theorem cancel_shows (hv : timer.Shows v) {abort : HlrOp → Option HlrHandler}
    (habort : ∀ op handler, abort op = some handler →
      ¬ timer.isWait op ∧ ∀ ok, ¬ timer.isExpiry ok handler) :
    (s.io.cancel abort).view v = s.io.view v := by
  apply Proactor.view_cancel_eq
  intro op handler h
  obtain ⟨hop, hhandler⟩ := habort op handler h
  rw [hv.running op hop, hv.ready handler hhandler]

theorem reconnectCancelled_shows (hv : HlrTimer.beat.Shows v) :
    (s.io.cancel HlrOp.reconnectCancelled).view v = s.io.view v := by
  refine cancel_shows hv ?_
  intro op handler h
  cases op <;> cases h
  simp [HlrTimer.isWait, HlrTimer.isExpiry]

theorem beatCancelled_shows (hv : HlrTimer.reconnect.Shows v) :
    (s.io.cancel HlrOp.beatCancelled).view v = s.io.view v := by
  refine cancel_shows hv ?_
  intro op handler h
  cases op <;> cases h
  simp [HlrTimer.isWait, HlrTimer.isExpiry]

/-- A call that is not about a timer makes no difference to it. -/
theorem perform_shows (hv : timer.Shows v) (harms : timer.arms call = false)
    (hcancel : call ≠ timer.cancelled) : (s.perform call).io.view v = s.io.view v := by
  cases call with
  | asyncConnect => exact beginOnSocket_shows hv rfl
  | asyncRead => exact beginOnSocket_shows hv rfl
  | asyncWrite frame => exact beginOnSocket_shows hv rfl
  | openSocket => rfl
  | closeSocket => exact cancel_shows hv fun _ _ h => timer.not_closed h
  | postConnectFailed =>
    show Proactor.view _ (s.io.post _) = _
    rw [Proactor.view_post, hv.ready _ (by cases timer <;> simp [HlrTimer.isExpiry])]
    exact List.append_nil _
  | messageCb payload => rfl
  | disconnectCb => rfl
  | armReconnect after =>
    cases timer with
    | reconnect => cases harms
    | beat =>
      show Proactor.view _ (Proactor.begin _ _) = _
      rw [Proactor.view_begin, hv.running _ (by simp [HlrTimer.isWait])]
      exact (List.append_nil _).trans (reconnectCancelled_shows hv)
  | armBeat after =>
    cases timer with
    | beat => cases harms
    | reconnect =>
      show Proactor.view _ (Proactor.begin _ _) = _
      rw [Proactor.view_begin, hv.running _ (by simp [HlrTimer.isWait])]
      exact (List.append_nil _).trans (beatCancelled_shows hv)
  | cancelReconnect =>
    cases timer with
    | reconnect => exact absurd rfl hcancel
    | beat => exact reconnectCancelled_shows hv
  | cancelBeat =>
    cases timer with
    | beat => exact absurd rfl hcancel
    | reconnect => exact beatCancelled_shows hv

end Shows

/-- Cancelling ends every wait on the timer. -/
theorem cancel_waits (timer : HlrTimer) :
    (s.io.cancel timer.abort).view timer.waiting? = [] := by
  rw [Proactor.view_cancel, Proactor.view, List.filterMap_eq_nil_iff]
  intro item _
  rcases item with op | handler
  · by_cases hop : timer.isWait op
    · obtain ⟨handler, hhandler⟩ := Option.isSome_iff_exists.mp (timer.abort_isSome hop)
      simp [Proactor.aborted, hhandler, HlrTimer.waiting?]
    · cases habort : timer.abort op with
      | none => simp [Proactor.aborted, habort, HlrTimer.waiting?, hop]
      | some handler => simp [Proactor.aborted, habort, HlrTimer.waiting?]
  · rfl

theorem begin_waits (timer : HlrTimer) {op : HlrOp} (hop : timer.isWait op) :
    ((s.io.cancel timer.abort).begin op).view timer.armed? ≠ [] ∧
      ((s.io.cancel timer.abort).begin op).view timer.waiting? = [()] := by
  rw [Proactor.view_begin, Proactor.view_begin, cancel_waits]
  simp [HlrTimer.armed?, HlrTimer.waiting?, hop]

/-- Arming a timer cancels the wait there is and starts one. -/
theorem perform_arms (harms : timer.arms call = true) :
    (s.perform call).Armed timer ∧ (s.perform call).waits timer = [()] := by
  cases timer with
  | reconnect =>
    cases call <;> cases harms
    exact begin_waits .reconnect rfl
  | beat =>
    cases call <;> cases harms
    exact begin_waits .beat rfl

/-- There is never more than one wait on a timer. -/
theorem perform_waits (h : (s.waits timer).length ≤ 1) :
    ((s.perform call).waits timer).length ≤ 1 := by
  cases harms : timer.arms call with
  | true =>
    rw [(perform_arms harms).2]
    exact Nat.le_refl 1
  | false =>
    by_cases hcancel : call = timer.cancelled
    · have hnil : (s.perform call).waits timer = [] := by
        rw [hcancel]
        cases timer with
        | reconnect => exact cancel_waits .reconnect
        | beat => exact cancel_waits .beat
      rw [hnil]
      exact Nat.zero_le 1
    · rw [waits, perform_shows timer.shows_waiting? harms hcancel]
      exact h

theorem foldl_perform_waits (h : (s.waits timer).length ≤ 1) :
    ((calls.foldl perform s).waits timer).length ≤ 1 := by
  induction calls generalizing s with
  | nil => exact h
  | cons call calls ih => exact ih (perform_waits h)

/-- Only its own cancellation disarms a timer. -/
theorem Armed.perform (h : s.Armed timer) (hcancel : call ≠ timer.cancelled) :
    (s.perform call).Armed timer := by
  cases harms : timer.arms call with
  | true => exact (perform_arms harms).1
  | false =>
    rw [Armed, perform_shows timer.shows_armed? harms hcancel]
    exact h

theorem Armed.foldl_perform (h : s.Armed timer) (hcalls : timer.cancelled ∉ calls) :
    (calls.foldl MapLink.perform s).Armed timer := by
  induction calls generalizing s with
  | nil => exact h
  | cons call calls ih =>
    rw [List.mem_cons, not_or] at hcalls
    exact ih (h.perform (Ne.symm hcalls.1)) hcalls.2

/-- A timer that is armed among other calls is armed after them. -/
theorem foldl_perform_arms (hcall : call ∈ calls) (harms : timer.arms call = true)
    (hcalls : timer.cancelled ∉ calls) : (calls.foldl perform s).Armed timer := by
  induction calls generalizing s with
  | nil => cases hcall
  | cons first calls ih =>
    rw [List.mem_cons, not_or] at hcalls
    rcases List.mem_cons.mp hcall with rfl | hcall
    · exact (perform_arms harms).1.foldl_perform hcalls.2
    · exact ih hcall hcalls.2

/-! ## What each state waits for -/

/-- What is pending for a transport in this state. Before it is started a disconnected one waits
for nothing. -/
def AwaitedIn (started : Prop) (s : MapLink) : MapState → Prop
  | .disconnected => started → s.Armed .reconnect
  | .connecting => s.attempts ≠ []
  | .aspUp => s.reads ≠ []
  | .active => s.reads ≠ [] ∧ s.Armed .beat
  | .stopped => True

/-- A transport waits for what its state goes with. -/
def Awaits (started : Prop) (s : MapLink) : Prop := AwaitedIn started s s.transport.state

section Handlers

variable {handler : HlrHandler} {γ : Type} {v : Pending HlrOp HlrHandler → Option γ}

/-- Taking out a handler leaves what is not seen of it. -/
theorem taking_ne_nil (hready : .ready handler ∈ s.io) (hv : v (.ready handler) = none)
    (h : s.io.view v ≠ []) : (s.taking handler).io.view v ≠ [] := by
  have hperm := Proactor.perm_view_take (v := v) hready
  rw [hv] at hperm
  intro hnil
  rw [show (s.io.take handler).view v = [] from hnil] at hperm
  exact h hperm.eq_nil

theorem Armed.taking (h : s.Armed timer) (hready : .ready handler ∈ s.io)
    (hne : ¬ timer.isExpiry true handler) : (s.taking handler).Armed timer :=
  taking_ne_nil hready (if_neg hne) h

/-- Completing an operation leaves a timer armed. -/
theorem Armed.finish {op : HlrOp} (h : s.Armed timer) (hop : .running op ∈ s.io)
    (hcompletes : op.completesAs handler) :
    Armed { s with io := s.io.finish op handler } timer := by
  have hsame : timer.armed? (.ready handler) = timer.armed? (.running op) := by
    cases timer <;> cases op <;> cases handler <;>
      simp_all [HlrOp.completesAs, HlrTimer.armed?, HlrTimer.isWait, HlrTimer.isExpiry]
  obtain ⟨rest, hbefore, hafter⟩ := Proactor.perm_view_finish (v := timer.armed?) hop handler
  rw [hsame] at hafter
  intro hnil
  rw [show (s.io.finish op handler).view timer.armed? = [] from hnil] at hafter
  exact h (hbefore.trans hafter.symm).eq_nil

/-- A read among the calls of a handler is pending after them. -/
theorem reads_ne_nil (hcalls : ∀ c ∈ calls, c.IsLocal) (hread : .asyncRead ∈ calls) :
    (calls.foldl perform s).reads ≠ [] := by
  rw [reads, (foldl_perform_local hcalls).view HlrOp.read?_blind]
  apply List.append_ne_nil_of_right_ne_nil
  rw [ne_eq, List.filterMap_eq_nil_iff]
  intro hnone
  have := hnone _ hread
  rw [started] at this
  split at this <;> cases this

theorem foldl_perform_reads (hcalls : ∀ c ∈ calls, c.IsLocal) (h : s.reads ≠ []) :
    (calls.foldl perform s).reads ≠ [] := by
  rw [reads, (foldl_perform_local hcalls).view HlrOp.read?_blind]
  exact List.append_ne_nil_of_left_ne_nil h _

theorem IsLocal.not_cancelled (hcalls : ∀ c ∈ calls, c.IsLocal) (timer : HlrTimer) :
    timer.cancelled ∉ calls := by
  intro hmem
  have := hcalls _ hmem
  cases timer <;> exact this

variable {started : Prop} {t' : MapTransport}

theorem after_transport (hcalls : ∀ c ∈ calls, c.IsLocal) :
    (s.after (t', calls)).transport = t' :=
  (foldl_perform_local hcalls).transport

theorem after_attempts (hcalls : ∀ c ∈ calls, c.IsLocal) :
    (s.after (t', calls)).attempts = s.attempts :=
  (foldl_perform_local hcalls).attempts

/-- A timer that does not expire stays armed. -/
theorem Armed.after (h : s.Armed timer) (hready : .ready handler ∈ s.io)
    (hne : ¬ timer.isExpiry true handler) (hcalls : ∀ c ∈ calls, c.IsLocal) :
    ((s.taking handler).after (t', calls)).Armed timer := by
  have htaken : ({ s.taking handler with transport := t' } : MapLink).Armed timer :=
    h.taking hready hne
  exact htaken.foldl_perform (IsLocal.not_cancelled hcalls timer)

/-- A handler that is not waited for, and that changes nothing but the connection there is. -/
theorem Awaits.kept (h : Awaits started s) (hready : .ready handler ∈ s.io)
    (hattempt : HlrOp.attempt? (.ready handler) = none)
    (hread : HlrOp.read? (.ready handler) = none)
    (hreconnect : ¬ HlrTimer.reconnect.isExpiry true handler)
    (hbeat : HlrTimer.beat.isExpiry true handler → s.transport.state = .active →
      ∃ call ∈ calls, HlrTimer.beat.arms call = true)
    (hcalls : ∀ c ∈ calls, c.IsLocal) (hstate : t'.state = s.transport.state) :
    Awaits started ((s.taking handler).after (t', calls)) := by
  have hreads : s.reads ≠ [] → ((s.taking handler).after (t', calls)).reads ≠ [] := by
    intro hreads
    have htaken : ({ s.taking handler with transport := t' } : MapLink).reads ≠ [] :=
      taking_ne_nil hready hread hreads
    exact foldl_perform_reads hcalls htaken
  unfold Awaits at h ⊢
  rw [after_transport hcalls, hstate]
  cases hs : s.transport.state with
  | disconnected =>
    rw [hs] at h
    exact fun hstarted => (h hstarted).after hready hreconnect hcalls
  | connecting =>
    rw [hs] at h
    show ((s.taking handler).after (t', calls)).attempts ≠ []
    rw [after_attempts hcalls]
    exact taking_ne_nil hready hattempt h
  | aspUp =>
    rw [hs] at h
    exact hreads h
  | active =>
    rw [hs] at h
    refine ⟨hreads h.1, ?_⟩
    by_cases hexpired : HlrTimer.beat.isExpiry true handler
    · obtain ⟨call, hcall, harms⟩ := hbeat hexpired hs
      exact foldl_perform_arms hcall harms (IsLocal.not_cancelled hcalls _)
    · exact h.2.after hready hexpired hcalls
  | stopped => trivial

/-- A transport becomes active with its heartbeat. -/
theorem onRead_arms {t : MapTransport} {chunk : Bytes}
    (h : t.onRead (some chunk) = .ok (t', calls)) (hactive : t'.state = .active) :
    t.state = .active ∨ ∃ call ∈ calls, HlrTimer.beat.arms call = true := by
  obtain ⟨msgs, rest, t₁, calls₁, -, hfold, rfl, hcalls⟩ := MapTransport.onRead_some_eq_ok.mp h
  have hturns : t₁.state = .active →
      t.state = .active ∨ ∃ call ∈ calls₁, HlrTimer.beat.arms call = true := by
    refine foldlM_invariant (P := fun acc => acc.1.state = .active →
      t.state = .active ∨ ∃ call ∈ acc.2, HlrTimer.beat.arms call = true) ?_ .inl hfold
    intro acc msg acc' hacc hturn hactive
    obtain ⟨t₂, calls₂, hmsg, rfl⟩ := MapTransport.readTurn_eq_ok.mp hturn
    rcases MapTransport.processMessage_effect hmsg with ⟨hup, -⟩ | ⟨-, -, rfl⟩ | ⟨-, hac, -⟩ |
      ⟨-, hac, -, -⟩
    · rw [MapTransport.processMessage_state hmsg, if_neg hup.not_aspAcAck] at hactive
      exact (hacc hactive).imp_right fun ⟨c, hc, harms⟩ => ⟨c, List.mem_append_left _ hc, harms⟩
    · exact .inr ⟨_, List.mem_append_right _ (List.mem_singleton_self _), rfl⟩
    · rw [MapTransport.processMessage_state hmsg, if_neg hac] at hactive
      exact (hacc hactive).imp_right fun ⟨c, hc, harms⟩ => ⟨c, List.mem_append_left _ hc, harms⟩
    · rw [MapTransport.processMessage_state hmsg, if_neg hac] at hactive
      exact (hacc hactive).imp_right fun ⟨c, hc, harms⟩ => ⟨c, List.mem_append_left _ hc, harms⟩
  rcases hturns hactive with hbefore | ⟨call, hcall, harms⟩
  · exact .inl hbefore
  · refine .inr ⟨call, ?_, harms⟩
    rw [hcalls]
    split
    · exact List.mem_append_left _ hcall
    · exact hcall

/-- A read that succeeds is followed by another, unless the transport is stopped or is to connect
anew. -/
theorem onRead_continues {t : MapTransport} {chunk : Bytes}
    (h : t.onRead (some chunk) = .ok (t', calls)) (hstopped : t'.state ≠ .stopped)
    (hdisconnected : t'.state ≠ .disconnected) : .asyncRead ∈ calls := by
  obtain ⟨msgs, rest, t₁, calls₁, -, -, rfl, rfl⟩ := MapTransport.onRead_some_eq_ok.mp h
  rw [if_pos ⟨hstopped, hdisconnected⟩]
  exact List.mem_append_right _ (List.mem_singleton_self _)

theorem Awaits.read (h : Awaits started s) {epoch : Nat} {chunk : Bytes}
    (hready : .ready (.read epoch (some chunk)) ∈ s.io)
    (hmethod : s.transport.onRead (some chunk) = .ok (t', calls)) :
    Awaits started ((s.taking (.read epoch (some chunk))).after (t', calls)) := by
  have hcalls := MapTransport.onRead_isLocal hmethod
  -- but for becoming active the state is as before
  have hbefore : t'.state ≠ .active → s.transport.state = t'.state := by
    intro hne
    rcases MapTransport.onRead_state hmethod with hsame | hactive
    · exact hsame.symm
    · exact absurd hactive hne
  unfold Awaits at h ⊢
  rw [after_transport hcalls]
  cases hs : t'.state with
  | disconnected =>
    rw [hbefore (by simp [hs]), hs] at h
    exact fun hstarted => (h hstarted).after hready (by simp [HlrTimer.isExpiry]) hcalls
  | connecting =>
    rw [hbefore (by simp [hs]), hs] at h
    show ((s.taking _).after (t', calls)).attempts ≠ []
    rw [after_attempts hcalls]
    exact taking_ne_nil hready rfl h
  | aspUp => exact reads_ne_nil hcalls (onRead_continues hmethod (by simp [hs]) (by simp [hs]))
  | active =>
    refine ⟨reads_ne_nil hcalls (onRead_continues hmethod (by simp [hs]) (by simp [hs])), ?_⟩
    rcases onRead_arms hmethod hs with hactive | ⟨call, hcall, harms⟩
    · rw [hactive] at h
      exact h.2.after hready (by simp [HlrTimer.isExpiry]) hcalls
    · exact foldl_perform_arms hcall harms (IsLocal.not_cancelled hcalls _)
  | stopped => trivial

/-- After a failure there is the reconnect timer. -/
theorem Awaits.of_disconnected (hstate : s.transport.state = .disconnected)
    (harmed : s.Armed .reconnect) : Awaits started s := by
  rw [Awaits, hstate]
  exact fun _ => harmed

theorem Awaits.of_stopped (hstate : s.transport.state = .stopped) : Awaits started s := by
  rw [Awaits, hstate]
  trivial

end Handlers

section Steps

variable {started started' : Prop} {handler : HlrHandler} {attempt : ConnectAttempt}
  {outs : List MapCall} {op : LinkInput} {t' : MapTransport}

theorem teardown_arms (s : MapLink) : (teardown.foldl perform s).Armed .reconnect := by
  have hmem : MapCall.armReconnect 0 ∈ teardown := by decide
  exact foldl_perform_arms hmem rfl (by decide)

/-- A handler that begins an epoch leaves an attempt or the reconnect timer. -/
theorem Awaits.begins (hbegins : beginsEpoch s.transport handler = true)
    (h : method s.transport attempt handler = .ok (t', calls)) :
    Awaits started ((s.taking handler).after (t', calls)) := by
  rcases method_begins hbegins h with ⟨-, -, heq⟩ | ⟨rfl, heffect⟩
  · have hconnects := connect_connects (s := s.taking handler) s.transport attempt
    rw [heq, Awaits, hconnects.transport]
    show MapLink.attempts _ ≠ []
    rw [hconnects.attempts]
    exact List.append_ne_nil_of_right_ne_nil _ (by simp)
  · rcases heffect with ⟨-, rfl⟩ | ⟨-, -, rfl⟩ | ⟨-, -, rfl⟩
    · have harms : HlrTimer.reconnect.arms (.armReconnect 0) = true := rfl
      exact .of_disconnected rfl (perform_arms harms).1
    · exact .of_disconnected rfl (teardown_arms _)
    · exact .of_disconnected rfl (teardown_arms _)

/-- Only the two steps of the handshake change the state of a connection there is. -/
theorem state_eq_of_method (hbegins : beginsEpoch s.transport handler = false)
    (h : method s.transport attempt handler = .ok (t', calls))
    (hconnected : ∀ epoch ok, handler ≠ .connected epoch ok)
    (hread : ∀ epoch result, handler ≠ .read epoch result) : t'.state = s.transport.state := by
  rcases (method_stays hbegins h).state with hsame | ⟨⟨epoch, heq⟩, -⟩ | ⟨⟨epoch, chunk, heq⟩, -⟩
  · exact hsame
  · exact absurd heq (hconnected epoch true)
  · exact absurd heq (hread epoch (some chunk))

/-- What running a handler leaves. -/
theorem Awaits.run (h : Awaits started s) (hready : .ready handler ∈ s.io)
    (hmethod : method s.transport attempt handler = .ok (t', calls)) :
    Awaits started ((s.taking handler).after (t', calls)) := by
  cases hbegins : beginsEpoch s.transport handler with
  | true => exact .begins hbegins hmethod
  | false =>
    have hlocal := (method_stays hbegins hmethod).isLocal
    have hstate := state_eq_of_method hbegins hmethod
    cases handler with
    | connected epoch ok =>
      cases ok with
      | false => cases hbegins
      | true =>
        have hup : t'.state = .aspUp := by
          cases hmethod
          show (MapTransport.enqueue _ _).1.state = _
          rw [MapTransport.enqueue_fst]
        have hread : .asyncRead ∈ calls := by
          cases hmethod
          exact List.mem_cons_self
        rw [Awaits, after_transport hlocal, hup]
        exact reads_ne_nil hlocal hread
    | read epoch result =>
      cases result with
      | some chunk => exact h.read hready hmethod
      | none =>
        have hstopped : s.transport.state = .stopped := by simpa [beginsEpoch] using hbegins
        have hmethod : s.transport.onRead none = .ok (t', calls) := hmethod
        rw [MapTransport.onRead, if_neg (not_not.mpr hstopped)] at hmethod
        cases hmethod
        exact .of_stopped hstopped
    | written epoch frame ok =>
      exact h.kept hready rfl rfl Bool.false_ne_true (absurd · Bool.false_ne_true) hlocal
        (hstate (by simp) (by simp))
    | reconnectTimer ok =>
      cases ok with
      | true =>
        have hstopped : s.transport.state = .stopped := by simpa [beginsEpoch] using hbegins
        refine .of_stopped ?_
        rw [after_transport hlocal, hstate (by simp) (by simp)]
        exact hstopped
      | false =>
        exact h.kept hready rfl rfl Bool.false_ne_true (absurd · Bool.false_ne_true) hlocal
          (hstate (by simp) (by simp))
    | beatTimer epoch ok =>
      refine h.kept hready rfl rfl Bool.false_ne_true ?_ hlocal (hstate (by simp) (by simp))
      intro hok hactive
      obtain rfl : ok = true := of_decide_eq_true hok
      rw [method, MapTransport.onBeatTimer, if_pos ⟨rfl, by simp [hactive]⟩, MapTransport.onBeat,
        if_neg (not_not.mpr hactive)] at hmethod
      cases hmethod
      exact ⟨_, List.mem_append_right _ (List.mem_singleton_self _), rfl⟩
    | connectFailed epoch => cases hbegins
    | send payload =>
      exact h.kept hready rfl rfl Bool.false_ne_true (absurd · Bool.false_ne_true) hlocal
        (hstate (by simp) (by simp))

/-- Being started only matters to a transport that is disconnected. -/
theorem Awaits.mono (h : Awaits started s)
    (hstarted : s.transport.state = .disconnected → started' → started) : Awaits started' s := by
  unfold Awaits at h ⊢
  cases hs : s.transport.state with
  | disconnected =>
    rw [hs] at h
    exact fun hnow => h (hstarted hs hnow)
  | connecting =>
    rw [hs] at h
    exact h
  | aspUp =>
    rw [hs] at h
    exact h
  | active =>
    rw [hs] at h
    exact h
  | stopped => trivial

/-- Completions and timers change nothing that is waited for. -/
theorem Awaits.same (h : Awaits started s) (hsame : Same s s')
    (harmed : ∀ timer, s.Armed timer → s'.Armed timer) : Awaits started s' := by
  have hattempts : s.attempts ≠ [] → s'.attempts ≠ [] :=
    fun hne hnil => hne (hnil ▸ hsame.attempts).symm.eq_nil
  have hreads : s.reads ≠ [] → s'.reads ≠ [] :=
    fun hne hnil => hne (hnil ▸ hsame.reads).symm.eq_nil
  unfold Awaits at h ⊢
  rw [hsame.transport]
  cases hs : s.transport.state with
  | disconnected =>
    rw [hs] at h
    exact fun hstarted => harmed _ (h hstarted)
  | connecting =>
    rw [hs] at h
    exact hattempts h
  | aspUp =>
    rw [hs] at h
    exact hreads h
  | active =>
    rw [hs] at h
    exact ⟨hreads h.1, harmed _ h.2⟩
  | stopped => trivial

theorem Awaits.start (h : Awaits started s) : Awaits started' (s.after s.transport.start) := by
  by_cases hstopped : s.transport.state = .stopped
  · refine .of_stopped ?_
    rw [start_same.transport]
    exact hstopped
  · have hcalls : s.after s.transport.start = s.perform
        (.armReconnect (if s.transport.state = .disconnected then 0
          else s.transport.cfg.reconnectInterval)) := by
      show s.transport.scheduleConnect.foldl perform s = _
      rw [MapTransport.scheduleConnect, if_neg hstopped]
      rfl
    rw [hcalls]
    by_cases hdisconnected : s.transport.state = .disconnected
    · exact .of_disconnected hdisconnected (perform_arms rfl).1
    · have hlater : Awaits started' s := h.mono fun heq => absurd heq hdisconnected
      refine hlater.same (perform_timer_same trivial) ?_
      intro timer harmed
      refine harmed.perform ?_
      cases timer <;> simp [HlrTimer.cancelled]

/-- What one step leaves. -/
theorem step_awaits (h : Awaits started s) (hop : Possible s op)
    (hstep : step s op = .ok (s', outs)) (hstarted : started' → started ∨ op = .start) :
    Awaits started' s' := by
  have hlater : op ≠ .start → Awaits started' s :=
    fun hne => h.mono fun _ hnow => (hstarted hnow).resolve_right hne
  cases op with
  | start =>
    cases hstep
    exact h.start
  | stop =>
    cases hstep
    exact .of_stopped rfl
  | send payload =>
    cases hstep
    refine (hlater (by simp)).same (send_same payload) ?_
    intro timer harmed
    show Proactor.view _ (s.io.post _) ≠ []
    rw [Proactor.view_post]
    exact List.append_ne_nil_of_left_ne_nil harmed _
  | finish op handler =>
    cases hstep
    refine (hlater (by simp)).same (finish_same hop.1 hop.2) ?_
    intro timer harmed
    exact harmed.finish hop.1 hop.2
  | run handler attempt =>
    obtain ⟨⟨t', calls⟩, hmethod, hstep⟩ := except_bind_eq_ok.mp hstep
    cases hstep
    exact (hlater (by simp)).run hop hmethod

theorem step_waits (h : ∀ timer, (s.waits timer).length ≤ 1) (hop : Possible s op)
    (hstep : step s op = .ok (s', outs)) (timer : HlrTimer) : (s'.waits timer).length ≤ 1 := by
  cases op with
  | start =>
    cases hstep
    exact foldl_perform_waits (h timer)
  | stop =>
    cases hstep
    exact foldl_perform_waits (h timer)
  | send payload =>
    cases hstep
    show (Proactor.view _ (s.io.post _)).length ≤ 1
    rw [Proactor.view_post]
    exact (List.append_nil _).symm ▸ h timer
  | finish op handler =>
    cases hstep
    exact (Proactor.view_finish_subperm hop.1 (.inl rfl)).length_le.trans (h timer)
  | run handler attempt =>
    obtain ⟨⟨t', calls⟩, hmethod, hstep⟩ := except_bind_eq_ok.mp hstep
    cases hstep
    have htaken : (({ s.taking handler with transport := t' } : MapLink).waits timer).length ≤ 1 :=
      (taking_view_subperm hop _).length_le.trans (h timer)
    exact foldl_perform_waits htaken

end Steps

/-! ## Runs -/

section Runs

variable {cfg : MapTransportConfig} {events : List LinkEvent}

/-- `start` has been called. -/
def Started (events : List LinkEvent) : Prop := ∃ e ∈ events, e.op = .start

theorem run_awaits (hrun : LinkRun cfg events s) : Awaits (Started events) s := by
  refine Run.history (I := fun events s => Awaits (Started events) s) (C := fun _ => True) hrun
    (fun _ _ => trivial) ?_ ?_
  · rintro ⟨e, he, -⟩
    cases he
  · intro events s op outs s' h hop hstep _
    refine step_awaits h hop hstep ?_
    rintro ⟨e, he, hstart⟩
    rcases List.mem_append.mp he with he | he
    · exact .inl ⟨e, he, hstart⟩
    · obtain rfl := List.mem_singleton.mp he
      exact .inr hstart

/-- Whatever the order in which completions run, a transport that has been started and is not
stopped never loses what drives it: its state goes with a pending operation, of either timer at
most one wait is outstanding, and as long as it is active the heartbeat goes on. -/
theorem never_left_waiting (hrun : LinkRun cfg events s) (hstarted : Started events) :
    (s.transport.state = .disconnected → s.Armed .reconnect) ∧
    (s.transport.state = .connecting → s.attempts ≠ []) ∧
    (s.transport.state = .aspUp ∨ s.transport.state = .active → s.reads ≠ []) ∧
    (s.transport.state = .active → s.Armed .beat) ∧
    ∀ timer, (s.waits timer).length ≤ 1 := by
  have hawaits := run_awaits hrun
  unfold Awaits at hawaits
  refine ⟨?_, ?_, ?_, ?_, ?_⟩
  · intro hs
    rw [hs] at hawaits
    exact hawaits hstarted
  · intro hs
    rw [hs] at hawaits
    exact hawaits
  · rintro (hs | hs)
    · rw [hs] at hawaits
      exact hawaits
    · rw [hs] at hawaits
      exact hawaits.1
  · intro hs
    rw [hs] at hawaits
    exact hawaits.2
  · refine hrun.invariant (I := fun s => ∀ timer, (s.waits timer).length ≤ 1) ?_ ?_
    · intro timer
      exact Nat.zero_le 1
    · intro s op s' outs h hop hstep
      exact step_waits h hop hstep

/-- The transport connects and gets an ASPAC_ACK. -/
theorem active_transport_beats :
    ∃ events s, LinkRun {} events s ∧ Started events ∧ s.transport.state = .active ∧
      s.reads ≠ [] ∧ s.Armed .beat := by
  obtain ⟨result, hplay, hstarted, hactive⟩ : ∃ result, played {} (connecting ++
        [.finish (.read 1) (.read 1 (some (M3ua.encode aspAcAck))),
          .run (.read 1 (some (M3ua.encode aspAcAck))) .started]) = some result ∧
      Started result.1 ∧ result.2.transport.state = .active :=
    ⟨_, rfl, ⟨_, List.mem_of_getElem? (i := 0) rfl, rfl⟩, rfl⟩
  have hrun := run_of_played hplay
  obtain ⟨-, -, hreads, hbeat, -⟩ := never_left_waiting hrun hstarted
  exact ⟨_, _, hrun, hstarted, hactive, hreads (.inr hactive), hbeat hactive⟩

end Runs

end MapLink

end GsupMapProxy.Transport
