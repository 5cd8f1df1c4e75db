import GsupMapProxy.Transport.Proofs.SessionTurns

/-!
# The writes of a session

`enqueue` starts a write only when `writing_` is not set, and the handler of a write starts the
next one. So there is one write at a time, always of the front of the queue, and what has been
written and what is queued is what has been enqueued.
-/

namespace GsupMapProxy.Transport

open Misc Ipa IpaSession

open scoped List

/-! ## Views of the pending operations -/

/-- A view to which it makes no difference whether an operation has completed. -/
def SessionOp.Steady {γ : Type} (v : Pending SessionOp SessionHandler → Option γ) : Prop :=
  ∀ op handler, SessionOp.completesAs op handler = true → v (.ready handler) = v (.running op)

theorem SessionOp.completesAs_closed (op : SessionOp) : op.completesAs op.closed = true := by
  cases op with
  | read => rfl
  | write frame => exact decide_eq_true rfl

/-- The operation a call hands to the socket. -/
def SessionCall.op? : SessionCall → Option SessionOp
  | .asyncRead => some .read
  | .asyncWrite frame => some (.write frame)
  | _ => none

/-- The handler a step runs. -/
def SessionInput.handler? : SessionInput → Option SessionHandler
  | .run handler => some handler
  | _ => none

/-- The handler a step posts. -/
def SessionInput.posts? : SessionInput → Option SessionHandler
  | .sendGsup payload => (IpaSession.sendGsup payload).toOption.map .enqueue
  | _ => none

namespace SessionLink

variable {s s' : SessionLink} {op : SessionInput} {outs : List SessionCall} {γ : Type}
  {v : Pending SessionOp SessionHandler → Option γ}

/-- On a closed socket an operation has failed already; its handler is still to come. -/
theorem beginOnSocket_view (hv : SessionOp.Steady v) (s : SessionLink) (op : SessionOp) :
    (s.beginOnSocket op).io.view v = s.io.view v ++ (v (.running op)).toList := by
  unfold beginOnSocket
  split
  · rw [Proactor.view_begin]
  · rw [Proactor.view_post, hv op op.closed op.completesAs_closed]

theorem perform_view (hv : SessionOp.Steady v) (s : SessionLink) (call : SessionCall) :
    (s.perform call).io.view v =
      s.io.view v ++ (call.op?.bind fun op => v (.running op)).toList := by
  cases call with
  | asyncRead => exact beginOnSocket_view hv s .read
  | asyncWrite frame => exact beginOnSocket_view hv s (.write frame)
  | closeSocket =>
    have hsame : (s.io.cancel fun op => some op.closed).view v = s.io.view v := by
      apply Proactor.view_cancel_eq
      rintro op handler ⟨⟩
      exact hv op op.closed op.completesAs_closed
    rw [perform, hsame]
    exact (List.append_nil _).symm
  | onReady => exact (List.append_nil _).symm
  | onGsup payload => exact (List.append_nil _).symm
  | onDisconnect => exact (List.append_nil _).symm

theorem performs_view (hv : SessionOp.Steady v) (calls : List SessionCall) :
    ∀ s : SessionLink, (calls.foldl perform s).io.view v =
      s.io.view v ++ calls.filterMap fun call => call.op?.bind fun op => v (.running op) := by
  induction calls with
  | nil =>
    intro s
    exact (List.append_nil _).symm
  | cons call calls ih =>
    intro s
    rw [List.foldl_cons, ih, perform_view hv, List.append_assoc, List.filterMap_cons]
    cases call.op?.bind fun op => v (.running op) <;> rfl

/-- What a step does to what is pending: the handler that runs is gone, and what the step posts
and begins is added. -/
theorem step_view (hv : SessionOp.Steady v) (hop : Possible s op)
    (h : step s op = .ok (s', outs)) :
    ∃ rest, s.io.view v ~ (op.handler?.bind fun handler => v (.ready handler)).toList ++ rest ∧
      s'.io.view v ~ rest ++ (op.posts?.bind fun handler => v (.ready handler)).toList ++
        outs.filterMap fun call => call.op?.bind fun op => v (.running op) := by
  cases op with
  | start =>
    obtain ⟨⟨t', calls⟩, -, h⟩ := except_bind_eq_ok.mp h
    cases h
    refine ⟨s.io.view v, .refl _, ?_⟩
    rw [after, performs_view hv]
    exact .of_eq (congrArg (· ++ _) (List.append_nil _).symm)
  | stop =>
    cases h
    refine ⟨s.io.view v, .refl _, ?_⟩
    rw [after, performs_view hv]
    exact .of_eq (congrArg (· ++ _) (List.append_nil _).symm)
  | sendGsup payload =>
    refine ⟨s.io.view v, .refl _, ?_⟩
    rw [step] at h
    rw [SessionInput.posts?]
    split at h
    · rename_i frame hframe
      cases h
      rw [hframe, Proactor.view_post]
      exact .of_eq (List.append_nil _).symm
    · rename_i e hframe
      cases h
      rw [hframe]
      exact .of_eq (by simp [Except.toOption])
  | finish op' handler =>
    cases h
    obtain ⟨hrunning, hcompletes⟩ := hop
    obtain ⟨rest, hbefore, hafter⟩ := Proactor.perm_view_finish (v := v) hrunning handler
    rw [hv op' handler hcompletes] at hafter
    refine ⟨s.io.view v, .refl _, ?_⟩
    have hnone : s.io.view v ~ s.io.view v ++ [] ++ [] := .of_eq (by simp)
    exact (hafter.trans hbefore.symm).trans hnone
  | run handler =>
    obtain ⟨⟨t', calls⟩, -, h⟩ := except_bind_eq_ok.mp h
    cases h
    refine ⟨(s.taking handler).io.view v, Proactor.perm_view_take hop, ?_⟩
    rw [after, performs_view hv]
    exact .of_eq (congrArg (· ++ _) (List.append_nil _).symm)

end SessionLink

/-! ## Outstanding writes -/

/-- The frames of the writes that are outstanding: those whose handler has not run. -/
def SessionOp.frame? : Pending SessionOp SessionHandler → Option Bytes
  | .running (.write frame) => some frame
  | .ready (.written frame _) => some frame
  | _ => none

theorem SessionOp.frame?_steady : SessionOp.Steady SessionOp.frame? := by
  intro op handler h
  cases op with
  | read =>
    cases handler with
    | read result => rfl
    | _ => cases h
  | write frame =>
    cases handler with
    | written frame' ok => rw [SessionOp.frame?, SessionOp.frame?, of_decide_eq_true h]
    | _ => cases h

namespace SessionLink

variable {s s' : SessionLink} {op : SessionInput} {outs : List SessionCall}

def writes (s : SessionLink) : List Bytes := s.io.view SessionOp.frame?

/-- What a step does to the outstanding writes: the one whose handler runs is gone, and those the
step starts are added. -/
theorem step_writes (hop : Possible s op) (h : step s op = .ok (s', outs)) :
    ∃ rest, s.writes ~ op.handled ++ rest ∧
      s'.writes ~ rest ++ outs.filterMap SessionCall.write? := by
  obtain ⟨rest, hbefore, hafter⟩ := step_view SessionOp.frame?_steady hop h
  have hhandled : (op.handler?.bind fun handler => SessionOp.frame? (.ready handler)).toList =
      op.handled := by
    cases op with
    | run handler => cases handler <;> rfl
    | _ => rfl
  have hposts : (op.posts?.bind fun handler => SessionOp.frame? (.ready handler)).toList = [] := by
    cases op with
    | sendGsup payload =>
      rw [SessionInput.posts?]
      cases IpaSession.sendGsup payload <;> rfl
    | _ => rfl
  have hbegins : (fun call : SessionCall => call.op?.bind fun op =>
      SessionOp.frame? (.running op)) = SessionCall.write? := by
    funext call
    cases call <;> rfl
  rw [hhandled] at hbefore
  rw [hposts, hbegins, List.append_nil] at hafter
  exact ⟨rest, hbefore, hafter⟩

end SessionLink

/-! ## Along a run -/

/-- At most one write is outstanding, so the order of the list does not matter. -/
theorem IpaSession.Flying.of_perm {t : IpaSession} {frames frames' : List Bytes}
    (h : Flying t frames) (hperm : frames' ~ frames) : Flying t frames' := by
  refine ⟨h.writing, ?_⟩
  rw [h.front] at hperm
  cases hqueue : t.writeQueue with
  | nil =>
    rw [hqueue] at hperm
    exact List.perm_nil.mp hperm
  | cons front queue =>
    rw [hqueue] at hperm
    exact List.perm_singleton.mp hperm

/-- The frame of a write that has been done. -/
def SessionInput.completed : SessionInput → List Bytes
  | .run (.written frame true) => [frame]
  | _ => []

namespace SessionLink

variable {s s' : SessionLink} {op : SessionInput} {outs : List SessionCall}

/-- Unless the handler of a write runs, frames are only added to the queue. -/
theorem Turn.queues {t' : IpaSession} (h : Turn s t' outs op)
    (hop : ∀ frame ok, op ≠ .run (.written frame ok)) :
    Enqueues s.session t' outs (s.enqueued op) ∧ op.handled = [] ∧ op.completed = [] := by
  have hnot : op.handled = [] ∧ op.completed = [] := by
    cases op with
    | run handler =>
      cases handler with
      | written frame ok => exact absurd rfl (hop frame ok)
      | read result => exact ⟨rfl, rfl⟩
      | enqueue frame => exact ⟨rfl, rfl⟩
    | _ => exact ⟨rfl, rfl⟩
  refine ⟨?_, hnot⟩
  cases h with
  | enqueues hop hdecoder tells enqueues => exact enqueues
  | read chunk yields tells enqueues => exact enqueues
  | written frame hdecoder tells front flying => exact absurd rfl (hop frame true)
  | idle hidle ht houts =>
    have hnone : s.enqueued op = [] := by
      rcases hidle with ⟨payload, rfl⟩ | ⟨op', handler, rfl⟩
      · rfl
      · rfl
    rw [ht, houts, hnone]
    exact enqueues_nothing rfl rfl rfl
  | ceases hceases h =>
    have hnone : s.enqueued op = [] := by
      rcases SessionInput.ceases_cases hceases with rfl | rfl | ⟨frame, rfl⟩
      · rfl
      · rfl
      · rfl
    rw [hnone]
    cases h with
    | silent hcalls =>
      refine enqueues_nothing rfl rfl ?_
      rcases hcalls with rfl | rfl
      · rfl
      · rfl
    | reports hstate => exact enqueues_nothing rfl rfl rfl

theorem step_flying (hflying : Flying s.session s.writes) (hop : Possible s op)
    (h : step s op = .ok (s', outs)) (hok : ∀ frame, op ≠ .run (.written frame false)) :
    Flying s'.session s'.writes ∧
      s.session.writeQueue ++ s.enqueued op = op.completed ++ s'.session.writeQueue := by
  obtain ⟨rest, hbefore, hafter⟩ := step_writes hop h
  have hturn := step_turn h
  by_cases hwritten : ∃ frame, op = .run (.written frame true)
  · obtain ⟨frame, rfl⟩ := hwritten
    cases hturn with
    | ceases hceases h => cases hceases
    | idle hidle ht houts =>
      rcases hidle with ⟨payload, h⟩ | ⟨op', handler, h⟩
      · cases h
      · cases h
    | enqueues henqueues hdecoder tells enqueues =>
      rcases henqueues with h | ⟨frame, h⟩
      · cases h
      · cases h
    | written frame hdecoder tells front flying =>
      -- the write that is done is the only one, and of the front of the queue
      obtain ⟨front, hqueue⟩ := front
      have hsingle : [frame] ++ rest = [front] := by
        have hperm := hbefore.symm
        rw [hflying.front, hqueue] at hperm
        exact List.perm_singleton.mp hperm
      obtain ⟨rfl, rfl⟩ := List.cons.inj hsingle
      refine ⟨flying.of_perm hafter, ?_⟩
      rw [hqueue]
      exact List.append_nil _
  · have hnot : ∀ frame ok, op ≠ .run (.written frame ok) := by
      intro frame ok
      cases ok with
      | false => exact hok frame
      | true => exact fun heq => hwritten ⟨frame, heq⟩
    obtain ⟨henqueues, hhandled, hcompleted⟩ := hturn.queues hnot
    rw [hhandled, List.nil_append] at hbefore
    have hrest := hflying.of_perm hbefore.symm
    refine ⟨(henqueues.flying rest hrest).of_perm hafter, ?_⟩
    rw [hcompleted, henqueues.queue, List.nil_append]

/-- The frames of the writes that have been done. -/
def completed (events : List SessionEvent) : List Bytes := events.flatMap fun e => e.op.completed

/-- The frames that have been put into the queue. -/
def allEnqueued (events : List SessionEvent) : List Bytes :=
  events.flatMap fun e => e.pre.enqueued e.op

theorem completed_snoc (events : List SessionEvent) (e : SessionEvent) :
    completed (events ++ [e]) = completed events ++ e.op.completed := by
  rw [completed, List.flatMap_append, List.flatMap_singleton, ← completed]

theorem allEnqueued_snoc (events : List SessionEvent) (e : SessionEvent) :
    allEnqueued (events ++ [e]) = allEnqueued events ++ e.pre.enqueued e.op := by
  rw [allEnqueued, List.flatMap_append, List.flatMap_singleton, ← allEnqueued]

/-- There is at most one write outstanding, exactly when `writing_` is set, and of the front of
the queue. What has been written and what is queued is what has been enqueued, in this order. -/
structure WritesInOrder (events : List SessionEvent) (s : SessionLink) : Prop where
  single : s.writes.length ≤ 1
  outstanding : s.writes ≠ [] ↔ s.session.writing = true
  front : ∀ frame ∈ s.writes, s.session.writeQueue.head? = some frame
  frames : completed events ++ s.session.writeQueue = allEnqueued events
  bytes : (completed events).flatten ++ s.session.writeQueue.flatten = (allEnqueued events).flatten

theorem run_flying {clientId : ClientId} {events : List SessionEvent}
    (hrun : SessionRun clientId events s)
    (hok : ∀ e ∈ events, ∀ frame, e.op ≠ .run (.written frame false)) :
    Flying s.session s.writes ∧ completed events ++ s.session.writeQueue = allEnqueued events := by
  refine hrun.history (I := fun events s => Flying s.session s.writes ∧
    completed events ++ s.session.writeQueue = allEnqueued events) hok ?_ ?_
  · exact ⟨⟨by simp, rfl⟩, rfl⟩
  · intro events s op outs s' hinv hop hstep hok
    obtain ⟨hflying, horder⟩ := hinv
    obtain ⟨hflying', hqueue⟩ := step_flying hflying hop hstep hok
    refine ⟨hflying', ?_⟩
    rw [completed_snoc, allEnqueued_snoc, ← horder, List.append_assoc, List.append_assoc, hqueue]

/-- As long as no write fails, every frame is written once and in order. -/
theorem writes_in_order {clientId : ClientId} {events : List SessionEvent}
    (hrun : SessionRun clientId events s)
    (hok : ∀ e ∈ events, ∀ frame, e.op ≠ .run (.written frame false)) :
    WritesInOrder events s := by
  obtain ⟨hflying, horder⟩ := run_flying hrun hok
  refine ⟨?_, ?_, ?_, horder, ?_⟩
  · rw [hflying.front]
    exact List.length_take_le 1 _
  · rw [hflying.writing, hflying.front]
    simp
  · intro frame hframe
    rw [hflying.front] at hframe
    cases hqueue : s.session.writeQueue with
    | nil =>
      rw [hqueue] at hframe
      cases hframe
    | cons front queue =>
      rw [hqueue] at hframe
      rw [List.mem_singleton.mp hframe]
      rfl
  · rw [← List.flatten_append, horder]

/-- The client identifies itself and the ID_REQ has been written. While the ID_ACK is being
written, a GSUP frame is queued. -/
theorem idAck_outstanding :
    ∃ events s, SessionRun 1 events s ∧
      (∀ e ∈ events, ∀ frame, e.op ≠ .run (.written frame false)) ∧
      completed events = [ccmIdReq] ∧
      s.session.writeQueue = [ccmIdAck, IpaFrame.wire ⟨kStreamGsup, [0x04]⟩] ∧
      s.writes = [ccmIdAck] ∧ WritesInOrder events s := by
  obtain ⟨result, hplay, hceases, hcompleted, hqueue, hwrites⟩ : ∃ result,
      played [.start, .finish .read (.read (some (IpaFrame.wire ⟨kStreamCcm, [kCcmIdResp]⟩))),
        .run (.read (some (IpaFrame.wire ⟨kStreamCcm, [kCcmIdResp]⟩))),
        .finish (.write ccmIdReq) (.written ccmIdReq true), .run (.written ccmIdReq true),
        .sendGsup [0x04], .run (.enqueue (IpaFrame.wire ⟨kStreamGsup, [0x04]⟩))] = some result ∧
      (∀ e ∈ result.1, e.op.ceases = false) ∧ completed result.1 = [ccmIdReq] ∧
      result.2.session.writeQueue = [ccmIdAck, IpaFrame.wire ⟨kStreamGsup, [0x04]⟩] ∧
      result.2.writes = [ccmIdAck] :=
    ⟨_, rfl, by decide, rfl, rfl, rfl⟩
  have hrun := run_of_played hplay
  have hok : ∀ e ∈ result.1, ∀ frame, e.op ≠ .run (.written frame false) := by
    intro e he frame heq
    have hnot := hceases e he
    rw [heq] at hnot
    cases hnot
  exact ⟨_, _, hrun, hok, hcompleted, hqueue, hwrites, writes_in_order hrun hok⟩

end SessionLink

end GsupMapProxy.Transport
