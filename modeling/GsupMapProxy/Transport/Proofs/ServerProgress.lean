import GsupMapProxy.Transport.Proofs.SessionsApart

/-!
# What keeps a server going

A session lives on its read: each handler of a read starts the next one. A server lives on its
accept in the same way, except that the handler of an accept that has failed starts none
(`IpaServer.cpp:51-55`): whatever the reason for the failure was, nobody gets in any more.
-/

namespace GsupMapProxy.Transport

open Misc Ipa

open scoped List

/-! ## Reads -/

namespace IpaSession

variable {t t' : IpaSession} {calls : List SessionCall}

theorem enqueue_reads (t : IpaSession) (frame : Bytes) : .asyncRead ∉ (t.enqueue frame).2 := by
  unfold enqueue doWrite
  dsimp only
  split
  · simp
  · split <;> simp

theorem onWritten_reads {ok : Bool} (h : t.onWritten ok = .ok (t', calls)) :
    .asyncRead ∉ calls := by
  unfold onWritten doWrite at h
  split at h
  · split at h
    · cases h
    · dsimp only at h
      split at h
      · cases h
        simp
      · cases h
        simp
  · split at h
    · cases h
      simp
    · cases h
      simp

theorem processFrame_reads {frame : IpaFrame} (h : t.processFrame frame = .ok (t', calls)) :
    .asyncRead ∉ calls := by
  by_cases hresp : frame.isCcm kCcmIdResp = true
  · rw [t.processFrame_idResp hresp] at h
    cases h
    simp [t.enqueue_reads ccmIdAck]
  · by_cases hping : frame.isCcm kCcmPing = true
    · rw [t.processFrame_ping hping] at h
      cases h
      exact t.enqueue_reads ccmPong
    · rw [t.processFrame_other hresp hping] at h
      cases h
      split <;> simp

theorem readTurn_reads (acc : IpaSession × List SessionCall) (frame : IpaFrame)
    (acc' : IpaSession × List SessionCall) (hacc : .asyncRead ∉ acc.2)
    (h : readTurn acc frame = .ok acc') : .asyncRead ∉ acc'.2 := by
  unfold readTurn at h
  split at h
  · rename_i t₁ calls₁ hframe
    cases h
    rw [List.mem_append, not_or]
    exact ⟨hacc, processFrame_reads hframe⟩
  · cases h

/-- The handler of a read starts one read if the session has not stopped, and none if it has. -/
theorem onRead_reads {chunk : Bytes} (h : t.onRead (some chunk) = .ok (t', calls)) :
    calls.count .asyncRead = if t'.state = .stopped then 0 else 1 := by
  obtain ⟨⟨acc, rest⟩, hpump, h⟩ := except_bind_eq_ok.mp h
  obtain ⟨frames, -, hfold⟩ := (pump_eq_ok_iff next_shrinking).mp hpump
  have hnone : .asyncRead ∉ acc.2 :=
    foldlM_invariant (P := fun acc : IpaSession × List SessionCall => .asyncRead ∉ acc.2)
      readTurn_reads (by simp) hfold
  cases h
  dsimp only
  by_cases hstopped : acc.1.state = .stopped
  · rw [if_neg (not_not.mpr hstopped), if_pos hstopped, List.count_eq_zero]
    exact hnone
  · rw [if_pos hstopped, if_neg hstopped, List.count_append, List.count_eq_zero.mpr hnone]
    rfl

end IpaSession

/-- A read whose handler has not run. -/
def SessionOp.read? : Pending SessionOp SessionHandler → Option Unit
  | .running .read => some ()
  | .ready (.read _) => some ()
  | _ => none

theorem SessionOp.read?_steady : SessionOp.Steady SessionOp.read? := by
  intro op handler h
  cases op with
  | read =>
    cases handler with
    | read result => rfl
    | written frame ok => cases h
    | enqueue frame => cases h
  | write frame =>
    cases handler with
    | written frame' ok => rfl
    | read result => cases h
    | enqueue frame => cases h

namespace SessionInput

/-- The reads whose handlers run in a step, and those it starts, if it leaves this session. -/
def readsDone : SessionInput → Nat
  | .run (.read _) => 1
  | _ => 0

def readsBegun (t' : IpaSession) : SessionInput → Nat
  | .start => 1
  | .run (.read (some _)) => if t'.state = .stopped then 0 else 1
  | _ => 0

theorem reads_cases (t' : IpaSession) (op : SessionInput) :
    op = .start ∨ (∃ result, op = .run (.read result)) ∨
      op.readsDone = 0 ∧ op.readsBegun t' = 0 := by
  cases op with
  | start => exact .inl rfl
  | run handler =>
    cases handler with
    | read result => exact .inr (.inl ⟨result, rfl⟩)
    | written frame ok => exact .inr (.inr ⟨rfl, rfl⟩)
    | enqueue frame => exact .inr (.inr ⟨rfl, rfl⟩)
  | stop => exact .inr (.inr ⟨rfl, rfl⟩)
  | sendGsup payload => exact .inr (.inr ⟨rfl, rfl⟩)
  | finish op' handler => exact .inr (.inr ⟨rfl, rfl⟩)

end SessionInput

namespace SessionLink

variable {s s' : SessionLink} {op : SessionInput} {outs : List SessionCall}

/-- The number of reads that are outstanding. -/
def reads (s : SessionLink) : Nat := (s.io.view SessionOp.read?).length

theorem length_reads (outs : List SessionCall) :
    (outs.filterMap fun call => call.op?.bind fun op => SessionOp.read? (.running op)).length =
      outs.count .asyncRead := by
  rw [List.length_filterMap_eq_countP, List.count]
  apply List.countP_congr
  intro call _
  cases call <;> simp [SessionCall.op?, SessionOp.read?]

/-- The reads a step starts. -/
theorem step_asyncReads (h : step s op = .ok (s', outs)) :
    outs.count .asyncRead = op.readsBegun s'.session := by
  cases op with
  | start =>
    rw [step, IpaSession.start_eq] at h
    cases h
    rw [List.count_append, List.count_eq_zero.mpr (s.session.enqueue_reads _)]
    rfl
  | stop =>
    cases h
    unfold IpaSession.stop
    split <;> rfl
  | sendGsup payload =>
    rw [step] at h
    split at h
    · cases h
      rfl
    · cases h
      rfl
  | finish op' handler =>
    cases h
    rfl
  | run handler =>
    obtain ⟨⟨t', calls⟩, hmethod, h⟩ := except_bind_eq_ok.mp h
    cases h
    cases handler with
    | read result =>
      cases result with
      | none =>
        rw [method, IpaSession.onRead] at hmethod
        split at hmethod
        · cases hmethod
          rfl
        · cases hmethod
          rfl
      | some chunk =>
        rw [after_session]
        exact IpaSession.onRead_reads hmethod
    | written frame ok => exact List.count_eq_zero.mpr (IpaSession.onWritten_reads hmethod)
    | enqueue frame =>
      have hcalls : (s.session.enqueue frame).2 = calls :=
        congrArg Prod.snd (Except.ok.inj hmethod)
      rw [← hcalls]
      exact List.count_eq_zero.mpr (s.session.enqueue_reads frame)

/-- What a step does to the reads. -/
theorem step_reads (hop : Possible s op) (h : step s op = .ok (s', outs)) :
    s'.reads + op.readsDone = s.reads + op.readsBegun s'.session := by
  obtain ⟨rest, hbefore, hafter⟩ := step_view SessionOp.read?_steady hop h
  have hbefore := hbefore.length_eq
  have hafter := hafter.length_eq
  have hposts : (op.posts?.bind fun handler => SessionOp.read? (.ready handler)).toList = [] := by
    cases op with
    | sendGsup payload =>
      rw [SessionInput.posts?]
      cases IpaSession.sendGsup payload <;> rfl
    | _ => rfl
  have htaken : (op.handler?.bind fun handler => SessionOp.read? (.ready handler)).toList.length =
      op.readsDone := by
    cases op with
    | run handler => cases handler <;> rfl
    | _ => rfl
  rw [List.length_append, htaken] at hbefore
  rw [List.length_append, List.length_append, hposts, length_reads, List.length_nil,
    step_asyncReads h] at hafter
  unfold reads
  omega

/-- Only a frame that is read can make a session run that has stopped. -/
theorem Turn.running {t' : IpaSession} (h : Turn s t' outs op) (hrunning : t'.state ≠ .stopped) :
    s.session.state ≠ .stopped ∨ ∃ chunk, op = .run (.read (some chunk)) := by
  rcases h.tells_or_ceases with ⟨-, htells⟩ | ⟨-, hceases⟩
  · by_cases hread : ∃ chunk, op = .run (.read (some chunk))
    · exact .inr hread
    · have hsilent : s.framesRead op = [] := by
        unfold framesRead
        split
        · exact absurd ⟨_, rfl⟩ hread
        · rfl
      rw [hsilent] at htells
      rw [htells.state] at hrunning
      exact .inl (by simpa [IpaSession.stateAfter] using hrunning)
  · exact absurd hceases.quiet.1 hrunning

/-- A session that has been started and has not stopped has one read outstanding, and never a
second one. -/
structure ReadsOn (s : SessionLink) : Prop where
  fresh : s.started = false → s.io = []
  once : s.reads ≤ 1
  running : s.started = true → s.session.state ≠ .stopped → s.reads = 1

theorem ReadsOn.of_started (hstarted : s.started = true) (honce : s.reads ≤ 1)
    (hrunning : s.session.state ≠ .stopped → s.reads = 1) : ReadsOn s where
  fresh := by
    intro hfresh
    rw [hstarted] at hfresh
    cases hfresh
  once := honce
  running := fun _ => hrunning

theorem step_readsOn (hinv : ReadsOn s) (hop : Possible s op)
    (h : step s op = .ok (s', outs)) : ReadsOn s' := by
  have hreads := step_reads hop h
  have hturn := step_turn h
  by_cases hfresh : s.started = false
  · -- the first thing that can happen to a session is its start
    have hio := hinv.fresh hfresh
    obtain rfl := possible_fresh hfresh hio hop
    have hzero : s.reads = 0 := by
      rw [reads, hio]
      rfl
    have hone : s'.reads = 1 := by
      rw [hzero] at hreads
      exact hreads
    exact .of_started ((step_started h).mpr (.inr rfl)) (by omega) fun _ => hone
  · have hstarted : s.started = true := by simpa using hfresh
    have hstarted' : s'.started = true := (step_started h).mpr (.inl hstarted)
    have honce := hinv.once
    rcases SessionInput.reads_cases s'.session op with rfl | ⟨result, rfl⟩ | ⟨hdone, hbegun⟩
    · rw [Possible, hstarted] at hop
      cases hop
    · have hpos : 1 ≤ s.reads := List.length_pos_of_mem (Proactor.mem_view.mpr ⟨_, hop, rfl⟩)
      rw [SessionInput.readsDone] at hreads
      cases result with
      | none =>
        have hbegun : SessionInput.readsBegun s'.session (.run (.read none)) = 0 := rfl
        rw [hbegun] at hreads
        refine .of_started hstarted' (by omega) fun hrunning => ?_
        rcases hturn.tells_or_ceases with ⟨hnot, -⟩ | ⟨-, hceases⟩
        · cases hnot
        · exact absurd hceases.quiet.1 hrunning
      | some chunk =>
        rw [SessionInput.readsBegun] at hreads
        refine .of_started hstarted' ?_ fun hrunning => ?_
        · split at hreads <;> omega
        · rw [if_neg hrunning] at hreads
          omega
    · rw [hdone, hbegun] at hreads
      refine .of_started hstarted' (by omega) fun hrunning => ?_
      rcases hturn.running hrunning with hbefore | ⟨chunk, rfl⟩
      · have := hinv.running hstarted hbefore
        omega
      · cases hdone

theorem run_readsOn {clientId : ClientId} {events : List SessionEvent}
    (hrun : SessionRun clientId events s) : ReadsOn s := by
  refine hrun.invariant ?_ fun s op s' outs hinv hop hstep => step_readsOn hinv hop hstep
  exact ⟨fun _ => rfl, Nat.zero_le 1, fun h => by cases h⟩

end SessionLink

namespace ServerLink

variable {s s' : ServerLink} {object : Nat} {session : IpaSession}

/-- A read of a session whose handler has not run. -/
def isReadOf (object : Nat) : Pending SgsnOp SgsnHandler → Bool
  | .running (.read object') => object' = object
  | .ready (.read object' _) => object' = object
  | _ => false

theorem reads_part (s : ServerLink) (object : Nat) (session : IpaSession) :
    (s.part object session).reads = s.io.countP (isReadOf object) := by
  rw [SessionLink.reads, Proactor.view, List.length_filterMap_eq_countP, part, Proactor.view,
    List.countP_filterMap]
  apply List.countP_congr
  intro item _
  cases item with
  | running op =>
    cases op with
    | accept => rfl
    | read object' =>
      by_cases heq : object' = object <;> simp [SgsnOp.own, isReadOf, SessionOp.read?, heq]
    | write object' frame =>
      by_cases heq : object' = object <;> simp [SgsnOp.own, isReadOf, SessionOp.read?, heq]
  | ready handler =>
    cases handler with
    | accepted result => rfl
    | send payload clientId => rfl
    | read object' result =>
      by_cases heq : object' = object <;> simp [SgsnOp.own, isReadOf, SessionOp.read?, heq]
    | written object' frame ok =>
      by_cases heq : object' = object <;> simp [SgsnOp.own, isReadOf, SessionOp.read?, heq]
    | enqueue object' frame =>
      by_cases heq : object' = object <;> simp [SgsnOp.own, isReadOf, SessionOp.read?, heq]

/-- Whatever the server does, a session that has not stopped has one read outstanding; no session
ever has two. -/
theorem sessions_keep_reading {events : List ServerEvent} (hrun : ServerRun events s)
    (hsession : s.server.objects.lookup object = some session) :
    s.io.countP (isReadOf object) ≤ 1 ∧
      (session.state ≠ .stopped → s.io.countP (isReadOf object) = 1) := by
  obtain ⟨own, hown, -, -⟩ := sessions_run_apart hrun hsession
  have hreads := SessionLink.run_readsOn hown
  rw [← reads_part s object session]
  exact ⟨hreads.once, hreads.running rfl⟩

/-- The first client has gone and been forgotten, and the second one is still being read from. -/
theorem second_session_reads :
    ∃ events s, ServerRun events s ∧ s.server.allSessions.lookup 1 = none ∧
      (s.server.objects.lookup 1).map IpaSession.state = some .ready ∧
      s.io.countP (isReadOf 1) = 1 := by
  obtain ⟨result, hplay, hgone, session, hsession, hready⟩ : ∃ result,
      played ([.start] ++ handshake 0 [] ++ handshake 1 [1] ++
        [.finish (.read 0) (.read 0 none), .run (.read 0 none) [1, 2]]) = some result ∧
      result.2.server.allSessions.lookup 1 = none ∧
      ∃ session, result.2.server.objects.lookup 1 = some session ∧ session.state = .ready :=
    ⟨_, rfl, rfl, _, rfl, rfl⟩
  have hrun := run_of_played hplay
  refine ⟨_, _, hrun, hgone, by rw [hsession]; exact congrArg some hready, ?_⟩
  exact (sessions_keep_reading hrun hsession).2 (by rw [hready]; decide)

/-! ## Accepts -/

/-- An accept whose handler has not run. -/
def accept? : Pending SgsnOp SgsnHandler → Option Unit
  | .running .accept => some ()
  | .ready (.accepted _) => some ()
  | _ => none

/-- The number of accepts that are outstanding. -/
def accepts (s : ServerLink) : Nat := (s.io.view accept?).length

theorem accepts_acceptNext (s : ServerLink) : s.acceptNext.accepts = s.accepts + 1 := by
  unfold acceptNext accepts
  split
  · simp [accept?]
  · simp [accept?]

theorem accepts_beginOnSocket {op : SgsnOp} {failed : SgsnHandler}
    (hop : accept? (.running op) = none) (hfailed : accept? (.ready failed) = none) :
    (s.beginOnSocket object op failed).accepts = s.accepts := by
  unfold beginOnSocket accepts
  split
  · simp [hfailed]
  · simp [hop]

theorem accepts_closeSocket (s : ServerLink) (object : Nat) :
    (s.closeSocket object).accepts = s.accepts := by
  have hio : (s.io.cancel (SgsnOp.closed object)).view accept? = s.io.view accept? := by
    apply Proactor.view_cancel_eq
    intro op handler h
    cases op with
    | accept => cases h
    | read object' =>
      simp only [SgsnOp.closed] at h
      split at h
      · cases h
        rfl
      · cases h
    | write object' frame =>
      simp only [SgsnOp.closed] at h
      split at h
      · cases h
        rfl
      · cases h
  exact congrArg List.length hio

theorem accepts_performSessions (id : ClientId) (calls : List SessionCall) (s : ServerLink) :
    (calls.foldl (performSession object id) s).accepts = s.accepts := by
  refine List.foldlRecOn (motive := fun s' : ServerLink => s'.accepts = s.accepts) calls _ rfl ?_
  intro s' h call _
  cases call with
  | asyncRead => exact (accepts_beginOnSocket rfl rfl).trans h
  | asyncWrite frame => exact (accepts_beginOnSocket rfl rfl).trans h
  | closeSocket => exact (accepts_closeSocket s' object).trans h
  | onReady => exact h
  | onGsup payload => exact h
  | onDisconnect => exact h

theorem runSession_accepts {method : IpaSession → Except Fault (IpaSession × List SessionCall)}
    {calls : List ServerCall} (h : s.runSession object method = .ok (s', calls)) :
    s'.accepts = s.accepts ∧ s'.server.accepted = s.server.accepted := by
  unfold runSession at h
  split at h
  · cases h
  · obtain ⟨⟨session', own⟩, -, h⟩ := except_bind_eq_ok.mp h
    cases h
    refine ⟨accepts_performSessions _ own _, ?_⟩
    rw [performSessions_server]
    refine List.foldlRecOn (motive := fun server' : IpaServer =>
      server'.accepted = s.server.accepted) own _ rfl ?_
    intro server' h call _
    cases call with
    | onReady =>
      rw [IpaServer.afterCall, IpaServer.onSessionReady_eq]
      exact h
    | _ => exact h

theorem accepts_stop (order : List ClientId) : (s.stop order).accepts = s.accepts := by
  have hio : (s.io.cancel SgsnOp.acceptorClosed).view accept? = s.io.view accept? := by
    apply Proactor.view_cancel_eq
    intro op handler h
    cases op with
    | accept =>
      cases h
      rfl
    | read object' => cases h
    | write object' frame => cases h
  unfold stop
  dsimp only
  refine List.foldlRecOn (motive := fun s' : ServerLink => s'.accepts = s.accepts) _ _ ?_ ?_
  · exact congrArg List.length hio
  · intro s' h object _
    exact (accepts_closeSocket s' object).trans h

theorem accepted_stop (order : List ClientId) :
    (s.stop order).server.accepted = s.server.accepted := by
  rw [stop_server]
  unfold IpaServer.stop
  dsimp only
  refine List.foldlRecOn (motive := fun server' : IpaServer =>
    server'.accepted = s.server.accepted) order _ rfl ?_
  intro server' h id _
  split
  · exact h
  · split
    · exact h
    · exact h

theorem accepts_finish {op : SgsnOp} {handler : SgsnHandler} (hrunning : .running op ∈ s.io)
    (hcompletes : op.completesAs handler = true) :
    accepts { s with io := s.io.finish op handler } = s.accepts := by
  have hseen : accept? (.ready handler) = accept? (.running op) := by
    unfold SgsnOp.completesAs at hcompletes
    split at hcompletes
    · rfl
    · rfl
    · rfl
    · rfl
    · cases hcompletes
  obtain ⟨rest, hbefore, hafter⟩ := Proactor.perm_view_finish (v := accept?) hrunning handler
  rw [hseen] at hafter
  exact hafter.length_eq.trans hbefore.length_eq.symm

theorem accepts_taking {handler : SgsnHandler} (hready : .ready handler ∈ s.io) :
    s.accepts = (accept? (.ready handler)).toList.length +
      accepts { s with io := s.io.take handler } := by
  have hperm := (Proactor.perm_view_take (v := accept?) hready).length_eq
  rwa [List.length_append] at hperm

theorem accepts_posts {frame : Bytes} (objects : List Nat) (io : Proactor SgsnOp SgsnHandler) :
    ((objects.map (SgsnHandler.enqueue · frame)).foldl Proactor.post io).view accept? =
      io.view accept? := by
  induction objects generalizing io with
  | nil => rfl
  | cons first objects ih =>
    rw [List.map_cons, List.foldl_cons, ih]
    simp [accept?]

end ServerLink

namespace ServerInput

/-- The accepts a step has failed, and those it starts beside the one it has handled. -/
def acceptsFailed : ServerInput → Nat
  | .run (.accepted .failed) _ => 1
  | _ => 0

def acceptsBegun : ServerInput → Nat
  | .start => 1
  | _ => 0

end ServerInput

namespace ServerLink

variable {s s' : ServerLink} {input : ServerInput} {calls : List ServerCall}
  {events : List ServerEvent}

/-- Only `start` adds an accept, only a failure takes one away, and only a success adds a
session. -/
theorem step_accepts (hop : s.Possible input) (hstep : s.step input = .ok (s', calls)) :
    s'.accepts + input.acceptsFailed = s.accepts + input.acceptsBegun ∧
      (s'.server.accepted = s.server.accepted ∨
        ∃ order, input = .run (.accepted .connected) order) := by
  cases input with
  | start =>
    cases hstep
    exact ⟨accepts_acceptNext s, .inl (by rw [start, acceptNext_server])⟩
  | stop order =>
    cases hstep
    exact ⟨accepts_stop order, .inl (accepted_stop order)⟩
  | send payload clientId =>
    cases hstep
    refine ⟨?_, .inl rfl⟩
    show ((s.io.post (.send payload clientId)).view accept?).length = _
    rw [Proactor.view_post]
    simp [accept?, accepts, ServerInput.acceptsBegun]
  | finish op handler =>
    cases hstep
    exact ⟨accepts_finish hop.1 hop.2, .inl rfl⟩
  | run handler order =>
    have htaking := accepts_taking hop.1
    have hsession : ∀ {object : Nat}
        {method : IpaSession → Except Fault (IpaSession × List SessionCall)},
        accept? (.ready handler) = none → (ServerInput.run handler order).acceptsFailed = 0 →
        ({ s with io := s.io.take handler } : ServerLink).runSession object method =
          .ok (s', calls) →
        s'.accepts + (ServerInput.run handler order).acceptsFailed = s.accepts ∧
          s'.server.accepted = s.server.accepted := by
      intro object method hnone hfailed hrun
      obtain ⟨haccepts, haccepted⟩ := runSession_accepts hrun
      rw [hnone] at htaking
      rw [hfailed, haccepts, htaking]
      simp [haccepted]
    cases handler with
    | accepted result =>
      cases result with
      | reset => cases hstep
      | failed =>
        cases hstep
        refine ⟨?_, .inl rfl⟩
        simp only [accept?, Option.toList_some, List.length_singleton] at htaking
        simp only [ServerInput.acceptsFailed, ServerInput.acceptsBegun]
        omega
      | connected =>
        obtain ⟨⟨s₁, calls₁⟩, hrun, hstep⟩ := except_bind_eq_ok.mp hstep
        cases hstep
        refine ⟨?_, .inr ⟨order, rfl⟩⟩
        have haccepts := (runSession_accepts hrun).1
        rw [accepts_acceptNext, haccepts, htaking]
        show accepts { s with io := s.io.take (.accepted .connected) } + 1 =
          1 + accepts { s with io := s.io.take (.accepted .connected) }
        exact Nat.add_comm _ _
    | send payload clientId =>
      obtain ⟨handlers, hposted, hstep⟩ := except_bind_eq_ok.mp hstep
      cases hstep
      refine ⟨?_, .inl rfl⟩
      cases hresult : (IpaServer.sendEach payload (s.server.recipients order clientId)).2 with
      | error e =>
        rw [hresult] at hposted
        cases hposted
      | ok handlers' =>
        rw [hresult] at hposted
        cases hposted
        obtain ⟨frame, rfl, -⟩ := sendEach_ok hresult
        show (Proactor.view accept? (List.foldl Proactor.post _ _)).length = _
        rw [accepts_posts]
        simpa [accept?, accepts, ServerInput.acceptsBegun] using htaking.symm
    | read object result =>
      obtain ⟨haccepts, haccepted⟩ := hsession rfl rfl hstep
      exact ⟨haccepts, .inl haccepted⟩
    | written object frame ok =>
      obtain ⟨haccepts, haccepted⟩ := hsession rfl rfl hstep
      exact ⟨haccepts, .inl haccepted⟩
    | enqueue object frame =>
      obtain ⟨haccepts, haccepted⟩ := hsession rfl rfl hstep
      exact ⟨haccepts, .inl haccepted⟩

/-- How often `start` was called, and how many accepts have failed. -/
def starts (events : List ServerEvent) : Nat := (events.map fun e => e.op.acceptsBegun).sum

def failures (events : List ServerEvent) : Nat := (events.map fun e => e.op.acceptsFailed).sum

theorem starts_snoc (events : List ServerEvent) (e : ServerEvent) :
    starts (events ++ [e]) = starts events + e.op.acceptsBegun := by
  simp [starts]

theorem failures_snoc (events : List ServerEvent) (e : ServerEvent) :
    failures (events ++ [e]) = failures events + e.op.acceptsFailed := by
  simp [failures]

theorem run_accepts (hrun : ServerRun events s) : s.accepts + failures events = starts events := by
  refine hrun.history (I := fun events s => s.accepts + failures events = starts events)
    (C := fun _ => True) (fun _ _ => trivial) rfl ?_
  intro events s op outs s' hinv hop hstep _
  have hstep := (step_accepts hop hstep).1
  rw [starts_snoc, failures_snoc]
  dsimp only
  omega

/-- A server that was started once has an accept outstanding until one fails; from the failure on,
no session is ever added again. -/
theorem first_failure_ends_accepting (hrun : ServerRun events s) (hstarted : starts events = 1) :
    s.accepts + failures events = 1 ∧
      ∀ earlier e later, events = earlier ++ e :: later → e.op.acceptsFailed = 1 →
        s.server.accepted = e.pre.server.accepted := by
  refine ⟨(run_accepts hrun).trans hstarted, ?_⟩
  have hle : starts events ≤ 1 := by omega
  clear hstarted
  induction hrun with
  | nil =>
    intro earlier e later heq
    simp at heq
  | @snoc events s s' outs before op hop hstep ih =>
    intro earlier e later heq hfailed
    obtain ⟨-, haccepted⟩ := step_accepts hop hstep
    rcases List.eq_nil_or_concat later with rfl | ⟨later', last, rfl⟩
    · -- the failure itself adds no session
      obtain ⟨rfl, hlast⟩ := List.append_inj' heq rfl
      cases hlast
      rcases haccepted with haccepted | ⟨order, rfl⟩
      · exact haccepted
      · cases hfailed
    · rw [List.concat_eq_append, ← List.cons_append, ← List.append_assoc] at heq
      obtain ⟨rfl, hlast⟩ := List.append_inj' heq rfl
      cases hlast
      rw [starts_snoc] at hle
      have hbefore := ih (by omega) earlier e later' rfl hfailed
      have hbalance := run_accepts before
      have hfailures : 1 ≤ failures (earlier ++ e :: later') := by
        simp only [failures, List.map_append, List.map_cons, List.sum_append, List.sum_cons]
        omega
      rcases haccepted with haccepted | ⟨order, rfl⟩
      · rw [haccepted, hbefore]
      · -- there is no accept left that could succeed
        have hnone : s.accepts = 0 := by omega
        have hmem : () ∈ s.io.view accept? :=
          Proactor.mem_view.mpr ⟨.ready (.accepted .connected), hop.1, rfl⟩
        have hpos : 0 < s.accepts := List.length_pos_of_mem hmem
        omega

/-- One client is there when an accept fails; nothing is left then that could let in a second. -/
theorem failed_accept_closes_door :
    ∃ events s, ServerRun events s ∧ starts events = 1 ∧ s.listening = true ∧
      s.server.accepted = 1 ∧ s.accepts = 0 := by
  obtain ⟨result, hplay, hstarts, hfailures, hlistening, haccepted⟩ : ∃ result,
      played ([.start] ++ handshake 0 [] ++
        [.finish .accept (.accepted .failed), .run (.accepted .failed) [1]]) = some result ∧
      starts result.1 = 1 ∧ failures result.1 = 1 ∧ result.2.listening = true ∧
      result.2.server.accepted = 1 :=
    ⟨_, rfl, rfl, rfl, rfl, rfl⟩
  have hrun := run_of_played hplay
  have hbalance := (first_failure_ends_accepting hrun hstarts).1
  exact ⟨_, _, hrun, hstarts, hlistening, haccepted, by omega⟩

end ServerLink

end GsupMapProxy.Transport
