import GsupMapProxy.Transport.Proofs.SessionTurns

/-!
# Sessions that have stopped

A session stops in three places, and each asks whether it has not stopped already. The read handler
does not ask before it takes frames, and `handleCcm` sets the state whatever it was. An error of a
write leaves the socket open and the read outstanding; when that read brings an ID_RESP, the
session is ready again, and it may disconnect a second time.
-/

namespace GsupMapProxy.Transport

open Misc Ipa IpaSession

namespace SessionLink

/-- How often `onDisconnect` has been called. -/
def disconnects (events : List SessionEvent) : Nat :=
  (events.flatMap Event.outs).count .onDisconnect

/-- Once the session has stopped it stays so, and neither `onReady` nor `onGsup` is called any more.
`onDisconnect` is called at most once altogether. -/
structure StaysStopped (events : List SessionEvent) : Prop where
  stopped : ∀ (i j : Nat) (e e' : SessionEvent), i < j →
    events[i]? = some e → events[j]? = some e' → e.post.session.state = .stopped →
    e'.post.session.state = .stopped ∧ .onReady ∉ e'.outs ∧ ∀ payload, .onGsup payload ∉ e'.outs
  disconnect : disconnects events ≤ 1

/-- The session has stopped, and an ID_RESP is among the frames the step reads. -/
def Revives (s : SessionLink) (op : SessionInput) : Prop :=
  s.session.state = .stopped ∧ ∃ frame ∈ s.framesRead op, frame.isCcm kCcmIdResp = true

instance (s : SessionLink) (op : SessionInput) : Decidable (s.Revives op) :=
  inferInstanceAs (Decidable (_ ∧ _))

variable {s s' : SessionLink} {op : SessionInput} {outs : List SessionCall}

/-- A step of a session that has stopped leaves it so, if there is no ID_RESP. -/
theorem step_stopped (h : step s op = .ok (s', outs)) (hstopped : s.session.state = .stopped)
    (hnot : ¬ Revives s op) :
    s'.session.state = .stopped ∧ .onReady ∉ outs ∧ ∀ payload, .onGsup payload ∉ outs := by
  have hnone : (s.framesRead op).any (·.isCcm kCcmIdResp) = false := by
    rw [← Bool.not_eq_true, List.any_eq_true]
    exact fun hresp => hnot ⟨hstopped, hresp⟩
  rcases (step_turn h).tells_or_ceases with ⟨-, htells⟩ | ⟨-, hceases⟩
  · refine ⟨?_, ?_, ?_⟩
    · rw [htells.state, stateAfter, hnone, hstopped]
      rfl
    · rw [htells.ready, hnone]
      exact Bool.false_ne_true
    · intro payload hgsup
      have hmem : payload ∈ outs.filterMap SessionCall.gsup? :=
        List.mem_filterMap.mpr ⟨_, hgsup, rfl⟩
      rw [htells.delivered, hstopped, delivers_before (by decide) hnone] at hmem
      cases hmem
  · exact hceases.quiet

/-- An ID_RESP makes the session ready, also if it has stopped. -/
theorem step_revives (h : step s op = .ok (s', outs)) (hrevives : Revives s op) :
    s'.session.state = .ready := by
  obtain ⟨-, frame, hframe, hresp⟩ := hrevives
  rcases (step_turn h).tells_or_ceases with ⟨-, htells⟩ | ⟨hceases, -⟩
  · rw [htells.state, stateAfter, if_pos (List.any_eq_true.mpr ⟨frame, hframe, hresp⟩)]
  · -- a step that stops the session reads nothing
    rcases SessionInput.ceases_cases hceases with rfl | rfl | ⟨written, rfl⟩
    · cases hframe
    · cases hframe
    · cases hframe

/-! ## Disconnects -/

/-- A call of `onDisconnect` has stopped the session. -/
def ReportsOnce (events : List SessionEvent) (s : SessionLink) : Prop :=
  disconnects events ≤ 1 ∧ (disconnects events = 1 → s.session.state = .stopped)

theorem disconnects_snoc (events : List SessionEvent) (e : SessionEvent) :
    disconnects (events ++ [e]) = disconnects events + e.outs.count .onDisconnect := by
  rw [disconnects, List.flatMap_append, List.count_append, List.flatMap_singleton, disconnects]

theorem step_reportsOnce {events : List SessionEvent} (hinv : ReportsOnce events s)
    (h : step s op = .ok (s', outs)) (hnot : ¬ Revives s op) :
    ReportsOnce (events ++ [⟨s, op, outs, s'⟩]) s' := by
  obtain ⟨hle, hone⟩ := hinv
  rw [ReportsOnce, disconnects_snoc]
  dsimp only
  by_cases hstopped : s.session.state = .stopped
  · have hstays := (step_stopped h hstopped hnot).1
    refine ⟨?_, fun _ => hstays⟩
    have hsilent : outs.count .onDisconnect = 0 := by
      rw [List.count_eq_zero]
      rcases (step_turn h).tells_or_ceases with ⟨-, htells⟩ | ⟨-, hceases⟩
      · exact htells.connected
      · exact hceases.silent_of_stopped hstopped
    omega
  · have hnone : disconnects events = 0 := by
      by_contra hne
      exact hstopped (hone (by omega))
    rw [hnone, Nat.zero_add]
    rcases (step_turn h).tells_or_ceases with ⟨-, htells⟩ | ⟨-, hceases⟩
    · have hsilent : outs.count .onDisconnect = 0 := List.count_eq_zero.mpr htells.connected
      omega
    · exact ⟨hceases.count_le, fun _ => hceases.quiet.1⟩

/-- A session stays stopped in exactly those runs in which no ID_RESP is read after it has
stopped. -/
theorem stays_stopped_iff {clientId : ClientId} {events : List SessionEvent}
    (hrun : SessionRun clientId events s) :
    StaysStopped events ↔ ∀ e ∈ events, ¬ Revives e.pre e.op := by
  have hstep : ∀ e ∈ events, step e.pre e.op = .ok (e.post, e.outs) := by
    intro e he
    obtain ⟨i, hi⟩ := List.mem_iff_getElem?.mp he
    exact (hrun.event hi).2
  constructor
  · intro hstays e he hrevives
    obtain ⟨j, hj⟩ := List.mem_iff_getElem?.mp he
    have hready := step_revives (hstep e he) hrevives
    cases j with
    | zero =>
      -- a new session has not stopped
      have hfirst := hrun.before hj
      have hstopped := hrevives.1
      rw [hfirst.eq_start] at hstopped
      cases hstopped
    | succ i =>
      obtain ⟨last, hlast⟩ : ∃ last, events[i]? = some last :=
        ⟨_, List.getElem?_eq_getElem (Nat.lt_of_succ_lt (Run.getElem?_lt hj))⟩
      have hstopped : last.post.session.state = .stopped := by
        rw [← hrun.pre_eq_post hlast hj]
        exact hrevives.1
      have hpost := (hstays.stopped i (i + 1) last e (Nat.lt_succ_self i) hlast hj hstopped).1
      rw [hready] at hpost
      cases hpost
  · intro hnot
    refine ⟨?_, ?_⟩
    · intro i j e e' hlt he he' hpost
      have hkeeps : ∀ e ∈ events, e.pre.session.state = .stopped →
          e.post.session.state = .stopped :=
        fun e he hpre => (step_stopped (hstep e he) hpre (hnot e he)).1
      have hmem' := List.mem_of_getElem? he'
      have hpre := hrun.stays (P := fun s => s.session.state = .stopped) hkeeps hlt he he' hpost
      exact step_stopped (hstep e' hmem') hpre (hnot e' hmem')
    · refine (hrun.history (I := ReportsOnce) (C := fun e => ¬ Revives e.pre e.op) hnot ?_ ?_).1
      · exact ⟨Nat.zero_le _, fun h => by cases h⟩
      · intro events s op outs s' hinv _ hstep hnot
        exact step_reportsOnce hinv hstep hnot

/-- The write of the ID_REQ fails while a read is outstanding. -/
def writeFails : List SessionInput :=
  [.start, .finish (.write ccmIdReq) (.written ccmIdReq false), .run (.written ccmIdReq false)]

/-- The read brings a PING: it is answered, but the session stays stopped. -/
theorem ping_after_stop :
    ∃ events s, SessionRun 1 events s ∧ s.session.state = .stopped ∧
      s.session.writeQueue = [ccmIdReq, ccmPong] ∧ StaysStopped events := by
  obtain ⟨result, hplay, hstopped, hqueue, hnot⟩ : ∃ result,
      played (writeFails ++
        [.finish .read (.read (some (IpaFrame.wire ⟨kStreamCcm, [kCcmPing]⟩))),
          .run (.read (some (IpaFrame.wire ⟨kStreamCcm, [kCcmPing]⟩)))]) = some result ∧
      result.2.session.state = .stopped ∧ result.2.session.writeQueue = [ccmIdReq, ccmPong] ∧
      ∀ e ∈ result.1, ¬ Revives e.pre e.op :=
    ⟨_, rfl, rfl, rfl, by decide⟩
  have hrun := run_of_played hplay
  exact ⟨_, _, hrun, hstopped, hqueue, (stays_stopped_iff hrun).mpr hnot⟩

/-- The read brings an ID_RESP: the session has stopped, but becomes ready. -/
theorem ready_after_stop :
    ¬ ∀ clientId events s, SessionRun clientId events s → StaysStopped events := by
  intro h
  obtain ⟨result, e, e', hplay, he, he', hstopped, hready⟩ : ∃ result e e',
      played (writeFails ++
        [.finish .read (.read (some (IpaFrame.wire ⟨kStreamCcm, [kCcmIdResp]⟩))),
          .run (.read (some (IpaFrame.wire ⟨kStreamCcm, [kCcmIdResp]⟩)))]) = some result ∧
      result.1[2]? = some e ∧ result.1[4]? = some e' ∧ e.post.session.state = .stopped ∧
      e'.post.session.state = .ready :=
    ⟨_, _, _, rfl, rfl, rfl, rfl, rfl⟩
  have hstays := h _ _ _ (run_of_played hplay)
  have hpost := (hstays.stopped 2 4 e e' (by decide) he he' hstopped).1
  rw [hready] at hpost
  cases hpost

end SessionLink

end GsupMapProxy.Transport
