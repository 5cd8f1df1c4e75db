import GsupMapProxy.Transport.Proofs.MapLink

/-!
# Reports of lost connections

A failed read and a failed write do the same: they tear the connection down, call `disconnectCb_`
and schedule the next connection. Closing the socket in one makes the other fail too, and nothing
keeps it from doing all of it again. Where no handler of an earlier connection comes late, every
lost connection is reported exactly once.
-/

namespace GsupMapProxy.Transport

open Misc

open scoped List

namespace MapLink

variable {s s' : MapLink} {op : LinkInput} {outs : List MapCall} {events : List LinkEvent}

/-! ## Counting -/

/-- The epoch of the read or write whose completion is handled. -/
def transferOf : LinkInput → Option Nat
  | .run (.read epoch _) _ => some epoch
  | .run (.written epoch _ _) _ => some epoch
  | _ => none

/-- How often a kind of call was made when reads and writes of the epoch were handled. -/
def callsOf (kind : MapCall → Bool) (events : List LinkEvent) (epoch : Nat) : Nat :=
  (events.map fun e => if transferOf e.op = some epoch then e.outs.countP kind else 0).sum

def isReport : MapCall → Bool
  | .disconnectCb => true
  | _ => false

def isReconnect : MapCall → Bool
  | .armReconnect _ => true
  | _ => false

theorem callsOf_snoc (kind : MapCall → Bool) (e : LinkEvent) (epoch : Nat) :
    callsOf kind (events ++ [e]) epoch = callsOf kind events epoch +
      if transferOf e.op = some epoch then e.outs.countP kind else 0 := by
  simp [callsOf]

/-- A read or write of the epoch completes with an error, and this is handled. -/
def Fails (op : LinkInput) (epoch : Nat) : Prop :=
  ∃ attempt, op = .run (.read epoch none) attempt ∨
    ∃ frame, op = .run (.written epoch frame false) attempt

theorem Fails.transferOf {epoch : Nat} (h : Fails op epoch) : transferOf op = some epoch := by
  obtain ⟨attempt, rfl | ⟨frame, rfl⟩⟩ := h
  · rfl
  · rfl

/-- `onConnect` without an error. -/
def Established (events : List LinkEvent) (epoch : Nat) : Prop :=
  ∃ e ∈ events, ∃ attempt, e.op = .run (.connected epoch true) attempt

/-- A read or write of the epoch has failed, and `stop` had not been called before. -/
def Lost (events : List LinkEvent) (epoch : Nat) : Prop :=
  ∃ before e after, events = before ++ e :: after ∧ Fails e.op epoch ∧ ∀ e' ∈ before, e'.op ≠ .stop

/-- Every established connection that is lost is reported once, and the next is scheduled once;
no other is reported. -/
structure ReportedOnce (events : List LinkEvent) : Prop where
  lost : ∀ epoch, Established events epoch → Lost events epoch →
    callsOf isReport events epoch = 1 ∧ callsOf isReconnect events epoch = 1
  unestablished : ∀ epoch, ¬ Established events epoch → callsOf isReport events epoch = 0
  attributed : ∀ e ∈ events, .disconnectCb ∈ e.outs → ∃ epoch, transferOf e.op = some epoch

/-- What is handled belongs to the connection there is, unless it is a failed read or write after
`stop`. -/
def HandlesCurrent (s : MapLink) : LinkInput → Prop
  | .run (.connected epoch true) _ => epoch = s.epoch
  | .run (.read epoch (some _)) _ => epoch = s.epoch
  | .run (.read epoch none) _ => s.transport.state ≠ .stopped → epoch = s.epoch
  | .run (.written epoch _ true) _ => epoch = s.epoch
  | .run (.written epoch _ false) _ => s.transport.state ≠ .stopped → epoch = s.epoch
  | _ => True

instance (s : MapLink) (op : LinkInput) : Decidable (s.HandlesCurrent op) :=
  match op with
  | .run (.connected epoch true) _ | .run (.read epoch (some _)) _
  | .run (.written epoch _ true) _ => inferInstanceAs (Decidable (epoch = s.epoch))
  | .run (.read epoch none) _ | .run (.written epoch _ false) _ =>
      inferInstanceAs (Decidable (s.transport.state ≠ .stopped → epoch = s.epoch))
  | .start | .stop | .send _ | .finish _ _ | .run (.connected _ false) _
  | .run (.reconnectTimer _) _ | .run (.beatTimer _ _) _ | .run (.connectFailed _) _
  | .run (.send _) _ => .isTrue trivial

/-! ## One step -/

theorem isLocal_kinds {c : MapCall} (h : c.IsLocal) :
    isReport c = false ∧ isReconnect c = false := by
  cases c <;> simp_all [MapCall.IsLocal, isReport, isReconnect]

theorem countP_local {calls : List MapCall} (h : ∀ c ∈ calls, c.IsLocal) :
    calls.countP isReport = 0 ∧ calls.countP isReconnect = 0 := by
  constructor
  · rw [List.countP_eq_zero]
    intro c hc
    simp [isLocal_kinds (h c hc)]
  · rw [List.countP_eq_zero]
    intro c hc
    simp [isLocal_kinds (h c hc)]

/-- A failed read or write that is handled before `stop` reports once and schedules once. -/
structure Reports (s : MapLink) (op : LinkInput) (outs : List MapCall) (s' : MapLink)
    (epoch : Nat) : Prop where
  fails : Fails op epoch
  fresh : s'.epoch = s.epoch + 1
  running : s.transport.state ≠ .stopped
  pending : epoch ∈ s.transfers
  reports : outs.countP isReport = 1
  reconnects : outs.countP isReconnect = 1

/-- Nothing else reports anything, and no other read or write schedules anything. -/
structure Silent (s : MapLink) (op : LinkInput) (outs : List MapCall) : Prop where
  reports : outs.countP isReport = 0
  reconnects : transferOf op ≠ none → outs.countP isReconnect = 0
  fails : ∀ epoch, Fails op epoch → s.transport.state = .stopped

theorem Silent.of_transferOf (htransfer : transferOf op = none)
    (hreports : outs.countP isReport = 0) : Silent s op outs := by
  refine ⟨hreports, fun h => absurd htransfer h, ?_⟩
  intro epoch hfails
  rw [hfails.transferOf] at htransfer
  cases htransfer

theorem stopped_of_fails {handler : HlrHandler} {attempt : ConnectAttempt} {epoch : Nat}
    (hbegins : beginsEpoch s.transport handler = false)
    (h : Fails (.run handler attempt) epoch) : s.transport.state = .stopped := by
  obtain ⟨attempt', h | ⟨frame, h⟩⟩ := h
  · cases h
    simpa [beginsEpoch] using hbegins
  · cases h
    simpa [beginsEpoch] using hbegins

theorem step_reports (hop : Possible s op) (hstep : step s op = .ok (s', outs)) :
    Silent s op outs ∨ ∃ epoch, Reports s op outs s' epoch := by
  rcases step_cases hop hstep with ⟨-, hrun, -, htimers⟩ | ⟨rfl, rfl, -⟩ |
    ⟨handler, attempt, t', rfl, hready, heffect⟩
  · refine .inl (.of_transferOf ?_ ?_)
    · cases op with
      | run handler attempt => exact absurd rfl (hrun handler attempt)
      | _ => rfl
    · rw [List.countP_eq_zero]
      intro c hc
      have htimer := htimers c hc
      cases c <;> simp_all [MapCall.IsTimer, isReport]
  · exact .inl (.of_transferOf rfl rfl)
  · cases heffect with
    | stays hbegins hstays hextends =>
      obtain ⟨hreports, hreconnects⟩ := countP_local hstays.isLocal
      exact .inl ⟨hreports, fun _ => hreconnects, fun _ => stopped_of_fails hbegins⟩
    | connects attempt' hhandler hrunning hcalls hconnects =>
      subst hhandler hcalls
      refine .inl (.of_transferOf rfl ?_)
      cases attempt' <;> rfl
    | unconnected epoch hhandler hcalls hrearmed =>
      subst hcalls
      rcases hhandler with rfl | rfl
      · exact .inl (.of_transferOf rfl rfl)
      · exact .inl (.of_transferOf rfl rfl)
    | lost epoch hhandler hrunning hcalls hclosed =>
      refine .inr ⟨epoch, ?_, ?_, hrunning, ?_, ?_, ?_⟩
      · rcases hhandler with rfl | ⟨frame, rfl⟩
        · exact ⟨attempt, .inl rfl⟩
        · exact ⟨attempt, .inr ⟨frame, rfl⟩⟩
      · rw [hclosed.epoch]
        exact taking_epoch_of_begins (begins_of_failed hhandler hrunning)
      · rcases hhandler with rfl | ⟨frame, rfl⟩
        · exact mem_view_ready hready rfl
        · exact mem_view_ready hready rfl
      · rcases hcalls with rfl | rfl <;> rfl
      · rcases hcalls with rfl | rfl <;> rfl

/-! ## Established connections -/

/-- Only the connection there is can be established and have its state; its operations are no
newer. -/
structure Tracked (events : List LinkEvent) (s : MapLink) : Prop where
  bounded : ∀ epoch ∈ s.transfers, epoch ≤ s.epoch
  current : s.epoch ∈ s.transfers ∨ s.transport.state = .aspUp ∨ s.transport.state = .active →
    Established events s.epoch
  stopped : s.transport.state = .stopped → ∃ e ∈ events, e.op = .stop

theorem Established.mono {epoch : Nat} (h : Established events epoch) (e : LinkEvent) :
    Established (events ++ [e]) epoch := by
  obtain ⟨e', he', hop⟩ := h
  exact ⟨e', List.mem_append_left _ he', hop⟩

/-- At the beginning of an epoch there is nothing of it yet. -/
theorem Tracked.fresh (h : Tracked events s) (e : LinkEvent) (hepoch : s'.epoch = s.epoch + 1)
    (htransfers : s'.transfers ⊆ s.transfers)
    (hstate : s'.transport.state = .connecting ∨ s'.transport.state = .disconnected) :
    Tracked (events ++ [e]) s' := by
  refine ⟨?_, ?_, ?_⟩
  · intro epoch hmem
    rw [hepoch]
    exact Nat.le_succ_of_le (h.bounded epoch (htransfers hmem))
  · intro hcurrent
    have hnot : s'.epoch ∉ s'.transfers := by
      intro hmem
      have := h.bounded _ (htransfers hmem)
      omega
    rcases hcurrent with hmem | hup | hactive
    · exact absurd hmem hnot
    · rw [hup] at hstate
      rcases hstate with hstate | hstate <;> cases hstate
    · rw [hactive] at hstate
      rcases hstate with hstate | hstate <;> cases hstate
  · intro hstopped
    rw [hstopped] at hstate
    rcases hstate with hstate | hstate <;> cases hstate

theorem Tracked.stays (h : Tracked events s) {handler : HlrHandler} {attempt : ConnectAttempt}
    {t' : MapTransport} (hready : .ready handler ∈ s.io)
    (hcurrent : HandlesCurrent s (.run handler attempt))
    (hbegins : beginsEpoch s.transport handler = false)
    (hstays : Stays s.transport t' outs handler)
    (hextends : Extends { s.taking handler with transport := t' } s' outs) :
    Tracked (events ++ [⟨s, .run handler attempt, outs, s'⟩]) s' := by
  have hepoch : s'.epoch = s.epoch := hextends.epoch.trans (taking_epoch_of_not_begins hbegins)
  have htaken : (s.taking handler).transfers ⊆ s.transfers :=
    (taking_view_subperm hready _).subset
  refine ⟨?_, ?_, ?_⟩
  · intro epoch hmem
    rw [hepoch]
    rcases hextends.mem_transfers hmem with hmem | hmem
    · exact h.bounded epoch (htaken hmem)
    · exact Nat.le_of_eq (hmem.trans (taking_epoch_of_not_begins hbegins))
  · rw [hepoch, hextends.transport]
    intro hsome
    cases hstays with
    | idle hnot ht hcalls =>
      subst ht hcalls
      refine (h.current (hsome.imp_left fun hmem => ?_)).mono _
      rw [show s'.transfers = _ from hextends.idle_view HlrOp.transfer?_blind] at hmem
      exact htaken hmem
    | connected epoch _ =>
      cases hcurrent
      exact ⟨_, List.mem_append_right _ (List.mem_singleton_self _), attempt, rfl⟩
    | read epoch chunk _ =>
      cases hcurrent
      exact (h.current (.inl (mem_view_ready hready rfl))).mono _
    | written epoch frame _ =>
      cases hcurrent
      exact (h.current (.inl (mem_view_ready hready rfl))).mono _
    | beat epoch ok hactive ht hcalls => exact (h.current (.inr (.inr hactive))).mono _
    | send payload hactive ht hcalls => exact (h.current (.inr (.inr hactive))).mono _
  · rw [hextends.transport]
    intro hstopped
    rcases hstays.state with hsame | ⟨-, hup⟩ | ⟨-, hactive⟩
    · obtain ⟨e, he, hstop⟩ := h.stopped (hsame.symm.trans hstopped)
      exact ⟨e, List.mem_append_left _ he, hstop⟩
    · cases hup.symm.trans hstopped
    · cases hactive.symm.trans hstopped

theorem step_tracked (h : Tracked events s) (hop : Possible s op)
    (hstep : step s op = .ok (s', outs)) (hcurrent : HandlesCurrent s op) :
    Tracked (events ++ [⟨s, op, outs, s'⟩]) s' := by
  rcases step_cases hop hstep with ⟨hsame, -⟩ | ⟨rfl, rfl, hclosed⟩ |
    ⟨handler, attempt, t', rfl, hready, heffect⟩
  · refine ⟨?_, ?_, ?_⟩
    · intro epoch hmem
      rw [hsame.epoch]
      exact h.bounded epoch (hsame.transfers.subset hmem)
    · rw [hsame.epoch, hsame.transport]
      intro hsome
      exact (h.current (hsome.imp_left fun hmem => hsame.transfers.subset hmem)).mono _
    · rw [hsame.transport]
      intro hstopped
      obtain ⟨e, he, hstop⟩ := h.stopped hstopped
      exact ⟨e, List.mem_append_left _ he, hstop⟩
  · refine ⟨?_, ?_, ?_⟩
    · rw [hclosed.transfers, hclosed.epoch]
      exact h.bounded
    · rw [hclosed.transfers, hclosed.epoch, hclosed.transport]
      rintro (hmem | hup | hactive)
      · exact (h.current (.inl hmem)).mono _
      · cases hup
      · cases hactive
    · intro _
      exact ⟨_, List.mem_append_right _ (List.mem_singleton_self _), rfl⟩
  · rcases heffect.stays_or_newEpoch hready with ⟨hbegins, hstays, hextends⟩ | hnew
    · exact h.stays hready hcurrent hbegins hstays hextends
    · exact h.fresh _ hnew.epoch hnew.transfers hnew.state

/-! ## The accounts -/

/-- Reports and reconnects so far. -/
structure Accounted (events : List LinkEvent) (s : MapLink) : Prop where
  reports : ∀ epoch, callsOf isReport events epoch ≤ 1
  reconnects : ∀ epoch, callsOf isReconnect events epoch = callsOf isReport events epoch
  past : ∀ epoch, 0 < callsOf isReport events epoch → epoch < s.epoch ∧ Established events epoch
  lost : ∀ epoch, Lost events epoch → 0 < callsOf isReport events epoch
  attributed : ∀ e ∈ events, .disconnectCb ∈ e.outs → ∃ epoch, transferOf e.op = some epoch

theorem Accounted.reportedOnce (h : Accounted events s) : ReportedOnce events := by
  refine ⟨?_, ?_, h.attributed⟩
  · intro epoch _ hlost
    have hone : callsOf isReport events epoch = 1 := by
      have := h.reports epoch
      have := h.lost epoch hlost
      omega
    exact ⟨hone, (h.reconnects epoch).trans hone⟩
  · intro epoch hnot
    by_contra hsome
    exact hnot (h.past epoch (Nat.pos_of_ne_zero hsome)).2

theorem Lost.snoc {e : LinkEvent} {epoch : Nat} (h : Lost (events ++ [e]) epoch) :
    Lost events epoch ∨ Fails e.op epoch ∧ ∀ e' ∈ events, e'.op ≠ .stop := by
  obtain ⟨before, e', after, heq, hfails, hbefore⟩ := h
  rcases List.eq_nil_or_concat after with rfl | ⟨after, last, rfl⟩
  · obtain ⟨rfl, hlast⟩ := List.append_inj' heq rfl
    cases hlast
    exact .inr ⟨hfails, hbefore⟩
  · rw [List.concat_eq_append, ← List.cons_append, ← List.append_assoc] at heq
    obtain ⟨rfl, -⟩ := List.append_inj' heq rfl
    exact .inl ⟨before, e', after, rfl, hfails, hbefore⟩

theorem mem_attributed {e : LinkEvent} (h : .disconnectCb ∈ e.outs) :
    e.outs.countP isReport ≠ 0 := by
  intro hzero
  exact List.countP_eq_zero.mp hzero _ h rfl

theorem Accounted.silent (h : Accounted events s) (htracked : Tracked events s)
    (hsilent : Silent s op outs) (hepoch : s.epoch ≤ s'.epoch) :
    Accounted (events ++ [⟨s, op, outs, s'⟩]) s' := by
  have hreports : ∀ epoch, callsOf isReport (events ++ [⟨s, op, outs, s'⟩]) epoch =
      callsOf isReport events epoch := by
    intro epoch
    rw [callsOf_snoc]
    dsimp only
    rw [hsilent.reports, ite_self, Nat.add_zero]
  have hreconnects : ∀ epoch, callsOf isReconnect (events ++ [⟨s, op, outs, s'⟩]) epoch =
      callsOf isReconnect events epoch := by
    intro epoch
    rw [callsOf_snoc]
    dsimp only
    split
    · rename_i htransfer
      rw [hsilent.reconnects (by rw [htransfer]; simp), Nat.add_zero]
    · rfl
  refine ⟨?_, ?_, ?_, ?_, ?_⟩
  · intro epoch
    rw [hreports]
    exact h.reports epoch
  · intro epoch
    rw [hreports, hreconnects]
    exact h.reconnects epoch
  · intro epoch hpos
    rw [hreports] at hpos
    obtain ⟨hlt, hestablished⟩ := h.past epoch hpos
    exact ⟨Nat.lt_of_lt_of_le hlt hepoch, hestablished.mono _⟩
  · intro epoch hlost
    rw [hreports]
    rcases hlost.snoc with hlost | ⟨hfails, hnostop⟩
    · exact h.lost epoch hlost
    · obtain ⟨e, he, hstop⟩ := htracked.stopped (hsilent.fails epoch hfails)
      exact absurd hstop (hnostop e he)
  · intro e he hcall
    rcases List.mem_append.mp he with he | he
    · exact h.attributed e he hcall
    · obtain rfl := List.mem_singleton.mp he
      exact absurd hsilent.reports (mem_attributed hcall)

theorem Reports.current {epoch : Nat} (h : Reports s op outs s' epoch)
    (hcurrent : HandlesCurrent s op) : epoch = s.epoch := by
  obtain ⟨attempt, rfl | ⟨frame, rfl⟩⟩ := h.fails
  · exact hcurrent h.running
  · exact hcurrent h.running

theorem Accounted.reporting (h : Accounted events s) (htracked : Tracked events s)
    (hcurrent : HandlesCurrent s op) {epoch : Nat} (hreport : Reports s op outs s' epoch) :
    Accounted (events ++ [⟨s, op, outs, s'⟩]) s' := by
  obtain rfl := hreport.current hcurrent
  have htransfer := hreport.fails.transferOf
  have hzero : callsOf isReport events s.epoch = 0 := by
    by_contra hsome
    have := (h.past _ (Nat.pos_of_ne_zero hsome)).1
    omega
  have hself : ∀ kind, outs.countP kind = 1 →
      callsOf kind (events ++ [⟨s, op, outs, s'⟩]) s.epoch = callsOf kind events s.epoch + 1 := by
    intro kind hcount
    rw [callsOf_snoc]
    dsimp only
    rw [if_pos htransfer, hcount]
  have hother : ∀ kind epoch, epoch ≠ s.epoch →
      callsOf kind (events ++ [⟨s, op, outs, s'⟩]) epoch = callsOf kind events epoch := by
    intro kind epoch hne
    rw [callsOf_snoc]
    dsimp only
    rw [if_neg (by rw [htransfer]; simpa using hne.symm), Nat.add_zero]
  refine ⟨?_, ?_, ?_, ?_, ?_⟩
  · intro epoch
    by_cases hepoch : epoch = s.epoch
    · rw [hepoch, hself _ hreport.reports, hzero]
    · rw [hother _ _ hepoch]
      exact h.reports epoch
  · intro epoch
    by_cases hepoch : epoch = s.epoch
    · rw [hepoch, hself _ hreport.reports, hself _ hreport.reconnects, h.reconnects]
    · rw [hother _ _ hepoch, hother _ _ hepoch]
      exact h.reconnects epoch
  · intro epoch hpos
    rw [hreport.fresh]
    by_cases hepoch : epoch = s.epoch
    · rw [hepoch]
      exact ⟨Nat.lt_succ_self _, (htracked.current (.inl hreport.pending)).mono _⟩
    · rw [hother _ _ hepoch] at hpos
      obtain ⟨hlt, hestablished⟩ := h.past epoch hpos
      exact ⟨Nat.lt_succ_of_lt hlt, hestablished.mono _⟩
  · intro epoch hlost
    by_cases hepoch : epoch = s.epoch
    · rw [hepoch, hself _ hreport.reports]
      exact Nat.succ_pos _
    · rw [hother _ _ hepoch]
      rcases hlost.snoc with hlost | ⟨hfails, -⟩
      · exact h.lost epoch hlost
      · have := hfails.transferOf
        dsimp only at this
        rw [htransfer] at this
        exact absurd (Option.some.inj this).symm hepoch
  · intro e he hcall
    rcases List.mem_append.mp he with he | he
    · exact h.attributed e he hcall
    · obtain rfl := List.mem_singleton.mp he
      exact ⟨_, htransfer⟩

/-- In a run in which no handler of an earlier connection comes late, every established connection
that is lost before `stop` is reported exactly once, and no other. -/
theorem lost_connections_reported_once {cfg : MapTransportConfig} {events : List LinkEvent}
    {s : MapLink} (hrun : LinkRun cfg events s)
    (hcurrent : ∀ e ∈ events, HandlesCurrent e.pre e.op) : ReportedOnce events := by
  refine (hrun.history (I := fun events s => Tracked events s ∧ Accounted events s) hcurrent
    ?_ ?_).2.reportedOnce
  · refine ⟨⟨by simp [transfers, Proactor.view], ?_, by simp⟩, ?_⟩
    · simp [transfers, Proactor.view]
    · refine ⟨by simp [callsOf], by simp [callsOf], by simp [callsOf], ?_, by simp⟩
      rintro epoch ⟨before, e, after, heq, -⟩
      simp at heq
  · rintro events s op outs s' ⟨htracked, haccounted⟩ hop hstep hcurrent
    refine ⟨step_tracked htracked hop hstep hcurrent, ?_⟩
    rcases step_reports hop hstep with hsilent | ⟨epoch, hreport⟩
    · exact haccounted.silent htracked hsilent (epoch_le_step hop hstep)
    · exact haccounted.reporting htracked hcurrent hreport

theorem Lost.of_getElem? {i : Nat} {e : LinkEvent} {epoch : Nat} (he : events[i]? = some e)
    (hfails : Fails e.op epoch) (hnostop : ∀ e' ∈ events.take i, e'.op ≠ .stop) :
    Lost events epoch := by
  refine ⟨events.take i, e, events.drop (i + 1), ?_, hfails, hnostop⟩
  obtain ⟨hi, rfl⟩ := List.getElem?_eq_some_iff.mp he
  rw [← List.drop_eq_getElem_cons hi, List.take_append_drop]

/-- The peer closes the connection after the ASPUP has been written. -/
theorem closed_by_peer_reported :
    ∃ events s, LinkRun {} events s ∧ (∀ e ∈ events, HandlesCurrent e.pre e.op) ∧
      Established events 1 ∧ Lost events 1 ∧
      callsOf isReport events 1 = 1 ∧ callsOf isReconnect events 1 = 1 := by
  obtain ⟨result, hplay, hcurrent, hestablished, hlost⟩ : ∃ result,
      played {} (connecting ++ [.finish (.write 1 (M3ua.encode M3ua.makeAspUp))
          (.written 1 (M3ua.encode M3ua.makeAspUp) true),
        .run (.written 1 (M3ua.encode M3ua.makeAspUp) true) .started,
        .finish (.read 1) (.read 1 none), .run (.read 1 none) .started]) = some result ∧
      (∀ e ∈ result.1, HandlesCurrent e.pre e.op) ∧ Established result.1 1 ∧ Lost result.1 1 := by
    refine ⟨_, rfl, by decide, ?_, ?_⟩
    · exact ⟨_, List.mem_of_getElem? (i := 4) rfl, _, rfl⟩
    · exact .of_getElem? (i := 8) rfl ⟨_, .inl rfl⟩ (by decide)
  have hrun := run_of_played hplay
  exact ⟨_, _, hrun, hcurrent, hestablished, hlost,
    (lost_connections_reported_once hrun hcurrent).lost 1 hestablished hlost⟩

/-- The peer resets the connection while the ASPUP is being written, so that the read and the
write fail: it is reported twice. -/
theorem reset_by_peer_reported_twice :
    ¬ ∀ cfg events s, LinkRun cfg events s → ReportedOnce events := by
  intro h
  obtain ⟨result, hplay, hestablished, hlost, hcount⟩ : ∃ result,
      played {} (connecting ++ [.finish (.read 1) (.read 1 none), .run (.read 1 none) .started,
        .run (.written 1 (M3ua.encode M3ua.makeAspUp) false) .started]) = some result ∧
      Established result.1 1 ∧ Lost result.1 1 ∧ callsOf isReport result.1 1 = 2 := by
    refine ⟨_, rfl, ?_, ?_, rfl⟩
    · exact ⟨_, List.mem_of_getElem? (i := 4) rfl, _, rfl⟩
    · exact .of_getElem? (i := 6) rfl ⟨_, .inl rfl⟩ (by decide)
  have hone := ((h _ _ _ (run_of_played hplay)).lost 1 hestablished hlost).1
  rw [hcount] at hone
  cases hone

end MapLink

end GsupMapProxy.Transport
