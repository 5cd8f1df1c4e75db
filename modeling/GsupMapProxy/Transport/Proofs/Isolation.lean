import GsupMapProxy.Transport.Proofs.Progress

/-!
# One connection after another

No handler knows which connection its operation was started on. What keeps the connections apart
is only that nothing of an old one is pending any more when it could do harm: no read or write
that has succeeded when the connection is reset, nothing at all on a socket when the next `connect`
is called, and no wait for the heartbeat that has succeeded when the transport becomes active
again. Where that is so, the reads and writes of an old connection can only fail, and they do while
there is no other; a heartbeat of it that comes late finds the transport not active.
-/

namespace GsupMapProxy.Transport

open Misc

open scoped List

/-- Waits for the heartbeat that have succeeded. -/
def HlrOp.expired? : Pending HlrOp HlrHandler → Option Nat
  | .ready (.beatTimer epoch true) => some epoch
  | _ => none

/-- Waits for the heartbeat that have not been cancelled, up to their handler. -/
def HlrOp.beat? : Pending HlrOp HlrHandler → Option Nat
  | .running (.beatWait epoch) => some epoch
  | item => expired? item

namespace MapLink

variable {s s' : MapLink} {op : LinkInput} {outs : List MapCall}

/-- `connect` is called only when nothing is pending on a socket. -/
def ConnectsAlone (s : MapLink) : LinkInput → Prop
  | .run (.reconnectTimer true) _ =>
      s.transport.state ≠ .stopped → s.attempts = [] ∧ s.transfers = []
  | _ => True

instance (s : MapLink) (op : LinkInput) : Decidable (s.ConnectsAlone op) :=
  match op with
  | .run (.reconnectTimer true) _ => inferInstanceAs
      (Decidable (s.transport.state ≠ .stopped → s.attempts = [] ∧ s.transfers = []))
  | .start | .stop | .send _ | .finish _ _ | .run (.connected _ _) _ | .run (.read _ _) _
  | .run (.written _ _ _) _ | .run (.reconnectTimer false) _ | .run (.beatTimer _ _) _
  | .run (.connectFailed _) _ | .run (.send _) _ => .isTrue trivial

/-! ## Attempts -/

/-- An attempt to connect is the only operation on a socket. -/
def OneAttempt (s : MapLink) : Prop :=
  s.attempts = [] ∨ s.attempts = [s.epoch] ∧ s.transfers = [] ∧
    (s.transport.state = .connecting ∨ s.transport.state = .stopped)

theorem OneAttempt.transfers_nil (h : OneAttempt s) {epoch : Nat} (hattempt : epoch ∈ s.attempts) :
    s.transfers = [] := by
  rcases h with h | ⟨-, h, -⟩
  · rw [h] at hattempt
    cases hattempt
  · exact h

theorem OneAttempt.attempts_nil (h : OneAttempt s) {epoch : Nat}
    (htransfer : epoch ∈ s.transfers) : s.attempts = [] := by
  rcases h with h | ⟨-, h, -⟩
  · exact h
  · rw [h] at htransfer
    cases htransfer

theorem OneAttempt.not_active (h : OneAttempt s) (hactive : s.transport.state = .active) :
    s.attempts = [] := by
  rcases h with h | ⟨-, -, h | h⟩
  · exact h
  · rw [hactive] at h
    cases h
  · rw [hactive] at h
    cases h

theorem OneAttempt.taken (h : OneAttempt s) {handler : HlrHandler} {epoch : Nat}
    (hready : .ready handler ∈ s.io) (hattempt : HlrOp.attempt? (.ready handler) = some epoch) :
    (s.taking handler).attempts = [] := by
  have hmem : epoch ∈ s.attempts := mem_view_ready hready hattempt
  have hperm : s.attempts ~ [epoch] ++ (s.taking handler).attempts := by
    have := Proactor.perm_view_take (v := HlrOp.attempt?) hready
    rwa [hattempt] at this
  rcases h with h | ⟨h, -, -⟩
  · rw [h] at hmem
    cases hmem
  · have hlen := hperm.length_eq
    rw [h, List.length_append, List.length_singleton, List.length_singleton] at hlen
    exact List.eq_nil_of_length_eq_zero (by omega)

theorem taking_eq_nil {γ : Type} {v : Pending HlrOp HlrHandler → Option γ} {handler : HlrHandler}
    (hready : .ready handler ∈ s.io) (h : s.io.view v = []) :
    (s.taking handler).io.view v = [] := by
  have hless := taking_view_subperm hready v
  rw [h] at hless
  exact List.subperm_nil.mp hless

/-- A handler that stays within its connection either has nothing to do with one, or ends an
attempt. -/
theorem OneAttempt.stays (h : OneAttempt s) {handler : HlrHandler} {t' : MapTransport}
    (hready : .ready handler ∈ s.io) (hbegins : beginsEpoch s.transport handler = false)
    (hstays : Stays s.transport t' outs handler)
    (hextends : Extends { s.taking handler with transport := t' } s' outs) : OneAttempt s' := by
  have hepoch : s'.epoch = s.epoch := hextends.epoch.trans (taking_epoch_of_not_begins hbegins)
  have hattempts : s'.attempts = (s.taking handler).attempts := hextends.attempts
  cases hstays with
  | idle hnot ht hcalls =>
    subst ht hcalls
    rcases h with h | ⟨h, htransfers, hstate⟩
    · exact .inl (hattempts.trans (taking_eq_nil hready h))
    · have hnone : HlrOp.attempt? (.ready handler) = none := by
        cases handler with
        | connected epoch ok => exact absurd rfl (hnot epoch ok)
        | connectFailed epoch => cases hbegins
        | _ => rfl
      have hperm : s.attempts ~ (s.taking handler).attempts := by
        have := Proactor.perm_view_take (v := HlrOp.attempt?) hready
        rwa [hnone] at this
      rw [h] at hperm
      refine .inr ⟨?_, ?_, ?_⟩
      · rw [hattempts, hepoch]
        exact List.perm_singleton.mp hperm.symm
      · exact (hextends.idle_view HlrOp.transfer?_blind).trans (taking_eq_nil hready htransfers)
      · rw [hextends.transport]
        exact hstate
  | connected epoch _ => exact .inl (hattempts.trans (h.taken hready rfl))
  | read epoch chunk _ =>
    have hnil := h.attempts_nil (mem_view_ready hready rfl)
    exact .inl (hattempts.trans (taking_eq_nil hready hnil))
  | written epoch frame _ =>
    have hnil := h.attempts_nil (mem_view_ready hready rfl)
    exact .inl (hattempts.trans (taking_eq_nil hready hnil))
  | beat epoch ok hactive ht hcalls =>
    exact .inl (hattempts.trans (taking_eq_nil hready (h.not_active hactive)))
  | send payload hactive ht hcalls =>
    exact .inl (hattempts.trans (taking_eq_nil hready (h.not_active hactive)))

theorem step_oneAttempt (h : OneAttempt s) (hop : Possible s op)
    (hstep : step s op = .ok (s', outs)) (halone : ConnectsAlone s op) : OneAttempt s' := by
  rcases step_cases hop hstep with ⟨hsame, -⟩ | ⟨-, -, hclosed⟩ |
    ⟨handler, attempt, t', rfl, hready, heffect⟩
  · rcases h with h | ⟨h, htransfers, hstate⟩
    · left
      have hattempts := hsame.attempts
      rw [h] at hattempts
      exact hattempts.eq_nil
    · right
      have hattempts := hsame.attempts
      have htransfers' := hsame.transfers
      rw [h] at hattempts
      rw [htransfers] at htransfers'
      rw [hsame.epoch, hsame.transport]
      exact ⟨List.perm_singleton.mp hattempts, htransfers'.eq_nil, hstate⟩
  · rcases h with h | ⟨h, htransfers, -⟩
    · exact .inl (hclosed.attempts.trans h)
    · refine .inr ⟨?_, hclosed.transfers.trans htransfers, .inr ?_⟩
      · rw [hclosed.attempts, hclosed.epoch]
        exact h
      · rw [hclosed.transport]
  · cases heffect with
    | stays hbegins hstays hextends => exact h.stays hready hbegins hstays hextends
    | connects attempt hhandler hrunning hcalls hconnects =>
      subst hhandler
      obtain ⟨hattempts, htransfers⟩ := halone hrunning
      refine .inr ⟨?_, ?_, .inl ?_⟩
      · rw [hconnects.attempts, hconnects.epoch]
        have hnil : (s.taking (.reconnectTimer true)).attempts = [] :=
          taking_eq_nil hready hattempts
        show (s.taking (.reconnectTimer true)).attempts ++ _ = _
        rw [hnil]
        rfl
      · rw [hconnects.transfers]
        exact taking_eq_nil hready htransfers
      · rw [hconnects.transport]
    | unconnected epoch hhandler hcalls hrearmed =>
      have hnil : (s.taking handler).attempts = [] := by
        rcases hhandler with rfl | rfl
        · exact h.taken hready rfl
        · exact h.taken hready rfl
      have hattempts := hrearmed.attempts
      left
      rw [show MapLink.attempts { s.taking handler with transport := reset s.transport } = []
        from hnil] at hattempts
      exact hattempts.eq_nil
    | lost epoch hhandler hrunning hcalls hclosed =>
      have hnil : s.attempts = [] := by
        rcases hhandler with rfl | ⟨frame, rfl⟩
        · exact h.attempts_nil (mem_view_ready hready rfl)
        · exact h.attempts_nil (mem_view_ready hready rfl)
      exact .inl (hclosed.attempts.trans (taking_eq_nil hready hnil))

/-! ## Reads and writes -/

def expired (s : MapLink) : List Nat := s.io.view HlrOp.expired?

/-- A failed read or write is handled only when no other has succeeded, and `connect` is called
only when nothing is pending on a socket. A read with an ASPAC_ACK is handled only when no wait for
the heartbeat of an earlier connection has succeeded. -/
def LeavesNothing (s : MapLink) : LinkInput → Prop
  | .run (.read _ none) _ => s.transport.state ≠ .stopped → s.succeeded = []
  | .run (.read _ (some chunk)) _ =>
      (∃ p ∈ dispatches s.transport chunk, IsAspAcAck p.2) → ∀ epoch ∈ s.expired, epoch = s.epoch
  | .run (.written _ _ false) _ => s.transport.state ≠ .stopped → s.succeeded = []
  | op => s.ConnectsAlone op

instance (s : MapLink) (op : LinkInput) : Decidable (s.LeavesNothing op) :=
  match op with
  | .run (.read _ none) _ | .run (.written _ _ false) _ =>
      inferInstanceAs (Decidable (s.transport.state ≠ .stopped → s.succeeded = []))
  | .run (.read _ (some chunk)) _ => inferInstanceAs (Decidable
      ((∃ p ∈ dispatches s.transport chunk, IsAspAcAck p.2) → ∀ epoch ∈ s.expired, epoch = s.epoch))
  | .run (.reconnectTimer ok) attempt =>
      inferInstanceAs (Decidable (s.ConnectsAlone (.run (.reconnectTimer ok) attempt)))
  | .start | .stop | .send _ | .finish _ _ | .run (.connected _ _) _ | .run (.written _ _ true) _
  | .run (.beatTimer _ _) _ | .run (.connectFailed _) _ | .run (.send _) _ => .isTrue trivial

theorem LeavesNothing.connectsAlone (h : LeavesNothing s op) : ConnectsAlone s op := by
  unfold LeavesNothing at h
  split at h
  · trivial
  · trivial
  · trivial
  · exact h

/-- The connection has been torn down: what is still pending of it has failed, and there is no
other. -/
structure Torn (s : MapLink) : Prop where
  alive : s.alive = []
  past : ∀ epoch ∈ s.transfers, epoch < s.epoch
  cleared : s.transport.writeQueue = [] ∧ s.transport.writing = false ∧ s.transport.decoder = []
  state : s.transport.state = .disconnected ∨ s.transport.state = .stopped
  isOpen : s.isOpen = false

/-- Reads and writes are those of the connection there is, or those of the last one that have
failed. -/
def Separate (s : MapLink) : Prop := (∀ epoch ∈ s.transfers, epoch = s.epoch) ∨ Torn s

theorem Separate.of_nil (h : s.transfers = []) : Separate s := by
  left
  intro epoch hmem
  rw [h] at hmem
  cases hmem

theorem Torn.mono (h : Torn s) (htransport : s'.transport = s.transport)
    (hepoch : s.epoch ≤ s'.epoch) (hopen : s'.isOpen = s.isOpen) (halive : s'.alive <+~ s.alive)
    (htransfers : s'.transfers ⊆ s.transfers) : Torn s' := by
  refine ⟨?_, ?_, ?_, ?_, ?_⟩
  · rw [h.alive] at halive
    exact List.subperm_nil.mp halive
  · intro epoch hmem
    exact Nat.lt_of_lt_of_le (h.past epoch (htransfers hmem)) hepoch
  · rw [htransport]
    exact h.cleared
  · rw [htransport]
    exact h.state
  · rw [hopen]
    exact h.isOpen

/-- A read or write of a torn down connection has failed. -/
theorem Torn.not_alive (h : Torn s) {handler : HlrHandler} (hready : .ready handler ∈ s.io) :
    HlrOp.alive? (.ready handler) = none := by
  cases hv : HlrOp.alive? (.ready handler) with
  | none => rfl
  | some epoch =>
    have hmem : epoch ∈ s.alive := mem_view_ready hready hv
    rw [h.alive] at hmem
    cases hmem

theorem Torn.not_active (h : Torn s) : s.transport.state ≠ .active := by
  intro hactive
  rcases h.state with hstate | hstate
  · rw [hactive] at hstate
    cases hstate
  · rw [hactive] at hstate
    cases hstate

/-- What a handler adds while it stays within its connection belongs to that. -/
theorem Separate.extends {handler : HlrHandler} {t' : MapTransport}
    (hquiet : ∀ epoch ∈ s.transfers, epoch = s.epoch) (hready : .ready handler ∈ s.io)
    (hbegins : beginsEpoch s.transport handler = false)
    (hextends : Extends { s.taking handler with transport := t' } s' outs) : Separate s' := by
  left
  intro epoch hmem
  have hepoch : s'.epoch = s.epoch := hextends.epoch.trans (taking_epoch_of_not_begins hbegins)
  rw [hepoch]
  rcases hextends.mem_transfers hmem with hmem | hmem
  · exact hquiet epoch ((taking_view_subperm hready _).subset hmem)
  · exact hmem.trans (taking_epoch_of_not_begins hbegins)

theorem Separate.stays (h : Separate s) (hone : OneAttempt s) {handler : HlrHandler}
    {t' : MapTransport} (hready : .ready handler ∈ s.io)
    (hbegins : beginsEpoch s.transport handler = false)
    (hstays : Stays s.transport t' outs handler)
    (hextends : Extends { s.taking handler with transport := t' } s' outs) : Separate s' := by
  rcases h with hquiet | htorn
  · exact .extends hquiet hready hbegins hextends
  · cases hstays with
    | idle hnot ht hcalls =>
      subst ht hcalls
      right
      refine htorn.mono hextends.transport ?_ hextends.isOpen ?_ ?_
      · rw [hextends.epoch]
        exact Nat.le_of_eq (taking_epoch_of_not_begins hbegins).symm
      · rw [show s'.alive = _ from hextends.idle_view HlrOp.alive?_blind]
        exact taking_view_subperm hready _
      · rw [show s'.transfers = _ from hextends.idle_view HlrOp.transfer?_blind]
        exact (taking_view_subperm hready _).subset
    | connected epoch _ =>
      have hnil : s.transfers = [] := hone.transfers_nil (mem_view_ready hready rfl)
      refine .extends ?_ hready hbegins hextends
      intro epoch hmem
      rw [hnil] at hmem
      cases hmem
    | read epoch chunk _ => cases htorn.not_alive hready
    | written epoch frame _ => cases htorn.not_alive hready
    | beat epoch ok hactive ht hcalls => exact absurd hactive htorn.not_active
    | send payload hactive ht hcalls => exact absurd hactive htorn.not_active

theorem Torn.stop (h : Torn s)
    (hclosed : Closes { s with transport := { s.transport with state := .stopped } } s') :
    Torn s' := by
  refine ⟨?_, ?_, ?_, .inr ?_, hclosed.isOpen⟩
  · have hless : s.succeeded <+ s.alive := succeeded_sublist
    rw [h.alive] at hless
    rw [hclosed.alive]
    exact List.sublist_nil.mp hless
  · rw [hclosed.transfers, hclosed.epoch]
    exact h.past
  · rw [hclosed.transport]
    exact h.cleared
  · rw [hclosed.transport]

/-- A connection that is lost when nothing of it has succeeded is torn down. -/
theorem Separate.lost (h : Separate s) {handler : HlrHandler} (hready : .ready handler ∈ s.io)
    (hbegins : beginsEpoch s.transport handler = true) (hnil : s.succeeded = [])
    (hclosed : Closes { s.taking handler with transport := reset s.transport } s') : Torn s' := by
  refine ⟨hclosed.alive.trans (taking_eq_nil hready hnil), ?_, ?_, .inl ?_, hclosed.isOpen⟩
  · intro epoch hmem
    rw [hclosed.transfers] at hmem
    have hmem : epoch ∈ s.transfers := (taking_view_subperm hready _).subset hmem
    rw [hclosed.epoch]
    show epoch < (s.taking handler).epoch
    rw [taking_epoch_of_begins hbegins]
    rcases h with hquiet | htorn
    · exact Nat.lt_succ_of_le (Nat.le_of_eq (hquiet epoch hmem))
    · exact Nat.lt_succ_of_lt (htorn.past epoch hmem)
  · rw [hclosed.transport]
    exact ⟨rfl, rfl, rfl⟩
  · rw [hclosed.transport]
    rfl

theorem step_separate (h : Separate s) (hone : OneAttempt s) (hop : Possible s op)
    (hstep : step s op = .ok (s', outs)) (hleaves : LeavesNothing s op) : Separate s' := by
  rcases step_cases hop hstep with ⟨hsame, -⟩ | ⟨-, -, hclosed⟩ |
    ⟨handler, attempt, t', rfl, hready, heffect⟩
  · rcases h with hquiet | htorn
    · left
      intro epoch hmem
      rw [hsame.epoch]
      exact hquiet epoch (hsame.transfers.subset hmem)
    · right
      exact htorn.mono hsame.transport (Nat.le_of_eq hsame.epoch.symm) hsame.isOpen hsame.alive
        hsame.transfers.subset
  · rcases h with hquiet | htorn
    · left
      rw [hclosed.transfers, hclosed.epoch]
      exact hquiet
    · right
      exact htorn.stop hclosed
  · cases heffect with
    | stays hbegins hstays hextends => exact h.stays hone hready hbegins hstays hextends
    | connects attempt hhandler hrunning hcalls hconnects =>
      subst hhandler
      obtain ⟨-, htransfers⟩ := hleaves.connectsAlone hrunning
      exact .of_nil (hconnects.transfers.trans (taking_eq_nil hready htransfers))
    | unconnected epoch hhandler hcalls hrearmed =>
      have hnil : s.transfers = [] := by
        rcases hhandler with rfl | rfl
        · exact hone.transfers_nil (mem_view_ready hready rfl)
        · exact hone.transfers_nil (mem_view_ready hready rfl)
      have htransfers := hrearmed.transfers
      rw [show MapLink.transfers { s.taking handler with transport := reset s.transport } = []
        from taking_eq_nil hready hnil] at htransfers
      exact .of_nil htransfers.eq_nil
    | lost epoch hhandler hrunning hcalls hclosed =>
      have hnil : s.succeeded = [] := by
        rcases hhandler with rfl | ⟨frame, rfl⟩
        · exact hleaves hrunning
        · exact hleaves hrunning
      right
      exact h.lost hready (begins_of_failed hhandler hrunning) hnil hclosed

/-! ## Heartbeats -/

def beats (s : MapLink) : List Nat := s.io.view HlrOp.beat?

theorem shows_expired? : HlrTimer.beat.Shows HlrOp.expired? := by
  refine ⟨fun _ _ => rfl, ?_⟩
  intro handler hnot
  cases handler with
  | beatTimer epoch ok =>
    cases ok with
    | true => exact absurd rfl (hnot true)
    | false => rfl
  | _ => rfl

theorem shows_beat? : HlrTimer.beat.Shows HlrOp.beat? := by
  refine ⟨?_, shows_expired?.ready⟩
  intro op hnot
  cases op with
  | beatWait epoch => exact absurd rfl hnot
  | _ => rfl

theorem expired_sublist : s.expired <+ s.beats := by
  apply Proactor.view_sublist
  intro item
  rcases item with op | handler
  · exact .inl rfl
  · exact .inr rfl

theorem beatCancelled_expired :
    (s.io.cancel HlrOp.beatCancelled).view HlrOp.expired? = s.expired := by
  apply Proactor.view_cancel_eq
  intro op handler h
  cases op <;> cases h
  rfl

/-- Cancelling leaves the waits that are over. -/
theorem beatCancelled_beats : (s.io.cancel HlrOp.beatCancelled).view HlrOp.beat? = s.expired := by
  have hsame : HlrOp.beat? ∘ Proactor.aborted HlrOp.beatCancelled = HlrOp.expired? := by
    funext item
    rcases item with op | handler
    · cases op <;> rfl
    · rfl
  rw [Proactor.view_cancel, hsame, expired]

theorem armBeat_beats (after : Int) :
    (s.perform (.armBeat after)).beats = s.expired ++ [s.epoch] := by
  rw [beats, perform, Proactor.view_begin, beatCancelled_beats]
  rfl

/-- No call makes a wait succeed. -/
theorem perform_expired (call : MapCall) : (s.perform call).expired = s.expired := by
  by_cases harms : HlrTimer.beat.arms call = true
  · cases call <;> cases harms
    rw [expired, perform, Proactor.view_begin, beatCancelled_expired]
    exact List.append_nil _
  · by_cases hcancel : call = .cancelBeat
    · rw [hcancel]
      exact beatCancelled_expired
    · exact perform_shows shows_expired? (by simpa using harms) hcancel

theorem perform_epoch (call : MapCall) : (s.perform call).epoch = s.epoch := by
  cases call <;> simp only [perform, beginOnSocket] <;> split <;> rfl

/-- A call adds at most a wait of the connection there is. -/
theorem mem_perform_beats {call : MapCall} {epoch : Nat} (hmem : epoch ∈ (s.perform call).beats) :
    epoch ∈ s.beats ∨ epoch = s.epoch := by
  by_cases harms : HlrTimer.beat.arms call = true
  · cases call <;> cases harms
    rw [armBeat_beats] at hmem
    rcases List.mem_append.mp hmem with hmem | hmem
    · exact .inl (expired_sublist.subset hmem)
    · exact .inr (List.mem_singleton.mp hmem)
  · left
    by_cases hcancel : call = .cancelBeat
    · rw [hcancel, show (s.perform .cancelBeat).beats = s.expired from beatCancelled_beats] at hmem
      exact expired_sublist.subset hmem
    · rwa [beats, perform_shows shows_beat? (by simpa using harms) hcancel] at hmem

theorem mem_foldl_beats {calls : List MapCall} {epoch : Nat}
    (hmem : epoch ∈ (calls.foldl perform s).beats) : epoch ∈ s.beats ∨ epoch = s.epoch := by
  induction calls generalizing s with
  | nil => exact .inl hmem
  | cons call calls ih =>
    rcases ih hmem with hmem | heq
    · exact mem_perform_beats hmem
    · exact .inr (heq.trans (perform_epoch call))

/-- Where the heartbeat is armed anew, a wait of an earlier connection is left only if it is
over. -/
theorem mem_foldl_beats_of_arms {calls : List MapCall} {call : MapCall} {epoch : Nat}
    (hcall : call ∈ calls) (harms : HlrTimer.beat.arms call = true)
    (hmem : epoch ∈ (calls.foldl perform s).beats) : epoch ∈ s.expired ∨ epoch = s.epoch := by
  induction calls generalizing s with
  | nil => cases hcall
  | cons first calls ih =>
    rcases List.mem_cons.mp hcall with rfl | hcall
    · rcases mem_foldl_beats (s := s.perform call) hmem with hlater | heq
      · cases call <;> cases harms
        rw [armBeat_beats] at hlater
        exact (List.mem_append.mp hlater).imp_right List.mem_singleton.mp
      · exact .inr (heq.trans (perform_epoch _))
    · rcases ih hcall hmem with hlater | heq
      · rw [perform_expired] at hlater
        exact .inl hlater
      · exact .inr (heq.trans (perform_epoch first))

/-- A wait completes as one of its epoch. -/
theorem completesAs_beat {op : HlrOp} {handler : HlrHandler} (h : op.completesAs handler) :
    HlrOp.beat? (.ready handler) = none ∨
      HlrOp.beat? (.ready handler) = HlrOp.beat? (.running op) := by
  cases handler with
  | beatTimer epoch ok =>
    cases op with
    | beatWait epoch' =>
      obtain ⟨rfl, rfl⟩ := of_decide_eq_true h
      exact .inr rfl
    | _ => cases h
  | _ => exact .inl rfl

/-- Of an active transport only its own heartbeat is to come. -/
def BeatsApart (s : MapLink) : Prop :=
  s.transport.state = .active → ∀ epoch ∈ s.beats, epoch = s.epoch

/-- The transport becomes active by a read with an ASPAC_ACK, which arms the heartbeat anew. Else
the calls of a handler that stays within its connection add to the waits that there are. -/
theorem BeatsApart.stays (h : BeatsApart s) {handler : HlrHandler} {attempt : ConnectAttempt}
    {t' : MapTransport} {calls : List MapCall} (hready : .ready handler ∈ s.io)
    (hbegins : beginsEpoch s.transport handler = false)
    (hmethod : method s.transport attempt handler = .ok (t', calls))
    (hleaves : LeavesNothing s (.run handler attempt)) :
    BeatsApart ((s.taking handler).after (t', calls)) := by
  have hstays := method_stays hbegins hmethod
  have hlocal := hstays.isLocal
  have htaken : ({ s.taking handler with transport := t' } : MapLink).epoch = s.epoch :=
    taking_epoch_of_not_begins hbegins
  have hepoch : ((s.taking handler).after (t', calls)).epoch = s.epoch :=
    (foldl_perform_local hlocal).epoch.trans htaken
  intro hactive epoch hmem
  rw [after_transport hlocal] at hactive
  rw [hepoch]
  have hbefore : s.transport.state = .active → epoch = s.epoch := by
    intro hactive
    rcases mem_foldl_beats hmem with hmem | heq
    · exact h hactive epoch ((taking_view_subperm hready _).subset hmem)
    · exact heq.trans htaken
  rcases hstays.state with hsame | ⟨-, haspUp⟩ | ⟨⟨k, chunk, rfl⟩, -⟩
  · exact hbefore (hsame.symm.trans hactive)
  · cases haspUp.symm.trans hactive
  · rcases onRead_arms hmethod hactive with hactive | ⟨call, hcall, harms⟩
    · exact hbefore hactive
    rcases MapTransport.onRead_dispatches hmethod with hsame |
      ⟨early, t₁, msg, late, hmsgs, -, hack, -⟩
    · exact hbefore (hsame.symm.trans hactive)
    rcases mem_foldl_beats_of_arms hcall harms hmem with hmem | heq
    · refine hleaves ⟨(t₁, msg), ?_, hack⟩ epoch ((taking_view_subperm hready _).subset hmem)
      rw [hmsgs]
      exact List.mem_append_right _ List.mem_cons_self
    · exact heq.trans htaken

theorem step_beatsApart (h : BeatsApart s) (hop : Possible s op)
    (hstep : step s op = .ok (s', outs)) (hleaves : LeavesNothing s op) : BeatsApart s' := by
  cases op with
  | start =>
    cases hstep
    intro hactive epoch hmem
    rw [start_same.epoch]
    rw [start_same.transport] at hactive
    rcases mem_foldl_beats hmem with hmem | heq
    · exact h hactive epoch hmem
    · exact heq
  | stop =>
    cases hstep
    intro hactive
    rw [(stop_closes s.transport).transport] at hactive
    cases hactive
  | send payload =>
    cases hstep
    intro hactive epoch hmem
    rw [beats, Proactor.view_post] at hmem
    have hsame : s.beats ++ [] = s.beats := List.append_nil _
    exact h hactive epoch (hsame ▸ hmem)
  | finish op handler =>
    cases hstep
    intro hactive epoch hmem
    have hless := Proactor.view_finish_subperm hop.1 (completesAs_beat hop.2)
    exact h hactive epoch (hless.subset hmem)
  | run handler attempt =>
    obtain ⟨⟨t', calls⟩, hmethod, hstep⟩ := except_bind_eq_ok.mp hstep
    cases hstep
    rcases (run_effect hmethod).stays_or_newEpoch hop with ⟨hbegins, -⟩ | hnew
    · exact h.stays hop hbegins hmethod hleaves
    · intro hactive
      rcases hnew.state with hstate | hstate
      · cases hstate.symm.trans hactive
      · cases hstate.symm.trans hactive

/-! ## What an old connection can do -/

/-- The epoch of the operation whose completion is handled. -/
def handlerEpoch : HlrHandler → Option Nat
  | .connected epoch _ => some epoch
  | .read epoch _ => some epoch
  | .written epoch _ _ => some epoch
  | .beatTimer epoch _ => some epoch
  | .connectFailed epoch => some epoch
  | _ => none

/-- If the event is the completion of an operation of an earlier connection, then it delivers no
bytes, leaves the transport as it is, and makes no call while there is an open socket. -/
def Isolated (e : LinkEvent) : Prop :=
  ∀ handler attempt epoch, e.op = .run handler attempt → handlerEpoch handler = some epoch →
    epoch < e.pre.epoch →
    (∀ chunk, handler ≠ .read epoch (some chunk)) ∧ e.post.transport = e.pre.transport ∧
      (e.outs ≠ [] → e.pre.isOpen = false)

theorem Torn.reset_eq (h : Torn s) (hrunning : s.transport.state ≠ .stopped) :
    reset s.transport = s.transport := by
  obtain ⟨hqueue, hwriting, hdecoder⟩ := h.cleared
  have hstate : s.transport.state = .disconnected := h.state.resolve_right hrunning
  rw [reset, MapTransport.resetConnection, ← hqueue, ← hwriting, ← hdecoder, ← hstate]

/-- A failed read or write of a torn down connection. -/
theorem Torn.isolated (h : Torn s) {handler : HlrHandler} {t' : MapTransport}
    (hfailed : ∃ epoch, handler = .read epoch none ∨ ∃ frame, handler = .written epoch frame false)
    (heffect : HandlerEffect s handler t' outs s') :
    s'.transport = s.transport ∧ (outs ≠ [] → s.isOpen = false) := by
  refine ⟨?_, fun _ => h.isOpen⟩
  cases heffect with
  | stays hbegins hstays hextends =>
    rw [hextends.transport]
    obtain ⟨epoch, rfl | ⟨frame, rfl⟩⟩ := hfailed
    · cases hstays with
      | idle hnot ht hcalls => exact ht
    · cases hstays with
      | idle hnot ht hcalls => exact ht
  | connects attempt hhandler hrunning hcalls hconnects =>
    obtain ⟨epoch, rfl | ⟨frame, rfl⟩⟩ := hfailed
    · cases hhandler
    · cases hhandler
  | unconnected epoch hhandler hcalls hrearmed =>
    rw [hrearmed.transport]
    obtain ⟨epoch', rfl | ⟨frame, rfl⟩⟩ := hfailed
    · rcases hhandler with hhandler | hhandler <;> cases hhandler
    · rcases hhandler with hhandler | hhandler <;> cases hhandler
  | lost epoch hhandler hrunning hcalls hclosed =>
    rw [hclosed.transport]
    exact h.reset_eq hrunning

/-- A wait for the heartbeat of an earlier connection that is over. -/
theorem BeatsApart.isolated (h : BeatsApart s) {epoch : Nat} {ok : Bool} {attempt : ConnectAttempt}
    (hready : .ready (.beatTimer epoch ok) ∈ s.io) (hpast : epoch < s.epoch)
    (hstep : step s (.run (.beatTimer epoch ok) attempt) = .ok (s', outs)) :
    s'.transport = s.transport ∧ outs = [] := by
  obtain ⟨⟨t', calls⟩, hmethod, hstep⟩ := except_bind_eq_ok.mp hstep
  cases hstep
  have hnot : ¬ (ok = true ∧ s.transport.state = .active) := by
    rintro ⟨rfl, hactive⟩
    have := h hactive epoch (mem_view_ready hready rfl)
    omega
  have hidle : s.transport.onBeatTimer ok = (s.transport, []) := by
    unfold MapTransport.onBeatTimer
    split
    · rename_i hok
      exact if_pos fun hactive => hnot ⟨hok.1, hactive⟩
    · rfl
  cases hidle.symm.trans (Except.ok.inj hmethod)
  exact ⟨rfl, rfl⟩

theorem step_isolated (hseparate : Separate s) (hone : OneAttempt s) (hbeats : BeatsApart s)
    (hop : Possible s op) (hstep : step s op = .ok (s', outs)) : Isolated ⟨s, op, outs, s'⟩ := by
  intro handler attempt epoch hrun hepoch hpast
  dsimp only at hrun hpast ⊢
  subst hrun
  have hready : .ready handler ∈ s.io := hop
  have hattempt : epoch ∉ s.attempts := by
    intro hmem
    rcases hone with hnil | ⟨hself, -, -⟩
    · rw [hnil] at hmem
      cases hmem
    · rw [hself, List.mem_singleton] at hmem
      omega
  have htorn : epoch ∈ s.transfers → Torn s := by
    intro hmem
    rcases hseparate with hquiet | htorn
    · have := hquiet epoch hmem
      omega
    · exact htorn
  have heffect : ∃ t', HandlerEffect s handler t' outs s' := by
    obtain ⟨⟨t', calls⟩, hmethod, h⟩ := except_bind_eq_ok.mp hstep
    cases h
    exact ⟨t', run_effect hmethod⟩
  obtain ⟨t', heffect⟩ := heffect
  cases handler with
  | connected k ok =>
    cases hepoch
    exact (hattempt (mem_view_ready hready rfl)).elim
  | connectFailed k =>
    cases hepoch
    exact (hattempt (mem_view_ready hready rfl)).elim
  | read k result =>
    cases hepoch
    have htorn := htorn (mem_view_ready hready rfl)
    cases result with
    | some chunk => cases htorn.not_alive hready
    | none => exact ⟨by simp, htorn.isolated ⟨epoch, .inl rfl⟩ heffect⟩
  | written k frame ok =>
    cases hepoch
    have htorn := htorn (mem_view_ready hready rfl)
    cases ok with
    | true => cases htorn.not_alive hready
    | false => exact ⟨by simp, htorn.isolated ⟨epoch, .inr ⟨frame, rfl⟩⟩ heffect⟩
  | reconnectTimer ok => cases hepoch
  | beatTimer k ok =>
    cases hepoch
    obtain ⟨hsame, hnone⟩ := hbeats.isolated hready hpast hstep
    exact ⟨by simp, hsame, fun hcalls => absurd hnone hcalls⟩
  | send payload => cases hepoch

/-- In a run in which a connection is reset only when nothing of it has succeeded, the next begun
only when nothing of it is pending on a socket, and becomes active only when no heartbeat of an
earlier one is due, no connection has an influence on a later one. -/
theorem connections_isolated {cfg : MapTransportConfig} {events : List LinkEvent} {s : MapLink}
    (hrun : LinkRun cfg events s) (hleaves : ∀ e ∈ events, LeavesNothing e.pre e.op) :
    ∀ e ∈ events, Isolated e := by
  refine (hrun.history (I := fun events s =>
    (OneAttempt s ∧ Separate s ∧ BeatsApart s) ∧ ∀ e ∈ events, Isolated e) hleaves ?_ ?_).2
  · exact ⟨⟨.inl rfl, .of_nil rfl, nofun⟩, by simp⟩
  · rintro events s op outs s' ⟨⟨hone, hseparate, hbeats⟩, hearlier⟩ hop hstep hleaves
    refine ⟨⟨step_oneAttempt hone hop hstep hleaves.connectsAlone,
      step_separate hseparate hone hop hstep hleaves,
      step_beatsApart hbeats hop hstep hleaves⟩, ?_⟩
    intro e he
    rcases List.mem_append.mp he with he | he
    · exact hearlier e he
    · obtain rfl := List.mem_singleton.mp he
      exact step_isolated hseparate hone hbeats hop hstep

/-- The read fails, and the write of the ASPUP after it. The handler of the write comes late, but
before the next connection. -/
theorem failed_write_isolated :
    ∃ events s, LinkRun {} events s ∧ (∀ e ∈ events, LeavesNothing e.pre e.op) ∧
      ∃ e ∈ events, e.op = .run (.written 1 (M3ua.encode M3ua.makeAspUp) false) .started ∧
        e.pre.epoch = 2 ∧ Isolated e := by
  obtain ⟨result, hplay, hleaves, e, he, hop, hepoch⟩ : ∃ result,
      played {} (connecting ++ [.finish (.read 1) (.read 1 none), .run (.read 1 none) .started,
        .run (.written 1 (M3ua.encode M3ua.makeAspUp) false) .started]) = some result ∧
      (∀ e ∈ result.1, LeavesNothing e.pre e.op) ∧
      ∃ e, result.1.getLast? = some e ∧
        e.op = .run (.written 1 (M3ua.encode M3ua.makeAspUp) false) .started ∧ e.pre.epoch = 2 :=
    ⟨_, rfl, by decide, _, rfl, rfl, rfl⟩
  have hrun := run_of_played hplay
  have hmem := List.mem_of_getLast? he
  exact ⟨_, _, hrun, hleaves, e, hmem, hop, hepoch, connections_isolated hrun hleaves e hmem⟩

/-- The same, but the handler of the write comes when the next connection is under way, and
disconnects that. -/
theorem failed_write_not_isolated :
    ¬ ∀ cfg events s, LinkRun cfg events s → ∀ e ∈ events, Isolated e := by
  intro h
  obtain ⟨result, hplay, e, he, hop, hepoch, hbefore, hafter⟩ : ∃ result,
      played {} (connecting ++ [.finish (.read 1) (.read 1 none), .run (.read 1 none) .started,
        .finish .reconnectWait (.reconnectTimer true), .run (.reconnectTimer true) .started,
        .run (.written 1 (M3ua.encode M3ua.makeAspUp) false) .started]) = some result ∧
      ∃ e, result.1.getLast? = some e ∧
        e.op = .run (.written 1 (M3ua.encode M3ua.makeAspUp) false) .started ∧ e.pre.epoch = 3 ∧
        e.pre.transport.state = .connecting ∧ e.post.transport.state = .disconnected :=
    ⟨_, rfl, _, rfl, rfl, rfl, rfl, rfl⟩
  have hisolated := h _ _ _ (run_of_played hplay) e (List.mem_of_getLast? he)
  obtain ⟨-, hsame, -⟩ := hisolated _ _ 1 hop rfl (by rw [hepoch]; decide)
  rw [hsame, hbefore] at hafter
  cases hafter

end MapLink

end GsupMapProxy.Transport
