import GsupMapProxy.Transport.Proofs.MapMethods

/-!
# What a step does to the pending operations

The results about `MapTransport` look at its pending operations in a few ways: the attempts to
connect, the reads and writes, those of them that have not failed, the frames of the writes that
have not failed. What follows says how each kind of call changes them.
-/

namespace GsupMapProxy.Transport

open Misc

open scoped List

namespace HlrOp

/-- Attempts to connect, up to their handler. -/
def attempt? : Pending HlrOp HlrHandler → Option Nat
  | .running (.connect epoch) => some epoch
  | .ready (.connected epoch _) => some epoch
  | .ready (.connectFailed epoch) => some epoch
  | _ => none

/-- Reads and writes, up to their handler. -/
def transfer? : Pending HlrOp HlrHandler → Option Nat
  | .running (.read epoch) => some epoch
  | .running (.write epoch _) => some epoch
  | .ready (.read epoch _) => some epoch
  | .ready (.written epoch _ _) => some epoch
  | _ => none

/-- Reads, up to their handler. -/
def read? : Pending HlrOp HlrHandler → Option Nat
  | .running (.read epoch) => some epoch
  | .ready (.read epoch _) => some epoch
  | _ => none

/-- Reads and writes that have succeeded. -/
def succeeded? : Pending HlrOp HlrHandler → Option Nat
  | .ready (.read epoch (some _)) => some epoch
  | .ready (.written epoch _ true) => some epoch
  | _ => none

/-- Reads and writes that have not failed. -/
def alive? : Pending HlrOp HlrHandler → Option Nat
  | .running (.read epoch) => some epoch
  | .running (.write epoch _) => some epoch
  | item => succeeded? item

/-- The frames of the writes that have succeeded. -/
def sent? : Pending HlrOp HlrHandler → Option Bytes
  | .ready (.written _ frame true) => some frame
  | _ => none

/-- The frames of the writes that have not failed. -/
def frame? : Pending HlrOp HlrHandler → Option Bytes
  | .running (.write _ frame) => some frame
  | item => sent? item

/-- A view that does not see the timers. -/
structure Blind {γ : Type} (v : Pending HlrOp HlrHandler → Option γ) : Prop where
  reconnectWait : v (.running .reconnectWait) = none
  beatWait : ∀ epoch, v (.running (.beatWait epoch)) = none
  reconnectTimer : ∀ ok, v (.ready (.reconnectTimer ok)) = none
  beatTimer : ∀ epoch ok, v (.ready (.beatTimer epoch ok)) = none

theorem attempt?_blind : Blind attempt? := ⟨rfl, fun _ => rfl, fun _ => rfl, fun _ _ => rfl⟩

theorem transfer?_blind : Blind transfer? := ⟨rfl, fun _ => rfl, fun _ => rfl, fun _ _ => rfl⟩

theorem read?_blind : Blind read? := ⟨rfl, fun _ => rfl, fun _ => rfl, fun _ _ => rfl⟩

theorem alive?_blind : Blind alive? := ⟨rfl, fun _ => rfl, fun _ => rfl, fun _ _ => rfl⟩

theorem frame?_blind : Blind frame? := ⟨rfl, fun _ => rfl, fun _ => rfl, fun _ _ => rfl⟩

theorem succeeded?_blind : Blind succeeded? := ⟨rfl, fun _ => rfl, fun _ => rfl, fun _ _ => rfl⟩

theorem sent?_blind : Blind sent? := ⟨rfl, fun _ => rfl, fun _ => rfl, fun _ _ => rfl⟩

end HlrOp

/-- The calls that only concern timers. -/
def MapCall.IsTimer : MapCall → Prop
  | .armReconnect _ => True
  | .armBeat _ => True
  | .cancelReconnect => True
  | .cancelBeat => True
  | _ => False

namespace MapLink

def attempts (s : MapLink) : List Nat := s.io.view HlrOp.attempt?

def transfers (s : MapLink) : List Nat := s.io.view HlrOp.transfer?

def reads (s : MapLink) : List Nat := s.io.view HlrOp.read?

def alive (s : MapLink) : List Nat := s.io.view HlrOp.alive?

def frames (s : MapLink) : List Bytes := s.io.view HlrOp.frame?

def succeeded (s : MapLink) : List Nat := s.io.view HlrOp.succeeded?

def sent (s : MapLink) : List Bytes := s.io.view HlrOp.sent?

variable {s : MapLink} {γ : Type} {v : Pending HlrOp HlrHandler → Option γ}

/-! ## Single calls -/

theorem view_reconnectCancelled (hv : HlrOp.Blind v) :
    (s.io.cancel HlrOp.reconnectCancelled).view v = s.io.view v := by
  apply Proactor.view_cancel_eq
  intro op handler h
  cases op with
  | reconnectWait =>
    cases h
    rw [hv.reconnectWait, hv.reconnectTimer]
  | connect epoch => cases h
  | read epoch => cases h
  | write epoch frame => cases h
  | beatWait epoch => cases h

theorem view_beatCancelled (hv : HlrOp.Blind v) :
    (s.io.cancel HlrOp.beatCancelled).view v = s.io.view v := by
  apply Proactor.view_cancel_eq
  intro op handler h
  cases op with
  | beatWait epoch =>
    cases h
    rw [hv.beatWait, hv.beatTimer]
  | connect epoch => cases h
  | read epoch => cases h
  | write epoch frame => cases h
  | reconnectWait => cases h

/-- The timers leave everything else alone. -/
theorem perform_timer {call : MapCall} (hcall : call.IsTimer) :
    (s.perform call).transport = s.transport ∧ (s.perform call).epoch = s.epoch ∧
      (s.perform call).isOpen = s.isOpen ∧
      ∀ {γ : Type} {v : Pending HlrOp HlrHandler → Option γ}, HlrOp.Blind v →
        (s.perform call).io.view v = s.io.view v := by
  cases call with
  | armReconnect after =>
    refine ⟨rfl, rfl, rfl, fun hv => ?_⟩
    rw [perform, Proactor.view_begin, hv.reconnectWait, view_reconnectCancelled hv]
    exact List.append_nil _
  | armBeat after =>
    refine ⟨rfl, rfl, rfl, fun hv => ?_⟩
    rw [perform, Proactor.view_begin, hv.beatWait, view_beatCancelled hv]
    exact List.append_nil _
  | cancelReconnect => exact ⟨rfl, rfl, rfl, view_reconnectCancelled⟩
  | cancelBeat => exact ⟨rfl, rfl, rfl, view_beatCancelled⟩
  | asyncConnect => cases hcall
  | asyncRead => cases hcall
  | asyncWrite frame => cases hcall
  | openSocket => cases hcall
  | closeSocket => cases hcall
  | postConnectFailed => cases hcall
  | messageCb payload => cases hcall
  | disconnectCb => cases hcall

theorem closed_attempts : (s.perform .closeSocket).attempts = s.attempts := by
  apply Proactor.view_cancel_eq
  intro op handler h
  cases op <;> cases h <;> rfl

theorem closed_transfers : (s.perform .closeSocket).transfers = s.transfers := by
  apply Proactor.view_cancel_eq
  intro op handler h
  cases op <;> cases h <;> rfl

theorem closed_reads : (s.perform .closeSocket).reads = s.reads := by
  apply Proactor.view_cancel_eq
  intro op handler h
  cases op <;> cases h <;> rfl

/-- After closing the socket only what has succeeded already is left to succeed. -/
theorem closed_alive : (s.perform .closeSocket).alive = s.succeeded := by
  have hsame : HlrOp.alive? ∘ Proactor.aborted HlrOp.closed = HlrOp.succeeded? := by
    funext item
    rcases item with op | handler
    · cases op <;> rfl
    · rfl
  rw [alive, perform, Proactor.view_cancel, hsame, succeeded]

theorem closed_frames : (s.perform .closeSocket).frames = s.sent := by
  have hsame : HlrOp.frame? ∘ Proactor.aborted HlrOp.closed = HlrOp.sent? := by
    funext item
    rcases item with op | handler
    · cases op <;> rfl
    · rfl
  rw [frames, perform, Proactor.view_cancel, hsame, sent]

theorem sent_sublist : s.sent <+ s.frames := by
  apply Proactor.view_sublist
  intro item
  rcases item with op | handler
  · exact .inl (by cases op <;> rfl)
  · exact .inr rfl

theorem succeeded_sublist : s.succeeded <+ s.alive := by
  apply Proactor.view_sublist
  intro item
  rcases item with op | handler
  · exact .inl (by cases op <;> rfl)
  · exact .inr rfl

/-! ## Calls for the connection there is -/

/-- What a read or write adds to the pending operations. -/
def started (s : MapLink) : MapCall → Option (Pending HlrOp HlrHandler)
  | .asyncRead =>
      some (if s.isOpen then .running (.read s.epoch) else .ready (.read s.epoch none))
  | .asyncWrite frame =>
      some (if s.isOpen then .running (.write s.epoch frame)
        else .ready (.written s.epoch frame false))
  | _ => none

/-- The link is the same but for operations, and for timers. -/
structure Extends (s s' : MapLink) (calls : List MapCall) : Prop where
  transport : s'.transport = s.transport
  epoch : s'.epoch = s.epoch
  isOpen : s'.isOpen = s.isOpen
  view : ∀ {γ : Type} {v : Pending HlrOp HlrHandler → Option γ}, HlrOp.Blind v →
    s'.io.view v = s.io.view v ++ calls.filterMap fun call => (s.started call).bind v

theorem perform_local {call : MapCall} (hcall : call.IsLocal) :
    Extends s (s.perform call) [call] := by
  have hnone : ∀ {γ : Type} {v : Pending HlrOp HlrHandler → Option γ}, s.started call = none →
      [call].filterMap (fun call => (s.started call).bind v) = [] := by
    intro γ v h
    simp [h]
  cases call with
  | asyncRead =>
    rw [perform, beginOnSocket]
    split
    · rename_i hopen
      refine ⟨rfl, rfl, rfl, fun {γ v} _ => ?_⟩
      rw [Proactor.view_begin]
      cases h : v (.running (.read s.epoch)) <;> simp [started, hopen, h]
    · rename_i hopen
      refine ⟨rfl, rfl, rfl, fun {γ v} _ => ?_⟩
      rw [Proactor.view_post]
      cases h : v (.ready (.read s.epoch none)) <;> simp [started, hopen, h]
  | asyncWrite frame =>
    rw [perform, beginOnSocket]
    split
    · rename_i hopen
      refine ⟨rfl, rfl, rfl, fun {γ v} _ => ?_⟩
      rw [Proactor.view_begin]
      cases h : v (.running (.write s.epoch frame)) <;> simp [started, hopen, h]
    · rename_i hopen
      refine ⟨rfl, rfl, rfl, fun {γ v} _ => ?_⟩
      rw [Proactor.view_post]
      cases h : v (.ready (.written s.epoch frame false)) <;> simp [started, hopen, h]
  | armBeat after =>
    have htimer : (MapCall.armBeat after).IsTimer := trivial
    obtain ⟨htransport, hepoch, hopen, hview⟩ := perform_timer (s := s) htimer
    exact ⟨htransport, hepoch, hopen, fun hv => by rw [hview hv, hnone rfl, List.append_nil]⟩
  | messageCb payload =>
    exact ⟨rfl, rfl, rfl, fun _ => by rw [hnone rfl, List.append_nil]; rfl⟩
  | asyncConnect => cases hcall
  | openSocket => cases hcall
  | closeSocket => cases hcall
  | armReconnect after => cases hcall
  | cancelReconnect => cases hcall
  | cancelBeat => cases hcall
  | postConnectFailed => cases hcall
  | disconnectCb => cases hcall

theorem started_congr {s' : MapLink} (hepoch : s'.epoch = s.epoch) (hopen : s'.isOpen = s.isOpen) :
    s'.started = s.started := by
  funext call
  cases call <;> simp [started, hepoch, hopen]

theorem foldl_perform_local {calls : List MapCall} (hcalls : ∀ c ∈ calls, c.IsLocal) :
    Extends s (calls.foldl perform s) calls := by
  induction calls generalizing s with
  | nil => exact ⟨rfl, rfl, rfl, fun _ => by simp⟩
  | cons call calls ih =>
    obtain ⟨htransport, hepoch, hopen, hview⟩ := perform_local (s := s) (hcalls call (by simp))
    obtain ⟨htransport', hepoch', hopen', hview'⟩ :=
      ih (s := s.perform call) fun c hc => hcalls c (by simp [hc])
    refine ⟨htransport'.trans htransport, hepoch'.trans hepoch, hopen'.trans hopen, fun hv => ?_⟩
    rw [List.foldl_cons, hview' hv, hview hv, started_congr hepoch hopen, List.append_assoc,
      ← List.filterMap_append]
    rfl

section Local

variable {s' : MapLink} {calls : List MapCall}

theorem Extends.idle_view (h : Extends s s' []) (hv : HlrOp.Blind v) :
    s'.io.view v = s.io.view v := by
  rw [h.view hv]
  exact List.append_nil _

theorem Extends.attempts (h : Extends s s' calls) : s'.attempts = s.attempts := by
  have hnone : calls.filterMap (fun call => (s.started call).bind HlrOp.attempt?) = [] := by
    rw [List.filterMap_eq_nil_iff]
    intro call _
    unfold started
    split
    · split <;> rfl
    · split <;> rfl
    · rfl
  rw [MapLink.attempts, h.view HlrOp.attempt?_blind, hnone, List.append_nil]
  rfl

theorem Extends.mem_transfers (h : Extends s s' calls) {epoch : Nat}
    (hmem : epoch ∈ s'.transfers) : epoch ∈ s.transfers ∨ epoch = s.epoch := by
  rw [MapLink.transfers, h.view HlrOp.transfer?_blind] at hmem
  rcases List.mem_append.mp hmem with hmem | hmem
  · exact .inl hmem
  · obtain ⟨call, -, hcall⟩ := List.mem_filterMap.mp hmem
    refine .inr ?_
    unfold started at hcall
    split at hcall
    · split at hcall <;> exact (Option.some.inj hcall).symm
    · split at hcall <;> exact (Option.some.inj hcall).symm
    · cases hcall

theorem Extends.mem_reads (h : Extends s s' calls) {epoch : Nat} (hmem : epoch ∈ s'.reads) :
    epoch ∈ s.reads ∨ epoch = s.epoch ∧ .asyncRead ∈ calls := by
  rw [MapLink.reads, h.view HlrOp.read?_blind] at hmem
  rcases List.mem_append.mp hmem with hmem | hmem
  · exact .inl hmem
  · obtain ⟨call, hin, hcall⟩ := List.mem_filterMap.mp hmem
    refine .inr ?_
    unfold started at hcall
    split at hcall
    · split at hcall <;> exact ⟨(Option.some.inj hcall).symm, hin⟩
    · split at hcall <;> cases hcall
    · cases hcall

theorem Extends.frames (h : Extends s s' calls) : s'.frames <+ s.frames ++ writesOf calls := by
  rw [MapLink.frames, h.view HlrOp.frame?_blind]
  refine List.Sublist.append_left ?_ _
  cases hopen : s.isOpen with
  | true =>
    have hsame : (fun call => (s.started call).bind HlrOp.frame?) = MapCall.write? := by
      funext call
      cases call <;> simp [started, hopen, HlrOp.frame?, HlrOp.sent?, MapCall.write?]
    rw [hsame, writesOf]
  | false =>
    have hnone : (fun call => (s.started call).bind HlrOp.frame?) = fun _ => none := by
      funext call
      cases call <;> simp [started, hopen, HlrOp.frame?, HlrOp.sent?]
    rw [hnone, List.filterMap_none]
    exact List.nil_sublist _

end Local

/-! ## Calls that end a connection -/

/-- The socket has been closed. -/
structure Closes (s s' : MapLink) : Prop where
  transport : s'.transport = s.transport
  epoch : s'.epoch = s.epoch
  isOpen : s'.isOpen = false
  attempts : s'.attempts = s.attempts
  transfers : s'.transfers = s.transfers
  reads : s'.reads = s.reads
  alive : s'.alive = s.succeeded
  frames : s'.frames = s.sent

theorem closeSocket_closes : Closes s (s.perform .closeSocket) :=
  ⟨rfl, rfl, rfl, closed_attempts, closed_transfers, closed_reads, closed_alive, closed_frames⟩

/-- Timers before and after make no difference. -/
theorem Closes.timer_after {s' : MapLink} (h : Closes s s') {call : MapCall}
    (hcall : call.IsTimer) : Closes s (s'.perform call) := by
  obtain ⟨htransport, hepoch, hopen, hview⟩ := perform_timer (s := s') hcall
  exact ⟨htransport.trans h.transport, hepoch.trans h.epoch, hopen.trans h.isOpen,
    (hview HlrOp.attempt?_blind).trans h.attempts, (hview HlrOp.transfer?_blind).trans h.transfers,
    (hview HlrOp.read?_blind).trans h.reads, (hview HlrOp.alive?_blind).trans h.alive,
    (hview HlrOp.frame?_blind).trans h.frames⟩

theorem Closes.timer_before {s' : MapLink} {call : MapCall} (hcall : call.IsTimer)
    (h : Closes (s.perform call) s') : Closes s s' := by
  obtain ⟨htransport, hepoch, -, hview⟩ := perform_timer (s := s) hcall
  exact ⟨h.transport.trans htransport, h.epoch.trans hepoch, h.isOpen,
    h.attempts.trans (hview HlrOp.attempt?_blind), h.transfers.trans (hview HlrOp.transfer?_blind),
    h.reads.trans (hview HlrOp.read?_blind), h.alive.trans (hview HlrOp.succeeded?_blind),
    h.frames.trans (hview HlrOp.sent?_blind)⟩

theorem teardown_closes : Closes s (teardown.foldl perform s) := by
  have htimer : (MapCall.armReconnect 0).IsTimer := trivial
  exact closeSocket_closes.timer_after htimer

theorem cancelBeat_teardown_closes : Closes s ((.cancelBeat :: teardown).foldl perform s) := by
  have htimer : MapCall.cancelBeat.IsTimer := trivial
  exact Closes.timer_before htimer teardown_closes

theorem stop_closes (t : MapTransport) :
    Closes { s with transport := t.stop.1 } (s.after t.stop) := by
  have hreconnect : MapCall.cancelReconnect.IsTimer := trivial
  have hbeat : MapCall.cancelBeat.IsTimer := trivial
  exact Closes.timer_before hreconnect (Closes.timer_before hbeat closeSocket_closes)

/-! ## Connecting -/

/-- There is one more attempt to connect. -/
structure Connects (s s' : MapLink) : Prop where
  transport : s'.transport = s.transport
  epoch : s'.epoch = s.epoch
  attempts : s'.attempts = s.attempts ++ [s.epoch]
  transfers : s'.transfers = s.transfers
  reads : s'.reads = s.reads
  frames : s'.frames <+ s.frames

theorem postConnectFailed_connects : Connects s (s.perform .postConnectFailed) := by
  have hview : ∀ {γ : Type} (v : Pending HlrOp HlrHandler → Option γ),
      (s.perform .postConnectFailed).io.view v =
        s.io.view v ++ (v (.ready (.connectFailed s.epoch))).toList :=
    fun v => Proactor.view_post _
  refine ⟨rfl, rfl, hview _, ?_, ?_, ?_⟩
  · rw [transfers, hview]
    exact List.append_nil _
  · rw [reads, hview]
    exact List.append_nil _
  · rw [frames, hview]
    exact (List.append_nil _).symm ▸ List.Sublist.refl _

theorem asyncConnect_connects (hopen : s.isOpen = true) :
    Connects s (s.perform .asyncConnect) := by
  have hview : ∀ {γ : Type} (v : Pending HlrOp HlrHandler → Option γ),
      (s.perform .asyncConnect).io.view v =
        s.io.view v ++ (v (.running (.connect s.epoch))).toList := by
    intro γ v
    rw [perform, beginOnSocket, if_pos hopen]
    exact Proactor.view_begin _
  refine ⟨?_, ?_, hview _, ?_, ?_, ?_⟩
  · rw [perform, beginOnSocket, if_pos hopen]
  · rw [perform, beginOnSocket, if_pos hopen]
  · rw [transfers, hview]
    exact List.append_nil _
  · rw [reads, hview]
    exact List.append_nil _
  · rw [frames, hview]
    exact (List.append_nil _).symm ▸ List.Sublist.refl _

/-- Closing the socket first makes no difference to an attempt. -/
theorem Connects.of_closed {s₁ s' : MapLink} (hclosed : Closes s s₁) (h : Connects s₁ s') :
    Connects s s' := by
  refine ⟨h.transport.trans hclosed.transport, h.epoch.trans hclosed.epoch, ?_,
    h.transfers.trans hclosed.transfers, h.reads.trans hclosed.reads, ?_⟩
  · rw [h.attempts, hclosed.attempts, hclosed.epoch]
  · have hframes := h.frames
    rw [hclosed.frames] at hframes
    exact hframes.trans sent_sublist

theorem openSocket_connects {s' : MapLink} (h : Connects (s.perform .openSocket) s') :
    Connects s s' :=
  ⟨h.transport, h.epoch, h.attempts, h.transfers, h.reads, h.frames⟩

theorem connect_connects (t : MapTransport) (attempt : ConnectAttempt) :
    Connects { s with transport := { t with state := .connecting } }
      (s.after (t.connect attempt)) := by
  cases attempt with
  | unresolved => exact postConnectFailed_connects
  | notOpened => exact Connects.of_closed closeSocket_closes postConnectFailed_connects
  | started =>
    exact Connects.of_closed closeSocket_closes (openSocket_connects (asyncConnect_connects rfl))

/-! ## Steps -/

theorem taking_view_subperm {handler : HlrHandler} (hready : .ready handler ∈ s.io)
    (v : Pending HlrOp HlrHandler → Option γ) : (s.taking handler).io.view v <+~ s.io.view v :=
  Proactor.view_take_subperm hready

theorem taking_epoch_of_not_begins {handler : HlrHandler}
    (hbegins : beginsEpoch s.transport handler = false) : (s.taking handler).epoch = s.epoch :=
  if_neg (by rw [hbegins]; decide)

theorem taking_epoch_of_begins {handler : HlrHandler}
    (hbegins : beginsEpoch s.transport handler = true) : (s.taking handler).epoch = s.epoch + 1 :=
  if_pos hbegins

theorem begins_of_failed {handler : HlrHandler} {epoch : Nat}
    (hhandler : handler = .read epoch none ∨ ∃ frame, handler = .written epoch frame false)
    (hrunning : s.transport.state ≠ .stopped) : beginsEpoch s.transport handler = true := by
  rcases hhandler with rfl | ⟨frame, rfl⟩
  · exact decide_eq_true hrunning
  · exact decide_eq_true hrunning

theorem mem_view_ready {handler : HlrHandler} (hready : .ready handler ∈ s.io) {x : γ}
    (hv : v (.ready handler) = some x) : x ∈ s.io.view v :=
  Proactor.mem_view.mpr ⟨_, hready, hv⟩

/-- Nothing but completions has happened. -/
structure Same (s s' : MapLink) : Prop where
  transport : s'.transport = s.transport
  epoch : s'.epoch = s.epoch
  isOpen : s'.isOpen = s.isOpen
  attempts : s'.attempts ~ s.attempts
  transfers : s'.transfers ~ s.transfers
  reads : s'.reads ~ s.reads
  alive : s'.alive <+~ s.alive
  frames : s'.frames <+~ s.frames

theorem Same.of_view {s' : MapLink} (htransport : s'.transport = s.transport)
    (hepoch : s'.epoch = s.epoch) (hopen : s'.isOpen = s.isOpen)
    (hattempts : s'.attempts = s.attempts) (htransfers : s'.transfers = s.transfers)
    (hreads : s'.reads = s.reads) (halive : s'.alive = s.alive) (hframes : s'.frames = s.frames) :
    Same s s' :=
  ⟨htransport, hepoch, hopen, .of_eq hattempts, .of_eq htransfers, .of_eq hreads,
    (List.Perm.of_eq halive).subperm, (List.Perm.of_eq hframes).subperm⟩

theorem perform_timer_same {call : MapCall} (hcall : call.IsTimer) : Same s (s.perform call) := by
  obtain ⟨htransport, hepoch, hopen, hview⟩ := perform_timer (s := s) hcall
  exact .of_view htransport hepoch hopen (hview HlrOp.attempt?_blind)
    (hview HlrOp.transfer?_blind) (hview HlrOp.read?_blind) (hview HlrOp.alive?_blind)
    (hview HlrOp.frame?_blind)

theorem start_same : Same s (s.after s.transport.start) := by
  show Same s (s.transport.scheduleConnect.foldl perform s)
  unfold MapTransport.scheduleConnect
  split
  · exact .of_view rfl rfl rfl rfl rfl rfl rfl rfl
  · rw [List.foldl_cons, List.foldl_nil]
    apply perform_timer_same
    trivial

theorem send_same (payload : Bytes) : Same s { s with io := s.io.post (.send payload) } := by
  have hview : ∀ {γ : Type} (v : Pending HlrOp HlrHandler → Option γ),
      v (.ready (.send payload)) = none → (s.io.post (.send payload)).view v = s.io.view v := by
    intro γ v hv
    rw [Proactor.view_post, hv]
    exact List.append_nil _
  exact .of_view rfl rfl rfl (hview _ rfl) (hview _ rfl) (hview _ rfl) (hview _ rfl) (hview _ rfl)

/-- An operation completes as what it is. -/
theorem completesAs_views {op : HlrOp} {handler : HlrHandler} (h : op.completesAs handler) :
    HlrOp.attempt? (.ready handler) = HlrOp.attempt? (.running op) ∧
      HlrOp.transfer? (.ready handler) = HlrOp.transfer? (.running op) ∧
      HlrOp.read? (.ready handler) = HlrOp.read? (.running op) ∧
      (HlrOp.alive? (.ready handler) = none ∨
        HlrOp.alive? (.ready handler) = HlrOp.alive? (.running op)) ∧
      (HlrOp.frame? (.ready handler) = none ∨
        HlrOp.frame? (.ready handler) = HlrOp.frame? (.running op)) := by
  unfold HlrOp.completesAs at h
  split at h
  · obtain rfl := of_decide_eq_true h
    exact ⟨rfl, rfl, rfl, .inl rfl, .inl rfl⟩
  · obtain rfl := of_decide_eq_true h
    exact ⟨rfl, rfl, rfl, .inl rfl, .inl rfl⟩
  · obtain ⟨rfl, -⟩ := of_decide_eq_true h
    exact ⟨rfl, rfl, rfl, .inr rfl, .inl rfl⟩
  · rename_i ok
    obtain ⟨rfl, rfl⟩ := of_decide_eq_true h
    cases ok with
    | true => exact ⟨rfl, rfl, rfl, .inr rfl, .inr rfl⟩
    | false => exact ⟨rfl, rfl, rfl, .inl rfl, .inl rfl⟩
  · exact ⟨rfl, rfl, rfl, .inl rfl, .inl rfl⟩
  · exact ⟨rfl, rfl, rfl, .inl rfl, .inl rfl⟩
  · cases h

theorem finish_same {op : HlrOp} {handler : HlrHandler} (hop : .running op ∈ s.io)
    (h : op.completesAs handler) : Same s { s with io := s.io.finish op handler } := by
  obtain ⟨hattempt, htransfer, hread, halive, hframe⟩ := completesAs_views h
  have hperm : ∀ {γ : Type} (v : Pending HlrOp HlrHandler → Option γ),
      v (.ready handler) = v (.running op) → (s.io.finish op handler).view v ~ s.io.view v := by
    intro γ v hv
    obtain ⟨rest, hbefore, hafter⟩ := Proactor.perm_view_finish (v := v) hop handler
    rw [hv] at hafter
    exact hafter.trans hbefore.symm
  exact ⟨rfl, rfl, rfl, hperm _ hattempt, hperm _ htransfer, hperm _ hread,
    Proactor.view_finish_subperm hop halive, Proactor.view_finish_subperm hop hframe⟩

/-- What running a handler does. -/
inductive HandlerEffect (s : MapLink) (handler : HlrHandler) (t' : MapTransport)
    (calls : List MapCall) (s' : MapLink) : Prop
  | stays (hbegins : beginsEpoch s.transport handler = false)
      (hstays : Stays s.transport t' calls handler)
      (h : Extends { s.taking handler with transport := t' } s' calls)
  | connects (attempt : ConnectAttempt) (hhandler : handler = .reconnectTimer true)
      (hrunning : s.transport.state ≠ .stopped) (hcalls : calls = (s.transport.connect attempt).2)
      (h : Connects
        { s.taking handler with transport := { s.transport with state := .connecting } } s')
  | unconnected (epoch : Nat)
      (hhandler : handler = .connected epoch false ∨ handler = .connectFailed epoch)
      (hcalls : calls = [.armReconnect 0])
      (h : Same { s.taking handler with transport := reset s.transport } s')
  | lost (epoch : Nat)
      (hhandler : handler = .read epoch none ∨ ∃ frame, handler = .written epoch frame false)
      (hrunning : s.transport.state ≠ .stopped)
      (hcalls : calls = .cancelBeat :: teardown ∨ calls = teardown)
      (h : Closes { s.taking handler with transport := reset s.transport } s')

theorem run_effect {handler : HlrHandler} {attempt : ConnectAttempt} {t' : MapTransport}
    {calls : List MapCall} (h : method s.transport attempt handler = .ok (t', calls)) :
    HandlerEffect s handler t' calls ((s.taking handler).after (t', calls)) := by
  cases hbegins : beginsEpoch s.transport handler with
  | false =>
    have hstays := method_stays hbegins h
    exact .stays hbegins hstays (foldl_perform_local hstays.isLocal)
  | true =>
    rcases method_begins hbegins h with ⟨hhandler, hrunning, heq⟩ | ⟨rfl, heffect⟩
    · rw [heq]
      exact .connects attempt hhandler hrunning (congrArg Prod.snd heq) (connect_connects _ _)
    · rcases heffect with ⟨⟨epoch, hhandler⟩, rfl⟩ | ⟨hrunning, ⟨epoch, hhandler⟩, rfl⟩ |
        ⟨hrunning, ⟨epoch, frame, hhandler⟩, rfl⟩
      · have htimer : (MapCall.armReconnect 0).IsTimer := trivial
        exact .unconnected epoch hhandler rfl (perform_timer_same htimer)
      · exact .lost epoch (.inl hhandler) hrunning (.inl rfl) cancelBeat_teardown_closes
      · exact .lost epoch (.inr ⟨frame, hhandler⟩) hrunning (.inr rfl) teardown_closes

/-- A handler has begun an epoch, of which nothing is read or written yet. -/
structure NewEpoch (s : MapLink) (handler : HlrHandler) (s' : MapLink) : Prop where
  begins : beginsEpoch s.transport handler = true
  epoch : s'.epoch = s.epoch + 1
  transfers : s'.transfers ⊆ s.transfers
  reads : s'.reads ⊆ s.reads
  transport : s'.transport = { s.transport with state := .connecting } ∨
    s'.transport = reset s.transport

theorem NewEpoch.state {handler : HlrHandler} {s' : MapLink} (h : NewEpoch s handler s') :
    s'.transport.state = .connecting ∨ s'.transport.state = .disconnected := by
  rcases h.transport with heq | heq
  · exact .inl (congrArg MapTransport.state heq)
  · exact .inr (congrArg MapTransport.state heq)

/-- Most invariants need not know which of the handlers that begin an epoch it was. -/
theorem HandlerEffect.stays_or_newEpoch {handler : HlrHandler} {t' : MapTransport}
    {calls : List MapCall} {s' : MapLink} (hready : .ready handler ∈ s.io)
    (h : HandlerEffect s handler t' calls s') :
    (beginsEpoch s.transport handler = false ∧ Stays s.transport t' calls handler ∧
      Extends { s.taking handler with transport := t' } s' calls) ∨ NewEpoch s handler s' := by
  have htransfers : (s.taking handler).transfers ⊆ s.transfers :=
    (taking_view_subperm hready _).subset
  have hreads : (s.taking handler).reads ⊆ s.reads := (taking_view_subperm hready _).subset
  cases h with
  | stays hbegins hstays hextends => exact .inl ⟨hbegins, hstays, hextends⟩
  | connects attempt hhandler hrunning hcalls hconnects =>
    subst hhandler
    have hbegins : beginsEpoch s.transport (.reconnectTimer true) = true := by
      simpa [beginsEpoch] using hrunning
    refine .inr ⟨hbegins, ?_, ?_, ?_, .inl hconnects.transport⟩
    · rw [hconnects.epoch]
      exact taking_epoch_of_begins hbegins
    · rw [hconnects.transfers]
      exact htransfers
    · rw [hconnects.reads]
      exact hreads
  | unconnected epoch hhandler hcalls hrearmed =>
    have hbegins : beginsEpoch s.transport handler = true := by
      rcases hhandler with rfl | rfl <;> rfl
    refine .inr ⟨hbegins, ?_, ?_, ?_, .inr hrearmed.transport⟩
    · rw [hrearmed.epoch]
      exact taking_epoch_of_begins hbegins
    · exact fun k hk => htransfers (hrearmed.transfers.subset hk)
    · exact fun k hk => hreads (hrearmed.reads.subset hk)
  | lost epoch hhandler hrunning hcalls hclosed =>
    have hbegins := begins_of_failed hhandler hrunning
    refine .inr ⟨hbegins, ?_, ?_, ?_, .inr hclosed.transport⟩
    · rw [hclosed.epoch]
      exact taking_epoch_of_begins hbegins
    · rw [hclosed.transfers]
      exact htransfers
    · rw [hclosed.reads]
      exact hreads

/-- What a step can do. -/
theorem step_cases {s' : MapLink} {op : LinkInput} {outs : List MapCall} (hop : Possible s op)
    (h : step s op = .ok (s', outs)) :
    Same s s' ∧ (∀ handler attempt, op ≠ .run handler attempt) ∧ op ≠ .stop ∧
        (∀ c ∈ outs, c.IsTimer) ∨
    op = .stop ∧ outs = [.cancelReconnect, .cancelBeat, .closeSocket] ∧
        Closes { s with transport := { s.transport with state := .stopped } } s' ∨
    ∃ handler attempt t', op = .run handler attempt ∧ .ready handler ∈ s.io ∧
      HandlerEffect s handler t' outs s' := by
  cases op with
  | start =>
    cases h
    refine .inl ⟨start_same, by simp, by simp, ?_⟩
    unfold MapTransport.start MapTransport.scheduleConnect
    dsimp only
    split
    · simp
    · simp [MapCall.IsTimer]
  | stop =>
    cases h
    exact .inr (.inl ⟨rfl, rfl, stop_closes _⟩)
  | send payload =>
    cases h
    exact .inl ⟨send_same payload, by simp, by simp, by simp⟩
  | finish op handler =>
    cases h
    exact .inl ⟨finish_same hop.1 hop.2, by simp, by simp, by simp⟩
  | run handler attempt =>
    obtain ⟨⟨t', calls⟩, hmethod, h⟩ := except_bind_eq_ok.mp h
    cases h
    exact .inr (.inr ⟨handler, attempt, t', rfl, hop, run_effect hmethod⟩)

theorem epoch_le_step {s' : MapLink} {op : LinkInput} {outs : List MapCall} (hop : Possible s op)
    (h : step s op = .ok (s', outs)) : s.epoch ≤ s'.epoch := by
  rcases step_cases hop h with ⟨hsame, -⟩ | ⟨-, -, hclosed⟩ |
    ⟨handler, attempt, t', rfl, hready, heffect⟩
  · exact Nat.le_of_eq hsame.epoch.symm
  · exact Nat.le_of_eq hclosed.epoch.symm
  · rcases heffect.stays_or_newEpoch hready with ⟨hbegins, -, hextends⟩ | hnew
    · rw [hextends.epoch]
      exact Nat.le_of_eq (taking_epoch_of_not_begins hbegins).symm
    · rw [hnew.epoch]
      exact Nat.le_succ _

/-! ## Particular runs -/

/-- The run with these inputs, if there is one. -/
def played (cfg : MapTransportConfig) (inputs : List LinkInput) :
    Option (List LinkEvent × MapLink) :=
  play step Possible [] { transport := { cfg := cfg } } inputs

theorem run_of_played {cfg : MapTransportConfig} {inputs : List LinkInput}
    {result : List LinkEvent × MapLink} (h : played cfg inputs = some result) :
    LinkRun cfg result.1 result.2 :=
  Run.of_play .nil h

/-- The transport is started and gets a connection; the ASPUP is being written. -/
def connecting : List LinkInput :=
  [.start, .finish .reconnectWait (.reconnectTimer true), .run (.reconnectTimer true) .started,
    .finish (.connect 1) (.connected 1 true), .run (.connected 1 true) .started]

end MapLink

end GsupMapProxy.Transport
