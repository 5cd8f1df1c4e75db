import Mathlib.Algebra.BigOperators.Group.Finset.Basic
import Mathlib.Algebra.Order.BigOperators.Group.List
import Mathlib.Algebra.Order.Group.Nat
import Mathlib.Algebra.Module.NatInt
import GsupMapProxy.Process.Proofs.Survival
import GsupMapProxy.Proxy.Proofs.HlrAnswers
import GsupMapProxy.Transport.Proofs.SessionWrites

/-!
# Tasks and writes come to an end

Handlers post tasks, tasks post further tasks and start writes, a write that is over starts the
next one, and a write that fails refuses requests, which posts tasks again. As long as there is no
other handler in between, there is a bound for this, in whatever order and with whatever outcome.
It counts what is posted, queued and being written, each with what it can lead to, and the requests
that a failed write would refuse.

The other handlers are those of accepts, connects, reads and timers, and a timer may well go on for
ever: while the name of the HLR cannot be resolved, the reconnect timer expires at once and posts
a failure, which arms it again.
-/

namespace GsupMapProxy

open Misc Transport

/-- The next task is run, or a write is over. -/
def Process.Flushes (p : Process) : Happening → Prop
  | .task _ => p.tasks ≠ []
  | .sessionWritten _ _ _ => True
  | .hlrWritten _ _ _ _ => True
  | _ => False

instance (p : Process) (h : Happening) : Decidable (p.Flushes h) :=
  match h with
  | .task _ => inferInstanceAs (Decidable (p.tasks ≠ []))
  | .sessionWritten _ _ _ => .isTrue trivial
  | .hlrWritten _ _ _ _ => .isTrue trivial
  | .accepted _ | .sessionRead _ _ _ | .hlrConnected _ _ | .hlrRead _ _ _ _ | .reconnectTimer _ _
  | .beatTimer _ | .tick _ _ _ | .stopServer _ | .stopHlr => .isFalse id

/-- Neither can happen. -/
def Process.Flushed (p : Process) : Prop := ∀ h, p.Possible h → ¬ p.Flushes h

/-- A write of the session fails. -/
def Happening.failsWrite (object : Nat) : Happening → Bool
  | .sessionWritten o _ ok => decide (o = object) && !ok
  | _ => false

def AsyncOp.isWrite : AsyncOp → Bool
  | .write _ _ => true
  | .hlrWrite _ _ => true
  | _ => false

/-- The steps that a task can lead to, itself included. A frame that is put into a queue counts
twice, as it is queued and being written before it is gone. -/
def Task.steps (sessions : Nat) : Task → Nat
  | .serverSend _ _ => 1 + 3 * sessions
  | .sessionEnqueue _ _ => 3
  | .hlrSend _ => 3
  | .hlrConnectFailed => 1

/-- The frames in the queues of the sessions. -/
def Transport.IpaServer.backlog (server : IpaServer) : Nat :=
  ∑ object ∈ server.objects.keys,
    ((server.objects.lookup object).map fun t => t.writeQueue.length).getD 0

/-- What is posted, and what a NAK would post. -/
def Process.posted (p : Process) : Nat :=
  (p.tasks.map (Task.steps p.server.sessions.keys.card)).sum +
    p.proxy.pendingOps.keys.card * (1 + 3 * p.server.sessions.keys.card)

/-- What is queued or being written. -/
def Process.unwritten (p : Process) : Nat :=
  p.server.backlog + p.hlr.writeQueue.length + p.pending.countP AsyncOp.isWrite

/-- A bound for the tasks that are run and the writes that end, with no other handler in between. -/
def Process.work (p : Process) : Nat := p.posted + p.unwritten

/-! ## Tables and tasks -/

theorem Enumerates.length_eq {K V : Type} [DecidableEq K] {order : List K}
    {table : Finmap fun _ : K => V} (h : Enumerates order table) :
    order.length = table.keys.card := by
  have hkeys : order.toFinset = table.keys := by
    ext k
    rw [List.mem_toFinset, h.2, Finmap.mem_keys]
  rw [← hkeys, List.toFinset_card_of_nodup h.1]

theorem Task.steps_mono {n n' : Nat} (h : n ≤ n') (task : Task) : task.steps n ≤ task.steps n' := by
  cases task with
  | serverSend payload client => simp only [steps]; omega
  | sessionEnqueue object frame => exact Nat.le_refl _
  | hlrSend payload => exact Nat.le_refl _
  | hlrConnectFailed => exact Nat.le_refl _

theorem Transport.IpaServer.recipients_length {server : IpaServer} {order : List ClientId}
    (horder : Enumerates order server.sessions) (client : ClientId) :
    (server.recipients order client).length ≤ server.sessions.keys.card := by
  unfold recipients
  dsimp only
  split
  · rw [← horder.length_eq]
    exact List.length_filterMap_le _ _
  · cases hid : server.sessions.lookup client with
    | none => simp
    | some object =>
      -- there is at least this one
      have hmem : client ∈ server.sessions.keys :=
        Finmap.mem_keys.mpr (Finmap.mem_of_lookup_eq_some hid)
      exact Nat.le_trans (Option.length_toList_le) (Finset.card_pos.mpr ⟨client, hmem⟩)

/-- Only one summand changes. -/
theorem Transport.IpaServer.backlog_update {server : IpaServer} {object : Nat} {t : IpaSession}
    (h : server.objects.lookup object = some t) (t' : IpaSession) :
    (server.update object t').backlog + t.writeQueue.length =
      server.backlog + t'.writeQueue.length := by
  have hmem : object ∈ server.objects.keys :=
    Finmap.mem_keys.mpr (Finmap.mem_of_lookup_eq_some h)
  have hkeys : (server.update object t').objects.keys = server.objects.keys := by
    ext o
    rw [Finmap.mem_keys, mem_update, Finmap.mem_keys]
    constructor
    · rintro (rfl | ho)
      · exact Finmap.mem_keys.mp hmem
      · exact ho
    · exact .inr
  have hothers : ∀ o ∈ server.objects.keys.erase object,
      (((server.update object t').objects.lookup o).map fun t => t.writeQueue.length).getD 0 =
        ((server.objects.lookup o).map fun t => t.writeQueue.length).getD 0 := by
    intro o ho
    rw [update, Finmap.lookup_insert_of_ne _ (Finset.ne_of_mem_erase ho)]
  rw [backlog, backlog, hkeys, ← Finset.add_sum_erase _ _ hmem, ← Finset.add_sum_erase _ _ hmem,
    Finset.sum_congr rfl hothers, h, update, Finmap.lookup_insert]
  simp only [Option.map_some, Option.getD_some]
  omega

/-! ## Queues -/

namespace Transport.IpaSession

/-- A method leaves the session with so many frames queued, and starts at most one write. -/
def Queues (queued : Nat) (result : IpaSession × List SessionCall) : Prop :=
  result.1.writeQueue.length = queued ∧
    (result.2 = [] ∨ ∃ frame, result.2 = [.asyncWrite frame])

theorem doWrite_queues (t : IpaSession) : Queues t.writeQueue.length t.doWrite := by
  unfold doWrite
  split
  · exact ⟨rfl, .inl rfl⟩
  · exact ⟨rfl, .inr ⟨_, rfl⟩⟩

theorem enqueue_queues (t : IpaSession) (frame : Bytes) :
    Queues (t.writeQueue.length + 1) (t.enqueue frame) := by
  have hlength : (t.writeQueue ++ [frame]).length = t.writeQueue.length + 1 :=
    List.length_append
  rw [← hlength]
  unfold enqueue
  dsimp only
  split
  · exact ⟨rfl, .inl rfl⟩
  · exact doWrite_queues _

/-- What has been written is out of the queue. -/
theorem onWritten_queues {t : IpaSession} {result : IpaSession × List SessionCall}
    (h : t.onWritten true = .ok result) :
    ∃ queued, t.writeQueue.length = queued + 1 ∧ Queues queued result := by
  rw [onWritten, if_pos rfl] at h
  split at h
  · cases h
  · rename_i front queue hqueue
    have hqueues := doWrite_queues { t with writeQueue := queue }
    rw [Except.ok.inj h] at hqueues
    rw [hqueue]
    exact ⟨queue.length, List.length_cons, hqueues⟩

end Transport.IpaSession

namespace Transport.MapTransport

/-- The same for the HLR connection. -/
def Queues (queued : Nat) (result : MapTransport × List MapCall) : Prop :=
  result.1.writeQueue.length = queued ∧
    (result.2 = [] ∨ ∃ frame, result.2 = [.asyncWrite frame])

theorem doWrite_queues (t : MapTransport) : Queues t.writeQueue.length t.doWrite := by
  unfold doWrite
  split
  · exact ⟨rfl, .inl rfl⟩
  · exact ⟨rfl, .inr ⟨_, rfl⟩⟩

theorem enqueue_queues (t : MapTransport) (frame : Bytes) :
    Queues (t.writeQueue.length + 1) (t.enqueue frame) := by
  have hlength : (t.writeQueue ++ [frame]).length = t.writeQueue.length + 1 :=
    List.length_append
  rw [← hlength]
  unfold enqueue
  dsimp only
  split
  · exact ⟨rfl, .inl rfl⟩
  · exact doWrite_queues _

/-- What has been written is out of the queue. -/
theorem onWritten_queues {t : MapTransport} {result : MapTransport × List MapCall}
    (h : t.onWritten true = .ok result) :
    ∃ queued, t.writeQueue.length = queued + 1 ∧ Queues queued result := by
  rw [onWritten, if_pos rfl] at h
  split at h
  · cases h
  · rename_i front queue hqueue
    have hqueues := doWrite_queues { t with writeQueue := queue }
    rw [Except.ok.inj h] at hqueues
    rw [hqueue]
    exact ⟨queue.length, List.length_cons, hqueues⟩

end Transport.MapTransport

namespace Process

variable {p p' : Process} {object : Nat} {now : TimePoint} {calls : List Call}

theorem posted_mono (htasks : p'.tasks = p.tasks) (hops : p'.proxy.pendingOps = p.proxy.pendingOps)
    (hsessions : p'.server.sessions.keys.card ≤ p.server.sessions.keys.card) :
    p'.posted ≤ p.posted := by
  rw [posted, posted, htasks, hops]
  have hsum : (p.tasks.map (Task.steps p'.server.sessions.keys.card)).sum ≤
      (p.tasks.map (Task.steps p.server.sessions.keys.card)).sum :=
    List.sum_le_sum fun task _ => task.steps_mono hsessions
  have hnack : p.proxy.pendingOps.keys.card * (1 + 3 * p'.server.sessions.keys.card) ≤
      p.proxy.pendingOps.keys.card * (1 + 3 * p.server.sessions.keys.card) := by
    apply Nat.mul_le_mul_left
    omega
  omega

/-- A method of a session counts for what it queues and the write it may start. -/
theorem runSession_work {method : IpaSession → Except Fault (IpaSession × List SessionCall)}
    (h : p.runSession object now method = .ok (p', calls)) :
    ∃ t result, p.server.objects.lookup object = some t ∧ method t = .ok result ∧
      ∀ queued, IpaSession.Queues queued result →
        p'.work + t.writeQueue.length ≤ p.work + queued + 1 := by
  unfold runSession at h
  split at h
  · cases h
  · rename_i t ht
    obtain ⟨⟨t', made⟩, hm, h⟩ := except_bind_eq_ok.mp h
    obtain ⟨p₁, hp₁, h⟩ := except_bind_eq_ok.mp h
    cases h
    refine ⟨t, (t', made), ht, hm, ?_⟩
    rintro queued ⟨hqueued, hmade⟩
    have hbacklog := IpaServer.backlog_update ht t'
    dsimp only at hqueued hmade hp₁
    rcases hmade with rfl | ⟨frame, rfl⟩
    · cases hp₁
      simp only [work, posted, unwritten]
      simp only [IpaServer.update] at hbacklog ⊢
      omega
    · cases hp₁
      simp only [work, posted, unwritten, List.countP_append]
      simp only [IpaServer.update] at hbacklog ⊢
      simp only [List.countP_singleton, AsyncOp.isWrite, if_true]
      omega

/-- A write of a session fails. -/
theorem runSession_failed_work
    (h : p.runSession object now (fun t => t.onWritten false) = .ok (p', calls)) :
    p'.work ≤ p.work := by
  unfold runSession at h
  split at h
  · cases h
  · rename_i t ht
    obtain ⟨⟨t', made⟩, hm, h⟩ := except_bind_eq_ok.mp h
    obtain ⟨p₁, hp₁, h⟩ := except_bind_eq_ok.mp h
    cases h
    have hbacklog := IpaServer.backlog_update ht t'
    have hm : t.onWritten false = .ok (t', made) := hm
    rw [IpaSession.onWritten, if_neg (by decide)] at hm
    split at hm
    · cases hm
      cases hp₁
      -- the session is taken out of the tables
      have hposted : posted { p with server :=
          (p.server.update object { t with state := .stopped }).onSessionDisconnect t.clientId } ≤
            p.posted := by
        refine posted_mono rfl rfl (Finset.card_le_card ?_)
        intro id hid
        rw [Finmap.mem_keys] at hid ⊢
        exact (Finmap.mem_erase.mp hid).2
      simp only [work, unwritten]
      simp only [IpaServer.onSessionDisconnect, IpaServer.backlog] at hposted hbacklog ⊢
      omega
    · cases hm
      cases hp₁
      simp only [work, posted, unwritten]
      simp only [IpaServer.update] at hbacklog ⊢
      omega

/-! ## The HLR connection -/

/-- A method of the HLR connection counts for what it queues and the write it may start. -/
theorem runHlr_work {method : MapTransport → Except Fault (MapTransport × List MapCall)}
    {order : List UInt32} (h : p.runHlr order now method = .ok (p', calls)) :
    ∃ result, method p.hlr = .ok result ∧ ∀ queued, MapTransport.Queues queued result →
      p'.work + p.hlr.writeQueue.length ≤ p.work + queued + 1 := by
  obtain ⟨⟨t', made⟩, hm, h⟩ := except_bind_eq_ok.mp h
  obtain ⟨p₁, hp₁, h⟩ := except_bind_eq_ok.mp h
  cases h
  refine ⟨(t', made), hm, ?_⟩
  rintro queued ⟨hqueued, hmade⟩
  dsimp only at hqueued hmade hp₁
  rcases hmade with rfl | ⟨frame, rfl⟩
  · cases hp₁
    simp only [work, posted, unwritten]
    omega
  · cases hp₁
    simp only [work, posted, unwritten, List.countP_append, List.countP_singleton,
      AsyncOp.isWrite, if_true]
    omega

/-- An attempt to connect that could not be started. -/
theorem runHlr_failed_work {order : List UInt32}
    (h : p.runHlr order now (fun t => .ok (t.onConnect false)) = .ok (p', calls)) :
    p'.work ≤ p.work := by
  obtain ⟨⟨t', made⟩, hm, h⟩ := except_bind_eq_ok.mp h
  obtain ⟨p₁, hp₁, h⟩ := except_bind_eq_ok.mp h
  cases h
  cases hm
  cases hp₁
  have hcleared : p.hlr.resetConnection.writeQueue.length = 0 := rfl
  simp only [work, posted, unwritten, List.countP_append, List.countP_singleton, AsyncOp.isWrite,
    Bool.false_eq_true, if_false, hcleared]
  omega

/-- What a NAK posts is what has been set aside for it. -/
theorem callProxy_nack_work {order : List UInt32} (horder : Enumerates order p.proxy.pendingOps)
    (h : p.callProxy (.nack order) = .ok p') : p'.work ≤ p.work := by
  obtain ⟨⟨proxy, sends⟩, hstep, h⟩ := except_bind_eq_ok.mp h
  cases h
  obtain ⟨hsends, -, hops, -⟩ := Proxy.step_nack horder.1 hstep
  have hlength : sends.length ≤ p.proxy.pendingOps.keys.card := by
    rw [hsends, ← horder.length_eq]
    exact List.length_filterMap_le _ _
  -- every one of them is for the SGSNs
  have hsteps : ∀ n ∈ (sends.map Task.ofSend).map (Task.steps p.server.sessions.keys.card),
      n ≤ 1 + 3 * p.server.sessions.keys.card := by
    intro n hn
    rw [List.map_map, List.mem_map] at hn
    obtain ⟨send, hmem, rfl⟩ := hn
    cases send with
    | sgsn data client => exact Nat.le_refl _
    | hlr data =>
      rw [hsends] at hmem
      obtain ⟨t, -, ht⟩ := List.mem_filterMap.mp hmem
      exact absurd ht errorReply_no_hlr
  have hsum := List.sum_le_card_nsmul _ _ hsteps
  have hcover := Nat.mul_le_mul_right (1 + 3 * p.server.sessions.keys.card) hlength
  rw [List.length_map, List.length_map, smul_eq_mul] at hsum
  simp only [work, posted, unwritten, List.map_append, List.sum_append, hops, Finmap.keys_empty,
    Finset.card_empty]
  omega

/-- A write on the HLR connection fails. -/
theorem runHlr_lost_work {order : List UInt32} (horder : Enumerates order p.proxy.pendingOps)
    (h : p.runHlr order now (fun t => t.onWritten false) = .ok (p', calls)) :
    p'.work ≤ p.work := by
  obtain ⟨⟨t', made⟩, hm, h⟩ := except_bind_eq_ok.mp h
  obtain ⟨p₁, hp₁, h⟩ := except_bind_eq_ok.mp h
  cases h
  have hm : p.hlr.onWritten false = .ok (t', made) := hm
  rw [MapTransport.onWritten, if_neg (by decide)] at hm
  split at hm
  · cases hm
    -- the socket is closed, the pending requests are refused, and the timer is armed
    obtain ⟨p₂, hp₂, hp₁⟩ := except_bind_eq_ok.mp hp₁
    cases hp₂
    obtain ⟨p₃, hp₃, hp₁⟩ := except_bind_eq_ok.mp hp₁
    have hnack := callProxy_nack_work (p := { p with hlr := p.hlr.connectionLost.1 }) horder hp₃
    cases hp₁
    have hcleared : p.hlr.connectionLost.1.writeQueue.length = 0 := rfl
    simp only [work, posted, unwritten, List.countP_append, List.countP_singleton,
      AsyncOp.isWrite, Bool.false_eq_true, if_false, hcleared] at hnack ⊢
    omega
  · cases hm
    cases hp₁
    exact Nat.le_refl _

/-! ## Tasks and steps -/

/-- A task takes away what it counts for. -/
theorem runTask_work {order : List ClientId} {task : Task}
    (horder : Enumerates order p.server.sessions)
    (h : p.runTask order task = .ok (p', calls)) :
    p'.work + 1 ≤ p.work + task.steps p.server.sessions.keys.card := by
  cases task with
  | serverSend payload client =>
    obtain ⟨tasks, rfl, -, hposted⟩ := runTask_serverSend h
    have hsteps : (tasks.map (Task.steps p.server.sessions.keys.card)).sum ≤
        3 * p.server.sessions.keys.card := by
      rcases hposted with ⟨-, rfl⟩ | ⟨frame, -, rfl⟩
      · exact Nat.zero_le _
      · have hlength := IpaServer.recipients_length horder client
        rw [List.map_map, Function.comp_def]
        simp only [Task.steps, List.map_const', List.sum_replicate, smul_eq_mul]
        omega
    simp only [work, posted, unwritten, List.map_append, List.sum_append, Task.steps]
    omega
  | sessionEnqueue object frame =>
    obtain ⟨t, result, -, hm, hwork⟩ := runSession_work h
    have hqueues := IpaSession.enqueue_queues t frame
    rw [Except.ok.inj hm] at hqueues
    have hwork := hwork _ hqueues
    simp only [Task.steps]
    omega
  | hlrSend payload =>
    rw [runTask] at h
    obtain ⟨result, hm, hwork⟩ := runHlr_work h
    simp only [Task.steps]
    by_cases hstate : p.hlr.state ≠ .active
    · rw [MapTransport.sendPosted, if_pos hstate] at hm
      cases hm
      have hwork := hwork _ ⟨rfl, .inl rfl⟩
      dsimp only at hwork
      omega
    · rw [MapTransport.sendPosted, if_neg hstate] at hm
      have hqueues := p.hlr.enqueue_queues (M3ua.encode (MapTransport.wrap p.hlr.cfg payload))
      rw [show p.hlr.enqueue _ = result from Except.ok.inj hm] at hqueues
      have hwork := hwork _ hqueues
      omega
  | hlrConnectFailed =>
    have hwork := runHlr_failed_work h
    simp only [Task.steps]
    omega

/-- A write that is over is not outstanding any more. -/
theorem work_erase {op : AsyncOp} (hmem : op ∈ p.pending) (hwrite : op.isWrite = true) :
    work { p with pending := p.pending.erase op } + 1 = p.work := by
  have hcount := (List.perm_cons_erase hmem).countP_eq AsyncOp.isWrite
  rw [List.countP_cons_of_pos hwrite] at hcount
  simp only [work, posted, unwritten]
  omega

/-- A write on a session is over. -/
theorem handle_sessionWritten_work (frame : Bytes) {ok : Bool}
    (h : p.handle (.sessionWritten object frame ok) = .ok (p', calls)) : p'.work ≤ p.work := by
  cases ok with
  | false => exact runSession_failed_work h
  | true =>
    obtain ⟨t, result, -, hm, hwork⟩ := runSession_work h
    obtain ⟨queued, hqueued, hqueues⟩ := IpaSession.onWritten_queues hm
    have hwork := hwork queued hqueues
    omega

/-- A write on the HLR connection is over. -/
theorem handle_hlrWritten_work (socket : Nat) (frame : Bytes) {ok : Bool} {order : List UInt32}
    (horder : Enumerates order p.proxy.pendingOps)
    (h : p.handle (.hlrWritten socket frame ok order) = .ok (p', calls)) : p'.work ≤ p.work := by
  cases ok with
  | false => exact runHlr_lost_work horder h
  | true =>
    rw [handle] at h
    obtain ⟨result, hm, hwork⟩ := runHlr_work h
    obtain ⟨queued, hqueued, hqueues⟩ := MapTransport.onWritten_queues hm
    have hwork := hwork queued hqueues
    omega

/-- Running a task or ending a write leaves the process with less to do. -/
theorem step_work {h : Happening} (hflushes : p.Flushes h) (hpossible : p.Possible h)
    (hstep : p.step h = .ok (p', calls)) : p'.work + 1 ≤ p.work := by
  cases h with
  | task order =>
    rw [step] at hstep
    dsimp only [Happening.completes] at hstep
    rw [handle] at hstep
    split at hstep
    · rename_i hnone
      exact absurd hnone hflushes
    · rename_i task tasks htasks
      have hwork := runTask_work (p := { p with tasks := tasks }) hpossible.2 hstep
      simp only [work, posted, unwritten, htasks, List.map_cons, List.sum_cons] at hwork ⊢
      omega
  | sessionWritten object frame ok =>
    have herase := work_erase (hpossible.1 _ rfl) rfl
    have hwork := handle_sessionWritten_work
      (p := { p with pending := p.pending.erase (.write object frame) }) frame hstep
    omega
  | hlrWritten socket frame ok order =>
    have herase := work_erase (hpossible.1 _ rfl) rfl
    have hwork := handle_hlrWritten_work
      (p := { p with pending := p.pending.erase (.hlrWrite socket frame) }) socket frame
      hpossible.2 hstep
    omega
  | accepted _ | sessionRead _ _ _ | hlrConnected _ _ | hlrRead _ _ _ _ | reconnectTimer _ _
  | beatTimer _ | tick _ _ _ | stopServer _ | stopHlr => exact absurd hflushes id

theorem flushed_iff : p.Flushed ↔ p.tasks = [] ∧ ∀ op ∈ p.pending, op.isWrite = false := by
  constructor
  · intro hflushed
    constructor
    · by_contra hsome
      obtain ⟨order, horder⟩ := ServerLink.exists_enumerates p.server.sessions
      exact hflushed (.task order) ⟨nofun, horder⟩ hsome
    · intro op hop
      by_contra hwrite
      have hcompletes : ∀ op' : AsyncOp, some op = some op' → op' ∈ p.pending := by
        intro op' heq
        cases heq
        exact hop
      cases op with
      | write object frame =>
        exact hflushed (.sessionWritten object frame true) ⟨hcompletes, trivial⟩ trivial
      | hlrWrite socket frame =>
        obtain ⟨order, horder⟩ := ServerLink.exists_enumerates p.proxy.pendingOps
        exact hflushed (.hlrWritten socket frame true order) ⟨hcompletes, horder⟩ trivial
      | read _ | hlrConnect _ | hlrRead _ | reconnectWait | beatWait => exact hwrite rfl
  · rintro ⟨htasks, hwrites⟩ h hpossible hflushes
    cases h with
    | task order => exact hflushes htasks
    | sessionWritten object frame ok => cases hwrites _ (hpossible.1 _ rfl)
    | hlrWritten socket frame ok order => cases hwrites _ (hpossible.1 _ rfl)
    | accepted _ | sessionRead _ _ _ | hlrConnected _ _ | hlrRead _ _ _ _ | reconnectTimer _ _
    | beatTimer _ | tick _ _ _ | stopServer _ | stopHlr => exact hflushes

end Process

/-! ## Along a run -/

variable {txTimeout : Int} {cfg : MapTransportConfig} {earlier events : List ProcessEvent}
  {p p' : Process}

/-- Until a write of a session fails, the front of its queue is being written. -/
theorem ProcessRun.flying (hrun : ProcessRun txTimeout cfg events p) {object : Nat}
    (hwritten : ∀ e ∈ events, e.op.failsWrite object = false)
    {t : IpaSession} (ht : p.server.objects.lookup object = some t) :
    t.Flying (p.writes object) := by
  induction hrun generalizing t with
  | nil => cases ht
  | @snoc events s s' outs before op hop hs ih =>
    have hbefore : ∀ e ∈ events, e.op.failsWrite object = false :=
      fun e he => hwritten e (List.mem_append_left _ he)
    have hlast := hwritten _ (List.mem_append_right _ (List.mem_singleton_self _))
    have hmoves :=
      Process.step_moves (ProcessRun.sound before) (ProcessRun.rooted before) hop hs ht
    cases hmoves with
    | queued ht henqueues hwrites => exact (henqueues.flying _ (ih hbefore ht)).of_perm hwrites.symm
    | @written t made frame ok ht hop' hover hwrites =>
      subst hop'
      cases ok with
      | false => simp [Happening.failsWrite] at hlast
      | true =>
        obtain ⟨-, -, -, hflying⟩ := IpaSession.onWritten_effect hover
        rw [hwrites, ((ProcessRun.backed before).completed (hop.1 _ rfl) ht).1, List.nil_append]
        exact hflying
    | started hstart hwrites =>
      rw [hwrites]
      exact IpaSession.flying_start _ hstart

/-- From a state the process can get into, at most `work` tasks are run and writes ended before some
other handler runs, whatever their order and outcome. Once there is none of these left, nothing is
posted, and every frame for a session none of whose writes has failed has been written. -/
theorem posted_work_ends (hrun : ProcessRun txTimeout cfg earlier p)
    (hlater : Run Process.step Process.Possible p events p')
    (hflushes : ∀ e ∈ events, e.pre.Flushes e.op) :
    events.length + p'.work ≤ p.work ∧
      (p'.Flushed → p'.tasks = [] ∧ ∀ object t, p'.server.objects.lookup object = some t →
        (∀ e ∈ earlier ++ events, e.op.failsWrite object = false) → t.writeQueue = []) := by
  constructor
  · exact hlater.length_le Process.work hflushes
      fun s op outs s' hpossible hs hflushes => Process.step_work hflushes hpossible hs
  · intro hflushed
    obtain ⟨htasks, hwrites⟩ := Process.flushed_iff.mp hflushed
    refine ⟨htasks, ?_⟩
    intro object t ht hwritten
    have hflying := ProcessRun.flying (Run.append hrun hlater) hwritten ht
    have hnone : p'.writes object = [] := by
      rw [Process.writes, List.filterMap_eq_nil_iff]
      intro op hop
      cases op with
      | write o frame => cases hwrites _ hop
      | read _ | hlrConnect _ | hlrRead _ | hlrWrite _ _ | reconnectWait | beatWait => rfl
    have hfront := hflying.front
    rw [hnone] at hfront
    cases hqueue : t.writeQueue with
    | nil => rfl
    | cons front queue =>
      rw [hqueue] at hfront
      cases hfront

/-- A purge is under way when the HLR connection is lost, and the refusal is written. -/
theorem refusal_flushed :
    ∃ (earlier events : List ProcessEvent) (p p' : Process) (t : IpaSession),
      ProcessRun 30 {} earlier p ∧ Run Process.step Process.Possible p events p' ∧
      7 + p'.work ≤ p.work ∧ p'.tasks = [] ∧ p'.server.objects.lookup 0 = some t ∧
      t.writeQueue = [] := by
  obtain ⟨before, after, t, hbefore, hafter, hlength, hflushes, hflushed, ht, hwritten⟩ :
      ∃ (before after : List ProcessEvent × Process) (t : IpaSession),
        Process.played 30 {} (sgsnConnects ++
          [.reconnectTimer true .started, .hlrConnected 1 true,
            .sessionRead 0 (some ([0x00, 0x07, 0xEE] ++ purge12345)) 7,
            .hlrRead 1 none [1] 8]) = some before ∧
        play Process.step Process.Possible [] before.2
          [.task [1], .task [1], .task [1], .sessionWritten 0 ccmIdReq true,
            .sessionWritten 0 ccmIdAck true,
            .sessionWritten 0 [0x00, 0x07, 0xEE, 0x0D, 0x01, 0x03, 0x21, 0x43, 0xF5] true,
            .hlrWritten 1 (M3ua.encode M3ua.makeAspUp) false []] = some after ∧
        after.1.length = 7 ∧ (∀ e ∈ after.1, e.pre.Flushes e.op) ∧
        (after.2.tasks = [] ∧ ∀ op ∈ after.2.pending, op.isWrite = false) ∧
        after.2.server.objects.lookup 0 = some t ∧
        ∀ e ∈ before.1 ++ after.1, e.op.failsWrite 0 = false :=
    ⟨_, _, _, rfl, rfl, rfl, by decide +kernel, by decide +kernel, rfl, by decide +kernel⟩
  have hrun := Process.run_of_played hbefore
  have hlater : Run Process.step Process.Possible before.2 after.1 after.2 := .of_play .nil hafter
  obtain ⟨hbound, hdone⟩ := posted_work_ends hrun hlater hflushes
  rw [hlength] at hbound
  obtain ⟨htasks, hqueues⟩ := hdone (Process.flushed_iff.mpr hflushed)
  exact ⟨_, _, _, _, t, hrun, hlater, hbound, htasks, ht, hqueues 0 t ht hwritten⟩

end GsupMapProxy
