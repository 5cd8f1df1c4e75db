import GsupMapProxy.Transport.Proofs.SessionStream
import GsupMapProxy.Transport.Proofs.SessionTables

/-!
# The sessions of a server, each by itself

The sessions of an `IpaServer` share the `io_context`, the two tables and the lambda of
`IpaServer::send`. None of this makes a difference to a session: what has happened to it in a run
of the server could have happened to an `IpaSession` with nothing around it, and from the same
bytes the two deliver the same payloads.
-/

namespace GsupMapProxy.Transport

open Misc Ipa

/-- What is pending for a session object. -/
def SgsnOp.own (object : Nat) :
    Pending SgsnOp SgsnHandler → Option (Pending SessionOp SessionHandler)
  | .running (.read object') => if object' = object then some (.running .read) else none
  | .running (.write object' frame) =>
      if object' = object then some (.running (.write frame)) else none
  | .ready (.read object' result) =>
      if object' = object then some (.ready (.read result)) else none
  | .ready (.written object' frame ok) =>
      if object' = object then some (.ready (.written frame ok)) else none
  | .ready (.enqueue object' frame) =>
      if object' = object then some (.ready (.enqueue frame)) else none
  | .running .accept => none
  | .ready (.accepted _) => none
  | .ready (.send _ _) => none

namespace SgsnOp

/-- The pending work of a session can be told apart. -/
theorem own_inj {object : Nat} {item other : Pending SgsnOp SgsnHandler}
    {x : Pending SessionOp SessionHandler} (h : own object item = some x)
    (h' : own object other = some x) : other = item := by
  unfold own at h h'
  split at h <;> split at h' <;> grind

theorem own_other {object object' : Nat} (hne : object' ≠ object) :
    own object (.running (.read object')) = none ∧
      (∀ frame, own object (.running (.write object' frame)) = none) ∧
      (∀ result, own object (.ready (.read object' result)) = none) ∧
      (∀ frame ok, own object (.ready (.written object' frame ok)) = none) ∧
      ∀ frame, own object (.ready (.enqueue object' frame)) = none := by
  simp [own, hne]

end SgsnOp

namespace ServerLink

/-- A session of the server, as a link of its own. -/
def part (s : ServerLink) (object : Nat) (session : IpaSession) : SessionLink where
  session := session
  started := true
  isOpen := object ∉ s.closed
  io := s.io.view (SgsnOp.own object)

variable {s s' : ServerLink} {object other : Nat} {session : IpaSession}

theorem part_beginOnSocket {op : SgsnOp} {failed : SgsnHandler} (op' : SessionOp)
    (hop : SgsnOp.own object (.running op) = some (.running op'))
    (hfailed : SgsnOp.own object (.ready failed) = some (.ready op'.closed)) :
    (s.beginOnSocket object op failed).part object session =
      (s.part object session).beginOnSocket op' := by
  by_cases hclosed : object ∈ s.closed
  · simp only [beginOnSocket, SessionLink.beginOnSocket, part, hclosed, not_true_eq_false,
      decide_false, if_true, Bool.false_eq_true, if_false, Proactor.view_post, hfailed]
    rfl
  · simp only [beginOnSocket, SessionLink.beginOnSocket, part, hclosed, not_false_eq_true,
      decide_true, if_true, if_false, Proactor.view_begin, hop]
    rfl

theorem part_closeSocket :
    (s.closeSocket object).part object session = (s.part object session).perform .closeSocket := by
  have hio : (s.io.cancel (SgsnOp.closed object)).view (SgsnOp.own object) =
      Proactor.cancel (fun op => some op.closed) (s.io.view (SgsnOp.own object)) := by
    apply Proactor.view_cancel_eq_cancel
    intro item
    cases item with
    | ready handler => cases handler <;> simp [Proactor.aborted, SgsnOp.own]
    | running op =>
      cases op with
      | accept => rfl
      | read object' =>
        by_cases heq : object' = object <;>
          simp [Proactor.aborted, SgsnOp.closed, SgsnOp.own, SessionOp.closed, heq]
      | write object' frame =>
        by_cases heq : object' = object <;>
          simp [Proactor.aborted, SgsnOp.closed, SgsnOp.own, SessionOp.closed, heq]
  simp [closeSocket, part, SessionLink.perform, hio]

/-- What a session calls, it calls as it would alone. -/
theorem part_performSession (id : ClientId) (call : SessionCall) :
    (s.performSession object id call).part object session =
      (s.part object session).perform call := by
  cases call with
  | asyncRead =>
    exact part_beginOnSocket .read (by simp [SgsnOp.own])
      (by simp [SgsnOp.own, SessionOp.closed])
  | asyncWrite frame =>
    exact part_beginOnSocket (.write frame) (by simp [SgsnOp.own])
      (by simp [SgsnOp.own, SessionOp.closed])
  | closeSocket => exact part_closeSocket
  | onReady => rfl
  | onGsup payload => rfl
  | onDisconnect => rfl

theorem part_performSessions (id : ClientId) (calls : List SessionCall) :
    ∀ s : ServerLink, (calls.foldl (performSession object id) s).part object session =
      calls.foldl SessionLink.perform (s.part object session) := by
  induction calls with
  | nil => intro s; rfl
  | cons call calls ih =>
    intro s
    rw [List.foldl_cons, ih, part_performSession]
    rfl

/-- Nothing that concerns a session has changed. -/
structure Same (object : Nat) (s s' : ServerLink) : Prop where
  closed : object ∈ s'.closed ↔ object ∈ s.closed
  io : s'.io.view (SgsnOp.own object) = s.io.view (SgsnOp.own object)

theorem Same.refl (object : Nat) (s : ServerLink) : Same object s s := ⟨.rfl, rfl⟩

theorem Same.trans {s'' : ServerLink} (h : Same object s s') (h' : Same object s' s'') :
    Same object s s'' := ⟨h'.closed.trans h.closed, h'.io.trans h.io⟩

theorem Same.part (h : Same object s s') (session : IpaSession) :
    s'.part object session = s.part object session := by
  simp [ServerLink.part, h.closed, h.io]

theorem same_beginOnSocket {op : SgsnOp} {failed : SgsnHandler}
    (hop : SgsnOp.own object (.running op) = none)
    (hfailed : SgsnOp.own object (.ready failed) = none) :
    Same object s (s.beginOnSocket other op failed) := by
  unfold beginOnSocket
  split
  · exact ⟨.rfl, by simp [hfailed]⟩
  · exact ⟨.rfl, by simp [hop]⟩

theorem same_closeSocket (hne : other ≠ object) : Same object s (s.closeSocket other) := by
  refine ⟨?_, ?_⟩
  · simp [closeSocket, hne.symm]
  · apply Proactor.view_cancel_eq
    intro op handler h
    cases op with
    | accept => cases h
    | read object' =>
      simp only [SgsnOp.closed] at h
      split at h
      · rename_i heq
        cases h
        simp [SgsnOp.own, heq, hne]
      · cases h
    | write object' frame =>
      simp only [SgsnOp.closed] at h
      split at h
      · rename_i heq
        cases h
        simp [SgsnOp.own, heq, hne]
      · cases h

/-- The calls of another session do not concern it. -/
theorem same_performSession (hne : other ≠ object) (id : ClientId) (call : SessionCall) :
    Same object s (s.performSession other id call) := by
  obtain ⟨hread, hwrite, hreadDone, hwritten, -⟩ := SgsnOp.own_other hne
  cases call with
  | asyncRead => exact same_beginOnSocket hread (hreadDone none)
  | asyncWrite frame => exact same_beginOnSocket (hwrite frame) (hwritten frame false)
  | closeSocket => exact same_closeSocket hne
  | onReady => exact ⟨.rfl, rfl⟩
  | onGsup payload => exact ⟨.rfl, rfl⟩
  | onDisconnect => exact ⟨.rfl, rfl⟩

theorem same_performSessions (hne : other ≠ object) (id : ClientId) (calls : List SessionCall) :
    ∀ s : ServerLink, Same object s (calls.foldl (performSession other id) s) := by
  induction calls with
  | nil => exact .refl object
  | cons call calls ih =>
    intro s
    exact (same_performSession hne id call).trans (ih _)

/-! ## One session and the methods of the server -/

theorem afterCalls_objects (id : ClientId) (calls : List SessionCall) (server : IpaServer) :
    (calls.foldl (IpaServer.afterCall id) server).objects = server.objects := by
  refine List.foldlRecOn (motive := fun server' : IpaServer => server'.objects = server.objects)
    calls _ rfl ?_
  intro server' h call _
  cases call with
  | onReady =>
    rw [IpaServer.afterCall, IpaServer.onSessionReady_eq]
    exact h
  | _ => exact h

/-- A method of a session that runs in the server. -/
theorem runSession_own {method : IpaSession → Except Fault (IpaSession × List SessionCall)}
    {calls : List ServerCall} (h : s.runSession object method = .ok (s', calls))
    (hsession : s.server.objects.lookup object = some session) :
    ∃ result, method session = .ok result ∧ calls = result.2.map (.session object) ∧
      s'.server.objects.lookup object = some result.1 ∧
      s'.part object result.1 = (s.part object session).after result := by
  simp only [runSession, hsession] at h
  obtain ⟨⟨session', own⟩, hmethod, h⟩ := except_bind_eq_ok.mp h
  cases h
  refine ⟨_, hmethod, rfl, ?_, ?_⟩
  · rw [performSessions_server, afterCalls_objects]
    exact Finmap.lookup_insert _
  · rw [part_performSessions]
    rfl

/-- A method of another session. -/
theorem runSession_other (hne : other ≠ object)
    {method : IpaSession → Except Fault (IpaSession × List SessionCall)} {calls : List ServerCall}
    (h : s.runSession other method = .ok (s', calls)) :
    s'.server.objects.lookup object = s.server.objects.lookup object ∧ Same object s s' ∧
      ∃ own : List SessionCall, calls = own.map (.session other) := by
  unfold runSession at h
  split at h
  · cases h
  · obtain ⟨⟨session', own⟩, hmethod, h⟩ := except_bind_eq_ok.mp h
    cases h
    refine ⟨?_, ?_, own, rfl⟩
    · rw [performSessions_server, afterCalls_objects]
      exact Finmap.lookup_insert_of_ne _ hne.symm
    · have hupdate : Same object s { s with server := s.server.update other session' } :=
        ⟨.rfl, rfl⟩
      exact hupdate.trans (same_performSessions hne _ own _)

/-- Asking a session to stop a second time does nothing. -/
theorem stop_idem (session : IpaSession) : session.stop.1.stop.1 = session.stop.1 := by
  unfold IpaSession.stop
  split
  · simp
  · simp

/-- What `IpaServer::stop` leaves of the session objects. -/
theorem lookup_stop (server : IpaServer) (order : List ClientId) (object : Nat) :
    (server.stop order).objects.lookup object =
      (server.objects.lookup object).map fun session =>
        if ∃ id ∈ order, server.allSessions.lookup id = some object then session.stop.1
        else session := by
  unfold IpaServer.stop
  dsimp only
  induction order generalizing server with
  | nil => simp
  | cons id order ih =>
    rw [List.foldl_cons]
    cases hall : server.allSessions.lookup id with
    | none =>
      dsimp only
      rw [ih]
      simp [hall]
    | some object' =>
      dsimp only
      cases hobject : server.objects.lookup object' with
      | none =>
        dsimp only
        rw [ih]
        by_cases heq : object' = object
        · subst heq
          simp [hobject]
        · simp [hall, heq]
      | some session =>
        dsimp only
        rw [ih]
        by_cases heq : object' = object
        · subst heq
          simp only [IpaServer.update, Finmap.lookup_insert, hobject, Option.map_some, hall,
            List.mem_cons, exists_eq_or_imp, true_or, if_true, stop_idem, ite_self]
        · rw [IpaServer.update, Finmap.lookup_insert_of_ne _ (Ne.symm heq)]
          simp [hall, heq]

theorem mem_stopCloses {server : IpaServer} {order : List ClientId} :
    object ∈ server.stopCloses order ↔
      ∃ session, server.objects.lookup object = some session ∧
        (∃ id ∈ order, server.allSessions.lookup id = some object) ∧
        session.state ≠ .stopped := by
  have hcloses : ∀ session : IpaSession,
      SessionCall.closeSocket ∈ session.stop.2 ↔ session.state ≠ .stopped := by
    intro session
    unfold IpaSession.stop
    split
    · rename_i hstopped
      simp [hstopped]
    · rename_i hrunning
      simp [hrunning]
  simp only [IpaServer.stopCloses, List.mem_filterMap, Option.bind_eq_bind,
    Option.bind_eq_some_iff, hcloses]
  constructor
  · rintro ⟨id, hid, object', hall, session, hsession, h⟩
    split at h
    · rename_i hstate
      cases h
      exact ⟨session, hsession, ⟨id, hid, hall⟩, hstate⟩
    · cases h
  · rintro ⟨session, hsession, ⟨id, hid, hall⟩, hstate⟩
    exact ⟨id, hid, object, hall, session, hsession, if_pos hstate⟩

theorem perform_closeSocket_idem (t : SessionLink) :
    (t.perform .closeSocket).perform .closeSocket = t.perform .closeSocket := by
  have hio : Proactor.cancel (fun op => some (SessionOp.closed op))
      (Proactor.cancel (fun op => some op.closed) t.io) =
        Proactor.cancel (fun op => some op.closed) t.io := by
    rw [Proactor.cancel, Proactor.cancel, List.map_map]
    congr 1
    funext item
    cases item <;> rfl
  simp only [SessionLink.perform, hio]

theorem part_closeSockets (objects : List Nat) :
    ∀ s : ServerLink, (objects.foldl closeSocket s).part object session =
      if object ∈ objects then (s.part object session).perform .closeSocket
      else s.part object session := by
  induction objects with
  | nil => intro s; rfl
  | cons first objects ih =>
    intro s
    rw [List.foldl_cons, ih]
    by_cases heq : first = object
    · subst heq
      rw [part_closeSocket, perform_closeSocket_idem]
      simp
    · rw [(same_closeSocket heq).part]
      simp [Ne.symm heq]

theorem same_stop (order : List ClientId) : Same object s { s with
    server := s.server.stop order
    listening := false
    io := s.io.cancel SgsnOp.acceptorClosed } := by
  refine ⟨.rfl, ?_⟩
  apply Proactor.view_cancel_eq
  intro op handler h
  cases op with
  | accept =>
    cases h
    rfl
  | read object' => cases h
  | write object' frame => cases h

/-! ## The session as a part of the server -/

/-- `t` is what there is of a session in the server: nothing before the accept. -/
def Apart (object : Nat) (s : ServerLink) (t : SessionLink) : Prop :=
  match s.server.objects.lookup object with
  | none => t = { session := { clientId := UInt64.ofNat (object + 1) } } ∧
      s.io.view (SgsnOp.own object) = [] ∧ object ∉ s.closed
  | some session => t = s.part object session

theorem apart_some {t : SessionLink} (hsession : s.server.objects.lookup object = some session) :
    Apart object s t ↔ t = s.part object session := by
  rw [Apart, hsession]

theorem apart_part (hsession : s.server.objects.lookup object = some session) :
    Apart object s (s.part object session) := (apart_some hsession).mpr rfl

theorem apart_none {t : SessionLink} (hnone : s.server.objects.lookup object = none) :
    Apart object s t ↔ t = { session := { clientId := UInt64.ofNat (object + 1) } } ∧
      s.io.view (SgsnOp.own object) = [] ∧ object ∉ s.closed := by
  rw [Apart, hnone]

theorem Apart.same {t : SessionLink} (h : Apart object s t)
    (hobjects : s'.server.objects.lookup object = s.server.objects.lookup object)
    (hsame : Same object s s') : Apart object s' t := by
  cases hlookup : s.server.objects.lookup object with
  | none =>
    rw [apart_none hlookup] at h
    rw [hlookup] at hobjects
    rw [apart_none hobjects, hsame.io, hsame.closed]
    exact h
  | some session =>
    rw [apart_some hlookup] at h
    rw [hlookup] at hobjects
    rw [apart_some hobjects, hsame.part]
    exact h

/-- There is a session for every piece of pending work. -/
theorem Apart.exists_session {t : SessionLink} (h : Apart object s t)
    {item : Pending SgsnOp SgsnHandler} {x : Pending SessionOp SessionHandler} (hmem : item ∈ s.io)
    (hown : SgsnOp.own object item = some x) :
    ∃ session, s.server.objects.lookup object = some session ∧ t = s.part object session ∧
      x ∈ t.io := by
  have hview : x ∈ s.io.view (SgsnOp.own object) := Proactor.mem_view.mpr ⟨item, hmem, hown⟩
  cases hlookup : s.server.objects.lookup object with
  | none =>
    obtain ⟨-, hnil, -⟩ := (apart_none hlookup).mp h
    rw [hnil] at hview
    cases hview
  | some session =>
    have ht := (apart_some hlookup).mp h
    refine ⟨session, rfl, ht, ?_⟩
    rw [ht]
    exact hview

end ServerLink

/-- The chunk a step takes in for a session. -/
def ServerInput.chunksOf (object : Nat) : ServerInput → List Bytes
  | .run (.read object' (some chunk)) _ => if object' = object then [chunk] else []
  | _ => []

/-- The GSUP payload a session hands on. -/
def ServerCall.gsupOf? (object : Nat) : ServerCall → Option Bytes
  | .session object' (.onGsup payload) => if object' = object then some payload else none
  | _ => none

namespace ServerLink

variable {s s' : ServerLink} {object other : Nat} {session : IpaSession} {t : SessionLink}

/-- What has happened in the server can happen to the session alone: it takes in these chunks and
hands on these payloads. -/
def Matched (object : Nat) (t : SessionLink) (s' : ServerLink) (chunks delivered : List Bytes) :
    Prop :=
  ∃ later t', Run SessionLink.step SessionLink.Possible t later t' ∧ Apart object s' t' ∧
    SessionLink.chunks later = chunks ∧ SessionLink.delivered later = delivered

theorem matched_idle (h : Apart object s t)
    (hobjects : s'.server.objects.lookup object = s.server.objects.lookup object)
    (hsame : Same object s s') : Matched object t s' [] [] :=
  ⟨[], t, .nil, h.same hobjects hsame, rfl, rfl⟩

theorem matched_single {input : SessionInput} {outs : List SessionCall} {t' : SessionLink}
    (hop : t.Possible input) (hstep : t.step input = .ok (t', outs)) (h : Apart object s' t') :
    Matched object t s' input.chunks (outs.filterMap SessionCall.gsup?) :=
  ⟨_, t', .single hop hstep, h, by simp [SessionLink.chunks], by simp [SessionLink.delivered]⟩

theorem gsupOf_own (own : List SessionCall) :
    (own.map (ServerCall.session object)).filterMap (ServerCall.gsupOf? object) =
      own.filterMap SessionCall.gsup? := by
  rw [List.filterMap_map]
  congr 1
  funext call
  cases call <;> simp [ServerCall.gsupOf?, SessionCall.gsup?]

theorem gsupOf_other (hne : other ≠ object) (own : List SessionCall) :
    (own.map (ServerCall.session other)).filterMap (ServerCall.gsupOf? object) = [] := by
  rw [List.filterMap_map, List.filterMap_eq_nil_iff]
  intro call _
  cases call <;> simp [ServerCall.gsupOf?, hne]

theorem part_taking {handler : SgsnHandler} {handler' : SessionHandler}
    (hown : SgsnOp.own object (.ready handler) = some (.ready handler')) :
    ({ s with io := s.io.take handler } : ServerLink).part object session =
      (s.part object session).taking handler' := by
  have hio : (s.io.take handler).view (SgsnOp.own object) =
      Proactor.take (s.io.view (SgsnOp.own object)) handler' :=
    Proactor.view_erase hown fun other h => SgsnOp.own_inj hown h
  simp only [part, SessionLink.taking, hio]

theorem same_taking {handler : SgsnHandler} (hown : SgsnOp.own object (.ready handler) = none) :
    Same object s { s with io := s.io.take handler } :=
  ⟨.rfl, Proactor.view_erase_none hown⟩

/-- A handler of the session itself. -/
theorem matched_run {handler : SgsnHandler} {handler' : SessionHandler} {calls : List ServerCall}
    (h : Apart object s t) (hready : .ready handler ∈ s.io)
    (hown : SgsnOp.own object (.ready handler) = some (.ready handler'))
    (hrun : ({ s with io := s.io.take handler } : ServerLink).runSession object
      (fun session => SessionLink.method session handler') = .ok (s', calls)) :
    Matched object t s' (SessionInput.run handler').chunks
      (calls.filterMap (ServerCall.gsupOf? object)) := by
  obtain ⟨session, hsession, rfl, hmem⟩ := h.exists_session hready hown
  obtain ⟨result, hmethod, rfl, hsession', hpart⟩ := runSession_own hrun hsession
  rw [gsupOf_own]
  have hstep : (s.part object session).step (.run handler') =
      .ok (((s.part object session).taking handler').after result, result.2) := by
    rw [SessionLink.step]
    show (SessionLink.method session handler' >>= _) = _
    rw [hmethod]
    rfl
  refine matched_single hmem hstep ?_
  rw [apart_some hsession', hpart, part_taking hown]

/-- A handler of another session. -/
theorem matched_other (hne : other ≠ object) {handler : SgsnHandler} {calls : List ServerCall}
    {method : IpaSession → Except Fault (IpaSession × List SessionCall)} (h : Apart object s t)
    (hown : SgsnOp.own object (.ready handler) = none)
    (hrun : ({ s with io := s.io.take handler } : ServerLink).runSession other method =
      .ok (s', calls)) :
    Matched object t s' [] (calls.filterMap (ServerCall.gsupOf? object)) := by
  obtain ⟨hobjects, hsame, own, rfl⟩ := runSession_other hne hrun
  rw [gsupOf_other hne]
  exact matched_idle h hobjects ((same_taking hown).trans hsame)

theorem own_completes (object : Nat) {op : SgsnOp} {handler : SgsnHandler}
    (h : op.completesAs handler = true) :
    (SgsnOp.own object (.running op) = none ∧ SgsnOp.own object (.ready handler) = none) ∨
      ∃ op' handler', SgsnOp.own object (.running op) = some (.running op') ∧
        SgsnOp.own object (.ready handler) = some (.ready handler') ∧
        op'.completesAs handler' = true := by
  unfold SgsnOp.completesAs at h
  split at h
  · exact .inl ⟨rfl, rfl⟩
  · rename_i object₁ object₂
    obtain rfl : object₂ = object₁ := by simpa using h
    by_cases heq : object₂ = object
    · exact .inr ⟨.read, .read none, by simp [SgsnOp.own, heq], by simp [SgsnOp.own, heq], rfl⟩
    · exact .inl ⟨by simp [SgsnOp.own, heq], by simp [SgsnOp.own, heq]⟩
  · rename_i object₁ object₂ chunk
    obtain ⟨rfl, hchunk⟩ : object₂ = object₁ ∧ chunk ≠ [] ∧ chunk.length ≤ kSgsnReadBufSize := by
      simpa using h
    by_cases heq : object₂ = object
    · refine .inr ⟨.read, .read (some chunk), by simp [SgsnOp.own, heq],
        by simp [SgsnOp.own, heq], ?_⟩
      simpa [SessionOp.completesAs] using hchunk
    · exact .inl ⟨by simp [SgsnOp.own, heq], by simp [SgsnOp.own, heq]⟩
  · rename_i object₁ frame object₂ frame' ok
    obtain ⟨rfl, rfl⟩ : object₂ = object₁ ∧ frame' = frame := by simpa using h
    by_cases heq : object₂ = object
    · exact .inr ⟨.write frame', .written frame' ok, by simp [SgsnOp.own, heq],
        by simp [SgsnOp.own, heq], by simp [SessionOp.completesAs]⟩
    · exact .inl ⟨by simp [SgsnOp.own, heq], by simp [SgsnOp.own, heq]⟩
  · cases h

theorem matched_finish {op : SgsnOp} {handler : SgsnHandler} (h : Apart object s t)
    (hrunning : .running op ∈ s.io) (hcompletes : op.completesAs handler = true) :
    Matched object t { s with io := s.io.finish op handler } [] [] := by
  rcases own_completes object hcompletes with ⟨hop, hhandler⟩ |
    ⟨op', handler', hop, hhandler, hcompletes'⟩
  · refine matched_idle h rfl ⟨.rfl, ?_⟩
    rw [Proactor.finish, Proactor.view, List.filterMap_append]
    show Proactor.view _ (s.io.erase (.running op)) ++ _ = _
    rw [Proactor.view_erase_none hop]
    simp [hhandler]
  · obtain ⟨session, hsession, rfl, hmem⟩ := h.exists_session hrunning hop
    have hio : (s.io.finish op handler).view (SgsnOp.own object) =
        Proactor.finish (s.io.view (SgsnOp.own object)) op' handler' := by
      rw [Proactor.finish, Proactor.view, List.filterMap_append]
      show Proactor.view _ (s.io.erase (.running op)) ++ _ = _
      rw [Proactor.view_erase hop fun other h => SgsnOp.own_inj hop h]
      simp [hhandler, Proactor.finish]
    have hpart : ServerLink.part { s with io := s.io.finish op handler } object session =
        { s.part object session with
          io := Proactor.finish (s.part object session).io op' handler' } := by
      simp only [part, hio]
    have hapart : Apart object { s with io := s.io.finish op handler }
        (ServerLink.part { s with io := s.io.finish op handler } object session) := by
      apply apart_part
      exact hsession
    rw [hpart] at hapart
    have hop' : (s.part object session).Possible (.finish op' handler') := ⟨hmem, hcompletes'⟩
    have hmatched := matched_single hop' rfl hapart
    exact hmatched

/-! ### Sending -/

theorem mem_recipients {server : IpaServer} {order : List ClientId} {clientId : ClientId}
    (h : object ∈ server.recipients order clientId) :
    ∃ session, server.objects.lookup object = some session := by
  have hready : ∀ id, (do
      let object ← server.sessions.lookup id
      let session ← server.objects.lookup object
      if session.state = .ready then some object else none) = some object →
      ∃ session, server.objects.lookup object = some session := by
    intro id h
    simp only [Option.bind_eq_bind, Option.bind_eq_some_iff] at h
    obtain ⟨object', -, session, hsession, h⟩ := h
    split at h
    · cases h
      exact ⟨session, hsession⟩
    · cases h
  unfold IpaServer.recipients at h
  dsimp only at h
  split at h
  · obtain ⟨id, -, hid⟩ := List.mem_filterMap.mp h
    exact hready id hid
  · exact hready clientId (Option.mem_toList.mp h)

/-- What the posted lambda of `send` leaves in the queue, if nothing is thrown. -/
theorem sendEach_ok {payload : Bytes} {objects : List Nat} {handlers : List SgsnHandler}
    (h : (IpaServer.sendEach payload objects).2 = .ok handlers) :
    ∃ frame, handlers = objects.map (.enqueue · frame) ∧
      (objects ≠ [] → IpaSession.sendGsup payload = .ok frame) := by
  induction objects generalizing handlers with
  | nil =>
    cases h
    exact ⟨[], rfl, fun h => absurd rfl h⟩
  | cons first objects ih =>
    rw [IpaServer.sendEach] at h
    cases hframe : IpaSession.sendGsup payload with
    | error e =>
      rw [hframe] at h
      cases h
    | ok frame =>
      rw [hframe] at h
      dsimp only at h
      cases hrest : (IpaServer.sendEach payload objects).2 with
      | error e =>
        rw [hrest] at h
        cases h
      | ok rest =>
        rw [hrest] at h
        cases h
        obtain ⟨frame', rfl, hframe'⟩ := ih hrest
        refine ⟨frame, ?_, fun _ => rfl⟩
        cases objects with
        | nil => rfl
        | cons second objects =>
          have heq := hframe.symm.trans (hframe' (by simp))
          cases heq
          rfl

/-- Each time the session is among those a payload goes to, `sendGsup` is called on it. -/
theorem sends_leads (object : Nat) (session : IpaSession) {payload frame : Bytes}
    (hframe : IpaSession.sendGsup payload = .ok frame) (objects : List Nat) : ∀ s : ServerLink,
    ∃ later, Run SessionLink.step SessionLink.Possible (s.part object session) later
      (ServerLink.part { s with
        io := (objects.map (SgsnHandler.enqueue · frame)).foldl Proactor.post s.io }
        object session) ∧
      SessionLink.chunks later = [] ∧ SessionLink.delivered later = [] := by
  induction objects with
  | nil =>
    intro s
    exact ⟨[], .nil, rfl, rfl⟩
  | cons first objects ih =>
    intro s
    obtain ⟨later, hlater, hchunks, hdelivered⟩ :=
      ih { s with io := s.io.post (.enqueue first frame) }
    by_cases heq : first = object
    · subst heq
      have hpart : ServerLink.part { s with io := s.io.post (.enqueue first frame) } first session =
          { s.part first session with
            io := Proactor.post (s.part first session).io (.enqueue frame) } := by
        simp only [part, Proactor.view_post, SgsnOp.own, if_true]
        rfl
      rw [hpart] at hlater
      have hsend : SessionLink.step (s.part first session) (.sendGsup payload) =
          .ok ({ s.part first session with
            io := Proactor.post (s.part first session).io (.enqueue frame) }, []) := by
        rw [SessionLink.step, hframe]
      have hop : SessionLink.Possible (s.part first session) (.sendGsup payload) := rfl
      refine ⟨_, (Run.single hop hsend).append hlater, ?_, ?_⟩
      · simp only [SessionLink.chunks] at hchunks ⊢
        simpa [SessionInput.chunks] using hchunks
      · simp only [SessionLink.delivered] at hdelivered ⊢
        simpa using hdelivered
    · have hsame : Same object s { s with io := s.io.post (.enqueue first frame) } :=
        ⟨.rfl, by simp [SgsnOp.own, heq]⟩
      rw [hsame.part] at hlater
      exact ⟨later, hlater, hchunks, hdelivered⟩

theorem posts_view {frame : Bytes} (objects : List Nat) (hnot : object ∉ objects) :
    ∀ io : Proactor SgsnOp SgsnHandler,
      ((objects.map (SgsnHandler.enqueue · frame)).foldl Proactor.post io).view
        (SgsnOp.own object) = io.view (SgsnOp.own object) := by
  induction objects with
  | nil => intro io; rfl
  | cons first objects ih =>
    intro io
    rw [List.mem_cons, not_or] at hnot
    rw [List.map_cons, List.foldl_cons, ih hnot.2]
    simp [SgsnOp.own, Ne.symm hnot.1]

theorem matched_send (payload : Bytes) (clientId : ClientId) (order : List ClientId)
    {handlers : List SgsnHandler} (h : Apart object s t)
    (hposted : (s.server.sendPosted order payload clientId).2 = .ok handlers) :
    Matched object t { s with io := handlers.foldl Proactor.post s.io } [] [] := by
  obtain ⟨frame, rfl, hframe⟩ := sendEach_ok hposted
  by_cases hmem : object ∈ s.server.recipients order clientId
  · obtain ⟨session, hsession⟩ := mem_recipients hmem
    obtain rfl := (apart_some hsession).mp h
    obtain ⟨later, hlater, hchunks, hdelivered⟩ :=
      sends_leads object session (hframe (List.ne_nil_of_mem hmem))
        (s.server.recipients order clientId) s
    refine ⟨later, _, hlater, ?_, hchunks, hdelivered⟩
    apply apart_part
    exact hsession
  · exact matched_idle h rfl ⟨.rfl, posts_view _ hmem _⟩

/-! ### Accepting and stopping -/

theorem same_acceptNext : Same object s s.acceptNext := by
  unfold acceptNext
  split
  · exact ⟨.rfl, by simp [SgsnOp.own]⟩
  · exact ⟨.rfl, by simp [SgsnOp.own]⟩

theorem matched_accept {order : List ClientId} {calls : List ServerCall} (hsound : s.server.Sound)
    (h : Apart object s t) (hhandle : s.handle order (.accepted .connected) = .ok (s', calls)) :
    Matched object t s' [] (calls.filterMap (ServerCall.gsupOf? object)) := by
  obtain ⟨⟨s₁, calls₁⟩, hrun, hhandle⟩ := except_bind_eq_ok.mp hhandle
  cases hhandle
  have hadded : Same object s { s with server := s.server.addSession } := ⟨.rfl, rfl⟩
  by_cases heq : s.server.accepted = object
  · -- the session there was none of before
    subst heq
    have hnone : s.server.objects.lookup s.server.accepted = none := by
      rw [Finmap.lookup_eq_none, hsound.numbered.mem_objects]
      omega
    obtain ⟨rfl, hnil, hclosed⟩ := (apart_none hnone).mp h
    obtain ⟨result, hstart, rfl, hsession', hpart⟩ :=
      runSession_own hrun s.server.lookup_addSession
    rw [gsupOf_own]
    rw [hsound.numbered.nextClientId] at hstart hpart
    have hstep : SessionLink.step
        { session := { clientId := UInt64.ofNat (s.server.accepted + 1) } } .start =
        .ok ((ServerLink.part { s with server := s.server.addSession } s.server.accepted
          { clientId := UInt64.ofNat (s.server.accepted + 1) }).after result, result.2) := by
      rw [SessionLink.step]
      dsimp only
      rw [hstart]
      simp only [except_ok_bind, except_pure, part, hnil, hclosed, not_false_eq_true, decide_true]
    have hlookup : s₁.acceptNext.server.objects.lookup s.server.accepted = some result.1 := by
      rw [acceptNext_server]
      exact hsession'
    have hapart : Apart s.server.accepted s₁.acceptNext
        ((ServerLink.part { s with server := s.server.addSession } s.server.accepted
          { clientId := UInt64.ofNat (s.server.accepted + 1) }).after result) := by
      rw [apart_some hlookup, same_acceptNext.part, hpart]
    have hop : SessionLink.Possible
        { session := { clientId := UInt64.ofNat (s.server.accepted + 1) } } .start := rfl
    have hmatched := matched_single hop hstep hapart
    exact hmatched
  · obtain ⟨hobjects, hsame, own, rfl⟩ := runSession_other heq hrun
    rw [gsupOf_other heq]
    refine matched_idle h ?_ ((hadded.trans hsame).trans same_acceptNext)
    rw [acceptNext_server, hobjects]
    exact Finmap.lookup_insert_of_ne _ (Ne.symm heq)

theorem matched_stop (order : List ClientId) (h : Apart object s t) :
    Matched object t (s.stop order) [] [] := by
  have hobjects : (s.stop order).server.objects.lookup object =
      (s.server.objects.lookup object).map fun session =>
        if object ∈ s.server.stopCloses order then session.stop.1 else session := by
    rw [stop_server, lookup_stop]
    cases hsession : s.server.objects.lookup object with
    | none => rfl
    | some session =>
      rw [Option.map_some, Option.map_some, Option.some_inj]
      by_cases hstopped : session.state = .stopped
      · have hsame : session.stop.1 = session := by simp [IpaSession.stop, hstopped]
        rw [hsame, ite_self, ite_self]
      · have hiff : object ∈ s.server.stopCloses order ↔
            ∃ id ∈ order, s.server.allSessions.lookup id = some object := by
          rw [mem_stopCloses]
          constructor
          · rintro ⟨_, -, hid, -⟩
            exact hid
          · intro hid
            exact ⟨session, hsession, hid, hstopped⟩
        simp only [hiff]
  have hpart : ∀ session, (s.stop order).part object session =
      if object ∈ s.server.stopCloses order then (s.part object session).perform .closeSocket
      else s.part object session := by
    intro session
    unfold stop
    dsimp only
    rw [part_closeSockets, (same_stop order).part]
  by_cases hcloses : object ∈ s.server.stopCloses order
  · obtain ⟨session, hsession, -, hrunning⟩ := mem_stopCloses.mp hcloses
    obtain rfl := (apart_some hsession).mp h
    rw [hsession, Option.map_some, if_pos hcloses] at hobjects
    have hstop : session.stop = ({ session with state := .stopped }, [.closeSocket]) :=
      if_neg hrunning
    have hstep : (s.part object session).step .stop =
        .ok ((s.part object session.stop.1).perform .closeSocket, [.closeSocket]) := by
      rw [SessionLink.step]
      show Except.ok ((s.part object session).after session.stop, session.stop.2) = _
      rw [hstop]
      rfl
    have hapart : Apart object (s.stop order)
        ((s.part object session.stop.1).perform .closeSocket) := by
      rw [apart_some hobjects, hpart, if_pos hcloses]
    have hop : (s.part object session).Possible .stop := rfl
    have hmatched := matched_single hop hstep hapart
    exact hmatched
  · simp only [hcloses, if_false, Option.map_id'] at hobjects hpart
    refine ⟨[], t, .nil, ?_, rfl, rfl⟩
    cases hsession : s.server.objects.lookup object with
    | none =>
      obtain ⟨rfl, hnil, hclosed⟩ := (apart_none hsession).mp h
      rw [hsession] at hobjects
      have hfresh := hpart { clientId := UInt64.ofNat (object + 1) }
      refine (apart_none hobjects).mpr ⟨rfl, ?_, ?_⟩
      · exact (congrArg SessionLink.io hfresh).trans hnil
      · have hopen := congrArg SessionLink.isOpen hfresh
        simpa [part, hclosed] using hopen
    | some session =>
      rw [hsession] at hobjects
      rw [apart_some hobjects, hpart]
      exact (apart_some hsession).mp h

/-! ### Runs -/

theorem step_matched {input : ServerInput} {calls : List ServerCall} (hsound : s.server.Sound)
    (h : Apart object s t) (hop : s.Possible input) (hstep : s.step input = .ok (s', calls)) :
    Matched object t s' (input.chunksOf object)
      (calls.filterMap (ServerCall.gsupOf? object)) := by
  cases input with
  | start =>
    cases hstep
    refine matched_idle h ?_ same_acceptNext
    rw [start, acceptNext_server]
  | stop order =>
    cases hstep
    exact matched_stop order h
  | send payload clientId =>
    cases hstep
    exact matched_idle h rfl ⟨.rfl, by simp [SgsnOp.own]⟩
  | finish op handler =>
    cases hstep
    exact matched_finish h hop.1 hop.2
  | run handler order =>
    rw [step] at hstep
    cases handler with
    | accepted result =>
      have htaken : Same object s { s with io := s.io.take (.accepted result) } := same_taking rfl
      cases result with
      | failed =>
        cases hstep
        exact matched_idle h rfl htaken
      | reset => cases hstep
      | connected =>
        exact matched_accept (s := { s with io := s.io.take (.accepted .connected) }) hsound
          (h.same rfl htaken) hstep
    | send payload clientId =>
      obtain ⟨handlers, hposted, hstep⟩ := except_bind_eq_ok.mp hstep
      cases hstep
      have hnone : ∀ called : List Nat, (called.map (ServerCall.sendGsup · payload)).filterMap
          (ServerCall.gsupOf? object) = [] := by
        intro called
        rw [List.filterMap_map, List.filterMap_eq_nil_iff]
        intro _ _
        rfl
      rw [hnone]
      have htaken : Same object s { s with io := s.io.take (.send payload clientId) } :=
        same_taking rfl
      refine matched_send (s := { s with io := s.io.take (.send payload clientId) }) payload
        clientId order (h.same rfl htaken) ?_
      show (IpaServer.sendEach payload (s.server.recipients order clientId)).2 = _
      cases hresult : (IpaServer.sendEach payload (s.server.recipients order clientId)).2 with
      | error e =>
        rw [hresult] at hposted
        cases hposted
      | ok handlers' =>
        rw [hresult] at hposted
        cases hposted
        rfl
    | read object' result =>
      by_cases heq : object' = object
      · subst heq
        have hown : SgsnOp.own object' (.ready (.read object' result)) =
            some (.ready (.read result)) := by simp [SgsnOp.own]
        have hmatched := matched_run h hop.1 hown hstep
        cases result with
        | none => exact hmatched
        | some chunk => simpa [ServerInput.chunksOf, SessionInput.chunks] using hmatched
      · have hmatched := matched_other heq h (by simp [SgsnOp.own, heq]) hstep
        cases result with
        | none => exact hmatched
        | some chunk => simpa [ServerInput.chunksOf, heq] using hmatched
    | written object' frame ok =>
      by_cases heq : object' = object
      · subst heq
        have hown : SgsnOp.own object' (.ready (.written object' frame ok)) =
            some (.ready (.written frame ok)) := by simp [SgsnOp.own]
        exact matched_run h hop.1 hown hstep
      · exact matched_other heq h (by simp [SgsnOp.own, heq]) hstep
    | enqueue object' frame =>
      by_cases heq : object' = object
      · subst heq
        have hown : SgsnOp.own object' (.ready (.enqueue object' frame)) =
            some (.ready (.enqueue frame)) := by simp [SgsnOp.own]
        exact matched_run h hop.1 hown hstep
      · exact matched_other heq h (by simp [SgsnOp.own, heq]) hstep

abbrev ServerEvent := Event ServerLink ServerInput ServerCall

/-- The chunks read from a client, and the payloads handed on for it. -/
def chunksOf (object : Nat) (events : List ServerEvent) : List Bytes :=
  events.flatMap fun e => e.op.chunksOf object

def deliveredOf (object : Nat) (events : List ServerEvent) : List Bytes :=
  events.flatMap fun e => e.outs.filterMap (ServerCall.gsupOf? object)

/-- Whatever the server and its other sessions have done, each session has had a run of its own. -/
theorem sessions_run_apart {events : List ServerEvent} (hrun : ServerRun events s)
    (hsession : s.server.objects.lookup object = some session) :
    ∃ own, SessionRun session.clientId own (s.part object session) ∧
      SessionLink.chunks own = chunksOf object events ∧
      SessionLink.delivered own = deliveredOf object events := by
  have hsimulated : ∃ own t, SessionRun (UInt64.ofNat (object + 1)) own t ∧
      Apart object s t ∧ SessionLink.chunks own = chunksOf object events ∧
      SessionLink.delivered own = deliveredOf object events := by
    refine hrun.simulated (R := fun events s own t => Apart object s t ∧
      SessionLink.chunks own = chunksOf object events ∧
      SessionLink.delivered own = deliveredOf object events) ?_ ?_
    · exact ⟨(apart_none rfl).mpr ⟨rfl, rfl, by simp⟩, rfl, rfl⟩
    · rintro events s own t op outs s' earlier ⟨hapart, hchunks, hdelivered⟩ hop hstep
      obtain ⟨later, t', hlater, hapart', hchunks', hdelivered'⟩ :=
        step_matched (sound_of_run earlier) hapart hop hstep
      refine ⟨later, t', hlater, hapart', ?_, ?_⟩
      · simp only [SessionLink.chunks, chunksOf] at hchunks hchunks' ⊢
        simp [hchunks, hchunks']
      · simp only [SessionLink.delivered, deliveredOf] at hdelivered hdelivered' ⊢
        simp [hdelivered, hdelivered']
  obtain ⟨own, t, hown, hapart, hchunks, hdelivered⟩ := hsimulated
  obtain rfl := (apart_some hsession).mp hapart
  rw [(sound_of_run hrun).numbered.clientId object session hsession]
  exact ⟨own, hown, hchunks, hdelivered⟩

/-- Two clients take turns. The second one's session has read what it has read, and delivered what
it has delivered, in a run of its own. -/
theorem second_session_apart :
    ∃ events s session own, ServerRun events s ∧ s.server.accepted = 2 ∧
      SessionRun 2 own (s.part 1 session) ∧
      SessionLink.chunks own = [idResp, [0x00, 0x02, kStreamGsup, 0x04]] ∧
      SessionLink.delivered own = [[0x04]] := by
  obtain ⟨result, hplay, haccepted, session, hsession, hid, hchunks, hdelivered⟩ : ∃ result,
      played ([.start] ++ handshake 0 [] ++ handshake 1 [1] ++
        [.finish (.read 0) (.read 0 (some [0x00, 0x02, kStreamGsup, 0x08])),
          .finish (.read 1) (.read 1 (some [0x00, 0x02, kStreamGsup, 0x04])),
          .run (.read 1 (some [0x00, 0x02, kStreamGsup, 0x04])) [1, 2],
          .run (.read 0 (some [0x00, 0x02, kStreamGsup, 0x08])) [1, 2]]) = some result ∧
      result.2.server.accepted = 2 ∧
      ∃ session, result.2.server.objects.lookup 1 = some session ∧ session.clientId = 2 ∧
        chunksOf 1 result.1 = [idResp, [0x00, 0x02, kStreamGsup, 0x04]] ∧
        deliveredOf 1 result.1 = [[0x04]] :=
    ⟨_, rfl, rfl, _, rfl, rfl, rfl, rfl⟩
  have hrun := run_of_played hplay
  obtain ⟨own, hown, hownChunks, hownDelivered⟩ := sessions_run_apart hrun hsession
  rw [hid] at hown
  exact ⟨_, _, session, own, hrun, haccepted, hown, hownChunks.trans hchunks,
    hownDelivered.trans hdelivered⟩

end ServerLink

end GsupMapProxy.Transport
