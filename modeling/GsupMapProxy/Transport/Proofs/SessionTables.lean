import GsupMapProxy.Misc.Table
import GsupMapProxy.Transport.Proofs.SessionMethods

/-!
# The session tables of IpaServer

`sessions_` is kept beside the state of every session by callbacks. The two agree because a
session calls `onReady` in the handler that makes it ready, and `onDisconnect` in the one that
makes it stop, and because the server looks into `allSessions_` before it believes the former: a
frame that arrives late can make a session ready that was given up before, but not bring it back.
-/

namespace GsupMapProxy.Transport

open Misc Ipa

namespace IpaServer

/-- Every accept so far has made a session object, and given it the next id. -/
structure Numbered (server : IpaServer) : Prop where
  nextClientId : server.nextClientId = UInt64.ofNat (server.accepted + 1)
  mem_objects : ∀ object, object ∈ server.objects ↔ object < server.accepted
  clientId : ∀ object session, server.objects.lookup object = some session →
    session.clientId = UInt64.ofNat (object + 1)

/-- The sessions in `allSessions` stand there under their ids and are not stopped, and `sessions`
has those of them that are ready. -/
structure TablesAgree (server : IpaServer) : Prop where
  registered : ∀ id object, server.allSessions.lookup id = some object →
    ∃ session, server.objects.lookup object = some session ∧ session.clientId = id ∧
      session.state ≠ .stopped
  ready : ∀ id object, server.sessions.lookup id = some object ↔
    server.allSessions.lookup id = some object ∧
      ∃ session, server.objects.lookup object = some session ∧ session.state = .ready

/-- What the tables have under the id of a session in this state. -/
def Entry (server : IpaServer) (id : ClientId) (object : Nat) (state : SessionState) : Prop :=
  server.allSessions.lookup id = none ∧ server.sessions.lookup id = none ∨
    server.allSessions.lookup id = some object ∧ state ≠ .stopped ∧
      server.sessions.lookup id = if state = .ready then some object else none

variable {server server' : IpaServer} {object : Nat} {t t' : IpaSession}

theorem Numbered.object_eq (h : server.Numbered) (haccepted : server.accepted < 2 ^ 64)
    {object' : Nat} (ht : server.objects.lookup object = some t)
    (ht' : server.objects.lookup object' = some t') (hid : t.clientId = t'.clientId) :
    object = object' := by
  have hlt := (h.mem_objects object).mp (mem_of_lookup ht)
  have hlt' := (h.mem_objects object').mp (mem_of_lookup ht')
  rw [h.clientId object t ht, h.clientId object' t' ht'] at hid
  have hnat := congrArg UInt64.toNat hid
  rw [UInt64.toNat_ofNat', UInt64.toNat_ofNat', Nat.mod_eq_of_lt (by omega),
    Nat.mod_eq_of_lt (by omega)] at hnat
  omega

theorem Numbered.update (h : server.Numbered) (ht : server.objects.lookup object = some t)
    (hid : t'.clientId = t.clientId) : (server.update object t').Numbered where
  nextClientId := h.nextClientId
  mem_objects := by
    intro o
    rw [IpaServer.update, Finmap.mem_insert, ← h.mem_objects o]
    constructor
    · rintro (rfl | ho)
      · exact mem_of_lookup ht
      · exact ho
    · exact .inr
  clientId := by
    intro o session hsession
    rw [IpaServer.update, lookup_insert_ite] at hsession
    split at hsession
    · rename_i heq
      cases hsession
      rw [heq, hid]
      exact h.clientId object t ht
    · exact h.clientId o session hsession

theorem lookup_addSession (server : IpaServer) :
    server.addSession.objects.lookup server.accepted =
      some { clientId := server.nextClientId } :=
  Finmap.lookup_insert _

theorem Numbered.addSession (h : server.Numbered) : server.addSession.Numbered where
  nextClientId := by
    show server.nextClientId + 1 = _
    rw [h.nextClientId, IpaServer.addSession]
    exact (UInt64.ofNat_add _ _).symm
  mem_objects := by
    intro o
    simp only [IpaServer.addSession, Finmap.mem_insert, h.mem_objects]
    omega
  clientId := by
    intro o session hsession
    simp only [IpaServer.addSession, lookup_insert_ite] at hsession
    split at hsession
    · rename_i heq
      cases hsession
      rw [heq]
      exact h.nextClientId
    · exact h.clientId o session hsession

theorem Numbered.stop (h : server.Numbered) (order : List ClientId) :
    (server.stop order).Numbered := by
  unfold IpaServer.stop
  dsimp only
  suffices hfold : Numbered (order.foldl _ server) from
    ⟨hfold.nextClientId, hfold.mem_objects, hfold.clientId⟩
  refine List.foldlRecOn order _ h fun server h id _ => ?_
  split
  · exact h
  · split
    · exact h
    · rename_i session hsession
      refine h.update hsession ?_
      unfold IpaSession.stop
      split <;> rfl

theorem TablesAgree.id_eq (h : server.TablesAgree) (ht : server.objects.lookup object = some t)
    {id : ClientId} (hall : server.allSessions.lookup id = some object) : id = t.clientId := by
  obtain ⟨session, hsession, hid, -⟩ := h.registered id object hall
  rw [ht] at hsession
  cases hsession
  exact hid.symm

/-- The entries of a session in tables that agree. -/
theorem TablesAgree.entry (h : server.TablesAgree) (hn : server.Numbered)
    (haccepted : server.accepted < 2 ^ 64) (ht : server.objects.lookup object = some t) :
    server.Entry t.clientId object t.state := by
  cases hall : server.allSessions.lookup t.clientId with
  | none =>
    refine .inl ⟨hall, ?_⟩
    cases hsession : server.sessions.lookup t.clientId with
    | none => rfl
    | some o =>
      have hentry := ((h.ready _ _).mp hsession).1
      rw [hall] at hentry
      cases hentry
  | some o =>
    obtain ⟨session, hsession, hid, hstate⟩ := h.registered _ _ hall
    obtain rfl : o = object := hn.object_eq haccepted hsession ht hid
    rw [ht] at hsession
    cases hsession
    refine .inr ⟨hall, hstate, ?_⟩
    split
    · rename_i hready
      exact (h.ready _ _).mpr ⟨hall, t, ht, hready⟩
    · rename_i hready
      cases hsessions : server.sessions.lookup t.clientId with
      | none => rfl
      | some o' =>
        obtain ⟨hall', session', hsession', hready'⟩ := (h.ready _ _).mp hsessions
        rw [hall] at hall'
        cases hall'
        rw [ht] at hsession'
        cases hsession'
        exact absurd hready' hready

/-- Tables that agree go on to do so when nothing changes except for one session and its own
entries. -/
theorem TablesAgree.of_entry (h : server.TablesAgree)
    (hforeign : ∀ id, server.allSessions.lookup id = some object → id = t.clientId)
    (hobjects : server'.objects = server.objects.insert object t)
    (hall : ∀ id, id ≠ t.clientId →
      server'.allSessions.lookup id = server.allSessions.lookup id)
    (hsessions : ∀ id, id ≠ t.clientId → server'.sessions.lookup id = server.sessions.lookup id)
    (hentry : server'.Entry t.clientId object t.state) : server'.TablesAgree := by
  have hother : ∀ id o, id ≠ t.clientId → server.allSessions.lookup id = some o →
      server'.objects.lookup o = server.objects.lookup o := by
    intro id o hid ho
    rw [hobjects, Finmap.lookup_insert_of_ne]
    rintro rfl
    exact hid (hforeign id ho)
  have hown : server'.objects.lookup object = some t := by
    rw [hobjects, Finmap.lookup_insert]
  constructor
  · intro id o ho
    by_cases hid : id = t.clientId
    · subst hid
      rcases hentry with ⟨hnone, -⟩ | ⟨hsome, hstate, -⟩
      · rw [hnone] at ho
        cases ho
      · rw [hsome] at ho
        cases ho
        exact ⟨t, hown, rfl, hstate⟩
    · rw [hall id hid] at ho
      rw [hother id o hid ho]
      exact h.registered id o ho
  · intro id o
    by_cases hid : id = t.clientId
    · subst hid
      rcases hentry with ⟨hnone, hnone'⟩ | ⟨hsome, -, hready⟩
      · simp [hnone, hnone']
      · rw [hready, hsome]
        constructor
        · intro ho
          split at ho
          · rename_i hstate
            cases ho
            exact ⟨rfl, t, hown, hstate⟩
          · cases ho
        · rintro ⟨⟨⟩, session, hsession, hstate⟩
          rw [hown] at hsession
          cases hsession
          exact if_pos hstate
    · rw [hall id hid, hsessions id hid, h.ready id o]
      refine and_congr_right fun ho => ?_
      rw [hother id o hid ho]

/-- What is true of a server between two handlers. The tables are only safe until the ids come
round. -/
structure Sound (server : IpaServer) : Prop where
  numbered : server.Numbered
  agree : server.accepted < 2 ^ 64 → server.TablesAgree

theorem onSessionReady_eq (server : IpaServer) (id : ClientId) :
    server.onSessionReady id =
      { server with sessions := (server.onSessionReady id).sessions } := by
  unfold onSessionReady
  split <;> rfl

/-- A session changes, and with it nothing of the tables but its own entries. -/
theorem Sound.moved (h : server.Sound) (ht : server.objects.lookup object = some t)
    (hid : t'.clientId = t.clientId) (hobjects : server'.objects = server.objects.insert object t')
    (haccepted : server'.accepted = server.accepted)
    (hnext : server'.nextClientId = server.nextClientId)
    (hall : ∀ id, id ≠ t.clientId →
      server'.allSessions.lookup id = server.allSessions.lookup id)
    (hsessions : ∀ id, id ≠ t.clientId → server'.sessions.lookup id = server.sessions.lookup id)
    (hentry : server.Entry t.clientId object t.state → server'.Entry t.clientId object t'.state) :
    server'.Sound where
  numbered := by
    have hn := h.numbered.update ht hid
    constructor
    · rw [hnext, haccepted]
      exact hn.nextClientId
    · rw [hobjects, haccepted]
      exact hn.mem_objects
    · rw [hobjects]
      exact hn.clientId
  agree := by
    rw [haccepted]
    intro hlt
    have hagree := h.agree hlt
    rw [← hid] at hall hsessions
    refine hagree.of_entry ?_ hobjects hall hsessions ?_
    · intro id ho
      rw [hid]
      exact hagree.id_eq ht ho
    · rw [hid]
      exact hentry (hagree.entry h.numbered hlt ht)

theorem Sound.update (h : server.Sound) (ht : server.objects.lookup object = some t)
    (hid : t'.clientId = t.clientId) (hstate : t'.state = t.state) :
    (server.update object t').Sound := by
  refine h.moved ht hid rfl rfl rfl (fun _ _ => rfl) (fun _ _ => rfl) ?_
  rw [hstate]
  exact id

theorem Sound.update_onSessionReady (h : server.Sound)
    (ht : server.objects.lookup object = some t) (hid : t'.clientId = t.clientId)
    (hstate : t'.state = .ready) :
    ((server.update object t').onSessionReady t.clientId).Sound := by
  rw [onSessionReady_eq]
  refine h.moved ht hid rfl rfl rfl (fun _ _ => rfl) ?_ ?_
  · intro id hne
    show ((server.update object t').onSessionReady t.clientId).sessions.lookup id = _
    unfold onSessionReady
    split
    · rfl
    · exact Finmap.lookup_insert_of_ne _ hne
  · rintro (⟨hall, hsessions⟩ | ⟨hall, -, -⟩)
    · -- given up before: the server does not know the session any more
      refine .inl ⟨hall, ?_⟩
      simp only [onSessionReady, IpaServer.update, hall, hsessions]
    · rw [hstate]
      refine .inr ⟨hall, by decide, ?_⟩
      simp only [onSessionReady, IpaServer.update, hall, Finmap.lookup_insert, if_true]

theorem Sound.update_onSessionDisconnect (h : server.Sound)
    (ht : server.objects.lookup object = some t) (hid : t'.clientId = t.clientId) :
    ((server.update object t').onSessionDisconnect t.clientId).Sound := by
  refine h.moved ht hid rfl rfl rfl ?_ ?_ ?_
  · intro id hne
    exact Finmap.lookup_erase_ne hne
  · intro id hne
    exact Finmap.lookup_erase_ne hne
  · intro _
    exact .inl ⟨Finmap.lookup_erase _ _, Finmap.lookup_erase _ _⟩

theorem Sound.addSession (h : server.Sound) : server.addSession.Sound where
  numbered := h.numbered.addSession
  agree := by
    intro haccepted
    have haccepted : server.accepted + 1 < 2 ^ 64 := haccepted
    have hagree := h.agree (by omega)
    have hfresh : server.objects.lookup server.accepted = none := by
      rw [Finmap.lookup_eq_none, h.numbered.mem_objects]
      omega
    -- the id is new as well: whoever had it would be the object that is added now
    have hnone : server.allSessions.lookup server.nextClientId = none := by
      cases hall : server.allSessions.lookup server.nextClientId with
      | none => rfl
      | some o =>
        obtain ⟨session, hsession, hid, -⟩ := hagree.registered _ _ hall
        have hne : o ≠ server.accepted := by
          rintro rfl
          rw [hfresh] at hsession
          cases hsession
        have hold : server.addSession.objects.lookup o = some session := by
          rw [IpaServer.addSession, Finmap.lookup_insert_of_ne _ hne]
          exact hsession
        exact absurd (h.numbered.addSession.object_eq haccepted hold server.lookup_addSession hid)
          hne
    have hforeign : ∀ id, server.allSessions.lookup id = some server.accepted →
        id = server.nextClientId := by
      intro id ho
      obtain ⟨session, hsession, -⟩ := hagree.registered id _ ho
      rw [hfresh] at hsession
      cases hsession
    refine hagree.of_entry (t := { clientId := server.nextClientId }) hforeign rfl ?_
      (fun _ _ => rfl) ?_
    · intro id hne
      exact Finmap.lookup_insert_of_ne _ hne
    · refine .inr ⟨Finmap.lookup_insert _, by rintro ⟨⟩, ?_⟩
      show server.sessions.lookup server.nextClientId = none
      cases hsessions : server.sessions.lookup server.nextClientId with
      | none => rfl
      | some o =>
        have hall := ((hagree.ready _ _).mp hsessions).1
        rw [hnone] at hall
        cases hall

theorem Sound.stop (h : server.Sound) (order : List ClientId) : (server.stop order).Sound where
  numbered := h.numbered.stop order
  agree := by
    intro _
    constructor
    · intro id o ho
      cases ho
    · intro id o
      simp [IpaServer.stop]

end IpaServer

namespace ServerLink

variable {s s' : ServerLink} {object : Nat} {calls : List ServerCall}

theorem runSession_sound {method : IpaSession → Except Fault (IpaSession × List SessionCall)}
    (hs : s.server.Sound)
    (hmethod : ∀ t t' c, method t = .ok (t', c) → t.Proceeds t' c ∨ t.Ends t' c)
    (h : s.runSession object method = .ok (s', calls)) : s'.server.Sound := by
  obtain ⟨t, t', ht, hid, hmoves⟩ := runSession_cases hmethod h
  rcases hmoves with ⟨hstate, hserver⟩ | ⟨hstate, hserver⟩ | ⟨-, hserver⟩
  · rw [hserver]
    exact hs.update ht hid hstate
  · rw [hserver]
    exact hs.update_onSessionReady ht hid hstate
  · rw [hserver]
    exact hs.update_onSessionDisconnect ht hid

theorem handle_sound {order : List ClientId} {handler : SgsnHandler} (hs : s.server.Sound)
    (h : s.handle order handler = .ok (s', calls)) : s'.server.Sound := by
  cases handler with
  | accepted result =>
    cases result with
    | failed =>
      cases h
      exact hs
    | reset => cases h
    | connected =>
      obtain ⟨⟨s₁, calls₁⟩, hrun, h⟩ := except_bind_eq_ok.mp h
      cases h
      rw [acceptNext_server]
      refine runSession_sound hs.addSession ?_ hrun
      intro t t' c hstart
      cases hresult : t.start with
      | error e =>
        rw [hresult] at hstart
        cases hstart
      | ok result =>
        rw [hresult] at hstart
        cases hstart
        exact .inl (IpaSession.start_proceeds hresult)
  | read o result => exact runSession_sound hs (fun _ _ _ => IpaSession.onRead_cases) h
  | written o frame ok => exact runSession_sound hs (fun _ _ _ => IpaSession.onWritten_cases) h
  | send payload clientId =>
    obtain ⟨handlers, -, h⟩ := except_bind_eq_ok.mp h
    cases h
    exact hs
  | enqueue o frame =>
    refine runSession_sound hs ?_ h
    intro t t' c henqueue
    have hproceeds := t.enqueue_proceeds frame
    rw [Except.ok.inj henqueue] at hproceeds
    exact .inl hproceeds

theorem stop_server (s : ServerLink) (order : List ClientId) :
    (s.stop order).server = s.server.stop order := by
  unfold stop
  exact List.foldlRecOn (motive := fun link : ServerLink => link.server = s.server.stop order)
    _ _ rfl fun _ hlink _ _ => hlink

theorem step_sound {input : ServerInput} (hs : s.server.Sound)
    (h : s.step input = .ok (s', calls)) : s'.server.Sound := by
  cases input with
  | start =>
    cases h
    rw [start, acceptNext_server]
    exact hs
  | stop order =>
    cases h
    rw [stop_server]
    exact hs.stop order
  | send payload clientId =>
    cases h
    exact hs
  | finish op handler =>
    cases h
    exact hs
  | run handler order =>
    have htaken : ({ s with io := s.io.take handler } : ServerLink).server.Sound := hs
    exact handle_sound htaken h

/-- Between any two handlers the server is sound. -/
theorem sound_of_run {events : List (Event ServerLink ServerInput ServerCall)}
    (hrun : ServerRun events s) : s.server.Sound := by
  refine hrun.invariant ?_ fun s op s' outs hs _ hstep => step_sound hs hstep
  refine ⟨⟨rfl, ?_, ?_⟩, fun _ => ⟨?_, ?_⟩⟩
  · intro object
    simp [Finmap.notMem_empty]
  · intro object session h
    cases h
  · intro id object h
    cases h
  · intro id object
    simp

end ServerLink

/-! ## Sending -/

namespace IpaServer

variable {server : IpaServer} {order : List ClientId} {payload : Bytes}

theorem TablesAgree.recipients_eq (h : server.TablesAgree) (order : List ClientId)
    (clientId : ClientId) :
    server.recipients order clientId =
      if clientId = 0 then order.filterMap server.sessions.lookup
      else (server.sessions.lookup clientId).toList := by
  -- the test for `isReady` never fails
  have hready : ∀ id, (do
      let object ← server.sessions.lookup id
      let session ← server.objects.lookup object
      if session.state = .ready then some object else none) = server.sessions.lookup id := by
    intro id
    cases hlookup : server.sessions.lookup id with
    | none => rfl
    | some object =>
      obtain ⟨-, session, hsession, hstate⟩ := (h.ready id object).mp hlookup
      simp [hsession, hstate]
  unfold recipients
  simp only [hready]

/-- A payload that does not fit an IPA frame gets as far as the first session. -/
theorem sendEach_called (payload : Bytes) (objects : List Nat) :
    (sendEach payload objects).1 =
      if payload.length ≤ 0xFFFF then objects else objects.take 1 := by
  induction objects with
  | nil => simp [sendEach]
  | cons object objects ih =>
    rw [sendEach, IpaSession.sendGsup, Ipa.encode]
    by_cases hlength : payload.length ≤ 0xFFFF
    · rw [if_pos hlength] at ih ⊢
      rw [if_neg (by omega)]
      dsimp only
      rw [ih]
    · rw [if_neg hlength, if_pos (by omega)]
      rfl

theorem TablesAgree.broadcast_nodup (h : server.TablesAgree) (horder : order.Nodup) :
    (order.filterMap server.sessions.lookup).Nodup := by
  refine horder.filterMap ?_
  intro id id' object hobject hobject'
  have hall := ((h.ready id object).mp hobject).1
  have hall' := ((h.ready id' object).mp hobject').1
  obtain ⟨session, hsession, hid, -⟩ := h.registered id object hall
  rw [← hid, h.id_eq hsession hall']

theorem mem_broadcast (horder : Enumerates order server.sessions) (object : Nat) :
    object ∈ order.filterMap server.sessions.lookup ↔
      ∃ id, server.sessions.lookup id = some object := by
  rw [List.mem_filterMap]
  constructor
  · rintro ⟨id, -, hid⟩
    exact ⟨id, hid⟩
  · rintro ⟨id, hid⟩
    exact ⟨id, (horder.2 id).mpr (mem_of_lookup hid), hid⟩

theorem length_broadcast (horder : Enumerates order server.sessions) :
    (order.filterMap server.sessions.lookup).length = order.length := by
  rw [List.length_filterMap_eq_countP, List.countP_eq_length]
  intro id hid
  rw [Finmap.lookup_isSome]
  exact (horder.2 id).mp hid

/-- The posted lambda calls `sendGsup` once on every session in `sessions`. -/
def ReachesAll (server : IpaServer) (order : List ClientId) (payload : Bytes) : Prop :=
  (server.sendPosted order payload 0).1.Nodup ∧
    ∀ object, object ∈ (server.sendPosted order payload 0).1 ↔
      ∃ id, server.sessions.lookup id = some object

/-- A broadcast reaches all sessions unless the first call throws and there is a second one. -/
theorem TablesAgree.reachesAll_iff (h : server.TablesAgree)
    (horder : Enumerates order server.sessions) :
    server.ReachesAll order payload ↔ payload.length ≤ 0xFFFF ∨ order.length ≤ 1 := by
  have hnodup := h.broadcast_nodup horder.1
  have hlength := length_broadcast horder
  unfold ReachesAll
  rw [sendPosted, h.recipients_eq, if_pos rfl, sendEach_called]
  simp only [← mem_broadcast horder]
  generalize order.filterMap server.sessions.lookup = objects at hnodup hlength
  by_cases hpayload : payload.length ≤ 0xFFFF
  · simp [hpayload, hnodup]
  · rw [if_neg hpayload, ← hlength]
    match objects, hnodup with
    | [], _ => simp
    | [object], _ => simp
    | first :: second :: rest, hnodup =>
      have hne : second ≠ first := by
        intro heq
        exact (List.nodup_cons.mp hnodup).1 (by simp [heq])
      constructor
      · rintro ⟨-, hmem⟩
        have hsecond := (hmem second).mpr (by simp)
        simp [hne] at hsecond
      · rintro (hshort | hshort)
        · exact absurd hshort hpayload
        · simp at hshort

/-- Every accept has assigned an id of its own, and none has assigned 0. -/
structure IdsUsedOnce (server : IpaServer) : Prop where
  assigned : ∀ object, object < server.accepted →
    ∃ session, server.objects.lookup object = some session ∧ session.clientId ≠ 0
  once : ∀ object object' session session', server.objects.lookup object = some session →
    server.objects.lookup object' = some session' → session.clientId = session'.clientId →
    object = object'

theorem Numbered.idsUsedOnce (h : server.Numbered) (haccepted : server.accepted < 2 ^ 64) :
    server.IdsUsedOnce where
  assigned := by
    intro object hlt
    obtain ⟨session, hsession⟩ := Finmap.mem_iff.mp ((h.mem_objects object).mpr hlt)
    refine ⟨session, hsession, ?_⟩
    rw [h.clientId object session hsession]
    intro hzero
    have hnat := congrArg UInt64.toNat hzero
    rw [UInt64.toNat_ofNat', Nat.mod_eq_of_lt (by omega)] at hnat
    cases hnat
  once := fun _ _ _ _ ht ht' hid => h.object_eq haccepted ht ht' hid

end IpaServer

namespace ServerLink

/-- Whatever has happened, short of 2⁶⁴ accepts: the tables agree with the states of the sessions,
ids are unique, and a posted `send` gets to the sessions it is meant for. -/
theorem session_tables_agree {events : List (Event ServerLink ServerInput ServerCall)}
    {s : ServerLink} (hrun : ServerRun events s) (haccepted : s.server.accepted < 2 ^ 64) :
    s.server.TablesAgree ∧ s.server.IdsUsedOnce ∧
      (∀ order payload clientId, clientId ≠ 0 →
        (s.server.sendPosted order payload clientId).1 =
          (s.server.sessions.lookup clientId).toList) ∧
      ∀ order payload, Enumerates order s.server.sessions →
        (s.server.ReachesAll order payload ↔ payload.length ≤ 0xFFFF ∨ order.length ≤ 1) := by
  have hsound := sound_of_run hrun
  have hagree := hsound.agree haccepted
  refine ⟨hagree, hsound.numbered.idsUsedOnce haccepted, ?_, ?_⟩
  · intro order payload clientId hne
    rw [IpaServer.sendPosted, hagree.recipients_eq, if_neg hne, IpaServer.sendEach_called]
    split
    · rfl
    · exact List.take_of_length_le Option.length_toList_le
  · intro order payload horder
    exact hagree.reachesAll_iff horder

/-! ## Runs -/

/-- The run with these inputs, if there is one. -/
def played (inputs : List ServerInput) :
    Option (List (Event ServerLink ServerInput ServerCall) × ServerLink) :=
  play step Possible [] {} inputs

theorem run_of_played {inputs : List ServerInput}
    {result : List (Event ServerLink ServerInput ServerCall) × ServerLink}
    (h : played inputs = some result) : ServerRun result.1 result.2 :=
  Run.of_play .nil h

/-- An ID_RESP, as it comes from a client. -/
def idResp : Bytes := [0x00, 0x02, kStreamCcm, kCcmIdResp]

/-- A client connects and identifies itself. -/
def handshake (object : Nat) (order : List ClientId) : List ServerInput :=
  [.finish .accept (.accepted .connected), .run (.accepted .connected) order,
    .finish (.read object) (.read object (some idResp)),
    .run (.read object (some idResp)) order]

/-- A session that failed is out of the tables, and an ID_RESP which was read before makes it
ready again without bringing it back. -/
theorem late_idResp_ignored :
    ∃ events s, ServerRun events s ∧ s.server.accepted = 2 ∧
      (s.server.objects.lookup 1).map IpaSession.state = some .ready ∧
      s.server.sessions.lookup 1 = some 0 ∧ s.server.sessions.lookup 2 = none ∧
      s.server.TablesAgree ∧ s.server.IdsUsedOnce ∧
      (s.server.sendPosted [1] [0x0C] 2).1 = [] ∧ s.server.ReachesAll [1] [0x0C] := by
  obtain ⟨result, hplay, haccepted, hstate, hone, htwo, horder⟩ : ∃ result,
      played ([.start] ++ handshake 0 [] ++
        [.finish .accept (.accepted .connected), .run (.accepted .connected) [1],
          .finish (.read 1) (.read 1 (some idResp)),
          .finish (.write 1 [0x00, 0x04, kStreamCcm, kCcmIdReq, 0x01, 0x07])
            (.written 1 [0x00, 0x04, kStreamCcm, kCcmIdReq, 0x01, 0x07] false),
          .run (.written 1 [0x00, 0x04, kStreamCcm, kCcmIdReq, 0x01, 0x07] false) [1],
          .run (.read 1 (some idResp)) [1]]) = some result ∧
      result.2.server.accepted = 2 ∧
      (result.2.server.objects.lookup 1).map IpaSession.state = some .ready ∧
      result.2.server.sessions.lookup 1 = some 0 ∧ result.2.server.sessions.lookup 2 = none ∧
      Enumerates [1] result.2.server.sessions :=
    ⟨_, rfl, rfl, rfl, rfl, rfl, by decide⟩
  have hrun := run_of_played hplay
  obtain ⟨hagree, hids, hsend, hbroadcast⟩ := session_tables_agree hrun (by rw [haccepted]; decide)
  refine ⟨_, _, hrun, haccepted, hstate, hone, htwo, hagree, hids, ?_, ?_⟩
  · rw [hsend [1] [0x0C] 2 (by decide), htwo]
    rfl
  · exact (hbroadcast [1] [0x0C] horder).mpr (.inl (by decide))

theorem start_eq (id : ClientId) :
    ∃ session frame, ({ clientId := id } : IpaSession).start =
      .ok (session, [.asyncWrite frame, .asyncRead]) :=
  ⟨_, _, rfl⟩

@[simp] theorem beginOnSocket_listening (s : ServerLink) (object : Nat) (op : SgsnOp)
    (failed : SgsnHandler) : (s.beginOnSocket object op failed).listening = s.listening := by
  unfold beginOnSocket
  split <;> rfl

/-- A server that listens accepts, and goes on to listen. -/
theorem accept_again {s : ServerLink} (hlistening : s.listening = true) (order : List ClientId) :
    ∃ s' calls, s.handle order (.accepted .connected) = .ok (s', calls) ∧ s'.listening = true ∧
      .running .accept ∈ s'.io ∧ s'.server.accepted = s.server.accepted + 1 ∧
      s'.server.sessions = s.server.sessions ∧
      s'.server.allSessions =
        s.server.allSessions.insert s.server.nextClientId s.server.accepted := by
  obtain ⟨session, frame, hstart⟩ := start_eq s.server.nextClientId
  simp only [handle, runSession, s.server.lookup_addSession, hstart, Except.mapError,
    except_ok_bind, except_pure, List.foldl_cons, List.foldl_nil, performSession, acceptNext,
    beginOnSocket_listening, hlistening, if_true]
  refine ⟨_, _, rfl, ?_, ?_, ?_, ?_, ?_⟩
  · simp
  · simp [Proactor.begin]
  · simp [IpaServer.update, IpaServer.addSession]
  · simp [IpaServer.update, IpaServer.addSession]
  · simp [IpaServer.update, IpaServer.addSession]

theorem exists_enumerates {K V : Type} (table : Finmap fun _ : K => V) :
    ∃ order, Enumerates order table :=
  ⟨table.keys.toList, Finset.nodup_toList _, fun _ => Finset.mem_toList.trans Finmap.mem_keys⟩

/-- The first client stays, and any number of others connect. -/
theorem accepts_any_number (n : Nat) :
    ∃ events s, ServerRun events s ∧ s.listening = true ∧ .running .accept ∈ s.io ∧
      s.server.accepted = n + 1 ∧ s.server.sessions.lookup 1 = some 0 ∧
      (n = 2 ^ 64 → s.server.allSessions.lookup 1 = some (2 ^ 64)) := by
  induction n with
  | zero =>
    obtain ⟨result, hplay, h⟩ : ∃ result, played ([.start] ++ handshake 0 []) = some result ∧
        result.2.listening = true ∧ .running .accept ∈ result.2.io ∧
        result.2.server.accepted = 1 ∧ result.2.server.sessions.lookup 1 = some 0 :=
      ⟨_, rfl, rfl, by decide, rfl, rfl⟩
    obtain ⟨hlistening, hrunning, haccepted, hsession⟩ := h
    exact ⟨_, _, run_of_played hplay, hlistening, hrunning, haccepted, hsession, nofun⟩
  | succ n ih =>
    obtain ⟨events, s, hrun, hlistening, hrunning, haccepted, hsession, -⟩ := ih
    let queued : ServerLink := { s with io := s.io.finish .accept (.accepted .connected) }
    have hqueued : .ready (.accepted .connected) ∈ queued.io := by
      simp [queued, Proactor.finish]
    obtain ⟨order, horder⟩ := exists_enumerates queued.server.sessions
    obtain ⟨s', calls, hhandle, hlistening', hrunning', haccepted', hsessions, hall⟩ :=
      accept_again (s := { queued with io := queued.io.take (.accepted .connected) }) hlistening
        order
    refine ⟨_, s', (hrun.snoc (.finish .accept (.accepted .connected)) ⟨hrunning, rfl⟩ rfl).snoc
      (.run (.accepted .connected) order) ⟨hqueued, horder⟩ hhandle, hlistening', hrunning',
      ?_, ?_, ?_⟩
    · rw [haccepted']
      exact congrArg (· + 1) haccepted
    · rw [hsessions]
      exact hsession
    · intro hn
      have hnext : s.server.nextClientId = 1 := by
        rw [(sound_of_run hrun).numbered.nextClientId, haccepted, hn]
        rfl
      rw [hall]
      show (s.server.allSessions.insert s.server.nextClientId s.server.accepted).lookup 1 = _
      rw [hnext, Finmap.lookup_insert, haccepted, hn]

/-- A payload that does not fit an IPA frame is not broadcast beyond the first session; and once
the ids have come round, a client that has been there all the time loses its place in
`allSessions` to another one. -/
theorem tables_and_broadcasts_limited :
    (∃ events s order payload, ServerRun events s ∧ s.server.accepted < 2 ^ 64 ∧
      .ready (.send payload 0) ∈ s.io ∧ Enumerates order s.server.sessions ∧
      ¬ s.server.ReachesAll order payload) ∧
    ∃ events s, ServerRun events s ∧ ¬ s.server.TablesAgree := by
  constructor
  · obtain ⟨result, hplay, haccepted, horder⟩ : ∃ result,
        played ([.start] ++ handshake 0 [] ++ handshake 1 [1]) = some result ∧
        result.2.server.accepted = 2 ∧ Enumerates [1, 2] result.2.server.sessions :=
      ⟨_, rfl, rfl, by decide⟩
    have hrun := run_of_played hplay
    have hlt : result.2.server.accepted < 2 ^ 64 := by
      rw [haccepted]
      decide
    refine ⟨_, _, [1, 2], List.replicate 65536 0,
      hrun.snoc (.send (List.replicate 65536 0) 0) trivial rfl, hlt, ?_, horder, ?_⟩
    · exact List.mem_append_right _ (List.mem_singleton_self _)
    · show ¬ result.2.server.ReachesAll _ _
      rw [((sound_of_run hrun).agree hlt).reachesAll_iff horder, List.length_replicate]
      decide
  · obtain ⟨events, s, hrun, -, -, -, hsession, hall⟩ := accepts_any_number (2 ^ 64)
    refine ⟨events, s, hrun, fun hagree => ?_⟩
    have hentry := ((hagree.ready 1 0).mp hsession).1
    rw [hall rfl] at hentry
    cases hentry

end ServerLink

end GsupMapProxy.Transport
