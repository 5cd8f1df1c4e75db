import GsupMapProxy.Transport.Proofs.SessionEffects
import GsupMapProxy.Transport.ServerLink

/-!
# What the methods of IpaSession do

A method changes the state of its session in two ways: to ready, and then it calls `onReady`, or
to stopped, and then it calls `onDisconnect` and nothing else. What the server does in these calls
is all that a handler does to its tables.
-/

namespace GsupMapProxy.Transport

open Misc Ipa

namespace IpaSession

/-- The session goes on, and calls `onReady` for becoming ready. -/
structure Proceeds (s s' : IpaSession) (calls : List SessionCall) : Prop where
  clientId : s'.clientId = s.clientId
  state : s'.state = if .onReady ∈ calls then .ready else s.state
  connected : .onDisconnect ∉ calls

/-- The session stops, and calls `onDisconnect` for it. -/
def Ends (s s' : IpaSession) (calls : List SessionCall) : Prop :=
  s' = { s with state := .stopped } ∧ calls = [.onDisconnect]

variable {s s' : IpaSession} {calls : List SessionCall}

theorem Proceeds.refl (s : IpaSession) : Proceeds s s [] where
  clientId := rfl
  state := rfl
  connected := List.not_mem_nil

theorem Tells.proceeds {frames : List IpaFrame} (h : Tells s s' calls frames) :
    Proceeds s s' calls where
  clientId := h.clientId
  state := by
    rw [h.state, stateAfter]
    simp only [h.ready]
  connected := h.connected

theorem enqueue_proceeds (s : IpaSession) (frame : Bytes) :
    Proceeds s (s.enqueue frame).1 (s.enqueue frame).2 := (s.enqueue_tells frame).proceeds

theorem start_proceeds (h : s.start = .ok (s', calls)) : Proceeds s s' calls := by
  rw [start_eq] at h
  cases h
  exact ((s.enqueue_tells ccmIdReq).trans (tells_nothing rfl rfl (by simp))).proceeds

theorem onRead_cases {result : Option Bytes} (h : s.onRead result = .ok (s', calls)) :
    Proceeds s s' calls ∨ Ends s s' calls := by
  cases result with
  | none =>
    rw [onRead] at h
    split at h
    · cases h
      exact .inr ⟨rfl, rfl⟩
    · cases h
      exact .inl (Proceeds.refl s)
  | some chunk =>
    obtain ⟨frames, -, htells, -⟩ := onRead_effect h
    exact .inl htells.proceeds

theorem onWritten_cases {ok : Bool} (h : s.onWritten ok = .ok (s', calls)) :
    Proceeds s s' calls ∨ Ends s s' calls := by
  cases ok with
  | true =>
    obtain ⟨-, htells, -⟩ := onWritten_effect h
    exact .inl htells.proceeds
  | false =>
    rw [onWritten, if_neg (by decide)] at h
    split at h
    · cases h
      exact .inr ⟨rfl, rfl⟩
    · cases h
      exact .inl (Proceeds.refl s)

end IpaSession

/-! ## What the calls of a session do to the server -/

namespace IpaServer

/-- The server's part in a call of the session with this id. -/
def afterCall (id : ClientId) (server : IpaServer) : SessionCall → IpaServer
  | .onReady => server.onSessionReady id
  | .onDisconnect => server.onSessionDisconnect id
  | _ => server

theorem onSessionReady_idem (server : IpaServer) (id : ClientId) :
    (server.onSessionReady id).onSessionReady id = server.onSessionReady id := by
  cases hlookup : server.allSessions.lookup id with
  | none => simp [onSessionReady, hlookup]
  | some object =>
    simp only [onSessionReady, hlookup]
    rw [Finmap.insert_insert]

/-- However often a session calls `onReady`, once is enough. -/
theorem afterCalls_eq {id : ClientId} {calls : List SessionCall} (h : .onDisconnect ∉ calls) :
    ∀ server, calls.foldl (afterCall id) server =
      if .onReady ∈ calls then server.onSessionReady id else server := by
  induction calls with
  | nil => intro server; rfl
  | cons call calls ih =>
    intro server
    rw [List.mem_cons, not_or] at h
    rw [List.foldl_cons, ih h.2]
    cases call with
    | onReady =>
      simp only [afterCall, List.mem_cons, true_or, if_true]
      split
      · exact server.onSessionReady_idem id
      · rfl
    | onDisconnect => exact absurd rfl h.1
    | _ => simp [afterCall]

end IpaServer

namespace ServerLink

@[simp] theorem beginOnSocket_server (s : ServerLink) (object : Nat) (op : SgsnOp)
    (failed : SgsnHandler) : (s.beginOnSocket object op failed).server = s.server := by
  unfold beginOnSocket
  split <;> rfl

@[simp] theorem acceptNext_server (s : ServerLink) : s.acceptNext.server = s.server := by
  unfold acceptNext
  split <;> rfl

theorem performSession_server (object : Nat) (id : ClientId) (s : ServerLink)
    (call : SessionCall) :
    (s.performSession object id call).server = s.server.afterCall id call := by
  cases call with
  | asyncRead => exact beginOnSocket_server s object _ _
  | asyncWrite frame => exact beginOnSocket_server s object _ _
  | _ => rfl

theorem performSessions_server (object : Nat) (id : ClientId) (calls : List SessionCall) :
    ∀ s : ServerLink, (calls.foldl (performSession object id) s).server =
      calls.foldl (IpaServer.afterCall id) s.server := by
  induction calls with
  | nil => intro s; rfl
  | cons call calls ih =>
    intro s
    rw [List.foldl_cons, ih, performSession_server]
    rfl

/-- What a method of a session can do to the server: leave the tables alone, have the session
called ready, or have it taken out. -/
theorem runSession_cases {s s' : ServerLink} {object : Nat} {calls : List ServerCall}
    {method : IpaSession → Except Fault (IpaSession × List SessionCall)}
    (hmethod : ∀ t t' c, method t = .ok (t', c) → t.Proceeds t' c ∨ t.Ends t' c)
    (h : s.runSession object method = .ok (s', calls)) :
    ∃ t t', s.server.objects.lookup object = some t ∧ t'.clientId = t.clientId ∧
      (t'.state = t.state ∧ s'.server = s.server.update object t' ∨
        t'.state = .ready ∧
          s'.server = (s.server.update object t').onSessionReady t.clientId ∨
        t'.state = .stopped ∧
          s'.server = (s.server.update object t').onSessionDisconnect t.clientId) := by
  unfold runSession at h
  split at h
  · cases h
  · rename_i t hlookup
    obtain ⟨⟨t', c⟩, hm, h⟩ := except_bind_eq_ok.mp h
    cases h
    refine ⟨t, t', hlookup, ?_⟩
    rw [performSessions_server]
    dsimp only
    rcases hmethod t t' c hm with hproceeds | ⟨rfl, rfl⟩
    · refine ⟨hproceeds.clientId, ?_⟩
      rw [IpaServer.afterCalls_eq hproceeds.connected]
      have hstate := hproceeds.state
      split at hstate
      · rename_i hready
        rw [if_pos hready]
        exact .inr (.inl ⟨hstate, rfl⟩)
      · rename_i hready
        rw [if_neg hready]
        exact .inl ⟨hstate, rfl⟩
    · exact ⟨rfl, .inr (.inr ⟨rfl, rfl⟩)⟩

end ServerLink

end GsupMapProxy.Transport
