import GsupMapProxy.Transport.ServerLink

/-!
# One IpaSession and Asio

A session by itself, with the operations it has given to Asio. It is started in the lambda that
makes it (`IpaServer.cpp:61-68`), so nobody can call it before; from then on `stop` and `sendGsup`
may be called at any time. Only `stop` closes the socket: the handler of a write that failed does
not, and a read that is outstanding then goes on.
-/

namespace GsupMapProxy.Transport

open Misc Ipa

/-- Operations given to Asio. -/
inductive SessionOp where
  | read
  | write (frame : Bytes)
  deriving DecidableEq, Repr

/-- Handlers ready to run, with the result they are given. The last one is posted. -/
inductive SessionHandler where
  | read (result : Option Bytes)
  | written (frame : Bytes) (ok : Bool)
  | enqueue (frame : Bytes)
  deriving DecidableEq, Repr

/-- The ways in which an operation can complete by itself. -/
def SessionOp.completesAs : SessionOp → SessionHandler → Bool
  | .read, .read none => true
  | .read, .read (some chunk) => chunk ≠ [] ∧ chunk.length ≤ kSgsnReadBufSize
  | .write frame, .written frame' _ => frame' = frame
  | _, _ => false

/-- How an operation completes when the socket is closed. -/
def SessionOp.closed : SessionOp → SessionHandler
  | .read => .read none
  | .write frame => .written frame false

/-- A session and its operations. -/
structure SessionLink where
  session : IpaSession
  started : Bool := false
  isOpen : Bool := true
  io : Proactor SessionOp SessionHandler := []

/-- What can happen. -/
inductive SessionInput where
  | start
  | stop
  | sendGsup (payload : Bytes)
  | finish (op : SessionOp) (handler : SessionHandler)
  | run (handler : SessionHandler)
  deriving DecidableEq, Repr

namespace SessionLink

def beginOnSocket (s : SessionLink) (op : SessionOp) : SessionLink :=
  if s.isOpen then { s with io := s.io.begin op } else { s with io := s.io.post op.closed }

def perform (s : SessionLink) : SessionCall → SessionLink
  | .asyncRead => s.beginOnSocket .read
  | .asyncWrite frame => s.beginOnSocket (.write frame)
  | .closeSocket => { s with isOpen := false, io := s.io.cancel fun op => some op.closed }
  | .onReady => s
  | .onGsup _ => s
  | .onDisconnect => s

/-- The link after a method of the session, which returns the session and its calls. -/
def after (s : SessionLink) (result : IpaSession × List SessionCall) : SessionLink :=
  result.2.foldl perform { s with session := result.1 }

/-- The method of the session that a handler is. -/
def method (t : IpaSession) : SessionHandler → Except Fault (IpaSession × List SessionCall)
  | .read result => t.onRead result
  | .written _ ok => t.onWritten ok
  | .enqueue frame => .ok (t.enqueue frame)

/-- The link a handler runs in: it is no longer queued. -/
def taking (s : SessionLink) (handler : SessionHandler) : SessionLink :=
  { s with io := s.io.take handler }

/-- An exception of `sendGsup` goes to its caller; the session knows nothing of it. -/
def step (s : SessionLink) : SessionInput → Except Fault (SessionLink × List SessionCall)
  | .start => do
      let result ← s.session.start.mapError Fault.thrown
      return ({ s with started := true }.after result, result.2)
  | .stop => .ok (s.after s.session.stop, s.session.stop.2)
  | .sendGsup payload =>
      match IpaSession.sendGsup payload with
      | .ok frame => .ok ({ s with io := s.io.post (.enqueue frame) }, [])
      | .error _ => .ok (s, [])
  | .finish op handler => .ok ({ s with io := s.io.finish op handler }, [])
  | .run handler => do
      let result ← method s.session handler
      return ((s.taking handler).after result, result.2)

/-- A session is started once, and used after that. Only what runs completes, and only what is
queued is run. -/
def Possible (s : SessionLink) : SessionInput → Prop
  | .start => s.started = false
  | .stop => s.started = true
  | .sendGsup _ => s.started = true
  | .finish op handler => .running op ∈ s.io ∧ op.completesAs handler
  | .run handler => .ready handler ∈ s.io

instance (s : SessionLink) (input : SessionInput) : Decidable (s.Possible input) :=
  match input with
  | .start => inferInstanceAs (Decidable (s.started = false))
  | .stop => inferInstanceAs (Decidable (s.started = true))
  | .sendGsup _ => inferInstanceAs (Decidable (s.started = true))
  | .finish op handler => inferInstanceAs (Decidable (_ ∧ op.completesAs handler))
  | .run handler => inferInstanceAs (Decidable (.ready handler ∈ s.io))

end SessionLink

/-- What happens to a session from its construction on. -/
abbrev SessionRun (clientId : ClientId) :=
  Run SessionLink.step SessionLink.Possible { session := { clientId := clientId } }

abbrev SessionEvent := Event SessionLink SessionInput SessionCall

end GsupMapProxy.Transport
