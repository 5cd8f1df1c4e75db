import GsupMapProxy.Misc.Proactor
import GsupMapProxy.Misc.Run
import GsupMapProxy.Proxy.Proxy
import GsupMapProxy.Transport.IpaSession

/-!
# IpaServer and Asio

The handlers of `IpaServer` and of its sessions are left to an `io_context` on one thread, as
those of `MapTransport` are. `IpaServer::stop` closes the acceptor and the sockets of the
sessions it stops, which makes the operations on them complete with an error; an operation on one
that is closed fails at once. A handler that throws ends the run.

Message callbacks are not part of the server. All they can do to it is to call `send`, which may
happen at any time.
-/

namespace GsupMapProxy.Transport

open Misc Ipa

/-- Operations given to Asio. Those of a session are tagged with its object. -/
inductive SgsnOp where
  | accept
  | read (object : Nat)
  | write (object : Nat) (frame : Bytes)
  deriving DecidableEq, Repr

/-- Handlers ready to run, with the result they are given. The last two are posted. -/
inductive SgsnHandler where
  | accepted (result : Accepted)
  | read (object : Nat) (result : Option Bytes)
  | written (object : Nat) (frame : Bytes) (ok : Bool)
  | send (payload : Bytes) (clientId : ClientId)
  | enqueue (object : Nat) (frame : Bytes)
  deriving DecidableEq, Repr

/-- The ways in which an operation can complete by itself. -/
def SgsnOp.completesAs : SgsnOp → SgsnHandler → Bool
  | .accept, .accepted _ => true
  | .read object, .read object' none => object' = object
  | .read object, .read object' (some chunk) =>
      object' = object ∧ chunk ≠ [] ∧ chunk.length ≤ kSgsnReadBufSize
  | .write object frame, .written object' frame' _ => object' = object ∧ frame' = frame
  | _, _ => false

/-- How the operations on a session's socket complete when it is closed. -/
def SgsnOp.closed (object : Nat) : SgsnOp → Option SgsnHandler
  | .accept => none
  | .read object' => if object' = object then some (.read object' none) else none
  | .write object' frame => if object' = object then some (.written object' frame false) else none

def SgsnOp.acceptorClosed : SgsnOp → Option SgsnHandler
  | .accept => some (.accepted .failed)
  | _ => none

/-- `IpaSession::sendGsup` (`IpaSession.cpp:36-42`): the frame it posts for `enqueue`. -/
def IpaSession.sendGsup (gsupPayload : Bytes) : Except Exn Bytes :=
  Ipa.encode kStreamGsup gsupPayload

namespace IpaServer

/-- Calls of `sendGsup` on these sessions, one after the other: the sessions it was called on, and
what they posted. An exception that leaves a call is the end of it. -/
def sendEach (payload : Bytes) : List Nat → List Nat × Except Exn (List SgsnHandler)
  | [] => ([], .ok [])
  | object :: objects =>
      match IpaSession.sendGsup payload with
      | .error e => ([object], .error e)
      | .ok frame =>
          let (called, posted) := sendEach payload objects
          (object :: called, posted.map (.enqueue object frame :: ·))

/-- The lambda `IpaServer::send` posts (`IpaServer.cpp:30-45`). No call of `sendGsup` changes which
sessions are ready. -/
def sendPosted (server : IpaServer) (order : List ClientId) (payload : Bytes)
    (clientId : ClientId) : List Nat × Except Exn (List SgsnHandler) :=
  sendEach payload (server.recipients order clientId)

/-- The session objects whose sockets `stop` closes. -/
def stopCloses (server : IpaServer) (order : List ClientId) : List Nat :=
  order.filterMap fun id => do
    let object ← server.allSessions.lookup id
    let session ← server.objects.lookup object
    if .closeSocket ∈ session.stop.2 then some object else none

end IpaServer

/-- A server and its operations. -/
structure ServerLink where
  server : IpaServer := {}
  listening : Bool := true
  closed : List Nat := []
  io : Proactor SgsnOp SgsnHandler := []

/-- What can happen. `order` is the order in which a table is visited, should that be done. -/
inductive ServerInput where
  | start
  | stop (order : List ClientId)
  | send (payload : Bytes) (clientId : ClientId)
  | finish (op : SgsnOp) (handler : SgsnHandler)
  | run (handler : SgsnHandler) (order : List ClientId)
  deriving DecidableEq, Repr

/-- A call a handler made. -/
inductive ServerCall where
  | session (object : Nat) (call : SessionCall)
  | sendGsup (object : Nat) (payload : Bytes)
  deriving DecidableEq, Repr

namespace ServerLink

/-- An operation on the socket of a session. -/
def beginOnSocket (s : ServerLink) (object : Nat) (op : SgsnOp) (failed : SgsnHandler) :
    ServerLink :=
  if object ∈ s.closed then { s with io := s.io.post failed } else { s with io := s.io.begin op }

def closeSocket (s : ServerLink) (object : Nat) : ServerLink :=
  { s with closed := object :: s.closed, io := s.io.cancel (SgsnOp.closed object) }

/-- `IpaServer::acceptNext` (`IpaServer.cpp:48-72`) up to the handler. -/
def acceptNext (s : ServerLink) : ServerLink :=
  if s.listening then { s with io := s.io.begin .accept }
  else { s with io := s.io.post (.accepted .failed) }

/-- A call of a session (`IpaServer.cpp:65-68` for the callbacks). -/
def performSession (object : Nat) (id : ClientId) (s : ServerLink) : SessionCall → ServerLink
  | .asyncRead => s.beginOnSocket object (.read object) (.read object none)
  | .asyncWrite frame =>
      s.beginOnSocket object (.write object frame) (.written object frame false)
  | .closeSocket => s.closeSocket object
  | .onReady => { s with server := s.server.onSessionReady id }
  | .onGsup _ => s
  | .onDisconnect => { s with server := s.server.onSessionDisconnect id }

/-- A method of a session, and the calls it makes. A session with an outstanding operation is
kept alive by it, so there always is one. -/
def runSession (s : ServerLink) (object : Nat)
    (method : IpaSession → Except Fault (IpaSession × List SessionCall)) :
    Except Fault (ServerLink × List ServerCall) :=
  match s.server.objects.lookup object with
  | none => .error (.undefined "the session is gone")
  | some session => do
      let (session', calls) ← method session
      let s := { s with server := s.server.update object session' }
      return (calls.foldl (performSession object session.clientId) s, calls.map (.session object))

/-- `IpaServer::start` and `IpaServer::stop` (`IpaServer.cpp:15-26`). -/
def start (s : ServerLink) : ServerLink := s.acceptNext

def stop (s : ServerLink) (order : List ClientId) : ServerLink :=
  let s' := { s with
    server := s.server.stop order
    listening := false
    io := s.io.cancel SgsnOp.acceptorClosed }
  (s.server.stopCloses order).foldl closeSocket s'

/-- A handler, once it is no longer queued. -/
def handle (s : ServerLink) (order : List ClientId) :
    SgsnHandler → Except Fault (ServerLink × List ServerCall)
  | .accepted .failed => .ok (s, [])
  | .accepted .reset => .error (.thrown notConnected)
  | .accepted .connected => do
      let (s, calls) ← { s with server := s.server.addSession }.runSession s.server.accepted
        fun session => session.start.mapError Fault.thrown
      return (s.acceptNext, calls)
  | .read object result => s.runSession object fun session => session.onRead result
  | .written object _ ok => s.runSession object fun session => session.onWritten ok
  | .send payload clientId => do
      let (called, posted) := s.server.sendPosted order payload clientId
      let handlers ← posted.mapError Fault.thrown
      return ({ s with io := handlers.foldl Proactor.post s.io },
        called.map fun object => .sendGsup object payload)
  | .enqueue object frame => s.runSession object fun session => .ok (session.enqueue frame)

def step (s : ServerLink) : ServerInput → Except Fault (ServerLink × List ServerCall)
  | .start => .ok (s.start, [])
  | .stop order => .ok (s.stop order, [])
  | .send payload clientId => .ok ({ s with io := s.io.post (.send payload clientId) }, [])
  | .finish op handler => .ok ({ s with io := s.io.finish op handler }, [])
  | .run handler order => { s with io := s.io.take handler }.handle order handler

/-- Only what runs completes, only what is queued is run, and a loop over a table visits that
table. -/
def Possible (s : ServerLink) : ServerInput → Prop
  | .stop order => Enumerates order s.server.allSessions
  | .finish op handler => .running op ∈ s.io ∧ op.completesAs handler
  | .run handler order => .ready handler ∈ s.io ∧ Enumerates order s.server.sessions
  | _ => True

instance {K V : Type} [DecidableEq K] (order : List K) (table : Finmap fun _ : K => V) :
    Decidable (Enumerates order table) :=
  decidable_of_iff (order.Nodup ∧ order.toFinset = table.keys) <|
    and_congr_right fun _ => by simp [Finset.ext_iff, Finmap.mem_keys]

instance (s : ServerLink) (input : ServerInput) : Decidable (s.Possible input) :=
  match input with
  | .start => .isTrue trivial
  | .stop order => inferInstanceAs (Decidable (Enumerates order s.server.allSessions))
  | .send _ _ => .isTrue trivial
  | .finish op handler => inferInstanceAs (Decidable (_ ∧ op.completesAs handler))
  | .run handler order =>
      inferInstanceAs (Decidable (.ready handler ∈ s.io ∧ Enumerates order s.server.sessions))

end ServerLink

/-- What happens to a server from its construction on. -/
abbrev ServerRun := Run ServerLink.step ServerLink.Possible {}

end GsupMapProxy.Transport
