import GsupMapProxy.Misc.Proactor
import GsupMapProxy.Misc.Run
import GsupMapProxy.Transport.MapTransport

/-!
# MapTransport and Asio

The handlers of `MapTransport` are left to an `io_context` on one thread. Every operation it is
given completes once, and its handler is queued then; handlers run one at a time, and those of
different operations in any order. Closing the socket makes the operations on it that have not
completed complete with an error, and cancelling a timer its wait; a handler that is queued
already runs with the result it has. An operation on a socket that is not open fails at once.

Nothing in the source tells one connection from another. The model counts them: a connection
begins with a call of `connect` and is over when `resetConnection` runs, and either makes a new
`epoch`. Operations on a socket and waits for the heartbeat are tagged with the epoch they were
started in; the tags have no influence on what happens.
-/

namespace GsupMapProxy.Transport

open Misc

/-- Operations given to Asio. -/
inductive HlrOp where
  | connect (epoch : Nat)
  | read (epoch : Nat)
  | write (epoch : Nat) (frame : Bytes)
  | reconnectWait
  | beatWait (epoch : Nat)
  deriving DecidableEq, Repr

/-- Handlers ready to run, with the result they are given. The last two are posted. -/
inductive HlrHandler where
  | connected (epoch : Nat) (ok : Bool)
  | read (epoch : Nat) (result : Option Bytes)
  | written (epoch : Nat) (frame : Bytes) (ok : Bool)
  | reconnectTimer (ok : Bool)
  | beatTimer (epoch : Nat) (ok : Bool)
  | connectFailed (epoch : Nat)
  | send (payload : Bytes)
  deriving DecidableEq, Repr

/-- The ways in which an operation can complete by itself. -/
def HlrOp.completesAs : HlrOp → HlrHandler → Bool
  | .connect epoch, .connected epoch' _ => epoch' = epoch
  | .read epoch, .read epoch' none => epoch' = epoch
  | .read epoch, .read epoch' (some chunk) =>
      epoch' = epoch ∧ chunk ≠ [] ∧ chunk.length ≤ kHlrReadBufSize
  | .write epoch frame, .written epoch' frame' _ => epoch' = epoch ∧ frame' = frame
  | .reconnectWait, .reconnectTimer ok => ok
  | .beatWait epoch, .beatTimer epoch' ok => epoch' = epoch ∧ ok
  | _, _ => false

/-- How the operations on a socket complete when it is closed. -/
def HlrOp.closed : HlrOp → Option HlrHandler
  | .connect epoch => some (.connected epoch false)
  | .read epoch => some (.read epoch none)
  | .write epoch frame => some (.written epoch frame false)
  | .reconnectWait => none
  | .beatWait _ => none

def HlrOp.reconnectCancelled : HlrOp → Option HlrHandler
  | .reconnectWait => some (.reconnectTimer false)
  | _ => none

def HlrOp.beatCancelled : HlrOp → Option HlrHandler
  | .beatWait epoch => some (.beatTimer epoch false)
  | _ => none

/-- A transport and its operations. -/
structure MapLink where
  transport : MapTransport
  epoch : Nat := 0
  isOpen : Bool := false
  io : Proactor HlrOp HlrHandler := []

/-- What can happen. `attempt` is how far `connect` gets, should the handler call it. -/
inductive LinkInput where
  | start
  | stop
  | send (payload : Bytes)
  | finish (op : HlrOp) (handler : HlrHandler)
  | run (handler : HlrHandler) (attempt : ConnectAttempt)
  deriving DecidableEq, Repr

namespace MapLink

/-- An operation on the socket. -/
def beginOnSocket (s : MapLink) (op : HlrOp) (failed : HlrHandler) : MapLink :=
  if s.isOpen then { s with io := s.io.begin op } else { s with io := s.io.post failed }

def perform (s : MapLink) : MapCall → MapLink
  | .asyncConnect => s.beginOnSocket (.connect s.epoch) (.connected s.epoch false)
  | .asyncRead => s.beginOnSocket (.read s.epoch) (.read s.epoch none)
  | .asyncWrite frame => s.beginOnSocket (.write s.epoch frame) (.written s.epoch frame false)
  | .openSocket => { s with isOpen := true }
  | .closeSocket => { s with isOpen := false, io := s.io.cancel HlrOp.closed }
  | .armReconnect _ =>
      { s with io := (s.io.cancel HlrOp.reconnectCancelled).begin .reconnectWait }
  | .armBeat _ => { s with io := (s.io.cancel HlrOp.beatCancelled).begin (.beatWait s.epoch) }
  | .cancelReconnect => { s with io := s.io.cancel HlrOp.reconnectCancelled }
  | .cancelBeat => { s with io := s.io.cancel HlrOp.beatCancelled }
  | .postConnectFailed => { s with io := s.io.post (.connectFailed s.epoch) }
  | .messageCb _ => s
  | .disconnectCb => s

/-- The link after a method of the transport, which returns the transport and its calls. -/
def after (s : MapLink) (result : MapTransport × List MapCall) : MapLink :=
  result.2.foldl perform { s with transport := result.1 }

/-- The handler calls `connect` or `resetConnection`. -/
def beginsEpoch (t : MapTransport) : HlrHandler → Bool
  | .connected _ ok => !ok
  | .connectFailed _ => true
  | .read _ none => t.state ≠ .stopped
  | .written _ _ false => t.state ≠ .stopped
  | .reconnectTimer ok => ok ∧ t.state ≠ .stopped
  | _ => false

/-- The method of the transport that a handler is. -/
def method (t : MapTransport) (attempt : ConnectAttempt) :
    HlrHandler → Except Fault (MapTransport × List MapCall)
  | .connected _ ok => .ok (t.onConnect ok)
  | .read _ result => t.onRead result
  | .written _ _ ok => t.onWritten ok
  | .reconnectTimer ok => .ok (t.onReconnectTimer ok attempt)
  | .beatTimer _ ok => .ok (t.onBeatTimer ok)
  | .connectFailed _ => .ok (t.onConnect false)
  | .send payload => .ok (t.sendPosted payload)

/-- The link a handler runs in: it is no longer queued. -/
def taking (s : MapLink) (handler : HlrHandler) : MapLink :=
  { s with
    io := s.io.take handler
    epoch := if beginsEpoch s.transport handler then s.epoch + 1 else s.epoch }

def step (s : MapLink) : LinkInput → Except Fault (MapLink × List MapCall)
  | .start => .ok (s.after s.transport.start, s.transport.start.2)
  | .stop => .ok (s.after s.transport.stop, s.transport.stop.2)
  | .send payload => .ok ({ s with io := s.io.post (.send payload) }, [])
  | .finish op handler => .ok ({ s with io := s.io.finish op handler }, [])
  | .run handler attempt => do
      let result ← method s.transport attempt handler
      return ((s.taking handler).after result, result.2)

/-- Only what runs completes, and only what is queued is run. -/
def Possible (s : MapLink) : LinkInput → Prop
  | .finish op handler => .running op ∈ s.io ∧ op.completesAs handler
  | .run handler _ => .ready handler ∈ s.io
  | _ => True

instance (s : MapLink) (input : LinkInput) : Decidable (s.Possible input) :=
  match input with
  | .start => .isTrue trivial
  | .stop => .isTrue trivial
  | .send _ => .isTrue trivial
  | .finish op handler => inferInstanceAs (Decidable (_ ∧ op.completesAs handler))
  | .run handler _ => inferInstanceAs (Decidable (.ready handler ∈ s.io))

end MapLink

/-- What happens to a transport from its construction on. -/
abbrev LinkRun (cfg : MapTransportConfig) :=
  Run MapLink.step MapLink.Possible { transport := { cfg := cfg } }

abbrev LinkEvent := Event MapLink LinkInput MapCall

end GsupMapProxy.Transport
