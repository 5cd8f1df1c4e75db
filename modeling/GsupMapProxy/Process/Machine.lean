import GsupMapProxy.Proxy.Proxy
import GsupMapProxy.Transport.IpaSession
import GsupMapProxy.Transport.MapTransport

/-!
# The process (`src/main.cpp`)

`main` connects a `Proxy` with an `IpaServer` and a `MapTransport` and leaves the rest to
`io_context::run` on one thread. What happens next is up to Asio: an outstanding operation
completes, with success or an error, or the task posted first is run. Each such handler runs
to its end, calls into the proxy included, and whatever leaves it leaves `run` and `main`.

Closing a socket or cancelling a timer makes the operations on it complete with an error unless
they have completed already; here an outstanding operation may always complete either way, and an
accept at any time.
-/

namespace GsupMapProxy

open Misc Transport

/-- Operations Asio has been given and has not completed yet. Those of the HLR connection are
tagged with the number of the socket they were started on. -/
inductive AsyncOp where
  | read (object : Nat)
  | write (object : Nat) (frame : Bytes)
  | hlrConnect (socket : Nat)
  | hlrRead (socket : Nat)
  | hlrWrite (socket : Nat) (frame : Bytes)
  | reconnectWait
  | beatWait
  deriving DecidableEq, Repr

/-- What `asio::post` has been given. -/
inductive Task where
  | serverSend (payload : Bytes) (client : ClientId)
  | sessionEnqueue (object : Nat) (frame : Bytes)
  | hlrSend (payload : Bytes)
  | hlrConnectFailed
  deriving DecidableEq, Repr

/-- `ITransport::send` posts. -/
def Task.ofSend : Send → Task
  | .sgsn data client => .serverSend data client
  | .hlr data => .hlrSend data

structure Process where
  proxy : Proxy
  server : IpaServer := {}
  hlr : MapTransport
  socket : Nat := 0
  pending : List AsyncOp := []
  tasks : List Task := []

/-- A call a handler made. -/
inductive Call where
  | session (object : Nat) (call : SessionCall)
  | hlr (call : MapCall)
  deriving DecidableEq, Repr

/-- What Asio runs next, with the result it hands to the handler. `order` is the order in which
the handler visits a table, should it do so. -/
inductive Happening where
  | accepted (result : Accepted)
  | sessionRead (object : Nat) (result : Option Bytes) (now : TimePoint)
  | sessionWritten (object : Nat) (frame : Bytes) (ok : Bool)
  | hlrConnected (socket : Nat) (ok : Bool)
  | hlrRead (socket : Nat) (result : Option Bytes) (order : List UInt32) (now : TimePoint)
  | hlrWritten (socket : Nat) (frame : Bytes) (ok : Bool) (order : List UInt32)
  | reconnectTimer (ok : Bool) (attempt : ConnectAttempt)
  | beatTimer (ok : Bool)
  | task (order : List ClientId)
  | tick (sgsnOrder : List UInt32) (hlrOrder : List Str) (now : TimePoint)
  | stopServer (order : List ClientId)
  | stopHlr

/-- The operation a handler is the completion of. -/
def Happening.completes : Happening → Option AsyncOp
  | .sessionRead object _ _ => some (.read object)
  | .sessionWritten object frame _ => some (.write object frame)
  | .hlrConnected socket _ => some (.hlrConnect socket)
  | .hlrRead socket _ _ _ => some (.hlrRead socket)
  | .hlrWritten socket frame _ _ => some (.hlrWrite socket frame)
  | .reconnectTimer _ _ => some .reconnectWait
  | .beatTimer _ => some .beatWait
  | _ => none

namespace Process

/-- `main` up to `ioc.run()` (`main.cpp:52-72`). -/
def start (txTimeout : Int) (cfg : MapTransportConfig) : Process :=
  { proxy := Proxy.start txTimeout, hlr := { cfg := cfg }, pending := [.reconnectWait] }

/-- What can happen: operations complete once they have been started, a read delivers at most
what fits its buffer, and a loop over a table visits that table. -/
def Possible (p : Process) (h : Happening) : Prop :=
  (∀ op, h.completes = some op → op ∈ p.pending) ∧
    match h with
    | .sessionRead _ (some chunk) _ => chunk.length ≤ kSgsnReadBufSize
    | .hlrRead _ (some chunk) _ _ => chunk.length ≤ kHlrReadBufSize
    | .hlrRead _ none order _ => Enumerates order p.proxy.pendingOps
    | .hlrWritten _ _ _ order => Enumerates order p.proxy.pendingOps
    | .task order => Enumerates order p.server.sessions
    | .tick sgsnOrder hlrOrder _ =>
        Enumerates sgsnOrder p.proxy.txMgr.transactions ∧ Enumerates hlrOrder p.proxy.hlrTx
    | .stopServer order => Enumerates order p.server.allSessions
    | _ => True

/-- A callback into the proxy. -/
def callProxy (p : Process) (op : Op) : Except Fault Process := do
  let (proxy, sends) ← p.proxy.step op
  return { p with proxy := proxy, tasks := p.tasks ++ sends.map Task.ofSend }

/-- A call of a session (`IpaServer.cpp:65-68` for the callbacks). -/
def performSession (object : Nat) (client : ClientId) (now : TimePoint) (p : Process) :
    SessionCall → Except Fault Process
  | .asyncRead => .ok { p with pending := p.pending ++ [.read object] }
  | .asyncWrite frame => .ok { p with pending := p.pending ++ [.write object frame] }
  | .closeSocket => .ok p
  | .onReady => .ok { p with server := p.server.onSessionReady client }
  | .onGsup payload => p.callProxy (.gsup payload client now)
  | .onDisconnect => .ok { p with server := p.server.onSessionDisconnect client }

/-- A call of the HLR transport (`Proxy.cpp:53-64` for the callbacks). -/
def performHlr (order : List UInt32) (now : TimePoint) (p : Process) :
    MapCall → Except Fault Process
  | .asyncConnect => .ok { p with pending := p.pending ++ [.hlrConnect p.socket] }
  | .asyncRead => .ok { p with pending := p.pending ++ [.hlrRead p.socket] }
  | .asyncWrite frame => .ok { p with pending := p.pending ++ [.hlrWrite p.socket frame] }
  | .openSocket => .ok { p with socket := p.socket + 1 }
  | .closeSocket => .ok p
  | .armReconnect _ => .ok { p with pending := p.pending ++ [.reconnectWait] }
  | .armBeat _ => .ok { p with pending := p.pending ++ [.beatWait] }
  | .cancelReconnect => .ok p
  | .cancelBeat => .ok p
  | .postConnectFailed => .ok { p with tasks := p.tasks ++ [.hlrConnectFailed] }
  | .messageCb payload => p.callProxy (.map payload now)
  | .disconnectCb => p.callProxy (.nack order)

/-- A method of a session, and the calls it makes. A session with an outstanding operation is
kept alive by it, so there always is one. -/
def runSession (p : Process) (object : Nat) (now : TimePoint)
    (method : IpaSession → Except Fault (IpaSession × List SessionCall)) :
    Except Fault (Process × List Call) :=
  match p.server.objects.lookup object with
  | none => .error (.undefined "the session is gone")
  | some session => do
      let (session', calls) ← method session
      let p := { p with server := p.server.update object session' }
      let p ← calls.foldlM (performSession object session.clientId now) p
      return (p, calls.map (.session object))

/-- A method of the HLR transport, and the calls it makes. -/
def runHlr (p : Process) (order : List UInt32) (now : TimePoint)
    (method : MapTransport → Except Fault (MapTransport × List MapCall)) :
    Except Fault (Process × List Call) := do
  let (hlr, calls) ← method p.hlr
  let p ← calls.foldlM (performHlr order now) { p with hlr := hlr }
  return (p, calls.map .hlr)

/-- A posted lambda. `sendGsup` encodes the frame before it posts in turn
(`IpaSession.cpp:36-42`). -/
def runTask (p : Process) (order : List ClientId) : Task → Except Fault (Process × List Call)
  | .serverSend payload client => do
      let tasks ← (p.server.recipients order client).mapM fun object => do
        let frame ← (Ipa.encode Ipa.kStreamGsup payload).mapError Fault.thrown
        return Task.sessionEnqueue object frame
      return ({ p with tasks := p.tasks ++ tasks }, [])
  | .sessionEnqueue object frame => p.runSession object 0 fun s => .ok (s.enqueue frame)
  | .hlrSend payload => p.runHlr [] 0 fun t => .ok (t.sendPosted payload)
  | .hlrConnectFailed => p.runHlr [] 0 fun t => .ok (t.onConnect false)

/-- The handler, once its operation is out of the way. Only a read can lead to a message for
the proxy, and only a lost HLR connection to a NAK, so the other handlers have no use for a
clock or an order. -/
def handle (p : Process) : Happening → Except Fault (Process × List Call)
  | .accepted .failed => .ok (p, [])
  | .accepted .reset => .error (.thrown notConnected)
  | .accepted .connected =>
      { p with server := p.server.addSession }.runSession p.server.accepted 0
        fun s => s.start.mapError Fault.thrown
  | .sessionRead object result now => p.runSession object now fun s => s.onRead result
  | .sessionWritten object _ ok => p.runSession object 0 fun s => s.onWritten ok
  | .hlrConnected _ ok => p.runHlr [] 0 fun t => .ok (t.onConnect ok)
  | .hlrRead _ result order now => p.runHlr order now fun t => t.onRead result
  | .hlrWritten _ _ ok order => p.runHlr order 0 fun t => t.onWritten ok
  | .reconnectTimer ok attempt => p.runHlr [] 0 fun t => .ok (t.onReconnectTimer ok attempt)
  | .beatTimer ok => p.runHlr [] 0 fun t => .ok (t.onBeatTimer ok)
  | .task order =>
      match p.tasks with
      | [] => .ok (p, [])
      | task :: tasks => { p with tasks := tasks }.runTask order task
  | .tick sgsnOrder hlrOrder now => do
      let p ← p.callProxy (.expireSgsn sgsnOrder now)
      let p ← p.callProxy (.expireHlr hlrOrder 30 now)
      return (p, [])
  | .stopServer order => .ok ({ p with server := p.server.stop order }, [])
  | .stopHlr => p.runHlr [] 0 fun t => .ok t.stop

/-- One step of `io_context::run`. -/
def step (p : Process) (h : Happening) : Except Fault (Process × List Call) :=
  match h.completes with
  | none => p.handle h
  | some op => { p with pending := p.pending.erase op }.handle h

end Process

end GsupMapProxy
