import GsupMapProxy.Ipa.Codec
import GsupMapProxy.Proxy.TransactionManager

/-!
# IpaSession and IpaServer (`src/transport/IpaSession.cpp`, `src/transport/IpaServer.cpp`)

A method takes the session and returns the new one with the calls it made, in order: operations
handed to the socket, and callbacks of the server. No callback comes back into the session it
was made from, so running them when the method is done changes nothing. The lambdas given to
`async_read_some` and `async_write` are methods of their own, `onRead` and `onWritten`.
-/

namespace GsupMapProxy.Transport

open Misc Ipa

/-- `enum class State` (`IpaSession.hpp:53`). -/
inductive SessionState where
  | handshaking
  | ready
  | stopped
  deriving DecidableEq, Repr

/-- The size of `readBuf_` (`IpaSession.hpp:70`). -/
def kSgsnReadBufSize : Nat := 4096

/-- `class IpaSession` (`IpaSession.hpp:29-81`), with the id its server's callbacks capture. -/
structure IpaSession where
  clientId : ClientId
  decoder : IpaDecoder := []
  state : SessionState := .handshaking
  writeQueue : List Bytes := []
  writing : Bool := false
  deriving DecidableEq, Repr

/-- What a session does to the world. -/
inductive SessionCall where
  | asyncRead
  | asyncWrite (frame : Bytes)
  | closeSocket
  | onReady
  | onGsup (payload : Bytes)
  | onDisconnect
  deriving DecidableEq, Repr

namespace IpaSession

/-- `IpaSession::doWrite` (`IpaSession.cpp:49-66`). -/
def doWrite (s : IpaSession) : IpaSession × List SessionCall :=
  match s.writeQueue with
  | [] => ({ s with writing := false }, [])
  | front :: _ => ({ s with writing := true }, [.asyncWrite front])

/-- `IpaSession::enqueue` (`IpaSession.cpp:44-47`). -/
def enqueue (s : IpaSession) (ipaFrame : Bytes) : IpaSession × List SessionCall :=
  let s := { s with writeQueue := s.writeQueue ++ [ipaFrame] }
  if s.writing then (s, []) else s.doWrite

/-- The three senders of CCM messages (`IpaSession.cpp:119-130`). -/
def sendCcm (s : IpaSession) (payload : Bytes) : Except Exn (IpaSession × List SessionCall) := do
  let frame ← Ipa.encode kStreamCcm payload
  return s.enqueue frame

def sendCcmIdGet (s : IpaSession) : Except Exn (IpaSession × List SessionCall) :=
  s.sendCcm [kCcmIdReq, 0x01, 0x07]

def sendCcmIdAck (s : IpaSession) : Except Exn (IpaSession × List SessionCall) :=
  s.sendCcm [kCcmIdAck]

def sendCcmPong (s : IpaSession) : Except Exn (IpaSession × List SessionCall) :=
  s.sendCcm [kCcmPong]

/-- `IpaSession::start` (`IpaSession.cpp:17-24`). -/
def start (s : IpaSession) : Except Exn (IpaSession × List SessionCall) := do
  let (s, calls) ← s.sendCcmIdGet
  return (s, calls ++ [.asyncRead])

/-- `IpaSession::stop` (`IpaSession.cpp:26-32`). -/
def stop (s : IpaSession) : IpaSession × List SessionCall :=
  if s.state = .stopped then (s, []) else ({ s with state := .stopped }, [.closeSocket])

/-- `IpaSession::handleCcm` (`IpaSession.cpp:97-115`). -/
def handleCcm (s : IpaSession) (payload : Bytes) : Except Exn (IpaSession × List SessionCall) :=
  match payload with
  | [] => .ok (s, [])
  | type :: _ =>
      if type = kCcmIdResp then do
        let (s, calls) ← s.sendCcmIdAck
        return ({ s with state := .ready }, calls ++ [.onReady])
      else if type = kCcmPing then s.sendCcmPong
      else .ok (s, [])

/-- `IpaSession::processFrame` (`IpaSession.cpp:88-95`). -/
def processFrame (s : IpaSession) (frame : IpaFrame) : Except Exn (IpaSession × List SessionCall) :=
  if frame.streamId = kStreamCcm then s.handleCcm frame.payload
  else if frame.streamId = kStreamGsup ∧ s.state = .ready then .ok (s, [.onGsup frame.payload])
  else .ok (s, [])

/-- A turn of the read loop, with the calls made so far. -/
def readTurn (acc : IpaSession × List SessionCall) (frame : IpaFrame) :
    Except Fault (IpaSession × List SessionCall) :=
  match acc.1.processFrame frame with
  | .ok (s, calls) => .ok (s, acc.2 ++ calls)
  | .error e => .error (.thrown e)

/-- The completion of a read (`IpaSession.cpp:72-85`), with the bytes read or without any on an
error. The buffer is out of the session while the loop runs: `processFrame` does not touch it. -/
def onRead (s : IpaSession) (result : Option Bytes) :
    Except Fault (IpaSession × List SessionCall) :=
  match result with
  | none =>
      if s.state ≠ .stopped then .ok ({ s with state := .stopped }, [.onDisconnect])
      else .ok (s, [])
  | some chunk => do
      let buf := IpaDecoder.feed s.decoder chunk
      let ((s, calls), rest) ← pump IpaDecoder.next Fault.thrown readTurn (s, []) buf
      let s := { s with decoder := rest }
      return (s, if s.state ≠ .stopped then calls ++ [.asyncRead] else calls)

/-- The completion of a write (`IpaSession.cpp:56-65`). -/
def onWritten (s : IpaSession) (ok : Bool) : Except Fault (IpaSession × List SessionCall) :=
  if ok then
    match s.writeQueue with
    | [] => .error (.undefined "pop_front of an empty deque")
    | _ :: queue => .ok ({ s with writeQueue := queue }.doWrite)
  else if s.state ≠ .stopped then .ok ({ s with state := .stopped }, [.onDisconnect])
  else .ok (s, [])

end IpaSession

/-! ## IpaServer -/

/-- What `async_accept` gives its handler: an error, or a socket. The client may have reset the
connection by the time the handler runs, and `remote_endpoint()` then finds no peer. -/
inductive Accepted where
  | failed
  | connected
  | reset
  deriving DecidableEq, Repr

/-- The `system_error` of `remote_endpoint()` in the line that logs an accept
(`IpaServer.cpp:57-59`). -/
def notConnected : Exn := .runtimeError "remote_endpoint"

/-- `class IpaServer` (`IpaServer.hpp:29-64`). Its two tables hold pointers to session objects,
which outlive their entries as long as an operation is outstanding; objects are named by the
number of the accept that made them. -/
structure IpaServer where
  objects : Finmap (fun _ : Nat => IpaSession) := ∅
  accepted : Nat := 0
  sessions : Finmap (fun _ : ClientId => Nat) := ∅
  allSessions : Finmap (fun _ : ClientId => Nat) := ∅
  nextClientId : ClientId := 1

namespace IpaServer

/-- `IpaServer::onSessionReady` (`IpaServer.cpp:74-79`). -/
def onSessionReady (server : IpaServer) (id : ClientId) : IpaServer :=
  match server.allSessions.lookup id with
  | none => server
  | some object => { server with sessions := server.sessions.insert id object }

/-- `IpaServer::onSessionDisconnect` (`IpaServer.cpp:81-85`). -/
def onSessionDisconnect (server : IpaServer) (id : ClientId) : IpaServer :=
  { server with sessions := server.sessions.erase id, allSessions := server.allSessions.erase id }

/-- What a method leaves in a session object. -/
def update (server : IpaServer) (object : Nat) (session : IpaSession) : IpaServer :=
  { server with objects := server.objects.insert object session }

/-- The tables after an accept (`IpaServer.cpp:61-63`); the session is `start`ed next. -/
def addSession (server : IpaServer) : IpaServer :=
  let id := server.nextClientId
  { server with
    objects := server.objects.insert server.accepted { clientId := id }
    accepted := server.accepted + 1
    allSessions := server.allSessions.insert id server.accepted
    nextClientId := id + 1 }

/-- The sessions the lambda of `IpaServer::send` passes the payload to, in the order in which a
broadcast visits the table (`IpaServer.cpp:31-44`). -/
def recipients (server : IpaServer) (order : List ClientId) (clientId : ClientId) : List Nat :=
  let ready (id : ClientId) : Option Nat := do
    let object ← server.sessions.lookup id
    let session ← server.objects.lookup object
    if session.state = .ready then some object else none
  if clientId = 0 then order.filterMap ready else (ready clientId).toList

/-- `IpaServer::stop` (`IpaServer.cpp:19-26`), with the sessions it stops in the order it visits
them. -/
def stop (server : IpaServer) (order : List ClientId) : IpaServer :=
  let stopSession (server : IpaServer) (id : ClientId) : IpaServer :=
    match server.allSessions.lookup id with
    | none => server
    | some object =>
        match server.objects.lookup object with
        | none => server
        | some session => server.update object session.stop.1
  { order.foldl stopSession server with sessions := ∅, allSessions := ∅ }

end IpaServer

end GsupMapProxy.Transport
