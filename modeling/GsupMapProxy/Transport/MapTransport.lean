import GsupMapProxy.Transport.M3uaCodec
import GsupMapProxy.Transport.ScccpCodec

/-!
# MapTransport (`src/transport/MapTransport.cpp`)

As with `IpaSession`, a method returns the transport with the calls it made, and the lambdas
given to Asio are methods of their own. Name resolution and opening a socket are up to the
system: `ConnectAttempt` is how far `connect` gets.
-/

namespace GsupMapProxy.Transport

open Misc M3ua Sccp

/-- `struct MapTransportConfig` (`MapTransport.hpp:21-42`), less the address of the peer and the
choice of TCP or SCTP. -/
structure MapTransportConfig where
  opc : UInt32 := 0
  dpc : UInt32 := 0
  routingContext : Option UInt32 := none
  hlrGt : Str := []
  hlrSsn : UInt8 := kSsnHlr
  localGt : Str := []
  localSsn : UInt8 := kSsnSgsn
  reconnectInterval : Int := 5
  beatInterval : Int := 30

/-- `enum class State` (`MapTransport.hpp:79`). -/
inductive MapState where
  | disconnected
  | connecting
  | aspUp
  | active
  | stopped
  deriving DecidableEq, Repr

/-- The size of `readBuf_` (`MapTransport.hpp:106`). -/
def kHlrReadBufSize : Nat := 4096

/-- `class MapTransport` (`MapTransport.hpp:64-113`). -/
structure MapTransport where
  cfg : MapTransportConfig
  state : MapState := .disconnected
  decoder : M3uaDecoder := []
  writeQueue : List Bytes := []
  writing : Bool := false

/-- What the transport does to the world. -/
inductive MapCall where
  | asyncConnect
  | asyncRead
  | asyncWrite (frame : Bytes)
  | openSocket
  | closeSocket
  | armReconnect (after : Int)
  | armBeat (after : Int)
  | cancelReconnect
  | cancelBeat
  /-- `asio::post(ioc_, [..]{ self->onConnect(ec); })` with an error. -/
  | postConnectFailed
  | messageCb (payload : Bytes)
  | disconnectCb
  deriving DecidableEq, Repr

/-- How far `connect` gets before it returns. -/
inductive ConnectAttempt where
  | unresolved
  | notOpened
  | started
  deriving DecidableEq, Repr

namespace MapTransport

/-! ## Sending -/

/-- `MapTransport::doWrite` (`MapTransport.cpp:244-265`). -/
def doWrite (t : MapTransport) : MapTransport × List MapCall :=
  match t.writeQueue with
  | [] => ({ t with writing := false }, [])
  | front :: _ => ({ t with writing := true }, [.asyncWrite front])

/-- `MapTransport::enqueue` (`MapTransport.cpp:239-242`). -/
def enqueue (t : MapTransport) (frame : Bytes) : MapTransport × List MapCall :=
  let t := { t with writeQueue := t.writeQueue ++ [frame] }
  if t.writing then (t, []) else t.doWrite

/-- `MapTransport::sendRaw` (`MapTransport.cpp:235-237`). -/
def sendRaw (t : MapTransport) (msg : M3uaMessage) : MapTransport × List MapCall :=
  t.enqueue (M3ua.encode msg)

/-- What `send` puts around a payload (`MapTransport.cpp:214-232`). -/
def wrap (cfg : MapTransportConfig) (payload : Bytes) : M3uaMessage :=
  let udt : SccpUdt :=
    { protocolClass := kProtoClass0
      calledParty := makeGtAddress cfg.hlrGt cfg.hlrSsn true
      callingParty := makeGtAddress cfg.localGt cfg.localSsn true
      data := payload }
  let pd : ProtocolData :=
    { opc := cfg.opc, dpc := cfg.dpc, si := kSiSccp, ni := kNiInternational, sls := 0
      userData := encodeUdt udt }
  makeData pd cfg.routingContext

/-- The lambda `MapTransport::send` posts (`MapTransport.cpp:208-233`). -/
def sendPosted (t : MapTransport) (payload : Bytes) : MapTransport × List MapCall :=
  if t.state ≠ .active then (t, []) else t.sendRaw (wrap t.cfg payload)

/-! ## Connection management -/

/-- `MapTransport::scheduleConnect` (`MapTransport.cpp:38-50`). -/
def scheduleConnect (t : MapTransport) : List MapCall :=
  if t.state = .stopped then []
  else [.armReconnect (if t.state = .disconnected then 0 else t.cfg.reconnectInterval)]

/-- `MapTransport::start` (`MapTransport.cpp:24-26`). -/
def start (t : MapTransport) : MapTransport × List MapCall := (t, t.scheduleConnect)

/-- `MapTransport::stop` (`MapTransport.cpp:28-34`). -/
def stop (t : MapTransport) : MapTransport × List MapCall :=
  ({ t with state := .stopped }, [.cancelReconnect, .cancelBeat, .closeSocket])

/-- `MapTransport::connect` (`MapTransport.cpp:52-107`). The old socket is closed once the name
has been resolved. -/
def connect (t : MapTransport) (attempt : ConnectAttempt) : MapTransport × List MapCall :=
  let t := { t with state := .connecting }
  match attempt with
  | .unresolved => (t, [.postConnectFailed])
  | .notOpened => (t, [.closeSocket, .postConnectFailed])
  | .started => (t, [.closeSocket, .openSocket, .asyncConnect])

/-- `MapTransport::resetConnection` (`MapTransport.cpp:109-114`). -/
def resetConnection (t : MapTransport) : MapTransport :=
  { t with writeQueue := [], writing := false, decoder := [] }

/-- `MapTransport::sendAspUp` (`MapTransport.cpp:131-135`). -/
def sendAspUp (t : MapTransport) : MapTransport × List MapCall :=
  { t with state := .aspUp }.sendRaw makeAspUp

/-- `MapTransport::sendAspAc` (`MapTransport.cpp:137-140`). -/
def sendAspAc (t : MapTransport) : MapTransport × List MapCall :=
  t.sendRaw (makeAspAc t.cfg.routingContext)

/-- `MapTransport::onConnect` (`MapTransport.cpp:116-127`). -/
def onConnect (t : MapTransport) (ok : Bool) : MapTransport × List MapCall :=
  if ok then
    let (t, calls) := t.sendAspUp
    (t, .asyncRead :: calls)
  else
    let t := { t.resetConnection with state := .disconnected }
    (t, t.scheduleConnect)

/-- The completion of the reconnect timer's wait (`MapTransport.cpp:46-49`). -/
def onReconnectTimer (t : MapTransport) (ok : Bool) (attempt : ConnectAttempt) :
    MapTransport × List MapCall :=
  if ok ∧ t.state ≠ .stopped then t.connect attempt else (t, [])

/-- `MapTransport::startBeat` (`MapTransport.cpp:142-147`). -/
def startBeat (t : MapTransport) : List MapCall := [.armBeat t.cfg.beatInterval]

/-- `MapTransport::onBeat` (`MapTransport.cpp:149-154`). -/
def onBeat (t : MapTransport) : MapTransport × List MapCall :=
  if t.state ≠ .active then (t, [])
  else
    let (t, calls) := t.sendRaw makeHeartbeat
    (t, calls ++ t.startBeat)

/-- The completion of the beat timer's wait (`MapTransport.cpp:144-146`). -/
def onBeatTimer (t : MapTransport) (ok : Bool) : MapTransport × List MapCall :=
  if ok ∧ t.state ≠ .stopped then t.onBeat else (t, [])

/-! ## Receiving -/

/-- `MapTransport::processMessage` (`MapTransport.cpp:156-202`). What `decodeUdt` throws is caught
here. -/
def processMessage (t : MapTransport) (msg : M3uaMessage) :
    Except Fault (MapTransport × List MapCall) :=
  if msg.msgClass = kClassAspsm ∧ msg.msgType = kTypeAspUpAck then .ok t.sendAspAc
  else if msg.msgClass = kClassAsptm ∧ msg.msgType = kTypeAspAcAck then
    let t := { t with state := .active }
    .ok (t, t.startBeat)
  else if msg.msgClass = kClassAspsm ∧ msg.msgType = kTypeHeartbeat then
    .ok (t.sendRaw (makeHeartbeatAck msg.heartbeatData))
  else if msg.msgClass = kClassAspsm ∧ msg.msgType = kTypeHeartbeatAck then .ok (t, [])
  else if msg.msgClass = kClassTransf ∧ msg.msgType = kTypeData then
    match msg.protocolData with
    | none => .ok (t, [])
    | some pd =>
        if pd.si ≠ kSiSccp then .ok (t, [])
        else
          match decodeUdt pd.userData with
          | .ok udt => .ok (t, [.messageCb udt.data])
          | .error (.thrown _) => .ok (t, [])
          | .error f => .error f
  else .ok (t, [])

/-- A turn of the read loop with its `try` block (`MapTransport.cpp:286-292`), with the calls made
so far. -/
def readTurn (acc : MapTransport × List MapCall) (msg : M3uaMessage) :
    Except Fault (MapTransport × List MapCall) :=
  match acc.1.processMessage msg with
  | .ok (t, calls) => .ok (t, acc.2 ++ calls)
  | .error (.thrown _) => .ok acc
  | .error f => .error f

/-- What a failed read or write does to a transport that is not stopped. -/
def connectionLost (t : MapTransport) : MapTransport × List MapCall :=
  let t := { t with state := .disconnected }.resetConnection
  (t, [.closeSocket, .disconnectCb] ++ t.scheduleConnect)

/-- The completion of a read (`MapTransport.cpp:271-295`). -/
def onRead (t : MapTransport) (result : Option Bytes) :
    Except Fault (MapTransport × List MapCall) :=
  match result with
  | none =>
      if t.state ≠ .stopped then
        let (t, calls) := t.connectionLost
        .ok (t, .cancelBeat :: calls)
      else .ok (t, [])
  | some chunk => do
      let buf := M3uaDecoder.feed t.decoder chunk
      let ((t, calls), rest) ← pump M3uaDecoder.next Fault.thrown readTurn (t, []) buf
      let t := { t with decoder := rest }
      return (t,
        if t.state ≠ .stopped ∧ t.state ≠ .disconnected then calls ++ [.asyncRead] else calls)

/-- The completion of a write (`MapTransport.cpp:251-264`). -/
def onWritten (t : MapTransport) (ok : Bool) : Except Fault (MapTransport × List MapCall) :=
  if ok then
    match t.writeQueue with
    | [] => .error (.undefined "pop_front of an empty deque")
    | _ :: queue => .ok ({ t with writeQueue := queue }.doWrite)
  else if t.state ≠ .stopped then .ok t.connectionLost
  else .ok (t, [])

end MapTransport

end GsupMapProxy.Transport
