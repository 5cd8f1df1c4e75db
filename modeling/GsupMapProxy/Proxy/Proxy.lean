import GsupMapProxy.Gsup.Codec
import GsupMapProxy.Map.Codec
import GsupMapProxy.Proxy.Converter
import GsupMapProxy.Proxy.TransactionManager

/-!
# Proxy (`src/proxy/Proxy.cpp`)

A handler takes the proxy's state and returns the new one with what it sent, in order. It can
also fail to return, with an exception that no `catch` of it covers or with undefined
behaviour. `ITransport::send` is taken not to throw. Log lines are left out.
-/

namespace GsupMapProxy

open Gsup Map

/-- `struct HlrTxEntry` (`Proxy.hpp:16-21`). -/
structure HlrTxEntry where
  mapTransactionId : UInt32
  mapInvokeId : UInt8
  mapOperation : MapOperation
  createdAt : TimePoint
  deriving DecidableEq

/-- `std::unordered_map<std::string, HlrTxEntry>`. -/
abbrev HlrTransactions := Finmap fun _ : Str => HlrTxEntry

/-- `std::unordered_map<uint32_t, map::MapOperation>`. -/
abbrev PendingOps := Finmap fun _ : UInt32 => MapOperation

/-- `class Proxy`, less its transports (`Proxy.hpp:33-81`). -/
structure Proxy where
  txMgr : TransactionManager
  hlrTx : HlrTransactions := ∅
  pendingOps : PendingOps := ∅

/-- What a handler hands to a transport: `sgsnTransport_->send(data, client)` or
`hlrTransport_->send(data)`. -/
inductive Send where
  | sgsn (data : Bytes) (client : ClientId)
  | hlr (data : Bytes)
  deriving DecidableEq

/-- The outcome of a handler. -/
abbrev Outcome := Except Fault (Proxy × List Send)

namespace Proxy

/-- `Proxy::Proxy` (`Proxy.cpp:44-50`). -/
def start (txTimeout : Int) : Proxy := { txMgr := { timeout := txTimeout } }

/-- The try blocks of NAK and expiry: an error message for the transaction, sent when it can be
converted and encoded (`Proxy.cpp:258-268`, `284-294`). -/
def sendReturnError (tid : UInt32) (op : MapOperation) (pending : PendingTransaction) :
    Option Send :=
  let errMsg : MapMessage :=
    { transactionId := tid, operation := op, component := .returnError, imsi := pending.imsi }
  match mapToGsup errMsg >>= Gsup.encode with
  | .ok gsupData => some (.sgsn gsupData pending.clientContext)
  | .error _ => none

/-! ## HLR-initiated direction -/

/-- `Proxy::handleHlrInitiated` (`Proxy.cpp:179-208`). -/
def handleHlrInitiated (p : Proxy) (mapMsg : MapMessage) (now : TimePoint) : Outcome :=
  match mapInvokeToGsup mapMsg with
  | .error (.conversionError _) => .ok (p, [])
  | .error e => .error (.thrown e)
  | .ok gsupMsg =>
      let entry : HlrTxEntry :=
        { mapTransactionId := mapMsg.transactionId, mapInvokeId := mapMsg.invokeId,
          mapOperation := mapMsg.operation, createdAt := now }
      let hlrTx := p.hlrTx.insert gsupMsg.imsi entry
      match Gsup.encode gsupMsg with
      | .error _ => .ok ({ p with hlrTx := hlrTx.erase gsupMsg.imsi }, [])
      | .ok gsupData => .ok ({ p with hlrTx := hlrTx }, [.sgsn gsupData 0])

/-- `Proxy::handleGsupHlrResponse` (`Proxy.cpp:210-238`). -/
def handleGsupHlrResponse (p : Proxy) (gsupMsg : GsupMessage) : Outcome :=
  match p.hlrTx.lookup gsupMsg.imsi with
  | none => .ok (p, [])
  | some entry =>
      match gsupToMapResult gsupMsg entry.mapTransactionId entry.mapInvokeId with
      | .error (.conversionError _) =>
          .ok ({ p with hlrTx := p.hlrTx.erase gsupMsg.imsi }, [])
      | .error e => .error (.thrown e)
      | .ok mapMsg =>
          let p := { p with hlrTx := p.hlrTx.erase gsupMsg.imsi }
          match Map.encode mapMsg with
          | .error _ => .ok (p, [])
          | .ok mapData => .ok (p, [.hlr mapData])

/-- The loop of `expireHlrTransactions` over the keys still to visit. -/
def expireHlrLoop (timeout : Int) (now : TimePoint) :
    List Str → HlrTransactions → HlrTransactions
  | [], hlrTx => hlrTx
  | imsi :: order, hlrTx =>
      match hlrTx.lookup imsi with
      | none => expireHlrLoop timeout now order hlrTx
      | some entry =>
          if olderThan timeout now entry.createdAt then
            expireHlrLoop timeout now order (hlrTx.erase imsi)
          else expireHlrLoop timeout now order hlrTx

/-- `Proxy::expireHlrTransactions` (`Proxy.cpp:240-250`). -/
def expireHlrTransactions (p : Proxy) (order : List Str) (timeout : Int) (now : TimePoint) :
    Proxy :=
  { p with hlrTx := expireHlrLoop timeout now order p.hlrTx }

/-! ## SGSN-initiated direction -/

/-- `Proxy::handleGsupPayload` (`Proxy.cpp:67-115`). -/
def handleGsupPayload (p : Proxy) (gsupPayload : Bytes) (clientContext : ClientId)
    (now : TimePoint) : Outcome :=
  match Gsup.decode gsupPayload with
  | .error _ => .ok (p, [])
  | .ok gsupMsg =>
      if isHlrInitiatedGsupType gsupMsg.type then handleGsupHlrResponse p gsupMsg
      else
        let (tid, txMgr) := p.txMgr.allocate gsupMsg.imsi clientContext now
        match txMgr.find tid with
        | none => .error (.undefined "dereference of an empty optional")
        | some tx =>
            match gsupToMap gsupMsg tid tx.mapInvokeId with
            | .error (.conversionError _) => .ok ({ p with txMgr := txMgr.complete tid }, [])
            | .error e => .error (.thrown e)
            | .ok mapMsg =>
                let pendingOps := p.pendingOps.insert tid mapMsg.operation
                match Map.encode mapMsg with
                | .error _ =>
                    .ok ({ p with
                      txMgr := txMgr.complete tid, pendingOps := pendingOps.erase tid }, [])
                | .ok mapData =>
                    .ok ({ p with txMgr := txMgr, pendingOps := pendingOps }, [.hlr mapData])

/-- What `handleMapPayload` fills in from the stored context: an empty IMSI, and an operation
the PDU did not carry (`Proxy.cpp:141-148`). -/
def fillIn (p : Proxy) (pending : PendingTransaction) (mapMsg : MapMessage) : MapMessage :=
  let mapMsg := if mapMsg.imsi = [] then { mapMsg with imsi := pending.imsi } else mapMsg
  if mapMsg.operation = .unknown then
    match p.pendingOps.lookup mapMsg.transactionId with
    | some op => { mapMsg with operation := op }
    | none => mapMsg
  else mapMsg

/-- `txMgr_.complete(tid)` and `pendingOps_.erase(tid)`. -/
def forget (p : Proxy) (tid : UInt32) : Proxy :=
  { p with txMgr := p.txMgr.complete tid, pendingOps := p.pendingOps.erase tid }

/-- `handleMapPayload` from the look-up of the pending transaction on
(`Proxy.cpp:134-174`). -/
def handleMapAnswer (p : Proxy) (mapMsg : MapMessage) : Outcome :=
  match p.txMgr.find mapMsg.transactionId with
  | none => .ok (p, [])
  | some pending =>
      match mapToGsup (p.fillIn pending mapMsg) with
      | .error (.conversionError _) => .ok (p.forget mapMsg.transactionId, [])
      | .error e => .error (.thrown e)
      | .ok gsupMsg =>
          match Gsup.encode gsupMsg with
          | .error _ => .ok (p.forget mapMsg.transactionId, [])
          | .ok gsupData =>
              .ok (p.forget mapMsg.transactionId, [.sgsn gsupData pending.clientContext])

/-- `Proxy::handleMapPayload` (`Proxy.cpp:117-175`). -/
def handleMapPayload (p : Proxy) (mapPayload : Bytes) (now : TimePoint) : Outcome :=
  match Map.decode mapPayload with
  | .error _ => .ok (p, [])
  | .ok mapMsg =>
      if mapMsg.component = .invoke then p.handleHlrInitiated mapMsg now
      else p.handleMapAnswer mapMsg

/-- The loop of `nackAllPendingTransactions` over the keys still to visit. -/
def nackLoop : List UInt32 → Proxy → List Send → Proxy × List Send
  | [], p, sent => (p, sent)
  | tid :: order, p, sent =>
      match p.pendingOps.lookup tid, p.txMgr.find tid with
      | some op, some pending =>
          nackLoop order { p with txMgr := p.txMgr.complete tid }
            (sent ++ (sendReturnError tid op pending).toList)
      | _, _ => nackLoop order p sent

/-- `Proxy::nackAllPendingTransactions` (`Proxy.cpp:252-273`). -/
def nackAllPendingTransactions (p : Proxy) (order : List UInt32) : Proxy × List Send :=
  let (p, sent) := nackLoop order p []
  ({ p with pendingOps := ∅ }, sent)

/-- The loop of `expireSgsnTransactions` over the expired records (`Proxy.cpp:279-297`). -/
def expireSgsnLoop : List PendingTransaction → PendingOps → List Send → PendingOps × List Send
  | [], pendingOps, sent => (pendingOps, sent)
  | tx :: expired, pendingOps, sent =>
      match pendingOps.lookup tx.mapTransactionId with
      | none => expireSgsnLoop expired pendingOps sent
      | some op =>
          expireSgsnLoop expired (pendingOps.erase tx.mapTransactionId)
            (sent ++ (sendReturnError tx.mapTransactionId op tx).toList)

/-- `Proxy::expireSgsnTransactions` (`Proxy.cpp:275-298`). -/
def expireSgsnTransactions (p : Proxy) (order : List UInt32) (now : TimePoint) :
    Proxy × List Send :=
  let (expired, txMgr) := p.txMgr.expireStale order now
  let (pendingOps, sent) := expireSgsnLoop expired p.pendingOps []
  ({ p with txMgr := txMgr, pendingOps := pendingOps }, sent)

end Proxy

/-! ## The proxy as a state machine -/

/-- One call into the proxy: a payload from either side, a lost HLR connection, or one of the
two periodic clean-ups. `order` is the order in which the call visits a table. -/
inductive Op where
  | gsup (payload : Bytes) (client : ClientId) (now : TimePoint)
  | map (payload : Bytes) (now : TimePoint)
  | nack (order : List UInt32)
  | expireSgsn (order : List UInt32) (now : TimePoint)
  | expireHlr (order : List Str) (timeout : Int) (now : TimePoint)

/-- `order` visits every key of the table once. -/
def Enumerates {K V : Type} (order : List K) (table : Finmap fun _ : K => V) : Prop :=
  order.Nodup ∧ ∀ k, k ∈ order ↔ k ∈ table

/-- The calls that can happen: a loop over a table visits that table. -/
def Op.Possible (p : Proxy) : Op → Prop
  | .nack order => Enumerates order p.pendingOps
  | .expireSgsn order _ => Enumerates order p.txMgr.transactions
  | .expireHlr order _ _ => Enumerates order p.hlrTx
  | _ => True

/-- One call. -/
def Proxy.step (p : Proxy) : Op → Outcome
  | .gsup payload client now => p.handleGsupPayload payload client now
  | .map payload now => p.handleMapPayload payload now
  | .nack order => .ok (p.nackAllPendingTransactions order)
  | .expireSgsn order now => .ok (p.expireSgsnTransactions order now)
  | .expireHlr order timeout now => .ok (p.expireHlrTransactions order timeout now, [])

end GsupMapProxy
