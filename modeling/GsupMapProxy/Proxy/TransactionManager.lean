import GsupMapProxy.Common.Buffer
import Mathlib.Data.Finmap

/-!
# Transaction manager (`src/proxy/TransactionManager.cpp`)

`std::unordered_map` is a `Finmap`. Its iteration order is unspecified, so a loop over one takes
the order as an argument: a list that enumerates the keys. `std::chrono::steady_clock` readings
are integers (nanoseconds) that the caller passes in.
-/

namespace GsupMapProxy

/-- `using ClientId = uint64_t` (`ITransport.hpp:11`); 0 means "all sessions". -/
abbrev ClientId := UInt64

/-- `std::chrono::steady_clock::time_point`, in nanoseconds. -/
abbrev TimePoint := Int

/-- `now - createdAt > timeout`, with `timeout` in seconds. -/
def olderThan (timeout : Int) (now createdAt : TimePoint) : Bool :=
  now - createdAt > timeout * 1000000000

/-- `struct PendingTransaction` (`TransactionManager.hpp:15-23`). -/
structure PendingTransaction where
  mapTransactionId : UInt32
  mapInvokeId : UInt8
  imsi : Str
  clientContext : ClientId
  createdAt : TimePoint
  deriving DecidableEq

/-- `std::unordered_map<uint32_t, PendingTransaction>`. -/
abbrev Transactions := Finmap fun _ : UInt32 => PendingTransaction

/-- `class TransactionManager` (`TransactionManager.hpp:25-57`). -/
structure TransactionManager where
  tidCounter : UInt32 := 1
  invokeIdCounter : UInt8 := 1
  timeout : Int
  transactions : Transactions := ∅

namespace TransactionManager

/-- The id `nextTid` is about to return: 0 is skipped when the counter wraps around. -/
def peekTid (mgr : TransactionManager) : UInt32 :=
  if mgr.tidCounter = 0 then 1 else mgr.tidCounter

/-- `TransactionManager::nextTid` (`TransactionManager.cpp:8-12`). -/
def nextTid (mgr : TransactionManager) : UInt32 × TransactionManager :=
  (mgr.peekTid, { mgr with tidCounter := mgr.peekTid + 1 })

/-- The id `nextInvokeId` is about to return. -/
def peekInvokeId (mgr : TransactionManager) : UInt8 :=
  if mgr.invokeIdCounter > 127 then 1 else mgr.invokeIdCounter

/-- `TransactionManager::nextInvokeId` (`TransactionManager.cpp:14-17`). -/
def nextInvokeId (mgr : TransactionManager) : UInt8 × TransactionManager :=
  (mgr.peekInvokeId, { mgr with invokeIdCounter := mgr.peekInvokeId + 1 })

/-- `TransactionManager::find` (`TransactionManager.cpp:31-35`). -/
def find (mgr : TransactionManager) (tid : UInt32) : Option PendingTransaction :=
  mgr.transactions.lookup tid

/-- `transactions_.emplace(tid, t)`: an existing record stays. -/
def emplace (mgr : TransactionManager) (tid : UInt32) (t : PendingTransaction) :
    TransactionManager :=
  if tid ∈ mgr.transactions then mgr
  else { mgr with transactions := mgr.transactions.insert tid t }

/-- `TransactionManager::allocate` (`TransactionManager.cpp:19-29`). -/
def allocate (mgr : TransactionManager) (imsi : Str) (clientContext : ClientId)
    (now : TimePoint) : UInt32 × TransactionManager :=
  let (tid, mgr) := mgr.nextTid
  let (invokeId, mgr) := mgr.nextInvokeId
  let t : PendingTransaction :=
    { mapTransactionId := tid, mapInvokeId := invokeId, imsi := imsi,
      clientContext := clientContext, createdAt := now }
  (tid, mgr.emplace tid t)

/-- `TransactionManager::complete` (`TransactionManager.cpp:37-39`). -/
def complete (mgr : TransactionManager) (tid : UInt32) : TransactionManager :=
  { mgr with transactions := mgr.transactions.erase tid }

/-- The loop of `expireStale` over the keys still to visit, with `expired` what it collected. -/
def expireLoop (now : TimePoint) :
    List UInt32 → List PendingTransaction → TransactionManager →
      List PendingTransaction × TransactionManager
  | [], expired, mgr => (expired, mgr)
  | tid :: order, expired, mgr =>
      match mgr.find tid with
      | none => expireLoop now order expired mgr
      | some t =>
          if olderThan mgr.timeout now t.createdAt then
            expireLoop now order (expired ++ [t]) (mgr.complete tid)
          else expireLoop now order expired mgr

/-- `TransactionManager::expireStale` (`TransactionManager.cpp:41-53`). -/
def expireStale (mgr : TransactionManager) (order : List UInt32) (now : TimePoint) :
    List PendingTransaction × TransactionManager :=
  expireLoop now order [] mgr

end TransactionManager

end GsupMapProxy
