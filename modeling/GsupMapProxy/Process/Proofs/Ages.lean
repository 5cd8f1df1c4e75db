import GsupMapProxy.Process.Proofs.ProxyRuns
import GsupMapProxy.Proxy.Proofs.Ages

/-!
# Nothing stays behind in the process

The timer of `main` has both tables of the proxy cleaned up every five seconds. Whatever else
happens in between, an HLR that never answers and SGSNs that go away included, the tables hold no
more than what the last payloads before the last tick have put there.
-/

namespace GsupMapProxy

open Misc Transport

variable {txTimeout : Int} {cfg : MapTransportConfig} {events : List ProcessEvent} {p : Process}

/-- If the clock has not gone backwards, then after a tick at time `now` every record of a request
was made at most `txTimeout` seconds before it, and every record of an Invoke at most 30 seconds;
and there are at most as many records as payloads that the proxy was given from the SGSNs and
from the HLR since then. -/
theorem nothing_left_behind (hrun : ProcessRun txTimeout cfg events p) (htimeout : 0 ≤ txTimeout)
    (hclock : InOrder Op.clock (events.flatMap opsOf)) {e : ProcessEvent} (he : e ∈ events)
    {sgsnOrder : List UInt32} {hlrOrder : List Str} {now : TimePoint}
    (htick : e.op = .tick sgsnOrder hlrOrder now) :
    (∀ t tx, p.proxy.txMgr.find t = some tx → now - tx.createdAt ≤ txTimeout * 1000000000) ∧
    (∀ imsi entry, p.proxy.hlrTx.lookup imsi = some entry →
      now - entry.createdAt ≤ 30 * 1000000000) ∧
    p.proxy.txMgr.transactions.keys.card ≤ (events.flatMap opsOf).countP
      (sgsnRecords.makesSince (now - txTimeout * 1000000000)) ∧
    p.proxy.hlrTx.keys.card ≤ (events.flatMap opsOf).countP
      (hlrRecords.makesSince (now - 30 * 1000000000)) := by
  obtain ⟨own, hown, hin⟩ := ProcessRun.inside hrun
  -- the two clean-ups of the tick are calls into the proxy
  have hmade : ∀ op ∈ opsOf e, ∃ e' ∈ own, e'.op = op := by
    intro op hop
    rw [← List.mem_map, hin.ops]
    exact List.mem_flatMap.mpr ⟨e, he, hop⟩
  have hops : opsOf e = [.expireSgsn sgsnOrder now, .expireHlr hlrOrder 30 now] := by
    rw [opsOf, htick]
  rw [hops] at hmade
  obtain ⟨first, hfirst, hsgsn⟩ := hmade _ List.mem_cons_self
  obtain ⟨second, hsecond, hhlr⟩ := hmade (.expireHlr hlrOrder 30 now) (by simp)
  rw [← hin.ops] at hclock ⊢
  have hsgsnNow : first.op.clock = some now := by
    rw [hsgsn]
    rfl
  have hsgsnSweeps : first.op.isExpireSgsn = true := by
    rw [hsgsn]
    rfl
  have hhlrNow : second.op.clock = some now := by
    rw [hhlr]
    rfl
  have hhlrSweeps : second.op.isExpireHlr 30 = true := by
    rw [hhlr]
    rfl
  obtain ⟨hsgsnAges, hsgsnCard⟩ :=
    ProxyRun.sgsn_young hown htimeout hclock hfirst hsgsnSweeps hsgsnNow
  obtain ⟨hhlrAges, hhlrCard⟩ :=
    ProxyRun.hlr_young hown (by decide) hclock hsecond hhlrSweeps hhlrNow
  exact ⟨hsgsnAges, hhlrAges, hsgsnCard, hhlrCard⟩

/-- A request that the HLR does not answer is there after the first tick and gone after one that
comes more than 30 seconds later. -/
theorem request_gone_after_timeout :
    ∃ events p, ProcessRun 30 {} events p ∧
      (∃ e ∈ events, e.op = .tick [1] [] 5000000000 ∧
        e.post.proxy.txMgr.transactions.keys.card = 1) ∧
      p.proxy.txMgr.transactions.keys.card = 0 := by
  obtain ⟨result, e, e', hplayed, he, htick, hone, he', htick', hclock, hnone⟩ : ∃ result e e',
      Process.played 30 {} (sgsnConnects ++
        [.sessionRead 0 (some ([0x00, 0x07, 0xEE] ++ purge12345)) 7, .tick [1] [] 5000000000,
          .tick [1] [] 35000000008]) = some result ∧
      result.1[3]? = some e ∧ e.op = .tick [1] [] 5000000000 ∧
      e.post.proxy.txMgr.transactions.keys.card = 1 ∧
      result.1[4]? = some e' ∧ e'.op = .tick [1] [] 35000000008 ∧
      InOrder Op.clock (result.1.flatMap opsOf) ∧
      (result.1.flatMap opsOf).countP
        (sgsnRecords.makesSince (35000000008 - 30 * 1000000000)) = 0 :=
    ⟨_, _, _, rfl, rfl, rfl, by decide +kernel, rfl, rfl, by decide +kernel, by decide +kernel⟩
  have hrun := Process.run_of_played hplayed
  obtain ⟨-, -, hcard, -⟩ :=
    nothing_left_behind hrun (by decide) hclock (List.mem_of_getElem? he') htick'
  rw [hnone] at hcard
  exact ⟨_, _, hrun, ⟨e, List.mem_of_getElem? he, htick, hone⟩, Nat.le_zero.mp hcard⟩

end GsupMapProxy
