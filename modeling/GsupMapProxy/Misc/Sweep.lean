import GsupMapProxy.Misc.Run
import Mathlib.Data.Finset.Card

/-!
# Tables that are swept

Every operation of a machine enters at most one key into a table, and stamps the entry with the
clock it reads. Now and then an operation sweeps the table: it leaves no entry older than a limit.
If the clock does not go backwards, an entry is never older than the limit and the time since the
last sweep together, and there are at most as many entries as operations in that time that could
have made one.
-/

namespace Misc

variable {ε σ ι ο κ ν : Type}

/-- The operations read the clock in order. -/
def InOrder (clock : ι → Option Int) (ops : List ι) : Prop :=
  (ops.filterMap clock).Pairwise (· ≤ ·)

instance (clock : ι → Option Int) (ops : List ι) : Decidable (InOrder clock ops) :=
  inferInstanceAs (Decidable ((ops.filterMap clock).Pairwise (· ≤ ·)))

/-- A table with the times of its entries. -/
structure Stamped (σ ι κ ν : Type) where
  table : σ → κ → Option ν
  born : ν → Int
  clock : ι → Option Int
  /-- The operations that can make an entry. -/
  makes : ι → Bool

variable {T : Stamped σ ι κ ν}

/-- What is in the table after a step was there before, or is the one entry the step has made. -/
def Stamped.Enters (T : Stamped σ ι κ ν) (s : σ) (op : ι) (s' : σ) : Prop :=
  ∃ key, ∀ k v, T.table s' k = some v →
    T.table s k = some v ∨ k = key ∧ T.makes op = true ∧ T.clock op = some (T.born v)

theorem Stamped.Enters.of_kept {s s' : σ} (op : ι) (key : κ)
    (h : ∀ k v, T.table s' k = some v → T.table s k = some v) : T.Enters s op s' :=
  ⟨key, fun k v hv => .inl (h k v hv)⟩

section

variable {step : σ → ι → Except ε (σ × List ο)} {possible : σ → ι → Prop} {start s : σ}
  {events : List (Event σ ι ο)}

/-- After a sweep at `time` nothing is ever in the table that was overdue then. -/
theorem Run.swept (hrun : Run step possible start events s) {limit : Int} (hlimit : 0 ≤ limit)
    {sweeps : ι → Bool}
    (henters : ∀ {events s op outs s'}, Run step possible start events s → possible s op →
      step s op = .ok (s', outs) → T.Enters s op s')
    (hsweeps : ∀ {events s op outs s' time}, Run step possible start events s → possible s op →
      step s op = .ok (s', outs) → sweeps op = true → T.clock op = some time →
      ∀ k v, T.table s' k = some v → time - T.born v ≤ limit)
    (hclock : InOrder T.clock (events.map (·.op))) {e : Event σ ι ο} (he : e ∈ events)
    (hsweep : sweeps e.op = true) {time : Int} (htime : T.clock e.op = some time) :
    ∀ k v, T.table s k = some v → time - T.born v ≤ limit := by
  induction hrun with
  | nil => cases he
  | @snoc events s s' outs earlier op hop hs ih =>
    rw [InOrder, List.map_append, List.filterMap_append, List.pairwise_append] at hclock
    obtain ⟨hearlier, -, hlast⟩ := hclock
    rcases List.mem_append.mp he with he | he
    · obtain ⟨key, hkey⟩ := henters earlier hop hs
      intro k v hv
      rcases hkey k v hv with hold | ⟨-, -, hborn⟩
      · exact ih hearlier he k v hold
      · -- an entry made later is younger than the sweep
        have hle : time ≤ T.born v := by
          refine hlast time ?_ (T.born v) ?_
          · exact List.mem_filterMap.mpr ⟨e.op, List.mem_map_of_mem he, htime⟩
          · exact List.mem_filterMap.mpr ⟨op, List.mem_singleton_self _, hborn⟩
        omega
    · obtain rfl := List.mem_singleton.mp he
      exact hsweeps earlier hop hs hsweep htime

/-- The operation can make an entry, not before `since`. -/
def Stamped.makesSince (T : Stamped σ ι κ ν) (since : Int) (op : ι) : Bool :=
  T.makes op && (T.clock op).any (since ≤ ·)

/-- The keys with entries from `since` on. -/
def Stamped.young (T : Stamped σ ι κ ν) (keys : σ → Finset κ) (since : Int) (s : σ) : Finset κ :=
  (keys s).filter fun k => (T.table s k).any fun v => since ≤ T.born v

section Young

variable {keys : σ → Finset κ} {since : Int}

theorem Stamped.mem_young (hkeys : ∀ s k, k ∈ keys s ↔ ∃ v, T.table s k = some v) {k : κ} :
    k ∈ T.young keys since s ↔ ∃ v, T.table s k = some v ∧ since ≤ T.born v := by
  simp only [young, Finset.mem_filter, hkeys, Option.any_eq_true, decide_eq_true_eq]
  constructor
  · rintro ⟨-, h⟩
    exact h
  · rintro ⟨v, hv, hborn⟩
    exact ⟨⟨v, hv⟩, v, hv, hborn⟩

theorem Stamped.Enters.card_young_le [DecidableEq κ]
    (hkeys : ∀ s k, k ∈ keys s ↔ ∃ v, T.table s k = some v) {s' : σ} {op : ι}
    (h : T.Enters s op s') :
    (T.young keys since s').card ≤
      (T.young keys since s).card + if T.makesSince since op then 1 else 0 := by
  obtain ⟨key, hkey⟩ := h
  split
  · have hsubset : T.young keys since s' ⊆ insert key (T.young keys since s) := by
      intro k hk
      obtain ⟨v, hv, hborn⟩ := (mem_young hkeys).mp hk
      rcases hkey k v hv with hold | ⟨rfl, -⟩
      · exact Finset.mem_insert_of_mem ((mem_young hkeys).mpr ⟨v, hold, hborn⟩)
      · exact Finset.mem_insert_self _ _
    exact (Finset.card_le_card hsubset).trans (Finset.card_insert_le _ _)
  · rename_i hnot
    refine Finset.card_le_card ?_
    intro k hk
    obtain ⟨v, hv, hborn⟩ := (mem_young hkeys).mp hk
    rcases hkey k v hv with hold | ⟨-, hmakes, hclock⟩
    · exact (mem_young hkeys).mpr ⟨v, hold, hborn⟩
    · refine absurd ?_ hnot
      rw [makesSince, hmakes, hclock]
      simpa using hborn

/-- A table without entries from before `since` has at most one for each operation that can have
made it. -/
theorem Run.card_le_makers [DecidableEq κ] (keys : σ → Finset κ)
    (hrun : Run step possible start events s)
    (hkeys : ∀ s k, k ∈ keys s ↔ ∃ v, T.table s k = some v)
    (hempty : ∀ k, T.table start k = none)
    (henters : ∀ {events s op outs s'}, Run step possible start events s → possible s op →
      step s op = .ok (s', outs) → T.Enters s op s')
    (hyoung : ∀ k v, T.table s k = some v → since ≤ T.born v) :
    (keys s).card ≤ (events.map (·.op)).countP (T.makesSince since) := by
  have hall : keys s ⊆ T.young keys since s := by
    intro k hk
    obtain ⟨v, hv⟩ := (hkeys s k).mp hk
    exact (Stamped.mem_young hkeys).mpr ⟨v, hv, hyoung k v hv⟩
  have hstart : (T.young keys since start).card = 0 := by
    rw [Finset.card_eq_zero, Finset.eq_empty_iff_forall_notMem]
    intro k hk
    obtain ⟨v, hv, -⟩ := (Stamped.mem_young hkeys).mp hk
    rw [hempty] at hv
    cases hv
  have hcovered : (events.flatMap (·.outs)).countP (fun _ => false) +
      (T.young keys since s).card ≤ (events.map (·.op)).countP (T.makesSince since) := by
    refine Run.covered (fun s => (T.young keys since s).card) (fun _ => false)
      (T.makesSince since) hrun hstart ?_
    intro events s op outs s' earlier hop hs
    have hnone : outs.countP (fun _ => false) = 0 := by simp
    rw [hnone, Nat.zero_add]
    exact (henters earlier hop hs).card_young_le hkeys
  exact (Finset.card_le_card hall).trans (Nat.le_of_add_left_le hcovered)

end Young

end

end Misc
