import GsupMapProxy.Misc.Loop
import GsupMapProxy.Misc.Run

/-!
# Machines of two halves

A machine is made of two halves when every operation belongs to one of them, and acts as that half
alone would act: it reads and changes nothing of the other one. Its runs are then the interleavings
of the runs of its halves, all of them and no others.
-/

namespace Misc

variable {ε σ ι ο : Type}

/-- What is seen of a run from outside. -/
def trace (events : List (Event σ ι ο)) : List (ι × List ο) := events.map fun e => (e.op, e.outs)

theorem trace_append (events later : List (Event σ ι ο)) :
    trace (events ++ later) = trace events ++ trace later := List.map_append

/-- `join a b` has its left half from `a` and its right half from `b`; the operations that are
`left` are those of the left half. -/
structure Halves (step : σ → ι → Except ε (σ × List ο)) (possible : σ → ι → Prop) (start : σ)
    (left : ι → Bool) (join : σ → σ → σ) : Prop where
  start : join start start = start
  stepLeft : ∀ a b op, left op = true →
    step (join a b) op = (step a op).map fun r => (join r.1 b, r.2)
  stepRight : ∀ a b op, left op = false →
    step (join a b) op = (step b op).map fun r => (join a r.1, r.2)
  possibleLeft : ∀ a b op, left op = true → (possible (join a b) op ↔ possible a op)
  possibleRight : ∀ a b op, left op = false → (possible (join a b) op ↔ possible b op)

section

variable {step : σ → ι → Except ε (σ × List ο)} {possible : σ → ι → Prop} {start s : σ}
  {left : ι → Bool} {join : σ → σ → σ} {events : List (Event σ ι ο)}

/-- The runs of the halves, from the interleaving. -/
theorem Run.split (hhalves : Halves step possible start left join)
    (hrun : Run step possible start events s) :
    ∃ own own' a b, Run step possible start own a ∧ Run step possible start own' b ∧
      s = join a b ∧ trace own = (trace events).filter (fun x => left x.1) ∧
      trace own' = (trace events).filter (fun x => !left x.1) := by
  induction hrun with
  | nil => exact ⟨[], [], start, start, .nil, .nil, hhalves.start.symm, rfl, rfl⟩
  | @snoc events s s' outs earlier op hop hs ih =>
    obtain ⟨own, own', a, b, hown, hown', rfl, htrace, htrace'⟩ := ih
    rw [trace_append, List.filter_append, List.filter_append, ← htrace, ← htrace']
    cases hleft : left op with
    | true =>
      rw [hhalves.stepLeft a b op hleft] at hs
      obtain ⟨⟨a', outs'⟩, ha', heq⟩ := except_map_eq_ok.mp hs
      cases heq
      refine ⟨own ++ [⟨a, op, outs', a'⟩], own', a', b,
        hown.snoc op ((hhalves.possibleLeft a b op hleft).mp hop) ha', hown', rfl, ?_, ?_⟩
      · simp [trace, hleft]
      · simp [trace, hleft]
    | false =>
      rw [hhalves.stepRight a b op hleft] at hs
      obtain ⟨⟨b', outs'⟩, hb', heq⟩ := except_map_eq_ok.mp hs
      cases heq
      refine ⟨own, own' ++ [⟨b, op, outs', b'⟩], a, b', hown,
        hown'.snoc op ((hhalves.possibleRight a b op hleft).mp hop) hb', rfl, ?_, ?_⟩
      · simp [trace, hleft]
      · simp [trace, hleft]

/-- A run with a trace that goes on. -/
theorem Run.of_trace_append {later : List (ι × List ο)} {op : ι} {outs : List ο}
    (hrun : Run step possible start events s) (h : trace events = later ++ [(op, outs)]) :
    ∃ earlier s', Run step possible start earlier s' ∧ trace earlier = later ∧ possible s' op ∧
      step s' op = .ok (s, outs) := by
  cases hrun with
  | nil => simp [trace] at h
  | @snoc events s' _ outs' earlier op' hop hs =>
    rw [trace_append] at h
    obtain ⟨hlater, hlast⟩ := List.append_inj' h rfl
    cases hlast
    exact ⟨events, s', earlier, hlater, hop, hs⟩

/-- The interleaving, from the runs of the halves. -/
theorem Run.merge (hhalves : Halves step possible start left join) (outside : List (ι × List ο)) :
    ∀ {own own' : List (Event σ ι ο)} {a b : σ}, Run step possible start own a →
      Run step possible start own' b → trace own = outside.filter (fun x => left x.1) →
      trace own' = outside.filter (fun x => !left x.1) →
      ∃ events, Run step possible start events (join a b) ∧ trace events = outside := by
  induction outside using List.reverseRecOn with
  | nil =>
    intro own own' a b hown hown' htrace htrace'
    obtain rfl : own = [] := List.map_eq_nil_iff.mp htrace
    obtain rfl : own' = [] := List.map_eq_nil_iff.mp htrace'
    rw [hown.eq_start, hown'.eq_start, hhalves.start]
    exact ⟨[], .nil, rfl⟩
  | append_singleton outside last ih =>
    obtain ⟨op, outs⟩ := last
    intro own own' a b hown hown' htrace htrace'
    rw [List.filter_append] at htrace htrace'
    cases hleft : left op with
    | true =>
      simp only [List.filter_cons, List.filter_nil, hleft, if_true, Bool.not_true,
        Bool.false_eq_true, if_false, List.append_nil] at htrace htrace'
      obtain ⟨earlier, a', hearlier, hbefore, hop, hs⟩ := hown.of_trace_append htrace
      obtain ⟨events, hrun, hevents⟩ := ih hearlier hown' hbefore htrace'
      have hjoined : step (join a' b) op = .ok (join a b, outs) := by
        rw [hhalves.stepLeft a' b op hleft, hs]
        rfl
      refine ⟨_, hrun.snoc op ((hhalves.possibleLeft a' b op hleft).mpr hop) hjoined, ?_⟩
      rw [trace_append, hevents]
      rfl
    | false =>
      simp only [List.filter_cons, List.filter_nil, hleft, if_true, Bool.not_false,
        Bool.false_eq_true, if_false, List.append_nil] at htrace htrace'
      obtain ⟨earlier, b', hearlier, hbefore, hop, hs⟩ := hown'.of_trace_append htrace'
      obtain ⟨events, hrun, hevents⟩ := ih hown hearlier htrace hbefore
      have hjoined : step (join a b') op = .ok (join a b, outs) := by
        rw [hhalves.stepRight a b' op hleft, hs]
        rfl
      refine ⟨_, hrun.snoc op ((hhalves.possibleRight a b' op hleft).mpr hop) hjoined, ?_⟩
      rw [trace_append, hevents]
      rfl

end

end Misc
