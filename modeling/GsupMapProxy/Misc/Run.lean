import Mathlib.Data.List.Basic
import Mathlib.Data.List.Induction

/-!
# Runs of a machine that emits output, and keyed tables along them

A machine takes a state and an operation to a new state and a list of outputs, or fails. `Run`
is the record of finitely many of its steps, oldest first, in which every operation was
possible where it happened.

The second half is about a table that a machine keeps in its state, from keys to values. An
event may open a key; between two openings of the same key its value can only stay or
disappear. `Origin` relates a key that is present to the event that opened it, and the laws
below say that it exists, that it is unique, and that an event which removes the key ends its
life: no later event can have the same origin.
-/

namespace Misc

variable {ε σ ι ο : Type}

/-- One step, with the states around it. -/
structure Event (σ ι ο : Type) where
  pre : σ
  op : ι
  outs : List ο
  post : σ

/-- The runs of `step` from `start` whose operations are all `possible`: the events, and the
state reached. -/
inductive Run (step : σ → ι → Except ε (σ × List ο)) (possible : σ → ι → Prop) (start : σ) :
    List (Event σ ι ο) → σ → Prop
  | nil : Run step possible start [] start
  | snoc {events : List (Event σ ι ο)} {s s' : σ} {outs : List ο}
      (earlier : Run step possible start events s) (op : ι) (hop : possible s op)
      (hstep : step s op = .ok (s', outs)) :
      Run step possible start (events ++ [⟨s, op, outs, s'⟩]) s'

namespace Run

variable {step : σ → ι → Except ε (σ × List ο)} {possible : σ → ι → Prop} {start s : σ}
  {events : List (Event σ ι ο)}

/-- What holds at the start and survives every possible step holds wherever a run leads. -/
theorem invariant {I : σ → Prop} (hrun : Run step possible start events s) (hstart : I start)
    (hstep : ∀ s op s' outs, I s → possible s op → step s op = .ok (s', outs) → I s') : I s := by
  induction hrun with
  | nil => exact hstart
  | snoc earlier op hop hs ih => exact hstep _ _ _ _ ih hop hs

/-- The same for what is said about the past as well, along a run whose events all meet a
condition. -/
theorem history {I : List (Event σ ι ο) → σ → Prop} {C : Event σ ι ο → Prop}
    (hrun : Run step possible start events s) (hevents : ∀ e ∈ events, C e) (hstart : I [] start)
    (hstep : ∀ events s op outs s', I events s → possible s op → step s op = .ok (s', outs) →
      C ⟨s, op, outs, s'⟩ → I (events ++ [⟨s, op, outs, s'⟩]) s') : I events s := by
  induction hrun with
  | nil => exact hstart
  | snoc earlier op hop hs ih =>
    refine hstep _ _ _ _ _ (ih fun e he => hevents e ?_) hop hs (hevents _ ?_)
    · exact List.mem_append_left _ he
    · exact List.mem_append_right _ (List.mem_singleton_self _)

/-- Weaker conditions on the operations leave a run a run. -/
theorem mono {possible' : σ → ι → Prop} (hrun : Run step possible start events s)
    (h : ∀ s op, possible s op → possible' s op) : Run step possible' start events s := by
  induction hrun with
  | nil => exact .nil
  | snoc earlier op hop hs ih => exact .snoc ih op (h _ _ hop) hs

/-- A run that goes on where another has come to. -/
theorem append {later : List (Event σ ι ο)} {s' : σ} (hrun : Run step possible start events s)
    (hlater : Run step possible s later s') : Run step possible start (events ++ later) s' := by
  induction hlater with
  | nil =>
    rw [List.append_nil]
    exact hrun
  | snoc earlier op hop hs ih =>
    rw [← List.append_assoc]
    exact .snoc ih op hop hs

/-- A step is a run. -/
theorem single {op : ι} {s' : σ} {outs : List ο} (hop : possible s op)
    (hs : step s op = .ok (s', outs)) : Run step possible s [⟨s, op, outs, s'⟩] s' :=
  .snoc .nil op hop hs

/-- Forward simulation: where every step of one machine is matched by a run of another, every run
is. What is matched may speak of the pasts as well. -/
theorem simulated {ε' τ ι' ο' : Type} {step' : τ → ι' → Except ε' (τ × List ο')}
    {possible' : τ → ι' → Prop} {start' : τ}
    {R : List (Event σ ι ο) → σ → List (Event τ ι' ο') → τ → Prop}
    (hrun : Run step possible start events s) (hstart : R [] start [] start')
    (hstep : ∀ events s own t op outs s', Run step possible start events s → R events s own t →
      possible s op → step s op = .ok (s', outs) →
      ∃ later t', Run step' possible' t later t' ∧
        R (events ++ [⟨s, op, outs, s'⟩]) s' (own ++ later) t') :
    ∃ own t, Run step' possible' start' own t ∧ R events s own t := by
  induction hrun with
  | nil => exact ⟨[], start', .nil, hstart⟩
  | snoc earlier op hop hs ih =>
    obtain ⟨own, t, hown, hR⟩ := ih
    obtain ⟨later, t', hlater, hR'⟩ := hstep _ _ _ _ _ _ _ earlier hR hop hs
    exact ⟨own ++ later, t', hown.append hlater, hR'⟩

/-- A measure that every event lowers bounds the length of a run. -/
theorem length_le {C : Event σ ι ο → Prop} (measure : σ → Nat)
    (hrun : Run step possible start events s) (hevents : ∀ e ∈ events, C e)
    (hstep : ∀ s op outs s', possible s op → step s op = .ok (s', outs) →
      C ⟨s, op, outs, s'⟩ → measure s' + 1 ≤ measure s) :
    events.length + measure s ≤ measure start := by
  refine hrun.history (I := fun events s => events.length + measure s ≤ measure start) hevents ?_ ?_
  · simp
  · intro events s op outs s' hsofar hop hs hC
    have hlower := hstep s op outs s' hop hs hC
    rw [List.length_append, List.length_singleton]
    omega

/-- Accounting: where a step never emits more than it is paid for, out of what is held or what its
operation brings in, the outputs of a run and what is held at its end are covered by what its
operations have brought in. -/
theorem covered (held : σ → Nat) (spent : ο → Bool) (earned : ι → Bool)
    (hrun : Run step possible start events s) (hstart : held start = 0)
    (hstep : ∀ {events s op outs s'}, Run step possible start events s → possible s op →
      step s op = .ok (s', outs) →
      outs.countP spent + held s' ≤ held s + if earned op then 1 else 0) :
    (events.flatMap (·.outs)).countP spent + held s ≤ (events.map (·.op)).countP earned := by
  induction hrun with
  | nil => simp [hstart]
  | snoc earlier op hop hs ih =>
    have hlast := hstep earlier hop hs
    rw [List.flatMap_append, List.flatMap_singleton, List.map_append, List.countP_append,
      List.countP_append]
    simp only [List.map_cons, List.map_nil, List.countP_singleton]
    omega

theorem getElem?_snoc {events : List (Event σ ι ο)} {last e : Event σ ι ο} {i : Nat}
    (h : (events ++ [last])[i]? = some e) :
    events[i]? = some e ∨ i = events.length ∧ e = last := by
  rcases Nat.lt_trichotomy i events.length with hlt | heq | hgt
  · rw [List.getElem?_append_left hlt] at h
    exact .inl h
  · subst heq
    rw [List.getElem?_append_right (Nat.le_refl _), Nat.sub_self] at h
    exact .inr ⟨rfl, (Option.some.inj h).symm⟩
  · rw [List.getElem?_append_right (by omega)] at h
    obtain ⟨n, hn⟩ : ∃ n, i - events.length = n + 1 := ⟨i - events.length - 1, by omega⟩
    rw [hn] at h
    cases h

theorem getElem?_lt {events : List (Event σ ι ο)} {e : Event σ ι ο} {i : Nat}
    (h : events[i]? = some e) : i < events.length := by
  obtain ⟨hi, -⟩ := List.getElem?_eq_some_iff.mp h
  exact hi

/-- The run up to an event leads to the state before it. -/
theorem before (hrun : Run step possible start events s) {i : Nat} {e : Event σ ι ο}
    (he : events[i]? = some e) : Run step possible start (events.take i) e.pre := by
  induction hrun with
  | nil => cases he
  | @snoc events s s' outs earlier op hop hs ih =>
    rcases getElem?_snoc he with he | ⟨rfl, rfl⟩
    · rw [List.take_append_of_le_length (Nat.le_of_lt (getElem?_lt he))]
      exact ih he
    · rw [List.take_left]
      exact earlier

/-- Every event of a run is a possible step. -/
theorem event (hrun : Run step possible start events s) {i : Nat} {e : Event σ ι ο}
    (he : events[i]? = some e) :
    possible e.pre e.op ∧ step e.pre e.op = .ok (e.post, e.outs) := by
  induction hrun with
  | nil => cases he
  | snoc earlier op hop hs ih =>
    rcases getElem?_snoc he with he | ⟨rfl, rfl⟩
    · exact ih he
    · exact ⟨hop, hs⟩

theorem eq_start (hrun : Run step possible start [] s) : s = start := by
  generalize hnil : ([] : List (Event σ ι ο)) = events at hrun
  cases hrun with
  | nil => rfl
  | snoc earlier op hop hs => simp at hnil

/-- An event starts where the one before it ended. -/
theorem pre_eq_post (hrun : Run step possible start events s) {i : Nat} {e e' : Event σ ι ο}
    (he : events[i]? = some e) (he' : events[i + 1]? = some e') : e'.pre = e.post := by
  have hlast : ∀ {events : List (Event σ ι ο)} {s : σ}, Run step possible start events s →
      events[i]? = some e → events.length = i + 1 → s = e.post := by
    intro events s hrun he hlen
    cases hrun with
    | nil => cases he
    | snoc earlier op hop hs =>
      rcases getElem?_snoc he with he | ⟨-, rfl⟩
      · have := getElem?_lt he
        simp at hlen
        omega
      · rfl
  have hlt := getElem?_lt he'
  refine hlast (hrun.before he') ?_ ?_
  · rw [List.getElem?_take_of_lt (Nat.lt_succ_self i)]
    exact he
  · rw [List.length_take]
    omega

/-- What no event undoes holds for good once it holds. -/
theorem stays {P : σ → Prop} (hrun : Run step possible start events s)
    (hkeeps : ∀ e ∈ events, P e.pre → P e.post) {i j : Nat} {e e' : Event σ ι ο} (hlt : i < j)
    (he : events[i]? = some e) (he' : events[j]? = some e') (hP : P e.post) : P e'.pre := by
  induction j generalizing e' with
  | zero => omega
  | succ j ih =>
    obtain ⟨last, hlast⟩ : ∃ last, events[j]? = some last :=
      ⟨_, List.getElem?_eq_getElem (Nat.lt_of_succ_lt (getElem?_lt he'))⟩
    rw [hrun.pre_eq_post hlast he']
    by_cases heq : i = j
    · subst heq
      rw [he] at hlast
      cases hlast
      exact hP
    · exact hkeeps last (List.mem_of_getElem? hlast) (ih (by omega) hlast)

/-- What is kept along a run holds before each of its events. -/
theorem history_at {I : List (Event σ ι ο) → σ → Prop} {C : Event σ ι ο → Prop}
    (hrun : Run step possible start events s) (hevents : ∀ e ∈ events, C e) (hstart : I [] start)
    (hstep : ∀ events s op outs s', I events s → possible s op → step s op = .ok (s', outs) →
      C ⟨s, op, outs, s'⟩ → I (events ++ [⟨s, op, outs, s'⟩]) s')
    {earlier later : List (Event σ ι ο)} {e : Event σ ι ο} (heq : events = earlier ++ e :: later) :
    I earlier e.pre ∧ possible e.pre e.op ∧ step e.pre e.op = .ok (e.post, e.outs) := by
  have he : events[earlier.length]? = some e := by
    rw [heq]
    simp
  have hbefore := hrun.before he
  rw [heq, List.take_left] at hbefore
  refine ⟨hbefore.history (fun e he => hevents e ?_) hstart hstep, hrun.event he⟩
  rw [heq]
  exact List.mem_append_left _ he

end Run

/-- Possible steps with operations of a kind lead from one state to another. -/
inductive Leads (step : σ → ι → Except ε (σ × List ο)) (possible : σ → ι → Prop)
    (kind : ι → Prop) (start : σ) : σ → Prop
  | refl : Leads step possible kind start start
  | step {s s' : σ} {outs : List ο} (earlier : Leads step possible kind start s) (op : ι)
      (hkind : kind op) (hop : possible s op) (hstep : step s op = .ok (s', outs)) :
      Leads step possible kind start s'

theorem Leads.trans {step : σ → ι → Except ε (σ × List ο)} {possible : σ → ι → Prop}
    {kind : ι → Prop} {s s' s'' : σ} (h : Leads step possible kind s s')
    (h' : Leads step possible kind s' s'') : Leads step possible kind s s'' := by
  induction h' with
  | refl => exact h
  | step earlier op hkind hop hstep ih => exact .step ih op hkind hop hstep

/-- What a state leads to, a run that has come to the state can come to. -/
theorem Run.leads {step : σ → ι → Except ε (σ × List ο)} {possible : σ → ι → Prop}
    {kind : ι → Prop} {start s s' : σ} {events : List (Event σ ι ο)}
    (hrun : Run step possible start events s) (h : Leads step possible kind s s') :
    ∃ later, Run step possible start (events ++ later) s' ∧ ∀ e ∈ later, kind e.op := by
  induction h with
  | refl => exact ⟨[], by rw [List.append_nil]; exact hrun, by simp⟩
  | @step s s' outs earlier op hkind hop hstep ih =>
    obtain ⟨later, hlater, hkinds⟩ := ih
    refine ⟨later ++ [⟨s, op, outs, s'⟩], ?_, ?_⟩
    · rw [← List.append_assoc]
      exact .snoc hlater op hop hstep
    · intro e he
      rcases List.mem_append.mp he with he | he
      · exact hkinds e he
      · obtain rfl := List.mem_singleton.mp he
        exact hkind

/-- The events and the last state of a run with these operations, if there is one. -/
def play (step : σ → ι → Except ε (σ × List ο)) (possible : σ → ι → Prop)
    [∀ s op, Decidable (possible s op)] :
    List (Event σ ι ο) → σ → List ι → Option (List (Event σ ι ο) × σ)
  | events, s, [] => some (events, s)
  | events, s, op :: ops =>
      if possible s op then
        match step s op with
        | .ok (s', outs) => play step possible (events ++ [⟨s, op, outs, s'⟩]) s' ops
        | .error _ => none
      else none

theorem Run.of_play {step : σ → ι → Except ε (σ × List ο)} {possible : σ → ι → Prop}
    [∀ s op, Decidable (possible s op)] {start s : σ} {events : List (Event σ ι ο)}
    (hrun : Run step possible start events s) {ops : List ι}
    {result : List (Event σ ι ο) × σ} (h : play step possible events s ops = some result) :
    Run step possible start result.1 result.2 := by
  induction ops generalizing events s with
  | nil =>
    cases h
    exact hrun
  | cons op ops ih =>
    rw [play] at h
    split at h
    · rename_i hop
      split at h
      · rename_i s' outs hstep
        exact ih (.snoc hrun op hop hstep) h
      · cases h
    · cases h

/-- The events of a kind are numbered from 0. -/
theorem exists_countP_take {α : Type} (p : α → Bool) :
    ∀ {l : List α} {n : Nat}, n < l.countP p →
      ∃ i a, l[i]? = some a ∧ p a = true ∧ (l.take i).countP p = n := by
  intro l
  induction l with
  | nil => intro n h; simp at h
  | cons b l ih =>
    intro n h
    by_cases hb : p b = true
    · rw [List.countP_cons_of_pos hb] at h
      cases n with
      | zero => exact ⟨0, b, rfl, hb, rfl⟩
      | succ n =>
        obtain ⟨i, a, hi, ha, hn⟩ := ih (by omega : n < l.countP p)
        refine ⟨i + 1, a, hi, ha, ?_⟩
        rw [List.take_succ_cons, List.countP_cons_of_pos hb, hn]
    · rw [List.countP_cons_of_neg hb] at h
      obtain ⟨i, a, hi, ha, hn⟩ := ih h
      refine ⟨i + 1, a, hi, ha, ?_⟩
      rw [List.take_succ_cons, List.countP_cons_of_neg hb, hn]

/-- What lies at a position of the outputs of all events is one of the outputs of one of them. -/
theorem exists_getElem?_flatMap {α β : Type} {f : α → List β} {b : β} :
    ∀ {l : List α} {k : Nat}, (l.flatMap f)[k]? = some b →
      ∃ i j a, l[i]? = some a ∧ (f a)[j]? = some b ∧ k = ((l.take i).flatMap f).length + j := by
  intro l
  induction l with
  | nil => intro k h; simp at h
  | cons a l ih =>
    intro k h
    rw [List.flatMap_cons] at h
    by_cases hk : k < (f a).length
    · rw [List.getElem?_append_left hk] at h
      exact ⟨0, k, a, rfl, h, by simp⟩
    · rw [List.getElem?_append_right (Nat.le_of_not_lt hk)] at h
      obtain ⟨i, j, a', hi, hj, hk'⟩ := ih h
      refine ⟨i + 1, j, a', hi, hj, ?_⟩
      rw [List.take_succ_cons, List.flatMap_cons, List.length_append]
      omega

/-! ## Tables along a run -/

section Table

variable {κ ν : Type} (table : σ → κ → Option ν) (Opens : Event σ ι ο → κ → ν → Prop)

/-- How a step may change a table: what an event opens is there afterwards, and what is there
afterwards was opened by the event or there before. -/
def Tracks (e : Event σ ι ο) : Prop :=
  (∀ k v, Opens e k v → table e.post k = some v) ∧
    ∀ k v, table e.post k = some v → Opens e k v ∨ table e.pre k = some v

/-- Event `b` opened `k` with the value `v`, and from then to before event `i` the key has kept
this value and was not opened again. -/
def Origin (events : List (Event σ ι ο)) (k : κ) (v : ν) (b i : Nat) : Prop :=
  b < i ∧ (∃ e, events[b]? = some e ∧ Opens e k v) ∧
    ∀ l e, b < l → l < i → events[l]? = some e →
      table e.post k = some v ∧ ∀ v', ¬ Opens e k v'

variable {table Opens} {step : σ → ι → Except ε (σ × List ο)} {possible : σ → ι → Prop}
  {start s : σ} {events : List (Event σ ι ο)} {k : κ} {v : ν}

/-- A key present at the end of a run has an origin in it. -/
theorem Run.exists_origin (hrun : Run step possible start events s)
    (hempty : ∀ k, table start k = none)
    (htracks : ∀ e ∈ events, Tracks table Opens e) (hk : table s k = some v) :
    ∃ b, Origin table Opens events k v b events.length := by
  induction hrun generalizing v with
  | nil =>
    rw [hempty] at hk
    cases hk
  | @snoc events s s' outs earlier op hop hs ih =>
    have hlast : (events ++ [⟨s, op, outs, s'⟩])[events.length]? = some ⟨s, op, outs, s'⟩ := by
      simp
    have hlen : (events ++ [(⟨s, op, outs, s'⟩ : Event σ ι ο)]).length = events.length + 1 := by
      simp
    obtain ⟨hopens, hkept⟩ := htracks _ (List.mem_of_getElem? hlast)
    rw [hlen]
    -- either the last event opened the key, or its origin is the one it had before
    by_cases hnew : ∃ v', Opens ⟨s, op, outs, s'⟩ k v'
    · obtain ⟨v', hv'⟩ := hnew
      have hvv : v' = v := by
        have h := hopens k v' hv'
        rw [show s' = (⟨s, op, outs, s'⟩ : Event σ ι ο).post from rfl] at hk
        rw [h] at hk
        exact Option.some.inj hk
      subst hvv
      refine ⟨events.length, Nat.lt_succ_self _, ⟨_, hlast, hv'⟩, ?_⟩
      intro l e hl hl'
      omega
    · have hpre : table s k = some v := by
        rcases hkept k v hk with h | h
        · exact absurd ⟨v, h⟩ hnew
        · exact h
      have htracks' : ∀ e ∈ events, Tracks table Opens e :=
        fun e he => htracks e (List.mem_append_left _ he)
      obtain ⟨b, hb, ⟨e, he, hopen⟩, hbetween⟩ := ih htracks' hpre
      refine ⟨b, Nat.lt_succ_of_lt hb, ⟨e, ?_, hopen⟩, ?_⟩
      · rw [List.getElem?_append_left hb]
        exact he
      · intro l e' hbl hl he'
        rcases Run.getElem?_snoc he' with he' | ⟨rfl, rfl⟩
        · exact hbetween l e' hbl (Run.getElem?_lt he') he'
        · exact ⟨hk, fun v' hv' => hnew ⟨v', hv'⟩⟩

/-- A key present before an event of a run has an origin before it. -/
theorem Run.exists_origin_before (hrun : Run step possible start events s)
    (hempty : ∀ k, table start k = none)
    (htracks : ∀ e ∈ events, Tracks table Opens e) {i : Nat} {e : Event σ ι ο}
    (he : events[i]? = some e) (hk : table e.pre k = some v) :
    ∃ b, Origin table Opens events k v b i := by
  have hlen : (events.take i).length = i := by
    rw [List.length_take, Nat.min_eq_left (Nat.le_of_lt (Run.getElem?_lt he))]
  have htake : ∀ l : Nat, l < i → (events.take i)[l]? = events[l]? := by
    intro l hl
    rw [List.getElem?_take_of_lt hl]
  have htracks' : ∀ e ∈ events.take i, Tracks table Opens e :=
    fun e he => htracks e (List.mem_of_mem_take he)
  obtain ⟨b, hb, ⟨e', he', hopen⟩, hbetween⟩ :=
    (hrun.before he).exists_origin hempty htracks' hk
  rw [hlen] at hb hbetween
  refine ⟨b, hb, ⟨e', ?_, hopen⟩, ?_⟩
  · rw [← htake b hb]
    exact he'
  · intro l e'' hbl hl hl'
    exact hbetween l e'' hbl hl (by rw [htake l hl]; exact hl')

/-- What becomes of an opened key: it lives to the end of the run, or there is an event that
takes it out or opens it anew. -/
theorem Run.lifetime (hrun : Run step possible start events s)
    (htracks : ∀ e ∈ events, Tracks table Opens e) {b : Nat} {e : Event σ ι ο}
    (he : events[b]? = some e) (hopen : Opens e k v) :
    Origin table Opens events k v b events.length ∧ table s k = some v ∨
    ∃ i e', Origin table Opens events k v b i ∧ events[i]? = some e' ∧ table e'.pre k = some v ∧
      (table e'.post k ≠ some v ∨ ∃ v', Opens e' k v') := by
  induction hrun with
  | nil => cases he
  | @snoc events s s' outs earlier op hop hs ih =>
    have hlast : (events ++ [⟨s, op, outs, s'⟩])[events.length]? = some ⟨s, op, outs, s'⟩ := by
      simp
    have hlen : (events ++ [(⟨s, op, outs, s'⟩ : Event σ ι ο)]).length = events.length + 1 := by
      simp
    have htracks' : ∀ e ∈ events, Tracks table Opens e :=
      fun e he => htracks e (List.mem_append_left _ he)
    rw [hlen]
    rcases Run.getElem?_snoc he with he | ⟨rfl, rfl⟩
    · have hold : ∀ {i}, i ≤ events.length → Origin table Opens events k v b i →
          Origin table Opens (events ++ [⟨s, op, outs, s'⟩]) k v b i := by
        rintro i hi ⟨hb, ⟨e, he, hopen⟩, hbetween⟩
        refine ⟨hb, ⟨e, ?_, hopen⟩, ?_⟩
        · rw [List.getElem?_append_left (by omega)]
          exact he
        · intro l e' hbl hli he'
          rw [List.getElem?_append_left (by omega)] at he'
          exact hbetween l e' hbl hli he'
      rcases ih htracks' he with ⟨horigin, halive⟩ | ⟨i, e', horigin, he', hpre, hend⟩
      · by_cases hend : table s' k ≠ some v ∨ ∃ v', Opens ⟨s, op, outs, s'⟩ k v'
        · exact .inr ⟨events.length, _, hold (Nat.le_refl _) horigin, hlast, halive, hend⟩
        · push Not at hend
          refine .inl ⟨?_, hend.1⟩
          obtain ⟨hb, hborn, hbetween⟩ := hold (Nat.le_refl _) horigin
          refine ⟨by omega, hborn, ?_⟩
          intro l e' hbl hl he'
          by_cases hlt : l < events.length
          · exact hbetween l e' hbl hlt he'
          · obtain rfl : l = events.length := by omega
            rw [hlast] at he'
            cases he'
            exact hend
      · have hi : i < events.length := Run.getElem?_lt he'
        refine .inr ⟨i, e', hold (by omega) horigin, ?_, hpre, hend⟩
        rw [List.getElem?_append_left hi]
        exact he'
    · refine .inl ⟨⟨Nat.lt_succ_self _, ⟨_, hlast, hopen⟩, ?_⟩, ?_⟩
      · intro l e' hbl hl
        omega
      · exact (htracks _ (List.mem_of_getElem? hlast)).1 k v hopen

/-- There is only one origin: a second opening would lie after the first. -/
theorem Origin.unique {v' : ν} {b b' i : Nat} (h : Origin table Opens events k v b i)
    (h' : Origin table Opens events k v' b' i) : b = b' := by
  obtain ⟨hb, ⟨e, he, hopen⟩, hbetween⟩ := h
  obtain ⟨hb', ⟨e', he', hopen'⟩, hbetween'⟩ := h'
  rcases Nat.lt_trichotomy b b' with hlt | heq | hgt
  · exact absurd hopen' ((hbetween b' e' hlt hb' he').2 v')
  · exact heq
  · exact absurd hopen ((hbetween' b e hgt hb he).2 v)

/-- Two events that both remove a key of the same origin are one event. -/
theorem Origin.removed_once {b i i' : Nat} {e e' : Event σ ι ο}
    (h : Origin table Opens events k v b i) (h' : Origin table Opens events k v b i')
    (he : events[i]? = some e) (hgone : table e.post k = none)
    (he' : events[i']? = some e') (hgone' : table e'.post k = none) : i = i' := by
  rcases Nat.lt_trichotomy i i' with hlt | heq | hgt
  · have := (h'.2.2 i e h.1 hlt he).1
    rw [hgone] at this
    cases this
  · exact heq
  · have := (h.2.2 i' e' h'.1 hgt he').1
    rw [hgone'] at this
    cases this

end Table

end Misc
