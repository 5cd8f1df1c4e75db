import GsupMapProxy.Misc.Loop

/-!
# The language of a loop

When a turn of `drain` succeeds exactly if an item stands at the front of the input, the loop
succeeds exactly on sequences of items, and does what the items say one after the other. If no
item is the beginning of another, there is only one such sequence for an input.
-/

namespace Misc

variable {ε α σ ι : Type}

/-- A turn reads an item in its wire form off the front, and does to the accumulator what the item
says. -/
structure ReadsItems (step : σ → List α → Except ε (σ × List α)) (wire : ι → List α)
    (act : σ → ι → Except ε σ) : Prop where
  nonempty : ∀ i, wire i ≠ []
  turn : ∀ s xs s' rest,
    step s xs = .ok (s', rest) ↔ ∃ i, xs = wire i ++ rest ∧ act s i = .ok s'

variable {step : σ → List α → Except ε (σ × List α)} {wire : ι → List α}
  {act : σ → ι → Except ε σ}

theorem ReadsItems.consuming (h : ReadsItems step wire act) : Consuming step := by
  intro s x xs s' rest hstep
  obtain ⟨i, heq, -⟩ := (h.turn s (x :: xs) s' rest).mp hstep
  have hlen := congrArg List.length heq
  have hpos := List.length_pos_iff.mpr (h.nonempty i)
  rw [List.length_append, List.length_cons] at hlen
  omega

/-- The loop succeeds exactly on sequences of items. -/
theorem ReadsItems.drain_eq_ok_iff (h : ReadsItems step wire act) {s s' : σ} {xs : List α} :
    drain step s xs = .ok s' ↔
      ∃ items : List ι, xs = items.flatMap wire ∧ items.foldlM act s = .ok s' := by
  constructor
  · -- on the length of what is left, which every turn makes shorter
    induction hlen : xs.length using Nat.strongRecOn generalizing s xs with
    | ind n ih =>
      intro hdrain
      cases xs with
      | nil => exact ⟨[], rfl, hdrain⟩
      | cons x xs =>
        rw [drain_cons h.consuming] at hdrain
        obtain ⟨⟨s₁, rest⟩, hstep, hdrain⟩ := except_bind_eq_ok.mp hdrain
        have hshorter := h.consuming s x xs s₁ rest hstep
        rw [List.length_cons] at hlen
        obtain ⟨i, heq, hact⟩ := (h.turn s (x :: xs) s₁ rest).mp hstep
        obtain ⟨items, rfl, hfold⟩ := ih rest.length (by omega) rfl hdrain
        refine ⟨i :: items, heq, ?_⟩
        rw [List.foldlM_cons, hact]
        exact hfold
  · rintro ⟨items, rfl, hfold⟩
    induction items generalizing s with
    | nil => exact hfold
    | cons i items ih =>
      rw [List.foldlM_cons] at hfold
      obtain ⟨s₁, hact, hfold⟩ := except_bind_eq_ok.mp hfold
      have hstep := (h.turn s (wire i ++ items.flatMap wire) s₁ (items.flatMap wire)).mpr
        ⟨i, rfl, hact⟩
      rw [List.flatMap_cons, drain_append h.consuming (h.nonempty i) _ hstep]
      exact ih hfold

/-- What stands at the front determines the item. -/
def PrefixFree (wire : ι → List α) : Prop :=
  ∀ {i j : ι} {xs ys : List α}, wire i ++ xs = wire j ++ ys → i = j ∧ xs = ys

/-- A sequence of items can be read in one way only. -/
theorem PrefixFree.flatMap_inj (h : PrefixFree wire) (hne : ∀ i, wire i ≠ []) :
    ∀ {items items' : List ι}, items.flatMap wire = items'.flatMap wire → items = items' := by
  intro items
  induction items with
  | nil =>
    intro items' heq
    cases items' with
    | nil => rfl
    | cons j items' =>
      rw [List.flatMap_nil, List.flatMap_cons] at heq
      exact absurd (List.append_eq_nil_iff.mp heq.symm).1 (hne j)
  | cons i items ih =>
    intro items' heq
    cases items' with
    | nil =>
      rw [List.flatMap_nil, List.flatMap_cons] at heq
      exact absurd (List.append_eq_nil_iff.mp heq).1 (hne i)
    | cons j items' =>
      rw [List.flatMap_cons, List.flatMap_cons] at heq
      obtain ⟨rfl, hrest⟩ := h heq
      rw [ih hrest]

end Misc
