import Mathlib.Data.Finmap

/-!
# Finite tables

Look-ups after an insertion or an erasure as case distinctions, loops that visit the keys of a
table, steps that touch one entry of a state, and the positions of a filtered list.
-/

namespace Misc

section Finmap

variable {κ ν : Type} [DecidableEq κ] {s : Finmap fun _ : κ => ν} {k k' : κ} {v : ν}

theorem lookup_insert_ite :
    (s.insert k v).lookup k' = if k' = k then some v else s.lookup k' := by
  split
  · rename_i h
    rw [h, Finmap.lookup_insert]
  · rename_i h
    rw [Finmap.lookup_insert_of_ne _ h]

theorem lookup_erase_ite :
    (s.erase k).lookup k' = if k' = k then none else s.lookup k' := by
  split
  · rename_i h
    rw [h, Finmap.lookup_erase]
  · rename_i h
    rw [Finmap.lookup_erase_ne h]

/-- Erasing a key forgets what was stored under it. -/
theorem erase_insert : (s.insert k v).erase k = s.erase k := by
  apply Finmap.ext_lookup
  intro k'
  rw [lookup_erase_ite, lookup_erase_ite]
  split
  · rfl
  · rename_i hne
    rw [Finmap.lookup_insert_of_ne _ hne]

/-- Erasing a key changes the table exactly if the key is there. -/
theorem erase_eq_self_iff : s.erase k = s ↔ k ∉ s := by
  constructor
  · intro h hk
    rw [← h] at hk
    exact absurd hk Finmap.notMem_erase_self
  · intro h
    apply Finmap.ext_lookup
    intro k'
    rw [lookup_erase_ite]
    split
    · rename_i heq
      rw [heq, Finmap.lookup_eq_none.mpr h]
    · rfl

/-- Erasing a key that was not there before its insertion undoes the insertion. -/
theorem erase_insert_of_notMem (h : k ∉ s) : (s.insert k v).erase k = s := by
  rw [erase_insert]
  exact erase_eq_self_iff.mpr h

theorem mem_of_lookup (h : s.lookup k = some v) : k ∈ s := Finmap.mem_of_lookup_eq_some h

end Finmap

/-- Position `j` of the results is the result at position `j` of the arguments that have one. -/
theorem getElem?_filterMap {α β : Type} (f : α → Option β) :
    ∀ (l : List α) (j : Nat),
      (l.filterMap f)[j]? = (l.filter fun a => (f a).isSome)[j]?.bind f := by
  intro l
  induction l with
  | nil => intro j; rfl
  | cons a l ih =>
    intro j
    cases hfa : f a with
    | none =>
      rw [List.filterMap_cons_none hfa, List.filter_cons_of_neg (by simp [hfa]), ih j]
    | some b =>
      rw [List.filterMap_cons_some hfa, List.filter_cons_of_pos (by simp [hfa])]
      cases j with
      | zero => simp [hfa]
      | succ j => simpa using ih j

/-- The results stand beside the arguments that have one. -/
theorem forall₂_filterMap {α β : Type} (f : α → Option β) (l : List α) :
    List.Forall₂ (fun a b => f a = some b) (l.filter fun a => (f a).isSome) (l.filterMap f) := by
  induction l with
  | nil => exact .nil
  | cons a l ih =>
    cases hfa : f a with
    | none =>
      rw [List.filterMap_cons_none hfa, List.filter_cons_of_neg (by simp [hfa])]
      exact ih
    | some b =>
      rw [List.filterMap_cons_some hfa, List.filter_cons_of_pos (by simp [hfa])]
      exact .cons hfa ih

/-! ## Loops over keys -/

section Visit

variable {σ α κ γ ο : Type}

/-- A loop over a list in which a turn may emit something. -/
def visit (turn : σ → α → σ × Option ο) : List α → σ → List ο → σ × List ο
  | [], s, outs => (s, outs)
  | a :: as, s, outs => visit turn as (turn s a).1 (outs ++ (turn s a).2.toList)

/-- The turns of a loop each look at one entry of a table, under a key of their own: what is
emitted depends on that entry, and no other one is changed. -/
structure Keyed (turn : σ → α → σ × Option ο) (key : α → κ) (entry : σ → κ → γ)
    (emit : γ → α → Option ο) (change : γ → α → γ) : Prop where
  emits : ∀ s a, (turn s a).2 = emit (entry s (key a)) a
  changes : ∀ s a, entry (turn s a).1 (key a) = change (entry s (key a)) a
  leaves : ∀ s a k, k ≠ key a → entry (turn s a).1 k = entry s k

variable {turn : σ → α → σ × Option ο} {key : α → κ} {entry : σ → κ → γ}
  {emit : γ → α → Option ο} {change : γ → α → γ}

/-- With every key visited at most once, each turn finds the entry that was there at the start. -/
theorem Keyed.visit_spec (h : Keyed turn key entry emit change) (as : List α) :
    ∀ (s : σ) (outs : List ο), (as.map key).Nodup →
      (visit turn as s outs).2 = outs ++ as.filterMap (fun a => emit (entry s (key a)) a) ∧
      (∀ a ∈ as, entry (visit turn as s outs).1 (key a) = change (entry s (key a)) a) ∧
      ∀ k, k ∉ as.map key → entry (visit turn as s outs).1 k = entry s k := by
  induction as with
  | nil =>
    intro s outs _
    exact ⟨(List.append_nil _).symm, fun a ha => absurd ha List.not_mem_nil, fun k _ => rfl⟩
  | cons a as ih =>
    intro s outs hnodup
    rw [List.map_cons] at hnodup
    obtain ⟨hnot, hnodup⟩ := List.nodup_cons.mp hnodup
    obtain ⟨houts, hvisited, hother⟩ := ih (turn s a).1 (outs ++ (turn s a).2.toList) hnodup
    -- the later turns are about other keys
    have hlater : ∀ a' ∈ as, entry (turn s a).1 (key a') = entry s (key a') := by
      intro a' ha'
      exact h.leaves s a (key a') fun heq => hnot (heq ▸ List.mem_map_of_mem ha')
    refine ⟨?_, ?_, ?_⟩
    · have hsame : as.filterMap (fun a' => emit (entry (turn s a).1 (key a')) a') =
          as.filterMap fun a' => emit (entry s (key a')) a' := by
        apply List.filterMap_congr
        intro a' ha'
        rw [hlater a' ha']
      rw [visit, houts, hsame, h.emits, List.append_assoc, List.filterMap_cons]
      cases emit (entry s (key a)) a <;> rfl
    · intro a' ha'
      rcases List.mem_cons.mp ha' with rfl | ha'
      · rw [visit, hother _ hnot, h.changes]
      · rw [visit, hvisited a' ha', hlater a' ha']
    · intro k hk
      rw [List.map_cons, List.mem_cons, not_or] at hk
      rw [visit, hother k hk.2, h.leaves s a k hk.1]

end Visit

/-! ## Steps on one entry -/

section Local

variable {σ κ ο : Type} {γ : κ → Type}

/-- A step reads and writes one entry of the state: what it emits and what it leaves there depend
on that entry alone, and no other entry is changed. -/
structure Local (entry : σ → (k : κ) → γ k) (k : κ) (f : σ → σ × List ο) : Prop where
  emits : ∀ s s', entry s k = entry s' k → (f s).2 = (f s').2
  changes : ∀ s s', entry s k = entry s' k → entry (f s).1 k = entry (f s').1 k
  leaves : ∀ s k', k' ≠ k → entry (f s).1 k' = entry s k'

variable {entry : σ → (k : κ) → γ k} {k k' : κ} {f g : σ → σ × List ο}

/-- A step on another entry does not change what a step emits. -/
theorem Local.emits_after (hf : Local entry k f) (hg : Local entry k' g) (hne : k ≠ k') (s : σ) :
    (f (g s).1).2 = (f s).2 :=
  hf.emits _ _ (hg.leaves s k hne)

/-- Steps on different entries commute. -/
theorem Local.swap (hf : Local entry k f) (hg : Local entry k' g) (hne : k ≠ k')
    (hext : ∀ s s', (∀ c, entry s c = entry s' c) → s = s') (s : σ) :
    (f (g s).1).1 = (g (f s).1).1 := by
  apply hext
  intro c
  by_cases hk : c = k
  · subst hk
    calc entry (f (g s).1).1 c = entry (f s).1 c := hf.changes _ _ (hg.leaves s c hne)
      _ = entry (g (f s).1).1 c := (hg.leaves _ c hne).symm
  · by_cases hk' : c = k'
    · subst hk'
      calc entry (f (g s).1).1 c = entry (g s).1 c := hf.leaves _ c hk
        _ = entry (g (f s).1).1 c := hg.changes _ _ (hf.leaves s c hk).symm
    · rw [hf.leaves _ c hk, hg.leaves s c hk', hg.leaves _ c hk', hf.leaves s c hk]

end Local

end Misc
