import Mathlib.Data.List.Perm.Subperm

/-!
# Proactors

A proactor is given operations. Each completes exactly once, some time later, and its completion
handler is then ready to run; handlers run one at a time, in any order. Cancelling makes
operations that have not completed yet complete at once with a result of its own, and leaves the
handlers that are ready alone.

Invariants of a program over a proactor speak of its pending work through a `view`: the list of
what concerns them, in no particular order. The laws say what each operation of the proactor does
to a view.
-/

namespace Misc

open scoped List

/-- An operation that has not completed, or a handler that is ready to run. -/
inductive Pending (ω κ : Type) where
  | running (op : ω)
  | ready (handler : κ)
  deriving DecidableEq, Repr

/-- All that is pending. -/
abbrev Proactor (ω κ : Type) := List (Pending ω κ)

namespace Proactor

variable {ω κ γ : Type}

def begin (p : Proactor ω κ) (op : ω) : Proactor ω κ := p ++ [.running op]

def post (p : Proactor ω κ) (handler : κ) : Proactor ω κ := p ++ [.ready handler]

/-- A running operation completes. -/
def finish [DecidableEq ω] [DecidableEq κ] (p : Proactor ω κ) (op : ω) (handler : κ) :
    Proactor ω κ :=
  p.erase (.running op) ++ [.ready handler]

/-- A ready handler is taken out, to be run. -/
def take [DecidableEq ω] [DecidableEq κ] (p : Proactor ω κ) (handler : κ) : Proactor ω κ :=
  p.erase (.ready handler)

/-- What cancelling makes of a piece of pending work. -/
def aborted (abort : ω → Option κ) : Pending ω κ → Pending ω κ
  | .running op => ((abort op).map .ready).getD (.running op)
  | .ready handler => .ready handler

/-- The running operations `abort` speaks of complete, with the result it gives. -/
def cancel (abort : ω → Option κ) (p : Proactor ω κ) : Proactor ω κ := p.map (aborted abort)

/-- What is pending, as seen through `v`. -/
def view (v : Pending ω κ → Option γ) (p : Proactor ω κ) : List γ := p.filterMap v

variable {v : Pending ω κ → Option γ} {p : Proactor ω κ}

theorem mem_view {x : γ} : x ∈ p.view v ↔ ∃ item ∈ p, v item = some x := List.mem_filterMap

/-- A view that sees less. -/
theorem view_sublist {w : Pending ω κ → Option γ} (h : ∀ item, v item = none ∨ v item = w item) :
    p.view v <+ p.view w := by
  induction p with
  | nil => exact List.Sublist.refl _
  | cons item p ih =>
    simp only [view, List.filterMap_cons] at ih ⊢
    rcases h item with hitem | hitem
    · rw [hitem]
      cases w item with
      | none => exact ih
      | some x => exact ih.cons x
    · rw [hitem]
      cases w item with
      | none => exact ih
      | some x => exact ih.cons_cons x

@[simp] theorem view_begin (op : ω) :
    (p.begin op).view v = p.view v ++ (v (.running op)).toList := by
  rw [begin, view, List.filterMap_append, ← view]
  cases h : v (.running op) <;> simp [h]

@[simp] theorem view_post (handler : κ) :
    (p.post handler).view v = p.view v ++ (v (.ready handler)).toList := by
  rw [post, view, List.filterMap_append, ← view]
  cases h : v (.ready handler) <;> simp [h]

section Erase

variable [DecidableEq ω] [DecidableEq κ]

theorem perm_view_erase {item : Pending ω κ} (h : item ∈ p) :
    p.view v ~ (v item).toList ++ (p.erase item).filterMap v := by
  have hperm : p.view v ~ (item :: p.erase item).filterMap v :=
    (List.perm_cons_erase h).filterMap v
  rw [List.filterMap_cons] at hperm
  cases hv : v item with
  | none =>
    rw [hv] at hperm
    exact hperm
  | some x =>
    rw [hv] at hperm
    exact hperm

/-- Taking a handler out takes out what was seen of it. -/
theorem perm_view_take {handler : κ} (h : .ready handler ∈ p) :
    p.view v ~ (v (.ready handler)).toList ++ (p.take handler).view v :=
  perm_view_erase h

/-- Completing changes what is seen of the operation, and nothing else. -/
theorem perm_view_finish {op : ω} (h : .running op ∈ p) (handler : κ) :
    ∃ rest, p.view v ~ (v (.running op)).toList ++ rest ∧
      (p.finish op handler).view v ~ (v (.ready handler)).toList ++ rest := by
  refine ⟨(p.erase (.running op)).filterMap v, perm_view_erase h, ?_⟩
  have hpost : (p.finish op handler).view v =
      view v (p.erase (.running op)) ++ (v (.ready handler)).toList := view_post handler
  rw [hpost]
  exact List.perm_append_comm

/-- An operation that completes as something no more visible than it was adds nothing. -/
theorem view_finish_subperm {op : ω} {handler : κ} (h : .running op ∈ p)
    (hv : v (.ready handler) = none ∨ v (.ready handler) = v (.running op)) :
    (p.finish op handler).view v <+~ p.view v := by
  obtain ⟨rest, hbefore, hafter⟩ := perm_view_finish (v := v) h handler
  have hrest : (v (.ready handler)).toList ++ rest <+~ (v (.running op)).toList ++ rest := by
    rcases hv with hv | hv
    · rw [hv]
      exact (List.sublist_append_right _ _).subperm
    · rw [hv]
  exact hafter.subperm.trans (hrest.trans hbefore.symm.subperm)

theorem view_take_subperm {handler : κ} (h : .ready handler ∈ p) :
    (p.take handler).view v <+~ p.view v :=
  (List.sublist_append_right _ _).subperm.trans (perm_view_take h).symm.subperm

end Erase

/-! ## Cancelling -/

variable {abort : ω → Option κ}

theorem view_cancel : (p.cancel abort).view v = p.view (v ∘ aborted abort) := by
  rw [view, cancel, List.filterMap_map, view]

/-- What cancelling leaves as visible as it was is seen as before. -/
theorem view_cancel_eq
    (h : ∀ op handler, abort op = some handler → v (.ready handler) = v (.running op)) :
    (p.cancel abort).view v = p.view v := by
  have hsame : v ∘ aborted abort = v := by
    funext item
    cases item with
    | ready handler => rfl
    | running op =>
      cases habort : abort op with
      | none => simp [aborted, habort]
      | some handler => simp [aborted, habort, h op handler habort]
  rw [view_cancel, hsame]

/-! ## Views that tell apart

A view through which pending work can be told apart is a proactor in its own right. -/

section Apart

variable {ω' κ' : Type} {w : Pending ω κ → Option (Pending ω' κ')} {item : Pending ω κ}

theorem view_cancel_eq_cancel {abort : ω → Option κ} {abort' : ω' → Option κ'}
    (h : ∀ item, w (aborted abort item) = (w item).map (aborted abort')) :
    (p.cancel abort).view w = Proactor.cancel abort' (p.view w) := by
  rw [view_cancel, cancel, view, view, List.map_filterMap]
  congr 1
  funext item
  exact h item

theorem view_erase_none [DecidableEq ω] [DecidableEq κ] (h : w item = none) :
    view w (p.erase item) = p.view w := by
  induction p with
  | nil => rfl
  | cons other p ih =>
    by_cases heq : other = item
    · subst heq
      simp [view, h]
    · rw [List.erase_cons_tail (by simpa using heq)]
      simp only [view, List.filterMap_cons] at ih ⊢
      rw [ih]

theorem view_erase [DecidableEq ω] [DecidableEq κ] [DecidableEq ω'] [DecidableEq κ']
    {x : Pending ω' κ'} (h : w item = some x) (hinj : ∀ other, w other = some x → other = item) :
    view w (p.erase item) = (p.view w).erase x := by
  induction p with
  | nil => rfl
  | cons other p ih =>
    by_cases heq : other = item
    · subst heq
      simp [view, h]
    · rw [List.erase_cons_tail (by simpa using heq)]
      simp only [view, List.filterMap_cons] at ih ⊢
      cases hother : w other with
      | none => exact ih
      | some y =>
        have hne : y ≠ x := by
          rintro rfl
          exact heq (hinj other hother)
        dsimp only
        rw [List.erase_cons_tail (by simpa using hne), ih]

end Apart

end Proactor

end Misc
