import Mathlib.Data.List.Basic

/-!
# Loops that consume a list

A decoder of the shape `while (!r.empty()) { ... }` reads a prefix of what is left, updates an
accumulator and goes round again; it ends because every turn reads something. `drain` is that
loop, with the input's length as its fuel, over an arbitrary accumulator, element and error
type. `drain_cons` is its unfolding equation, in which the fuel no longer appears, and the
remaining laws say what a turn reads off the front and which properties of the accumulator
survive.
-/

namespace Misc

variable {ε α σ : Type}

/-- A computation that succeeds does so through a successful first part. -/
theorem except_bind_eq_ok {β : Type} {x : Except ε α} {f : α → Except ε β} {b : β} :
    (x >>= f) = .ok b ↔ ∃ a, x = .ok a ∧ f a = .ok b := by
  cases x with
  | error e => constructor
               · intro h; cases h
               · rintro ⟨_, h, _⟩; cases h
  | ok a => constructor
            · intro h; exact ⟨a, rfl, h⟩
            · rintro ⟨_, h, hf⟩; cases h; exact hf

/-- What follows a computation and cannot fail does not matter for its success. -/
theorem except_bind_ok_iff {β : Type} {x : Except ε α} {f : α → β} :
    (∃ b, (x >>= fun a => .ok (f a)) = .ok b) ↔ ∃ a, x = .ok a := by
  constructor
  · rintro ⟨b, h⟩
    obtain ⟨a, ha, -⟩ := except_bind_eq_ok.mp h
    exact ⟨a, ha⟩
  · rintro ⟨a, ha⟩
    exact ⟨f a, except_bind_eq_ok.mpr ⟨a, ha, rfl⟩⟩

@[simp] theorem except_ok_bind {β : Type} (a : α) (f : α → Except ε β) :
    (Except.ok a >>= f) = f a := rfl

@[simp] theorem except_error_bind {β : Type} (e : ε) (f : α → Except ε β) :
    (Except.error e >>= f) = .error e := rfl

@[simp] theorem except_pure (a : α) : (pure a : Except ε α) = .ok a := rfl

theorem except_map_eq_ok {β : Type} {f : α → β} {x : Except ε α} {b : β} :
    x.map f = .ok b ↔ ∃ a, x = .ok a ∧ f a = b := by
  cases x with
  | error e => simp [Except.map]
  | ok a => simp [Except.map]

/-- A loop whose body cannot fail is a plain one. -/
theorem foldlM_ok_eq (f : σ → α → σ) (xs : List α) (s : σ) :
    xs.foldlM (fun s a => (.ok (f s a) : Except ε σ)) s = .ok (xs.foldl f s) :=
  List.foldlM_pure

/-- A loop over a list whose body succeeds or not by the element alone. -/
theorem foldlM_ok_iff {f : σ → α → Except ε σ} {P : α → Prop}
    (hf : ∀ s a, (∃ s', f s a = .ok s') ↔ P a) (s : σ) (xs : List α) :
    (∃ s', xs.foldlM f s = .ok s') ↔ ∀ a ∈ xs, P a := by
  induction xs generalizing s with
  | nil => simp
  | cons a xs ih =>
    simp only [List.foldlM_cons, List.forall_mem_cons]
    constructor
    · rintro ⟨s', h⟩
      obtain ⟨s₁, hs₁, h⟩ := except_bind_eq_ok.mp h
      exact ⟨(hf s a).mp ⟨s₁, hs₁⟩, (ih s₁).mp ⟨s', h⟩⟩
    · rintro ⟨ha, hxs⟩
      obtain ⟨s₁, hs₁⟩ := (hf s a).mpr ha
      rw [hs₁]
      exact (ih s₁).mpr hxs

/-- What every turn of a loop over a list keeps true holds when the loop ends. -/
theorem foldlM_invariant {f : σ → α → Except ε σ} {P : σ → Prop}
    (hf : ∀ s a s', P s → f s a = .ok s' → P s') {xs : List α} :
    ∀ {s s' : σ}, P s → xs.foldlM f s = .ok s' → P s' := by
  induction xs with
  | nil =>
    intro s s' hs h
    cases h
    exact hs
  | cons a xs ih =>
    intro s s' hs h
    rw [List.foldlM_cons] at h
    obtain ⟨s₁, hs₁, h⟩ := except_bind_eq_ok.mp h
    exact ih (hf s a s₁ hs hs₁) h

/-- A loop whose turns all wait for the same computation. -/
theorem mapM_same_eq_ok {β γ : Type} {x : Except ε β} {g : α → β → γ} {xs : List α}
    {ys : List γ} : (xs.mapM fun a => x >>= fun b => pure (g a b)) = .ok ys ↔
      xs = [] ∧ ys = [] ∨ ∃ b, x = .ok b ∧ ys = xs.map (g · b) := by
  cases x with
  | error e =>
    cases xs with
    | nil => simp [eq_comm]
    | cons a xs => simp [List.mapM_cons]
  | ok b =>
    have hmap : (xs.mapM fun a => (Except.ok b : Except ε β) >>= fun b => pure (g a b)) =
        .ok (xs.map (g · b)) := List.mapM_pure
    rw [hmap]
    constructor
    · rintro ⟨⟩
      exact .inr ⟨b, rfl, rfl⟩
    · rintro (⟨rfl, rfl⟩ | ⟨b', ⟨⟩, rfl⟩)
      · rfl
      · rfl

/-- A loop whose turns all move a part of the state as `h` does moves it as a fold of `h`. -/
theorem foldlM_part {τ : Type} {f : σ → α → Except ε σ} {part : σ → τ} {h : τ → α → τ}
    (hf : ∀ s a s', f s a = .ok s' → part s' = h (part s) a) {xs : List α} :
    ∀ {s s' : σ}, xs.foldlM f s = .ok s' → part s' = xs.foldl h (part s) := by
  induction xs with
  | nil =>
    intro s s' hs
    cases hs
    rfl
  | cons a xs ih =>
    intro s s' hs
    rw [List.foldlM_cons] at hs
    obtain ⟨s₁, hs₁, hs⟩ := except_bind_eq_ok.mp hs
    rw [ih hs, hf s a s₁ hs₁, List.foldl_cons]

/-- What relates the states around a turn by what the turn emits, and composes, relates the states
around the loop. -/
theorem foldlM_composes {β : Type} {f : σ → α → Except ε σ} {R : σ → List β → σ → Prop}
    {g : α → List β} (hrefl : ∀ s, R s [] s)
    (htrans : ∀ {s s₁ s' : σ} {bs cs : List β}, R s bs s₁ → R s₁ cs s' → R s (bs ++ cs) s')
    {xs : List α} (hf : ∀ a ∈ xs, ∀ s s', f s a = .ok s' → R s (g a) s') :
    ∀ {s s' : σ}, xs.foldlM f s = .ok s' → R s (xs.flatMap g) s' := by
  induction xs with
  | nil =>
    intro s s' hs
    cases hs
    exact hrefl s
  | cons a xs ih =>
    intro s s' hs
    rw [List.foldlM_cons] at hs
    obtain ⟨s₁, hs₁, hs⟩ := except_bind_eq_ok.mp hs
    rw [List.flatMap_cons]
    refine htrans (hf a List.mem_cons_self s s₁ hs₁) (ih ?_ hs)
    intro b hb
    exact hf b (List.mem_cons_of_mem a hb)

/-- `fuel` turns of the loop: `step` reads from the front and returns what it left unread. -/
def consumeAll (step : σ → List α → Except ε (σ × List α)) :
    Nat → σ → List α → Except ε σ
  | _, s, [] => .ok s
  | 0, s, _ :: _ => .ok s
  | fuel + 1, s, x :: xs => do
      let (s', rest) ← step s (x :: xs)
      consumeAll step fuel s' rest

/-- The loop over the whole input: one turn per element is always enough. -/
def drain (step : σ → List α → Except ε (σ × List α)) (s : σ) (xs : List α) : Except ε σ :=
  consumeAll step xs.length s xs

/-- A turn that succeeds reads at least one element. -/
def Consuming (step : σ → List α → Except ε (σ × List α)) : Prop :=
  ∀ s x xs s' rest, step s (x :: xs) = .ok (s', rest) → rest.length ≤ xs.length

variable {step : σ → List α → Except ε (σ × List α)}

/-- Once the fuel covers the input, more of it changes nothing. -/
theorem consumeAll_eq_drain (hstep : Consuming step) :
    ∀ (fuel : Nat) (s : σ) (xs : List α), xs.length ≤ fuel →
      consumeAll step fuel s xs = drain step s xs := by
  intro fuel
  induction fuel using Nat.strongRecOn with
  | ind fuel ih =>
    intro s xs hlen
    cases xs with
    | nil => simp [drain, consumeAll]
    | cons x xs =>
      obtain ⟨fuel, rfl⟩ : ∃ f, fuel = f + 1 := ⟨fuel - 1, by simp at hlen; omega⟩
      simp only [drain, List.length_cons, consumeAll]
      simp only [List.length_cons] at hlen
      cases hs : step s (x :: xs) with
      | error e => rfl
      | ok p =>
        have hrest := hstep s x xs p.1 p.2 hs
        simp only [except_ok_bind]
        rw [ih fuel (by omega) _ _ (by omega)]
        rcases Nat.lt_or_ge xs.length (fuel + 1) with hlt | hge
        · rw [ih xs.length hlt _ _ hrest]
        · omega

@[simp] theorem drain_nil (s : σ) : drain step s [] = .ok s := rfl

/-- The unfolding equation of the loop. -/
theorem drain_cons (hstep : Consuming step) (s : σ) (x : α) (xs : List α) :
    drain step s (x :: xs) = (step s (x :: xs) >>= fun p => drain step p.1 p.2) := by
  rw [drain, List.length_cons, consumeAll]
  cases hs : step s (x :: xs) with
  | error e => rfl
  | ok p =>
    simp only [except_ok_bind]
    exact consumeAll_eq_drain hstep _ _ _ (hstep s x xs p.1 p.2 hs)

/-- A non-empty piece that one turn reads off the front is read off the front. -/
theorem drain_append (hstep : Consuming step) {s s' : σ} {piece : List α} (hne : piece ≠ [])
    (rest : List α) (h : step s (piece ++ rest) = .ok (s', rest)) :
    drain step s (piece ++ rest) = drain step s' rest := by
  obtain ⟨x, piece, rfl⟩ := List.exists_cons_of_ne_nil hne
  rw [List.cons_append, drain_cons hstep]
  rw [List.cons_append] at h
  rw [h, except_ok_bind]

/-- What every turn keeps true of the accumulator holds when the loop ends. -/
theorem drain_invariant (hstep : Consuming step) (P : σ → Prop)
    (hP : ∀ s xs s' rest, P s → step s xs = .ok (s', rest) → P s') :
    ∀ (n : Nat) (xs : List α) (s s' : σ), xs.length ≤ n → P s → drain step s xs = .ok s' →
      P s' := by
  intro n
  induction n with
  | zero =>
    intro xs s s' hlen hs h
    obtain rfl : xs = [] := List.length_eq_zero_iff.mp (by omega)
    cases h
    exact hs
  | succ n ih =>
    intro xs s s' hlen hs h
    cases xs with
    | nil => cases h; exact hs
    | cons x xs =>
      rw [drain_cons hstep, except_bind_eq_ok] at h
      obtain ⟨p, hp, hrec⟩ := h
      have hrest := hstep s x xs p.1 p.2 hp
      simp only [List.length_cons] at hlen
      exact ih p.2 p.1 s' (by omega) (hP _ _ _ _ hs hp) hrec

end Misc
