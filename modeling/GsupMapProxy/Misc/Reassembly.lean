import GsupMapProxy.Misc.Loop

/-!
# Stream reassembly

A reassembler keeps the input it has not used yet in a buffer. Its `next` returns a frame, asks
for more input or fails, and leaves a buffer behind in each case. `pump` is the loop
`while (auto frame = next()) process(*frame);` over it, and `pump_eq_ok_iff` takes the loop
apart: it ends normally if and only if the reassembler gets to ask for more input and the frames
it yields until then can be processed one after the other.
-/

namespace Misc

variable {α φ σ ε ε' : Type}

/-- A reassembler: what `next` returns on a buffer, and the buffer it leaves. -/
abbrev Next (α φ ε : Type) := List α → Except ε (Option φ) × List α

/-- `fuel` turns of the loop. -/
def pumpFor (next : Next α φ ε) (raise : ε → ε') (process : σ → φ → Except ε' σ) :
    Nat → σ → List α → Except ε' (σ × List α)
  | 0, s, buf => .ok (s, buf)
  | fuel + 1, s, buf =>
      match next buf with
      | (.error e, _) => .error (raise e)
      | (.ok none, rest) => .ok (s, rest)
      | (.ok (some frame), rest) => do
          let s' ← process s frame
          pumpFor next raise process fuel s' rest

/-- The whole loop: a buffer yields at most one frame per element. -/
def pump (next : Next α φ ε) (raise : ε → ε') (process : σ → φ → Except ε' σ) (s : σ)
    (buf : List α) : Except ε' (σ × List α) :=
  pumpFor next raise process (buf.length + 1) s buf

/-- Every frame takes something out of the buffer. -/
def Shrinking (next : Next α φ ε) : Prop :=
  ∀ buf frame rest, next buf = (.ok (some frame), rest) → rest.length < buf.length

/-- The reassembler yields these frames and then asks for more, with this buffer. -/
inductive Yields (next : Next α φ ε) : List α → List φ → List α → Prop
  | wait {buf rest : List α} (h : next buf = (.ok none, rest)) : Yields next buf [] rest
  | frame {buf buf' rest : List α} {frame : φ} {frames : List φ}
      (h : next buf = (.ok (some frame), buf')) (later : Yields next buf' frames rest) :
      Yields next buf (frame :: frames) rest

variable {next : Next α φ ε} {raise : ε → ε'} {process : σ → φ → Except ε' σ}

theorem pumpFor_eq_ok_iff (hnext : Shrinking next) :
    ∀ (fuel : Nat) (s s' : σ) (buf rest : List α), buf.length < fuel →
      (pumpFor next raise process fuel s buf = .ok (s', rest) ↔
        ∃ frames, Yields next buf frames rest ∧ frames.foldlM process s = .ok s') := by
  intro fuel
  induction fuel with
  | zero => intro s s' buf rest hlen; omega
  | succ fuel ih =>
    intro s s' buf rest hlen
    rw [pumpFor]
    split
    · rename_i e buf' hbuf
      constructor
      · intro h; cases h
      · rintro ⟨frames, hyields, -⟩
        cases hyields with
        | wait h => rw [hbuf] at h; cases h
        | frame h later => rw [hbuf] at h; cases h
    · rename_i buf' hbuf
      constructor
      · intro h
        cases h
        exact ⟨[], .wait hbuf, rfl⟩
      · rintro ⟨frames, hyields, hfold⟩
        cases hyields with
        | wait h =>
          rw [hbuf] at h
          cases h
          cases hfold
          rfl
        | frame h later => rw [hbuf] at h; cases h
    · rename_i frame buf' hbuf
      have hshrinks := hnext buf frame buf' hbuf
      constructor
      · intro h
        obtain ⟨s₁, hs₁, h⟩ := except_bind_eq_ok.mp h
        obtain ⟨frames, hyields, hfold⟩ := (ih s₁ s' buf' rest (by omega)).mp h
        refine ⟨frame :: frames, .frame hbuf hyields, ?_⟩
        rw [List.foldlM_cons, hs₁]
        exact hfold
      · rintro ⟨frames, hyields, hfold⟩
        cases hyields with
        | wait h => rw [hbuf] at h; cases h
        | frame h later =>
          rw [hbuf] at h
          cases h
          rw [List.foldlM_cons] at hfold
          obtain ⟨s₁, hs₁, hfold⟩ := except_bind_eq_ok.mp hfold
          rw [hs₁]
          exact (ih s₁ s' buf' rest (by omega)).mpr ⟨_, later, hfold⟩

/-- What it takes for the loop to end normally. -/
theorem pump_eq_ok_iff (hnext : Shrinking next) {s s' : σ} {buf rest : List α} :
    pump next raise process s buf = .ok (s', rest) ↔
      ∃ frames, Yields next buf frames rest ∧ frames.foldlM process s = .ok s' :=
  pumpFor_eq_ok_iff hnext _ _ _ _ _ (Nat.lt_succ_self _)

/-- The loop ends normally if the frames yielded are ones that can be processed, where that does
not depend on what was processed before. -/
theorem pump_ok_iff (raise : ε → ε') (hnext : Shrinking next) {P : φ → Prop}
    (hprocess : ∀ s frame, (∃ s', process s frame = .ok s') ↔ P frame) (s : σ) (buf : List α) :
    (∃ result, pump next raise process s buf = .ok result) ↔
      ∃ frames rest, Yields next buf frames rest ∧ ∀ frame ∈ frames, P frame := by
  constructor
  · rintro ⟨⟨s', rest⟩, h⟩
    obtain ⟨frames, hyields, hfold⟩ := (pump_eq_ok_iff hnext).mp h
    exact ⟨frames, rest, hyields, (foldlM_ok_iff hprocess s frames).mp ⟨s', hfold⟩⟩
  · rintro ⟨frames, rest, hyields, hframes⟩
    obtain ⟨s', hfold⟩ := (foldlM_ok_iff hprocess s frames).mpr hframes
    exact ⟨(s', rest), (pump_eq_ok_iff hnext).mpr ⟨frames, hyields, hfold⟩⟩

end Misc
