import GsupMapProxy.Common.Buffer
import Mathlib.Data.Nat.Bitwise

/-!
# `BufferReader` with its position (`src/common/Buffer.hpp`)

`Common/Buffer.lean` has a reader as the bytes it has not read yet. Here it has its members, and
`size_t` is a 64-bit word, so that `pos_ + n` in `check` can wrap; a read that `check` lets
through and that leaves the span is undefined. `Simulates` says that the two agree.
-/

namespace GsupMapProxy

open Misc

/-- `class BufferReader` (`Buffer.hpp:12-74`). No object is larger than `PTRDIFF_MAX`. The calls
of `check` are recorded in `checks`, which the class does not have. -/
structure Cursor where
  data : Bytes
  pos : UInt64
  checks : List (UInt64 × UInt64) := []
  inside : pos.toNat ≤ data.length
  object : data.length < 2 ^ 63

/-- What a method of the reader does: it returns or fails, and leaves the reader behind. -/
def Reading (α : Type) : Type := Cursor → Except Fault α × Cursor

instance : Monad Reading where
  pure a := fun r => (.ok a, r)
  bind m f := fun r =>
    match m r with
    | (.ok a, r') => f a r'
    | (.error e, r') => (.error e, r')

namespace Cursor

/-- The bytes not read yet. -/
def rest (r : Cursor) : BufferReader := r.data.drop r.pos.toNat

/-- `len_`. -/
def len (r : Cursor) : UInt64 := UInt64.ofNat r.data.length

/-- `pos_ += n`, inside the span. -/
def advance (r : Cursor) (n : UInt64) (h : r.pos.toNat + n.toNat ≤ r.data.length) : Cursor where
  data := r.data
  pos := r.pos + n
  checks := r.checks
  inside := by
    have hobject := r.object
    rw [UInt64.toNat_add, Nat.mod_eq_of_lt (by omega)]
    exact h
  object := r.object

/-- `empty` (`Buffer.hpp:20`). -/
def empty (r : Cursor) : Prop := r.pos ≥ r.len

/-- `check` (`Buffer.hpp:65-68`). -/
def check (n : UInt64) : Reading Unit := fun r =>
  (if r.pos + n > r.len then .error (.thrown pastEnd) else .ok (),
    { r with checks := r.checks ++ [(r.pos, n)] })

/-- `return data_[pos_++]`. -/
def next : Reading UInt8 := fun r =>
  if h : r.pos.toNat + (1 : UInt64).toNat ≤ r.data.length then
    (.ok (r.data.get ⟨r.pos.toNat, h⟩), r.advance 1 h)
  else (.error (.undefined "index past the end"), r)

/-- `Bytes out(data_ + pos_, data_ + pos_ + n); pos_ += n; return out`. -/
def copy (n : UInt64) : Reading Bytes := fun r =>
  if h : r.pos.toNat + n.toNat ≤ r.data.length then
    (.ok ((r.data.drop r.pos.toNat).take n.toNat), r.advance n h)
  else (.error (.undefined "pointer past the end"), r)

/-- `read8` (`Buffer.hpp:29-32`). -/
def read8 : Reading UInt8 := do
  check 1
  next

/-- `readBytes` (`Buffer.hpp:51-56`). -/
def readBytes (n : UInt64) : Reading Bytes := do
  check n
  copy n

end Cursor

/-! ## Agreement with the unread bytes -/

/-- Position and length of a check do not add up to a value that wraps. -/
def Unwrapped (c : UInt64 × UInt64) : Prop := c.2.toNat < 2 ^ 32 ∧ c.1.toNat + c.2.toNat < 2 ^ 64

/-- From `r` on, the method of the reader does what `f` does with the unread bytes, up to how it
gives the result; it reads inside the span, and none of its checks wraps. -/
structure Simulates {α β : Type} (view : α → β) (m : Reading α)
    (f : BufferReader → Except Exn (β × BufferReader)) (r : Cursor) : Prop where
  data : (m r).2.data = r.data
  checks : ∃ more, (m r).2.checks = r.checks ++ more ∧ ∀ c ∈ more, Unwrapped c
  returns : ∀ b rest, f r.rest = .ok (b, rest) →
    ∃ a, (m r).1 = .ok a ∧ view a = b ∧ (m r).2.rest = rest
  throws : ∀ e, f r.rest = .error e → (m r).1 = .error (.thrown e)

namespace Cursor

theorem rest_length (r : Cursor) : r.rest.length = r.data.length - r.pos.toNat := by
  rw [rest, List.length_drop]

theorem len_toNat (r : Cursor) : r.len.toNat = r.data.length := by
  have hobject := r.object
  rw [len, UInt64.toNat_ofNat', Nat.mod_eq_of_lt (by omega)]

theorem empty_iff (r : Cursor) : r.empty ↔ r.rest = [] := by
  rw [empty, ge_iff_le, UInt64.le_iff_toNat_le, len_toNat, rest, List.drop_eq_nil_iff]

theorem advance_pos (r : Cursor) {n : UInt64} (h : r.pos.toNat + n.toNat ≤ r.data.length) :
    (r.advance n h).pos.toNat = r.pos.toNat + n.toNat := by
  have hobject := r.object
  rw [advance, UInt64.toNat_add, Nat.mod_eq_of_lt (by omega)]

theorem advance_rest (r : Cursor) {n : UInt64} (h : r.pos.toNat + n.toNat ≤ r.data.length) :
    (r.advance n h).rest = r.rest.drop n.toNat := by
  rw [rest, advance_pos, rest, List.drop_drop]
  rfl

/-- Where the position is, from what is left. -/
theorem pos_eq_of_rest {r r' : Cursor} {front : Bytes} (hdata : r'.data = r.data)
    (hrest : r.rest = front ++ r'.rest) : r'.pos.toNat = r.pos.toNat + front.length := by
  have hlen := congrArg List.length hrest
  have hr := r.inside
  have hr' := r'.inside
  rw [List.length_append, rest_length, rest_length, hdata] at hlen
  rw [hdata] at hr'
  omega

/-- A check of fewer than `2 ^ 32` bytes compares what it says it compares. -/
theorem check_eq {n : UInt64} (hn : n.toNat < 2 ^ 32) (r : Cursor) :
    check n r = (if r.rest.length < n.toNat then .error (.thrown pastEnd) else .ok (),
      { r with checks := r.checks ++ [(r.pos, n)] }) := by
  have hinside := r.inside
  have hobject := r.object
  have hcond : r.pos + n > r.len ↔ r.rest.length < n.toNat := by
    rw [gt_iff_lt, UInt64.lt_iff_toNat_lt, len_toNat, UInt64.toNat_add,
      Nat.mod_eq_of_lt (by omega), rest_length]
    omega
  rw [check]
  by_cases h : r.rest.length < n.toNat
  · rw [if_pos h, if_pos (hcond.mpr h)]
  · rw [if_neg h, if_neg (fun h' => h (hcond.mp h'))]

theorem unwrapped_here {n : UInt64} (hn : n.toNat < 2 ^ 32) (r : Cursor) :
    ∀ c ∈ [(r.pos, n)], Unwrapped c := by
  intro c hc
  rw [List.mem_singleton.mp hc]
  have hinside := r.inside
  have hobject := r.object
  exact ⟨hn, by dsimp only; omega⟩

end Cursor

open Cursor

theorem reading_bind_ok {α β : Type} {m : Reading α} {f : α → Reading β} {r : Cursor} {a : α}
    (h : (m r).1 = .ok a) : (m >>= f) r = f a (m r).2 := by
  change (match m r with
    | (.ok a, r') => f a r'
    | (.error e, r') => (.error e, r')) = _
  generalize m r = out at h ⊢
  obtain ⟨result, r'⟩ := out
  dsimp only at h
  rw [h]

theorem reading_bind_error {α β : Type} {m : Reading α} {f : α → Reading β} {r : Cursor}
    {e : Fault} (h : (m r).1 = .error e) : (m >>= f) r = (.error e, (m r).2) := by
  change (match m r with
    | (.ok a, r') => f a r'
    | (.error e, r') => (.error e, r')) = _
  generalize m r = out at h ⊢
  obtain ⟨result, r'⟩ := out
  dsimp only at h
  rw [h]

theorem simulates_pure {α β : Type} {view : α → β} {a : α} {b : β} (h : view a = b) (r : Cursor) :
    Simulates view (pure a) (fun rest => .ok (b, rest)) r where
  data := rfl
  checks := ⟨[], by rw [List.append_nil]; rfl, by simp⟩
  returns := by
    intro b' rest hok
    cases hok
    exact ⟨a, rfl, h, rfl⟩
  throws := by
    intro e herror
    cases herror

/-- One method after the other. -/
theorem Simulates.bind {α β γ δ : Type} {view : α → β} {view' : γ → δ} {m : Reading α}
    {f : BufferReader → Except Exn (β × BufferReader)} {g : α → Reading γ}
    {h : β → BufferReader → Except Exn (δ × BufferReader)} {r : Cursor}
    (hm : Simulates view m f r)
    (hg : ∀ a rest, f r.rest = .ok (view a, rest) → Simulates view' (g a) (h (view a)) (m r).2) :
    Simulates view' (m >>= g) (fun rd => f rd >>= fun p => h p.1 p.2) r := by
  cases hf : f r.rest with
  | error e =>
    have hbind : (m >>= g) r = (.error (.thrown e), (m r).2) := reading_bind_error (hm.throws e hf)
    refine ⟨by rw [hbind]; exact hm.data, by rw [hbind]; exact hm.checks, ?_, ?_⟩
    · intro b rest hok
      rw [hf] at hok
      cases hok
    · intro e' herror
      rw [hf] at herror
      cases herror
      rw [hbind]
  | ok p =>
    obtain ⟨b, rest⟩ := p
    obtain ⟨a, ha, rfl, hrest⟩ := hm.returns b rest hf
    have hlater := hg a rest hf
    have hbind : (m >>= g) r = g a (m r).2 := reading_bind_ok ha
    obtain ⟨more, hmore, hunwrapped⟩ := hm.checks
    obtain ⟨more', hmore', hunwrapped'⟩ := hlater.checks
    refine ⟨?_, ?_, ?_, ?_⟩
    · rw [hbind, hlater.data, hm.data]
    · refine ⟨more ++ more', by rw [hbind, hmore', hmore, List.append_assoc], ?_⟩
      intro c hc
      rcases List.mem_append.mp hc with hc | hc
      · exact hunwrapped c hc
      · exact hunwrapped' c hc
    · intro d rest' hok
      rw [hf, except_ok_bind, ← hrest] at hok
      rw [hbind]
      exact hlater.returns d rest' hok
    · intro e herror
      rw [hf, except_ok_bind, ← hrest] at herror
      rw [hbind]
      exact hlater.throws e herror

/-- A check and a read of as many bytes as it has checked. -/
theorem checked_simulates {α : Type} {n : UInt64} (hn : n.toNat < 2 ^ 32) {m : Reading α}
    {f : BufferReader → Except Exn (α × BufferReader)} {r : Cursor}
    (hthrow : r.rest.length < n.toNat → f r.rest = .error pastEnd)
    (hread : ∀ (r₁ : Cursor) (h : r₁.pos.toNat + n.toNat ≤ r₁.data.length), r₁.rest = r.rest →
      ∃ a, m r₁ = (.ok a, r₁.advance n h) ∧ f r.rest = .ok (a, r.rest.drop n.toNat)) :
    Simulates id (check n >>= fun _ => m) f r := by
  have hcheck := check_eq hn r
  have hunwrapped := unwrapped_here hn r
  generalize hr₁ : ({ r with checks := r.checks ++ [(r.pos, n)] } : Cursor) = r₁ at hcheck
  have hdata : r₁.data = r.data := by rw [← hr₁]
  have hpos : r₁.pos = r.pos := by rw [← hr₁]
  have hchecks : r₁.checks = r.checks ++ [(r.pos, n)] := by rw [← hr₁]
  have hrest : r₁.rest = r.rest := by rw [rest, rest, hdata, hpos]
  by_cases hshort : r.rest.length < n.toNat
  · have hrun : (check n >>= fun _ => m) r = (.error (.thrown pastEnd), r₁) := by
      rw [reading_bind_error (by rw [hcheck, if_pos hshort]), hcheck]
    refine ⟨by rw [hrun, hdata], ⟨_, by rw [hrun, hchecks], hunwrapped⟩, ?_, ?_⟩
    · intro b rest hok
      rw [hthrow hshort] at hok
      cases hok
    · intro e herror
      rw [hthrow hshort] at herror
      cases herror
      rw [hrun]
  · have hroom : r₁.pos.toNat + n.toNat ≤ r₁.data.length := by
      have hinside := r.inside
      rw [r.rest_length] at hshort
      rw [hdata, hpos]
      omega
    obtain ⟨a, hm, hf⟩ := hread r₁ hroom hrest
    have hrun : (check n >>= fun _ => m) r = (.ok a, r₁.advance n hroom) := by
      rw [reading_bind_ok (by rw [hcheck, if_neg hshort]), hcheck, hm]
    refine ⟨by rw [hrun]; exact hdata, ⟨_, by rw [hrun]; exact hchecks, hunwrapped⟩, ?_, ?_⟩
    · intro b rest hok
      rw [hf] at hok
      cases hok
      exact ⟨a, by rw [hrun], rfl, by rw [hrun, advance_rest, hrest]⟩
    · intro e herror
      rw [hf] at herror
      cases herror

theorem read8_simulates (r : Cursor) : Simulates id Cursor.read8 GsupMapProxy.read8 r := by
  have hone : (1 : UInt64).toNat = 1 := rfl
  apply checked_simulates (by decide)
  · intro hshort
    rw [List.length_eq_zero_iff.mp (show r.rest.length = 0 by omega)]
    rfl
  · intro r₁ h hrest
    have hlt : r₁.pos.toNat < r₁.data.length := by omega
    have hcons : r.rest = r₁.data.get ⟨r₁.pos.toNat, hlt⟩ :: r.rest.drop (1 : UInt64).toNat := by
      rw [← hrest, rest, List.drop_drop, List.get_eq_getElem]
      exact List.drop_eq_getElem_cons hlt
    refine ⟨r₁.data.get ⟨r₁.pos.toNat, hlt⟩, ?_, ?_⟩
    · rw [next, dif_pos h]
    · exact read8_eq_ok.mpr hcons

theorem readBytes_simulates {n : UInt64} (hn : n.toNat < 2 ^ 32) (r : Cursor) :
    Simulates id (Cursor.readBytes n) (GsupMapProxy.readBytes n.toNat) r := by
  apply checked_simulates hn
  · intro hshort
    rw [GsupMapProxy.readBytes, if_pos hshort]
  · intro r₁ h hrest
    have hroom : ¬ r.rest.length < n.toNat := by
      have hinside := r₁.inside
      rw [← hrest, r₁.rest_length]
      omega
    refine ⟨r.rest.take n.toNat, ?_, ?_⟩
    · rw [copy, dif_pos h, ← hrest]
      rfl
    · rw [GsupMapProxy.readBytes, if_neg hroom]

end GsupMapProxy
