import GsupMapProxy.Misc.Reassembly

/-!
# Streams in chunks

What comes in through a socket is a stream cut into chunks anywhere. `reassemble` feeds the
chunks to a reassembler one after the other and takes out its frames after each. A reassembler
that is `Incremental` never changes its mind when more input arrives, and for such a one the cuts
do not matter. One that is not may still be exact on streams of well-formed frames; for it there
is `reassemble_wire`.
-/

namespace Misc

variable {α φ ε : Type}

/-- At most `fuel` turns of the loop `while (auto frame = next()) frames.push_back(*frame);`: the
frames, and the buffer left when `next` asks for more, or what it threw. -/
def collectFor (next : Next α φ ε) : Nat → List α → List φ × Except ε (List α)
  | 0, buf => ([], .ok buf)
  | fuel + 1, buf =>
      match next buf with
      | (.error e, _) => ([], .error e)
      | (.ok none, rest) => ([], .ok rest)
      | (.ok (some frame), rest) =>
          (frame :: (collectFor next fuel rest).1, (collectFor next fuel rest).2)

/-- The whole loop. -/
def collect (next : Next α φ ε) (buf : List α) : List φ × Except ε (List α) :=
  collectFor next (buf.length + 1) buf

/-- One loop after another, unless the first one throws. -/
def andThen (first : List φ × Except ε (List α)) (later : List α → List φ × Except ε (List α)) :
    List φ × Except ε (List α) :=
  match first with
  | (frames, .error e) => (frames, .error e)
  | (frames, .ok rest) => (frames ++ (later rest).1, (later rest).2)

/-- Feeding chunks, with a loop after each, up to the first exception. -/
def reassemble (next : Next α φ ε) : List α → List (List α) → List φ × Except ε (List α)
  | buf, [] => ([], .ok buf)
  | buf, chunk :: chunks =>
      andThen (collect next (buf ++ chunk)) fun rest => reassemble next rest chunks

/-- More input only ever adds to what `next` leaves in the buffer, and asking for more leaves the
buffer alone. -/
structure Incremental (next : Next α φ ε) : Prop where
  wait : ∀ buf rest, next buf = (.ok none, rest) → rest = buf
  frame : ∀ buf frame rest more, next buf = (.ok (some frame), rest) →
    next (buf ++ more) = (.ok (some frame), rest ++ more)
  error : ∀ buf e rest more, next buf = (.error e, rest) → (next (buf ++ more)).1 = .error e

variable {next : Next α φ ε} {buf rest : List α}

/-! ## One loop -/

/-- Fuel beyond the length of the buffer changes nothing. -/
theorem collectFor_eq_collect (hnext : Shrinking next) :
    ∀ (fuel : Nat) (buf : List α), buf.length < fuel →
      collectFor next fuel buf = collect next buf := by
  intro fuel
  induction fuel using Nat.strongRecOn with
  | ind fuel ih =>
    intro buf hlen
    obtain ⟨fuel, rfl⟩ : ∃ f, fuel = f + 1 := ⟨fuel - 1, by omega⟩
    rw [collect, collectFor, collectFor]
    split
    · rfl
    · rfl
    · rename_i frame rest hframe
      have hshorter := hnext buf frame rest hframe
      by_cases heq : fuel = buf.length
      · rw [heq]
      · rw [ih fuel (Nat.lt_succ_self _) rest (by omega), ih buf.length (by omega) rest hshorter]

theorem collect_error {e : ε} (h : (next buf).1 = .error e) :
    collect next buf = ([], .error e) := by
  rw [collect, collectFor, show next buf = (.error e, (next buf).2) from Prod.ext h rfl]

theorem collect_wait (h : next buf = (.ok none, rest)) : collect next buf = ([], .ok rest) := by
  rw [collect, collectFor, h]

theorem collect_frame (hnext : Shrinking next) {frame : φ}
    (h : next buf = (.ok (some frame), rest)) :
    collect next buf = (frame :: (collect next rest).1, (collect next rest).2) := by
  have hshorter := hnext buf frame rest h
  rw [collect, collectFor, h]
  dsimp only
  rw [collectFor_eq_collect hnext _ _ hshorter]

theorem collect_of_yields (hnext : Shrinking next) {frames : List φ}
    (h : Yields next buf frames rest) : collect next buf = (frames, .ok rest) := by
  induction h with
  | wait h => exact collect_wait h
  | frame h later ih => rw [collect_frame hnext h, ih]

/-- A loop that ends by asking for more is one that yields what it has collected. -/
theorem yields_of_collect (hnext : Shrinking next) {frames : List φ}
    (h : collect next buf = (frames, .ok rest)) : Yields next buf frames rest := by
  induction hn : buf.length using Nat.strongRecOn generalizing buf frames with
  | ind n ih =>
    obtain ⟨result, buf', hbuf⟩ : ∃ result buf', next buf = (result, buf') := ⟨_, _, rfl⟩
    cases result with
    | error e =>
      rw [collect_error (by rw [hbuf])] at h
      cases h
    | ok result =>
      cases result with
      | none =>
        rw [collect_wait hbuf] at h
        cases h
        exact .wait hbuf
      | some frame =>
        rw [collect_frame hnext hbuf] at h
        obtain ⟨rfl, hrest⟩ := Prod.mk.inj h
        have hshorter := hnext buf frame buf' hbuf
        exact .frame hbuf (ih buf'.length (by omega) (Prod.ext rfl hrest) rfl)

/-! ## Cuts that do not matter -/

/-- A loop over a longer buffer starts as the loop over the shorter one. -/
theorem collect_append (hnext : Shrinking next) (hinc : Incremental next) (x y : List α) :
    collect next (x ++ y) = andThen (collect next x) fun rest => collect next (rest ++ y) := by
  induction hn : x.length using Nat.strongRecOn generalizing x with
  | ind n ih =>
    obtain ⟨result, x', hx⟩ : ∃ result x', next x = (result, x') := ⟨_, _, rfl⟩
    cases result with
    | error e =>
      rw [collect_error (hinc.error x e x' y hx), collect_error (by rw [hx]), andThen]
    | ok result =>
      cases result with
      | none =>
        obtain rfl := hinc.wait x x' hx
        rw [collect_wait hx, andThen, List.nil_append]
      | some frame =>
        have hshorter := hnext x frame x' hx
        rw [collect_frame hnext (hinc.frame x frame x' y hx), collect_frame hnext hx,
          ih x'.length (by omega) x' rfl]
        obtain ⟨frames, outcome⟩ := collect next x'
        cases outcome with
        | error e => rfl
        | ok rest => rfl

/-- What is left in the buffer is something `next` waits on. -/
theorem Yields.waits (hinc : Incremental next) {frames : List φ}
    (h : Yields next buf frames rest) : next rest = (.ok none, rest) := by
  induction h with
  | wait h =>
    obtain rfl := hinc.wait _ _ h
    exact h
  | frame h later ih => exact ih

/-- What holds of every frame the reassembler can return holds of those it yields. -/
theorem Yields.forall {P : φ → Prop}
    (hframe : ∀ buf frame rest, next buf = (.ok (some frame), rest) → P frame) {frames : List φ}
    (h : Yields next buf frames rest) : ∀ frame ∈ frames, P frame := by
  induction h with
  | wait h => simp
  | frame h later ih =>
    intro frame hmem
    rcases List.mem_cons.mp hmem with rfl | hmem
    · exact hframe _ _ _ h
    · exact ih frame hmem

/-- What a buffer yields does not change when more input arrives, which is then taken up where it
was left. -/
theorem Yields.append (hinc : Incremental next) {frames frames' : List φ} {more rest' : List α}
    (h : Yields next buf frames rest) (h' : Yields next (rest ++ more) frames' rest') :
    Yields next (buf ++ more) (frames ++ frames') rest' := by
  induction h with
  | wait h =>
    obtain rfl := hinc.wait _ _ h
    exact h'
  | frame h later ih => exact .frame (hinc.frame _ _ _ more h) (ih h')

/-- Chunk by chunk or all at once: the frames and the end are the same. -/
theorem reassemble_eq_collect (hnext : Shrinking next) (hinc : Incremental next)
    (chunks : List (List α)) :
    ∀ buf, next buf = (.ok none, buf) →
      reassemble next buf chunks = collect next (buf ++ chunks.flatten) := by
  induction chunks with
  | nil =>
    intro buf hwait
    rw [reassemble, List.flatten_nil, List.append_nil, collect_wait hwait]
  | cons chunk chunks ih =>
    intro buf _
    rw [reassemble, List.flatten_cons, ← List.append_assoc,
      collect_append hnext hinc (buf ++ chunk)]
    cases hcollect : collect next (buf ++ chunk) with
    | mk frames outcome =>
      cases outcome with
      | error e => rfl
      | ok rest =>
        rw [andThen, andThen, ih rest ((yields_of_collect hnext hcollect).waits hinc)]

/-! ## Streams of well-formed frames -/

section Wire

variable {wire : φ → List α} {P : φ → Prop}

/-- A prefix of a stream of frames is a number of whole ones and a part the reassembler waits
on. -/
theorem exists_whole_frames (hempty : next [] = (.ok none, []))
    (hpart : ∀ frame, P frame → ∀ part more, more ≠ [] → part ++ more = wire frame →
      next part = (.ok none, part)) (frames : List φ) (hframes : ∀ f ∈ frames, P f) :
    ∀ start more, start ++ more = frames.flatMap wire →
      ∃ whole later part, frames = whole ++ later ∧ start = whole.flatMap wire ++ part ∧
        next part = (.ok none, part) ∧ part ++ more = later.flatMap wire := by
  induction frames with
  | nil =>
    intro start more h
    obtain ⟨rfl, rfl⟩ := List.append_eq_nil_iff.mp h
    exact ⟨[], [], [], rfl, rfl, hempty, rfl⟩
  | cons frame frames ih =>
    intro start more h
    rw [List.flatMap_cons] at h
    rcases List.append_eq_append_iff.mp h with ⟨mid, hwire, hmore⟩ | ⟨mid, hstart, hmid⟩
    · -- the cut is inside the first frame, or right behind it
      by_cases hnil : mid = []
      · subst hnil
        rw [List.append_nil] at hwire
        refine ⟨[frame], frames, [], rfl, by simp [hwire], hempty, ?_⟩
        rw [hmore]
        rfl
      · refine ⟨[], frame :: frames, start, rfl, rfl,
          hpart frame (hframes frame (by simp)) start mid hnil hwire.symm, ?_⟩
        rw [List.flatMap_cons, h]
    · obtain ⟨whole, later, part, rfl, rfl, hwait, hrest⟩ :=
        ih (fun f hf => hframes f (by simp [hf])) mid more hmid.symm
      refine ⟨frame :: whole, later, part, rfl, ?_, hwait, hrest⟩
      rw [hstart, List.flatMap_cons, List.append_assoc]

theorem yields_frames
    (hframe : ∀ frame, P frame → ∀ rest, next (wire frame ++ rest) = (.ok (some frame), rest))
    {part : List α} (hwait : next part = (.ok none, part)) (frames : List φ)
    (hframes : ∀ f ∈ frames, P f) : Yields next (frames.flatMap wire ++ part) frames part := by
  induction frames with
  | nil => exact .wait hwait
  | cons frame frames ih =>
    rw [List.flatMap_cons, List.append_assoc]
    exact .frame (hframe frame (hframes frame (by simp)) _)
      (ih fun f hf => hframes f (by simp [hf]))

/-- However a stream of frames is cut, these frames come out, and nothing is left over. -/
theorem reassemble_wire (hnext : Shrinking next) (hempty : next [] = (.ok none, []))
    (hframe : ∀ frame, P frame → ∀ rest, next (wire frame ++ rest) = (.ok (some frame), rest))
    (hpart : ∀ frame, P frame → ∀ part more, more ≠ [] → part ++ more = wire frame →
      next part = (.ok none, part)) (chunks : List (List α)) :
    ∀ (frames : List φ) (buf : List α), (∀ f ∈ frames, P f) → next buf = (.ok none, buf) →
      buf ++ chunks.flatten = frames.flatMap wire →
      reassemble next buf chunks = (frames, .ok []) := by
  induction chunks with
  | nil =>
    intro frames buf hframes hwait hstream
    rw [List.flatten_nil, List.append_nil] at hstream
    cases frames with
    | nil =>
      rw [reassemble, hstream]
      rfl
    | cons frame frames =>
      -- a whole frame is in the buffer, so the reassembler would not be waiting
      rw [hstream, List.flatMap_cons, hframe frame (hframes frame (by simp))] at hwait
      cases hwait
  | cons chunk chunks ih =>
    intro frames buf hframes hwait hstream
    rw [List.flatten_cons, ← List.append_assoc] at hstream
    obtain ⟨whole, later, part, rfl, hstart, hpartial, hrest⟩ :=
      exists_whole_frames hempty hpart frames hframes (buf ++ chunk) chunks.flatten hstream
    have hwhole : Yields next (whole.flatMap wire ++ part) whole part :=
      yields_frames hframe hpartial whole fun f hf => hframes f (by simp [hf])
    rw [reassemble, hstart, collect_of_yields hnext hwhole, andThen,
      ih later part (fun f hf => hframes f (by simp [hf])) hpartial hrest]

end Wire

end Misc
