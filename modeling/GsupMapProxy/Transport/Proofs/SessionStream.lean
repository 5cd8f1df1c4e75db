import GsupMapProxy.Transport.Proofs.Reads
import GsupMapProxy.Transport.Proofs.SessionWrites

/-!
# What a session makes of the stream it reads

The frames a session reads are those of the stream, however it is cut, and its state after them
depends on whether there was an ID_RESP. So the GSUP frames behind the first one are delivered, and
every ID_RESP and every PING is answered.
-/

namespace GsupMapProxy.Transport

open Misc Ipa IpaSession

open scoped List

namespace SessionLink

/-- The chunks read, one behind the other. -/
def chunks (events : List SessionEvent) : List Bytes := events.flatMap fun e => e.op.chunks

/-- The frames read. -/
def allFrames (events : List SessionEvent) : List IpaFrame :=
  events.flatMap fun e => e.pre.framesRead e.op

theorem chunks_snoc (events : List SessionEvent) (e : SessionEvent) :
    chunks (events ++ [e]) = chunks events ++ e.op.chunks := by
  rw [chunks, List.flatMap_append, List.flatMap_singleton, ← chunks]

theorem allFrames_snoc (events : List SessionEvent) (e : SessionEvent) :
    allFrames (events ++ [e]) = allFrames events ++ e.pre.framesRead e.op := by
  rw [allFrames, List.flatMap_append, List.flatMap_singleton, ← allFrames]

/-- The payloads passed to `onGsup_`. -/
def delivered (events : List SessionEvent) : List Bytes :=
  (events.flatMap Event.outs).filterMap SessionCall.gsup?

/-- The session has not stopped so far. -/
def NeverStopped (events : List SessionEvent) : Prop :=
  ∀ e ∈ events, e.post.session.state ≠ .stopped

/-! ## Deliveries -/

/-- The session is where the frames of the stream have taken it. -/
structure Follows (events : List SessionEvent) (s : SessionLink) : Prop where
  yields : Yields IpaDecoder.next (chunks events).flatten (allFrames events) s.session.decoder
  state : s.session.state = stateAfter .handshaking (allFrames events)
  delivered : delivered events = delivers .handshaking (allFrames events)

variable {s s' : SessionLink} {op : SessionInput} {outs : List SessionCall}
  {events : List SessionEvent} {clientId : ClientId}

theorem step_follows (hinv : Follows events s) (h : step s op = .ok (s', outs))
    (hstopped : s'.session.state ≠ .stopped) :
    Follows (events ++ [⟨s, op, outs, s'⟩]) s' := by
  have hturn := step_turn h
  have htells : Tells s.session s'.session outs (s.framesRead op) := by
    rcases hturn.tells_or_ceases with ⟨-, htells⟩ | ⟨-, hceases⟩
    · exact htells
    · exact absurd hceases.quiet.1 hstopped
  refine ⟨?_, ?_, ?_⟩
  · rw [allFrames_snoc, chunks_snoc, List.flatten_append]
    exact hinv.yields.append next_incremental (hturn.yields (hinv.yields.waits next_incremental))
  · rw [allFrames_snoc, htells.state, hinv.state, stateAfter_append]
  · rw [allFrames_snoc, SessionLink.delivered, List.flatMap_append, List.filterMap_append,
      ← SessionLink.delivered, hinv.delivered, List.flatMap_singleton, htells.delivered, hinv.state,
      delivers_append]

theorem run_follows (hrun : SessionRun clientId events s) (hstopped : NeverStopped events) :
    Follows events s := by
  refine hrun.history (I := Follows) hstopped ?_ ?_
  · exact ⟨.wait rfl, rfl, (delivers_nil _).symm⟩
  · intro events s op outs s' hinv _ hstep hstopped
    exact step_follows hinv hstep hstopped

/-- The frames read are those of the stream. -/
theorem frames_unique {frames : List IpaFrame} (hinv : Follows events s)
    (hfits : ∀ f ∈ frames, f.Fits)
    (hstream : (chunks events).flatten = frames.flatMap IpaFrame.wire) :
    allFrames events = frames := by
  have hyields : Yields IpaDecoder.next (chunks events).flatten frames [] :=
    yields_iff.mpr ⟨by rw [hstream, List.append_nil], hfits, .header (by decide)⟩
  have hcollect := collect_of_yields next_shrinking hyields
  rw [collect_of_yields next_shrinking hinv.yields] at hcollect
  exact congrArg Prod.fst hcollect

/-! ## Answers -/

/-- The frame is one of the CCM stream. -/
def carriesCcm (frame : Bytes) : Bool := frame[2]? = some kStreamCcm

theorem reply_carriesCcm {frame : IpaFrame} {reply : Bytes} (h : reply? frame = some reply) :
    carriesCcm reply = true := by
  unfold reply? at h
  split at h
  · cases h
    rfl
  · split at h
    · cases h
      rfl
    · cases h

theorem sendGsup_carries {payload frame : Bytes} (h : IpaSession.sendGsup payload = .ok frame) :
    carriesCcm frame = false := by
  unfold IpaSession.sendGsup Ipa.encode at h
  split at h
  · cases h
  · cases h
    rfl

@[simp] theorem beginOnSocket_started (s : SessionLink) (op : SessionOp) :
    (s.beginOnSocket op).started = s.started := by
  unfold beginOnSocket
  split <;> rfl

theorem performs_started (calls : List SessionCall) :
    ∀ s : SessionLink, (calls.foldl perform s).started = s.started := by
  induction calls with
  | nil => intro s; rfl
  | cons call calls ih =>
    intro s
    rw [List.foldl_cons, ih]
    cases call with
    | asyncRead => exact s.beginOnSocket_started .read
    | asyncWrite frame => exact s.beginOnSocket_started (.write frame)
    | _ => rfl

theorem step_started (h : step s op = .ok (s', outs)) :
    s'.started = true ↔ s.started = true ∨ op = .start := by
  cases op with
  | start =>
    obtain ⟨⟨t', calls⟩, -, h⟩ := except_bind_eq_ok.mp h
    cases h
    rw [after, performs_started]
    simp
  | stop =>
    cases h
    rw [after, performs_started]
    simp
  | sendGsup payload =>
    rw [step] at h
    split at h
    · cases h
      simp
    · cases h
      simp
  | finish op' handler =>
    cases h
    simp
  | run handler =>
    obtain ⟨⟨t', calls⟩, -, h⟩ := except_bind_eq_ok.mp h
    cases h
    rw [after, performs_started, taking]
    simp

/-- The frames posted for `enqueue`. -/
def posted? : Pending SessionOp SessionHandler → Option Bytes
  | .ready (.enqueue frame) => some frame
  | _ => none

theorem posted?_steady : SessionOp.Steady posted? := by
  intro op handler h
  cases handler with
  | enqueue frame => cases op <;> cases h
  | read result => rfl
  | written frame ok => rfl

def posted (s : SessionLink) : List Bytes := s.io.view posted?

/-- Only `sendGsup` posts frames. -/
theorem step_posted (hop : Possible s op) (h : step s op = .ok (s', outs)) {frame : Bytes}
    (hframe : frame ∈ s'.posted) :
    frame ∈ s.posted ∨ ∃ payload, IpaSession.sendGsup payload = .ok frame := by
  obtain ⟨rest, hbefore, hafter⟩ := step_view posted?_steady hop h
  have hbegins :
      (outs.filterMap fun call => call.op?.bind fun op => posted? (.running op)) = [] := by
    rw [List.filterMap_eq_nil_iff]
    intro call _
    cases call <;> rfl
  rw [hbegins, List.append_nil] at hafter
  rcases List.mem_append.mp (hafter.mem_iff.mp hframe) with hrest | hposts
  · exact .inl (hbefore.mem_iff.mpr (List.mem_append_right _ hrest))
  · cases op with
    | sendGsup payload =>
      rw [SessionInput.posts?] at hposts
      cases hsend : IpaSession.sendGsup payload with
      | error e =>
        rw [hsend] at hposts
        cases hposts
      | ok sent =>
        rw [hsend] at hposts
        obtain rfl := List.mem_singleton.mp hposts
        exact .inr ⟨payload, hsend⟩
    | _ => cases hposts

/-- The session has asked for an identification first, and has answered every frame that calls for
an answer. -/
structure Answers (events : List SessionEvent) (s : SessionLink) : Prop where
  posted : ∀ frame ∈ s.posted, carriesCcm frame = false
  fresh : s.started = false → s.io = [] ∧ allEnqueued events = [] ∧ allFrames events = []
  answers : s.started = true → ∃ later, allEnqueued events = ccmIdReq :: later ∧
    later.filter carriesCcm = (allFrames events).filterMap reply?

/-- Of what a step puts into the queue, the CCM frames are answers. -/
theorem enqueued_filter (hposted : ∀ frame ∈ s.posted, carriesCcm frame = false)
    (hop : Possible s op) (hstart : op ≠ .start) :
    (s.enqueued op).filter carriesCcm = (s.framesRead op).filterMap reply? := by
  cases op with
  | start => exact absurd rfl hstart
  | run handler =>
    cases handler with
    | read result =>
      cases result with
      | none => rfl
      | some chunk =>
        rw [enqueued, List.filter_eq_self]
        intro frame hframe
        obtain ⟨read, -, hreply⟩ := List.mem_filterMap.mp hframe
        exact reply_carriesCcm hreply
    | written frame ok => rfl
    | enqueue frame =>
      have hgsup := hposted frame (Proactor.mem_view.mpr ⟨_, hop, rfl⟩)
      rw [enqueued, List.filter_cons_of_neg (by rw [hgsup]; exact Bool.false_ne_true)]
      rfl
  | _ => rfl

/-- Before the start nothing is pending, so nothing else can happen. -/
theorem possible_fresh (hstarted : s.started = false) (hio : s.io = []) (hop : Possible s op) :
    op = .start := by
  cases op with
  | start => rfl
  | stop =>
    rw [Possible, hstarted] at hop
    cases hop
  | sendGsup payload =>
    rw [Possible, hstarted] at hop
    cases hop
  | finish op' handler =>
    have hrunning := hop.1
    rw [hio] at hrunning
    cases hrunning
  | run handler =>
    rw [Possible, hio] at hop
    cases hop

theorem step_answers (hinv : Answers events s) (hop : Possible s op)
    (h : step s op = .ok (s', outs)) : Answers (events ++ [⟨s, op, outs, s'⟩]) s' := by
  have hposted : ∀ frame ∈ s'.posted, carriesCcm frame = false := by
    intro frame hframe
    rcases step_posted hop h hframe with hframe | ⟨payload, hsend⟩
    · exact hinv.posted frame hframe
    · exact sendGsup_carries hsend
  have hstarted := step_started h
  cases hs : s.started with
  | false =>
    obtain ⟨hio, hnoqueue, hnoframes⟩ := hinv.fresh hs
    obtain rfl := possible_fresh hs hio hop
    refine ⟨hposted, ?_, fun _ => ⟨[], ?_, ?_⟩⟩
    · intro hfalse
      rw [hstarted.mpr (.inr rfl)] at hfalse
      cases hfalse
    · rw [allEnqueued_snoc, hnoqueue]
      rfl
    · rw [allFrames_snoc, hnoframes]
      rfl
  | true =>
    obtain ⟨later, hqueue, hlater⟩ := hinv.answers hs
    have hstart : op ≠ .start := by
      rintro rfl
      rw [Possible, hs] at hop
      cases hop
    refine ⟨hposted, ?_, fun _ => ⟨later ++ s.enqueued op, ?_, ?_⟩⟩
    · intro hfalse
      rw [hstarted.mpr (.inl hs)] at hfalse
      cases hfalse
    · rw [allEnqueued_snoc, hqueue, List.cons_append]
    · rw [allFrames_snoc, List.filterMap_append, List.filter_append, hlater,
        enqueued_filter hinv.posted hop hstart]

theorem run_answers (hrun : SessionRun clientId events s) : Answers events s := by
  refine hrun.history (I := Answers) (C := fun _ => True) (fun _ _ => trivial) ?_ ?_
  · refine ⟨?_, fun _ => ⟨rfl, rfl, rfl⟩, ?_⟩
    · intro frame hframe
      cases hframe
    · intro hstarted
      cases hstarted
  · intro events s op outs s' hinv hop hstep _
    exact step_answers hinv hop hstep

/-! ## Every stream can be read -/

/-- A read is going on. -/
structure Reading (s : SessionLink) : Prop where
  isOpen : s.isOpen = true
  reading : .running .read ∈ s.io
  alive : s.session.state ≠ .stopped

theorem performs_isOpen {calls : List SessionCall} (h : .closeSocket ∉ calls) :
    ∀ s : SessionLink, (calls.foldl perform s).isOpen = s.isOpen := by
  induction calls with
  | nil => intro s; rfl
  | cons call calls ih =>
    intro s
    rw [List.mem_cons, not_or] at h
    rw [List.foldl_cons, ih h.2]
    have hbegin : ∀ op : SessionOp, (s.beginOnSocket op).isOpen = s.isOpen := by
      intro op
      unfold beginOnSocket
      split <;> rfl
    cases call with
    | asyncRead => exact hbegin .read
    | asyncWrite frame => exact hbegin (.write frame)
    | closeSocket => exact absurd rfl h.1
    | _ => rfl

/-- A handler that goes on reading has a read going on when it is done. -/
theorem after_reading {t' : IpaSession} {earlier : List SessionCall} (hopen : s.isOpen = true)
    (hkeeps : .closeSocket ∉ earlier) (hstate : t'.state ≠ .stopped) :
    Reading (s.after (t', earlier ++ [.asyncRead])) := by
  have hstill : (earlier.foldl perform { s with session := t' }).isOpen = true := by
    rw [performs_isOpen hkeeps]
    exact hopen
  have hlast : s.after (t', earlier ++ [.asyncRead]) =
      (earlier.foldl perform { s with session := t' }).beginOnSocket .read := by
    rw [after, List.foldl_append]
    rfl
  refine ⟨?_, ?_, ?_⟩
  · rw [hlast, beginOnSocket, if_pos hstill]
    exact hstill
  · rw [hlast, beginOnSocket, if_pos hstill]
    exact List.mem_append_right _ (List.mem_singleton_self _)
  · rw [after_session]
    exact hstate

theorem stateAfter_alive {state : SessionState} (h : state ≠ .stopped) (frames : List IpaFrame) :
    stateAfter state frames ≠ .stopped := by
  unfold stateAfter
  split
  · decide
  · exact h

theorem NeverStopped.snoc (h : NeverStopped events) {e : SessionEvent}
    (he : e.post.session.state ≠ .stopped) : NeverStopped (events ++ [e]) := by
  intro e' he'
  rcases List.mem_append.mp he' with he' | he'
  · exact h e' he'
  · rw [List.mem_singleton.mp he']
    exact he

/-- A chunk that continues a sequence of frames is read, and reading goes on. -/
theorem read_chunk (hrun : SessionRun clientId events s) (hstopped : NeverStopped events)
    (hreading : Reading s) {chunk : Bytes} (hne : chunk ≠ [])
    (hlen : chunk.length ≤ kSgsnReadBufSize) (hframed : WellFramed (s.session.decoder ++ chunk)) :
    ∃ events' s', SessionRun clientId events' s' ∧ NeverStopped events' ∧ Reading s' ∧
      chunks events' = chunks events ++ [chunk] := by
  obtain ⟨⟨t', outs⟩, hread⟩ := (s.session.onRead_ok_iff chunk).mpr hframed
  obtain ⟨frames, -, htells, -⟩ := onRead_effect hread
  have hstate : t'.state ≠ .stopped := by
    rw [htells.state]
    exact stateAfter_alive hreading.alive frames
  obtain ⟨earlier, rfl⟩ := onRead_goes_on hread hstate
  have hkeeps : .closeSocket ∉ earlier :=
    fun hclose => htells.keeps (List.mem_append_left _ hclose)
  -- the read completes, and its handler runs
  have hcompletes : Possible s (.finish .read (.read (some chunk))) :=
    ⟨hreading.reading, decide_eq_true ⟨hne, hlen⟩⟩
  have hrun₁ := hrun.snoc _ hcompletes rfl
  have hready : Possible { s with io := s.io.finish .read (.read (some chunk)) }
      (.run (.read (some chunk))) := List.mem_append_right _ (List.mem_singleton_self _)
  have hrun₂ := hrun₁.snoc _ hready (except_bind_eq_ok.mpr ⟨_, hread, rfl⟩)
  have hreading' := after_reading
    (s := taking { s with io := s.io.finish .read (.read (some chunk)) } (.read (some chunk)))
    hreading.isOpen hkeeps hstate
  refine ⟨_, _, hrun₂, (hstopped.snoc hreading.alive).snoc hreading'.alive, hreading', ?_⟩
  rw [chunks_snoc, chunks_snoc]
  exact congrArg (· ++ [chunk]) (List.append_nil _)

/-- What comes next in a stream of frames continues what the decoder holds. -/
theorem Follows.wellFramed {frames : List IpaFrame} {chunk more : Bytes} (hinv : Follows events s)
    (hfits : ∀ f ∈ frames, f.Fits)
    (hstream : (chunks events).flatten ++ (chunk ++ more) = frames.flatMap IpaFrame.wire) :
    WellFramed (s.session.decoder ++ chunk) := by
  have hall : collect IpaDecoder.next (frames.flatMap IpaFrame.wire) = (frames, .ok []) := by
    apply collect_of_yields next_shrinking
    exact yields_iff.mpr ⟨(List.append_nil _).symm, hfits, .header (by decide)⟩
  rw [← hstream, collect_append next_shrinking next_incremental,
    collect_of_yields next_shrinking hinv.yields, andThen, ← List.append_assoc,
    collect_append next_shrinking next_incremental] at hall
  rw [wellFramed_iff]
  cases hchunk : collect IpaDecoder.next (s.session.decoder ++ chunk) with
  | mk frames' outcome =>
    cases outcome with
    | ok rest => exact ⟨frames', rest, yields_of_collect next_shrinking hchunk⟩
    | error e =>
      -- the rest of the stream would not be read either
      rw [hchunk] at hall
      cases congrArg Prod.snd hall

theorem read_on {frames : List IpaFrame} (hfits : ∀ f ∈ frames, f.Fits) (cs : List Bytes)
    (hcs : ∀ c ∈ cs, c ≠ [] ∧ c.length ≤ kSgsnReadBufSize) :
    ∀ {events : List SessionEvent} {s : SessionLink}, SessionRun clientId events s →
      NeverStopped events → Reading s →
      (chunks events).flatten ++ cs.flatten = frames.flatMap IpaFrame.wire →
      ∃ events' s', SessionRun clientId events' s' ∧ NeverStopped events' ∧ Reading s' ∧
        chunks events' = chunks events ++ cs := by
  induction cs with
  | nil =>
    intro events s hrun hstopped hreading _
    exact ⟨events, s, hrun, hstopped, hreading, (List.append_nil _).symm⟩
  | cons c cs ih =>
    intro events s hrun hstopped hreading hstream
    rw [List.flatten_cons] at hstream
    obtain ⟨hne, hlen⟩ := hcs c (by simp)
    have hframed := (run_follows hrun hstopped).wellFramed hfits hstream
    obtain ⟨events₁, s₁, hrun₁, hstopped₁, hreading₁, hchunks₁⟩ :=
      read_chunk hrun hstopped hreading hne hlen hframed
    have hstream₁ : (chunks events₁).flatten ++ cs.flatten = frames.flatMap IpaFrame.wire := by
      rw [hchunks₁, List.flatten_append, List.flatten_singleton, List.append_assoc, hstream]
    obtain ⟨events', s', hrun', hstopped', hreading', hchunks'⟩ :=
      ih (fun c hc => hcs c (by simp [hc])) hrun₁ hstopped₁ hreading₁ hstream₁
    refine ⟨events', s', hrun', hstopped', hreading', ?_⟩
    rw [hchunks', hchunks₁, List.append_assoc, List.singleton_append]

/-- A session that has been started reads. -/
theorem start_reading (clientId : ClientId) :
    ∃ events s, SessionRun clientId events s ∧ NeverStopped events ∧ Reading s ∧
      chunks events = [] := by
  let t : IpaSession := { clientId := clientId }
  have hnew : SessionRun clientId [] { session := t } := .nil
  have hrun := hnew.snoc .start rfl (except_bind_eq_ok.mpr ⟨_, by rw [t.start_eq]; rfl, rfl⟩)
  have hstate : (t.enqueue ccmIdReq).1.state ≠ .stopped := by
    rw [(t.enqueue_tells ccmIdReq).state]
    exact stateAfter_alive (fun h => by cases h) []
  have hreading := after_reading (s := { session := t, started := true }) rfl
    (t.enqueue_tells ccmIdReq).keeps hstate
  have hstopped : NeverStopped [] := fun e he => by cases he
  exact ⟨_, _, hrun, hstopped.snoc hreading.alive, hreading, rfl⟩

/-! ## Both together -/

/-- A failure stops the session. -/
theorem event_ceases (hrun : SessionRun clientId events s) {e : SessionEvent} (he : e ∈ events)
    (hop : e.op.ceases = true) : e.post.session.state = .stopped := by
  obtain ⟨i, hi⟩ := List.mem_iff_getElem?.mp he
  rcases (step_turn (hrun.event hi).2).tells_or_ceases with ⟨hnot, -⟩ | ⟨-, hceases⟩
  · rw [hop] at hnot
    cases hnot
  · exact hceases.quiet.1

/-- Every stream of frames can be read in all ways of cutting it into chunks. Whatever else happens,
as long as the session does not stop, the GSUP frames behind the first ID_RESP are delivered, and
the session writes an ID_REQ and then the answers to what it has read, beside GSUP frames. -/
theorem stream_delivered {frames : List IpaFrame}
    (hlen : ∀ f ∈ frames, f.payload.length ≤ 4095) (clientId : ClientId) :
    (∀ cs : List Bytes, (∀ c ∈ cs, c ≠ [] ∧ c.length ≤ kSgsnReadBufSize) →
      cs.flatten = frames.flatMap IpaFrame.wire →
      ∃ events s, SessionRun clientId events s ∧ s.started = true ∧ NeverStopped events ∧
        chunks events = cs) ∧
    ∀ events s, SessionRun clientId events s → s.started = true → NeverStopped events →
      (chunks events).flatten = frames.flatMap IpaFrame.wire →
      delivered events = gsupPayloads (fromIdResp frames) ∧
      ∃ later, completed events ++ s.session.writeQueue = ccmIdReq :: later ∧
        later.filter carriesCcm = frames.filterMap reply? := by
  have hfits : ∀ f ∈ frames, f.Fits := by
    intro f hf
    have := hlen f hf
    rw [IpaFrame.Fits, kMaxIpaWireLen_toNat]
    omega
  refine ⟨?_, ?_⟩
  · intro cs hcs hstream
    obtain ⟨events, s, hrun, hstopped, hreading, hchunks⟩ := start_reading clientId
    obtain ⟨events', s', hrun', hstopped', hreading', hchunks'⟩ :=
      read_on hfits cs hcs hrun hstopped hreading (by rw [hchunks, hstream]; rfl)
    refine ⟨events', s', hrun', ?_, hstopped', by rw [hchunks', hchunks, List.nil_append]⟩
    -- something is pending
    by_contra hstarted
    obtain ⟨hio, -⟩ := (run_answers hrun').fresh (Bool.eq_false_iff.mpr hstarted)
    have hpending := hreading'.reading
    rw [hio] at hpending
    cases hpending
  · intro events s hrun hstarted hstopped hstream
    have hfollows := run_follows hrun hstopped
    have hframes := frames_unique hfollows hfits hstream
    refine ⟨?_, ?_⟩
    · rw [hfollows.delivered, hframes]
      rfl
    · have hok : ∀ e ∈ events, ∀ frame, e.op ≠ .run (.written frame false) := by
        intro e he frame hop
        exact hstopped e he (event_ceases hrun he (by rw [hop]; rfl))
      obtain ⟨later, hqueue, hlater⟩ := (run_answers hrun).answers hstarted
      refine ⟨later, ?_, ?_⟩
      · rw [(run_flying hrun hok).2, hqueue]
      · rw [hlater, hframes]

/-- A GSUP frame too early, the handshake, a GSUP frame, a PING, one more GSUP frame. -/
def sampleFrames : List IpaFrame :=
  [⟨kStreamGsup, [0x01]⟩, ⟨kStreamCcm, [kCcmIdResp]⟩, ⟨kStreamGsup, [0x02]⟩,
    ⟨kStreamCcm, [kCcmPing]⟩, ⟨kStreamGsup, [0x03]⟩]

/-- They come in two chunks; the first one ends inside the header of the ID_RESP. -/
theorem sampleFrames_delivered :
    (∀ f ∈ sampleFrames, f.payload.length ≤ 4095) ∧
      ∃ events s, SessionRun 1 events s ∧
        chunks events = [(sampleFrames.flatMap IpaFrame.wire).take 6,
          (sampleFrames.flatMap IpaFrame.wire).drop 6] ∧
        delivered events = [[0x02], [0x03]] ∧
        ∃ later, completed events ++ s.session.writeQueue = ccmIdReq :: later ∧
          later.filter carriesCcm = [ccmIdAck, ccmPong] := by
  have hlen : ∀ f ∈ sampleFrames, f.payload.length ≤ 4095 := by decide
  obtain ⟨hreads, hdelivers⟩ := stream_delivered hlen 1
  obtain ⟨events, s, hrun, hstarted, hstopped, hchunks⟩ :=
    hreads [(sampleFrames.flatMap IpaFrame.wire).take 6,
      (sampleFrames.flatMap IpaFrame.wire).drop 6] (by decide) (by decide)
  obtain ⟨hdelivered, hwrites⟩ :=
    hdelivers events s hrun hstarted hstopped (by rw [hchunks]; decide)
  exact ⟨hlen, events, s, hrun, hchunks, hdelivered, hwrites⟩

end SessionLink

end GsupMapProxy.Transport
