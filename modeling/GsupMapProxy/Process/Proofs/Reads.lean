import GsupMapProxy.Misc.Run
import GsupMapProxy.Process.Machine
import GsupMapProxy.Proxy.Proofs.Handlers
import GsupMapProxy.Transport.Proofs.Reads

/-!
# Malformed input and the process

A read handler that throws takes the process down. In any state the process can get into, the
handler of a read returns if and only if the bytes the connection has buffered, followed by
those just read, are framed as its decoder wants them; and then it leaves the other connections
alone.
-/

namespace GsupMapProxy

open Misc Transport

/-- The runs of the process. -/
abbrev ProcessRun (txTimeout : Int) (cfg : MapTransportConfig) :
    List (Event Process Happening Call) → Process → Prop :=
  Run Process.step Process.Possible (Process.start txTimeout cfg)

/-- What the connection of a session shares with no other one is all that differs. -/
structure OthersKept (object : Nat) (client : ClientId) (p p' : Process) : Prop where
  objects : ∀ o, o ≠ object → p'.server.objects.lookup o = p.server.objects.lookup o
  sessions : ∀ id, id ≠ client → p'.server.sessions.lookup id = p.server.sessions.lookup id
  allSessions : ∀ id, id ≠ client →
    p'.server.allSessions.lookup id = p.server.allSessions.lookup id
  hlr : p'.hlr = p.hlr

/-! ## Outstanding operations belong to live objects -/

/-- The session object an operation belongs to. -/
def AsyncOp.object : AsyncOp → Option Nat
  | .read object => some object
  | .write object _ => some object
  | _ => none

/-- Every outstanding operation of a session finds its session. -/
def Process.Rooted (p : Process) : Prop :=
  ∀ op ∈ p.pending, ∀ object, op.object = some object → object ∈ p.server.objects

@[simp] theorem onSessionReady_objects (server : IpaServer) (id : ClientId) :
    (server.onSessionReady id).objects = server.objects := by
  unfold IpaServer.onSessionReady
  split <;> rfl

theorem mem_update {server : IpaServer} {object o : Nat} {session : IpaSession} :
    o ∈ (server.update object session).objects ↔ o = object ∨ o ∈ server.objects := by
  rw [IpaServer.update, Finmap.mem_insert]

theorem mem_stop {server : IpaServer} {order : List ClientId} {o : Nat}
    (h : o ∈ server.objects) : o ∈ (server.stop order).objects := by
  unfold IpaServer.stop
  dsimp only
  induction order generalizing server with
  | nil => exact h
  | cons id order ih =>
    rw [List.foldl_cons]
    apply ih
    split
    · exact h
    · split
      · exact h
      · exact mem_update.mpr (.inr h)

namespace Process

/-- A call into the proxy returns, and changes nothing but the proxy and the tasks. -/
theorem callProxy_ok (p : Process) (op : Op) :
    ∃ proxy tasks, p.callProxy op = .ok { p with proxy := proxy, tasks := tasks } := by
  obtain ⟨proxy, sends, hstep⟩ := Proxy.step_total p.proxy op
  exact ⟨proxy, p.tasks ++ sends.map Task.ofSend, by rw [callProxy, hstep]; rfl⟩

theorem Rooted.append {p : Process} (hp : p.Rooted) {op : AsyncOp}
    (hop : ∀ object, op.object = some object → object ∈ p.server.objects) :
    Rooted { p with pending := p.pending ++ [op] } := by
  intro op' hmem object hobject
  rcases List.mem_append.mp hmem with hmem | hmem
  · exact hp op' hmem object hobject
  · rw [List.mem_singleton.mp hmem] at hobject
    exact hop object hobject

theorem performSession_rooted {object : Nat} {client : ClientId} {now : TimePoint}
    {p p' : Process} {call : SessionCall} (hp : p.Rooted ∧ object ∈ p.server.objects)
    (h : p.performSession object client now call = .ok p') :
    p'.Rooted ∧ object ∈ p'.server.objects := by
  obtain ⟨hrooted, hmem⟩ := hp
  cases call with
  | asyncRead =>
    cases h
    refine ⟨hrooted.append ?_, hmem⟩
    rintro _ ⟨⟩
    exact hmem
  | asyncWrite frame =>
    cases h
    refine ⟨hrooted.append ?_, hmem⟩
    rintro _ ⟨⟩
    exact hmem
  | closeSocket =>
    cases h
    exact ⟨hrooted, hmem⟩
  | onReady =>
    cases h
    simp only [Rooted, onSessionReady_objects]
    exact ⟨hrooted, hmem⟩
  | onGsup payload =>
    obtain ⟨proxy, tasks, hcall⟩ := p.callProxy_ok (.gsup payload client now)
    rw [performSession, hcall] at h
    cases h
    exact ⟨hrooted, hmem⟩
  | onDisconnect =>
    cases h
    exact ⟨hrooted, hmem⟩

theorem performHlr_rooted {order : List UInt32} {now : TimePoint} {p p' : Process}
    {call : MapCall} (hp : p.Rooted) (h : p.performHlr order now call = .ok p') : p'.Rooted := by
  cases call with
  | messageCb payload =>
    obtain ⟨proxy, tasks, hcall⟩ := p.callProxy_ok (.map payload now)
    rw [performHlr, hcall] at h
    cases h
    exact hp
  | disconnectCb =>
    obtain ⟨proxy, tasks, hcall⟩ := p.callProxy_ok (.nack order)
    rw [performHlr, hcall] at h
    cases h
    exact hp
  | asyncConnect | asyncRead | asyncWrite _ | armReconnect _ | armBeat _ =>
    cases h
    exact hp.append (by rintro _ ⟨⟩)
  | openSocket | closeSocket | cancelReconnect | cancelBeat | postConnectFailed =>
    cases h
    exact hp

theorem runSession_rooted {p p' : Process} {object : Nat} {now : TimePoint} {calls : List Call}
    {method : IpaSession → Except Fault (IpaSession × List SessionCall)} (hp : p.Rooted)
    (h : p.runSession object now method = .ok (p', calls)) : p'.Rooted := by
  unfold runSession at h
  split at h
  · cases h
  · rename_i session hsession
    obtain ⟨⟨session', made⟩, -, h⟩ := except_bind_eq_ok.mp h
    obtain ⟨p₁, hp₁, h⟩ := except_bind_eq_ok.mp h
    cases h
    have hstart : Rooted { p with server := p.server.update object session' } := by
      intro op hop o ho
      exact mem_update.mpr (.inr (hp op hop o ho))
    exact (foldlM_invariant (fun _ _ _ => performSession_rooted)
      ⟨hstart, mem_update.mpr (.inl rfl)⟩ hp₁).1

theorem runHlr_rooted {p p' : Process} {order : List UInt32} {now : TimePoint}
    {calls : List Call} {method : MapTransport → Except Fault (MapTransport × List MapCall)}
    (hp : p.Rooted) (h : p.runHlr order now method = .ok (p', calls)) : p'.Rooted := by
  obtain ⟨⟨hlr, made⟩, -, h⟩ := except_bind_eq_ok.mp h
  obtain ⟨p₁, hp₁, h⟩ := except_bind_eq_ok.mp h
  cases h
  have hstart : Rooted { p with hlr := hlr } := hp
  exact foldlM_invariant (fun _ _ _ => performHlr_rooted) hstart hp₁

theorem runTask_rooted {p p' : Process} {order : List ClientId} {task : Task} {calls : List Call}
    (hp : p.Rooted) (h : p.runTask order task = .ok (p', calls)) : p'.Rooted := by
  cases task with
  | serverSend payload client =>
    obtain ⟨tasks, -, h⟩ := except_bind_eq_ok.mp h
    cases h
    exact hp
  | sessionEnqueue object frame => exact runSession_rooted hp h
  | hlrSend payload =>
    rw [runTask] at h
    exact runHlr_rooted hp h
  | hlrConnectFailed =>
    rw [runTask] at h
    exact runHlr_rooted hp h

theorem handle_rooted {p p' : Process} {h : Happening} {calls : List Call} (hp : p.Rooted)
    (hstep : p.handle h = .ok (p', calls)) : p'.Rooted := by
  cases h with
  | accepted result =>
    cases result with
    | failed =>
      cases hstep
      exact hp
    | connected =>
      refine runSession_rooted ?_ hstep
      intro op hop object hobject
      exact Finmap.mem_insert.mpr (.inr (hp op hop object hobject))
    | reset => cases hstep
  | sessionRead object result now => exact runSession_rooted hp hstep
  | sessionWritten object frame ok => exact runSession_rooted hp hstep
  | hlrConnected socket ok =>
    rw [handle] at hstep
    exact runHlr_rooted hp hstep
  | hlrRead socket result order now =>
    rw [handle] at hstep
    exact runHlr_rooted hp hstep
  | hlrWritten socket frame ok order =>
    rw [handle] at hstep
    exact runHlr_rooted hp hstep
  | reconnectTimer ok attempt =>
    rw [handle] at hstep
    exact runHlr_rooted hp hstep
  | beatTimer ok =>
    rw [handle] at hstep
    exact runHlr_rooted hp hstep
  | task order =>
    unfold handle at hstep
    dsimp only at hstep
    split at hstep
    · cases hstep
      exact hp
    · rename_i task tasks htasks
      have hrest : Rooted { p with tasks := tasks } := hp
      exact runTask_rooted hrest hstep
  | tick sgsnOrder hlrOrder now =>
    unfold handle at hstep
    dsimp only at hstep
    obtain ⟨proxy, tasks, hsgsn⟩ := p.callProxy_ok (.expireSgsn sgsnOrder now)
    rw [hsgsn, except_ok_bind] at hstep
    obtain ⟨proxy', tasks', hhlr⟩ :=
      callProxy_ok { p with proxy := proxy, tasks := tasks } (.expireHlr hlrOrder 30 now)
    rw [hhlr, except_ok_bind] at hstep
    cases hstep
    exact hp
  | stopServer order =>
    cases hstep
    intro op hop object hobject
    exact mem_stop (hp op hop object hobject)
  | stopHlr =>
    rw [handle] at hstep
    exact runHlr_rooted hp hstep

theorem step_rooted {p p' : Process} {h : Happening} {calls : List Call} (hp : p.Rooted)
    (hstep : p.step h = .ok (p', calls)) : p'.Rooted := by
  unfold step at hstep
  split at hstep
  · exact handle_rooted hp hstep
  · refine handle_rooted ?_ hstep
    intro op hop
    exact hp op (List.mem_of_mem_erase hop)

end Process

theorem ProcessRun.rooted {txTimeout : Int} {cfg : MapTransportConfig}
    {events : List (Event Process Happening Call)} {p : Process}
    (hrun : ProcessRun txTimeout cfg events p) : p.Rooted := by
  refine Run.invariant hrun ?_ (fun _ _ _ _ hp _ hstep => Process.step_rooted hp hstep)
  intro op hop object hobject
  rw [List.mem_singleton.mp hop] at hobject
  cases hobject

/-! ## What a handler leaves alone -/

theorem othersKept_pending {object : Nat} {client : ClientId} {p p' : Process}
    {ops : List AsyncOp} :
    OthersKept object client { p with pending := ops } p' ↔ OthersKept object client p p' :=
  ⟨fun ⟨hobjects, hsessions, hall, hhlr⟩ => ⟨hobjects, hsessions, hall, hhlr⟩,
    fun ⟨hobjects, hsessions, hall, hhlr⟩ => ⟨hobjects, hsessions, hall, hhlr⟩⟩

namespace Process

theorem performSession_ok (object : Nat) (client : ClientId) (now : TimePoint) (p : Process)
    (call : SessionCall) : (∃ p', p.performSession object client now call = .ok p') ↔ True := by
  refine ⟨fun _ => trivial, fun _ => ?_⟩
  cases call with
  | onGsup payload =>
    obtain ⟨proxy, tasks, hcall⟩ := p.callProxy_ok (.gsup payload client now)
    exact ⟨_, hcall⟩
  | asyncRead | asyncWrite _ | closeSocket | onReady | onDisconnect => exact ⟨_, rfl⟩

theorem performHlr_ok (order : List UInt32) (now : TimePoint) (p : Process) (call : MapCall) :
    (∃ p', p.performHlr order now call = .ok p') ↔ True := by
  refine ⟨fun _ => trivial, fun _ => ?_⟩
  cases call with
  | messageCb payload =>
    obtain ⟨proxy, tasks, hcall⟩ := p.callProxy_ok (.map payload now)
    exact ⟨_, hcall⟩
  | disconnectCb =>
    obtain ⟨proxy, tasks, hcall⟩ := p.callProxy_ok (.nack order)
    exact ⟨_, hcall⟩
  | asyncConnect | asyncRead | asyncWrite _ | openSocket | closeSocket | armReconnect _ | armBeat _
  | cancelReconnect | cancelBeat | postConnectFailed => exact ⟨_, rfl⟩

theorem performSession_kept {object : Nat} {client : ClientId} {now : TimePoint}
    {p p₁ p₂ : Process} {call : SessionCall} (hp : OthersKept object client p p₁)
    (h : p₁.performSession object client now call = .ok p₂) : OthersKept object client p p₂ := by
  obtain ⟨hobjects, hsessions, hall, hhlr⟩ := hp
  cases call with
  | asyncRead | asyncWrite _ | closeSocket =>
    cases h
    exact ⟨hobjects, hsessions, hall, hhlr⟩
  | onReady =>
    cases h
    unfold IpaServer.onSessionReady
    split
    · exact ⟨hobjects, hsessions, hall, hhlr⟩
    · refine ⟨hobjects, ?_, hall, hhlr⟩
      intro id hid
      dsimp only
      rw [Finmap.lookup_insert_of_ne _ hid, hsessions id hid]
  | onGsup payload =>
    obtain ⟨proxy, tasks, hcall⟩ := p₁.callProxy_ok (.gsup payload client now)
    rw [performSession, hcall] at h
    cases h
    exact ⟨hobjects, hsessions, hall, hhlr⟩
  | onDisconnect =>
    cases h
    refine ⟨hobjects, ?_, ?_, hhlr⟩
    · intro id hid
      rw [← hsessions id hid]
      exact Finmap.lookup_erase_ne hid
    · intro id hid
      rw [← hall id hid]
      exact Finmap.lookup_erase_ne hid

theorem performHlr_server {order : List UInt32} {now : TimePoint} {p p' : Process} {call : MapCall}
    (h : p.performHlr order now call = .ok p') : p'.server = p.server := by
  cases call with
  | messageCb payload =>
    obtain ⟨proxy, tasks, hcall⟩ := p.callProxy_ok (.map payload now)
    rw [performHlr, hcall] at h
    cases h
    rfl
  | disconnectCb =>
    obtain ⟨proxy, tasks, hcall⟩ := p.callProxy_ok (.nack order)
    rw [performHlr, hcall] at h
    cases h
    rfl
  | asyncConnect | asyncRead | asyncWrite _ | openSocket | closeSocket | armReconnect _ | armBeat _
  | cancelReconnect | cancelBeat | postConnectFailed =>
    cases h
    rfl

/-- A method of a session returns to Asio as soon as it returns to its handler, and then leaves
the other connections alone. -/
theorem runSession_ok_iff {p : Process} {object : Nat} {session : IpaSession} (now : TimePoint)
    (method : IpaSession → Except Fault (IpaSession × List SessionCall))
    (hsession : p.server.objects.lookup object = some session) :
    (∃ p' calls, p.runSession object now method = .ok (p', calls) ∧
      OthersKept object session.clientId p p') ↔ ∃ result, method session = .ok result := by
  simp only [runSession, hsession]
  constructor
  · rintro ⟨p', calls, h, -⟩
    obtain ⟨result, hresult, -⟩ := except_bind_eq_ok.mp h
    exact ⟨result, hresult⟩
  · rintro ⟨⟨session', calls⟩, hresult⟩
    rw [hresult, except_ok_bind]
    dsimp only
    obtain ⟨p', hp'⟩ := (foldlM_ok_iff (performSession_ok object session.clientId now)
      { p with server := p.server.update object session' } calls).mpr (fun _ _ => trivial)
    rw [hp', except_ok_bind]
    refine ⟨p', _, rfl, ?_⟩
    have hstart : OthersKept object session.clientId p
        { p with server := p.server.update object session' } :=
      ⟨fun o ho => Finmap.lookup_insert_of_ne _ ho, fun _ _ => rfl, fun _ _ => rfl, rfl⟩
    exact foldlM_invariant (fun _ _ _ => performSession_kept) hstart hp'

theorem runHlr_ok_iff (p : Process) (order : List UInt32) (now : TimePoint)
    (method : MapTransport → Except Fault (MapTransport × List MapCall)) :
    (∃ p' calls, p.runHlr order now method = .ok (p', calls) ∧ p'.server = p.server) ↔
      ∃ result, method p.hlr = .ok result := by
  rw [runHlr]
  constructor
  · rintro ⟨p', calls, h, -⟩
    obtain ⟨result, hresult, -⟩ := except_bind_eq_ok.mp h
    exact ⟨result, hresult⟩
  · rintro ⟨⟨hlr, calls⟩, hresult⟩
    rw [hresult, except_ok_bind]
    dsimp only
    obtain ⟨p', hp'⟩ := (foldlM_ok_iff (performHlr_ok order now) { p with hlr := hlr } calls).mpr
      (fun _ _ => trivial)
    rw [hp', except_ok_bind]
    refine ⟨p', _, rfl, ?_⟩
    have hkept : ∀ (s : Process) (call : MapCall) (s' : Process), s.server = p.server →
        s.performHlr order now call = .ok s' → s'.server = p.server :=
      fun s call s' hs h => (performHlr_server h).trans hs
    have hstart : { p with hlr := hlr }.server = p.server := rfl
    exact foldlM_invariant hkept hstart hp'

end Process

/-- In every state the process can get into: a read that completes on a session returns, with the
other connections as they were, if and only if the session's buffered bytes and those read make
a sequence of frames with length fields from 1 to 4096; and one that completes on the HLR
connection does if and only if they make a sequence of well-formed M3UA messages whose UDTs have
their addresses inside. -/
theorem read_returns_iff_well_framed {txTimeout : Int} {cfg : MapTransportConfig}
    {events : List (Event Process Happening Call)} {p : Process}
    (hrun : ProcessRun txTimeout cfg events p) :
    (∀ (object : Nat) (chunk : Bytes) (now : TimePoint), AsyncOp.read object ∈ p.pending →
      ∃ session, p.server.objects.lookup object = some session ∧
        ((∃ p' calls, p.step (.sessionRead object (some chunk) now) = .ok (p', calls) ∧
          OthersKept object session.clientId p p') ↔
            Ipa.WellFramed (session.decoder ++ chunk))) ∧
    ∀ (socket : Nat) (chunk : Bytes) (order : List UInt32) (now : TimePoint),
      (∃ p' calls, p.step (.hlrRead socket (some chunk) order now) = .ok (p', calls) ∧
        p'.server = p.server) ↔
          M3ua.WellFramed MapTransport.Dispatchable (p.hlr.decoder ++ chunk) := by
  constructor
  · intro object chunk now hread
    obtain ⟨session, hsession⟩ := Finmap.mem_iff.mp (hrun.rooted _ hread object rfl)
    refine ⟨session, hsession, ?_⟩
    have hiff := Process.runSession_ok_iff
      (p := { p with pending := p.pending.erase (.read object) }) now
      (fun s => s.onRead (some chunk)) hsession
    simp only [othersKept_pending] at hiff
    rw [← session.onRead_ok_iff chunk]
    exact hiff
  · intro socket chunk order now
    rw [← p.hlr.onRead_ok_iff chunk]
    exact Process.runHlr_ok_iff { p with pending := p.pending.erase (.hlrRead socket) } order now
      (fun t => t.onRead (some chunk))

/-- The run in which one SGSN connects. -/
theorem processRun_accepted {p : Process} {calls : List Call}
    (h : (Process.start 30 {}).step (.accepted .connected) = .ok (p, calls)) :
    ∃ events, ProcessRun 30 {} events p := by
  refine ⟨_, Run.snoc Run.nil (.accepted .connected) ⟨?_, trivial⟩ h⟩
  rintro op ⟨⟩

theorem id_resp_read_returns :
    ∃ p calls p' calls', (Process.start 30 {}).step (.accepted .connected) = .ok (p, calls) ∧
      p.step (.sessionRead 0 (some [0x00, 0x02, 0xFE, 0x05]) 0) = .ok (p', calls') ∧
      OthersKept 0 1 p p' := by
  obtain ⟨p, calls, session, haccept, hpending, hsession, hdecoder, hclient⟩ :
      ∃ p calls session, (Process.start 30 {}).step (.accepted .connected) = .ok (p, calls) ∧
        AsyncOp.read 0 ∈ p.pending ∧ p.server.objects.lookup 0 = some session ∧
        session.decoder = [] ∧ session.clientId = 1 :=
    ⟨_, _, _, rfl, by decide, rfl, rfl, rfl⟩
  obtain ⟨events, hrun⟩ := processRun_accepted haccept
  obtain ⟨session', hsession', hiff⟩ :=
    (read_returns_iff_well_framed hrun).1 0 [0x00, 0x02, 0xFE, 0x05] 0 hpending
  rw [hsession] at hsession'
  cases hsession'
  rw [hdecoder, hclient] at hiff
  obtain ⟨p', calls', hread, hkept⟩ := hiff.mpr
    ⟨[⟨0xFE, [0x05]⟩], [], rfl, by simp [Ipa.IpaFrame.Fits, Ipa.kMaxIpaWireLen_toNat],
      .header (by decide)⟩
  exact ⟨p, calls, p', calls', haccept, hread, hkept⟩

/-- An IPA header with the length zero takes the process down. -/
theorem zero_length_frame_escapes :
    ¬ ∀ (txTimeout : Int) (cfg : MapTransportConfig) (events : List (Event Process Happening Call))
      (p : Process), ProcessRun txTimeout cfg events p →
      (∀ (object : Nat) (chunk : Bytes) (now : TimePoint), AsyncOp.read object ∈ p.pending →
        chunk.length ≤ kSgsnReadBufSize →
        ∃ p' calls client, p.step (.sessionRead object (some chunk) now) = .ok (p', calls) ∧
          OthersKept object client p p') ∧
      ∀ (socket : Nat) (chunk : Bytes) (order : List UInt32) (now : TimePoint),
        AsyncOp.hlrRead socket ∈ p.pending → chunk.length ≤ kHlrReadBufSize →
        ∃ p' calls, p.step (.hlrRead socket (some chunk) order now) = .ok (p', calls) ∧
          p'.server = p.server := by
  intro hclaim
  obtain ⟨p, calls, e, haccept, hpending, hthrown⟩ :
      ∃ p calls e, (Process.start 30 {}).step (.accepted .connected) = .ok (p, calls) ∧
        AsyncOp.read 0 ∈ p.pending ∧
        p.step (.sessionRead 0 (some [0x00, 0x00, 0xFE]) 0) = .error (.thrown e) :=
    ⟨_, _, _, rfl, by decide, rfl⟩
  obtain ⟨events, hrun⟩ := processRun_accepted haccept
  obtain ⟨p', calls', client, hread, -⟩ :=
    (hclaim 30 {} events p hrun).1 0 [0x00, 0x00, 0xFE] 0 hpending (by decide)
  rw [hthrown] at hread
  cases hread

end GsupMapProxy
