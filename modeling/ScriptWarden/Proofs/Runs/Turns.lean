import ScriptWarden.Proofs.Runs.Soundness
import ScriptWarden.Proofs.Sessions.Hubs

/-!
# What becomes of a session

All that can happen to a session in one step. Its supervisor takes a step of its own, and does to the
session what goes with it. A reader publishes output, or reads no more. Everybody else has a turn of
a few kinds: a viewer subscribes, is told or leaves, and the session is asked to end or given input.
By that neither what is kept of the output changes nor what its supervisor is at.

## Results

* `Session.Turn`, `step_turns` — the turns of everybody else, in every step.
* `read_session?` — what readers do.
* `act?_cases`, `act_session?` — the steps of a supervisor.
-/

namespace ScriptWarden

variable {d d' : Deployment} {s t : Session} {touched : Nat → Nat → Prop} {mine : Nat → Prop}
  {id : Nat}

-- ---------------------------------------------------------------------------
-- Turns
-- ---------------------------------------------------------------------------

/-- What others than its supervisor and its readers make of a session, if only these receivers are
touched. -/
inductive Session.Turn (mine : Nat → Prop) (s : Session) : Session → Prop
  | rest : s.Turn mine s
  | subscribe : s.Turn mine s.subscribe.2
  | receive {r : Nat} : mine r → s.Turn mine { s with hub := (s.hub.receive r).2 }
  | drop {r : Nat} : mine r → s.Turn mine { s with hub := s.hub.drop r }
  | requestStop : s.Turn mine s.requestStop
  | feed (input : InputQueue) : s.Turn mine { s with input }

/-- What there is under an identity when somebody has had a turn. New sessions get an identity from
the next one on, and keep as much output as they are to. -/
inductive Turned (mine : Nat → Prop) (next limit : Nat) : Option Session → Option Session → Prop
  | none : Turned mine next limit none none
  | begun {id : Nat} (n : ScriptName) (pid : UInt32) (pipes : SessionPipes) (now : Moment) :
      next ≤ id → Turned mine next limit none (some (Session.new id n pid pipes now limit))
  | turn {s t : Session} : s.Turn mine t → Turned mine next limit (some s) (some t)

/-- Every session has had a turn at most, and there may be new ones. -/
structure Turns (touched : Nat → Nat → Prop) (d d' : Deployment) : Prop where
  config : d'.service.config = d.service.config
  each : ∀ id, Turned (touched id) d.service.nextSession d.service.config.replayLimit
    (d.service.session? id) (d'.service.session? id)

theorem Session.Turn.life (h : s.Turn mine t) : t.life = s.life := by
  cases h <;> rfl

theorem Session.Turn.reading (h : s.Turn mine t) : t.reading = s.reading := by
  cases h <;> rfl

/-- What is kept of the output stays. -/
theorem Session.Turn.hub (h : s.Turn mine t) : t.hub = { s.hub with channel := t.hub.channel } := by
  cases h <;> rfl

theorem Session.Turn.ended (h : s.Turn mine t) : t.hub.ended = s.hub.ended := by
  rw [h.hub]

theorem Turns.of_sessions (h : d'.service.sessions = d.service.sessions)
    (hConfig : d'.service.config = d.service.config) : Turns touched d d' := by
  refine ⟨hConfig, fun id => ?_⟩
  have hSame : d'.service.session? id = d.service.session? id := by
    rw [Service.session?, Service.session?, h]
  rw [hSame]
  cases d.service.session? id with
  | none => exact .none
  | some s => exact .turn .rest

theorem Turns.refl (d : Deployment) : Turns touched d d := of_sessions rfl rfl

/-- The host makes no difference. -/
theorem Turns.of_service {e e' : Deployment} (h : Turns touched d d') (hBefore : e.service = d.service)
    (hAfter : e'.service = d'.service) : Turns touched e e' := by
  refine ⟨?_, fun id => ?_⟩
  · rw [hBefore, hAfter]
    exact h.config
  · rw [hBefore, hAfter]
    exact h.each id

/-- A session that there is has had a turn. -/
theorem Turns.session? (h : Turns touched d d') (hSession : d.service.session? id = some s) :
    ∃ t, d'.service.session? id = some t ∧ s.Turn (touched id) t := by
  have hOne := h.each id
  rw [hSession] at hOne
  generalize d'.service.session? id = after at hOne
  cases hOne with
  | turn hTurn => exact ⟨_, rfl, hTurn⟩

/-- A session that there is afterwards has had a turn, or is new. -/
theorem Turns.before (h : Turns touched d d') (hSession : d'.service.session? id = some t) :
    (∃ s, d.service.session? id = some s ∧ s.Turn (touched id) t) ∨
      (d.service.session? id = none ∧ d.service.nextSession ≤ id ∧
        ∃ n pid pipes now, t = Session.new id n pid pipes now d.service.config.replayLimit) := by
  have hId := (session?_mem hSession).2
  have hOne := h.each id
  rw [hSession] at hOne
  generalize d.service.session? id = before at hOne
  cases hOne with
  | begun _ _ _ _ hNext =>
    cases hId
    exact Or.inr ⟨rfl, hNext, _, _, _, _, rfl⟩
  | turn hTurn => exact Or.inl ⟨_, rfl, hTurn⟩

-- ---------------------------------------------------------------------------
-- One session
-- ---------------------------------------------------------------------------

theorem session?_setSession (d : Deployment) (s : Session) (id : Nat) :
    (d.setSession s).service.session? id =
      if id = s.id then (d.service.session? id).map fun _ => s else d.service.session? id := by
  show (d.service.sessions.map fun x => if x.id == s.id then s else x).find? (·.id == id) =
    if id = s.id then (d.service.sessions.find? (·.id == id)).map fun _ => s
      else d.service.sessions.find? (·.id == id)
  induction d.service.sessions with
  | nil => simp
  | cons x rest ih =>
    rw [List.map_cons, List.find?_cons, List.find?_cons, ih]
    by_cases hId : id = s.id
    · by_cases hSet : x.id = s.id
      · simp [hSet, hId]
      · have hOther : (x.id == s.id) = false := by simpa using hSet
        simp [hId, hOther]
    · by_cases hSet : x.id = s.id
      · have hOther : (s.id == id) = false := by simpa using Ne.symm hId
        simp [hSet, hId, hOther]
      · simp [hSet, hId]

/-- One session has had a turn, and the others are the same. -/
theorem setSession_turns (hSession : d.service.session? s.id = some s)
    (hTurn : s.Turn (touched s.id) t) : Turns touched d (d.setSession t) := by
  refine ⟨rfl, fun id => ?_⟩
  have hId : t.id = s.id := congrArg Life.id hTurn.life
  rw [session?_setSession]
  by_cases hSame : id = s.id
  · rw [hId, if_pos hSame, hSame, hSession]
    exact .turn hTurn
  · rw [hId, if_neg hSame]
    exact (Turns.refl d).each id

/-- What is done with the session of a script changes nothing where there is none. -/
theorem withSession_turns {α : Type} {n : ScriptName} {work : Session → DeploymentWork α}
    (hWork : ∀ s, d.service.session? s.id = some s → Turns touched d (work s d).2) :
    Turns touched d ((Deployment.view (fun d => d.service.get n) >>= work) d).2 := by
  rcases withSession_cases n work d with ⟨s, -, hSession, hAfter⟩ | ⟨_, -, hAfter⟩
  · rw [hAfter]
    exact hWork s hSession
  · rw [hAfter]
    exact .refl d

/-- A session that is asked by its identity. -/
theorem elim_session?_turns {f : Session → Deployment}
    (hSome : ∀ s, d.service.session? s.id = some s → Turns touched d (f s)) :
    Turns touched d ((d.service.session? id).elim d f) := by
  cases hSession : d.service.session? id with
  | none => exact .refl d
  | some s => exact hSome s (session?_self hSession)

-- ---------------------------------------------------------------------------
-- Readers and writers
-- ---------------------------------------------------------------------------

/-- The session of which an output is read, and what its reader finds. -/
def Deployment.read? (d : Deployment) (id : Nat) (stream : Stream) :
    Option (Session × Host.PipeRead) :=
  (d.service.session? id).bind fun s =>
    if s.reading.contains stream then
      some (s, (d.host.readPipe (s.pipes.ofStream stream) Deployment.readSize).1)
    else none

/-- What becomes of a session by what a reader of it finds. -/
def Session.reads (s : Session) (stream : Stream) : Host.PipeRead → Session
  | .bytes bytes => s.publish bytes
  | .empty => s
  | .ended => s.stopReading stream

theorem Session.reads_life (s : Session) (stream : Stream) (got : Host.PipeRead) :
    (s.reads stream got).life = s.life := by
  cases got <;> rfl

theorem read?_cases {stream : Stream} {got : Host.PipeRead}
    (h : d.read? id stream = some (s, got)) :
    d.service.session? id = some s ∧ s.reading.contains stream = true ∧
      (d.host.readPipe (s.pipes.ofStream stream) Deployment.readSize).1 = got := by
  obtain ⟨x, hSession, hRest⟩ := Option.bind_eq_some_iff.mp h
  split at hRest
  · next hReading =>
    cases hRest
    exact ⟨hSession, hReading, rfl⟩
  · cases hRest

/-- What a reader at work makes of what it finds. -/
theorem readOutput?_apply {stream : Stream} (hSession : d.service.session? id = some s)
    (hReading : s.reading.contains stream = true) :
    d.readOutput? id stream =
      match d.host.readPipe (s.pipes.ofStream stream) Deployment.readSize with
      | (.bytes bytes, host) => some ({ d with host }.setSession (s.publish bytes))
      | (.ended, _) => some (d.letGoOutput s stream)
      | (.empty, _) => none := by
  rw [Deployment.readOutput?, hSession, Option.bind_eq_bind, Option.bind_some, hReading]
  rfl

/-- Readers leave all sessions alone but the one that they read, and the configuration. -/
theorem read_session? {stream : Stream} {got : Host.PipeRead}
    (h : d.read? id stream = some (s, got)) :
    ((Move.readOutput id stream).perform d).service.config = d.service.config ∧
      ∀ i, ((Move.readOutput id stream).perform d).service.session? i =
        if i = id then some (s.reads stream got) else d.service.session? i := by
  obtain ⟨hSession, hReading, hFound⟩ := read?_cases h
  have hId := session?_id hSession
  have hSet : ∀ (e : Deployment) (t : Session), e.service = d.service → t.id = s.id →
      ∀ i, (e.setSession t).service.session? i =
        if i = id then some t else d.service.session? i := by
    intro e t hService hSame i
    rw [session?_setSession, hSame, hId, hService]
    split
    · next hi => rw [hi, hSession, Option.map_some]
    · rfl
  rw [Move.perform, readOutput?_apply hSession hReading]
  rcases hPipe : d.host.readPipe (s.pipes.ofStream stream) Deployment.readSize with ⟨found, host⟩
  rw [hPipe] at hFound
  obtain rfl : found = got := hFound
  cases found with
  | bytes bytes => exact ⟨rfl, hSet { d with host } (s.publish bytes) rfl rfl⟩
  | empty =>
    refine ⟨rfl, fun i => ?_⟩
    show d.service.session? i = if i = id then some s else d.service.session? i
    split
    · next hi => rw [hi, hSession]
    · rfl
  | ended => exact ⟨rfl, hSet d (s.stopReading stream) rfl rfl⟩

/-- Without a reader at work nothing is read. -/
theorem perform_readOutput_of_none {stream : Stream} (h : d.read? id stream = none) :
    (Move.readOutput id stream).perform d = d := by
  have hNone : d.readOutput? id stream = none := by
    rw [Deployment.readOutput?]
    cases hSession : d.service.session? id with
    | none => rfl
    | some s =>
      have hNot : s.reading.contains stream = false := by
        simpa [Deployment.read?, hSession] using h
      rw [Option.bind_eq_bind, Option.bind_some, hNot]
      rfl
  rw [Move.perform, hNone]
  rfl

/-- Writing input of a session changes its queue or lets go of the pipe. -/
theorem writeInput?_turns (h : d.writeInput? id = some d') : Turns touched d d' := by
  obtain ⟨x, _, input, host, hSession, -, rfl⟩ := writeInput?_cases h
  exact (setSession_turns (session?_self hSession) (.feed input)).of_service rfl rfl

-- ---------------------------------------------------------------------------
-- Requests
-- ---------------------------------------------------------------------------

theorem queueInput_turns (hSession : d.service.session? s.id = some s) (bytes : List UInt8) :
    Turns touched d (Deployment.queueInput s bytes d).2 := by
  rw [queueInput_apply]
  split
  · exact setSession_turns hSession (.feed _)
  · exact .refl d

theorem subscribe_turns (hSession : d.service.session? s.id = some s) :
    Turns touched d (Deployment.subscribe s d).2 := setSession_turns hSession .subscribe

/-- Nobody but those who have hold of a receiver touch it. -/
theorem receive_turns (d : Deployment) (id r : Nat) :
    Turns (fun i j => i = id ∧ j = r) d (d.receive id r).2 := by
  rw [Deployment.receive]
  cases hSession : d.service.session? id with
  | none => exact .refl d
  | some s => exact setSession_turns (session?_self hSession) (.receive ⟨session?_id hSession, rfl⟩)

theorem unsubscribe_turns (d : Deployment) (id r : Nat) :
    Turns (fun i j => i = id ∧ j = r) d (d.unsubscribe id r) := by
  rw [Deployment.unsubscribe]
  cases hSession : d.service.session? id with
  | none => exact .refl d
  | some s => exact setSession_turns (session?_self hSession) (.drop ⟨session?_id hSession, rfl⟩)

/-- Each of the sessions is asked as it was found; asking one again changes nothing. -/
theorem stopAll_turns (d : Deployment) : Turns touched d d.stopAll.2 := by
  -- while they are asked, a session is as it was found, or has been asked
  have hAsk : ∀ (sessions : List Session) (e : Deployment),
      (∀ s ∈ sessions, d.service.session? s.id = some s) →
      e.service.config = d.service.config →
      (∀ id, e.service.session? id = d.service.session? id ∨
        ∃ s, d.service.session? id = some s ∧ e.service.session? id = some s.requestStop) →
      Turns touched d (sessions.foldl (fun e s => e.setSession s.requestStop) e) := by
    intro sessions
    induction sessions with
    | nil =>
      intro e _ hConfig hSoFar
      refine ⟨hConfig, fun id => ?_⟩
      show Turned (touched id) _ _ (d.service.session? id) (e.service.session? id)
      rcases hSoFar id with hSame | ⟨s, hSession, hAsked⟩
      · rw [hSame]
        exact (Turns.refl d).each id
      · rw [hSession, hAsked]
        exact .turn .requestStop
    | cons s rest ih =>
      intro e hFound hConfig hSoFar
      refine ih _ (fun x hMem => hFound x (List.mem_cons_of_mem s hMem)) hConfig fun id => ?_
      rw [session?_setSession]
      by_cases hId : id = s.id
      · subst hId
        have hSession := hFound s List.mem_cons_self
        refine Or.inr ⟨s, hSession, ?_⟩
        rw [if_pos (show s.id = s.requestStop.id from rfl)]
        rcases hSoFar s.id with hSame | ⟨_, _, hAsked⟩
        · rw [hSame, hSession, Option.map_some]
        · rw [hAsked, Option.map_some]
      · rw [if_neg (show ¬ id = s.requestStop.id from hId)]
        exact hSoFar id
  refine hAsk d.service.liveSessions d (fun s hMem => ?_) rfl fun id => Or.inl rfl
  obtain ⟨id, -, hSession⟩ := List.mem_filterMap.mp hMem
  exact session?_self hSession

/-- Work that leaves the sessions and the configuration alone. -/
abbrev KeepsSessions {α : Type} (work : DeploymentWork α) : Prop :=
  Work.Keeps (fun d d' => d'.service.sessions = d.service.sessions ∧
    d'.service.config = d.service.config) work

theorem KeepsSessions.bind {α β : Type} {work : DeploymentWork α} {rest : α → DeploymentWork β}
    (hFirst : KeepsSessions work) (hRest : ∀ a, KeepsSessions (rest a)) :
    KeepsSessions (work >>= rest) :=
  Work.Keeps.bind (fun _ _ _ h h' => ⟨h'.1.trans h.1, h'.2.trans h.2⟩) hFirst hRest

theorem onStore_sessions {α : Type} (work : StoreWork α) :
    KeepsSessions (Deployment.onStore work) := fun _ => ⟨rfl, rfl⟩

theorem view_sessions {α : Type} (f : Deployment → Except Fault α) :
    KeepsSessions (Deployment.view f) := fun _ => ⟨rfl, rfl⟩

theorem get_sessions : KeepsSessions (get : DeploymentWork Deployment) :=
  fun _ => ⟨rfl, rfl⟩

theorem check_sessions {n : ScriptName} {found : Except Fault Unit} {d d' : Deployment}
    (h : Deployment.check n d = (found, d')) :
    d'.service.sessions = d.service.sessions ∧ d'.service.config = d.service.config := by
  have hKeeps : KeepsSessions (Deployment.check n) := by
    refine (onStore_sessions _).bind fun verdict d => ?_
    split <;> exact ⟨rfl, rfl⟩
  have hSame := hKeeps d
  rwa [h] at hSame

theorem upload_sessions (fileName : String) (bytes : List UInt8) :
    KeepsSessions (Deployment.saveUpload fileName bytes) :=
  (view_sessions _).bind fun _ => (view_sessions _).bind fun _ => onStore_sessions _

theorem delete_sessions (n : ScriptName) : KeepsSessions (Deployment.deleteScript n) :=
  (view_sessions _).bind fun _ => onStore_sessions _

theorem list_sessions : KeepsSessions Deployment.listScripts :=
  (onStore_sessions _).bind fun _ => get_sessions.bind fun _ => onStore_sessions _

theorem record_sessions (n : ScriptName) : KeepsSessions (Deployment.scriptRecord n) :=
  (onStore_sessions _).bind fun _ => get_sessions.bind fun _ => onStore_sessions _

/-- The receivers that a move touches. -/
def Move.Touches : Move → Nat → Nat → Prop
  | .receive id r, i, j | .unsubscribe id r, i, j => i = id ∧ j = r
  | _, _, _ => False

theorem move_turns {m : Move} (hRead : ∀ id stream, m = .readOutput id stream →
    d.read? id stream = none) : Turns m.Touches d (m.perform d) := by
  cases m with
  | stop n => exact withSession_turns fun s hSession => setSession_turns hSession .requestStop
  | input n bytes => exact withSession_turns fun s hSession => queueInput_turns hSession bytes
  | watch n =>
    refine withSession_turns fun s hSession => ?_
    exact subscribe_turns hSession
  | stopSession id =>
    exact elim_session?_turns fun s hSession => setSession_turns hSession .requestStop
  | inputSession id bytes =>
    exact elim_session?_turns fun s hSession => queueInput_turns hSession bytes
  | watchSession id => exact elim_session?_turns fun s hSession => subscribe_turns hSession
  | receive id r => exact receive_turns d id r
  | unsubscribe id r => exact unsubscribe_turns d id r
  | stopAll => exact stopAll_turns d
  | list => exact .of_sessions (list_sessions d).1 (list_sessions d).2
  | record n => exact .of_sessions (record_sessions n d).1 (record_sessions n d).2
  | autoboot n enabled => exact .of_sessions rfl rfl
  | readOutput id stream =>
    rw [perform_readOutput_of_none (hRead id stream rfl)]
    exact .refl d
  | writeInput id =>
    cases hWrite : d.writeInput? id with
    | none => simpa [Move.perform, hWrite] using Turns.refl d
    | some d' => simpa [Move.perform, hWrite] using writeInput?_turns hWrite
  | remember analyses => exact .of_sessions rfl rfl
  | world host => exact .of_sessions rfl rfl

-- ---------------------------------------------------------------------------
-- Steps
-- ---------------------------------------------------------------------------

/-- A spawn that succeeds adds a new session. -/
theorem spawn_turns {n : ScriptName} {session : Session}
    (h : Deployment.spawn n d = (.ok session, d'))
    (hNew : d.service.session? d.service.nextSession = none) : Turns touched d d' := by
  obtain ⟨hLife, -, hSessions, -⟩ := spawn_ok h
  have hId : session.id = d.service.nextSession := congrArg Life.id hLife
  obtain ⟨piped, started, hSpawned⟩ := spawned_of_spawn h
  obtain ⟨i, m, pid, pipes, now, rfl⟩ : ∃ i m pid pipes now,
      session = Session.new i m pid pipes now d.service.config.replayLimit :=
    ⟨_, _, _, _, _, hSpawned.made⟩
  refine ⟨hSpawned.config, fun id => ?_⟩
  by_cases hSame : id = i
  · subst hSame
    have hFound : d'.service.session? id =
        some (Session.new id m pid pipes now d.service.config.replayLimit) := by
      rw [Service.session?, hSessions, List.find?_cons_of_pos (by simp [Session.new])]
    have hNone : d.service.session? id = none := by
      rw [show id = d.service.nextSession from hId]
      exact hNew
    rw [hFound, hNone]
    exact .begun _ _ _ _ (Nat.le_of_eq hId.symm)
  · have hOther : d'.service.session? id = d.service.session? id := by
      rw [Service.session?, hSessions, List.find?_cons_of_neg (by simpa [Session.new] using Ne.symm hSame)]
      rfl
    rw [hOther]
    exact (Turns.refl d).each id

/-- No session has the next identity. -/
theorem Scene.Sound.next_session? {s : Scene} (h : s.Sound) :
    s.deployment.service.session? s.deployment.service.nextSession = none := by
  cases hSession : s.deployment.service.session? s.deployment.service.nextSession with
  | none => rfl
  | some session =>
    have hBelow := h.idsBelow session.life (life_mem hSession)
    have hId : session.life.id = s.deployment.service.nextSession := session?_id hSession
    exact absurd hBelow (by omega)

/-- No receiver is touched. -/
def untouched (_ : Nat) (_ : Nat) : Prop := False

/-- The receivers that an action touches. -/
def Action.Touches : Action → Nat → Nat → Prop
  | .move m => m.Touches
  | _ => untouched

/-- Whether an action is neither a supervisor's nor that of a reader at work. -/
def Action.IsOthers (s : Scene) : Action → Prop
  | .supervise _ => False
  | .move (.readOutput id stream) => s.deployment.read? id stream = none
  | _ => True

/-- Whatever others do is a turn of each session at most. -/
theorem step_turns {s s' : Scene} {a : Action} (h : s.Sound) (hStep : Step s a s')
    (hOthers : a.IsOthers s) : Turns a.Touches s.deployment s'.deployment := by
  cases hStep with
  | reserve _ hReserve =>
    obtain ⟨slots, -, rfl⟩ := reserve_ok hReserve
    exact .of_sessions rfl rfl
  | refuse _ hReserve =>
    rw [reserve_error hReserve]
    exact .refl _
  | check _ hCheck => exact .of_sessions (check_sessions hCheck).1 (check_sessions hCheck).2
  | reject _ hCheck => exact .of_sessions (check_sessions hCheck).1 (check_sessions hCheck).2
  | spawn _ hSpawn => exact spawn_turns hSpawn h.next_session?
  | spawnFails _ hSpawn =>
    rw [spawn_error hSpawn]
    exact .refl _
  | publish => exact .of_sessions rfl rfl
  | vacate => exact .of_sessions rfl rfl
  | handOver => exact .refl _
  | supervise => exact absurd hOthers id
  | upload fileName bytes =>
    have hSame := upload_sessions fileName bytes s.deployment
    exact .of_sessions hSame.1 hSame.2
  | delete n =>
    have hSame := delete_sessions n s.deployment
    exact .of_sessions hSame.1 hSame.2
  | move m =>
    refine move_turns fun id stream hm => ?_
    rw [hm] at hOthers
    exact hOthers

-- ---------------------------------------------------------------------------
-- Supervisors
-- ---------------------------------------------------------------------------

/-- What becomes of a session by what its supervisor does. -/
def Session.does (s : Session) : SupervisorAct → Session
  | .abandon stream => s.stopReading stream
  | .closeInput => { s with input := s.input.close }
  | .announce exit => { s with hub := s.hub.finish exit }
  | .reap | .signal _ | .writeLog _ | .leave | .nothing => s

theorem Session.does_life (s : Session) (act : SupervisorAct) : (s.does act).life = s.life := by
  cases act <;> rfl

/-- What the supervisor of a session does next, if anything, and the session as it is then. -/
def Deployment.act? (d : Deployment) (id : Nat) (stopFirst : Bool) :
    Option (Session × SupervisorAct) := do
  let s ← d.service.session? id
  let o := s.outlook d.host.now d.service.config.gracePeriod (d.host.statusOf? s.pid)
  let (supervision, act) ← s.supervision.step? { o with stopFirst }
  some ({ s with supervision }, act)

theorem superviseSeeing?_eq_some {stopFirst : Bool} :
    d.superviseSeeing? id stopFirst = some d' ↔ ∃ x act, d.act? id stopFirst = some (x, act) ∧
      d' = (d.setSession x).perform x act := by
  rw [Deployment.superviseSeeing?, Deployment.act?]
  cases d.service.session? id with
  | none => simp
  | some s =>
    simp only [Option.bind_eq_bind, Option.bind_some]
    generalize Supervision.step? _ _ = next
    cases next <;> simp [eq_comm]

/-- A supervisor goes on from what it was at; the session is otherwise the same. -/
theorem act?_cases {stopFirst : Bool} {x : Session} {act : SupervisorAct}
    (h : d.act? id stopFirst = some (x, act)) :
    ∃ s o supervision, d.service.session? id = some s ∧ o.reading = s.reading ∧
      s.supervision.step? o = some (supervision, act) ∧ x = { s with supervision } := by
  obtain ⟨s, hSession, hRest⟩ := Option.bind_eq_some_iff.mp h
  obtain ⟨⟨supervision, act'⟩, hStep, hDone⟩ := Option.bind_eq_some_iff.mp hRest
  cases hDone
  exact ⟨s, _, supervision, hSession, rfl, hStep, rfl⟩

/-- What a supervisor does to the sessions: its own is what the act makes of it. -/
theorem perform_session? {x : Session} (hSession : d.service.session? x.id = some x)
    (act : SupervisorAct) (i : Nat) : (d.perform x act).service.session? i =
      if i = x.id then some (x.does act) else d.service.session? i := by
  have hSame : d.service.session? i = if i = x.id then some x else d.service.session? i := by
    split
    · next hi => rw [hi, hSession]
    · rfl
  have hSet : ∀ y : Session, y.id = x.id → (d.setSession y).service.session? i =
      if i = x.id then some y else d.service.session? i := by
    intro y hId
    rw [session?_setSession, hId]
    split
    · next hi => rw [hi, hSession, Option.map_some]
    · rfl
  cases act with
  | abandon stream => exact hSet (x.stopReading stream) rfl
  | closeInput => exact hSet { x with input := x.input.close } rfl
  | announce exit => exact hSet { x with hub := x.hub.finish exit } rfl
  | writeLog exit =>
    have hFiles : (d.writeLog x exit).service.session? i = d.service.session? i := by
      rw [Deployment.writeLog]
      simp only
      split <;> rfl
    exact hFiles.trans hSame
  | _ => exact hSame

theorem perform_config (d : Deployment) (x : Session) (act : SupervisorAct) :
    (d.perform x act).service.config = d.service.config := by
  cases act with
  | writeLog exit =>
    show (d.writeLog x exit).service.config = _
    rw [Deployment.writeLog]
    simp only
    split <;> rfl
  | _ => rfl

theorem act_session? {stopFirst : Bool} {x : Session} {act : SupervisorAct}
    (h : d.act? id stopFirst = some (x, act)) (i : Nat) :
    ((d.setSession x).perform x act).service.session? i =
      if i = id then some (x.does act) else d.service.session? i := by
  obtain ⟨s, o, supervision, hSession, -, -, rfl⟩ := act?_cases h
  have hId := session?_id hSession
  have hSet : ∀ j, (d.setSession { s with supervision }).service.session? j =
      if j = id then some { s with supervision } else d.service.session? j := by
    intro j
    rw [session?_setSession, show ({ s with supervision } : Session).id = id from hId]
    split
    · next hj => rw [hj, hSession, Option.map_some]
    · rfl
  have hKnown := (hSet id).trans (if_pos rfl)
  rw [perform_session? (x := { s with supervision }) (by rw [← hId] at hKnown; exact hKnown), hSet]
  show (if i = s.id then _ else _) = _
  rw [hId]
  split <;> rfl

end ScriptWarden
