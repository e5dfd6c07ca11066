import Mathlib.Data.List.Nodup
import ScriptWarden.Proofs.Rules
import ScriptWarden.Proofs.Runs.Scene
import ScriptWarden.Proofs.Sessions.Inputs
import ScriptWarden.Proofs.Slots

/-!
# Slots and lives

What every action does to the slots and to the lives of the sessions: who a session is, whose it is,
and what its supervisor is at. The actions of a start change the slot of its script and add a
session; a supervisor changes the life of its session and may give back the slot; everything else
leaves slots and lives alone, whatever it does to files, pipes, outputs and inputs. Nothing changes
what the registry goes by.

## Results

* `reserve_ok`, `check_sameBoard`, `spawned_of_spawn`, `spawn_ok` — the steps of a start.
* `Supervision.step?_cases`, `superviseSeeing?_cases` — the steps of a supervisor.
* `move_sameBoard`, `upload_sameBoard`, `delete_sameBoard` — everything else.
* `start_isRun` — a start that nothing comes between is a run.
-/

namespace ScriptWarden

-- ---------------------------------------------------------------------------
-- Lives
-- ---------------------------------------------------------------------------

/-- Who a session is, whose it is, and what its supervisor is at. -/
structure Life where
  id : Nat
  name : ScriptName
  supervision : Supervision
deriving DecidableEq

/-- The life of a session. -/
def Session.life (s : Session) : Life := ⟨s.id, s.name, s.supervision⟩

/-- The lives of all sessions there have been. -/
def Deployment.lives (d : Deployment) : List Life := d.service.sessions.map Session.life

/-- Every session has an identity of its own. -/
def Deployment.OwnIds (d : Deployment) : Prop := (d.lives.map Life.id).Nodup

/-- Slots, lives and the next identity are the same, and the registry goes by the same. -/
structure SameBoard (d d' : Deployment) : Prop where
  slots : d'.slots = d.slots
  lives : d'.lives = d.lives
  next : d'.service.nextSession = d.service.nextSession
  rules : d'.service.registry.bare = d.service.registry.bare

theorem SameBoard.refl (d : Deployment) : SameBoard d d := ⟨rfl, rfl, rfl, rfl⟩

theorem SameBoard.trans {d e f : Deployment} (h : SameBoard d e) (h' : SameBoard e f) :
    SameBoard d f :=
  ⟨h'.slots.trans h.slots, h'.lives.trans h.lives, h'.next.trans h.next, h'.rules.trans h.rules⟩

theorem SameBoard.ownIds {d d' : Deployment} (h : SameBoard d d') (hIds : d.OwnIds) :
    d'.OwnIds := by
  rw [Deployment.OwnIds, h.lives]
  exact hIds

theorem session?_mem {d : Deployment} {id : Nat} {s : Session}
    (h : d.service.session? id = some s) : s ∈ d.service.sessions ∧ s.id = id := by
  rw [Service.session?] at h
  exact ⟨List.mem_of_find?_eq_some h, by simpa using List.find?_some h⟩

theorem session?_id {d : Deployment} {id : Nat} {s : Session}
    (h : d.service.session? id = some s) : s.id = id := (session?_mem h).2

theorem session?_self {d : Deployment} {id : Nat} {s : Session}
    (h : d.service.session? id = some s) : d.service.session? s.id = some s := by
  rwa [session?_id h]

theorem life_mem {d : Deployment} {id : Nat} {s : Session}
    (h : d.service.session? id = some s) : s.life ∈ d.lives :=
  List.mem_map_of_mem (session?_mem h).1

/-- Sessions with the same identity have the same life. -/
theorem life_eq_of_id_eq {d : Deployment} (hIds : d.OwnIds) {l l' : Life} (h : l ∈ d.lives)
    (h' : l' ∈ d.lives) (hId : l.id = l'.id) : l = l' :=
  List.inj_on_of_nodup_map hIds h h' hId

/-- Where a session becomes another, so does its life. -/
theorem lives_setSession (d : Deployment) (s : Session) :
    (d.setSession s).lives = d.lives.map fun l => if l.id = s.id then s.life else l := by
  rw [Deployment.lives, Deployment.lives, List.map_map]
  show List.map _ (List.map _ _) = _
  rw [List.map_map]
  apply List.map_congr_left
  intro x _
  by_cases hId : x.id = s.id
  · simp [Session.life, hId]
  · simp [Session.life, hId]

/-- A session that keeps its life may change otherwise. -/
theorem setSession_sameBoard {d : Deployment} (hIds : d.OwnIds) {s : Session}
    (hLife : s.life ∈ d.lives) : SameBoard d (d.setSession s) := by
  refine ⟨rfl, ?_, rfl, rfl⟩
  rw [lives_setSession]
  calc d.lives.map (fun l => if l.id = s.id then s.life else l)
      = d.lives.map id := by
        apply List.map_congr_left
        intro l hMem
        by_cases hId : l.id = s.id
        · rw [if_pos hId, life_eq_of_id_eq hIds hMem hLife hId, id]
        · rw [if_neg hId, id]
    _ = d.lives := List.map_id _

theorem host_sameBoard (d : Deployment) (host : Host) : SameBoard d { d with host } :=
  ⟨rfl, rfl, rfl, rfl⟩

/-- Work that leaves slots and lives alone. -/
abbrev KeepsBoard {α : Type} (work : DeploymentWork α) : Prop := Work.Keeps SameBoard work

theorem KeepsBoard.bind {α β : Type} {work : DeploymentWork α} {rest : α → DeploymentWork β}
    (hFirst : KeepsBoard work) (hRest : ∀ a, KeepsBoard (rest a)) : KeepsBoard (work >>= rest) :=
  Work.Keeps.bind (fun _ _ _ h h' => h.trans h') hFirst hRest

theorem view_keeps {α : Type} (f : Deployment → Except Fault α) :
    KeepsBoard (Deployment.view f) := SameBoard.refl

theorem get_keeps : KeepsBoard (get : DeploymentWork Deployment) := SameBoard.refl

/-- Work on the store leaves the sessions and their slots alone. -/
theorem onStore_keeps {α : Type} {work : StoreWork α} (hRules : Store.KeepsRules work) :
    KeepsBoard (Deployment.onStore work) :=
  fun _ => ⟨rfl, rfl, rfl, hRules _⟩

-- ---------------------------------------------------------------------------
-- The steps of a start
-- ---------------------------------------------------------------------------

theorem reserve_ok {n : ScriptName} {d d' : Deployment}
    (h : Deployment.reserve n d = (.ok (), d')) :
    ∃ slots, d.slots.reserve n = .ok slots ∧ d' = d.withSlots slots := by
  rw [Deployment.reserve] at h
  split at h
  · next slots hSlots => exact ⟨slots, hSlots, by cases h; rfl⟩
  · cases h

theorem reserve_error {n : ScriptName} {f : Fault} {d d' : Deployment}
    (h : Deployment.reserve n d = (.error f, d')) : d' = d := by
  rw [Deployment.reserve] at h
  split at h
  · cases h
  · cases h
    rfl

theorem check_sameBoard {n : ScriptName} {found : Except Fault Unit} {d d' : Deployment}
    (h : Deployment.check n d = (found, d')) : SameBoard d d' := by
  have hVerdict : Store.KeepsRules (Store.ask fun r fs => r.verdict fs n) :=
    Store.ask_rules fun r fs => r.verdict_bare fs n
  have hKeeps : KeepsBoard (Deployment.check n) := by
    refine (onStore_keeps hVerdict).bind fun verdict => ?_
    split
    · exact Work.Keeps.throw SameBoard.refl _
    · exact Work.Keeps.pure SameBoard.refl _
  have hBoard := hKeeps d
  rwa [h] at hBoard

/-- A check changes nothing but what is remembered. -/
theorem check_keeps {n : ScriptName} {found : Except Fault Unit} {d d' : Deployment}
    (h : Deployment.check n d = (found, d')) :
    d'.host = d.host ∧ d'.service.config = d.service.config := by
  have hKeeps : Work.Keeps (fun d d' => d'.host = d.host ∧ d'.service.config = d.service.config)
      (Deployment.check n) := by
    refine Work.Keeps.bind (fun _ _ _ h h' => ⟨h'.1.trans h.1, h'.2.trans h.2⟩)
      (fun _ => ⟨rfl, rfl⟩) fun verdict => ?_
    split <;> exact fun _ => ⟨rfl, rfl⟩
  have hSame := hKeeps d
  rwa [h] at hSame

/-- What a spawn that succeeds has done. The pipes of the session are made first, which changes
neither files nor processes of the host; the host starts a process, and the service has a new session
of it. -/
structure Spawned (n : ScriptName) (d d' : Deployment) (session : Session) (piped started : Host) :
    Prop where
  pipedFiles : piped.files = d.host.files
  pipedProcesses : piped.processes = d.host.processes
  spawns : ∃ environment descriptors, piped.spawn d.service.config.interpreter
    (Deployment.scriptArguments d.service.config d.service.registry.site n) environment
    (d.service.registry.site.seen d.service.registry.site.scriptsDir) descriptors =
      .ok (session.pid, started)
  made : session = Session.new d.service.nextSession n session.pid session.pipes started.now
    d.service.config.replayLimit
  files : d'.host.files = started.files
  processes : d'.host.processes = started.processes
  slots : d'.slots = d.slots
  sessions : d'.service.sessions = session :: d.service.sessions
  next : d'.service.nextSession = d.service.nextSession + 1
  registry : d'.service.registry = d.service.registry
  config : d'.service.config = d.service.config

theorem spawned_of_spawn {n : ScriptName} {session : Session} {d d' : Deployment}
    (h : Deployment.spawn n d = (.ok session, d')) :
    ∃ piped started, Spawned n d d' session piped started := by
  rw [Deployment.spawn] at h
  simp only at h
  split at h
  · cases h
  · next pid started hSpawn =>
    cases h
    refine ⟨_, started, ?_, ?_, ⟨_, _, hSpawn⟩, ?_, ?_, ?_, ?_, ?_, ?_, ?_, ?_⟩ <;> rfl

/-- A spawn that succeeds adds a session with a new identity, watched from now on. -/
theorem spawn_ok {n : ScriptName} {session : Session} {d d' : Deployment}
    (h : Deployment.spawn n d = (.ok session, d')) :
    session.life = ⟨d.service.nextSession, n, .watching⟩ ∧ d'.slots = d.slots ∧
      d'.service.sessions = session :: d.service.sessions ∧
      d'.service.nextSession = d.service.nextSession + 1 ∧
      d'.service.registry = d.service.registry := by
  obtain ⟨piped, started, hSpawned⟩ := spawned_of_spawn h
  refine ⟨?_, hSpawned.slots, hSpawned.sessions, hSpawned.next, hSpawned.registry⟩
  rw [hSpawned.made]
  rfl

theorem spawn_error {n : ScriptName} {f : Fault} {d d' : Deployment}
    (h : Deployment.spawn n d = (.error f, d')) : d' = d := by
  rw [Deployment.spawn] at h
  simp only at h
  split at h
  · cases h
    rfl
  · cases h

-- ---------------------------------------------------------------------------
-- The steps of a supervisor
-- ---------------------------------------------------------------------------

namespace Supervision

/-- Whether the process is still to be reaped. -/
def HoldsChild : Supervision → Prop
  | .watching | .asked _ | .killed => True
  | _ => False

instance : DecidablePred HoldsChild := fun s => by
  cases s <;> unfold HoldsChild <;> infer_instance

/-- Whether the slot has been given back. -/
def HasLeft : Supervision → Prop
  | .announcing _ | .finished => True
  | _ => False

theorem not_hasLeft_of_holdsChild {s : Supervision} (h : s.HoldsChild) : ¬ s.HasLeft := by
  cases s <;> simp_all [HoldsChild, HasLeft]

/-- What a step of a supervisor comes to: the child is held until it is reaped and never again, and
the slot is given back once. -/
theorem step?_cases {s s' : Supervision} {o : Outlook} {act : SupervisorAct}
    (h : s.step? o = some (s', act)) :
    (act = .reap ↔ s.HoldsChild ∧ ¬ s'.HoldsChild) ∧ (s'.HoldsChild → s.HoldsChild) ∧
      ((act = .leave ∧ ¬ s.HasLeft ∧ s'.HasLeft) ∨ (act ≠ .leave ∧ (s'.HasLeft ↔ s.HasLeft))) := by
  cases s with
  | watching =>
    simp only [step?] at h
    split at h
    · split at h <;> cases h <;> simp [HoldsChild, HasLeft]
    · split at h <;> cases h
      simp [HoldsChild, HasLeft]
  | asked deadline =>
    simp only [step?] at h
    split at h
    · cases h
      simp [HoldsChild, HasLeft]
    · split at h <;> cases h
      simp [HoldsChild, HasLeft]
  | killed =>
    obtain ⟨status, -, hEnded⟩ := Option.map_eq_some_iff.mp h
    cases hEnded
    simp [HoldsChild, HasLeft]
  | draining status left deadline =>
    cases left with
    | nil =>
      cases h
      simp [HoldsChild, HasLeft]
    | cons stream rest =>
      simp only [step?] at h
      split at h
      · cases h
        simp [HoldsChild, HasLeft]
      · split at h <;> cases h
        simp [HoldsChild, HasLeft]
  | recording exit =>
    cases h
    simp [HoldsChild, HasLeft]
  | leaving exit =>
    cases h
    simp [HoldsChild, HasLeft]
  | announcing exit =>
    cases h
    simp [HoldsChild, HasLeft]
  | finished => cases h

end Supervision

/-- What a supervisor does to slots and lives: the life of its session goes on, and the slot is
given back in one of its steps. -/
structure Supervised (d : Deployment) (l : Life) (supervision : Supervision) (d' : Deployment) :
    Prop where
  known : l ∈ d.lives
  lives : d'.lives = d.lives.map fun x => if x.id = l.id then { l with supervision } else x
  next : d'.service.nextSession = d.service.nextSession
  rules : d'.service.registry.bare = d.service.registry.bare
  child : supervision.HoldsChild → l.supervision.HoldsChild
  slots : (¬ l.supervision.HasLeft ∧ supervision.HasLeft ∧
      d'.slots = d.slots.release l.name l.id) ∨
    ((supervision.HasLeft ↔ l.supervision.HasLeft) ∧ d'.slots = d.slots)

theorem letGoOutput_sameBoard {d : Deployment} (hIds : d.OwnIds) {s : Session}
    (hLife : s.life ∈ d.lives) (stream : Stream) : SameBoard d (d.letGoOutput s stream) :=
  (setSession_sameBoard hIds (s := s.stopReading stream) hLife).trans (host_sameBoard _ _)

theorem writeLog_sameBoard (d : Deployment) (s : Session) (exit : Exit) :
    SameBoard d (d.writeLog s exit) := by
  rw [Deployment.writeLog]
  simp only
  split
  · exact ⟨rfl, rfl, rfl, rfl⟩
  · exact SameBoard.refl d

/-- Of what a supervisor does, only leaving changes a slot. -/
theorem perform_sameBoard {d : Deployment} (hIds : d.OwnIds) {s : Session}
    (hLife : s.life ∈ d.lives) {act : SupervisorAct} (hAct : act ≠ .leave) :
    SameBoard d (d.perform s act) := by
  cases act with
  | reap => exact host_sameBoard d _
  | signal number => exact host_sameBoard d _
  | abandon stream => exact letGoOutput_sameBoard hIds hLife stream
  | closeInput => exact setSession_sameBoard hIds (s := { s with input := s.input.close }) hLife
  | writeLog exit => exact writeLog_sameBoard d s exit
  | leave => exact absurd rfl hAct
  | announce exit => exact setSession_sameBoard hIds (s := { s with hub := s.hub.finish exit }) hLife
  | nothing => exact SameBoard.refl d

theorem superviseSeeing?_cases {d d' : Deployment} (hIds : d.OwnIds) {id : Nat} {stopFirst : Bool}
    (h : d.superviseSeeing? id stopFirst = some d') :
    ∃ l supervision, l.id = id ∧ Supervised d l supervision d' := by
  rw [Deployment.superviseSeeing?] at h
  obtain ⟨s, hSession, hRest⟩ := Option.bind_eq_some_iff.mp h
  obtain ⟨⟨supervision, act⟩, hStep, hPerform⟩ := Option.bind_eq_some_iff.mp hRest
  obtain ⟨hMem, rfl⟩ := session?_mem hSession
  have hKnown : s.life ∈ d.lives := life_mem hSession
  obtain ⟨-, hChild, hLeave⟩ := Supervision.step?_cases hStep
  -- the session with its new supervision, and the deployment before the act
  let s' : Session := { s with supervision }
  have hLives : (d.setSession s').lives =
      d.lives.map fun x => if x.id = s.life.id then { s.life with supervision } else x :=
    lives_setSession d s'
  have hIds' : (d.setSession s').OwnIds := by
    have hSame : (d.setSession s').lives.map Life.id = d.lives.map Life.id := by
      rw [hLives, List.map_map]
      apply List.map_congr_left
      intro x _
      by_cases hId : x.id = s.life.id <;> simp [hId]
    rw [Deployment.OwnIds, hSame]
    exact hIds
  have hLife : s'.life ∈ (d.setSession s').lives := by
    rw [hLives]
    exact List.mem_map.mpr ⟨s.life, hKnown, if_pos rfl⟩
  obtain rfl : (d.setSession s').perform s' act = d' := Option.some.inj hPerform
  refine ⟨s.life, supervision, rfl, ?_⟩
  rcases hLeave with ⟨rfl, hBefore, hAfter⟩ | ⟨hAct, hLeft⟩
  · exact ⟨hKnown, hLives, rfl, rfl, hChild, Or.inl ⟨hBefore, hAfter, rfl⟩⟩
  · have hSame := perform_sameBoard hIds' hLife hAct
    exact ⟨hKnown, hSame.lives.trans hLives, hSame.next, hSame.rules, hChild,
      Or.inr ⟨hLeft, hSame.slots⟩⟩

-- ---------------------------------------------------------------------------
-- Everything else
-- ---------------------------------------------------------------------------

theorem requestStop_sameBoard {d : Deployment} (hIds : d.OwnIds) {s : Session}
    (hLife : s.life ∈ d.lives) : SameBoard d (d.setSession s.requestStop) :=
  setSession_sameBoard hIds (s := s.requestStop) hLife

/-- Input that is accepted is in the queue, and input that is refused changes nothing. -/
theorem queueInput_apply (s : Session) (bytes : List UInt8) (d : Deployment) :
    Deployment.queueInput s bytes d =
      match s.input.accept s.name.text bytes with
      | .ok input => (.ok (), d.setSession { s with input })
      | .error f => (.error f, d) := by
  rw [Deployment.queueInput, Work.bind_apply]
  cases hInput : s.input.accept s.name.text bytes with
  | error f => simp [Deployment.view, Session.queueInput, hInput, Except.map]
  | ok input =>
    simp only [Deployment.view, Session.queueInput, hInput, Except.map]
    rfl

theorem queueInput_sameBoard {d : Deployment} (hIds : d.OwnIds) {s : Session}
    (hLife : s.life ∈ d.lives) (bytes : List UInt8) :
    SameBoard d (Deployment.queueInput s bytes d).2 := by
  rw [queueInput_apply]
  split
  · next input _ => exact setSession_sameBoard hIds (s := { s with input }) hLife
  · exact SameBoard.refl d

theorem subscribe_sameBoard {d : Deployment} (hIds : d.OwnIds) {s : Session}
    (hLife : s.life ∈ d.lives) : SameBoard d (Deployment.subscribe s d).2 :=
  setSession_sameBoard hIds (s := s.subscribe.2) hLife

/-- Asking for a session by the name of its script gives one that is known. -/
theorem get_session? {d : Deployment} {n : ScriptName} {s : Session}
    (h : d.service.get n = .ok s) : d.service.session? s.id = some s := by
  rw [Service.get] at h
  split at h
  · next session hLive =>
    cases h
    obtain ⟨id, -, hSession⟩ := Option.bind_eq_some_iff.mp hLive
    exact session?_self hSession
  · cases h

/-- What is done with the session of a script is done with one that is known. -/
theorem withSession_cases {α : Type} (n : ScriptName) (work : Session → DeploymentWork α)
    (d : Deployment) :
    (∃ s, d.service.get n = .ok s ∧ d.service.session? s.id = some s ∧
      (Deployment.view (fun d => d.service.get n) >>= work) d = work s d) ∨
    (∃ f, d.service.get n = .error f ∧
      (Deployment.view (fun d => d.service.get n) >>= work) d = (.error f, d)) := by
  rw [Work.bind_apply]
  cases hGet : d.service.get n with
  | error f => exact .inr ⟨f, rfl, by simp [Deployment.view, hGet]⟩
  | ok s => exact .inl ⟨s, rfl, get_session? hGet, by simp [Deployment.view, hGet]⟩

theorem withSession_sameBoard {α : Type} {d : Deployment} {n : ScriptName}
    {work : Session → DeploymentWork α}
    (hWork : ∀ s, s.life ∈ d.lives → SameBoard d (work s d).2) :
    SameBoard d ((Deployment.view (fun d => d.service.get n) >>= work) d).2 := by
  rcases withSession_cases n work d with ⟨s, -, hSession, hAfter⟩ | ⟨_, -, hAfter⟩
  · rw [hAfter]
    exact hWork s (life_mem hSession)
  · rw [hAfter]
    exact SameBoard.refl d

theorem stopAll_sameBoard {d : Deployment} (hIds : d.OwnIds) : SameBoard d d.stopAll.2 := by
  have hKnown : ∀ s ∈ d.service.liveSessions, s.life ∈ d.lives := by
    intro s hMem
    obtain ⟨id, -, hSession⟩ := List.mem_filterMap.mp hMem
    exact life_mem hSession
  show SameBoard d (d.service.liveSessions.foldl (fun d s => d.setSession s.requestStop) d)
  generalize d.service.liveSessions = sessions at hKnown
  induction sessions generalizing d with
  | nil => exact SameBoard.refl d
  | cons s rest ih =>
    have hFirst := requestStop_sameBoard hIds (hKnown s List.mem_cons_self)
    refine hFirst.trans (ih (hFirst.ownIds hIds) fun x hMem => ?_)
    rw [hFirst.lives]
    exact hKnown x (List.mem_cons_of_mem s hMem)

/-- A reader publishes what it reads of an output, or lets go of that. -/
theorem readOutput?_cases {d d' : Deployment} {id : Nat} {stream : Stream}
    (h : d.readOutput? id stream = some d') : ∃ s, d.service.session? id = some s ∧
      ((∃ bytes, d' = Deployment.setSession { d with
          host := (d.host.readPipe (s.pipes.ofStream stream) Deployment.readSize).2 }
          (s.publish bytes)) ∨
        d' = d.letGoOutput s stream) := by
  rw [Deployment.readOutput?] at h
  obtain ⟨s, hSession, hRest⟩ := Option.bind_eq_some_iff.mp h
  refine ⟨s, hSession, ?_⟩
  split at hRest
  · cases hRest
  · split at hRest
    · next bytes host hRead =>
      cases hRest
      exact .inl ⟨bytes, by rw [hRead]⟩
    · cases hRest
      exact .inr rfl
    · cases hRest

theorem readOutput?_sameBoard {d d' : Deployment} (hIds : d.OwnIds) {id : Nat} {stream : Stream}
    (h : d.readOutput? id stream = some d') : SameBoard d d' := by
  obtain ⟨s, hSession, ⟨bytes, rfl⟩ | rfl⟩ := readOutput?_cases h
  · have hHost := host_sameBoard d
      (d.host.readPipe (s.pipes.ofStream stream) Deployment.readSize).2
    exact hHost.trans (setSession_sameBoard (hHost.ownIds hIds) (s := s.publish bytes)
      (show s.life ∈ _ from life_mem hSession))
  · exact letGoOutput_sameBoard hIds (life_mem hSession) stream

/-- Writing input of a session changes its queue or lets go of the pipe. -/
theorem writeInput?_sameBoard {d d' : Deployment} (hIds : d.OwnIds) {id : Nat}
    (h : d.writeInput? id = some d') : SameBoard d d' := by
  obtain ⟨x, _, input, host, hSession, -, rfl⟩ := writeInput?_cases h
  have hHost := host_sameBoard d host
  exact hHost.trans (setSession_sameBoard (hHost.ownIds hIds) (s := { x with input })
    (show x.life ∈ _ from life_mem hSession))

/-- Requests about scripts and sessions, readers and writers of pipes, and the host leave slots and
lives alone. -/
theorem move_sameBoard {d : Deployment} (hIds : d.OwnIds) (m : Move) :
    SameBoard d (m.perform d) := by
  cases m with
  | stop n => exact withSession_sameBoard fun s hLife => requestStop_sameBoard hIds hLife
  | input n bytes => exact withSession_sameBoard fun s hLife => queueInput_sameBoard hIds hLife bytes
  | watch n =>
    refine withSession_sameBoard fun s hLife => ?_
    exact subscribe_sameBoard hIds hLife
  | stopSession id =>
    cases hSession : d.service.session? id with
    | none => simpa [Move.perform, hSession] using SameBoard.refl d
    | some s => simpa [Move.perform, hSession] using requestStop_sameBoard hIds (life_mem hSession)
  | inputSession id bytes =>
    cases hSession : d.service.session? id with
    | none => simpa [Move.perform, hSession] using SameBoard.refl d
    | some s =>
      simpa [Move.perform, hSession] using queueInput_sameBoard hIds (life_mem hSession) bytes
  | watchSession id =>
    cases hSession : d.service.session? id with
    | none => simpa [Move.perform, hSession] using SameBoard.refl d
    | some s => simpa [Move.perform, hSession] using subscribe_sameBoard hIds (life_mem hSession)
  | receive id receiver =>
    cases hSession : d.service.session? id with
    | none => simpa [Move.perform, Deployment.receive, hSession] using SameBoard.refl d
    | some s =>
      have hLife : s.life ∈ d.lives := life_mem hSession
      simpa [Move.perform, Deployment.receive, hSession] using
        setSession_sameBoard hIds (s := { s with hub := (s.hub.receive receiver).2 }) hLife
  | unsubscribe id receiver =>
    cases hSession : d.service.session? id with
    | none => simpa [Move.perform, Deployment.unsubscribe, hSession] using SameBoard.refl d
    | some s =>
      have hLife : s.life ∈ d.lives := life_mem hSession
      simpa [Move.perform, Deployment.unsubscribe, hSession] using
        setSession_sameBoard hIds (s := { s with hub := s.hub.drop receiver }) hLife
  | stopAll => exact stopAll_sameBoard hIds
  | list =>
    have hKeeps : KeepsBoard Deployment.listScripts :=
      (onStore_keeps (Store.view_rules _)).bind fun _ => get_keeps.bind fun _ =>
        onStore_keeps (Store.ask_rules fun r fs => r.records_bare fs _ _)
    exact hKeeps d
  | record n =>
    have hKeeps : KeepsBoard (Deployment.scriptRecord n) :=
      (onStore_keeps (Store.view_rules _)).bind fun _ => get_keeps.bind fun _ =>
        onStore_keeps (Store.ask_rules fun r fs => r.record_bare fs _ _ n)
    exact hKeeps d
  | autoboot n enabled => exact onStore_keeps (Store.setAutoboot_rules n enabled) d
  | readOutput id stream =>
    cases hRead : d.readOutput? id stream with
    | none => simpa [Move.perform, hRead] using SameBoard.refl d
    | some d' => simpa [Move.perform, hRead] using readOutput?_sameBoard hIds hRead
  | writeInput id =>
    cases hWrite : d.writeInput? id with
    | none => simpa [Move.perform, hWrite] using SameBoard.refl d
    | some d' => simpa [Move.perform, hWrite] using writeInput?_sameBoard hIds hWrite
  | remember analyses => exact ⟨rfl, rfl, rfl, rfl⟩
  | world host => exact host_sameBoard d host

theorem upload_sameBoard (fileName : String) (bytes : List UInt8) (d : Deployment) :
    SameBoard d (Deployment.saveUpload fileName bytes d).2 := by
  have hKeeps : KeepsBoard (Deployment.saveUpload fileName bytes) :=
    (view_keeps _).bind fun _ => (view_keeps _).bind fun _ =>
      onStore_keeps (Store.saveUpload_rules fileName bytes _)
  exact hKeeps d

theorem delete_sameBoard (n : ScriptName) (d : Deployment) :
    SameBoard d (Deployment.deleteScript n d).2 := by
  have hKeeps : KeepsBoard (Deployment.deleteScript n) :=
    (view_keeps _).bind fun _ => onStore_keeps (Store.retireScript_rules n)
  exact hKeeps d

-- ---------------------------------------------------------------------------
-- A start by itself
-- ---------------------------------------------------------------------------

/-- **A start that nothing comes between is a run.** From a scene with room for another call, a run
of the steps of that call leads to what the start makes of the deployment, with no call left. -/
theorem start_isRun {Allowed : Scene → Action → Scene → Prop} (s : Scene) {i : Nat}
    (hAllowed : ∀ s a s', a.caller? = some i → Allowed s a s') (hFree : s.calls i = none)
    (n : ScriptName) :
    Reaches Allowed s (s.withDeployment (Deployment.start n s.deployment).2) := by
  -- with the call gone, only the deployment differs
  have hEnd : ∀ d, ((s.withDeployment d).withCall i none) = s.withDeployment d :=
    fun d => Scene.withCall_eq_self hFree
  have hNext : ∀ {t u a}, Reaches Allowed s t → Step t a u → a.caller? = some i →
      Reaches Allowed s u := fun hReach hStep hCaller => hReach.step hStep (hAllowed _ _ _ hCaller)
  rw [start_apply]
  rcases hReserve : Deployment.reserve n s.deployment with ⟨f | _, d₁⟩
  · exact hNext .refl (.refuse hFree hReserve) rfl
  · have hReserved := hNext .refl (.reserve hFree hReserve) rfl
    rcases hCheck : Deployment.check n d₁ with ⟨f | _, d₂⟩
    · have hRejected := hNext hReserved (.reject (Scene.withCall_self _ i _) hCheck) rfl
      have hVacated := hNext hRejected (.vacate (Scene.withCall_self _ i _)) rfl
      simp only [Scene.withCall_withDeployment, Scene.withCall_withCall] at hVacated
      simp only [hCheck]
      rw [← hEnd]
      exact hVacated
    · have hChecked := hNext hReserved (.check (Scene.withCall_self _ i _) hCheck) rfl
      rcases hSpawn : Deployment.spawn n d₂ with ⟨f | session, d₃⟩
      · have hFailed := hNext hChecked (.spawnFails (Scene.withCall_self _ i _) hSpawn) rfl
        have hVacated := hNext hFailed (.vacate (Scene.withCall_self _ i _)) rfl
        simp only [Scene.withCall_withDeployment, Scene.withCall_withCall] at hVacated
        simp only [hCheck, hSpawn]
        rw [← hEnd]
        exact hVacated
      · have hSpawned := hNext hChecked (.spawn (Scene.withCall_self _ i _) hSpawn) rfl
        have hKnown : d₃.service.session? session.id = some session := by
          rw [Service.session?, (spawn_ok hSpawn).2.2.1]
          simp
        have hPublished := hNext hSpawned (.publish (Scene.withCall_self _ i _) hKnown) rfl
        have hHandedOver := hNext hPublished (.handOver (Scene.withCall_self _ i _)) rfl
        simp only [Scene.withCall_withDeployment, Scene.withCall_withCall] at hHandedOver
        simp only [hCheck, hSpawn]
        rw [← hEnd]
        exact hHandedOver

end ScriptWarden
