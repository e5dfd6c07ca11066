import ScriptWarden.Proofs.Runs.Chronicles
import ScriptWarden.Proofs.Runs.Fields
import ScriptWarden.Proofs.Runs.Supervisors

/-!
# Recordings of runs

A recording has every step of a run, newest first: the scene before it, who acted, and what happened.
From it can be read what the supervisor of a session saw and did, and when the session was asked to
end.

## Results

* `Recording` — a run with all its steps; `Reaches.recording` — every run has one.
* `Happens.attends` — what a step comes to for the supervisor of a session.
* `Recording.attended` — what the supervisor of a session has done.
* `step_isStopping`, `Recording.isStopping_iff` — a session is to end from when it is asked to.
-/

namespace ScriptWarden

-- ---------------------------------------------------------------------------
-- Recordings
-- ---------------------------------------------------------------------------

/-- One step of a run. -/
structure Occurrence where
  before : Scene
  action : Action
  told : Option Happening

/-- The scenes that runs lead to, with all the steps, newest first. -/
inductive Recording (Allowed : Scene → Action → Scene → Prop) (s₀ : Scene) :
    List Occurrence → Scene → Prop
  | begin : Recording Allowed s₀ [] s₀
  | next {past : List Occurrence} {s s' : Scene} {a : Action} {told : Option Happening} :
      Recording Allowed s₀ past s → Happens s a told s' → Allowed s a s' →
      Recording Allowed s₀ (⟨s, a, told⟩ :: past) s'

variable {Allowed : Scene → Action → Scene → Prop} {s₀ s s' t : Scene} {a : Action}
  {told : Option Happening} {past later earlier : List Occurrence} {e : Occurrence} {id : Nat}
  {x y : Session} {config : Config} {workingDir hostname : String} {host : Host}

theorem Recording.reaches (h : Recording Allowed s₀ past s) : Reaches Allowed s₀ s := by
  induction h with
  | begin => exact .refl
  | next _ hHappens hAllowed ih => exact ih.step hHappens.step hAllowed

/-- Every run can be recorded. -/
theorem Reaches.recording (h : Reaches Allowed s₀ s) : ∃ past, Recording Allowed s₀ past s := by
  induction h with
  | refl => exact ⟨[], .begin⟩
  | step _ hStep hAllowed ih =>
    obtain ⟨past, hPast⟩ := ih
    obtain ⟨told, hHappens⟩ := hStep.happens
    exact ⟨_, hPast.next hHappens hAllowed⟩

theorem Recording.sound (hSound : s₀.Sound) (h : Recording Allowed s₀ past s) : s.Sound :=
  reaches_sound hSound h.reaches

theorem Recording.trans (h : Recording Allowed s₀ past s) (h' : Recording Allowed s later t) :
    Recording Allowed s₀ (later ++ past) t := by
  induction h' with
  | begin => exact h
  | next _ hHappens hAllowed ih => exact ih.next hHappens hAllowed

theorem Recording.anyStep (h : Recording Allowed s₀ past s) : Recording AnyStep s₀ past s := by
  induction h with
  | begin => exact .begin
  | next _ hHappens _ ih => exact ih.next hHappens trivial

/-- A run up to one of its steps, and from then on. -/
theorem Recording.split (h : Recording Allowed s₀ (later ++ e :: earlier) s) :
    Recording Allowed s₀ earlier e.before ∧
      ∃ s₁, Happens e.before e.action e.told s₁ ∧ Allowed e.before e.action s₁ ∧
        Recording Allowed s₁ later s := by
  induction later generalizing s with
  | nil =>
    cases h with
    | next hPast hHappens hAllowed => exact ⟨hPast, s, hHappens, hAllowed, .begin⟩
  | cons e' later ih =>
    cases h with
    | next hPast hHappens hAllowed =>
      obtain ⟨hEarlier, s₁, hHere, hThere, hLater⟩ := ih hPast
      exact ⟨hEarlier, s₁, hHere, hThere, hLater.next hHappens hAllowed⟩

-- ---------------------------------------------------------------------------
-- Supervisors at work
-- ---------------------------------------------------------------------------

/-- What the supervisor of a session sees. -/
def Deployment.outlook (d : Deployment) (x : Session) : Outlook :=
  x.outlook d.host.now d.service.config.gracePeriod (d.host.statusOf? x.pid)

/-- What the supervisor of a session sees and does in a step, if it takes it, with the session. -/
def Occurrence.doing? (id : Nat) (e : Occurrence) : Option (Session × Supervision.Deed) :=
  match e.told with
  | some (.supervised x act _) =>
    if x.id = id then some (x, ⟨e.before.deployment.outlook x, act⟩) else none
  | _ => none

/-- What the supervisor of a session has seen and done, newest first. -/
def doings (id : Nat) (past : List Occurrence) : List (Session × Supervision.Deed) :=
  past.filterMap (·.doing? id)

/-- The signal that the supervisor of a session sends in a step, and to which process. -/
def Occurrence.signal? (id : Nat) (e : Occurrence) : Option (UInt32 × Nat) :=
  (e.doing? id).bind fun (x, d) => d.signal?.map (x.pid, ·)

/-- The signals that the supervisor of a session has sent, newest first, and to which processes. -/
def signals (id : Nat) (past : List Occurrence) : List (UInt32 × Nat) :=
  past.filterMap (·.signal? id)

/-- The ends that the supervisor of a session has announced. -/
def announcements (id : Nat) (past : List Occurrence) : List Exit :=
  (doings id past).filterMap (·.2.announced?)

theorem doings_append : doings id (later ++ past) = doings id later ++ doings id past :=
  List.filterMap_append

theorem doings_cons_none (h : e.doing? id = none) (past : List Occurrence) :
    doings id (e :: past) = doings id past :=
  List.filterMap_cons_none h

theorem doings_cons_some {p : Session × Supervision.Deed} (h : e.doing? id = some p)
    (past : List Occurrence) : doings id (e :: past) = p :: doings id past := List.filterMap_cons_some h

/-- What a step comes to for the supervisor of a session. -/
inductive Attends (e : Occurrence) (id : Nat) : Option Session → Option Session → Prop
  | acts {x : Session} {supervision : Supervision} {act : SupervisorAct} {stopFirst : Bool} :
      e.doing? id = some ({ x with supervision }, ⟨e.before.deployment.outlook x, act⟩) →
      x.supervision.step? { e.before.deployment.outlook x with stopFirst } =
        some (supervision, act) →
      Attends e id (some x) (some (Session.does { x with supervision } act))
  | rests {x y : Session} : e.doing? id = none → y.supervision = x.supervision →
      y.origin = x.origin → y.hub.ended = x.hub.ended → Attends e id (some x) (some y)
  | begins {y : Session} : e.doing? id = none → y.supervision = .watching → y.hub.ended = none →
      Attends e id none (some y)
  | absent : e.doing? id = none → Attends e id none none

theorem Attends.same (h : e.doing? id = none) (o : Option Session) : Attends e id o o := by
  cases o with
  | none => exact .absent h
  | some x => exact .rests h rfl rfl rfl

theorem Attends.of_turned {mine : Nat → Prop} {next limit : Nat} {before after : Option Session}
    (h : e.doing? id = none) (hTurned : Turned mine next limit before after) :
    Attends e id before after := by
  cases hTurned with
  | none => exact .absent h
  | begun => exact .begins h rfl rfl
  | turn hTurn =>
    exact .rests h (congrArg Life.supervision hTurn.life) hTurn.goesOn.origin hTurn.ended

/-- A supervisor goes on by what it sees. -/
theorem act?_outlook {d : Deployment} {stopFirst : Bool} {act : SupervisorAct}
    (h : d.act? id stopFirst = some (y, act)) :
    ∃ x supervision, d.service.session? id = some x ∧ y = { x with supervision } ∧
      x.supervision.step? { d.outlook x with stopFirst } = some (supervision, act) := by
  obtain ⟨x, hSession, hRest⟩ := Option.bind_eq_some_iff.mp h
  obtain ⟨⟨supervision, act'⟩, hStep, hDone⟩ := Option.bind_eq_some_iff.mp hRest
  cases hDone
  exact ⟨x, supervision, hSession, rfl, hStep⟩

theorem Happens.attends (h : s.Sound) (hHappens : Happens s a told s') (id : Nat) :
    Attends ⟨s, a, told⟩ id (s.deployment.service.session? id)
      (s'.deployment.service.session? id) := by
  cases hHappens with
  | @supervise i stopFirst y act _ hAct =>
    have hAfter := act_session? hAct id
    obtain ⟨x, supervision, hSession, rfl, hStep⟩ := act?_outlook hAct
    have hOwn : x.id = i := session?_id hSession
    show Attends _ id _ (Deployment.service _ |>.session? id)
    rw [Scene.withDeployment_deployment, hAfter]
    by_cases hId : id = i
    · subst hId
      rw [if_pos rfl, hSession]
      exact .acts (if_pos hOwn) hStep
    · rw [if_neg hId]
      have hOther : x.id ≠ id := fun hSame => hId (hSame.symm.trans hOwn)
      exact .same (by simp [Occurrence.doing?, hOther]) _
  | @read i stream y got hRead =>
    obtain ⟨-, hAfter⟩ := read_session? hRead
    rw [Scene.withDeployment_deployment, hAfter id]
    by_cases hId : id = i
    · subst hId
      rw [if_pos rfl, (read?_cases hRead).1]
      exact .rests rfl (congrArg Life.supervision (y.reads_life stream got))
        (show y.GoesOn (fun _ => True) _ from y.reads_goesOn stream got).origin (y.reads_ended stream got)
    · rw [if_neg hId]
      exact .same rfl _
  | delete n => exact .of_turned rfl ((step_turns h (.delete n) trivial).each id)
  | other hStep hOthers _ => exact .of_turned rfl ((step_turns h hStep hOthers).each id)

/-- What the supervisor of a session has done. -/
structure Attended (id : Nat) (past : List Occurrence) (x : Session) : Prop where
  course : Supervision.Course ((doings id past).map Prod.snd) x.supervision
  process : ∀ y d, (y, d) ∈ doings id past → y.pid = x.pid
  announced : announcements id past = x.hub.ended.toList
  finished : x.hub.ended.isSome = true ↔ x.supervision = .finished

theorem Attended.rests (h : Attended id past x) (hDoing : e.doing? id = none)
    (hSupervision : y.supervision = x.supervision) (hOrigin : y.origin = x.origin)
    (hEnded : y.hub.ended = x.hub.ended) : Attended id (e :: past) y := by
  have hDoings := doings_cons_none hDoing past
  constructor
  · rw [hDoings, hSupervision]
    exact h.course
  · rw [hDoings, show y.pid = x.pid from congrArg Origin.pid hOrigin]
    exact h.process
  · rw [announcements, hDoings, hEnded]
    exact h.announced
  · rw [hSupervision, hEnded]
    exact h.finished

/-- The end is announced in the last step of a supervisor, and in no other. -/
theorem Attended.acts {supervision : Supervision} {act : SupervisorAct} {stopFirst : Bool}
    (h : Attended id past x)
    (hDoing : e.doing? id = some ({ x with supervision }, ⟨e.before.deployment.outlook x, act⟩))
    (hStep : x.supervision.step? { e.before.deployment.outlook x with stopFirst } =
      some (supervision, act)) :
    Attended id (e :: past) (Session.does { x with supervision } act) := by
  have hDoings := doings_cons_some hDoing past
  have hPid : (Session.does { x with supervision } act).pid = x.pid := by
    cases act <;> rfl
  have hSteps := Supervision.steps_of_step? hStep
  have hEnded : announcements id (e :: past) =
        (Session.does { x with supervision } act).hub.ended.toList ∧
      ((Session.does { x with supervision } act).hub.ended.isSome = true ↔
        supervision = .finished) := by
    have hBefore : x.hub.ended = none := by
      rw [← Option.not_isSome_iff_eq_none, h.finished]
      intro hFinished
      rw [hFinished] at hStep
      cases hStep
    have hNone : announcements id past = [] := h.announced.trans (by rw [hBefore]; rfl)
    rw [announcements] at hNone ⊢
    rw [hDoings, List.filterMap_cons, hNone]
    generalize x.supervision = before at hSteps
    cases hSteps with
    | announce =>
      simp [Supervision.Deed.announced?, Session.does, Hub.finish, hBefore]
    | drain hAct => rcases hAct with rfl | rfl <;>
        simp [Supervision.Deed.announced?, Session.does, Session.stopReading, hBefore]
    | _ => simp [Supervision.Deed.announced?, Session.does, hBefore]
  refine ⟨?_, fun z d hMem => ?_, hEnded.1, ?_⟩
  · rw [hDoings, List.map_cons, Session.does_supervision]
    exact h.course.next stopFirst hStep
  · rw [hPid]
    rw [hDoings, List.mem_cons] at hMem
    rcases hMem with hNow | hEarlier
    · cases hNow
      rfl
    · exact h.process z d hEarlier
  · rw [Session.does_supervision]
    exact hEnded.2

theorem Recording.attended (h : Recording Allowed (.initial config workingDir hostname host) past s) :
    (s.deployment.service.session? id = none → doings id past = []) ∧
      ∀ x, s.deployment.service.session? id = some x → Attended id past x := by
  have h₀ := initial_sound config workingDir hostname host
  induction h with
  | begin => exact ⟨fun _ => rfl, fun x hSession => absurd hSession Scene.initial_session?⟩
  | @next past s s' a told hPast hHappens _ ih =>
    obtain ⟨hUnknown, hKnown⟩ := ih
    have hAttends := hHappens.attends (hPast.sound h₀) id
    generalize hBefore : s.deployment.service.session? id = before at hAttends
    generalize s'.deployment.service.session? id = after at hAttends
    refine ⟨fun hNone => ?_, fun z hSession => ?_⟩
    · subst hNone
      cases hAttends with
      | absent hDoing => exact (doings_cons_none hDoing past).trans (hUnknown hBefore)
    · subst hSession
      cases hAttends with
      | acts hDoing hStep => exact (hKnown _ hBefore).acts hDoing hStep
      | rests hDoing hSupervision hOrigin hEnded =>
        exact (hKnown _ hBefore).rests hDoing hSupervision hOrigin hEnded
      | begins hDoing hWatching hEnded =>
        have hNothing := (doings_cons_none hDoing past).trans (hUnknown hBefore)
        refine ⟨?_, ?_, ?_, ?_⟩
        · rw [hNothing, hWatching]
          exact .begin
        · simp [hNothing]
        · rw [announcements, hNothing, hEnded]
          rfl
        · simp [hWatching, hEnded]

-- ---------------------------------------------------------------------------
-- Sessions that are to end
-- ---------------------------------------------------------------------------

/-- Whether a session is to end. -/
def Deployment.IsStopping (d : Deployment) (id : Nat) : Prop :=
  ∃ x, d.service.session? id = some x ∧ x.stopping = true

/-- Whether an action asks a session to end. -/
def Action.Asks (d : Deployment) (id : Nat) : Action → Prop
  | .move (.stop n) => ∃ x, d.service.get n = .ok x ∧ x.id = id
  | .move (.stopSession i) => i = id ∧ ∃ x, d.service.session? i = some x
  | .move .stopAll => ∃ x ∈ d.service.liveSessions, x.id = id
  | _ => False

/-- Whether a session is asked to end in a step. -/
def Occurrence.Asks (id : Nat) (e : Occurrence) : Prop := e.action.Asks e.before.deployment id

variable {d d' : Deployment}

theorem isStopping_iff (hSession : d.service.session? id = some x) :
    d.IsStopping id ↔ x.stopping = true := by
  simp [Deployment.IsStopping, hSession]

theorem not_isStopping (hSession : d.service.session? id = none) : ¬ d.IsStopping id := by
  simp [Deployment.IsStopping, hSession]

theorem isStopping_of_keepsField (h : KeepsField Session.stopping d d') (id : Nat) :
    d'.IsStopping id ↔ d.IsStopping id := by
  have hMap : ∀ e : Deployment,
      e.IsStopping id ↔ (e.service.session? id).map Session.stopping = some true := fun e => by
    simp [Deployment.IsStopping]
  rw [hMap, hMap, h id]

/-- One session is asked to end. -/
theorem isStopping_requestStop (hSession : d.service.session? x.id = some y) (id : Nat) :
    (d.setSession x.requestStop).IsStopping id ↔ d.IsStopping id ∨ x.id = id := by
  have hAfter := session?_setSession d x.requestStop id
  by_cases hId : id = x.id
  · subst hId
    rw [show x.requestStop.id = x.id from rfl, if_pos rfl, hSession] at hAfter
    simpa using (isStopping_iff hAfter).mpr rfl
  · rw [show x.requestStop.id = x.id from rfl, if_neg hId] at hAfter
    simp [Deployment.IsStopping, hAfter, Ne.symm hId]

/-- Asked one after the other, sessions are to end. -/
theorem isStopping_requestStops {sessions : List Session}
    (hKnown : ∀ x ∈ sessions, ∃ y, d.service.session? x.id = some y) (id : Nat) :
    (sessions.foldl (fun d x => d.setSession x.requestStop) d).IsStopping id ↔
      d.IsStopping id ∨ ∃ x ∈ sessions, x.id = id := by
  induction sessions generalizing d with
  | nil => simp
  | cons x rest ih =>
    obtain ⟨y, hSession⟩ := hKnown x List.mem_cons_self
    rw [List.foldl_cons, ih, isStopping_requestStop hSession, List.exists_mem_cons_iff, or_assoc]
    intro z hMem
    obtain ⟨w, hThere⟩ := hKnown z (List.mem_cons_of_mem x hMem)
    rw [session?_setSession, hThere]
    split
    · exact ⟨x.requestStop, rfl⟩
    · exact ⟨w, rfl⟩

theorem move_isStopping (m : Move) (id : Nat) :
    (m.perform d).IsStopping id ↔ d.IsStopping id ∨ (Action.move m).Asks d id := by
  by_cases hStops : m.Stops
  · cases m with
    | stop n =>
      rw [Move.perform, Deployment.stop]
      rcases withSession_cases n (fun x => modify fun d => d.setSession x.requestStop) d with
        ⟨x, hGet, hSession, hAfter⟩ | ⟨f, hGet, hAfter⟩
      · rw [hAfter]
        refine (isStopping_requestStop hSession id).trans (or_congr_right ?_)
        simp [Action.Asks, hGet]
      · rw [hAfter]
        simp [Action.Asks, hGet]
    | stopSession i =>
      rw [Move.perform]
      cases hSession : d.service.session? i with
      | none => simp [hSession, Action.Asks]
      | some x =>
        refine (isStopping_requestStop (session?_self hSession) id).trans (or_congr_right ?_)
        simp [Action.Asks, hSession, session?_id hSession]
    | stopAll =>
      refine isStopping_requestStops (fun x hMem => ?_) id
      obtain ⟨i, -, hSession⟩ := List.mem_filterMap.mp hMem
      exact ⟨x, session?_self hSession⟩
    | _ => exact hStops.elim
  · have hNot : ¬ (Action.move m).Asks d id := by
      cases m with
      | stop n => exact absurd trivial hStops
      | stopSession i => exact absurd trivial hStops
      | stopAll => exact absurd trivial hStops
      | _ => exact fun hAsks => hAsks
    rw [isStopping_of_keepsField (move_keepsField (fun _ _ => rfl) (fun _ _ => rfl)
      (fun h => absurd h hStops) (fun _ _ _ => rfl) d), or_iff_left hNot]

/-- A session is to end after a step if it was before, or is asked to in that step. -/
theorem step_isStopping (h : s.Sound) (hStep : Step s a s') (id : Nat) :
    s'.deployment.IsStopping id ↔ s.deployment.IsStopping id ∨ a.Asks s.deployment id := by
  by_cases hMove : ∃ m, a = .move m
  · obtain ⟨m, rfl⟩ := hMove
    cases hStep with
    | move m => exact move_isStopping m id
  have hNot : ¬ a.Asks s.deployment id := by
    cases a with
    | move m => exact absurd ⟨m, rfl⟩ hMove
    | _ => exact fun hAsks => hAsks
  rw [or_iff_left hNot]
  cases step_sessions h hStep with
  | @spawns x hStopping _ hUnknown hAfter =>
    by_cases hSame : x.id = id
    · have hThere := (hAfter id).trans (if_pos hSame)
      rw [hSame] at hUnknown
      exact iff_of_false (by simp [isStopping_iff hThere, hStopping]) (not_isStopping hUnknown)
    · rw [Deployment.IsStopping, Deployment.IsStopping, (hAfter id).trans (if_neg hSame)]
  | @supervises i x supervision act hSession hAfter =>
    refine isStopping_of_keepsField (fun j => ?_) id
    have hStopping : (Session.does { x with supervision } act).stopping = x.stopping := by
      cases act <;> rfl
    rw [hAfter j]
    split
    · next hj => rw [hj, hSession, Option.map_some, Option.map_some, hStopping]
    · rfl
  | others hKeeps =>
    exact isStopping_of_keepsField (hKeeps (fun _ _ => rfl) (fun _ _ => rfl)
      fun m hm => absurd ⟨m, hm⟩ hMove) id

/-- **Stopping for good.** A session is to end when it has been asked to, and from then on. -/
theorem Recording.isStopping_iff
    (h : Recording Allowed (.initial config workingDir hostname host) past s) (id : Nat) :
    s.deployment.IsStopping id ↔ ∃ e ∈ past, e.Asks id := by
  have h₀ := initial_sound config workingDir hostname host
  induction h with
  | begin => simpa using not_isStopping rfl
  | next hPast hHappens _ ih =>
    rw [step_isStopping (hPast.sound h₀) hHappens.step, List.exists_mem_cons_iff, or_comm]
    exact or_congr_right ih

end ScriptWarden
