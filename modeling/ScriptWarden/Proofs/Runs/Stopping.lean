import ScriptWarden.Proofs.Runs.EndedSessions
import ScriptWarden.Proofs.Runs.Processes

/-!
# Stopping a session

A session that is asked to end, by anybody, at any time and any number of times, is to end from then
on. Its supervisor asks the process of the session to end once, and kills it once if a grace period
passes and it has not ended; no signal goes to any other process. Before the first request there is no
signal, and there is none once the process has been reaped, when its number may be another's. The end
of the session is announced once, and nothing but time can keep a supervisor from that when its
process has ended, or is to end and is a child of the service.

That a process which has not ended when it is killed has not ended during the grace period either is
left to the host: a child that has ended keeps its status until its supervisor takes it (`EndsStay`).

## Results

* `Attended.signal_split` — what has come before a signal.
* `exists_ending` — how a session that can end goes on to its end.
* `stopping_signals_in_bounds` — the law.
-/

namespace ScriptWarden

variable {Allowed : Scene → Action → Scene → Prop} {s s' : Scene}
  {past later earlier : List Occurrence} {e : Occurrence} {id : Nat} {x y : Session}
  {config : Config} {workingDir hostname : String} {host : Host}

-- ---------------------------------------------------------------------------
-- Signals
-- ---------------------------------------------------------------------------

/-- Whether the supervisor of a session takes the status of its process in a step. -/
def Occurrence.Reaps (id : Nat) (e : Occurrence) : Prop :=
  ∃ x saw, e.doing? id = some (x, ⟨saw, .reap⟩)

theorem Supervision.Deed.signal?_eq_some {d : Supervision.Deed} {number : Nat} :
    d.signal? = some number ↔ d.act = .signal number := by
  obtain ⟨saw, act⟩ := d
  cases act <;> simp [signal?]

theorem signal?_eq_some {pid : UInt32} {number : Nat} :
    e.signal? id = some (pid, number) ↔
      ∃ y saw, e.doing? id = some (y, ⟨saw, .signal number⟩) ∧ y.pid = pid := by
  rw [Occurrence.signal?, Option.bind_eq_some_iff]
  constructor
  · rintro ⟨⟨y, saw, act⟩, hDoing, hSignal⟩
    obtain ⟨sent, hAct, hSame⟩ := Option.map_eq_some_iff.mp hSignal
    obtain rfl := Supervision.Deed.signal?_eq_some.mp hAct
    cases hSame
    exact ⟨y, saw, hDoing, rfl⟩
  · rintro ⟨y, saw, hDoing, rfl⟩
    exact ⟨_, hDoing, rfl⟩

/-- All signals of a session go to its process. -/
theorem Attended.signals (h : Attended id past x) :
    signals id past =
      (((doings id past).map Prod.snd).filterMap Supervision.Deed.signal?).map (x.pid, ·) := by
  rw [show ScriptWarden.signals id past = (doings id past).filterMap
    fun p => p.2.signal?.map (p.1.pid, ·) from List.filterMap_filterMap.symm, List.filterMap_map,
    List.map_filterMap]
  refine List.filterMap_congr fun p hMem => ?_
  rw [Function.comp_apply, ← h.process p.1 p.2 hMem]

/-- What the supervisor of a session saw is what there was. -/
theorem doing?_saw {saw : Outlook} {act : SupervisorAct} (h : e.doing? id = some (y, ⟨saw, act⟩)) :
    saw = e.before.deployment.outlook y ∧ y.id = id := by
  unfold Occurrence.doing? at h
  split at h
  · split at h
    · next hId =>
      cases h
      exact ⟨rfl, hId⟩
    · cases h
  · cases h

/-- What the supervisor of a session saw is what there was. -/
theorem Happens.doing {a : Action} {told : Option Happening} (hSound : s.Sound)
    (h : Happens s a told s') {saw : Outlook} {act : SupervisorAct}
    (hDoing : Occurrence.doing? id ⟨s, a, told⟩ = some (y, ⟨saw, act⟩)) :
    ∃ x supervision stopFirst, s.deployment.service.session? id = some x ∧
      y = { x with supervision } ∧ saw = s.deployment.outlook x ∧
      x.supervision.step? { s.deployment.outlook x with stopFirst } = some (supervision, act) := by
  have hAttends := h.attends hSound id
  generalize hBefore : s.deployment.service.session? id = before at hAttends
  generalize s'.deployment.service.session? id = after at hAttends
  cases hAttends with
  | @acts x supervision _ stopFirst hDone hStep =>
    cases hDone.symm.trans hDoing
    exact ⟨x, supervision, stopFirst, rfl, rfl, rfl, hStep⟩
  | rests hNone => cases hNone.symm.trans hDoing
  | begins hNone => cases hNone.symm.trans hDoing
  | absent hNone => cases hNone.symm.trans hDoing

/-- What has come before a signal of a session. -/
structure Precedes (id : Nat) (pid : UInt32) (number : Nat) (e : Occurrence)
    (earlier : List Occurrence) : Prop where
  /-- The session was asked to end. -/
  asked : ∃ r ∈ earlier, r.Asks id
  /-- The process had not been reaped. -/
  unreaped : ∀ r ∈ earlier, ¬ r.Reaps id
  /-- A process that is killed was asked to end a grace period ago, and has not ended. -/
  kill : number = Supervision.sigkill →
    e.before.deployment.host.statusOf? pid = none ∧
    ∃ between t oldest, earlier = between ++ t :: oldest ∧
      t.signal? id = some (pid, Supervision.sigterm) ∧
      t.before.deployment.host.now.after t.before.deployment.service.config.gracePeriod ≤
        e.before.deployment.host.now

/-- A supervisor that sees that its process is to end does so after a request. -/
theorem Recording.asked
    (h : Recording Allowed (.initial config workingDir hostname host) (later ++ e :: earlier) s)
    {saw : Outlook} {act : SupervisorAct} (hDoing : e.doing? id = some (y, ⟨saw, act⟩))
    (hStopping : saw.stopping = true) : ∃ r ∈ earlier, r.Asks id := by
  obtain ⟨hEarlier, s₁, hHappens, -⟩ := h.split
  obtain ⟨x, supervision, stopFirst, hSession, -, rfl, -⟩ :=
    hHappens.doing (hEarlier.sound (initial_sound config workingDir hostname host)) hDoing
  exact (hEarlier.isStopping_iff id).mp ⟨x, hSession, hStopping⟩

/-- **What has come before a signal**: a request, no reaping, and before a kill the signal that asks
the process to end, a grace period ago. -/
theorem Recording.signal_split
    (h : Recording Allowed (.initial config workingDir hostname host) (later ++ e :: earlier) s)
    (hSession : s.deployment.service.session? id = some x) {number : Nat} {pid : UInt32}
    (hSignal : e.signal? id = some (pid, number)) : Precedes id pid number e earlier := by
  obtain ⟨y, saw, hDoing, rfl⟩ := signal?_eq_some.mp hSignal
  have hAttended := h.attended.2 x hSession
  have hDoings : doings id (later ++ e :: earlier) =
      doings id later ++ (y, ⟨saw, .signal number⟩) :: doings id earlier := by
    rw [doings_append, doings_cons_some hDoing]
  have hCourse := hAttended.course
  rw [hDoings, List.map_append, List.map_cons] at hCourse
  have hUnreaped : ∀ r ∈ earlier, ¬ r.Reaps id := by
    rintro r hMem ⟨z, seen, hReap⟩
    refine hCourse.not_reaped rfl ⟨seen, .reap⟩ ?_ rfl
    exact List.mem_map.mpr ⟨_, List.mem_filterMap.mpr ⟨r, hMem, hReap⟩, rfl⟩
  rcases hCourse.signal_split rfl with ⟨rfl, -, hStopping⟩ | ⟨rfl, o, hOne, hStopping, hDue, hRuns⟩
  · exact ⟨h.asked hDoing hStopping, hUnreaped, nofun⟩
  -- the only deed before a kill is to ask
  obtain ⟨⟨z, d⟩, hOnly, hSame⟩ := List.map_eq_singleton_iff.mp hOne
  obtain rfl : d = ⟨o, .signal Supervision.sigterm⟩ := hSame
  obtain ⟨t, hThere, hAsk⟩ := List.mem_filterMap.mp
    (show (z, _) ∈ doings id earlier from hOnly ▸ List.mem_singleton_self _)
  obtain ⟨between, oldest, rfl⟩ := List.append_of_mem hThere
  have hPid : z.pid = y.pid := by
    have hThen := hAttended.process z ⟨o, .signal Supervision.sigterm⟩ (by simp [hDoings, hOnly])
    have hNow := hAttended.process y ⟨saw, .signal Supervision.sigkill⟩ (by simp [hDoings])
    exact hThen.trans hNow.symm
  have h₀ := initial_sound config workingDir hostname host
  obtain ⟨hEarlier, s₁, hHappens, -⟩ := h.split
  obtain ⟨x₁, _, _, -, rfl, rfl, -⟩ := hHappens.doing (hEarlier.sound h₀) hDoing
  obtain ⟨hOldest, s₂, hThen, -⟩ := hEarlier.split
  obtain ⟨x₂, _, _, -, rfl, rfl, -⟩ := hThen.doing (hOldest.sound h₀) hAsk
  obtain ⟨r, hMem, hAsks⟩ := hEarlier.asked hAsk hStopping
  exact ⟨⟨r, List.mem_append_right between (List.mem_cons_of_mem t hMem), hAsks⟩, hUnreaped,
    fun _ => ⟨hRuns, between, t, oldest, rfl, signal?_eq_some.mpr ⟨_, _, hAsk, hPid⟩, hDue⟩⟩

/-- A child that is killed has run at every time since it was spawned, if the host keeps children
that have ended. -/
theorem Recording.ran_before_kill (hStay : EndsStay Allowed id)
    (h : Recording Allowed (.initial config workingDir hostname host) (later ++ e :: earlier) s)
    {pid : UInt32} (hSignal : e.signal? id = some (pid, Supervision.sigkill)) :
    ∀ r ∈ earlier, ∀ y, r.before.deployment.service.session? id = some y →
      r.before.deployment.host.statusOf? y.pid = none := by
  obtain ⟨y, saw, hDoing, rfl⟩ := signal?_eq_some.mp hSignal
  obtain ⟨hEarlier, s₁, hHappens, -⟩ := h.split
  obtain ⟨x, supervision, stopFirst, hSession, rfl, rfl, hStep⟩ :=
    hHappens.doing (hEarlier.sound (initial_sound config workingDir hostname host)) hDoing
  have hSteps := Supervision.steps_of_step? hStep
  generalize hAt : x.supervision = before at hSteps
  cases hSteps with
  | kill hRuns => exact hEarlier.runs_before hStay hSession (hAt ▸ trivial) hRuns
  | drain hAct => rcases hAct with hNothing | hAbandon <;> contradiction

-- ---------------------------------------------------------------------------
-- Endings
-- ---------------------------------------------------------------------------

/-- Nothing but time keeps the process of a session from being reaped: it was, it has ended, or it is
to end and is a child that has not been killed yet. -/
def Deployment.CanEnd (d : Deployment) (x : Session) : Prop :=
  ¬ x.supervision.HoldsChild ∨ (d.host.statusOf? x.pid).isSome = true ∨
    (x.stopping = true ∧ x.supervision ≠ .killed ∧ d.host.Owns x.pid)

/-- Only time passes in a step, or the supervisor of a session goes on. -/
def Occurrence.Awaits (id : Nat) (e : Occurrence) : Prop :=
  e.action = .supervise id ∨
    ∃ now, e.before.deployment.host.now ≤ now ∧
      e.action = .move (.world { e.before.deployment.host with now })

/-- A supervisor that waits for time only can go on. -/
theorem Supervision.exists_step? {d : Deployment} (hCanEnd : d.CanEnd x)
    (hUnfinished : x.supervision ≠ .finished)
    (hDue : ∀ moment, x.supervision.deadline? = some moment → moment ≤ d.host.now) :
    ∃ next, x.supervision.step? (d.outlook x) = some next := by
  refine Option.ne_none_iff_exists'.mp fun hNone => ?_
  rcases step?_eq_none_iff.mp hNone with hFinished | ⟨hChild, hStatus, hAsked, hEarly⟩ |
    ⟨status, stream, rest, deadline, hDraining, -, hEarly⟩
  · exact hUnfinished hFinished
  · rcases hCanEnd with hReaped | hEnded | ⟨hStopping, hUnkilled, -⟩
    · exact hReaped hChild
    · rw [show d.host.statusOf? x.pid = none from hStatus] at hEnded
      cases hEnded
    · cases hAt : x.supervision with
      | watching => cases (hAsked hAt).symm.trans hStopping
      | asked deadline =>
        exact absurd (hDue deadline (by rw [hAt]; rfl)) (Nat.not_le.mpr (hEarly deadline hAt))
      | killed => exact hUnkilled hAt
      | _ =>
        rw [hAt] at hChild
        exact hChild.elim
  · exact absurd (hDue deadline (by rw [hDraining]; rfl)) (Nat.not_le.mpr hEarly)

/-- A session that can end still can when its supervisor has gone on. -/
theorem Deployment.CanEnd.step {d : Deployment} {supervision : Supervision} {act : SupervisorAct}
    (hCanEnd : d.CanEnd x) (hStep : x.supervision.step? (d.outlook x) = some (supervision, act)) :
    ((d.setSession { x with supervision }).perform { x with supervision } act).CanEnd
      (Session.does { x with supervision } act) := by
  have hSteps := Supervision.steps_of_step? hStep
  generalize hAt : x.supervision = before at hSteps
  cases hSteps with
  | ask =>
    rcases hCanEnd with hReaped | hEnded | ⟨hStopping, -, hOwns⟩
    · exact absurd (hAt ▸ trivial) hReaped
    · refine .inr (.inl ?_)
      show (Host.statusOf? (Except.toOption _ |>.getD _) x.pid).isSome = true
      rw [show (d.setSession _).host = d.host from rfl, Host.signal_ended hEnded]
      exact hEnded
    · exact .inr (.inr ⟨hStopping, nofun, hOwns.terminate⟩)
  | kill hRuns =>
    rcases hCanEnd with hReaped | hEnded | ⟨-, -, hOwns⟩
    · exact absurd (hAt ▸ trivial) hReaped
    · rw [show d.host.statusOf? x.pid = none from hRuns] at hEnded
      cases hEnded
    · exact .inr (.inl hOwns.kill)
  | drain hAct => rcases hAct with rfl | rfl <;> exact .inl id
  | _ => exact .inl id

/-- **A session that can end comes to its end** by the steps of its supervisor alone, when time
passes. -/
theorem exists_ending {s : Scene} {x : Session} (hSession : s.deployment.service.session? id = some x)
    (hOver : ∀ i c, s.calls i = some c → c.stage.session? ≠ some id)
    (hCanEnd : s.deployment.CanEnd x) :
    ∃ later t y, Recording AnyStep s later t ∧ (∀ e ∈ later, e.Awaits id) ∧
      t.deployment.service.session? id = some y ∧ y.supervision = .finished := by
  by_cases hFinished : x.supervision = .finished
  · exact ⟨[], s, x, .begin, by simp, hSession, hFinished⟩
  -- first the clock comes to whatever is waited for
  let now : Moment := max s.deployment.host.now (x.supervision.deadline?.getD 0)
  let host : Host := { s.deployment.host with now }
  let s₁ := s.withDeployment ((Move.world host).perform s.deployment)
  have hPassed : Recording AnyStep s [⟨s, .move (.world host), none⟩] s₁ :=
    Recording.begin.next (.other (.move (.world host)) trivial nofun) trivial
  have hCanEnd₁ : s₁.deployment.CanEnd x := hCanEnd
  obtain ⟨⟨supervision, act⟩, hStep⟩ := Supervision.exists_step? hCanEnd₁ hFinished
    fun moment hDeadline => by
      show moment ≤ max _ (x.supervision.deadline?.getD 0)
      rw [hDeadline]
      exact Nat.le_max_right _ _
  have hLess := (Supervision.steps_of_step? hStep).stepsLeft_lt
  -- then the supervisor goes on
  let y : Session := { x with supervision }
  have hAct : s₁.deployment.act? id false = some (y, act) :=
    Option.bind_eq_some_iff.mpr
      ⟨x, hSession, Option.bind_eq_some_iff.mpr ⟨(supervision, act), hStep, rfl⟩⟩
  let s₂ := s₁.withDeployment ((s₁.deployment.setSession y).perform y act)
  have hWent : Recording AnyStep s [_, ⟨s, .move (.world host), none⟩] s₂ :=
    hPassed.next (.supervise hOver hAct) trivial
  have hSession₂ : s₂.deployment.service.session? id = some (y.does act) :=
    (act_session? hAct id).trans (if_pos rfl)
  have hLeft : (y.does act).supervision.stepsLeft < x.supervision.stepsLeft := by
    rw [Session.does_supervision]
    exact hLess
  obtain ⟨later, t, z, hLater, hAwaits, hEnd⟩ :=
    exists_ending hSession₂ hOver (hCanEnd₁.step hStep)
  refine ⟨later ++ _, t, z, hWent.trans hLater, fun e hMem => ?_, hEnd⟩
  rcases List.mem_append.mp hMem with hAfter | hFirst
  · exact hAwaits e hAfter
  · rcases List.mem_cons.mp hFirst with rfl | hClock
    · exact .inl rfl
    · obtain rfl := List.mem_singleton.mp hClock
      exact .inr ⟨now, Nat.le_max_left _ _, rfl⟩
termination_by x.supervision.stepsLeft

/-- **The end of a session** is what the status of its process comes to, which its supervisor took. -/
theorem Recording.ended_status
    (h : Recording Allowed (.initial config workingDir hostname host) past s)
    (hSession : s.deployment.service.session? id = some x) {exit : Exit}
    (hEnded : x.hub.ended = some exit) :
    ∃ r ∈ past, r.Reaps id ∧ ∃ status, r.before.deployment.host.statusOf? x.pid = some status ∧
      ∃ runtime, exit = Exit.ofStatus (some status) runtime := by
  have hAttended := h.attended.2 x hSession
  have hAnnounced : exit ∈ announcements id past := by
    rw [hAttended.announced, hEnded]
    exact List.mem_singleton_self exit
  obtain ⟨⟨y, d⟩, hDoing, hExit⟩ := List.mem_filterMap.mp hAnnounced
  obtain ⟨d', hDone, hReap, status, runtime, hStatus, hIs⟩ :=
    hAttended.course.reports.2 d (List.mem_map_of_mem hDoing) exit hExit
  obtain ⟨⟨z, d''⟩, hThere, rfl⟩ := List.mem_map.mp hDone
  obtain ⟨r, hMem, hDid⟩ := List.mem_filterMap.mp hThere
  obtain ⟨saw, act⟩ := d''
  obtain rfl : act = .reap := hReap
  have hSaw := (doing?_saw hDid).1
  rw [hSaw] at hStatus
  have hPid : z.pid = x.pid := hAttended.process z _ hThere
  exact ⟨r, hMem, ⟨z, saw, hDid⟩, status, by rw [← hPid]; exact hStatus, runtime, hIs⟩

/--
**Stopping a session sends the right signals to the right process, and few.** Whatever runs lead to a
scene and a session in it, with requests to end it, starts, supervisors, viewers and the host coming
between each other in any way:

* The supervisor has asked the process of the session to end once at most, has killed it once at most
  and after that, and has sent nothing to any other process.
* Whenever it has sent a signal, the session had been asked to end, and the process had not been
  reaped. When it has killed the process, that had been asked to end a grace period ago and had not
  ended; and it had not ended at any time before, if the host keeps children that have ended.
* The session is to end if and only if it has been asked to, so from then on.
* What the supervisor has announced is the end that the session is known to have: one if it has
  finished, and none before. It has taken nine steps at most; and once a start has handed the session
  over and nothing but time keeps the process from being reaped, there is a way to the end by the
  steps of the supervisor alone, in which the one end is announced.
-/
theorem stopping_signals_in_bounds
    (h : Recording Allowed (.initial config workingDir hostname host) past s)
    (hSession : s.deployment.service.session? id = some x) :
    signals id past <:+ [(x.pid, Supervision.sigkill), (x.pid, Supervision.sigterm)] ∧
    (∀ later e earlier pid number, past = later ++ e :: earlier →
      e.signal? id = some (pid, number) → Precedes id pid number e earlier ∧
        (number = Supervision.sigkill → EndsStay Allowed id →
          ∀ r ∈ earlier, ∀ y, r.before.deployment.service.session? id = some y →
            r.before.deployment.host.statusOf? y.pid = none)) ∧
    (x.stopping = true ↔ ∃ e ∈ past, e.Asks id) ∧
    announcements id past = x.hub.ended.toList ∧
    (x.hub.ended.isSome = true ↔ x.supervision = .finished) ∧
    (doings id past).length ≤ 9 ∧
    ((∀ i c, s.calls i = some c → c.stage.session? ≠ some id) → s.deployment.CanEnd x →
      ∃ later t exit, Recording AnyStep s later t ∧ (∀ e ∈ later, e.Awaits id) ∧
        announcements id (later ++ past) = [exit]) := by
  have hAttended := h.attended.2 x hSession
  refine ⟨?_, fun later e earlier pid number hSplit hSignal => ?_, ?_, hAttended.announced,
    hAttended.finished, ?_, fun hOver hCanEnd => ?_⟩
  · rw [hAttended.signals]
    exact hAttended.course.sent.isSuffix.map _
  · subst hSplit
    refine ⟨h.signal_split hSession hSignal, fun hKill hStay => ?_⟩
    rw [hKill] at hSignal
    exact h.ran_before_kill hStay hSignal
  · rw [← isStopping_iff hSession]
    exact h.isStopping_iff id
  · have hLength := hAttended.course.length_le
    rw [List.length_map] at hLength
    omega
  · obtain ⟨later, t, y, hLater, hAwaits, hThen, hFinished⟩ :=
      exists_ending hSession hOver hCanEnd
    have hAtEnd := (h.anyStep.trans hLater).attended.2 y hThen
    obtain ⟨exit, hEnded⟩ := Option.isSome_iff_exists.mp (hAtEnd.finished.mpr hFinished)
    refine ⟨later, t, exit, hLater, hAwaits, ?_⟩
    rw [hAtEnd.announced, hEnded]
    rfl

-- ---------------------------------------------------------------------------
-- A process that is killed
-- ---------------------------------------------------------------------------

/-- The host and the supervisors of other sessions leave a child of a session that has ended alone. -/
def LeavesEnded (id : Nat) (s : Scene) (a : Action) (s' : Scene) : Prop :=
  (∃ host, a = .move (.world host)) ∨ (∃ i, i ≠ id ∧ a = .supervise i) → KeepsEnded id s s'

theorem endsStay_of_leavesEnded (id : Nat) : EndsStay (LeavesEnded id) id :=
  fun _ _ _ _ hAllowed => hAllowed

/-- A host whose interpreter ignores the signal that asks it to end. -/
def stubbornHost : Host :=
  { loggingHost with
    programs := fun name =>
      if name = "python3" then
        some fun _ _ => .handle Supervision.sigterm .ignored fun _ => .pause fun _ => .exit 0
      else none }

/-- A service that has found the script valid and has started it. -/
def stubbornScene : Scene :=
  let s := Scene.initial loggingConfig "/" "host" stubbornHost
  let found := [(default, { size := 0, modified := default, analysis := {} })]
  let s := s.withDeployment ((Move.remember found).perform s.deployment)
  s.withDeployment (Deployment.start default s.deployment).2

/-- The process ignores the signal by now, and the session was asked to end twice. -/
def unheardScene : Scene :=
  let s := stubbornScene
  let s := s.withDeployment ((Move.world s.deployment.host.turn.2).perform s.deployment)
  let s := s.withDeployment ((Move.stop default).perform s.deployment)
  (s.withDeployment ((Move.stopAll).perform s.deployment)).supervised 1 1

/-- A grace period has passed. -/
def overdueScene : Scene :=
  let d := unheardScene.deployment
  unheardScene.withDeployment
    ((Move.world { d.host with now := d.host.now.after d.service.config.gracePeriod }).perform d)

/-- The process was killed. -/
def killedScene : Scene := overdueScene.supervised 1 1

instance (id : Nat) (s s' : Scene) : Decidable (KeepsEnded id s s') := by
  unfold KeepsEnded
  infer_instance

theorem killedScene_reached :
    Reaches (LeavesEnded 1) (Scene.initial loggingConfig "/" "host" stubbornHost) killedScene := by
  have hMove : ∀ {s s' : Scene} {m : Move}, (∀ host, m ≠ .world host) →
      LeavesEnded 1 s (.move m) s' := by
    rintro s s' m hOther (⟨host, hWorld⟩ | ⟨i, -, hSupervise⟩)
    · exact absurd (Action.move.inj hWorld) (hOther host)
    · cases hSupervise
  have hStarts : ∀ (s : Scene) (a : Action) (s' : Scene), a.caller? = some 0 →
      LeavesEnded 1 s a s' := by
    rintro s a s' hCaller (⟨host, rfl⟩ | ⟨i, -, rfl⟩) <;> cases hCaller
  have hStarted : Reaches (LeavesEnded 1) (Scene.initial loggingConfig "/" "host" stubbornHost)
      stubbornScene :=
    (Reaches.refl.step (.move (.remember
      [(default, { size := 0, modified := default, analysis := {} })])) (hMove nofun)).trans
      (start_isRun _ hStarts rfl default)
  have hRuns := hStarted.step (.move (.world stubbornScene.deployment.host.turn.2))
    (fun _ => by decide +kernel)
  have hAsked := (hRuns.step (.move (.stop default)) (hMove nofun)).step (.move .stopAll) (hMove nofun)
  have hSupervise : ∀ {t : Scene}, t.calls = (fun _ => none) →
      Reaches (LeavesEnded 1) (Scene.initial loggingConfig "/" "host" stubbornHost) t →
      (t.deployment.supervise? 1).isSome = true →
      Reaches (LeavesEnded 1) (Scene.initial loggingConfig "/" "host" stubbornHost)
        (t.supervised 1 1) := by
    intro t hCalls hReach hNext
    obtain ⟨d, hDone⟩ := Option.isSome_iff_exists.mp hNext
    have hStep : Step t (.supervise 1) (t.withDeployment d) :=
      .supervise (fun i c hCall => by rw [hCalls] at hCall; cases hCall) hDone
    show Reaches _ _ (t.withDeployment ((t.deployment.supervise? 1).getD t.deployment))
    rw [hDone]
    exact hReach.step hStep (by rintro (⟨host, hWorld⟩ | ⟨i, hOther, hSame⟩) <;> grind)
  have hUnheard : Reaches (LeavesEnded 1) (Scene.initial loggingConfig "/" "host" stubbornHost)
      unheardScene := hSupervise rfl hAsked (by decide +kernel)
  exact hSupervise rfl (hUnheard.step (.move (.world _)) (fun _ => by decide +kernel))
    (by decide +kernel)

/-- A process that ignores being asked to end, by whoever asked for it, is killed when the grace
period has passed, and the end of its session can be announced. -/
theorem stubborn_session_killed :
    ∃ past x, Recording (LeavesEnded 1) (.initial loggingConfig "/" "host" stubbornHost) past
        killedScene ∧
      killedScene.deployment.service.session? 1 = some x ∧ x.stopping = true ∧
      signals 1 past = [(x.pid, Supervision.sigkill), (x.pid, Supervision.sigterm)] ∧
      (∃ later e earlier, past = later ++ e :: earlier ∧
        Precedes 1 x.pid Supervision.sigkill e earlier ∧
        ∀ r ∈ earlier, ∀ y, r.before.deployment.service.session? 1 = some y →
          r.before.deployment.host.statusOf? y.pid = none) ∧
      ∃ later t exit, Recording AnyStep killedScene later t ∧ (∀ e ∈ later, e.Awaits 1) ∧
        announcements 1 (later ++ past) = [exit] := by
  obtain ⟨past, hPast⟩ := killedScene_reached.recording
  obtain ⟨x, hSession, hAt⟩ : ∃ x, killedScene.deployment.service.session? 1 = some x ∧
      (x.stopping && x.supervision == .killed && x.pid == 3) = true :=
    (Option.any_eq_true _ _).mp (by decide +kernel)
  obtain ⟨⟨hStopping, hKilled⟩, hPid⟩ : (x.stopping = true ∧ x.supervision = .killed) ∧ x.pid = 3 := by
    simpa using hAt
  obtain ⟨-, hBefore, -, -, -, -, hEnding⟩ := stopping_signals_in_bounds hPast hSession
  have hAttended := hPast.attended.2 x hSession
  have hSignals : signals 1 past = [(x.pid, Supervision.sigkill), (x.pid, Supervision.sigterm)] := by
    have hSent := hAttended.course.sent
    rw [hKilled] at hSent
    rw [hAttended.signals, show _ = [Supervision.sigkill, Supervision.sigterm] from hSent]
    rfl
  obtain ⟨e, hMem, hSignal⟩ := List.mem_filterMap.mp
    (show (x.pid, Supervision.sigkill) ∈ signals 1 past from hSignals ▸ List.mem_cons_self)
  obtain ⟨later, earlier, hSplit⟩ := List.append_of_mem hMem
  obtain ⟨hPrecedes, hRan⟩ := hBefore later e earlier _ _ hSplit hSignal
  have hEnded : (killedScene.deployment.host.statusOf? 3).isSome = true := by decide +kernel
  exact ⟨past, x, hPast, hSession, hStopping, hSignals,
    ⟨later, e, earlier, hSplit, hPrecedes, hRan rfl (endsStay_of_leavesEnded 1)⟩,
    hEnding (fun i c hCall => by cases hCall) (.inr (.inl (hPid ▸ hEnded)))⟩

end ScriptWarden
