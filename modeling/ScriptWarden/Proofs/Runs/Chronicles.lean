import ScriptWarden.Proofs.Files.LogFiles
import ScriptWarden.Proofs.Runs.FileAccess
import ScriptWarden.Proofs.Runs.Turns

/-!
# Chronicles of runs

A run can be told with what the supervisors did in it, what readers found and which scripts were
deleted, newest first.
Supervisors only go forward, so what one of them is at says what it has done, and what it has done it
does not do again: a session whose log was written before a moment writes none after it.

## Results

* `Happens` — a step with what happens in it.
* `Chronicle` — a run with its happenings; `Reaches.chronicle` — every run has one.
* `Chronicle.advances` — sessions stay, their supervisors go forward, and new ones get new
  identities.
* `Chronicle.from_before` — whose happenings there can be after a moment.
* `Chronicle.accounted` — what a supervisor must have done to be where it is.
-/

namespace ScriptWarden

-- ---------------------------------------------------------------------------
-- How far supervisors have come
-- ---------------------------------------------------------------------------

namespace Supervision

/-- How far a supervisor has come. -/
def rank : Supervision → Nat
  | .watching => 0
  | .asked _ => 1
  | .killed => 2
  | .draining .. => 3
  | .recording _ => 4
  | .leaving _ => 5
  | .announcing _ => 6
  | .finished => 7

theorem hasLeft_iff {s : Supervision} : s.HasLeft ↔ 6 ≤ s.rank := by
  cases s <;> simp [HasLeft, rank]

/-- What a step of a supervisor does is what leads from where it was to where it is. -/
structure Goes (s : Supervision) (act : SupervisorAct) (s' : Supervision) : Prop where
  forward : s.rank ≤ s'.rank
  unfinished : s.rank < 7
  reaps : s.rank < 3 → 3 ≤ s'.rank → act = .reap
  writes : s.rank < 5 → 5 ≤ s'.rank → ∃ exit, act = .writeLog exit
  writing : ∀ exit, act = .writeLog exit → s.rank = 4 ∧ s'.rank = 5
  announcing : ∀ exit, act = .announce exit → s'.rank = 7

theorem goes_of_step? {s s' : Supervision} {o : Outlook} {act : SupervisorAct}
    (h : s.step? o = some (s', act)) : s.Goes act s' := by
  cases s with
  | watching =>
    simp only [step?] at h
    split at h
    · split at h
      · cases h
        constructor <;> simp [rank]
      · cases h
        constructor <;> simp [rank]
    · split at h <;> cases h
      constructor <;> simp [rank]
  | asked deadline =>
    simp only [step?] at h
    split at h
    · cases h
      constructor <;> simp [rank]
    · split at h <;> cases h
      constructor <;> simp [rank]
  | killed =>
    obtain ⟨status, -, hEnded⟩ := Option.map_eq_some_iff.mp h
    cases hEnded
    constructor <;> simp [rank]
  | draining status left deadline =>
    cases left with
    | nil =>
      cases h
      constructor <;> simp [rank]
    | cons stream rest =>
      simp only [step?] at h
      split at h
      · cases h
        constructor <;> simp [rank]
      · split at h <;> cases h
        constructor <;> simp [rank]
  | recording exit =>
    cases h
    constructor <;> simp [rank]
  | leaving exit =>
    cases h
    constructor <;> simp [rank]
  | announcing exit =>
    cases h
    constructor <;> simp [rank]
  | finished => cases h

end Supervision

/-- What becomes of a session at its supervisor's hands is supervised as it was. -/
theorem Session.does_supervision (s : Session) (act : SupervisorAct) :
    (s.does act).supervision = s.supervision := congrArg Life.supervision (s.does_life act)

theorem Session.does_name (s : Session) (act : SupervisorAct) : (s.does act).name = s.name :=
  congrArg Life.name (s.does_life act)

-- ---------------------------------------------------------------------------
-- Happenings
-- ---------------------------------------------------------------------------

/-- What runs are told by. -/
inductive Happening where
  /-- The supervisor of a session, as it is then, does something; whether that can be done. -/
  | supervised (session : Session) (act : SupervisorAct) (done : Bool)
  /-- A reader of a session finds something. -/
  | read (session : Nat) (stream : Stream) (got : Host.PipeRead)
  /-- A script is to be deleted; whether it was. -/
  | deleted (n : ScriptName) (done : Bool)

/-- The session whose supervisor has done something. -/
def Happening.supervised? : Happening → Option Nat
  | .supervised x _ _ => some x.id
  | _ => none

/-- The session whose log was to be written. -/
def Happening.logged? : Happening → Option Session
  | .supervised x (.writeLog _) _ => some x
  | _ => none

namespace Deployment

/-- Whether a supervisor can do what it is to do. A log cannot always be written. -/
def carriesOut (d : Deployment) (x : Session) : SupervisorAct → Bool
  | .writeLog exit =>
    let site := d.service.registry.site
    ((site.makeLogDir d.host.files x.name).bind fun files =>
      files.write d.host.now.timestamp (site.seen (site.logPath x.name))
        (encodeUtf8 (x.logText exit))).isOk
  | _ => true

/-- Whether a deletion removes the script. -/
def removes (d : Deployment) (n : ScriptName) : Bool :=
  (d.slots.slot? n).isNone && (Store.removeScript n d.store).1.isOk

end Deployment

/-- A step, with what happens in it. -/
inductive Happens (s : Scene) : Action → Option Happening → Scene → Prop
  | supervise {id : Nat} {stopFirst : Bool} {x : Session} {act : SupervisorAct} :
      (∀ i c, s.calls i = some c → c.stage.session? ≠ some id) →
      s.deployment.act? id stopFirst = some (x, act) →
      Happens s (.supervise id) (some (.supervised x act (s.deployment.carriesOut x act)))
        (s.withDeployment ((s.deployment.setSession x).perform x act))
  | read {id : Nat} {stream : Stream} {x : Session} {got : Host.PipeRead} :
      s.deployment.read? id stream = some (x, got) →
      Happens s (.move (.readOutput id stream)) (some (.read id stream got))
        (s.withDeployment ((Move.readOutput id stream).perform s.deployment))
  | delete (n : ScriptName) :
      Happens s (.delete n) (some (.deleted n (s.deployment.removes n)))
        (s.withDeployment (Deployment.deleteScript n s.deployment).2)
  | other {a : Action} {s' : Scene} :
      Step s a s' → a.IsOthers s → (∀ n, a ≠ .delete n) → Happens s a none s'

/-- The scenes that runs lead to, with what has happened, newest first. -/
inductive Chronicle (Allowed : Scene → Action → Scene → Prop) (s₀ : Scene) :
    List Happening → Scene → Prop
  | begin : Chronicle Allowed s₀ [] s₀
  | next {past : List Happening} {s s' : Scene} {a : Action} {told : Option Happening} :
      Chronicle Allowed s₀ past s → Happens s a told s' → Allowed s a s' →
      Chronicle Allowed s₀ (told.toList ++ past) s'

variable {Allowed : Scene → Action → Scene → Prop} {s₀ s s' t : Scene} {past : List Happening}
  {a : Action} {told : Option Happening}

theorem Happens.step (h : Happens s a told s') : Step s a s' := by
  cases h with
  | supervise hOver hAct =>
    exact .supervise hOver (superviseSeeing?_eq_some.mpr ⟨_, _, hAct, rfl⟩)
  | read _ => exact .move _
  | delete n => exact .delete n
  | other hStep _ _ => exact hStep

theorem Step.happens (h : Step s a s') : ∃ told, Happens s a told s' := by
  by_cases hDelete : ∃ n, a = .delete n
  · obtain ⟨n, rfl⟩ := hDelete
    cases h with
    | delete => exact ⟨_, .delete n⟩
  by_cases hOthers : a.IsOthers s
  · exact ⟨none, .other h hOthers fun n hn => hDelete ⟨n, hn⟩⟩
  cases h with
  | supervise hOver hSupervise =>
    obtain ⟨x, act, hAct, rfl⟩ := superviseSeeing?_eq_some.mp hSupervise
    exact ⟨_, .supervise hOver hAct⟩
  | move m =>
    cases m with
    | readOutput id stream =>
      obtain ⟨⟨x, got⟩, hRead⟩ := Option.ne_none_iff_exists'.mp hOthers
      exact ⟨_, .read hRead⟩
    | _ => exact absurd trivial hOthers
  | _ => exact absurd trivial hOthers

theorem Chronicle.reaches (h : Chronicle Allowed s₀ past s) : Reaches Allowed s₀ s := by
  induction h with
  | begin => exact .refl
  | next _ hHappens hAllowed ih => exact ih.step hHappens.step hAllowed

/-- Every run can be told. -/
theorem Reaches.chronicle (h : Reaches Allowed s₀ s) : ∃ past, Chronicle Allowed s₀ past s := by
  induction h with
  | refl => exact ⟨[], .begin⟩
  | step _ hStep hAllowed ih =>
    obtain ⟨past, hPast⟩ := ih
    obtain ⟨told, hHappens⟩ := hStep.happens
    exact ⟨_, hPast.next hHappens hAllowed⟩

theorem Chronicle.sound (hSound : s₀.Sound) (h : Chronicle Allowed s₀ past s) : s.Sound :=
  reaches_sound hSound h.reaches

-- ---------------------------------------------------------------------------
-- Going forward
-- ---------------------------------------------------------------------------

/-- Sessions stay, their supervisors go forward, and new sessions get new identities. -/
structure Scene.Advances (s t : Scene) : Prop where
  config : t.deployment.service.config = s.deployment.service.config
  next : s.deployment.service.nextSession ≤ t.deployment.service.nextSession
  stays : ∀ {id : Nat} {x : Session}, s.deployment.service.session? id = some x →
    ∃ y, t.deployment.service.session? id = some y ∧ y.name = x.name ∧
      x.supervision.rank ≤ y.supervision.rank
  newer : ∀ {id : Nat} {y : Session}, t.deployment.service.session? id = some y →
    (∃ x, s.deployment.service.session? id = some x) ∨ s.deployment.service.nextSession ≤ id

theorem Scene.Advances.refl (s : Scene) : s.Advances s :=
  ⟨rfl, Nat.le_refl _, fun hSession => ⟨_, hSession, rfl, Nat.le_refl _⟩,
    fun hSession => .inl ⟨_, hSession⟩⟩

theorem Scene.Advances.trans (h : s.Advances s') (h' : s'.Advances t) : s.Advances t where
  config := h'.config.trans h.config
  next := Nat.le_trans h.next h'.next
  stays := by
    intro id x hSession
    obtain ⟨y, hNext, hName, hRank⟩ := h.stays hSession
    obtain ⟨z, hLast, hName', hRank'⟩ := h'.stays hNext
    exact ⟨z, hLast, hName'.trans hName, Nat.le_trans hRank hRank'⟩
  newer := by
    intro id z hLast
    rcases h'.newer hLast with ⟨y, hNext⟩ | hNew
    · exact h.newer hNext
    · exact .inr (Nat.le_trans h.next hNew)

theorem advances_of_turns {touched : Nat → Nat → Prop}
    (hTurns : Turns touched s.deployment t.deployment)
    (hNext : s.deployment.service.nextSession ≤ t.deployment.service.nextSession) :
    s.Advances t where
  config := hTurns.config
  next := hNext
  stays := by
    intro id x hSession
    obtain ⟨y, hLater, hTurn⟩ := hTurns.session? hSession
    have hLife := hTurn.life
    exact ⟨y, hLater, congrArg Life.name hLife,
      Nat.le_of_eq (congrArg (fun l => l.supervision.rank) hLife.symm)⟩
  newer := by
    intro id y hLater
    rcases hTurns.before hLater with ⟨x, hSession, -⟩ | ⟨-, hNew, -⟩
    · exact .inl ⟨x, hSession⟩
    · exact .inr hNew

/-- One session goes on, and the others are the same. -/
theorem advances_of_session? {id : Nat} {x y : Session}
    (hSession : s.deployment.service.session? id = some x)
    (hAfter : ∀ i, t.deployment.service.session? i =
      if i = id then some y else s.deployment.service.session? i)
    (hName : y.name = x.name) (hRank : x.supervision.rank ≤ y.supervision.rank)
    (hConfig : t.deployment.service.config = s.deployment.service.config)
    (hNext : s.deployment.service.nextSession ≤ t.deployment.service.nextSession) :
    s.Advances t where
  config := hConfig
  next := hNext
  stays := by
    intro i z hBefore
    by_cases hi : i = id
    · subst hi
      obtain rfl := Option.some.inj (hSession.symm.trans hBefore)
      exact ⟨y, (hAfter i).trans (if_pos rfl), hName, hRank⟩
    · exact ⟨z, (hAfter i).trans ((if_neg hi).trans hBefore), rfl, Nat.le_refl _⟩
  newer := by
    intro i z hLater
    by_cases hi : i = id
    · subst hi
      exact .inl ⟨x, hSession⟩
    · exact .inl ⟨z, (if_neg hi).symm.trans ((hAfter i).symm.trans hLater)⟩

/-- The next identity never goes back. -/
theorem step_next (h : s.Sound) (hStep : Step s a s') :
    s.deployment.service.nextSession ≤ s'.deployment.service.nextSession := by
  have hBoard : ∀ {d : Deployment}, SameBoard s.deployment d →
      s.deployment.service.nextSession ≤ d.service.nextSession := fun hSame =>
    Nat.le_of_eq hSame.next.symm
  cases hStep with
  | reserve _ hReserve =>
    obtain ⟨slots, -, rfl⟩ := reserve_ok hReserve
    exact Nat.le_refl _
  | refuse _ hReserve =>
    rw [reserve_error hReserve]
    exact Nat.le_refl _
  | check _ hCheck => exact hBoard (check_sameBoard hCheck)
  | reject _ hCheck => exact hBoard (check_sameBoard hCheck)
  | @spawn i n found session d _ hSpawn =>
    show _ ≤ d.service.nextSession
    rw [(spawn_ok hSpawn).2.2.2.1]
    exact Nat.le_succ _
  | spawnFails _ hSpawn =>
    rw [spawn_error hSpawn]
    exact Nat.le_refl _
  | publish => exact Nat.le_refl _
  | vacate => exact Nat.le_refl _
  | handOver => exact Nat.le_refl _
  | supervise _ hSupervise =>
    obtain ⟨l, supervision, -, hSupervised⟩ := superviseSeeing?_cases h.ownIds hSupervise
    exact Nat.le_of_eq hSupervised.next.symm
  | upload fileName bytes => exact hBoard (upload_sameBoard fileName bytes s.deployment)
  | delete n => exact hBoard (delete_sameBoard n s.deployment)
  | move m => exact hBoard (move_sameBoard h.ownIds m)

theorem Happens.advances (h : s.Sound) (hHappens : Happens s a told s') : s.Advances s' := by
  have hNext := step_next h hHappens.step
  cases hHappens with
  | @supervise id stopFirst x act hOver hAct =>
    obtain ⟨y, o, supervision, hSession, -, hStep, rfl⟩ := act?_cases hAct
    refine advances_of_session? hSession (act_session? hAct) (Session.does_name _ act) ?_
      (perform_config _ _ act) hNext
    rw [Session.does_supervision]
    exact (Supervision.goes_of_step? hStep).forward
  | @read id stream x got hRead =>
    have hLife := x.reads_life stream got
    obtain ⟨hConfig, hAfter⟩ := read_session? hRead
    exact advances_of_session? (read?_cases hRead).1 hAfter (congrArg Life.name hLife)
      (Nat.le_of_eq (congrArg (fun l => l.supervision.rank) hLife.symm)) hConfig hNext
  | delete n => exact advances_of_turns (step_turns h (.delete n) trivial) hNext
  | other hStep hOthers _ => exact advances_of_turns (step_turns h hStep hOthers) hNext

theorem Chronicle.advances (hSound : s₀.Sound) (h : Chronicle Allowed s₀ past s) :
    s₀.Advances s := by
  induction h with
  | begin => exact .refl s₀
  | next hPast hHappens _ ih => exact ih.trans (hHappens.advances (hPast.sound hSound))

-- ---------------------------------------------------------------------------
-- Whose happenings there can be
-- ---------------------------------------------------------------------------

/-- A happening of a supervisor that had come so far before, or whose session is new. -/
def Happening.From (s₀ : Scene) : Happening → Prop
  | .supervised x act _ => ∃ before : Supervision, before.Goes act x.supervision ∧
      ((∃ x₀, s₀.deployment.service.session? x.id = some x₀ ∧ x₀.name = x.name ∧
          x₀.supervision.rank ≤ before.rank) ∨
        s₀.deployment.service.nextSession ≤ x.id)
  | _ => True

/-- Whoever does something went on from where it was at the beginning, or is new. -/
theorem Chronicle.from_before (hSound : s₀.Sound) (h : Chronicle Allowed s₀ past s) :
    ∀ happening ∈ past, happening.From s₀ := by
  induction h with
  | begin => simp
  | @next past s s' a told hPast hHappens _ ih =>
    intro happening hMem
    rcases List.mem_append.mp hMem with hNow | hEarlier
    · obtain rfl := Option.mem_toList.mp hNow
      cases hHappens with
      | @supervise id _ _ _ _ hAct =>
        obtain ⟨y, o, supervision, hSession, -, hStep, rfl⟩ := act?_cases hAct
        have hId : y.id = id := session?_id hSession
        refine ⟨y.supervision, Supervision.goes_of_step? hStep, ?_⟩
        show (∃ x₀, s₀.deployment.service.session? y.id = some x₀ ∧ x₀.name = y.name ∧ _) ∨ _ ≤ y.id
        rw [hId]
        rcases (hPast.advances hSound).newer hSession with ⟨x₀, hFirst⟩ | hNew
        · obtain ⟨z, hNow, hName, hRank⟩ := (hPast.advances hSound).stays hFirst
          obtain rfl := Option.some.inj (hNow.symm.trans hSession)
          exact .inl ⟨x₀, hFirst, hName.symm, hRank⟩
        · exact .inr hNew
      | read => trivial
      | delete => trivial
    · exact ih happening hEarlier

-- ---------------------------------------------------------------------------
-- What must have been done
-- ---------------------------------------------------------------------------

/-- What the supervisor of a session that is like this must have done. -/
structure Accounted (past : List Happening) (x : Session) : Prop where
  reaped : 3 ≤ x.supervision.rank → ∃ y done, .supervised y .reap done ∈ past ∧ y.id = x.id
  logged : 5 ≤ x.supervision.rank →
    ∃ y exit done, .supervised y (.writeLog exit) done ∈ past ∧ y.id = x.id
  announced : x.hub.ended.isSome = true → x.supervision = .finished

theorem Accounted.mono {x : Session} (h : Accounted past x) (later : List Happening) :
    Accounted (later ++ past) x where
  reaped hRank := by
    obtain ⟨y, done, hMem, hId⟩ := h.reaped hRank
    exact ⟨y, done, List.mem_append_right later hMem, hId⟩
  logged hRank := by
    obtain ⟨y, exit, done, hMem, hId⟩ := h.logged hRank
    exact ⟨y, exit, done, List.mem_append_right later hMem, hId⟩
  announced := h.announced

/-- Somebody else's turn leaves nothing to account for, as long as no end is announced. -/
theorem Accounted.of_life {x y : Session} (h : Accounted past x) (hLife : y.life = x.life)
    (hEnded : y.hub.ended = x.hub.ended) : Accounted past y := by
  have hId : y.id = x.id := congrArg Life.id hLife
  have hSupervision : y.supervision = x.supervision := congrArg Life.supervision hLife
  constructor
  · rw [hSupervision, hId]
    exact h.reaped
  · rw [hSupervision, hId]
    exact h.logged
  · rw [hSupervision, hEnded]
    exact h.announced

theorem Supervision.eq_finished {s : Supervision} (h : s.rank = 7) : s = .finished := by
  cases s <;> simp_all [rank]

/-- A supervisor that goes on accounts for what it does. -/
theorem Accounted.act {x y : Session} {act : SupervisorAct} {supervision : Supervision}
    (h : Accounted past x) (hGoes : x.supervision.Goes act supervision)
    (hy : y = { x with supervision }) (done : Bool) :
    Accounted (.supervised y act done :: past) (y.does act) := by
  have hId : (y.does act).id = x.id := by
    rw [hy]
    exact congrArg Life.id (Session.does_life _ act)
  have hRank : (y.does act).supervision = supervision := by
    rw [Session.does_supervision, hy]
  have hSelf : y.id = x.id := by rw [hy]
  constructor
  · rw [hRank, hId]
    intro hReaped
    by_cases hBefore : 3 ≤ x.supervision.rank
    · exact (h.mono [_]).reaped hBefore
    · obtain rfl := hGoes.reaps (by omega) hReaped
      exact ⟨y, done, List.mem_cons_self, hSelf⟩
  · rw [hRank, hId]
    intro hLogged
    by_cases hBefore : 5 ≤ x.supervision.rank
    · exact (h.mono [_]).logged hBefore
    · obtain ⟨exit, rfl⟩ := hGoes.writes (by omega) hLogged
      exact ⟨y, exit, done, List.mem_cons_self, hSelf⟩
  · rw [hRank]
    intro hEnded
    by_cases hAnnounce : ∃ exit, act = .announce exit
    · obtain ⟨exit, rfl⟩ := hAnnounce
      exact Supervision.eq_finished (hGoes.announcing exit rfl)
    · -- the hub is as it was, so a supervisor that goes on has not announced an end
      have hHub : (y.does act).hub = x.hub := by
        rw [hy]
        cases act with
        | announce exit => exact absurd ⟨exit, rfl⟩ hAnnounce
        | _ => rfl
      rw [hHub] at hEnded
      have hFinished := h.announced hEnded
      have hUnfinished := hGoes.unfinished
      rw [hFinished] at hUnfinished
      exact absurd hUnfinished (by decide)

/-- Readers announce no end. -/
theorem Session.reads_ended (x : Session) (stream : Stream) (got : Host.PipeRead) :
    (x.reads stream got).hub.ended = x.hub.ended := by
  cases got with
  | bytes bytes =>
    show (x.hub.publish bytes).ended = x.hub.ended
    unfold Hub.publish
    split <;> rfl
  | _ => rfl

/-- At first there are no sessions. -/
theorem Scene.initial_session? {config : Config} {workingDir hostname : String} {host : Host}
    {id : Nat} {x : Session} :
    (Scene.initial config workingDir hostname host).deployment.service.session? id ≠ some x := by
  intro hSession
  cases hSession

theorem Chronicle.accounted {config : Config} {workingDir hostname : String} {host : Host}
    (h : Chronicle Allowed (Scene.initial config workingDir hostname host) past s) {id : Nat}
    {x : Session} (hSession : s.deployment.service.session? id = some x) : Accounted past x := by
  have hSound := initial_sound config workingDir hostname host
  induction h generalizing id x with
  | begin => exact absurd hSession Scene.initial_session?
  | @next past s s' a told hPast hHappens _ ih =>
    have hTurns : ∀ {touched}, Turns touched s.deployment s'.deployment → Accounted past x := by
      intro touched hTurns
      rcases hTurns.before hSession with ⟨y, hBefore, hTurn⟩ | ⟨-, -, n, pid, pipes, now, rfl⟩
      · exact (ih hBefore).of_life hTurn.life hTurn.ended
      · exact ⟨fun hRank => absurd hRank (by simp [Session.new, Supervision.rank]),
          fun hRank => absurd hRank (by simp [Session.new, Supervision.rank]),
          fun hEnded => absurd hEnded (by simp [Session.new, Hub.new])⟩
    cases hHappens with
    | @supervise i _ y act _ hAct =>
      have hNow := (act_session? hAct id).symm.trans hSession
      split at hNow
      · obtain rfl := Option.some.inj hNow
        obtain ⟨z, o, supervision, hBefore, -, hStep, hy⟩ := act?_cases hAct
        exact (ih hBefore).act (Supervision.goes_of_step? hStep) hy _
      · exact (ih hNow).mono [_]
    | @read i stream y got hRead =>
      have hNow := ((read_session? hRead).2 id).symm.trans hSession
      split at hNow
      · obtain rfl := Option.some.inj hNow
        exact ((ih (read?_cases hRead).1).of_life (y.reads_life stream got)
          (y.reads_ended stream got)).mono [_]
      · exact (ih hNow).mono [_]
    | delete n => exact (hTurns (step_turns (hPast.sound hSound) (.delete n) trivial)).mono [_]
    | other hStep hOthers _ => exact hTurns (step_turns (hPast.sound hSound) hStep hOthers)

end ScriptWarden
