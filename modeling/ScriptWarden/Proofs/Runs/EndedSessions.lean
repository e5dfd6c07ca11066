import ScriptWarden.Proofs.Runs.Chronicles
import ScriptWarden.Proofs.Runs.Outputs
import ScriptWarden.Proofs.Runs.ValidatedFiles

/-!
# What the end of a session means

Whoever can tell that a session has ended, because it is told so or because a new subscription would
find it so, can rely on all of it being over: the process has been reaped, the log was written as far
as that could be done, and the slot is free of the session. It stays so. Nobody is refused because of
the session any more, and it writes no log later, so a log that was deleted with its script stays
away until a session that was started after that writes one.

The log of a script is that of the last session whose log could be written, unless the script was
deleted since, and the sessions of one script write their logs in the order in which they were
started.

## Results

* `Chronicle.logsFollow` — every log, from what happened.
* `Chronicle.logs_in_order` — whose logs were written, in order.
* `ended_sessions_are_over` — what holds when an end can be told, and of every log.
-/

namespace ScriptWarden

variable {Allowed : Scene → Action → Scene → Prop} {s₀ s s' t : Scene}
  {past later : List Happening} {n : ScriptName} {id : Nat}

-- ---------------------------------------------------------------------------
-- One session after another
-- ---------------------------------------------------------------------------

/-- Of the sessions of a script, all but the last have left its slot. -/
def Scene.InTurn (s : Scene) : Prop :=
  ∀ l ∈ s.deployment.lives, ∀ l' ∈ s.deployment.lives, l.name = l'.name → l.id < l'.id →
    l.supervision.HasLeft

theorem initial_inTurn (config : Config) (workingDir hostname : String) (host : Host) :
    (Scene.initial config workingDir hostname host).InTurn :=
  fun _ hMem => absurd hMem List.not_mem_nil

theorem Scene.InTurn.of_lives (h : s.InTurn) (hLives : s'.deployment.lives = s.deployment.lives) :
    s'.InTurn := by
  rw [InTurn, hLives]
  exact h

/-- While a start is about to spawn, every session of its script has left the slot. -/
theorem Scene.Sound.left_of_cleared (h : s.Sound) {i : Nat} {found : Except Fault (List UInt8)}
    (hCall : s.calls i = some ⟨n, .cleared found⟩) {l : Life} (hMem : l ∈ s.deployment.lives)
    (hName : l.name = n) : l.supervision.HasLeft := by
  have hStarting : s.slot? n = some .starting := h.callHolds hCall trivial
  by_contra hLeft
  rcases h.lifeHeld l hMem hLeft with hLive | ⟨j, hAt⟩
  · rw [hName, hStarting] at hLive
    cases hLive
  · obtain rfl := h.callOwn hAt hCall hName
    cases hAt.symm.trans hCall

/-- A session begins when all earlier ones of its script have left. -/
theorem Scene.InTurn.spawn (h : s.InTurn) (hSound : s.Sound) {i : Nat} {n : ScriptName}
    {found : Except Fault (List UInt8)} {session : Session} {d : Deployment} {c : Option StartCall}
    (hCall : s.calls i = some ⟨n, .cleared found⟩)
    (hSpawn : Deployment.spawn n s.deployment = (.ok session, d)) :
    ((s.withDeployment d).withCall i c).InTurn := by
  obtain ⟨hLife, -, hSessions, -⟩ := spawn_ok hSpawn
  have hLives : d.lives = ⟨s.deployment.service.nextSession, n, .watching⟩ :: s.deployment.lives := by
    rw [Deployment.lives, hSessions, List.map_cons, hLife]
    rfl
  intro l hMem l' hMem' hName hLess
  have hOne : l ∈ d.lives := hMem
  have hOther : l' ∈ d.lives := hMem'
  rw [hLives, List.mem_cons] at hOne hOther
  rcases hOne with rfl | hOld
  · -- nothing has a greater identity than the new session
    rcases hOther with rfl | hOld'
    · exact absurd hLess (Nat.lt_irrefl _)
    · exact absurd (hSound.idsBelow l' hOld') (Nat.not_lt.mpr (Nat.le_of_lt hLess))
  · rcases hOther with rfl | hOld'
    · exact hSound.left_of_cleared hCall hOld hName
    · exact h l hOld l' hOld' hName hLess

/-- What a supervisor makes of a session that has left has left, too. -/
theorem Supervised.hasLeft {d d' : Deployment} {l l' : Life} {supervision : Supervision}
    (h : Supervised d l supervision d') (hIds : (d.lives.map Life.id).Nodup) (hMem : l' ∈ d.lives)
    (hLeft : l'.supervision.HasLeft) :
    (if l'.id = l.id then { l with supervision } else l').supervision.HasLeft := by
  split
  · next hId =>
    obtain rfl := life_eq_of_id_eq hIds hMem h.known hId
    rcases h.slots with ⟨hNot, -, -⟩ | ⟨hIff, -⟩
    · exact absurd hLeft hNot
    · exact hIff.mpr hLeft
  · exact hLeft

/-- A supervisor leaves the sessions in turn. -/
theorem Scene.InTurn.supervise (h : s.InTurn) (hSound : s.Sound) {l : Life}
    {supervision : Supervision} {d : Deployment}
    (hSupervised : Supervised s.deployment l supervision d) : (s.withDeployment d).InTurn := by
  have hSame : ∀ y ∈ s.deployment.lives,
      (if y.id = l.id then { l with supervision } else y).id = y.id ∧
        (if y.id = l.id then { l with supervision } else y).name = y.name := by
    intro y hMem
    by_cases hId : y.id = l.id
    · obtain rfl := life_eq_of_id_eq hSound.ownIds hMem hSupervised.known hId
      simp
    · simp [hId]
  intro x hx x' hx' hName hLess
  obtain ⟨y, hKnown, rfl⟩ := hSupervised.mem_lives.mp hx
  obtain ⟨y', hKnown', rfl⟩ := hSupervised.mem_lives.mp hx'
  obtain ⟨hId, hNamed⟩ := hSame y hKnown
  obtain ⟨hId', hNamed'⟩ := hSame y' hKnown'
  rw [hId, hId'] at hLess
  exact hSupervised.hasLeft hSound.ownIds hKnown
    (h y hKnown y' hKnown' (hNamed.symm.trans (hName.trans hNamed')) hLess)

theorem step_inTurn {a : Action} (hSound : s.Sound) (h : s.InTurn) (hStep : Step s a s') :
    s'.InTurn := by
  cases hStep with
  | reserve _ hReserve =>
    obtain ⟨slots, -, rfl⟩ := reserve_ok hReserve
    exact h
  | refuse _ hReserve =>
    rw [reserve_error hReserve]
    exact h
  | check _ hCheck => exact h.of_lives (check_sameBoard hCheck).lives
  | reject _ hCheck => exact h.of_lives (check_sameBoard hCheck).lives
  | spawn hCall hSpawn => exact h.spawn hSound hCall hSpawn
  | spawnFails _ hSpawn =>
    rw [spawn_error hSpawn]
    exact h
  | publish => exact h
  | vacate => exact h
  | handOver => exact h
  | supervise _ hSupervise =>
    obtain ⟨l, supervision, -, hSupervised⟩ := superviseSeeing?_cases hSound.ownIds hSupervise
    exact h.supervise hSound hSupervised
  | upload fileName bytes => exact h.of_lives (upload_sameBoard fileName bytes s.deployment).lives
  | delete n => exact h.of_lives (delete_sameBoard n s.deployment).lives
  | move m => exact h.of_lives (move_sameBoard hSound.ownIds m).lives

theorem Chronicle.inTurn (hSound : s₀.Sound) (h : s₀.InTurn) (hPast : Chronicle Allowed s₀ past s) :
    s.InTurn := by
  have hRun : ∀ {t}, Reaches Allowed s₀ t → t.InTurn := by
    intro t hReach
    induction hReach with
    | refl => exact h
    | step hBefore hStep _ ih => exact step_inTurn (reaches_sound hSound hBefore) ih hStep
  exact hRun hPast.reaches

/-- The log of a session is to be written when that comes next for its supervisor, and never again.
-/
theorem Happens.logged {a : Action} {told : Option Happening} (h : Happens s a told s')
    {y : Session} (hMem : y ∈ told.toList.filterMap Happening.logged?) :
    ∃ z supervision, s.deployment.service.session? y.id = some z ∧ y = { z with supervision } ∧
      z.supervision.rank = 4 ∧ supervision.rank = 5 ∧
      s'.deployment.service.session? y.id = some y := by
  obtain ⟨happening, hTold, hLogged⟩ := List.mem_filterMap.mp hMem
  obtain rfl := Option.mem_toList.mp hTold
  cases h with
  | @supervise id _ x act _ hAct =>
    cases act with
    | writeLog exit =>
      cases hLogged
      have hAfter := act_session? hAct
      obtain ⟨z, o, supervision, hSession, -, hStep, rfl⟩ := act?_cases hAct
      have hId : z.id = id := session?_id hSession
      obtain ⟨hBefore, hWritten⟩ := (Supervision.goes_of_step? hStep).writing exit rfl
      refine ⟨z, supervision, ?_, rfl, hBefore, hWritten, (hAfter z.id).trans (if_pos hId)⟩
      rw [← hId] at hSession
      exact hSession
    | _ => cases hLogged
  | read => cases hLogged
  | delete => cases hLogged

/-- A session whose log was to be written is known, and its supervisor is past that. -/
theorem Chronicle.logged_stays (hSound : s₀.Sound) (h : Chronicle Allowed s₀ past s) :
    ∀ y ∈ past.filterMap Happening.logged?, ∃ z, s.deployment.service.session? y.id = some z ∧
      z.name = y.name ∧ 5 ≤ z.supervision.rank := by
  induction h with
  | begin => simp
  | next hPast hHappens _ ih =>
    intro y hMem
    rw [List.filterMap_append, List.mem_append] at hMem
    rcases hMem with hNow | hEarlier
    · obtain ⟨z, supervision, -, rfl, -, hRank, hAfter⟩ := hHappens.logged hNow
      exact ⟨_, hAfter, rfl, Nat.le_of_eq hRank.symm⟩
    · obtain ⟨z, hSession, hName, hRank⟩ := ih y hEarlier
      obtain ⟨z', hNext, hName', hRank'⟩ := (hHappens.advances (hPast.sound hSound)).stays hSession
      exact ⟨z', hNext, hName'.trans hName, Nat.le_trans hRank hRank'⟩

/-- The sessions of a script write their logs in the order in which they were started, each once. -/
theorem Chronicle.logs_in_order (hSound : s₀.Sound) (hTurn : s₀.InTurn)
    (h : Chronicle Allowed s₀ past s) :
    (past.filterMap Happening.logged?).Pairwise fun x y => x.name = y.name → y.id < x.id := by
  induction h with
  | begin => exact .nil
  | @next past s s' a told hPast hHappens _ ih =>
    rw [List.filterMap_append]
    refine List.pairwise_append.mpr ⟨?_, ih, fun x hNow y hEarlier hName => ?_⟩
    · cases told with
      | none => exact .nil
      | some happening =>
        rw [Option.toList_some, List.filterMap_cons]
        split <;> simp
    obtain ⟨z, hThere, hSame, hRank⟩ := hPast.logged_stays hSound y hEarlier
    obtain ⟨w, supervision, hSession, rfl, hWriting, -, -⟩ := hHappens.logged hNow
    have hOther : y.id ≠ w.id := by
      intro hSameId
      rw [hSameId] at hThere
      obtain rfl := Option.some.inj (hSession.symm.trans hThere)
      omega
    -- a session that still writes its log has not left, so no later one of the script began
    by_contra hLess
    have hLeft := hPast.inTurn hSound hTurn w.life (life_mem hSession) z.life (life_mem hThere)
      (hName.trans hSame.symm) (by
        show w.id < z.id
        rw [session?_id hThere]
        have hNot : ¬ y.id < w.id := hLess
        omega)
    have hFar : 6 ≤ w.supervision.rank := Supervision.hasLeft_iff.mp hLeft
    omega

-- ---------------------------------------------------------------------------
-- Logs along runs
-- ---------------------------------------------------------------------------

/-- Besides supervisors, who write logs, and deletions, nothing touches a log: neither making the
directory of a log, nor the naming of the boot script, nor the host. -/
def LogsLeft (s : Scene) (a : Action) (s' : Scene) : Prop :=
  match a with
  | .supervise id => ∀ x fs, s.deployment.service.session? id = some x →
      s.registry.site.makeLogDir s.files x.name = .ok fs → s.registry.site.SameLogs s.files fs
  | .move m => m.MayChangeFiles → s.registry.site.SameLogs s.files s'.files
  | _ => True

/-- What happens to the log of a script: it is written, or it goes with the script. -/
def Happening.logOf (n : ScriptName) (before : Option (List UInt8)) :
    Happening → Option (List UInt8)
  | .supervised x (.writeLog exit) true =>
    if n = x.name then some (encodeUtf8 (x.logText exit)) else before
  | .deleted m true => if n = m then none else before
  | _ => before

theorem Happening.logOf_writeLog (n : ScriptName) (before : Option (List UInt8)) (x : Session)
    (exit : Exit) (done : Bool) : (Happening.supervised x (.writeLog exit) done).logOf n before =
      if n = x.name ∧ done = true then some (encodeUtf8 (x.logText exit)) else before := by
  cases done <;> simp [logOf]

theorem Happening.logOf_deleted (n m : ScriptName) (before : Option (List UInt8)) (done : Bool) :
    (Happening.deleted m done).logOf n before = if n = m ∧ done = true then none else before := by
  cases done <;> simp [logOf]

/-- What the log of a script holds when all this has happened, newest first. -/
def logAfter (first : Option (List UInt8)) (n : ScriptName) (past : List Happening) :
    Option (List UInt8) :=
  past.foldr (fun happening before => happening.logOf n before) first

/-- A log that was away is there because a session wrote it. -/
theorem written_of_logAfter (h : logAfter none n past ≠ none) :
    ∃ x exit, .supervised x (.writeLog exit) true ∈ past ∧ x.name = n := by
  induction past with
  | nil => exact absurd rfl h
  | cons happening earlier ih =>
    by_cases hBefore : logAfter none n earlier = none
    · have hNow : happening.logOf n (logAfter none n earlier) ≠ none := h
      rw [hBefore] at hNow
      unfold Happening.logOf at hNow
      split at hNow
      · next x exit =>
        split at hNow
        · next hName => exact ⟨x, exit, List.mem_cons_self, hName.symm⟩
        · exact absurd rfl hNow
      · split at hNow <;> exact absurd rfl hNow
      · exact absurd rfl hNow
    · obtain ⟨x, exit, hMem, hName⟩ := ih hBefore
      exact ⟨x, exit, List.mem_cons_of_mem _ hMem, hName⟩

namespace Host

theorem act_files (h : Host) (p : Process) (number : Nat) : (h.act p number).files = h.files := by
  unfold act
  split
  · rfl
  · split
    · rfl
    · split <;> rfl

theorem foldl_act_files (pid : UInt32) (signals : List Nat) (h : Host) :
    (signals.foldl (fun h signal =>
      match h.process? pid with
      | some q => if q.status.isNone then h.act q signal else h
      | none => h) h).files = h.files := by
  induction signals generalizing h with
  | nil => rfl
  | cons signal rest ih =>
    rw [List.foldl_cons, ih]
    split
    · split
      · exact act_files _ _ _
      · rfl
    · rfl

theorem resume_files (h : Host) (p : Process) : (h.resume p).files = h.files :=
  foldl_act_files p.pid p.delayed _

theorem signal_files {h h' : Host} {pid : UInt32} {number : Nat}
    (hSignal : h.signal pid number = .ok h') : h'.files = h.files := by
  unfold signal at hSignal
  split at hSignal
  · cases hSignal
  · next p _ =>
    split at hSignal
    · cases hSignal
      rfl
    split at hSignal
    · cases hSignal
      rfl
    split at hSignal
    · cases hSignal
      split
      · rw [act_files, resume_files]
      · exact resume_files h p
    split at hSignal
    · cases hSignal
      rfl
    · cases hSignal
      exact act_files _ _ _

end Host

/-- Of what supervisors do, only writing a log changes files. -/
theorem perform_files {d : Deployment} {x : Session} {act : SupervisorAct}
    (h : ∀ exit, act ≠ .writeLog exit) : (d.perform x act).host.files = d.host.files := by
  cases act with
  | reap =>
    show ((d.host.reap? x.pid).elim d.host (·.2)).files = d.host.files
    cases hReap : d.host.reap? x.pid with
    | none => rfl
    | some taken =>
      unfold Host.reap? at hReap
      split at hReap
      · obtain ⟨status, -, rfl⟩ := Option.map_eq_some_iff.mp hReap
        rfl
      · cases hReap
  | signal number =>
    show ((d.host.signal x.pid number).toOption.getD d.host).files = d.host.files
    cases hSignal : d.host.signal x.pid number with
    | error f => rfl
    | ok host => exact Host.signal_files hSignal
  | writeLog exit => exact absurd rfl (h exit)
  | _ => rfl

/-- Writing a log: the directory is made, and then the file is written as far as that can be done. -/
theorem writeLog_apply (d : Deployment) (x : Session) (exit : Exit) :
    d.writeLog x exit =
      match (d.service.registry.site.makeLogDir d.host.files x.name).bind fun files =>
          match files.write d.host.now.timestamp
            (d.service.registry.site.seen (d.service.registry.site.logPath x.name))
            (encodeUtf8 (x.logText exit)) with
          | .ok files => .ok files
          | .error _ => .ok files with
      | .ok files => { d with host := { d.host with files } }
      | .error _ => d := rfl

/-- Writing the log of a session changes that log if it can be done, and no other. -/
theorem writeLog_log {d : Deployment} {x : Session} (exit : Exit)
    (h : d.service.registry.site.LogsKept d.host.files)
    (hMade : ∀ fs, d.service.registry.site.makeLogDir d.host.files x.name = .ok fs →
      d.service.registry.site.SameLogs d.host.files fs) :
    d.service.registry.site.LogsKept (d.writeLog x exit).host.files ∧
      ∀ m, d.service.registry.site.log? (d.writeLog x exit).host.files m =
        if m = x.name ∧ d.carriesOut x (.writeLog exit) = true then
          some (encodeUtf8 (x.logText exit))
        else d.service.registry.site.log? d.host.files m := by
  have hRun := writeLog_apply d x exit
  have hCarries : d.carriesOut x (.writeLog exit) =
      ((d.service.registry.site.makeLogDir d.host.files x.name).bind fun files =>
        files.write d.host.now.timestamp
          (d.service.registry.site.seen (d.service.registry.site.logPath x.name))
          (encodeUtf8 (x.logText exit))).isOk := rfl
  cases hDir : d.service.registry.site.makeLogDir d.host.files x.name with
  | error f =>
    rw [hDir] at hRun hCarries
    rw [hRun, hCarries]
    exact ⟨h, fun m => (if_neg (by simp [Except.bind, Except.isOk, Except.toBool])).symm⟩
  | ok made =>
    obtain ⟨hKept, hSame⟩ := hMade made hDir h
    rw [hDir] at hRun hCarries
    simp only [Except.bind] at hRun hCarries
    cases hWrite : made.write d.host.now.timestamp
      (d.service.registry.site.seen (d.service.registry.site.logPath x.name))
      (encodeUtf8 (x.logText exit)) with
    | error f =>
      rw [hWrite] at hRun hCarries
      rw [hRun, hCarries]
      refine ⟨hKept, fun m => ?_⟩
      rw [if_neg (by simp [Except.isOk, Except.toBool])]
      exact hSame m
    | ok files =>
      rw [hWrite] at hRun hCarries
      rw [hRun, hCarries]
      obtain ⟨hKept', hLogs⟩ := Site.write_log hKept hWrite
      refine ⟨hKept', fun m => ?_⟩
      show d.service.registry.site.log? files m = _
      rw [hLogs m, hSame m]
      by_cases hName : m = x.name
      · rw [if_pos hName, if_pos ⟨hName, rfl⟩]
      · rw [if_neg hName, if_neg fun hBoth => hName hBoth.1]

/-- Besides supervisors and deletions, no step touches a log. -/
theorem step_sameLogs {a : Action} (hStep : Step s a s')
    (hOther : ∀ id, a ≠ .supervise id) (hDelete : ∀ n, a ≠ .delete n) (hLeft : LogsLeft s a s') :
    s.registry.site.SameLogs s.files s'.files := by
  have hSame : ∀ {d : Deployment}, d.host.files = s.files →
      s.registry.site.SameLogs s.files d.host.files := by
    intro d hFiles
    rw [hFiles]
    exact .refl _ _
  cases hStep with
  | reserve _ hReserve =>
    obtain ⟨slots, -, rfl⟩ := reserve_ok hReserve
    exact .refl _ _
  | refuse _ hReserve =>
    rw [reserve_error hReserve]
    exact .refl _ _
  | check _ hCheck => exact hSame (congrArg Host.files (check_keeps hCheck).1)
  | reject _ hCheck => exact hSame (congrArg Host.files (check_keeps hCheck).1)
  | spawn _ hSpawn => exact hSame (spawn_files hSpawn)
  | spawnFails _ hSpawn =>
    rw [spawn_error hSpawn]
    exact .refl _ _
  | publish => exact .refl _ _
  | vacate => exact .refl _ _
  | handOver => exact .refl _ _
  | @supervise id _ _ _ _ => exact absurd rfl (hOther id)
  | upload fileName bytes =>
    rcases saveUpload_idle fileName bytes s.deployment with hNothing | ⟨n, -, -, hStore⟩
    · show s.registry.site.SameLogs s.files (Deployment.saveUpload fileName bytes s.deployment).2.host.files
      rw [hNothing]
      exact .refl _ _
    · show s.registry.site.SameLogs s.files (Deployment.saveUpload fileName bytes s.deployment).2.host.files
      rw [hStore]
      exact Store.upload_sameLogs bytes s.deployment.store
  | delete n => exact absurd rfl (hDelete n)
  | move m =>
    by_cases hFiles : m.MayChangeFiles
    · exact hLeft hFiles
    · exact hSame (move_files hFiles s.deployment)

/-- A deletion takes the log away with the script, and touches no other. -/
theorem deleteScript_log {d : Deployment} (h : d.service.registry.site.LogsKept d.host.files)
    (n : ScriptName) :
    d.service.registry.site.LogsKept (Deployment.deleteScript n d).2.host.files ∧
      ∀ m, d.service.registry.site.log? (Deployment.deleteScript n d).2.host.files m =
        if m = n ∧ d.removes n = true then none
        else d.service.registry.site.log? d.host.files m := by
  by_cases hFree : d.slots.slot? n = none
  · rw [deleteScript_free hFree, onStore_files]
    have hRemoves : d.removes n = (Store.removeScript n d.store).1.isOk := by
      rw [Deployment.removes, hFree]
      rfl
    rw [hRemoves]
    exact (Store.retireScript_log (s := d.store) h n).2
  · rw [deleteScript_busy hFree]
    have hRemoves : d.removes n = false := by
      rw [Deployment.removes]
      cases hSlot : d.slots.slot? n with
      | none => exact absurd hSlot hFree
      | some x => rfl
    exact ⟨h, fun m => (if_neg (by simp [hRemoves])).symm⟩

/-- Every log is what it was in an earlier scene, with what has happened to it since. -/
structure LogsFollow (s₀ : Scene) (past : List Happening) (s : Scene) : Prop where
  site : s.registry.site = s₀.registry.site
  kept : s.registry.site.LogsKept s.files
  log : ∀ n, s.registry.site.log? s.files n = logAfter (s₀.registry.site.log? s₀.files n) n past

theorem LogsFollow.trans (h : LogsFollow s₀ past s) (hLater : LogsFollow s later t) :
    LogsFollow s₀ (later ++ past) t where
  site := hLater.site.trans h.site
  kept := hLater.kept
  log n := by
    rw [hLater.log n, h.log n, logAfter, logAfter, logAfter, List.foldr_append]

theorem Happens.logsFollow {a : Action} {told : Option Happening} (hSound : s.Sound)
    (hKept : s.registry.site.LogsKept s.files) (hLeft : LogsLeft s a s')
    (h : Happens s a told s') : LogsFollow s told.toList s' := by
  have hSite : s'.registry.site = s.registry.site :=
    Registry.site_eq_of_bare (step_rules hSound h.step)
  suffices hAll : s.registry.site.LogsKept s'.files ∧ ∀ n, s.registry.site.log? s'.files n =
      logAfter (s.registry.site.log? s.files n) n told.toList by
    rw [← hSite] at hAll
    exact ⟨hSite, hAll.1, fun n => (hAll.2 n).trans (by rw [hSite])⟩
  cases h with
  | @supervise id stopFirst x act hOver hAct =>
    by_cases hWrites : ∃ exit, act = .writeLog exit
    · obtain ⟨exit, rfl⟩ := hWrites
      obtain ⟨z, o, supervision, hSession, -, -, rfl⟩ := act?_cases hAct
      obtain ⟨hThen, hAfter⟩ := writeLog_log
        (d := s.deployment.setSession { z with supervision }) (x := { z with supervision }) exit
        hKept fun fs hMade => hLeft z fs hSession hMade
      refine ⟨hThen, fun m => ?_⟩
      show _ = Happening.logOf m (s.registry.site.log? s.files m) (.supervised _ (.writeLog exit) _)
      rw [Happening.logOf_writeLog]
      exact hAfter m
    · have hFiles : ((s.deployment.setSession x).perform x act).host.files = s.files :=
        perform_files fun exit hAct => hWrites ⟨exit, hAct⟩
      show s.registry.site.LogsKept ((s.deployment.setSession x).perform x act).host.files ∧
        ∀ n, s.registry.site.log? ((s.deployment.setSession x).perform x act).host.files n = _
      rw [hFiles]
      refine ⟨hKept, fun m => ?_⟩
      cases act with
      | writeLog exit => exact absurd ⟨exit, rfl⟩ hWrites
      | _ => rfl
  | read hRead => exact step_sameLogs (.move _) nofun nofun hLeft hKept
  | delete n =>
    obtain ⟨hThen, hAfter⟩ := deleteScript_log hKept n
    refine ⟨hThen, fun m => ?_⟩
    show _ = Happening.logOf m (s.registry.site.log? s.files m) (.deleted n _)
    rw [Happening.logOf_deleted]
    exact hAfter m
  | other hStep hOthers hDelete =>
    refine step_sameLogs hStep (fun id ha => ?_) hDelete hLeft hKept
    rw [ha] at hOthers
    exact hOthers

theorem Chronicle.logsFollow (hSound : s₀.Sound) (hKept : s₀.registry.site.LogsKept s₀.files)
    (hLeft : ∀ s a s', Allowed s a s' → LogsLeft s a s') (h : Chronicle Allowed s₀ past s) :
    LogsFollow s₀ past s := by
  induction h with
  | begin => exact ⟨rfl, hKept, fun _ => rfl⟩
  | next hPast hHappens hAllowed ih =>
    exact ih.trans (hHappens.logsFollow (hPast.sound hSound) ih.kept (hLeft _ _ _ hAllowed))

-- ---------------------------------------------------------------------------
-- The law
-- ---------------------------------------------------------------------------

/-- A subscriber can tell that the session has ended: it is told so, or a new one finds it so. -/
def Session.ShowsEnd (x : Session) : Prop :=
  (∃ r exit, (x.hub.receive r).1 = .value (.ended exit)) ∨ x.subscribe.1.ended.isSome = true

/-- The slot of a script is that of a start under way, or of another session that has not left it. -/
def Scene.HeldBeside (s : Scene) (id : Nat) (n : ScriptName) : Prop :=
  (∃ i c, s.calls i = some c ∧ c.name = n ∧ c.stage.HoldsSlot) ∨
    ∃ l ∈ s.deployment.lives, l.id ≠ id ∧ l.name = n ∧ ¬ l.supervision.HasLeft ∧
      s.slot? n = some (.live l.id)

/-- A slot that a session does not hold is held by somebody else. -/
theorem Scene.Sound.heldBeside (h : s.Sound) (hFree : s.slot? n ≠ some (.live id))
    (hTaken : s.slot? n ≠ none) : s.HeldBeside id n := by
  obtain ⟨x, hSlot⟩ := Option.ne_none_iff_exists'.mp hTaken
  cases x with
  | starting => exact .inl (h.startingHeld hSlot)
  | live other =>
    obtain ⟨l, hMem, rfl, hName, hLeft⟩ := h.liveKnown hSlot
    refine .inr ⟨l, hMem, ?_, hName, hLeft, hSlot⟩
    rintro rfl
    exact hFree hSlot

/-- A session that is not finished when its slot is free will not write a log. -/
theorem Scene.Sound.past_writing (h : s.Sound) (hFree : s.slot? n = none) {x : Session}
    (hSession : s.deployment.service.session? id = some x) (hName : x.name = n) :
    6 ≤ x.supervision.rank := by
  rw [← Supervision.hasLeft_iff]
  by_contra hLeft
  rcases h.lifeHeld x.life (life_mem hSession) hLeft with hLive | ⟨i, hCall⟩
  · have hSlot : s.slot? x.name = some (.live x.id) := hLive
    rw [hName, hFree] at hSlot
    cases hSlot
  · have hSlot : s.slot? x.name = some .starting := h.callHolds hCall trivial
    rw [hName, hFree] at hSlot
    cases hSlot

/-- A session whose end can be told is finished. -/
theorem finished_of_showsEnd {config : Config} {workingDir hostname : String} {host : Host}
    (hPast : Chronicle Allowed (Scene.initial config workingDir hostname host) past s) {x : Session}
    (hSession : s.deployment.service.session? id = some x) (hShows : x.ShowsEnd) :
    x.supervision = .finished := by
  apply (hPast.accounted hSession).announced
  rcases hShows with ⟨r, exit, hTold⟩ | hFound
  · obtain ⟨limit, actions, hHub, -⟩ := reaches_hub hPast.reaches hSession
    have hKept : .ended exit ∈ x.hub.channel.kept := Channel.mem_kept_of_receive hTold
    rw [hHub] at hKept ⊢
    rw [Hub.ended_of_kept limit actions hKept]
    rfl
  · exact hFound

/-- The directory of the log of a session is there. -/
def Scene.hasLogDir (s : Scene) (id : Nat) : Bool :=
  (s.deployment.service.session? id).all fun x =>
    (Files.parentPath? (s.registry.site.logPath x.name)).all fun directory =>
      s.files.isDirectory (s.registry.site.seen directory)

theorem logsLeft_of_hasLogDir (h : s.hasLogDir id = true) : LogsLeft s (.supervise id) s' := by
  intro x fs hSession hMade
  have hThere : s.registry.site.makeLogDir s.files x.name = .ok s.files := by
    apply Site.makeLogDir_there
    intro directory hDirectory
    simpa [Scene.hasLogDir, hSession, hDirectory] using h
  rw [hThere] at hMade
  cases hMade
  exact .refl _ _

/-- The scene after some steps of a supervisor. -/
def Scene.supervised (id : Nat) : Nat → Scene → Scene
  | 0, s => s
  | count + 1, s =>
    supervised id count (s.withDeployment ((s.deployment.supervise? id).getD s.deployment))

/-- What every step of a supervisor keeps holds after some, as long as there is room for the log. -/
theorem Scene.supervised_holds {holds : Scene → Prop} (id count : Nat)
    (hStep : ∀ {s d}, holds s → s.hasLogDir id = true → s.deployment.supervise? id = some d →
      holds (s.withDeployment d)) (h : holds s)
    (hDir : ∀ k, k < count → (s.supervised id k).hasLogDir id = true) :
    holds (s.supervised id count) := by
  induction count generalizing s with
  | zero => exact h
  | succ count ih =>
    refine ih ?_ fun k hLess => hDir (k + 1) (Nat.succ_lt_succ hLess)
    cases hNext : s.deployment.supervise? id with
    | none => exact h
    | some d => exact hStep h (hDir 0 (Nat.zero_lt_succ count)) hNext

/-- A host with a script, an interpreter and a directory for logs. -/
def loggingHost : Host where
  now := default
  files :=
    { entries := [(["scripts"], .directory), (["scripts", "a.py"], .file 0), (["bin"], .directory),
        (["bin", "python3"], .file 1), (["logs"], .directory)]
      bodies := [(0, { bytes := [], modified := default })]
      nextId := 2 }
  self := 2
  programs := fun name => if name = "python3" then some fun _ _ => .exit 0 else none
  nextPid := 3

/-- A configuration that names them. -/
def loggingConfig : Config :=
  { Config.standard "/home" with
    scriptsDir := "/scripts", logDir := "/logs", interpreter := "/bin/python3" }

/-- A service that has found the script valid and has started it. -/
def loggingScene : Scene :=
  let s := Scene.initial loggingConfig "/" "host" loggingHost
  let found := [(default, { size := 0, modified := default, analysis := {} })]
  let s := s.withDeployment ((Move.remember found).perform s.deployment)
  s.withDeployment (Deployment.start default s.deployment).2

/-- The session was stopped, and its process has ended. -/
def stoppedScene : Scene :=
  (loggingScene.withDeployment ((Move.stop default).perform loggingScene.deployment)).supervised 1 2

/-- The readers have found the end of the output, and the end of the session was announced. -/
def endedScene : Scene :=
  let s := stoppedScene.withDeployment ((Move.readOutput 1 .out).perform stoppedScene.deployment)
  (s.withDeployment ((Move.readOutput 1 .err).perform s.deployment)).supervised 1 6

theorem loggingHost_kept : (Site.ofConfig loggingConfig "/").LogsKept loggingHost.files := by
  have hPlain : loggingHost.files.Plain := by
    apply Files.plain_of_entries <;> simp [loggingHost]
  have hNowhere : loggingHost.files.place ((Site.ofConfig loggingConfig "/").seen
      (Site.ofConfig loggingConfig "/").autobootFile) false = .error .notFound := by
    decide +kernel
  refine ⟨⟨by decide +kernel, fun _ _ => hPlain.noLinks, fun _ => hPlain.oneName, hPlain.fresh,
    fun hPlace => ?_⟩, fun _ => hPlain.oneName, fun hPlace => ?_⟩ <;>
    cases hNowhere.symm.trans hPlace

theorem loggingScene_reached {Allowed : Scene → Action → Scene → Prop}
    (hRemember : ∀ s analyses s', Allowed s (.move (.remember analyses)) s')
    (hStart : ∀ s a s', a.caller? = some 0 → Allowed s a s') :
    Reaches Allowed (Scene.initial loggingConfig "/" "host" loggingHost) loggingScene :=
  (Reaches.refl.step (.move (.remember
    [(default, { size := 0, modified := default, analysis := {} })])) (hRemember _ _ _)).trans
    (start_isRun _ hStart rfl default)

/-- The steps of starts touch no logs. -/
theorem logsLeft_of_caller {a : Action} {i : Nat} (h : a.caller? = some i) : LogsLeft s a s' := by
  cases a <;> trivial

/-- What goes on when the session has been asked to end. -/
theorem endedScene_follows {Allowed : Scene → Action → Scene → Prop}
    (hMoves : ∀ s m s', ¬ m.MayChangeFiles → Allowed s (.move m) s')
    (hSupervises : ∀ s s', s.hasLogDir 1 = true → Allowed s (.supervise 1) s') :
    Reaches Allowed
      (loggingScene.withDeployment ((Move.stop default).perform loggingScene.deployment)) endedScene := by
  let reached (t : Scene) : Prop :=
    Reaches Allowed
      (loggingScene.withDeployment ((Move.stop default).perform loggingScene.deployment)) t ∧
      t.calls = fun _ => none
  have hMove : ∀ {t : Scene} (m : Move), ¬ m.MayChangeFiles → reached t →
      reached (t.withDeployment (m.perform t.deployment)) :=
    fun m hFiles hReach => ⟨hReach.1.step (.move m) (hMoves _ _ _ hFiles), hReach.2⟩
  have hSupervise : ∀ {t : Scene} {d : Deployment}, reached t → t.hasLogDir 1 = true →
      t.deployment.supervise? 1 = some d → reached (t.withDeployment d) := by
    intro t d hReach hDir hNext
    refine ⟨hReach.1.step (.supervise (fun i c hCall => ?_) hNext) (hSupervises _ _ hDir), hReach.2⟩
    rw [hReach.2] at hCall
    cases hCall
  have hStopped : reached stoppedScene :=
    Scene.supervised_holds 1 2 hSupervise ⟨.refl, rfl⟩ (by decide +kernel)
  have hRead := hMove (.readOutput 1 .err) nofun (hMove (.readOutput 1 .out) nofun hStopped)
  exact (Scene.supervised_holds 1 6 hSupervise hRead (by decide +kernel)).1

theorem endedScene_reached :
    Reaches LogsLeft (Scene.initial loggingConfig "/" "host" loggingHost) endedScene := by
  have hStarted : Reaches LogsLeft (Scene.initial loggingConfig "/" "host" loggingHost) loggingScene :=
    loggingScene_reached (fun _ _ _ => nofun) fun _ _ _ => logsLeft_of_caller
  have hStopped := hStarted.step (.move (.stop default)) nofun
  exact hStopped.trans (endedScene_follows (fun _ _ _ hFiles hMay => absurd hMay hFiles)
    fun _ _ => logsLeft_of_hasLogDir)

end ScriptWarden
