import ScriptWarden.Proofs.Runs.Inspections

/-!
# Shutting a service down

A service that is shut down asks all scripts that it finds running to end, and waits for their ends
until its time is up. It finds them in the slots, which are kept in parts: a part is looked at as it is
at one moment, the next part at another. In between, and while the scripts are asked and waited for,
starts, supervisors and whatever else there is in a scene go on.

The slot of a start that has not published its session is passed over. Nobody asks that session to
end, nobody waits for it, and it may run on after the shutdown has returned, even though its start had
taken the slot, and spawned the process, before the service was shut down
(`unpublished_session_outlives_shutdown`). Those are the only ones: what had been published when its
part was looked at is over when the shutdown returns in time.

## Results

* `stopAll_alone`, `return_of_haveEnded` — the steps in a row are what the service does when nothing
  comes between.
* `Sound.step` — what every step keeps.
* `shutdown_ends_published_sessions` — the law.
-/

namespace ScriptWarden

/-- A session is over: its process has been reaped, and it holds no slot. -/
def Scene.IsOver (s : Scene) (id : Nat) : Prop :=
  (∀ x, s.deployment.service.session? id = some x → ¬ x.supervision.HoldsChild) ∧
    ∀ n, s.slot? n ≠ some (.live id)

/-- A session that has left its slot is over. -/
theorem Scene.Sound.isOver {s : Scene} (h : s.Sound) {id : Nat} {x : Session}
    (hSession : s.deployment.service.session? id = some x) (hLeft : x.supervision.HasLeft) :
    s.IsOver id := by
  refine ⟨fun y hSame hChild => ?_, fun n hLive => ?_⟩
  · obtain rfl := Option.some.inj (hSession.symm.trans hSame)
    exact Supervision.not_hasLeft_of_holdsChild hChild hLeft
  · obtain ⟨l, hMem, hId, -, hNot⟩ := h.liveKnown hLive
    obtain rfl : l = x.life :=
      life_eq_of_id_eq h.ownIds hMem (life_mem hSession) (hId.trans (session?_id hSession).symm)
    exact hNot hLeft

-- ---------------------------------------------------------------------------
-- What is under way
-- ---------------------------------------------------------------------------

/-- How far a shutdown has come. -/
inductive ShutdownStage where
  | before
  /-- The slots are looked at, part by part; these sessions have been found. -/
  | looking (found : List Nat)
  /-- Of the sessions that were found, some are still to be asked to end, and the others have been. -/
  | asking (left asked : List Nat)
  | waiting (sessions : List Nat)
  | returned
  /-- The time was up while these sessions were waited for. -/
  | expired (sessions : List Nat)

namespace ShutdownStage

/-- The sessions that were found and have not been seen to end. -/
def pending : ShutdownStage → List Nat
  | before | returned => []
  | looking found => found
  | asking left asked => left ++ asked
  | waiting sessions | expired sessions => sessions

/-- Whether all parts of the slots have been looked at. -/
def HasLooked : ShutdownStage → Prop
  | before | looking _ => False
  | _ => True

end ShutdownStage

/-- A scene and a shutdown in it. The scene in which that began, and those in which it looked at the
parts of the slots, are kept for statements only. -/
structure Shutdown where
  scene : Scene
  stage : ShutdownStage
  began : Option Scene
  looks : List Scene

namespace Shutdown

variable {w w' : Shutdown}

def deployment (w : Shutdown) : Deployment := w.scene.deployment

/-- A scene that is not shut down yet. -/
def quiet (s : Scene) : Shutdown := { scene := s, stage := .before, began := none, looks := [] }

def withScene (w : Shutdown) (scene : Scene) : Shutdown := { w with scene }

def withDeployment (w : Shutdown) (d : Deployment) : Shutdown :=
  w.withScene (w.scene.withDeployment d)

def withStage (w : Shutdown) (stage : ShutdownStage) : Shutdown := { w with stage }

-- how the slots are kept: the part that the slot of each script belongs to
variable {parts : Nat} (part : ScriptName → Fin parts)

/-- The sessions that hold a slot of a part. -/
def running (w : Shutdown) (k : Nat) : List Nat :=
  (w.deployment.service.liveSessions.filter fun x => (part x.name).val = k).map (·.id)

-- ---------------------------------------------------------------------------
-- Steps
-- ---------------------------------------------------------------------------

/-- One step of a shutdown, or of whoever else acts in the scene. -/
inductive Step (w : Shutdown) : Shutdown → Prop
  | others {a : Action} {s : Scene} : ScriptWarden.Step w.scene a s → Step w (w.withScene s)
  | begin : w.stage = .before →
      Step w { w with stage := .looking [], began := some w.scene }
  | look {found : List Nat} : w.stage = .looking found → w.looks.length < parts →
      Step w { w with
        stage := .looking (found ++ w.running part w.looks.length)
        looks := w.looks ++ [w.scene] }
  /-- Nothing was found. -/
  | rest : w.stage = .looking [] → w.looks.length = parts → Step w (w.withStage .returned)
  | gather {found : List Nat} : w.stage = .looking found → found ≠ [] → w.looks.length = parts →
      Step w (w.withStage (.asking found []))
  | ask {id : Nat} {left asked : List Nat} {x : Session} : w.stage = .asking (id :: left) asked →
      w.deployment.service.session? id = some x →
      Step w ((w.withDeployment (w.deployment.setSession x.requestStop)).withStage
        (.asking left (asked ++ [id])))
  | wait {asked : List Nat} : w.stage = .asking [] asked → Step w (w.withStage (.waiting asked))
  | notice {id : Nat} {sessions : List Nat} {x : Session} : w.stage = .waiting sessions →
      w.deployment.service.session? id = some x → x.ShowsEnd →
      Step w (w.withStage (.waiting (sessions.erase id)))
  | finish : w.stage = .waiting [] → Step w (w.withStage .returned)
  | expire {sessions : List Nat} : w.stage = .waiting sessions →
      Step w (w.withStage (.expired sessions))

/-- What runs lead to. -/
inductive Reaches (w₀ : Shutdown) : Shutdown → Prop
  | refl : Reaches w₀ w₀
  | step {w w' : Shutdown} : Reaches w₀ w → Step part w w' → Reaches w₀ w'

variable {part}

theorem Reaches.trans {u v : Shutdown} (hFirst : Reaches part u v) (hRest : Reaches part v w) :
    Reaches part u w := by
  induction hRest with
  | refl => exact hFirst
  | step _ hStep ih => exact ih.step hStep

/-- What others do is a run. -/
theorem Reaches.others {s : Scene} (h : ScriptWarden.Reaches AnyStep w.scene s) :
    Reaches part w (w.withScene s) := by
  induction h with
  | refl => exact .refl
  | step _ hStep _ ih => exact ih.step (.others hStep)

-- ---------------------------------------------------------------------------
-- A shutdown by itself
-- ---------------------------------------------------------------------------

/-- Sessions are asked to end as they were found; asking one again changes nothing. -/
theorem asks_alone {asked : List Nat} (xs : List Session)
    (hStage : w.stage = .asking (xs.map (·.id)) asked)
    (hKnown : ∀ x ∈ xs, ∃ y, w.deployment.service.session? x.id = some y ∧
      y.requestStop = x.requestStop) :
    Reaches part w ((w.withDeployment (xs.foldl (fun d x => d.setSession x.requestStop)
      w.deployment)).withStage (.asking [] (asked ++ xs.map (·.id)))) := by
  induction xs generalizing w asked with
  | nil =>
    have hSame : w = (w.withDeployment w.deployment).withStage (.asking [] (asked ++ [])) := by
      rw [List.append_nil]
      exact congrArg (fun stage => { w with stage }) hStage
    exact hSame ▸ .refl
  | cons x rest ih =>
    obtain ⟨y, hSession, hSame⟩ := hKnown x List.mem_cons_self
    have hAsked : Step part w _ := Step.ask hStage hSession
    rw [hSame] at hAsked
    refine (Reaches.refl.step hAsked).trans ?_
    have hRest := ih (w := (w.withDeployment (w.deployment.setSession x.requestStop)).withStage
      (.asking (rest.map (·.id)) (asked ++ [x.id]))) rfl fun z hMem => ?_
    · rw [List.append_assoc] at hRest
      exact hRest
    · obtain ⟨y', hThere, hStop⟩ := hKnown z (List.mem_cons_of_mem _ hMem)
      by_cases hId : z.id = x.id
      · refine ⟨x.requestStop, ?_, ?_⟩
        · show (w.deployment.setSession x.requestStop).service.session? z.id = _
          rw [session?_setSession, if_pos (show z.id = x.requestStop.id from hId), hThere,
            Option.map_some]
        · rw [← hStop, ← hSame]
          rw [hId] at hThere
          obtain rfl := Option.some.inj (hSession.symm.trans hThere)
          rfl
      · refine ⟨y', ?_, hStop⟩
        show (w.deployment.setSession x.requestStop).service.session? z.id = _
        rw [session?_setSession, if_neg (show ¬ z.id = x.requestStop.id from hId)]
        exact hThere

/-- What a shutdown that nothing comes between comes to: all are asked to end that hold a slot, if any
do, and are waited for. The slots are in one part, which is looked at once. -/
theorem stopAll_alone (s : Scene) : Reaches (fun _ => (0 : Fin 1)) (quiet s)
    { scene := s.withDeployment s.deployment.stopAll.2, began := some s, looks := [s],
      stage := if s.deployment.stopAll.1 = [] then .returned else .waiting s.deployment.stopAll.1 } := by
  have hBegun : Reaches (fun _ => (0 : Fin 1)) (quiet s) _ := Reaches.refl.step (.begin rfl)
  have hLooked := hBegun.step (.look rfl Nat.zero_lt_one)
  have hSeen : Reaches (fun _ => (0 : Fin 1)) (quiet s)
      { scene := s, stage := .looking (running (fun _ => (0 : Fin 1)) (quiet s) 0),
        began := some s, looks := [s] } := hLooked
  have hAll : running (fun _ => (0 : Fin 1)) (quiet s) 0 = s.deployment.stopAll.1 := by
    simp [running, Deployment.stopAll, quiet, Shutdown.deployment]
  rw [hAll] at hSeen
  by_cases hNone : s.deployment.service.liveSessions = []
  · have hRest := hSeen.step (.rest (by simp [Deployment.stopAll, hNone]) rfl)
    simp only [Deployment.stopAll, hNone, List.map_nil, if_true, List.foldl_nil]
    exact hRest
  · have hSome : s.deployment.stopAll.1 ≠ [] := by simpa [Deployment.stopAll] using hNone
    have hGathered := hSeen.step (.gather rfl hSome rfl)
    have hAsked := hGathered.trans (asks_alone s.deployment.service.liveSessions rfl fun x hMem => by
      obtain ⟨id, -, hSession⟩ := List.mem_filterMap.mp hMem
      exact ⟨x, session?_self hSession, rfl⟩)
    have hWaits := hAsked.step (.wait rfl)
    rw [if_neg hSome]
    exact hWaits

/-- When all have announced their ends, the shutdown returns. -/
theorem return_of_haveEnded {sessions : List Nat} (hStage : w.stage = .waiting sessions)
    (hKnown : ∀ id ∈ sessions, ∃ x, w.deployment.service.session? id = some x)
    (hEnded : w.deployment.haveEnded sessions = true) :
    Reaches part w (w.withStage .returned) := by
  induction sessions generalizing w with
  | nil => exact Reaches.refl.step (.finish hStage)
  | cons id rest ih =>
    obtain ⟨x, hSession⟩ := hKnown id List.mem_cons_self
    obtain ⟨hFirst, hOthers⟩ : x.hub.ended.isSome = true ∧ w.deployment.haveEnded rest = true := by
      simpa [Deployment.haveEnded, hSession] using hEnded
    have hNoticed : Step part w _ := Step.notice hStage hSession (.inr hFirst)
    rw [List.erase_cons_head] at hNoticed
    exact (Reaches.refl.step hNoticed).trans
      (ih rfl (fun i hMem => hKnown i (List.mem_cons_of_mem _ hMem)) hOthers)

-- ---------------------------------------------------------------------------
-- What every step keeps
-- ---------------------------------------------------------------------------

/-- The end of a session has been announced. -/
def Finished (w : Shutdown) (id : Nat) : Prop :=
  ∃ x, w.deployment.service.session? id = some x ∧ x.supervision = .finished

/-- A part of the slots was looked at in this scene, after the shutdown began; the sessions that held a
slot of it then are dealt with, or have finished. -/
structure Looked (part : ScriptName → Fin parts) (w : Shutdown) (k : Nat) (s : Scene) : Prop where
  began : ∃ b, w.began = some b ∧ ScriptWarden.Reaches AnyStep b s
  since : ScriptWarden.Reaches AnyStep s w.scene
  found : ∀ {n id}, (part n).val = k → s.slot? n = some (.live id) →
    id ∈ w.stage.pending ∨ w.Finished id

/-- The shutdown is part of a run, and deals with all it has found. -/
structure Sound (part : ScriptName → Fin parts) (s₀ : Scene) (w : Shutdown) : Prop where
  run : ScriptWarden.Reaches AnyStep s₀ w.scene
  began : ∀ {b}, w.began = some b →
    ScriptWarden.Reaches AnyStep s₀ b ∧ ScriptWarden.Reaches AnyStep b w.scene
  called : w.stage ≠ .before → ∃ b, w.began = some b
  uncalled : w.stage = .before → w.looks = []
  looks : ∀ {k s}, w.looks[k]? = some s → Looked part w k s
  all : w.stage.HasLooked → w.looks.length = parts

variable {s₀ : Scene}

/-- What has finished stays so. -/
theorem Finished.onward {id : Nat} (h : w.Finished id) (hSound : w.scene.Sound) {a : Action} {s : Scene}
    (hStep : ScriptWarden.Step w.scene a s) : (w.withScene s).Finished id := by
  obtain ⟨x, hSession, hFinished⟩ := h
  obtain ⟨told, hHappens⟩ := hStep.happens
  obtain ⟨y, hLater, -, hRank⟩ := (hHappens.advances hSound).stays hSession
  refine ⟨y, hLater, Supervision.eq_finished ?_⟩
  rw [hFinished] at hRank
  have hMost : y.supervision.rank ≤ 7 := by cases y.supervision <;> simp [Supervision.rank]
  exact Nat.le_antisymm hMost hRank

/-- Others go on. -/
theorem Sound.onward (h : Sound part s₀ w) (h₀ : s₀.Sound) {a : Action} {s : Scene}
    (hStep : ScriptWarden.Step w.scene a s) : Sound part s₀ (w.withScene s) where
  run := h.run.next hStep
  began hBegan := ⟨(h.began hBegan).1, (h.began hBegan).2.next hStep⟩
  called := h.called
  uncalled := h.uncalled
  looks hLook :=
    { began := (h.looks hLook).began
      since := (h.looks hLook).since.next hStep
      found := fun hPart hLive => ((h.looks hLook).found hPart hLive).imp_right fun hFinished =>
        hFinished.onward (reaches_sound h₀ h.run) hStep }
  all := h.all

/-- The shutdown comes further; what it leaves out has finished. -/
theorem Sound.withStage (h : Sound part s₀ w) {stage stage' : ShutdownStage} (hStage : w.stage = stage)
    (hBegun : stage ≠ .before) (hOn : stage' ≠ .before)
    (hPending : ∀ id ∈ stage.pending, id ∈ stage'.pending ∨ w.Finished id)
    (hAll : w.looks.length = parts) : Sound part s₀ (w.withStage stage') where
  run := h.run
  began := h.began
  called _ := h.called (hStage ▸ hBegun)
  uncalled hBefore := absurd hBefore hOn
  looks hLook :=
    { began := (h.looks hLook).began
      since := (h.looks hLook).since
      found := fun hPart hLive => by
        rcases (h.looks hLook).found hPart hLive with hMem | hFinished
        · exact hPending _ (hStage ▸ hMem)
        · exact Or.inr hFinished }
  all _ := hAll

theorem Sound.looked (h : Sound part s₀ w) {stage : ShutdownStage} (hStage : w.stage = stage)
    (hLooked : stage.HasLooked) : w.looks.length = parts := h.all (hStage ▸ hLooked)

/-- A session that holds a slot is found in the part of its script. -/
theorem mem_running (hSound : w.scene.Sound) {n : ScriptName} {id : Nat}
    (hLive : w.scene.slot? n = some (.live id)) : id ∈ w.running part (part n).val := by
  obtain ⟨l, hMem, hId, hName, -⟩ := hSound.liveKnown hLive
  obtain ⟨x, hOwn, rfl⟩ := List.mem_map.mp hMem
  have hSession := session?_of_mem hSound.ownIds hOwn
  have hIs : x.id = id := hId
  rw [hIs] at hSession
  have hFound : x ∈ w.deployment.service.liveSessions :=
    List.mem_filterMap.mpr ⟨id, Slots.mem_sessions_of_slot? hLive, hSession⟩
  have hThere : (part x.name).val = (part n).val := by
    rw [show x.name = n from hName]
  exact List.mem_map.mpr ⟨x, List.mem_filter.mpr ⟨hFound, by simpa using hThere⟩, hIs⟩

/-- A start that is to publish a session was so far before, or has just spawned the session. -/
theorem spawned_of_step {s s' : Scene} {a : Action} (hStep : ScriptWarden.Step s a s') {j id : Nat}
    {n : ScriptName} (hCall : s'.calls j = some ⟨n, .spawned id⟩) :
    s.calls j = some ⟨n, .spawned id⟩ ∨ id = s.deployment.service.nextSession := by
  have hOther : ∀ {i : Nat} {c : Option StartCall},
      (if j = i then c else s.calls j) = some ⟨n, .spawned id⟩ → c ≠ some ⟨n, .spawned id⟩ →
      s.calls j = some ⟨n, .spawned id⟩ := by
    intro i c hAfter hNot
    split at hAfter
    · exact absurd hAfter hNot
    · exact hAfter
  cases hStep with
  | reserve | check | reject | spawnFails | publish | vacate | handOver =>
    exact Or.inl (hOther hCall nofun)
  | @spawn i m found session d hBefore hSpawn =>
    by_cases hNew : some (⟨m, .spawned session.id⟩ : StartCall) = some ⟨n, .spawned id⟩
    · cases hNew
      exact Or.inr (congrArg Life.id (spawn_ok hSpawn).1)
    · exact Or.inl (hOther hCall hNew)
  | _ => exact Or.inl hCall

/-- A session that holds its slot has been published for good. -/
theorem not_spawned_of_live {s t : Scene} (h : s.Sound) (hReach : ScriptWarden.Reaches AnyStep s t)
    {n : ScriptName} {id : Nat} (hLive : s.slot? n = some (.live id)) (j : Nat) (m : ScriptName) :
    t.calls j ≠ some ⟨m, .spawned id⟩ := by
  obtain ⟨l, hMem, hId, hName, -⟩ := h.liveKnown hLive
  have hBelow : id < s.deployment.service.nextSession := hId ▸ h.idsBelow l hMem
  induction hReach generalizing j m with
  | refl =>
    intro hCall
    have hWatched := h.callWatched hCall rfl
    obtain rfl := life_eq_of_id_eq h.ownIds hWatched hMem hId.symm
    obtain rfl : m = n := hName
    cases hLive.symm.trans (h.callHolds hCall trivial)
  | step hReach hStep _ ih =>
    intro hCall
    rcases spawned_of_step hStep hCall with hBefore | hNew
    · exact ih j m hBefore
    · obtain ⟨past, hPast⟩ := hReach.chronicle
      have hNext := (hPast.advances h).next
      omega

section

variable {config : Config} {workingDir hostname : String} {host : Host}

/-- Asking a session to end. -/
theorem perform_stopSession {d : Deployment} {id : Nat} {x : Session}
    (hSession : d.service.session? id = some x) :
    (Move.stopSession id).perform d = d.setSession x.requestStop := by
  simp only [Move.perform, hSession, Option.elim_some]

/-- **What every step keeps.** -/
theorem Sound.step (h : Sound part (.initial config workingDir hostname host) w)
    (hStep : Step part w w') : Sound part (.initial config workingDir hostname host) w' := by
  have h₀ := initial_sound config workingDir hostname host
  cases hStep with
  | others hOther => exact h.onward h₀ hOther
  | begin hBefore =>
    have hNone := h.uncalled hBefore
    refine ⟨h.run, fun {b} hBegan => ?_, fun _ => ⟨_, rfl⟩, fun _ => hNone, fun {k s} hLook => ?_,
      nofun⟩
    · cases hBegan
      exact ⟨h.run, .refl⟩
    · have hNow : w.looks[k]? = some s := hLook
      rw [hNone] at hNow
      cases hNow
  | @look found hLooking hMore =>
    obtain ⟨b, hBegan⟩ := h.called (by rw [hLooking]; nofun)
    refine ⟨h.run, h.began, fun _ => ⟨b, hBegan⟩, nofun, fun {k s} hLook => ?_, nofun⟩
    have hNow : (w.looks ++ [w.scene])[k]? = some s := hLook
    rcases Nat.lt_or_ge k w.looks.length with hBefore | hLast
    · rw [List.getElem?_append_left hBefore] at hNow
      refine ⟨(h.looks hNow).began, (h.looks hNow).since, fun hPart hLive => ?_⟩
      rcases (h.looks hNow).found hPart hLive with hMem | hFinished
      · rw [hLooking] at hMem
        exact Or.inl (List.mem_append_left _ hMem)
      · exact Or.inr hFinished
    · -- this part is the one that is looked at
      rw [List.getElem?_append_right hLast] at hNow
      obtain ⟨hZero, rfl⟩ : k - w.looks.length = 0 ∧ w.scene = s := by
        cases hAt : k - w.looks.length with
        | zero =>
          rw [hAt] at hNow
          exact ⟨rfl, Option.some.inj hNow⟩
        | succ j =>
          rw [hAt] at hNow
          cases hNow
      obtain rfl : k = w.looks.length := by omega
      refine ⟨⟨b, hBegan, (h.began hBegan).2⟩, .refl, fun hPart hLive => Or.inl ?_⟩
      refine List.mem_append_right _ ?_
      rw [← hPart]
      exact mem_running (reaches_sound h₀ h.run) hLive
  | rest hLooking hAll => exact h.withStage hLooking nofun nofun nofun hAll
  | gather hLooking _ hAll =>
    refine h.withStage hLooking nofun nofun (fun i hMem => Or.inl ?_) hAll
    exact List.mem_append_left _ hMem
  | @ask id left asked x hAsking hSession =>
    have hOn := h.onward h₀ (.move (.stopSession id))
    rw [show w.scene.deployment = w.deployment from rfl, perform_stopSession hSession] at hOn
    refine hOn.withStage hAsking nofun nofun (fun i hMem => Or.inl ?_) (h.looked hAsking trivial)
    simp only [ShutdownStage.pending, List.cons_append, List.mem_cons, List.mem_append] at hMem ⊢
    tauto
  | wait hAsking =>
    exact h.withStage hAsking nofun nofun (fun _ hMem => Or.inl hMem) (h.looked hAsking trivial)
  | @notice id sessions x hWaiting hSession hShows =>
    refine h.withStage hWaiting nofun nofun (fun i hMem => ?_) (h.looked hWaiting trivial)
    by_cases hi : i = id
    · subst hi
      obtain ⟨past, hPast⟩ := h.run.chronicle
      exact Or.inr ⟨x, hSession, finished_of_showsEnd hPast hSession hShows⟩
    · exact Or.inl ((List.mem_erase_of_ne hi).mpr hMem)
  | finish hWaiting =>
    exact h.withStage hWaiting nofun nofun nofun (h.looked hWaiting trivial)
  | expire hWaiting =>
    exact h.withStage hWaiting nofun nofun (fun _ hMem => Or.inl hMem) (h.looked hWaiting trivial)

theorem Reaches.sound (hReach : Reaches part (quiet (.initial config workingDir hostname host)) w) :
    Sound part (.initial config workingDir hostname host) w := by
  induction hReach with
  | refl => exact ⟨.refl, nofun, fun hBegun => absurd rfl hBegun, fun _ => rfl, nofun, nofun⟩
  | step _ hStep ih => exact ih.step hStep

-- ---------------------------------------------------------------------------
-- The law
-- ---------------------------------------------------------------------------

/-- A session that a shutdown which has returned could find is over. -/
theorem Sound.over_of_live (h : Sound part (.initial config workingDir hostname host) w)
    (hReturned : w.stage = .returned) {k : Nat} {s : Scene} (hLook : w.looks[k]? = some s)
    {n : ScriptName} {id : Nat} (hPart : (part n).val = k) (hLive : s.slot? n = some (.live id)) :
    w.scene.IsOver id := by
  rcases (h.looks hLook).found hPart hLive with hMem | ⟨x, hSession, hFinished⟩
  · rw [hReturned] at hMem
    cases hMem
  · refine (reaches_sound (initial_sound config workingDir hostname host) h.run).isOver hSession ?_
    rw [hFinished]
    trivial

/-- A session that was there is over, unless it held its slot or was to be published then. -/
theorem over_or_held {s t : Scene} (h : s.Sound) (hReach : ScriptWarden.Reaches AnyStep s t) {id : Nat}
    {x : Session} (hSession : t.deployment.service.session? id = some x)
    (hBefore : id < s.deployment.service.nextSession) :
    t.IsOver id ∨ s.slot? x.name = some (.live id) ∨ ∃ j, s.calls j = some ⟨x.name, .spawned id⟩ := by
  by_cases hLeft : x.supervision.HasLeft
  · exact Or.inl ((reaches_sound h hReach).isOver hSession hLeft)
  obtain ⟨past, hPast⟩ := hReach.chronicle
  have hAdvances := hPast.advances h
  rcases hAdvances.newer hSession with ⟨y, hThere⟩ | hNew
  · obtain ⟨x', hLater, hName, hRank⟩ := hAdvances.stays hThere
    obtain rfl := Option.some.inj (hSession.symm.trans hLater)
    have hStays : ¬ y.supervision.HasLeft := by
      rw [Supervision.hasLeft_iff] at hLeft ⊢
      omega
    have hId : y.life.id = id := session?_id hThere
    have hHeld := h.lifeHeld y.life (life_mem hThere) hStays
    rw [hId, show y.life.name = x.name from hName.symm] at hHeld
    exact Or.inr hHeld
  · omega

/--
**A shutdown that returns in time has ended what it could find.** Let a service be shut down while
starts, supervisors and whatever else goes on in it come between in any way, and let the shutdown
return before its time is up. Then the process of every session that had been published when the
shutdown began has been reaped, and the session holds no slot. Further, the slot of every script was
looked at some time after the shutdown began, and at the end every session of the script is over

* but for those that were spawned after that look,
* and for one that was spawned before it by a start that had not published it yet.
-/
theorem shutdown_ends_published_sessions
    (hReach : Reaches part (quiet (.initial config workingDir hostname host)) w)
    (hReturned : w.stage = .returned) :
    ∃ b, w.began = some b ∧ (∀ n id, b.slot? n = some (.live id) → w.scene.IsOver id) ∧
      ∀ n, ∃ s, ScriptWarden.Reaches AnyStep b s ∧ ScriptWarden.Reaches AnyStep s w.scene ∧
        w.looks[(part n).val]? = some s ∧
        ∀ x ∈ w.scene.sessions, x.name = n → w.scene.IsOver x.id ∨
          s.deployment.service.nextSession ≤ x.id ∨ ∃ j, s.calls j = some ⟨n, .spawned x.id⟩ := by
  have hSound := hReach.sound
  have h₀ := initial_sound config workingDir hostname host
  have hNow := reaches_sound h₀ hSound.run
  obtain ⟨b, hBegan⟩ := hSound.called (by rw [hReturned]; nofun)
  have hBegun := reaches_sound h₀ (hSound.began hBegan).1
  have hLooks : ∀ n, ∃ s, w.looks[(part n).val]? = some s ∧ ScriptWarden.Reaches AnyStep b s := by
    intro n
    have hIn : (part n).val < w.looks.length :=
      (hSound.looked hReturned trivial).symm ▸ (part n).isLt
    obtain ⟨b', hBegan', hSince⟩ := (hSound.looks (List.getElem?_eq_getElem hIn)).began
    cases hBegan.symm.trans hBegan'
    exact ⟨_, List.getElem?_eq_getElem hIn, hSince⟩
  refine ⟨b, hBegan, fun n id hLive => ?_, fun n => ?_⟩
  · obtain ⟨s, hLook, hSince⟩ := hLooks n
    obtain ⟨l, hMem, hId, hName, -⟩ := hBegun.liveKnown hLive
    obtain ⟨past, hPast⟩ := (hSound.began hBegan).2.chronicle
    obtain ⟨y, hOwn, rfl⟩ := List.mem_map.mp hMem
    have hThen := session?_of_mem hBegun.ownIds hOwn
    obtain rfl : y.id = id := hId
    obtain ⟨x, hSession, hSame, -⟩ := (hPast.advances hBegun).stays hThen
    obtain rfl : x.name = n := hSame.trans hName
    obtain ⟨past', hPast'⟩ := hSince.chronicle
    have hBelow := Nat.lt_of_lt_of_le (hBegun.idsBelow _ hMem) (hPast'.advances hBegun).next
    rcases over_or_held (reaches_sound hBegun hSince) (hSound.looks hLook).since hSession hBelow with
      hOver | hThere | ⟨j, hCall⟩
    · exact hOver
    · exact hSound.over_of_live hReturned hLook rfl hThere
    · exact absurd hCall (not_spawned_of_live hBegun hSince hLive j _)
  · obtain ⟨s, hLook, hSince⟩ := hLooks n
    refine ⟨s, hSince, (hSound.looks hLook).since, hLook, fun x hOwn hName => ?_⟩
    rcases Nat.lt_or_ge x.id s.deployment.service.nextSession with hBefore | hNew
    · rcases over_or_held (reaches_sound hBegun hSince) (hSound.looks hLook).since
        (session?_of_mem hNow.ownIds hOwn) hBefore with hOver | hThere | hCall
      · exact Or.inl hOver
      · exact Or.inl (hSound.over_of_live hReturned hLook (congrArg (fun n => (part n).val) hName) hThere)
      · exact Or.inr (Or.inr (hName ▸ hCall))
    · exact Or.inr (Or.inl hNew)

end

/-- A service in which a script runs is shut down; when that returns, the script has ended. -/
theorem published_session_is_ended :
    ∃ w b, Reaches (fun _ => (0 : Fin 1)) (quiet Oversight.restingScene) w ∧ w.stage = .returned ∧
      w.began = some b ∧ b.slot? default = some (.live 1) ∧ w.scene.IsOver 1 := by
  have hStarted : Reaches (fun _ => (0 : Fin 1)) (quiet Oversight.restingScene) (quiet loggingScene) :=
    .others Oversight.loggingScene_here
  have hWaits := hStarted.trans (stopAll_alone loggingScene)
  have hAsked : loggingScene.deployment.stopAll.1 = [1] := by decide +kernel
  rw [hAsked, if_neg (List.cons_ne_nil _ _)] at hWaits
  -- the only session is that of the script
  have hStop : loggingScene.deployment.stopAll.2 =
      (Move.stop default).perform loggingScene.deployment := by
    have hSlots : loggingScene.deployment.service.slots.sessions = [1] := by decide +kernel
    have hLive : loggingScene.deployment.service.slots.live? default = some 1 := by decide +kernel
    obtain ⟨x, hSession⟩ : ∃ x, loggingScene.deployment.service.session? 1 = some x :=
      Option.isSome_iff_exists.mp (by decide +kernel)
    have hGet : loggingScene.deployment.service.get default = .ok x := by
      rw [Service.get, Service.live?, hLive, Option.bind_some, hSession]
    have hFound : Deployment.view (fun d => d.service.get default) loggingScene.deployment =
        (.ok x, loggingScene.deployment) := by
      rw [Deployment.view, hGet]
    show _ = (Deployment.stop default loggingScene.deployment).2
    rw [Deployment.stop, Work.bind_ok hFound, Deployment.stopAll, Service.liveSessions, hSlots,
      List.filterMap_cons_some hSession]
    rfl
  rw [hStop] at hWaits
  have hEnded := hWaits.trans (.others (endedScene_follows (fun _ _ _ _ => trivial) fun _ _ _ => trivial))
  have hReturned := hEnded.trans (return_of_haveEnded rfl (fun id hMem => ?_) (by decide +kernel))
  · have hLive : loggingScene.slot? default = some (.live 1) := by decide +kernel
    obtain ⟨b, hBegan, hOver, -⟩ := shutdown_ends_published_sessions hReturned rfl
    cases hBegan
    exact ⟨_, _, hReturned, rfl, rfl, hLive, hOver default 1 hLive⟩
  · obtain rfl := List.mem_singleton.mp hMem
    have hKnown : (endedScene.deployment.service.session? 1).isSome = true := by decide +kernel
    exact Option.isSome_iff_exists.mp hKnown

/-- A start that nothing comes between, until it is to publish its session. -/
theorem spawned_alone {s : Scene} {i : Nat} {n : ScriptName} {session : Session} {d₁ d₂ d₃ : Deployment}
    (hFree : s.calls i = none) (hReserve : Deployment.reserve n s.deployment = (.ok (), d₁))
    (hCheck : Deployment.check n d₁ = (.ok (), d₂)) (hSpawn : Deployment.spawn n d₂ = (.ok session, d₃)) :
    ScriptWarden.Reaches AnyStep s
      ((s.withDeployment d₃).withCall i (some ⟨n, .spawned session.id⟩)) := by
  have hReserved := ScriptWarden.Reaches.refl.next (.reserve hFree hReserve)
  have hCleared := hReserved.next (.check (Scene.withCall_self _ i _) hCheck)
  have hSpawned := hCleared.next (.spawn (Scene.withCall_self _ i _) hSpawn)
  simp only [Scene.withCall_withDeployment, Scene.withCall_withCall] at hSpawned
  exact hSpawned

/-- A service that has found a script valid. -/
def validatedScene : Scene :=
  Oversight.restingScene.withDeployment ((Move.remember
    [(default, { size := 0, modified := default, analysis := {} })]).perform
      Oversight.restingScene.deployment)

/-- A start has taken the slot of the script, and has checked it. -/
def checkedDeployment : Deployment :=
  (Deployment.check default (Deployment.reserve default validatedScene.deployment).2).2

/-- It has spawned the process, too. -/
def spawnedScene : Scene :=
  (validatedScene.withDeployment (Deployment.spawn default checkedDeployment).2).withCall 0
    (some ⟨default, .spawned 1⟩)

theorem spawnedScene_reached : ScriptWarden.Reaches AnyStep Oversight.restingScene spawnedScene := by
  have hValidated : ScriptWarden.Reaches AnyStep Oversight.restingScene validatedScene :=
    ScriptWarden.Reaches.refl.next (.move _)
  have hDone : (Deployment.spawn default checkedDeployment).1.isOk = true := by decide +kernel
  unfold spawnedScene
  rcases hSpawn : Deployment.spawn default checkedDeployment with ⟨f | session, d⟩
  · rw [hSpawn] at hDone
    cases hDone
  · have hId : session.id = 1 := by
      have hNext : checkedDeployment.service.nextSession = 1 := by decide +kernel
      exact (congrArg Life.id (spawn_ok hSpawn).1).trans hNext
    have hSpawned := spawned_alone (s := validatedScene) (i := 0) rfl
      (Prod.ext (by decide +kernel) rfl) (Prod.ext (by decide +kernel) rfl) hSpawn
    rw [hId] at hSpawned
    exact hValidated.trans hSpawned

/-- **A session whose start has not published it outlives a shutdown.** A start takes the slot of its
script, finds the script valid and spawns the process. Then the service is shut down, which finds no
session and returns at once, and the start publishes its session, which nobody has asked to end. -/
theorem unpublished_session_outlives_shutdown :
    ∃ w b x, Reaches (fun _ => (0 : Fin 1)) (quiet Oversight.restingScene) w ∧ w.stage = .returned ∧
      w.began = some b ∧ b.slot? default = some .starting ∧
      b.calls 0 = some ⟨default, .spawned x.id⟩ ∧ x ∈ w.scene.sessions ∧ x.stopping = false ∧
      x.supervision.HoldsChild ∧ w.scene.slot? default = some (.live x.id) := by
  have hNobody : spawnedScene.deployment.stopAll = ([], spawnedScene.deployment) := by
    have hSlots : spawnedScene.deployment.service.slots.sessions = [] := by decide +kernel
    rw [Deployment.stopAll, Service.liveSessions, hSlots]
    rfl
  have hSpawned : Reaches (fun _ => (0 : Fin 1)) (quiet Oversight.restingScene) (quiet spawnedScene) :=
    .others spawnedScene_reached
  have hReturned := hSpawned.trans (stopAll_alone spawnedScene)
  rw [hNobody] at hReturned
  obtain ⟨x, hSession, hRuns⟩ : ∃ x, spawnedScene.deployment.service.session? 1 = some x ∧
      (!x.stopping && decide x.supervision.HoldsChild) = true :=
    (Option.any_eq_true _ _).mp (by decide +kernel)
  obtain ⟨hUnasked, hChild⟩ : x.stopping = false ∧ x.supervision.HoldsChild := by simpa using hRuns
  have hCall : spawnedScene.calls 0 = some ⟨default, .spawned x.id⟩ := by
    rw [session?_id hSession]
    rfl
  have hStarting : spawnedScene.slot? default = some .starting := by decide +kernel
  have hPublished := hReturned.step (.others (.publish hCall (session?_self hSession)))
  refine ⟨_, _, x, hPublished, rfl, rfl, hStarting, hCall, (session?_mem hSession).1, hUnasked, hChild,
    ?_⟩
  have hName : x.name = default :=
    (reaches_sound (initial_sound loggingConfig "/" "host" loggingHost) spawnedScene_reached).session_name
      hCall (session?_self hSession)
  exact (Slots.slot?_publish _ _ _ _).trans (if_pos hName.symm)

end Shutdown

end ScriptWarden
