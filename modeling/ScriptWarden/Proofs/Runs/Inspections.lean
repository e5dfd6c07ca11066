import ScriptWarden.Proofs.Runs.Chronicles
import ScriptWarden.Proofs.Runs.EndedSessions
import ScriptWarden.Proofs.Runs.Outputs

/-!
# Inspections of the host

A service lists the processes that run scripts and that it did not start, and ends one of them when it
is asked to. Either of these begins with the numbers of the processes that are the service's own, and
goes on when it gets to look at the host: a list is made of the processes that there are then, and a
process is looked at, asked to end, waited for, looked at once more and killed. Each of these is one
step, and whatever else goes on in a scene may come between them.

The service's own processes are taken to be those whose sessions hold a slot. A process that is
spawned after the numbers were taken, or whose start had not published its session by then, is not
among them; such a process is listed and asked to end like a stranger (`young_process_listed`,
`young_process_ended`). Those are the only ones: every other process that the service has to reap is
left alone.

## Results

* `list_alone`, `beginTermination_alone`, `goOnTermination_alone` — the steps in a row are what the
  service does when nothing comes between.
* `Reaches.young` — which own processes are not among the numbers that were taken before.
* `own_processes_left_alone` — the law.
-/

namespace ScriptWarden

-- ---------------------------------------------------------------------------
-- What is under way
-- ---------------------------------------------------------------------------

/-- What an inspection is at. -/
inductive InspectionStage where
  /-- The processes are to be listed. -/
  | listing
  /-- A process is to be looked at, and to be ended if it is none of the service's own. -/
  | judging (pid : UInt32)
  /-- The process runs a script; it is to be asked to end. -/
  | asking (t : Termination)
  | waiting (t : Termination)
  /-- The process did not end in time; it is to be killed. -/
  | killing (t : Termination)

/-- The process that was found to be none of the service's own. -/
def InspectionStage.target? : InspectionStage → Option UInt32
  | .listing | .judging _ => none
  | .asking t | .waiting t | .killing t => some t.pid

/-- A list that is made, or a process that is being ended, with the numbers of the service's own
processes when it began. The scene in which it began is kept for statements only. -/
structure Inspection where
  owned : List UInt32
  began : Scene
  stage : InspectionStage

/-- A scene and the inspections under way in it, each under a number of its own. -/
structure Oversight where
  scene : Scene
  inspections : Nat → Option Inspection

namespace Oversight

variable {w w' : Oversight} {i : Nat} {q : Inspection}

def deployment (w : Oversight) : Deployment := w.scene.deployment

/-- A scene in which no inspection is under way. -/
def quiet (s : Scene) : Oversight where
  scene := s
  inspections := fun _ => none

def withScene (w : Oversight) (scene : Scene) : Oversight := { w with scene }

def withDeployment (w : Oversight) (d : Deployment) : Oversight :=
  w.withScene (w.scene.withDeployment d)

/-- An inspection comes to be at something else, or is no longer under way. -/
def withInspection (w : Oversight) (i : Nat) (q : Option Inspection) : Oversight :=
  { w with inspections := fun j => if j = i then q else w.inspections j }

/-- An inspection that begins now. -/
def beginning (w : Oversight) (stage : InspectionStage) : Inspection :=
  ⟨w.deployment.service.ownedPids, w.scene, stage⟩

/-- The processes that are listed when these numbers were taken for the service's own. -/
def listBeside (w : Oversight) (owned : List UInt32) : List ExternalProcess :=
  w.deployment.service.scanner.scan w.deployment.host.files w.deployment.host.self owned
    w.deployment.host.processTable

/-- What is made of a process that is to be ended, when these numbers were taken for the service's
own. -/
def judge (w : Oversight) (owned : List UInt32) (pid : UInt32) : Except Fault Termination :=
  Termination.begin pid w.deployment.host.self owned w.deployment.service.scanner.gracePeriod
    w.deployment.host.now (w.deployment.identify pid)

/-- How the ending of a process goes on. -/
def nextOf (w : Oversight) (t : Termination) : TerminationStep :=
  t.next w.deployment.host.now (w.deployment.host.isAlive t.pid) (w.deployment.identify t.pid)

/-- Give a process until the end of the grace period from now on. -/
def granted (w : Oversight) (t : Termination) : Termination :=
  { t with deadline := w.deployment.host.now.after w.deployment.service.scanner.gracePeriod }

-- ---------------------------------------------------------------------------
-- Steps
-- ---------------------------------------------------------------------------

/-- What takes a step. -/
inductive Act where
  | others (a : Action)
  | begin (i : Nat)
  | list (i : Nat) (found : List ExternalProcess)
  | look (i : Nat)
  | signal (i : Nat) (pid : UInt32) (number : Nat)

/-- An inspection lists a process or sends it a signal. -/
def Act.Touches (i : Nat) (pid : UInt32) : Act → Prop
  | .list j found => j = i ∧ ∃ p ∈ found, p.pid = pid
  | .signal j target _ => j = i ∧ target = pid
  | _ => False

/-- One step of an inspection, or of whoever else acts in the scene. -/
inductive Step (w : Oversight) : Act → Oversight → Prop
  | others {a : Action} {s : Scene} : ScriptWarden.Step w.scene a s → Step w (.others a) (w.withScene s)
  | beginList {i : Nat} : w.inspections i = none →
      Step w (.begin i) (w.withInspection i (some (w.beginning .listing)))
  | list {i : Nat} {owned : List UInt32} {began : Scene} :
      w.inspections i = some ⟨owned, began, .listing⟩ →
      Step w (.list i (w.listBeside owned)) (w.withInspection i none)
  | beginEnding {i : Nat} (pid : UInt32) : w.inspections i = none →
      Step w (.begin i) (w.withInspection i (some (w.beginning (.judging pid))))
  | refuse {i : Nat} {owned : List UInt32} {began : Scene} {pid : UInt32} {f : Fault} :
      w.inspections i = some ⟨owned, began, .judging pid⟩ → w.judge owned pid = .error f →
      Step w (.look i) (w.withInspection i none)
  | accept {i : Nat} {owned : List UInt32} {began : Scene} {pid : UInt32} {t : Termination} :
      w.inspections i = some ⟨owned, began, .judging pid⟩ → w.judge owned pid = .ok t →
      Step w (.look i) (w.withInspection i (some ⟨owned, began, .asking t⟩))
  | ask {i : Nat} {owned : List UInt32} {began : Scene} {t : Termination} {d : Deployment} :
      w.inspections i = some ⟨owned, began, .asking t⟩ →
      Deployment.sendSignal t.pid Signal.terminate w.deployment = (.ok (), d) →
      Step w (.signal i t.pid Signal.terminate)
        ((w.withDeployment d).withInspection i (some ⟨owned, began, .waiting (w.granted t)⟩))
  | askFails {i : Nat} {owned : List UInt32} {began : Scene} {t : Termination} {f : Fault}
      {d : Deployment} :
      w.inspections i = some ⟨owned, began, .asking t⟩ →
      Deployment.sendSignal t.pid Signal.terminate w.deployment = (.error f, d) →
      Step w (.signal i t.pid Signal.terminate) ((w.withDeployment d).withInspection i none)
  | wait {i : Nat} {owned : List UInt32} {began : Scene} {t : Termination} {moment : Moment} :
      w.inspections i = some ⟨owned, began, .waiting t⟩ → w.nextOf t = .wait moment →
      Step w (.look i) w
  | finish {i : Nat} {owned : List UInt32} {began : Scene} {t : Termination} :
      w.inspections i = some ⟨owned, began, .waiting t⟩ → w.nextOf t = .finished →
      Step w (.look i) (w.withInspection i none)
  | condemn {i : Nat} {owned : List UInt32} {began : Scene} {t : Termination} :
      w.inspections i = some ⟨owned, began, .waiting t⟩ → w.nextOf t = .kill →
      Step w (.look i) (w.withInspection i (some ⟨owned, began, .killing t⟩))
  | kill {i : Nat} {owned : List UInt32} {began : Scene} {t : Termination} :
      w.inspections i = some ⟨owned, began, .killing t⟩ →
      Step w (.signal i t.pid Signal.kill)
        ((w.withDeployment (Deployment.sendSignal t.pid Signal.kill w.deployment).2).withInspection i
          none)

/-- What runs lead to. -/
inductive Reaches (w₀ : Oversight) : Oversight → Prop
  | refl : Reaches w₀ w₀
  | step {w w' : Oversight} {a : Act} : Reaches w₀ w → Step w a w' → Reaches w₀ w'

theorem Reaches.trans {u v : Oversight} (hFirst : Reaches u v) (hRest : Reaches v w) : Reaches u w := by
  induction hRest with
  | refl => exact hFirst
  | step _ hStep ih => exact ih.step hStep

theorem withInspection_self (w : Oversight) (i : Nat) (q : Option Inspection) :
    (w.withInspection i q).inspections i = q := if_pos rfl

/-- An inspection under way after a change is the one that was changed, or was there before. -/
theorem withInspection_eq_some {j : Nat} {r : Option Inspection}
    (h : (w.withInspection j r).inspections i = some q) :
    (i = j ∧ r = some q) ∨ w.inspections i = some q := by
  have hAfter : (if i = j then r else w.inspections i) = some q := h
  split at hAfter
  · next hij => exact .inl ⟨hij, hAfter⟩
  · exact .inr hAfter

theorem withInspection_withInspection (w : Oversight) (i : Nat) (q q' : Option Inspection) :
    (w.withInspection i q).withInspection i q' = w.withInspection i q' := by
  unfold withInspection
  congr 1
  funext j
  by_cases hj : j = i <;> simp [hj]

theorem withInspection_withDeployment (w : Oversight) (i : Nat) (q : Option Inspection)
    (d : Deployment) :
    (w.withInspection i q).withDeployment d = (w.withDeployment d).withInspection i q := rfl

theorem withInspection_eq_self {q : Option Inspection} (h : w.inspections i = q) :
    w.withInspection i q = w := by
  obtain ⟨scene, inspections⟩ := w
  unfold withInspection
  congr 1
  funext j
  by_cases hj : j = i
  · simpa [hj] using h.symm
  · simp [hj]

-- ---------------------------------------------------------------------------
-- Inspections by themselves
-- ---------------------------------------------------------------------------

/-- A list that nothing comes between is what the service answers. -/
theorem list_alone (hFree : w.inspections i = none) :
    ∃ w', Step w (.begin i) w' ∧ Step w' (.list i w.deployment.externalProcesses) w := by
  have hBegun := Step.beginList hFree
  have hListed := Step.list (withInspection_self w i (some (w.beginning .listing)))
  rw [withInspection_withInspection, withInspection_eq_self hFree] at hListed
  exact ⟨_, hBegun, hListed⟩

/-- What is accepted is none of the processes that were taken for the service's own. -/
theorem begin_eq_ok {pid self : UInt32} {owned : List UInt32} {gracePeriod : Duration} {now : Moment}
    {seen : Identified} {t : Termination}
    (h : Termination.begin pid self owned gracePeriod now seen = .ok t) :
    pid ∉ owned ∧ t.pid = pid ∧ t.deadline = now.after gracePeriod := by
  unfold Termination.begin at h
  split at h
  · cases h
  · next hOther =>
    have hNotOwn : pid ∉ owned := by
      intro hMem
      exact hOther (by simp [hMem])
    split at h
    · cases h
    · cases h
    · cases h
      exact ⟨hNotOwn, rfl, rfl⟩

/-- The beginning of an ending that nothing comes between. -/
theorem beginTermination_alone (hFree : w.inspections i = none) (pid : UInt32) :
    match Deployment.beginTermination pid w.deployment with
    | (.ok t, d) =>
      Reaches w ((w.withDeployment d).withInspection i (some (w.beginning (.waiting t))))
    | (.error _, d) => Reaches w (w.withDeployment d) := by
  have hBegun : Reaches w _ := Reaches.refl.step (.beginEnding pid hFree)
  have hHere := withInspection_self w i (some (w.beginning (.judging pid)))
  have hLook : Deployment.view (fun _ => Termination.begin pid w.deployment.host.self
      w.deployment.service.ownedPids w.deployment.service.scanner.gracePeriod w.deployment.host.now
      (w.deployment.identify pid)) w.deployment =
        (w.judge w.deployment.service.ownedPids pid, w.deployment) := rfl
  unfold Deployment.beginTermination
  rw [Work.bind_ok (Work.get_apply _)]
  cases hAnswer : w.judge w.deployment.service.ownedPids pid with
  | error f =>
    rw [hAnswer] at hLook
    rw [Work.bind_error hLook]
    have hRefused := hBegun.step (.refuse hHere hAnswer)
    rw [withInspection_withInspection, withInspection_eq_self hFree] at hRefused
    exact hRefused
  | ok t =>
    rw [hAnswer] at hLook
    rw [Work.bind_ok hLook]
    have hAccepted := hBegun.step (.accept hHere hAnswer)
    have hHere' := withInspection_self (w.withInspection i (some (w.beginning (.judging pid)))) i
      (some (w.beginning (.asking t)))
    obtain ⟨-, rfl, hDeadline⟩ := begin_eq_ok hAnswer
    have hGranted : w.granted t = t := by
      rw [granted, ← hDeadline]
    rcases hSend : Deployment.sendSignal t.pid Signal.terminate w.deployment with ⟨f | ⟨⟩, d⟩
    · rw [Work.bind_error hSend]
      have hFailed := hAccepted.step (.askFails hHere' hSend)
      simp only [withInspection_withDeployment, withInspection_withInspection] at hFailed
      rw [withInspection_eq_self (w := w.withDeployment d) hFree] at hFailed
      exact hFailed
    · rw [Work.bind_ok hSend]
      have hAsked := hAccepted.step (.ask hHere' hSend)
      simp only [withInspection_withDeployment, withInspection_withInspection] at hAsked
      rw [← hGranted]
      exact hAsked

/-- A look after a process that was asked to end, which nothing comes between. -/
theorem goOnTermination_alone {owned : List UInt32} {began : Scene} {t : Termination}
    (hHere : w.inspections i = some ⟨owned, began, .waiting t⟩) :
    match Deployment.goOnTermination t w.deployment with
    | (some _, d) => Reaches w (w.withDeployment d)
    | (none, d) => Reaches w ((w.withDeployment d).withInspection i none) := by
  unfold Deployment.goOnTermination
  cases hNext : w.nextOf t with
  | wait moment =>
    rw [show t.next _ _ _ = _ from hNext]
    exact Reaches.refl.step (.wait hHere hNext)
  | finished =>
    rw [show t.next _ _ _ = _ from hNext]
    exact Reaches.refl.step (.finish hHere hNext)
  | kill =>
    rw [show t.next _ _ _ = _ from hNext]
    have hCondemned := Reaches.refl.step (.condemn hHere hNext)
    have hKilled := hCondemned.step (.kill (withInspection_self w i _))
    rw [withInspection_withDeployment, withInspection_withInspection] at hKilled
    exact hKilled

-- ---------------------------------------------------------------------------
-- What inspections leave alone
-- ---------------------------------------------------------------------------

/-- A signal changes nothing but the host. -/
theorem sendSignal_host (pid : UInt32) (number : Nat) (d : Deployment) :
    (Deployment.sendSignal pid number d).2 =
      { d with host := (Deployment.sendSignal pid number d).2.host } := by
  rw [Deployment.sendSignal]
  split <;> rfl

/-- To the scene, an inspection is the host becoming another. -/
theorem Step.scene_reaches {a : Act} (h : Step w a w') :
    ScriptWarden.Reaches AnyStep w.scene w'.scene := by
  have hSignal : ∀ (pid : UInt32) (number : Nat) {d : Deployment},
      (Deployment.sendSignal pid number w.deployment).2 = d →
      ScriptWarden.Reaches AnyStep w.scene (w.scene.withDeployment d) := by
    rintro pid number d rfl
    rw [sendSignal_host]
    exact ScriptWarden.Reaches.refl.next
      (.move (.world (Deployment.sendSignal pid number w.deployment).2.host))
  cases h with
  | others hStep => exact ScriptWarden.Reaches.refl.next hStep
  | ask _ hSend => exact hSignal _ _ (congrArg Prod.snd hSend)
  | askFails _ hSend => exact hSignal _ _ (congrArg Prod.snd hSend)
  | kill => exact hSignal _ _ rfl
  | _ => exact .refl

end Oversight

-- ---------------------------------------------------------------------------
-- Own processes
-- ---------------------------------------------------------------------------

variable {s t : Scene} {x : Session}

theorem session?_of_mem {d : Deployment} (hIds : d.OwnIds) (hMem : x ∈ d.service.sessions) :
    d.service.session? x.id = some x := by
  obtain ⟨y, hFound⟩ : ∃ y, d.service.session? x.id = some y :=
    Option.isSome_iff_exists.mp (List.find?_isSome.mpr ⟨x, hMem, by simp⟩)
  obtain ⟨hThere, hId⟩ := session?_mem hFound
  have hOwn : (d.service.sessions.map Session.id).Nodup := by
    rw [Deployment.OwnIds, Deployment.lives, List.map_map] at hIds
    exact hIds
  rw [hFound, List.inj_on_of_nodup_map hOwn hThere hMem hId]

/-- The process of a session that holds its slot is one of the service's own. -/
theorem pid_mem_ownedPids {n : ScriptName} {id : Nat} (hSlot : s.slot? n = some (.live id))
    (hSession : s.deployment.service.session? id = some x) :
    x.pid ∈ s.deployment.service.ownedPids := by
  have hLive : x ∈ s.deployment.service.liveSessions :=
    List.mem_filterMap.mpr ⟨id, Slots.mem_sessions_of_slot? hSlot, hSession⟩
  exact List.mem_map_of_mem hLive

/-- Along a run sessions stay what they were when they began. -/
theorem Reaches.develops {Allowed : Scene → Action → Scene → Prop} (h : s.Sound)
    (hReach : Reaches Allowed s t) : Develops (fun _ _ => True) s.deployment t.deployment := by
  induction hReach with
  | refl => exact .refl _
  | step hBefore hStep _ ih =>
    have hOne := step_develops (reaches_sound h hBefore) hStep
    exact ih.trans (hOne.mono fun _ _ _ => trivial)

/-- A process that is to be reaped and was not among the service's own before was spawned since, or
its start had not published its session then. -/
theorem Reaches.young {Allowed : Scene → Action → Scene → Prop} (h : s.Sound)
    (hReach : Reaches Allowed s t) (hOwn : x ∈ t.sessions) (hChild : x.supervision.HoldsChild)
    (hUnlisted : x.pid ∉ s.deployment.service.ownedPids) :
    s.deployment.service.nextSession ≤ x.id ∨ ∃ j, s.calls j = some ⟨x.name, .spawned x.id⟩ := by
  have hSession := session?_of_mem (reaches_sound h hReach).ownIds hOwn
  obtain ⟨past, hPast⟩ := hReach.chronicle
  have hAdvances := hPast.advances h
  rcases hAdvances.newer hSession with ⟨y, hBefore⟩ | hNew
  · obtain ⟨x', hLater, hGoesOn⟩ := (hReach.develops h).session? hBefore
    obtain rfl := Option.some.inj (hSession.symm.trans hLater)
    obtain ⟨x', hLater', -, hRank⟩ := hAdvances.stays hBefore
    obtain rfl := Option.some.inj (hSession.symm.trans hLater')
    have hPid : x.pid = y.pid := congrArg Origin.pid hGoesOn.origin
    have hName : x.name = y.name := congrArg Origin.name hGoesOn.origin
    have hId : x.id = y.id := congrArg Origin.id hGoesOn.origin
    -- its supervisor has not left now, so it had not left then
    have hStays : ¬ y.supervision.HasLeft := by
      have hNow := Supervision.not_hasLeft_of_holdsChild hChild
      rw [Supervision.hasLeft_iff] at hNow ⊢
      omega
    rcases h.lifeHeld y.life (life_mem hBefore) hStays with hLive | ⟨j, hCall⟩
    · rw [hPid] at hUnlisted
      exact absurd (pid_mem_ownedPids hLive (session?_self hBefore)) hUnlisted
    · rw [hName, hId]
      exact .inr ⟨j, hCall⟩
  · exact .inl hNew

namespace Oversight

variable {w w' : Oversight} {a : Act} {i : Nat} {q : Inspection} {pid : UInt32}

-- ---------------------------------------------------------------------------
-- What inspections know
-- ---------------------------------------------------------------------------

/-- The processes that are listed are those that are seen running a script and are neither the
service nor among the numbers given. -/
theorem mem_scan {scanner : Scanner} {files : Files} {self : UInt32} {owned : List UInt32}
    {table : List ProcessInfo} {p : ExternalProcess} :
    p ∈ scanner.scan files self owned table ↔
      ∃ info ∈ table, info.pid ≠ self ∧ info.pid ∉ owned ∧
        ∃ name, scanner.managedScript? files info = some name ∧
          p = { pid := info.pid, name, cmdline := Scanner.commandLine info.command } := by
  rw [Scanner.scan, List.mem_mergeSort, List.mem_filterMap]
  refine exists_congr fun info => and_congr_right fun _ => ?_
  unfold Scanner.external?
  by_cases hOwn : info.pid = self ∨ info.pid ∈ owned
  · have hSkipped : (info.pid == self || owned.contains info.pid) = true := by simpa using hOwn
    rw [if_pos hSkipped]
    constructor
    · intro hNone
      cases hNone
    · rintro ⟨hSelf, hOther, -⟩
      exact absurd hOwn (by simp [hSelf, hOther])
  · have hStrange : ¬ (info.pid == self || owned.contains info.pid) = true := by simpa using hOwn
    rw [if_neg hStrange, Option.map_eq_some_iff]
    obtain ⟨hSelf, hOther⟩ := not_or.mp hOwn
    constructor
    · rintro ⟨name, hScript, hTold⟩
      exact ⟨hSelf, hOther, name, hScript, hTold.symm⟩
    · rintro ⟨-, -, name, hScript, hTold⟩
      exact ⟨name, hScript, hTold.symm⟩

/-- An inspection knows the service's own processes as they were when it began, and has none of them
in its sights. -/
structure Informed (q : Inspection) (s : Scene) : Prop where
  sound : q.began.Sound
  owned : q.owned = q.began.deployment.service.ownedPids
  since : ScriptWarden.Reaches AnyStep q.began s
  target : ∀ pid, q.stage.target? = some pid → pid ∉ q.owned

/-- An inspection that is under way after a step begins with it or was under way before, and has a
process in its sights that it had there before or that is not among its numbers. -/
theorem Step.comes_from (h : Step w a w') (hLater : w'.inspections i = some q) :
    (q.stage.target? = none ∧ q = w.beginning q.stage) ∨
      ∃ q₀, w.inspections i = some q₀ ∧ q.owned = q₀.owned ∧ q.began = q₀.began ∧
        ∀ pid, q.stage.target? = some pid → q₀.stage.target? = some pid ∨ pid ∉ q.owned := by
  have hSame : ∀ {q}, w.inspections i = some q → ∃ q₀, w.inspections i = some q₀ ∧
      q.owned = q₀.owned ∧ q.began = q₀.began ∧
        ∀ pid, q.stage.target? = some pid → q₀.stage.target? = some pid ∨ pid ∉ q.owned :=
    fun hBefore => ⟨_, hBefore, rfl, rfl, fun _ hTarget => .inl hTarget⟩
  cases h with
  | others => exact .inr (hSame hLater)
  | wait => exact .inr (hSame hLater)
  | beginList =>
    rcases withInspection_eq_some hLater with ⟨-, hNew⟩ | hBefore
    · cases hNew
      exact .inl ⟨rfl, rfl⟩
    · exact .inr (hSame hBefore)
  | beginEnding =>
    rcases withInspection_eq_some hLater with ⟨-, hNew⟩ | hBefore
    · cases hNew
      exact .inl ⟨rfl, rfl⟩
    · exact .inr (hSame hBefore)
  | accept hHere hJudge =>
    rcases withInspection_eq_some hLater with ⟨rfl, hNew⟩ | hBefore
    · cases hNew
      refine .inr ⟨_, hHere, rfl, rfl, fun pid hTarget => .inr ?_⟩
      obtain ⟨hOther, hPid, -⟩ := begin_eq_ok hJudge
      cases hTarget
      exact hPid ▸ hOther
    · exact .inr (hSame hBefore)
  | ask hHere =>
    rcases withInspection_eq_some hLater with ⟨rfl, hNew⟩ | hBefore
    · cases hNew
      exact .inr ⟨_, hHere, rfl, rfl, fun _ hTarget => .inl hTarget⟩
    · exact .inr (hSame hBefore)
  | condemn hHere =>
    rcases withInspection_eq_some hLater with ⟨rfl, hNew⟩ | hBefore
    · cases hNew
      exact .inr ⟨_, hHere, rfl, rfl, fun _ hTarget => .inl hTarget⟩
    · exact .inr (hSame hBefore)
  | _ =>
    rcases withInspection_eq_some hLater with ⟨-, hNew⟩ | hBefore
    · cases hNew
    · exact .inr (hSame hBefore)

/-- The scene is sound, and every inspection is informed. -/
structure Sound (w : Oversight) : Prop where
  scene : w.scene.Sound
  informed : ∀ {i : Nat} {q : Inspection}, w.inspections i = some q → Informed q w.scene

theorem step_sound (h : w.Sound) (hStep : Step w a w') : w'.Sound := by
  have hGoesOn := hStep.scene_reaches
  refine ⟨reaches_sound h.scene hGoesOn, fun {i q} hLater => ?_⟩
  rcases hStep.comes_from hLater with ⟨hNoTarget, hNew⟩ | ⟨q₀, hBefore, hOwned, hBegan, hTarget⟩
  · rw [hNew]
    refine ⟨h.scene, rfl, hGoesOn, fun pid hTarget => ?_⟩
    cases hNoTarget.symm.trans hTarget
  · have hKnown := h.informed hBefore
    refine ⟨hBegan ▸ hKnown.sound, ?_, hBegan ▸ hKnown.since.trans hGoesOn, fun pid hSeen => ?_⟩
    · rw [hOwned, hBegan, hKnown.owned]
    · rcases hTarget pid hSeen with hThen | hOther
      · rw [hOwned]
        exact hKnown.target pid hThen
      · exact hOther

theorem reaches_sound {w₀ : Oversight} (h : w₀.Sound) (hReach : Reaches w₀ w) : w.Sound := by
  induction hReach with
  | refl => exact h
  | step _ hStep ih => exact step_sound ih hStep

theorem quiet_sound {s : Scene} (h : s.Sound) : (quiet s).Sound := ⟨h, nofun⟩

/-- What an inspection lists or sends a signal is not among its numbers. -/
theorem Sound.touched (h : w.Sound) (hStep : Step w a w') (hTouches : a.Touches i pid) :
    ∃ q, w.inspections i = some q ∧ pid ∉ q.owned := by
  cases hStep with
  | list hHere =>
    obtain ⟨rfl, p, hListed, rfl⟩ := hTouches
    obtain ⟨info, -, -, hOther, name, -, rfl⟩ := mem_scan.mp hListed
    exact ⟨_, hHere, hOther⟩
  | ask hHere =>
    obtain ⟨rfl, rfl⟩ := hTouches
    exact ⟨_, hHere, (h.informed hHere).target _ rfl⟩
  | askFails hHere =>
    obtain ⟨rfl, rfl⟩ := hTouches
    exact ⟨_, hHere, (h.informed hHere).target _ rfl⟩
  | kill hHere =>
    obtain ⟨rfl, rfl⟩ := hTouches
    exact ⟨_, hHere, (h.informed hHere).target _ rfl⟩
  | _ => exact hTouches.elim

-- ---------------------------------------------------------------------------
-- The law
-- ---------------------------------------------------------------------------

/--
**A service leaves its own processes alone, but for the youngest.** Let inspections come between
starts, supervisors and whatever else goes on in a service in any way, and let one of them be under
way while a process of the service is still to be reaped. Then its next step neither lists the process
nor sends it a signal,

* if the session of the process held its slot when the inspection began, and
* if no start had spawned a process without having published it when the inspection began, and none
  has spawned one since.

If it does touch the process, that was spawned since, or its start had not published it by then.
-/
theorem own_processes_left_alone {config : Config} {workingDir hostname : String} {host : Host}
    (hReach : Reaches (quiet (.initial config workingDir hostname host)) w)
    (hInspection : w.inspections i = some q) {x : Session} (hOwn : x ∈ w.scene.sessions)
    (hChild : x.supervision.HoldsChild) (hStep : Step w a w') :
    (q.began.slot? x.name = some (.live x.id) → ¬ a.Touches i x.pid) ∧
    ((∀ j n id, q.began.calls j ≠ some ⟨n, .spawned id⟩) →
      w.deployment.service.nextSession = q.began.deployment.service.nextSession →
        ¬ a.Touches i x.pid) ∧
    (a.Touches i x.pid → q.began.deployment.service.nextSession ≤ x.id ∨
      ∃ j, q.began.calls j = some ⟨x.name, .spawned x.id⟩) := by
  have hSound := reaches_sound (quiet_sound (initial_sound config workingDir hostname host)) hReach
  have hKnown := hSound.informed hInspection
  have hYoung : a.Touches i x.pid → q.began.deployment.service.nextSession ≤ x.id ∨
      ∃ j, q.began.calls j = some ⟨x.name, .spawned x.id⟩ := by
    intro hTouches
    obtain ⟨q', hSame, hOther⟩ := hSound.touched hStep hTouches
    obtain rfl := Option.some.inj (hInspection.symm.trans hSame)
    rw [hKnown.owned] at hOther
    exact hKnown.since.young hKnown.sound hOwn hChild hOther
  refine ⟨fun hLive hTouches => ?_, fun hNone hNext hTouches => ?_, hYoung⟩
  · rcases hYoung hTouches with hNew | ⟨j, hCall⟩
    · obtain ⟨l, hMem, hId, -, -⟩ := hKnown.sound.liveKnown hLive
      have hBelow := hKnown.sound.idsBelow l hMem
      omega
    · cases hLive.symm.trans (hKnown.sound.callHolds hCall trivial)
  · rcases hYoung hTouches with hNew | ⟨j, hCall⟩
    · have hBelow := hSound.scene.idsBelow x.life (List.mem_map_of_mem hOwn)
      have hId : x.life.id = x.id := rfl
      have hNext' : w.scene.deployment.service.nextSession =
          q.began.deployment.service.nextSession := hNext
      omega
    · exact hNone j _ _ hCall

/-- What others do is a run. -/
theorem Reaches.others {s : Scene} (h : ScriptWarden.Reaches AnyStep w.scene s) :
    Reaches w (w.withScene s) := by
  induction h with
  | refl => exact .refl
  | step _ hStep _ ih => exact ih.step (.others hStep)

/-- A service that has a script and an interpreter, and has started nothing. -/
def restingScene : Scene := .initial loggingConfig "/" "host" loggingHost

theorem loggingScene_here : ScriptWarden.Reaches AnyStep restingScene loggingScene :=
  loggingScene_reached (fun _ _ _ => trivial) fun _ _ _ _ => trivial

/-- An inspection has begun in a scene. -/
def inspected (s : Scene) (stage : InspectionStage) : Oversight :=
  (quiet s).withInspection 0 (some ((quiet s).beginning stage))

/-- A list that begins when a script runs leaves its process out. -/
theorem started_process_unlisted :
    ∃ w w' found x, Reaches (quiet restingScene) w ∧ Step w (.list 0 found) w' ∧
      x ∈ w.scene.sessions ∧ x.supervision.HoldsChild ∧ ∀ p ∈ found, p.pid ≠ x.pid := by
  have hStarted : Reaches (quiet restingScene) (quiet loggingScene) := .others loggingScene_here
  have hReach : Reaches (quiet restingScene) (inspected loggingScene .listing) :=
    hStarted.step (.beginList rfl)
  have hStep := Step.list (w := inspected loggingScene .listing) (i := 0) rfl
  obtain ⟨x, hOwn, hChild, hLive⟩ : ∃ x ∈ (inspected loggingScene .listing).scene.sessions,
      x.supervision.HoldsChild ∧ loggingScene.slot? x.name = some (.live x.id) := by
    decide +kernel
  refine ⟨_, _, _, x, hReach, hStep, hOwn, hChild, fun p hListed hPid => ?_⟩
  exact (own_processes_left_alone hReach rfl hOwn hChild hStep).1 hLive ⟨rfl, p, hListed, hPid⟩

/-- An inspection that had begun before a script was started. -/
def overtaken (stage : InspectionStage) : Oversight :=
  (inspected restingScene stage).withScene loggingScene

theorem overtaken_reached {stage : InspectionStage}
    (hBegin : Step (quiet restingScene) (.begin 0) (inspected restingScene stage)) :
    Reaches (quiet restingScene) (overtaken stage) :=
  (Reaches.refl.step hBegin).trans (.others loggingScene_here)

/-- A list that began before a script was started tells of its process, which is the service's own
and whose session holds its slot. -/
theorem young_process_listed :
    ∃ w w' found x, Reaches (quiet restingScene) w ∧ Step w (.list 0 found) w' ∧
      x ∈ w.scene.sessions ∧ x.supervision.HoldsChild ∧
      w.scene.slot? x.name = some (.live x.id) ∧ ∃ p ∈ found, p.pid = x.pid := by
  have hStep := Step.list (w := overtaken .listing) (i := 0) rfl
  obtain ⟨x, hOwn, hChild, hLive, hListed⟩ : ∃ x ∈ (overtaken .listing).scene.sessions,
      x.supervision.HoldsChild ∧ loggingScene.slot? x.name = some (.live x.id) ∧
        ∃ p ∈ (overtaken .listing).listBeside restingScene.deployment.service.ownedPids,
          p.pid = x.pid := by
    decide +kernel
  exact ⟨_, _, _, x, overtaken_reached (.beginList rfl), hStep, hOwn, hChild, hLive, hListed⟩

/-- An ending that began before a script was started, with the number that the script's process then
gets, asks that process to end, though it is the service's own. -/
theorem young_process_ended :
    ∃ w w' x, Reaches (quiet restingScene) w ∧ Step w (.signal 0 x.pid Signal.terminate) w' ∧
      x ∈ w.scene.sessions ∧ x.supervision.HoldsChild ∧
      w.scene.slot? x.name = some (.live x.id) := by
  obtain ⟨x, hOwn, hChild, hLive, hPid⟩ : ∃ x ∈ loggingScene.sessions,
      x.supervision.HoldsChild ∧ loggingScene.slot? x.name = some (.live x.id) ∧ x.pid = 3 := by
    decide +kernel
  have hFound : ((overtaken (.judging 3)).judge restingScene.deployment.service.ownedPids 3).isOk := by
    decide +kernel
  rcases hJudge : (overtaken (.judging 3)).judge restingScene.deployment.service.ownedPids 3 with f | t
  · rw [hJudge] at hFound
    cases hFound
  · obtain ⟨-, hTarget, -⟩ := begin_eq_ok hJudge
    have hReach := (overtaken_reached (.beginEnding 3 rfl)).step (.accept (i := 0) rfl hJudge)
    have hHere := withInspection_self (overtaken (.judging 3)) 0
      (some ⟨restingScene.deployment.service.ownedPids, restingScene, .asking t⟩)
    have hSame : t.pid = x.pid := hTarget.trans hPid.symm
    rcases hSend : Deployment.sendSignal t.pid Signal.terminate loggingScene.deployment with ⟨f | ⟨⟩, d⟩
    · have hAsked := Step.askFails hHere hSend
      rw [hSame] at hAsked
      exact ⟨_, _, x, hReach, hAsked, hOwn, hChild, hLive⟩
    · have hAsked := Step.ask hHere hSend
      rw [hSame] at hAsked
      exact ⟨_, _, x, hReach, hAsked, hOwn, hChild, hLive⟩

end Oversight

end ScriptWarden
