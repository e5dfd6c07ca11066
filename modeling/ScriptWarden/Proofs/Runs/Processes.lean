import ScriptWarden.Proofs.Runs.FileAccess
import ScriptWarden.Proofs.Runs.Recordings

/-!
# Who changes processes

A start that spawns adds a process. Supervisors send signals and take statuses, and the host may
change any process. Nobody else changes processes at all. So a child that has ended keeps its status
until its supervisor takes it, as long as the host and the supervisors of other sessions leave it
alone.

## Results

* `step_processes` — what most steps do to processes.
* `Happens.keepsEnded`, `Recording.runs_before` — a child that runs has run since it was spawned.
* `Host.Owns.terminate`, `Host.Owns.kill` — what the signals of a supervisor do to a child.
-/

namespace ScriptWarden

-- ---------------------------------------------------------------------------
-- What leaves processes alone
-- ---------------------------------------------------------------------------

variable {d d' : Deployment} {id : Nat}

theorem move_processes {m : Move} (hm : ∀ host, m ≠ .world host) (d : Deployment) :
    (m.perform d).host.processes = d.host.processes := by
  cases m with
  | readOutput id stream =>
    obtain ⟨pipes, held, hHost⟩ := move_pipes (.inl ⟨id, stream, rfl⟩) d
    rw [hHost]
  | writeInput id =>
    obtain ⟨pipes, held, hHost⟩ := move_pipes (.inr ⟨id, rfl⟩) d
    rw [hHost]
  | autoboot n enabled => rfl
  | world host => exact absurd rfl (hm host)
  | _ => exact congrArg Host.processes (move_host id d)

/-- Work that changes no process. -/
abbrev KeepsProcesses {α : Type} (work : DeploymentWork α) : Prop :=
  Work.Keeps (fun d d' => d'.host.processes = d.host.processes) work

theorem KeepsProcesses.bind {α β : Type} {work : DeploymentWork α} {rest : α → DeploymentWork β}
    (hFirst : KeepsProcesses work) (hRest : ∀ a, KeepsProcesses (rest a)) :
    KeepsProcesses (work >>= rest) :=
  Work.Keeps.bind (fun _ _ _ h h' => h'.trans h) hFirst hRest

/-- Uploads and deletions work on the store. -/
theorem upload_keepsProcesses (fileName : String) (bytes : List UInt8) :
    KeepsProcesses (Deployment.saveUpload fileName bytes) :=
  .bind (fun _ => rfl) fun _ => .bind (fun _ => rfl) fun _ _ => rfl

theorem delete_keepsProcesses (n : ScriptName) : KeepsProcesses (Deployment.deleteScript n) :=
  .bind (fun _ => rfl) fun _ _ => rfl

theorem spawn_processes {n : ScriptName} {x : Session}
    (h : Deployment.spawn n d = (.ok x, d')) :
    ∃ p, d'.host.processes = d.host.processes ++ [p] := by
  obtain ⟨piped, started, hSpawned⟩ := spawned_of_spawn h
  obtain ⟨_, _, hSpawn⟩ := hSpawned.spawns
  obtain ⟨-, p, hAdded, -⟩ := Host.spawn_process hSpawn
  exact ⟨p, hSpawned.processes.trans (hSpawned.pipedProcesses ▸ hAdded)⟩

variable {s s' : Scene} {a : Action}

/-- All but supervisors and the host leave the processes there are alone. -/
theorem step_processes (hStep : Step s a s') (hSupervise : ∀ i, a ≠ .supervise i)
    (hWorld : ∀ host, a ≠ .move (.world host)) :
    ∃ new, s'.deployment.host.processes = s.deployment.host.processes ++ new := by
  have hSame : s'.deployment.host.processes = s.deployment.host.processes →
      ∃ new, s'.deployment.host.processes = s.deployment.host.processes ++ new :=
    fun h => ⟨[], h.trans (List.append_nil _).symm⟩
  cases hStep with
  | reserve _ hReserve =>
    obtain ⟨slots, -, rfl⟩ := reserve_ok hReserve
    exact hSame rfl
  | refuse _ hReserve =>
    rw [reserve_error hReserve] at hSame ⊢
    exact hSame rfl
  | check _ hCheck => exact hSame (congrArg Host.processes (check_keeps hCheck).1)
  | reject _ hCheck => exact hSame (congrArg Host.processes (check_keeps hCheck).1)
  | spawn _ hSpawn =>
    obtain ⟨p, hAdded⟩ := spawn_processes hSpawn
    exact ⟨[p], hAdded⟩
  | spawnFails _ hSpawn =>
    rw [spawn_error hSpawn] at hSame ⊢
    exact hSame rfl
  | publish => exact hSame rfl
  | vacate => exact hSame rfl
  | handOver => exact hSame rfl
  | supervise => exact absurd rfl (hSupervise _)
  | upload fileName bytes => exact hSame (upload_keepsProcesses fileName bytes _)
  | delete n => exact hSame (delete_keepsProcesses n _)
  | move m => exact hSame (move_processes (fun host hm => hWorld host (congrArg _ hm)) _)

-- ---------------------------------------------------------------------------
-- Children that have ended
-- ---------------------------------------------------------------------------

/-- A child of a session that had ended before a step and is still to be reaped has ended. -/
def KeepsEnded (id : Nat) (s s' : Scene) : Prop :=
  ∀ x ∈ s'.deployment.service.session? id, x.supervision.HoldsChild →
    (s.deployment.host.statusOf? x.pid).isSome = true →
    (s'.deployment.host.statusOf? x.pid).isSome = true

/-- The host and the supervisors of other sessions leave a child of a session that has ended alone
until it is reaped. -/
def EndsStay (Allowed : Scene → Action → Scene → Prop) (id : Nat) : Prop :=
  ∀ s a s', Step s a s' → Allowed s a s' →
    (∃ host, a = .move (.world host)) ∨ (∃ i, i ≠ id ∧ a = .supervise i) → KeepsEnded id s s'

variable {Allowed : Scene → Action → Scene → Prop} {told : Option Happening} {x : Session}
  {past : List Occurrence} {config : Config} {workingDir hostname : String} {host : Host}

theorem Host.statusOf?_of_append {h h' : Host} {new : List Process} {pid : UInt32}
    (hAdded : h'.processes = h.processes ++ new) (hEnded : (h.statusOf? pid).isSome = true) :
    (h'.statusOf? pid).isSome = true := by
  obtain ⟨status, hStatus⟩ := Option.isSome_iff_exists.mp hEnded
  obtain ⟨p, hFound, hOwn⟩ := Option.bind_eq_some_iff.mp hStatus
  rw [Host.statusOf?, Host.process?, hAdded, List.find?_append, show h.processes.find? _ = some p
    from hFound, Option.some_or, Option.bind_some, hOwn]
  rfl

/-- A signal does nothing to a process that has ended. -/
theorem Host.signal_ended {h : Host} {pid : UInt32} (hEnded : (h.statusOf? pid).isSome = true)
    (number : Nat) : h.signal pid number = .ok h := by
  obtain ⟨status, hStatus⟩ := Option.isSome_iff_exists.mp hEnded
  obtain ⟨p, hFound, hOwn⟩ := Option.bind_eq_some_iff.mp hStatus
  rw [Host.signal, hFound]
  simp [hOwn]

theorem Happens.keepsEnded (hStay : EndsStay Allowed id)
    (h : Happens s a told s') (hAllowed : Allowed s a s') : KeepsEnded id s s' := by
  by_cases hWorld : ∃ host, a = .move (.world host)
  · exact hStay s a s' h.step hAllowed (.inl hWorld)
  by_cases hOther : ∃ i, i ≠ id ∧ a = .supervise i
  · exact hStay s a s' h.step hAllowed (.inr hOther)
  intro x hSession hChild hEnded
  by_cases hOwn : a = .supervise id
  · subst hOwn
    cases h with
    | @supervise _ stopFirst y act _ hAct =>
      have hAfter := (act_session? hAct id).symm.trans hSession
      rw [if_pos rfl] at hAfter
      obtain ⟨z, supervision, -, rfl, hStep⟩ := act?_outlook hAct
      have hPid : x.pid = z.pid := by
        rw [← Option.some.inj hAfter]
        cases act <;> rfl
      have hStill : supervision.HoldsChild := by
        rw [← Option.some.inj hAfter, Session.does_supervision] at hChild
        exact hChild
      rw [hPid] at hEnded ⊢
      have hSteps := Supervision.steps_of_step? hStep
      generalize z.supervision = before at hSteps
      cases hSteps with
      | ask =>
        -- the process had ended, so the signal does nothing
        show (Host.statusOf? (Except.toOption _ |>.getD _) _).isSome = true
        rw [show (s.deployment.setSession _).host = s.deployment.host from rfl,
          Host.signal_ended hEnded]
        exact hEnded
      | kill hRuns =>
        rw [show s.deployment.host.statusOf? z.pid = none from hRuns] at hEnded
        cases hEnded
      | _ => exact hStill.elim
    | other _ hOthers => exact hOthers.elim
  · obtain ⟨new, hAdded⟩ := step_processes h.step
      (fun i hi => (Decidable.em (i = id)).elim (fun hSame => hOwn (hSame ▸ hi))
        fun hDiffers => hOther ⟨i, hDiffers, hi⟩)
      fun host hm => hWorld ⟨host, hm⟩
    exact Host.statusOf?_of_append hAdded hEnded

/-- A session that was known stays known. -/
theorem Recording.known {s₀ : Scene} (hSound : s₀.Sound) (h : Recording Allowed s₀ past s)
    {e : Occurrence} (hMem : e ∈ past) {x : Session}
    (hSession : e.before.deployment.service.session? id = some x) :
    ∃ y, s.deployment.service.session? id = some y := by
  induction h with
  | begin => cases hMem
  | next hPast hHappens _ ih =>
    have hAdvances := hHappens.advances (hPast.sound hSound)
    rcases List.mem_cons.mp hMem with rfl | hEarlier
    · obtain ⟨y, hAfter, -⟩ := hAdvances.stays hSession
      exact ⟨y, hAfter⟩
    · obtain ⟨z, hThere⟩ := ih hEarlier
      obtain ⟨y, hAfter, -⟩ := hAdvances.stays hThere
      exact ⟨y, hAfter⟩

/-- A child that runs and is still to be reaped has run at every time since it was spawned. -/
theorem Recording.runs_before (hStay : EndsStay Allowed id)
    (h : Recording Allowed (.initial config workingDir hostname host) past s)
    (hSession : s.deployment.service.session? id = some x) (hChild : x.supervision.HoldsChild)
    (hRuns : s.deployment.host.statusOf? x.pid = none) :
    ∀ e ∈ past, ∀ y, e.before.deployment.service.session? id = some y →
      e.before.deployment.host.statusOf? y.pid = none := by
  have h₀ := initial_sound config workingDir hostname host
  induction h generalizing x with
  | begin =>
    intro e hMem
    cases hMem
  | @next past s s' a told hPast hHappens hAllowed ih =>
    intro e hMem y hThen
    obtain ⟨z, hBefore⟩ : ∃ z, s.deployment.service.session? id = some z := by
      rcases List.mem_cons.mp hMem with rfl | hEarlier
      · exact ⟨y, hThen⟩
      · exact hPast.known h₀ hEarlier hThen
    -- the session is the same child's before the step
    obtain ⟨hPid, hStill⟩ : x.pid = z.pid ∧ z.supervision.HoldsChild := by
      have hAttends := hHappens.attends (hPast.sound h₀) id
      rw [hBefore, hSession] at hAttends
      cases hAttends with
      | @acts _ supervision act stopFirst hDoing hStep =>
        rw [Session.does_supervision] at hChild
        refine ⟨?_, (Supervision.step?_cases hStep).2.1 hChild⟩
        cases act <;> rfl
      | rests _ hSupervision hOrigin _ =>
        rw [hSupervision] at hChild
        exact ⟨congrArg Origin.pid hOrigin, hChild⟩
    have hRan : s.deployment.host.statusOf? z.pid = none := by
      rw [← hPid, ← Option.not_isSome_iff_eq_none]
      intro hEnded
      have hNow := hHappens.keepsEnded hStay hAllowed x hSession hChild hEnded
      rw [hRuns] at hNow
      cases hNow
    rcases List.mem_cons.mp hMem with rfl | hEarlier
    · obtain rfl := Option.some.inj (hThen.symm.trans hBefore)
      exact hRan
    · exact ih hBefore hStill hRan e hEarlier y hThen

-- ---------------------------------------------------------------------------
-- Signals to children
-- ---------------------------------------------------------------------------

namespace Host

variable {h : Host} {p q : Process} {pid : UInt32}

/-- A process that keeps its number when it ends, until its parent takes its status. -/
def Owns (h : Host) (pid : UInt32) : Prop :=
  ∃ p, h.process? pid = some p ∧ pid ≠ firstPid ∧ p.parent ≠ firstPid ∧ p.parent ≠ pid

theorem process?_pid (hFound : h.process? pid = some p) : p.pid = pid := by
  simpa using List.find?_some hFound

theorem process?_setProcess (hFound : h.process? p.pid = some q) :
    (h.setProcess p).process? p.pid = some p := by
  rw [process?, setProcess, List.find?_map]
  have hSame : ((fun r : Process => r.pid == p.pid) ∘ fun r => if r.pid == p.pid then p else r) =
      fun r => r.pid == p.pid := by
    funext r
    by_cases hPid : r.pid = p.pid <;> simp [hPid]
  rw [hSame, show h.processes.find? (fun r => r.pid == p.pid) = some q from hFound, Option.map_some,
    if_pos (by simpa using process?_pid hFound)]

/-- What is found stays so when others are left out. -/
theorem find?_filter_of_find? {α : Type} {l : List α} {f g : α → Bool} {x : α}
    (hFound : l.find? g = some x) (hKept : f x = true) : (l.filter f).find? g = some x := by
  induction l with
  | nil => cases hFound
  | cons y rest ih =>
    rw [List.find?_cons] at hFound
    cases hHere : g y with
    | true =>
      rw [hHere] at hFound
      obtain rfl := Option.some.inj hFound
      rw [List.filter_cons_of_pos hKept, List.find?_cons_of_pos hHere]
    | false =>
      rw [hHere] at hFound
      rw [List.filter_cons]
      split
      · rw [List.find?_cons_of_neg (by simp [hHere])]
        exact ih hFound
      · exact ih hFound

/-- A process that ends is there with its status, unless its parent is the first process. -/
theorem process?_finish (hFound : h.process? p.pid = some q) (hParent : p.parent ≠ firstPid)
    (hSelf : p.parent ≠ p.pid) (status : UInt32) :
    ∃ r, (h.finish p status).process? p.pid = some r ∧ r.parent = p.parent ∧
      r.status = some status := by
  let ended : Process := { p with
    status := some status, descriptors := [], program := .exit 0, command := [], wakeAt := none }
  have hSet : (h.setProcess ended).process? p.pid = some ended :=
    process?_setProcess (p := ended) hFound
  refine ⟨ended, ?_, rfl, rfl⟩
  rw [process?, finish]
  refine find?_filter_of_find? ?_ (by simp [ended, hParent])
  rw [List.find?_map]
  have hSame : ((fun r : Process => r.pid == p.pid) ∘ fun r : Process =>
      if r.parent == p.pid then { r with parent := firstPid } else r) = fun r => r.pid == p.pid := by
    funext r
    by_cases hChild : r.parent = p.pid <;> simp [hChild]
  rw [hSame, show (h.setProcess ended).processes.find? (fun r => r.pid == p.pid) = some ended
    from hSet, Option.map_some, if_neg (by simpa [ended] using hSelf)]

/-- A child that is asked to end keeps its number, whatever it makes of that. -/
theorem Owns.terminate (hOwns : h.Owns pid) :
    ((h.signal pid Supervision.sigterm).toOption.getD h).Owns pid := by
  obtain ⟨p, hFound, hFirst, hParent, hSelf⟩ := hOwns
  obtain rfl := process?_pid hFound
  have hThere : h.Owns p.pid := ⟨p, hFound, hFirst, hParent, hSelf⟩
  have hSet : ∀ r : Process, r.pid = p.pid → r.parent = p.parent → (h.setProcess r).Owns p.pid := by
    intro r hPid hSame
    rw [← hPid] at hFound hFirst hSelf ⊢
    exact ⟨r, process?_setProcess hFound, hFirst, hSame ▸ hParent, hSame ▸ hSelf⟩
  rw [signal, hFound]
  by_cases hStatus : p.status.isSome = true
  · simpa [hStatus, Except.toOption] using hThere
  by_cases hHalted : p.halted = true
  · simpa [hStatus, hFirst, hHalted, Except.toOption, Supervision.sigterm, Signal.kill,
      Signal.goOn] using hSet { p with delayed := p.delayed ++ [15] } rfl rfl
  have hActed : (h.act p Supervision.sigterm).Owns p.pid := by
    rw [act]
    split
    · exact hThere
    · split
      · exact hSet _ rfl rfl
      · obtain ⟨r, hEnded, hSame, -⟩ :=
          process?_finish hFound hParent hSelf (UInt32.ofNat Supervision.sigterm)
        exact ⟨r, hEnded, hFirst, hSame ▸ hParent, hSame ▸ hSelf⟩
  simpa [hStatus, hFirst, hHalted, Except.toOption, Supervision.sigterm, Signal.kill,
    Signal.goOn] using hActed

/-- A child that is killed has ended. -/
theorem Owns.kill (hOwns : h.Owns pid) :
    (((h.signal pid Supervision.sigkill).toOption.getD h).statusOf? pid).isSome = true := by
  obtain ⟨p, hFound, hFirst, hParent, hSelf⟩ := hOwns
  obtain rfl := process?_pid hFound
  rw [signal, hFound]
  by_cases hStatus : p.status.isSome = true
  · simp [hStatus, Except.toOption, statusOf?, hFound]
  · obtain ⟨r, hEnded, -, hOwn⟩ :=
      process?_finish hFound hParent hSelf (UInt32.ofNat Supervision.sigkill)
    have hDone : ((h.finish p (UInt32.ofNat Supervision.sigkill)).statusOf? p.pid).isSome = true := by
      rw [statusOf?, hEnded, Option.bind_some, hOwn]
      rfl
    simpa [hStatus, hFirst, Except.toOption, Supervision.sigkill, Signal.kill] using hDone

end Host

end ScriptWarden
