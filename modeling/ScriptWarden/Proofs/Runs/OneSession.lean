import ScriptWarden.Proofs.Runs.Soundness

/-!
# One session for each script

However starts, supervisors, requests and the host come between each other: a script has one process
at most and one slot at most; a slot that a start has taken becomes what that start makes of it; and
what holds a slot keeps everybody else out.

## Results

* `length_children_le_one` — no script has two processes to be reaped.
* `Resolution`, `step_resolution` — what a step may make of the slot of a start.
* `one_session_per_name` — all of it, in every scene that a run leads to.
-/

namespace ScriptWarden

-- ---------------------------------------------------------------------------
-- Processes
-- ---------------------------------------------------------------------------

/-- Two sessions of a script with processes to be reaped are one. -/
theorem holdsChild_unique {s : Scene} (h : s.Sound) {x y : Life} (hx : x ∈ s.deployment.lives)
    (hy : y ∈ s.deployment.lives) (hxChild : x.supervision.HoldsChild)
    (hyChild : y.supervision.HoldsChild) (hName : x.name = y.name) : x = y := by
  apply life_eq_of_id_eq h.ownIds hx hy
  have hxHeld := h.lifeHeld x hx (Supervision.not_hasLeft_of_holdsChild hxChild)
  have hyHeld := h.lifeHeld y hy (Supervision.not_hasLeft_of_holdsChild hyChild)
  rw [hName] at hxHeld
  rcases hxHeld with hxLive | ⟨i, hxCall⟩ <;> rcases hyHeld with hyLive | ⟨j, hyCall⟩
  · simpa using hxLive.symm.trans hyLive
  · cases hxLive.symm.trans (h.callHolds hyCall trivial)
  · cases hyLive.symm.trans (h.callHolds hxCall trivial)
  · obtain rfl := h.callOwn hxCall hyCall rfl
    simpa using hxCall.symm.trans hyCall

/-- The sessions of a script whose processes are to be reaped. -/
def Scene.children (s : Scene) (n : ScriptName) : List Session :=
  s.sessions.filter fun x => decide (x.name = n ∧ x.supervision.HoldsChild)

theorem mem_children {s : Scene} {n : ScriptName} {x : Session} :
    x ∈ s.children n ↔ x ∈ s.sessions ∧ x.name = n ∧ x.supervision.HoldsChild := by
  simp [Scene.children]

theorem length_children_le_one {s : Scene} (h : s.Sound) (n : ScriptName) :
    (s.children n).length ≤ 1 := by
  have hNodup : ((s.children n).map Session.life).Nodup := by
    have hAll : (s.sessions.map Session.life).Nodup := List.Nodup.of_map _ h.ownIds
    exact hAll.sublist (List.filter_sublist.map _)
  rcases hList : s.children n with _ | ⟨x, _ | ⟨y, rest⟩⟩
  · simp
  · simp
  · obtain ⟨hxMem, hxName, hxChild⟩ := mem_children.mp (hList ▸ List.mem_cons_self)
    obtain ⟨hyMem, hyName, hyChild⟩ :=
      mem_children.mp (hList ▸ List.mem_cons_of_mem x List.mem_cons_self)
    have hSame : x.life = y.life :=
      holdsChild_unique h (List.mem_map_of_mem hxMem) (List.mem_map_of_mem hyMem) hxChild hyChild
        (hxName.trans hyName.symm)
    rw [hList] at hNodup
    simp [hSame] at hNodup

-- ---------------------------------------------------------------------------
-- What becomes of the slot of a start
-- ---------------------------------------------------------------------------

/-- How many steps a start that holds its slot has before it. -/
def StartStage.toGo : StartStage → Nat
  | .reserved => 3
  | .cleared _ => 2
  | .spawned _ => 1
  | .failed _ => 1
  | .published _ => 0

/-- What a step may make of the slot that a start holds: the start goes on holding it, nearer to its
end if the step was its own; or the start publishes the session that it spawned; or the start has
failed and vacates the slot. -/
inductive Resolution (i : Nat) (c : StartCall) (a : Action) (s' : Scene) : Prop
  | held {c' : StartCall} :
      s'.slot? c.name = some .starting → s'.calls i = some c' → c'.name = c.name →
      c'.stage.HoldsSlot → (a.caller? ≠ some i → c' = c) →
      (a.caller? = some i → c'.stage.toGo < c.stage.toGo) → Resolution i c a s'
  | live {id : Nat} :
      a = .publish i → c.stage = .spawned id → s'.slot? c.name = some (.live id) →
      Resolution i c a s'
  | vacated {f : Fault} :
      a = .vacate i → c.stage = .failed f → s'.slot? c.name = none → Resolution i c a s'

/-- A step that leaves the slots and the start alone. -/
theorem Resolution.untouched {s s' : Scene} {i : Nat} {c : StartCall} {a : Action}
    (h : s.Sound) (hCall : s.calls i = some c) (hHolds : c.stage.HoldsSlot)
    (hSlot : s'.slot? c.name = s.slot? c.name) (hCall' : s'.calls i = s.calls i)
    (hOther : a.caller? ≠ some i) : Resolution i c a s' :=
  .held (hSlot.trans (h.callHolds hCall hHolds)) (hCall'.trans hCall) rfl hHolds (fun _ => rfl)
    fun hOwn => absurd hOwn hOther

/-- A step of another start is of another script. -/
theorem Scene.Sound.name_ne {s : Scene} (h : s.Sound) {i j : Nat} {c : StartCall} {n : ScriptName}
    {stage : StartStage} (hCall : s.calls i = some c) (hCall' : s.calls j = some ⟨n, stage⟩)
    (hj : j ≠ i) : c.name ≠ n := by
  rintro rfl
  exact hj (h.callOwn hCall' hCall rfl)

/-- A start that goes on holding its slot comes nearer to its end. -/
theorem Resolution.advance {s : Scene} {i j : Nat} {c : StartCall} {a : Action} {d : Deployment}
    {n : ScriptName} {stage stage' : StartStage} (h : s.Sound) (hCall : s.calls i = some c)
    (hHolds : c.stage.HoldsSlot) (hCall' : s.calls j = some ⟨n, stage⟩)
    (hSlots : d.slots = s.deployment.slots) (hHolds' : stage'.HoldsSlot)
    (hLess : stage'.toGo < stage.toGo) (hCaller : a.caller? = some j) :
    Resolution i c a ((s.withDeployment d).withCall j (some ⟨n, stage'⟩)) := by
  have hSlot : ∀ m, ((s.withDeployment d).withCall j (some ⟨n, stage'⟩)).slot? m = s.slot? m := by
    intro m
    show d.slots.slot? m = _
    rw [hSlots]
    rfl
  by_cases hj : i = j
  · obtain rfl : c = ⟨n, stage⟩ := Option.some.inj (by rw [← hCall, hj, hCall'])
    refine .held ((hSlot n).trans (h.callHolds hCall hHolds)) (if_pos hj) rfl hHolds' ?_
      fun _ => hLess
    intro hOther
    exact absurd (hCaller.trans (congrArg some hj.symm)) hOther
  · refine .untouched h hCall hHolds (hSlot _) (if_neg hj) ?_
    rw [hCaller]
    exact fun hOwn => hj (Option.some.inj hOwn).symm

theorem step_resolution {s s' : Scene} {a : Action} (h : s.Sound) {i : Nat} {c : StartCall}
    (hCall : s.calls i = some c) (hHolds : c.stage.HoldsSlot) (hStep : Step s a s') :
    Resolution i c a s' := by
  have hStarting := h.callHolds hCall hHolds
  cases hStep with
  | @reserve j n d hFree hReserve =>
    obtain ⟨slots, hSlots, rfl⟩ := reserve_ok hReserve
    obtain ⟨hNone, hSlot⟩ := Slots.slot?_reserve hSlots
    have hj : i ≠ j := by
      rintro rfl
      simp [hFree] at hCall
    have hName : c.name ≠ n := by
      rintro rfl
      cases hNone.symm.trans hStarting
    refine .untouched h hCall hHolds ((hSlot _).trans (if_neg hName)) (if_neg hj) ?_
    simpa [Action.caller?] using hj.symm
  | @refuse j n f d hFree hReserve =>
    rw [reserve_error hReserve]
    refine .untouched h hCall hHolds rfl rfl ?_
    rintro ⟨⟩
    simp [hFree] at hCall
  | @check j n d hCall' hCheck =>
    exact .advance h hCall hHolds hCall' (check_sameBoard hCheck).slots trivial
      (by simp [StartStage.toGo]) rfl
  | @reject j n f d hCall' hCheck =>
    exact .advance h hCall hHolds hCall' (check_sameBoard hCheck).slots trivial
      (by simp [StartStage.toGo]) rfl
  | @spawn j n found session d hCall' hSpawn =>
    exact .advance h hCall hHolds hCall' (spawn_ok hSpawn).2.1 trivial
      (by simp [StartStage.toGo]) rfl
  | @spawnFails j n found f d hCall' hSpawn =>
    rw [spawn_error hSpawn]
    exact .advance h hCall hHolds hCall' rfl trivial
      (by simp [StartStage.toGo]) rfl
  | @publish j n session hCall' hSession =>
    obtain rfl : session.name = n := h.session_name hCall' hSession
    by_cases hj : i = j
    · obtain rfl : c = ⟨session.name, .spawned session.id⟩ :=
        Option.some.inj (by rw [← hCall, hj, hCall'])
      exact .live (by rw [hj]) rfl ((Slots.slot?_publish _ _ _ _).trans (if_pos rfl))
    · have hName := h.name_ne hCall hCall' (Ne.symm hj)
      refine .untouched h hCall hHolds ((Slots.slot?_publish _ _ _ _).trans (if_neg hName))
        (if_neg hj) ?_
      simpa [Action.caller?] using Ne.symm hj
  | @vacate j n f hCall' =>
    by_cases hj : i = j
    · obtain rfl : c = ⟨n, .failed f⟩ := Option.some.inj (by rw [← hCall, hj, hCall'])
      exact .vacated (by rw [hj]) rfl ((Slots.slot?_vacate _ _ _).trans (if_pos ⟨rfl, hStarting⟩))
    · have hName := h.name_ne hCall hCall' (Ne.symm hj)
      refine .untouched h hCall hHolds ((Slots.slot?_vacate _ _ _).trans (if_neg ?_)) (if_neg hj) ?_
      · exact fun hOwn => hName hOwn.1
      · simpa [Action.caller?] using Ne.symm hj
  | @handOver j n id hCall' =>
    have hj : i ≠ j := by
      rintro rfl
      rw [hCall] at hCall'
      cases hCall'
      exact hHolds
    refine .untouched h hCall hHolds rfl (if_neg hj) ?_
    simpa [Action.caller?] using hj.symm
  | @supervise id stopFirst d hOver hSupervise =>
    obtain ⟨l, supervision, rfl, hSupervised⟩ := superviseSeeing?_cases h.ownIds hSupervise
    refine .untouched h hCall hHolds (hSupervised.slot? ?_) rfl (by simp [Action.caller?])
    intro hLive
    cases hStarting.symm.trans hLive
  | upload fileName bytes =>
    have hSame := upload_sameBoard fileName bytes s.deployment
    refine .untouched h hCall hHolds ?_ rfl (by simp [Action.caller?])
    exact congrArg (Slots.slot? · c.name) hSame.slots
  | delete n =>
    have hSame := delete_sameBoard n s.deployment
    refine .untouched h hCall hHolds ?_ rfl (by simp [Action.caller?])
    exact congrArg (Slots.slot? · c.name) hSame.slots
  | move m =>
    have hSame := move_sameBoard h.ownIds m
    refine .untouched h hCall hHolds ?_ rfl (by simp [Action.caller?])
    exact congrArg (Slots.slot? · c.name) hSame.slots

/-- A start that holds its slot is never stuck. -/
theorem startCall_goesOn {s : Scene} (h : s.Sound) {i : Nat} {c : StartCall}
    (hCall : s.calls i = some c) (hHolds : c.stage.HoldsSlot) :
    ∃ a s', a.caller? = some i ∧ Step s a s' := by
  obtain ⟨n, stage⟩ := c
  cases stage with
  | reserved =>
    rcases hCheck : Deployment.check n s.deployment with ⟨f | _, d⟩
    · exact ⟨.check i, _, rfl, .reject hCall hCheck⟩
    · exact ⟨.check i, _, rfl, .check hCall hCheck⟩
  | cleared found =>
    rcases hSpawn : Deployment.spawn n s.deployment with ⟨f | session, d⟩
    · exact ⟨.spawn i, _, rfl, .spawnFails hCall hSpawn⟩
    · exact ⟨.spawn i, _, rfl, .spawn hCall hSpawn⟩
  | spawned id =>
    obtain ⟨x, hMem, hLife⟩ := List.mem_map.mp (h.callWatched hCall rfl)
    obtain rfl : x.id = id := congrArg Life.id hLife
    obtain ⟨session, hSession⟩ : ∃ session, s.deployment.service.session? x.id = some session :=
      Option.isSome_iff_exists.mp (List.find?_isSome.mpr ⟨x, hMem, by simp⟩)
    have hId := (session?_mem hSession).2
    exact ⟨.publish i, _, rfl, .publish (hId ▸ hCall) (hId ▸ hSession)⟩
  | published id => exact hHolds.elim
  | failed f => exact ⟨.vacate i, _, rfl, .vacate hCall⟩

-- ---------------------------------------------------------------------------
-- The law
-- ---------------------------------------------------------------------------

/--
**One session for each script.** In every scene that a run of a service leads to:

* no script has more than one process to be reaped, nor more than one slot;
* a slot that a start has taken is that of one start under way, which can go on, and no step but its
  own makes the slot anything else: it publishes the session that it spawned, or has failed and
  vacates the slot;
* a step of a supervisor leaves every slot alone that does not hold its own session;
* a start of a script whose slot is taken is refused and changes nothing.
-/
theorem one_session_per_name {config : Config} {workingDir hostname : String} {host : Host}
    {s : Scene} (hReach : Reaches AnyStep (Scene.initial config workingDir hostname host) s) :
    (∀ n, (s.children n).length ≤ 1 ∧
      (s.deployment.slots.filter (·.1 == n)).length ≤ 1) ∧
    (∀ n, s.slot? n = some .starting →
      ∃ i c, s.calls i = some c ∧ c.name = n ∧ c.stage.HoldsSlot ∧
        (∃ a s', a.caller? = some i ∧ Step s a s') ∧
        ∀ a s', Step s a s' → Resolution i c a s') ∧
    (∀ id s', Step s (.supervise id) s' →
      ∀ n, s.slot? n ≠ some (.live id) → s'.slot? n = s.slot? n) ∧
    (∀ n, s.slot? n ≠ none →
      Deployment.start n s.deployment = (.error (.alreadyRunning n.text), s.deployment) ∧
        ∀ i s', Step s (.reserve i n) s' → s' = s) := by
  have hSound := reaches_sound (initial_sound config workingDir hostname host) hReach
  refine ⟨fun n => ?_, fun n hStarting => ?_, fun id s' hStep n hOther => ?_, fun n hTaken => ?_⟩
  · exact ⟨length_children_le_one hSound n, Slots.length_entries_le_one hSound.onePerName n⟩
  · obtain ⟨i, c, hCall, hName, hHolds⟩ := hSound.startingHeld hStarting
    exact ⟨i, c, hCall, hName, hHolds, startCall_goesOn hSound hCall hHolds,
      fun a s' hStep => step_resolution hSound hCall hHolds hStep⟩
  · cases hStep with
    | supervise _ hSupervise =>
      obtain ⟨l, supervision, rfl, hSupervised⟩ := superviseSeeing?_cases hSound.ownIds hSupervise
      exact hSupervised.slot? hOther
  · have hReserve : Deployment.reserve n s.deployment =
        (.error (.alreadyRunning n.text), s.deployment) := by
      rw [Deployment.reserve, Slots.reserve_eq_error hTaken]
    refine ⟨by rw [start_apply, hReserve], fun i s' hStep => ?_⟩
    cases hStep with
    | reserve _ hOk => cases hReserve.symm.trans hOk
    | refuse _ hRefused =>
      rw [reserve_error hRefused]
      rfl

/-- A host with a directory for scripts and nothing else. -/
def emptyHost : Host where
  now := default
  files := { entries := [(["scripts"], .directory)] }
  self := 2
  programs := fun _ => none
  nextPid := 3

/-- A configuration that names that directory. -/
def emptyConfig : Config := { Config.standard "/home" with scriptsDir := "/scripts" }

/-- A service of that directory that has just begun. -/
def emptyScene : Scene := .initial emptyConfig "/" "host" emptyHost

/-- The scene in which a start of a script has taken its slot. -/
def startingScene (n : ScriptName) : Scene :=
  (emptyScene.withDeployment (emptyScene.deployment.withSlots [(n, .starting)])).withCall 0
    (some ⟨n, .reserved⟩)

theorem startingScene_reached {Allowed : Scene → Action → Scene → Prop} (n : ScriptName)
    (hAllowed : Allowed emptyScene (.reserve 0 n) (startingScene n)) :
    Reaches Allowed emptyScene (startingScene n) :=
  .step .refl (.reserve rfl rfl) hAllowed

/-- While a start of a script is under way, another start of it is refused. -/
theorem second_start_refused :
    Reaches AnyStep emptyScene (startingScene default) ∧
      (startingScene default).slot? default = some .starting ∧
      ((startingScene default).children default).length ≤ 1 ∧
      Deployment.start default (startingScene default).deployment =
        (.error (.alreadyRunning "a.py"), (startingScene default).deployment) := by
  have hReach : Reaches AnyStep emptyScene (startingScene default) :=
    startingScene_reached default trivial
  have hSlot : (startingScene default).slot? default = some .starting := by decide +kernel
  obtain ⟨hOne, -, -, hRefused⟩ := one_session_per_name hReach
  exact ⟨hReach, hSlot, (hOne default).1, (hRefused default (by simp [hSlot])).1⟩

end ScriptWarden
