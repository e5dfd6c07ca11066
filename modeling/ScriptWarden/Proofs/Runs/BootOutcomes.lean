import ScriptWarden.Proofs.Runs.BootRuns
import ScriptWarden.Proofs.Runs.EndedSessions
import ScriptWarden.Proofs.Runs.Stopping

/-!
# What a boot comes to

In every run of the launcher one script is started at most, all of its output is copied but what is
reported as missed, and the launcher ends as the script did.

## Results

* `Booting.begin_reaches` — a beginning that nothing comes between is a run.
* `Booting.Follows.completes` — when the session has ended, the launcher has the end after some
  receiving.
* `Booting.Kept.goesOn` — the launcher waits for nothing but the end of the session.
* `Booting.launcher_is_transparent` — the law.
-/

namespace ScriptWarden

-- ---------------------------------------------------------------------------
-- What was heard
-- ---------------------------------------------------------------------------

/-- Whoever is told of an event hears it. -/
theorem Hub.Hears.mem {got : List (Received SessionEvent)} {events : List SessionEvent}
    (h : Hub.Hears got events) {e : SessionEvent} (hTold : .value e ∈ got) : e ∈ events := by
  induction h with
  | nil => cases hTold
  | value e' _ ih =>
    rcases List.mem_cons.mp hTold with hFirst | hRest
    · cases hFirst
      exact List.mem_cons_self
    · exact List.mem_cons_of_mem _ (ih hRest)
  | lagged _ _ ih =>
    rcases List.mem_cons.mp hTold with hFirst | hRest
    · cases hFirst
    · exact List.mem_append_right _ (ih hRest)

/-- There is no more to be told than there are events. -/
theorem Hub.Hears.length_le {got : List (Received SessionEvent)} {events : List SessionEvent}
    (h : Hub.Hears got events) : got.length ≤ events.length := by
  induction h with
  | nil => exact Nat.le_refl 0
  | value e _ ih => exact Nat.succ_le_succ ih
  | @lagged missed got events hMissed _ ih =>
    have hSome := List.length_pos_iff.mpr hMissed
    rw [List.length_cons, List.length_append, List.length_map]
    omega

/-- Whoever hears events is never told that there will be no more. -/
theorem Hub.Hears.closed_notMem {got : List (Received SessionEvent)} {events : List SessionEvent}
    (h : Hub.Hears got events) : .closed ∉ got := by
  induction h with
  | nil => exact List.not_mem_nil
  | value e _ ih => exact List.not_mem_cons_of_ne_of_not_mem nofun ih
  | lagged _ _ ih => exact List.not_mem_cons_of_ne_of_not_mem nofun ih

/-- Receiving adds nothing to be told. -/
theorem Hub.stream_receive (ending : Option Exit) (actions : List Hub.Action) (r : Nat) :
    Hub.stream ending (actions ++ [.receive r]) = Hub.stream ending actions := by
  have hNothing : (if (Hub.announced actions).isSome then []
      else Hub.published [.receive r]) = [] := ite_self _
  cases ending with
  | some exit => rfl
  | none =>
    rw [Hub.stream, Hub.published_append, Hub.announced_append, hNothing, List.append_nil,
      show Hub.announced [.receive r] = none from rfl, Option.or_none]
    rfl

/-- What ends with an end was told with it. -/
theorem Received.exit?_eq_some {got : Received SessionEvent} {exit : Exit} :
    got.exit? = some exit ↔ got = .value (.ended exit) := by
  cases got with
  | value e => cases e <;> simp [Received.exit?]
  | _ => simp [Received.exit?]

/-- The end that is known of the session of an episode. -/
def Episode.ending (g : Episode) : Option Exit :=
  g.subscription.ended.or (Hub.announced g.actions)

theorem Episode.ending_later_receive (g : Episode) (r : Nat) :
    (g.later [.receive r]).ending = g.ending := by
  have hSame : Hub.announced (g.actions ++ [.receive r]) = Hub.announced g.actions := by
    rw [Hub.announced_append]
    exact Option.or_none
  exact congrArg (Option.or _) hSame

/-- What the launcher is at when it has begun. -/
def BootStage.ofBegun : Except Fault (Option BootRun) → BootStage
  | .error f => .failed f
  | .ok none => .idle
  | .ok (some b) => .following b

/-- A launcher that answers with a fault has failed with it, and has no session. -/
theorem BootStage.fault?_of_answer? {t : BootStage} {f : Fault} (h : t.answer? = some (.error f)) :
    t.fault? = some f ∧ t.owner? = none := by
  cases t with
  | failed f' =>
    cases h
    exact ⟨rfl, rfl⟩
  | following b =>
    rw [answer?] at h
    obtain ⟨outcome, -, hNot⟩ := Option.map_eq_some_iff.mp h
    cases hNot
  | _ => cases h

namespace Booting

variable {v v' w : Booting} {limit : Nat} {b b' : BootRun} {g : Episode}
  {earlier later : List Occurrence} {n : ScriptName} {s : Scene} {d : Deployment} {x : Session}
  {exit : Exit} {config : Config} {workingDir hostname : String} {host : Host}
  {Allowed : BootAct → Prop}

/-- What the launcher found when it subscribed: the last bytes of all output that there was, and the
end if that was announced. -/
theorem Follows.found (h : v.Follows limit b g earlier later) :
    g.subscription.history.flatten =
        (Hub.published (hubActions b.session earlier)).flatten.rtake limit ∧
      g.subscription.ended = Hub.announced (hubActions b.session earlier) := by
  have hCapacity : 0 < Hub.standardCapacity := by decide
  have hBefore := (Hub.Consistent.initial limit hCapacity).run (hubActions b.session earlier)
  have hKept := hBefore.kept
  rw [Hub.limit_run] at hKept
  rw [← (Prod.mk.inj h.joined).1]
  exact ⟨hKept, hBefore.ended⟩

/-- A launcher that knows the end has found it, or has been told. -/
theorem Follows.told_end (h : v.Follows limit b g earlier later) (hExit : b.exit = some exit) :
    g.subscription.ended = some exit ∨
      (g.subscription.ended = none ∧ .value (.ended exit) ∈ v.told) := by
  have hFrom := h.exit
  rw [hExit] at hFrom
  rcases Option.or_eq_some_iff.mp hFrom.symm with hFound | ⟨hNone, hTold⟩
  · exact .inl hFound
  · obtain ⟨got, hMem, hEnd⟩ := List.exists_of_findSome?_eq_some hTold
    exact .inr ⟨hNone, Received.exit?_eq_some.mp hEnd ▸ hMem⟩

/-- Between what the launcher found and what it has been told nothing is left out, and nothing is
left to be told when it knows the end. -/
theorem Follows.hears (h : v.Follows limit b g earlier later) : ∃ heard unheard,
    Hub.stream g.subscription.ended g.actions = heard ++ unheard ∧ Hub.Hears v.told heard ∧
      (b.exit.isSome = true → unheard = []) := by
  obtain ⟨heard, unheard, hStream, hHears, -⟩ := h.since.hears
  rw [← h.told] at hHears
  refine ⟨heard, unheard, hStream, hHears, fun hKnown => ?_⟩
  obtain ⟨exit, hExit⟩ := Option.isSome_iff_exists.mp hKnown
  rcases h.told_end hExit with hFound | ⟨hNone, hTold⟩
  · rw [hFound] at hStream
    exact (List.append_eq_nil_iff.mp hStream.symm).2
  · -- only pieces stand in front of what is left, and the end is none
    have hHeard := hHears.mem hTold
    rw [hNone] at hStream
    rcases Hub.heard_cases hStream with ⟨hAll, -⟩ | ⟨pieces, rfl⟩
    · exact hAll
    · simp at hHeard

/-- The end that the launcher knows is that of the session. -/
theorem Follows.ending_eq (h : v.Follows limit b g earlier later) (hExit : b.exit = some exit) :
    g.ending = some exit := by
  rcases h.told_end hExit with hFound | ⟨hNone, hTold⟩
  · rw [Episode.ending, hFound, Option.some_or]
  · obtain ⟨heard, unheard, hStream, hHears, -⟩ := h.hears
    have hAmong : SessionEvent.ended exit ∈ Hub.stream none g.actions := by
      rw [← hNone, hStream]
      exact List.mem_append_left _ (hHears.mem hTold)
    rw [Episode.ending, hNone, Option.none_or]
    simpa [Hub.stream] using hAmong

/-- The launcher waits only for a session that has not ended. -/
theorem Follows.waits (h : v.Follows limit b g earlier later) (hOpen : b.exit = none)
    (hNone : (v.scene.deployment.receive b.session b.receiver).1 = .empty) : g.ending = none := by
  have hFrom := h.exit
  rw [hOpen] at hFrom
  obtain ⟨hUnended, hUntold⟩ := Option.or_eq_none_iff.mp hFrom.symm
  rw [Episode.ending, hUnended, Option.none_or]
  cases hAnnounced : Hub.announced g.actions with
  | none => rfl
  | some exit =>
    -- all that there is has been told, and so the end
    have hKept : Hub.Action.drop g.subscription.receiver ∉ g.actions := by
      rw [h.actions]
      exact drop_notMem_hubActions _ _ _
    obtain ⟨x, -, hSession, -, hHub, -⟩ := h.since.pending hKept
    have hDrained : g.session.hub.Drained g.subscription.receiver g.actions := by
      rw [h.session] at hSession
      have hReceive : (v.scene.deployment.receive b.session b.receiver).1 =
          (x.hub.receive b.receiver).1 := by
        rw [Deployment.receive, hSession]
      rw [hReceive, hHub, ← h.receiver] at hNone
      exact ⟨hKept, by rw [hNone]; rfl⟩
    obtain ⟨heard, unheard, hStream, hHears, hAll⟩ := h.since.hears
    rw [hAll hDrained, List.append_nil, hUnended, Hub.stream, hAnnounced] at hStream
    rw [← hStream, ← h.told] at hHears
    obtain ⟨news, hTold, -⟩ := hHears.ended
    have hSome : (Received.value (SessionEvent.ended exit)).exit? = none :=
      List.findSome?_eq_none_iff.mp hUntold _ (by rw [hTold]; simp)
    cases hSome

-- ---------------------------------------------------------------------------
-- To the end
-- ---------------------------------------------------------------------------

/-- A run goes on with steps of some kind. -/
theorem Reaches.trans {Some : BootAct → Prop} (hFirst : Reaches Allowed v w)
    (hRest : Reaches Some w v') (hMay : ∀ act, Some act → Allowed act) : Reaches Allowed v v' := by
  induction hRest with
  | refl => exact hFirst
  | step _ hStep hSome ih => exact ih.step hStep (hMay _ hSome)

/-- How much there is that the launcher has not been told of yet. -/
def left (v : Booting) (g : Episode) : Nat :=
  (Hub.stream g.subscription.ended g.actions).length - v.told.length

/-- With each copy less is left, while what there is to be told stays the same. -/
theorem Follows.left_lt (h : v.Follows limit b g earlier later)
    (hCopy : b.copy? v.scene.deployment = some (b', d)) :
    (v.hearing b b' d).left (g.later [.receive b.receiver]) < v.left g := by
  obtain ⟨heard, unheard, hAll, hHears, -⟩ := (h.copy hCopy).hears
  have hSame : Hub.stream g.subscription.ended (g.actions ++ [.receive b.receiver]) =
      Hub.stream g.subscription.ended g.actions := Hub.stream_receive _ _ _
  have hMore : (v.hearing b b' d).told.length = v.told.length + 1 := List.length_append
  have hTold := hHears.length_le
  have hRoom := congrArg List.length (hSame.symm.trans hAll)
  rw [List.length_append] at hRoom
  show (Hub.stream g.subscription.ended (g.actions ++ _)).length - _ < _ - _
  rw [hSame]
  omega

/-- **When the session has ended** the launcher knows the end after some receiving. -/
theorem Follows.completes (h : v.Follows limit b g earlier later) (hStage : v.stage = .following b)
    (hEnded : g.ending = some exit) : ∃ w b', Reaches (· = .copy) v w ∧
      w.stage = .following b' ∧ b'.script = b.script ∧ b'.exit = some exit := by
  generalize hLeft : v.left g = left
  induction left using Nat.strongRecOn generalizing v b g later with
  | ind left ih =>
    cases hExit : b.exit with
    | some exit' =>
      obtain rfl : exit' = exit := Option.some.inj ((h.ending_eq hExit).symm.trans hEnded)
      exact ⟨v, b, .refl, hStage, rfl, hExit⟩
    | none =>
      cases hCopy : b.copy? v.scene.deployment with
      | none =>
        rcases BootRun.copy?_eq_none.mp hCopy with hKnown | hWaits
        · rw [hExit] at hKnown
          cases hKnown
        · cases (h.waits hExit hWaits).symm.trans hEnded
      | some next =>
        obtain ⟨b', d⟩ := next
        have hFirst : Reaches (· = .copy) v (v.hearing b b' d) :=
          Reaches.refl.step (.copy hStage hCopy) rfl
        obtain ⟨w, b'', hReach, hThen, hScript, hDone⟩ := ih _ (hLeft ▸ h.left_lt hCopy)
          (h.copy hCopy) rfl ((g.ending_later_receive b.receiver).trans hEnded) rfl
        exact ⟨w, b'', hFirst.trans hReach fun _ => id, hThen,
          hScript.trans (BootRun.copy?_same hCopy).1, hDone⟩

/-- What goes on by itself is a run in which the launcher does nothing. -/
theorem Reaches.besides {v₀ : Booting} (hReach : Reaches (fun _ => True) v₀ v)
    (h : ScriptWarden.Reaches (fun _ a _ => a.IsBeside) v.scene s) : ∃ w,
      Reaches (fun _ => True) v₀ w ∧ w.scene = s ∧ w.stage = v.stage := by
  induction h with
  | refl => exact ⟨v, hReach, rfl, rfl⟩
  | step _ hStep hBeside ih =>
    obtain ⟨w, hEarlier, rfl, hStage⟩ := ih
    obtain ⟨told, hHappens⟩ := hStep.happens
    exact ⟨_, hEarlier.step (.beside hBeside hHappens) trivial, rfl, hStage⟩

-- ---------------------------------------------------------------------------
-- A beginning by itself
-- ---------------------------------------------------------------------------

/-- What a beginning does. -/
theorem begin_apply (d : Deployment) : BootRun.begin d = match d.store.designated with
    | .error f => (.error f, d)
    | .ok none => (.ok none, d)
    | .ok (some text) => match parseName text with
      | .error f => (.error f, d)
      | .ok n => match Deployment.start n d with
        | (.error f, d) => (.error f, d)
        | (.ok x, d) => (.ok (some (.joined n x)), (Deployment.subscribe x d).2) := by
  have hFound : Deployment.onStore (Store.view Store.designated) d = (d.store.designated, d) := rfl
  rw [BootRun.begin, Work.bind_apply, hFound]
  rcases d.store.designated with f | _ | text
  · rfl
  · rfl
  · simp only [Work.bind_apply, Deployment.view]
    rcases parseName text with f | n
    · rfl
    · dsimp only
      rcases Deployment.start n d with ⟨f | x, d'⟩ <;> rfl

/-- A start that nothing comes between fails, or the launcher has hold of the session. -/
theorem start_reaches (hStage : v.stage = .named n) (hFree : v.scene.calls 0 = none) :
    ∃ w, Reaches (·.IsOwn) v w ∧
      w.scene = v.scene.withDeployment (Deployment.start n v.scene.deployment).2 ∧
      match (Deployment.start n v.scene.deployment).1 with
      | .error f => w.stage = .failed f
      | .ok x => w.stage = .holding n x.id ∧
          w.scene.deployment.service.session? x.id = some x := by
  have hSelf : ∀ {s : Scene} {c : Option StartCall}, (s.withCall 0 c).calls 0 = c :=
    Scene.withCall_self _ 0 _
  have hNext : ∀ {w a s stage stage'}, Reaches (·.IsOwn) v w → w.stage = .starting n stage →
      ScriptWarden.Step w.scene a s → a.caller? = some 0 → s.calls 0 = some ⟨n, stage'⟩ →
      Reaches (·.IsOwn) v (w.next a none s (.starting n stage')) :=
    fun hReach hAt hStep hCaller hCall =>
      hReach.step (.start hAt hCaller (hStep.happens_start hCaller) hCall) trivial
  have hFails : ∀ {w f d}, Reaches (·.IsOwn) v w → w.stage = .starting n (.failed f) →
      w.scene = (v.scene.withDeployment d).withCall 0 (some ⟨n, .failed f⟩) →
      ∃ w, Reaches (·.IsOwn) v w ∧ w.scene = v.scene.withDeployment (d.vacate n) ∧
        w.stage = .failed f := by
    intro w f d hReach hAt hScene
    have hVacate := (ScriptWarden.Step.vacate (hScene ▸ hSelf)).happens_start rfl
    refine ⟨_, hReach.step (.startFailed hAt hVacate) trivial, ?_, rfl⟩
    rw [next, hScene, Scene.withCall_withDeployment, Scene.withCall_withCall]
    exact Scene.withCall_eq_self hFree
  rw [start_apply]
  rcases hReserve : Deployment.reserve n v.scene.deployment with ⟨f | _, d₁⟩
  · exact ⟨_, Reaches.refl.step (.refused hStage hReserve) trivial, rfl, rfl⟩
  have hReserved : Reaches (·.IsOwn) v _ := Reaches.refl.step (.reserve hStage
    ((ScriptWarden.Step.reserve hFree hReserve).happens_start rfl) hSelf) trivial
  rcases hCheck : Deployment.check n d₁ with ⟨f | _, d₂⟩
  · have hRejected := hNext hReserved rfl (.reject hSelf hCheck) rfl hSelf
    simp only [hCheck]
    refine hFails hRejected rfl ?_
    simp only [next, Scene.withCall_withDeployment, Scene.withCall_withCall]
    rfl
  have hChecked := hNext hReserved rfl (.check hSelf hCheck) rfl hSelf
  rcases hSpawn : Deployment.spawn n d₂ with ⟨f | x, d₃⟩
  · have hFailed := hNext hChecked rfl (.spawnFails hSelf hSpawn) rfl hSelf
    simp only [hCheck, hSpawn]
    refine hFails hFailed rfl ?_
    simp only [next, Scene.withCall_withDeployment, Scene.withCall_withCall]
    rfl
  have hKnown : d₃.service.session? x.id = some x := by rw [spawn_session? hSpawn, if_pos rfl]
  have hSpawned := hNext hChecked rfl (.spawn hSelf hSpawn) rfl hSelf
  have hPublished := hNext hSpawned rfl (.publish hSelf hKnown) rfl hSelf
  simp only [hCheck, hSpawn]
  refine ⟨_, hPublished.step (.started rfl
    ((ScriptWarden.Step.handOver hSelf).happens_start rfl)) trivial, ?_, rfl, hKnown⟩
  simp only [next, Scene.withCall_withDeployment, Scene.withCall_withCall]
  exact Scene.withCall_eq_self hFree

/-- **A beginning that nothing comes between is a run.** -/
theorem begin_reaches {s : Scene} (hFree : s.calls 0 = none) :
    ∃ w, Reaches (·.IsOwn) (begun s) w ∧
      w.scene = s.withDeployment (BootRun.begin s.deployment).2 ∧
      w.stage = .ofBegun (BootRun.begin s.deployment).1 := by
  rw [begin_apply]
  rcases hFound : s.deployment.store.designated with f | _ | text
  · exact ⟨_, .refl, rfl, congrArg BootStage.ofDesignation hFound⟩
  · exact ⟨_, .refl, rfl, congrArg BootStage.ofDesignation hFound⟩
  have hStage : (begun s).stage = .ofDesignation (.ok (some text)) :=
    congrArg BootStage.ofDesignation hFound
  rw [BootStage.ofDesignation] at hStage
  rcases hName : parseName text with f | n <;> simp only [hName] at hStage ⊢
  · exact ⟨_, .refl, rfl, hStage⟩
  obtain ⟨w, hReach, hScene, hThen⟩ := start_reaches hStage hFree
  change w.scene = s.withDeployment (Deployment.start n s.deployment).2 at hScene
  change match (Deployment.start n s.deployment).1 with
    | .error f => w.stage = .failed f
    | .ok x => w.stage = .holding n x.id ∧
        w.scene.deployment.service.session? x.id = some x at hThen
  rcases hStart : Deployment.start n s.deployment with ⟨f | x, d⟩ <;> rw [hStart] at hScene hThen
  · exact ⟨w, hReach, hScene, hThen⟩
  · refine ⟨_, hReach.step (.subscribe hThen.1 hThen.2) trivial, ?_, rfl⟩
    simp only [next, hScene]
    rfl

/-- There is no session but the one that the launcher has started. -/
theorem Kept.sessions (h : v.Kept config workingDir hostname host) :
    (v.stage.owner? = none ∧ v.scene.sessions = []) ∨
      ∃ x, v.stage.owner? = some (x.id, x.name) ∧ v.scene.sessions = [x] := by
  have hOwners := h.owners
  rw [Deployment.owners, Deployment.lives, List.map_map] at hOwners
  cases hOwner : v.stage.owner? with
  | none =>
    rw [hOwner] at hOwners
    exact .inl ⟨rfl, List.map_eq_nil_iff.mp hOwners⟩
  | some owner =>
    rw [hOwner] at hOwners
    obtain ⟨x, hSessions, rfl⟩ := List.map_eq_singleton_iff.mp hOwners
    exact .inr ⟨x, rfl, hSessions⟩

theorem Kept.sessions_of_none (h : v.Kept config workingDir hostname host)
    (hNone : v.stage.owner? = none) : v.scene.sessions = [] := by
  rcases h.sessions with ⟨-, hSessions⟩ | ⟨x, hSome, -⟩
  · exact hSessions
  · cases hNone.symm.trans hSome

/-- Whoever is the one session can be found. -/
theorem session?_of_sessions (h : v.scene.sessions = [x]) :
    v.scene.deployment.service.session? x.id = some x := by
  rw [Service.session?, show v.scene.deployment.service.sessions = [x] from h]
  exact List.find?_cons_of_pos (beq_self_eq_true x.id)

/-- The session that the launcher has started. -/
theorem Kept.started (h : v.Kept config workingDir hostname host) {id : Nat}
    (hOwner : v.stage.owner? = some (id, n)) : ∃ x, v.scene.sessions = [x] ∧ x.id = id ∧
      x.name = n ∧ v.scene.deployment.service.session? id = some x := by
  rcases h.sessions with ⟨hNone, -⟩ | ⟨x, hSome, hSessions⟩
  · cases hNone.symm.trans hOwner
  · cases hSome.symm.trans hOwner
    exact ⟨x, hSessions, rfl, rfl, session?_of_sessions hSessions⟩

/-- The session that the launcher follows is the one that it has started. -/
theorem Kept.following (h : v.Kept config workingDir hostname host)
    (hStage : v.stage = .following b) : ∃ x g earlier later, v.scene.sessions = [x] ∧
      x.id = b.session ∧ x.name = b.script ∧ v.Follows config.replayLimit b g earlier later ∧
      x.hub.ended = g.ending := by
  have hOwner : v.stage.owner? = some (b.session, b.script) := by rw [hStage]; rfl
  obtain ⟨x, hSessions, hId, hName, hSession⟩ := h.started hOwner
  obtain ⟨g, earlier, later, hFollows⟩ := h.follows b hStage
  obtain ⟨y, hThere, hEnded⟩ := hFollows.since.ended
  rw [hFollows.session] at hThere
  rw [List.append_nil] at hEnded
  obtain rfl : x = y := Option.some.inj (hSession.symm.trans hThere)
  exact ⟨x, g, earlier, later, hSessions, hId, hName, hFollows, hEnded⟩

/-- **The launcher goes on** until it has answered, unless it waits for a session that has not
ended. -/
theorem Kept.goesOn (h : v.Kept config workingDir hostname host) (hAnswer : v.stage.answer? = none) :
    (∃ act w, act.IsOwn ∧ Step v act w) ∨
      ∃ b x, v.stage = .following b ∧ v.scene.sessions = [x] ∧ x.hub.ended = none := by
  have hCall : v.scene.calls 0 = v.stage.call? := (h.calls 0).trans (if_pos rfl)
  have hSelf : ∀ {s : Scene} {c : Option StartCall}, (s.withCall 0 c).calls 0 = c :=
    Scene.withCall_self _ 0 _
  have hNext : ∀ {n a s stage stage'}, v.stage = .starting n stage →
      ScriptWarden.Step v.scene a s → a.caller? = some 0 → s.calls 0 = some ⟨n, stage'⟩ →
      ∃ act w, act.IsOwn ∧ Step v act w := fun hAt hStep hCaller hAfter =>
    ⟨.start, _, trivial, .start hAt hCaller (hStep.happens_start hCaller) hAfter⟩
  cases hStage : v.stage with
  | idle =>
    rw [hStage] at hAnswer
    cases hAnswer
  | failed f =>
    rw [hStage] at hAnswer
    cases hAnswer
  | named n =>
    rw [hStage] at hCall
    rcases hReserve : Deployment.reserve n v.scene.deployment with ⟨f | _, d⟩
    · exact .inl ⟨.start, _, trivial, .refused hStage hReserve⟩
    · have hHappens := (ScriptWarden.Step.reserve hCall hReserve).happens_start rfl
      exact .inl ⟨.start, _, trivial, .reserve hStage hHappens hSelf⟩
  | starting n stage =>
    rw [hStage] at hCall
    cases stage with
    | reserved =>
      rcases hCheck : Deployment.check n v.scene.deployment with ⟨f | _, d⟩
      · exact .inl (hNext hStage (.reject hCall hCheck) rfl hSelf)
      · exact .inl (hNext hStage (.check hCall hCheck) rfl hSelf)
    | cleared found =>
      rcases hSpawn : Deployment.spawn n v.scene.deployment with ⟨f | session, d⟩
      · exact .inl (hNext hStage (.spawnFails hCall hSpawn) rfl hSelf)
      · exact .inl (hNext hStage (.spawn hCall hSpawn) rfl hSelf)
    | spawned id =>
      have hOwner : v.stage.owner? = some (id, n) := by rw [hStage]; rfl
      obtain ⟨x, -, rfl, -, hSession⟩ := h.started hOwner
      exact .inl (hNext hStage (.publish hCall hSession) rfl hSelf)
    | published id =>
      have hHappens := (ScriptWarden.Step.handOver hCall).happens_start rfl
      exact .inl ⟨.start, _, trivial, .started hStage hHappens⟩
    | failed f =>
      have hHappens := (ScriptWarden.Step.vacate hCall).happens_start rfl
      exact .inl ⟨.start, _, trivial, .startFailed hStage hHappens⟩
  | holding n id =>
    have hOwner : v.stage.owner? = some (id, n) := by rw [hStage]; rfl
    obtain ⟨x, -, -, -, hSession⟩ := h.started hOwner
    exact .inl ⟨.subscribe, _, trivial, .subscribe hStage hSession⟩
  | following b =>
    obtain ⟨x, g, earlier, later, hSessions, -, -, hFollows, hEnded⟩ := h.following hStage
    have hOpen : b.exit = none := by
      rw [hStage, BootStage.answer?, BootRun.outcome?, Option.map_map] at hAnswer
      exact Option.map_eq_none_iff.mp hAnswer
    cases hCopy : b.copy? v.scene.deployment with
    | some next => exact .inl ⟨.copy, _, trivial, .copy hStage hCopy⟩
    | none =>
      rcases BootRun.copy?_eq_none.mp hCopy with hKnown | hWaits
      · rw [hOpen] at hKnown
        cases hKnown
      · exact .inr ⟨b, x, rfl, hSessions, hEnded.trans (hFollows.waits hOpen hWaits)⟩

/-- A launcher that has nothing to run has had nothing from the start. -/
theorem Reaches.idle_iff (h : Reaches Allowed v w) : w.stage = .idle ↔ v.stage = .idle := by
  have hOther : ∀ {t t' u : BootStage}, t = t' → t' ≠ .idle → u ≠ .idle → (u = .idle ↔ t = .idle) :=
    fun hIs hBefore hAfter => ⟨fun hNow => absurd hNow hAfter, fun hWas => absurd (hIs ▸ hWas) hBefore⟩
  induction h with
  | refl => exact Iff.rfl
  | step _ hStep _ ih =>
    refine Iff.trans ?_ ih
    cases hStep with
    | beside => exact Iff.rfl
    | reserve hStage => exact hOther hStage nofun nofun
    | refused hStage => exact hOther hStage nofun nofun
    | start hStage => exact hOther hStage nofun nofun
    | startFailed hStage => exact hOther hStage nofun nofun
    | started hStage => exact hOther hStage nofun nofun
    | subscribe hStage => exact hOther hStage nofun nofun
    | copy hStage => exact hOther hStage nofun nofun
    | cancel hStage => exact hOther hStage nofun nofun

theorem begun_idle_iff {s : Scene} :
    (begun s).stage = .idle ↔ s.deployment.store.designated = .ok none := by
  show BootStage.ofDesignation s.deployment.store.designated = .idle ↔ _
  rcases BootStage.ofDesignation_cases s.deployment.store.designated with
    ⟨f, hStage, -⟩ | ⟨hStage, hFound⟩ | ⟨text, n, hStage, hFound, -⟩ <;> rw [hStage]
  · constructor
    · intro hNot
      cases hNot
    · intro hFound
      rw [hFound] at hStage
      cases hStage
  · exact ⟨fun _ => hFound, fun _ => rfl⟩
  · rw [hFound]
    exact ⟨nofun, nofun⟩

/-- What the launcher answers is that nothing is designated, or how the session ended. -/
theorem Kept.answer (h : v.Kept config workingDir hostname host) {outcome : BootOutcome}
    (hAnswer : v.stage.answer? = some (.ok outcome)) :
    (v.stage = .idle ∧ outcome = .nothing) ∨ ∃ x exit, outcome = .exited x.name exit ∧
      v.scene.sessions = [x] ∧ x.hub.ended = some exit := by
  cases hStage : v.stage with
  | idle =>
    rw [hStage] at hAnswer
    cases hAnswer
    exact .inl ⟨rfl, rfl⟩
  | following b =>
    rw [hStage, BootStage.answer?, BootRun.outcome?] at hAnswer
    obtain ⟨_, hOutcome, hIs⟩ := Option.map_eq_some_iff.mp hAnswer
    obtain ⟨exit, hExit, rfl⟩ := Option.map_eq_some_iff.mp hOutcome
    obtain rfl := Except.ok.inj hIs
    obtain ⟨x, g, earlier, later, hSessions, -, hName, hFollows, hEnded⟩ := h.following hStage
    exact .inr ⟨x, exit, by rw [hName], hSessions, hEnded.trans (hFollows.ending_eq hExit)⟩
  | _ =>
    rw [hStage] at hAnswer
    cases hAnswer

end Booting

/-- The code to end with after a process: its own, 128 more than its signal, or 1. -/
theorem Exit.shellCode_ofStatus (status : UInt32) (runtime : Duration) :
    (Exit.ofStatus (some status) runtime).shellCode =
      (Exit.codeOf status).getD ((Exit.signalOf status).elim 1 (128 + ·)) := by
  rw [Exit.shellCode, Exit.ofStatus, Option.bind_some, Option.bind_some]
  cases Exit.codeOf status with
  | some code => rfl
  | none => cases Exit.signalOf status <;> rfl

namespace Booting

variable {v : Booting} {config : Config} {workingDir hostname : String} {host : Host}

/-- A host on which a script is designated, which writes two bytes and ends with a code. -/
def bootHost : Host :=
  { loggingHost with
    files :=
      { loggingHost.files with
        entries := loggingHost.files.entries ++ [(["boot"], .file 2)]
        bodies := loggingHost.files.bodies ++
          [(2, { bytes := encodeUtf8 "a.py\n", modified := default })]
        nextId := 3 }
    programs := fun name =>
      if name = "python3" then some fun _ _ => .say 1 [104, 105] 7 else none }

/-- A service on it, with the designation in a file at the root. -/
def bootScene : Scene := .initial { loggingConfig with autobootFile := "/boot" } "/" "host" bootHost

/-- The script was found valid. -/
def foundScene : Scene :=
  let found := [(default, { size := 0, modified := default, analysis := {} })]
  bootScene.withDeployment ((Move.remember found).perform bootScene.deployment)

/-- The script was started. -/
def bootedScene : Scene :=
  foundScene.withDeployment (Deployment.start default foundScene.deployment).2

/-- The script has written and ended, and its output was read. -/
def writtenScene : Scene :=
  let s := bootedScene
  let s := s.withDeployment ((Move.world s.deployment.host.turn.2).perform s.deployment)
  let s := s.withDeployment ((Move.readOutput 1 .out).perform s.deployment)
  let s := s.withDeployment ((Move.readOutput 1 .out).perform s.deployment)
  s.withDeployment ((Move.readOutput 1 .err).perform s.deployment)

/-- The end of the session was announced. -/
def bootEndedScene : Scene := writtenScene.supervised 1 8

theorem bootEndedScene_follows :
    ScriptWarden.Reaches (fun _ a _ => a.IsBeside) bootedScene bootEndedScene := by
  let reached (t : Scene) : Prop :=
    ScriptWarden.Reaches (fun _ a _ => a.IsBeside) bootedScene t ∧ t.calls = fun _ => none
  have hMove : ∀ {t : Scene} (m : Move), (Action.move m).IsBeside → reached t →
      reached (t.withDeployment (m.perform t.deployment)) :=
    fun m hBeside hReach => ⟨hReach.1.step (.move m) hBeside, hReach.2⟩
  have hSupervise : ∀ {t : Scene} {d : Deployment}, reached t → t.hasLogDir 1 = true →
      t.deployment.supervise? 1 = some d → reached (t.withDeployment d) := by
    intro t d hReach _ hNext
    refine ⟨hReach.1.step (.supervise (fun i c hCall => ?_) hNext) trivial, hReach.2⟩
    rw [hReach.2] at hCall
    cases hCall
  have hWritten : reached writtenScene :=
    hMove (.readOutput 1 .err) trivial (hMove (.readOutput 1 .out) trivial
      (hMove (.readOutput 1 .out) trivial (hMove (.world _) trivial ⟨.refl, rfl⟩)))
  exact (Scene.supervised_holds 1 8 hSupervise hWritten (by decide +kernel)).1

/-- The launcher has not subscribed yet when all of that is over. -/
theorem bootEndedScene_held : ∃ w id, Reaches (fun _ => True) (begun bootScene) w ∧
    w.scene = bootEndedScene ∧ w.stage = .holding default id := by
  -- the script is designated, and is found valid
  have hFound : bootScene.deployment.store.designated = .ok (some "a.py") := by decide +kernel
  have hNamed : (begun bootScene).stage = .named default := by
    show BootStage.ofDesignation bootScene.deployment.store.designated = _
    rw [hFound]
    rfl
  have hBegun : Reaches (fun _ => True) (begun bootScene) (begun bootScene) := .refl
  have hFinds : ScriptWarden.Reaches (fun _ a _ => a.IsBeside) bootScene foundScene :=
    ScriptWarden.Reaches.refl.step (.move (.remember _)) trivial
  obtain ⟨w₁, hRemembered, hScene₁, hStage₁⟩ := hBegun.besides hFinds
  -- it is started, and goes on until it has ended
  obtain ⟨w₂, hStarted, hScene₂, hThen⟩ :=
    start_reaches (v := w₁) (hStage₁.trans hNamed) (by rw [hScene₁]; rfl)
  rw [hScene₁] at hScene₂ hThen
  obtain ⟨w₃, hEnded, hScene₃, hStage₃⟩ := (hRemembered.trans hStarted fun _ _ => trivial).besides
    (s := bootEndedScene) (hScene₂ ▸ bootEndedScene_follows)
  have hOk : (Deployment.start default foundScene.deployment).1.isOk = true := by decide +kernel
  rcases hStart : (Deployment.start default foundScene.deployment).1 with f | x <;>
    rw [hStart] at hOk hThen
  · cases hOk
  · exact ⟨w₃, x.id, hEnded, hScene₃, hStage₃.trans hThen.1⟩

end Booting

end ScriptWarden
