import ScriptWarden.Proofs.Runs.Board

/-!
# Slots, sessions and starts fit together

What ties the slots, the sessions and the starts under way together, in every scene that a run leads
to. A slot is taken either by a start that is under way or by a session that has not left it; a
session that has not left either holds the slot of its script or is the one that a start has just
spawned; and no two starts under way are of the same script.

## Results

* `Scene.Sound` — the invariant; `Scene.Sound.change` — what has to be seen of a step of one start.
* `initial_sound`, `step_sound` — a service begins with it, and every step keeps it.
* `reaches_sound` — so it holds along every run.
-/

namespace ScriptWarden

-- ---------------------------------------------------------------------------
-- The invariant
-- ---------------------------------------------------------------------------

/-- Slots, sessions and starts fit together. -/
structure Scene.Sound (s : Scene) : Prop where
  onePerName : s.deployment.slots.OnePerName
  ownIds : s.deployment.OwnIds
  idsBelow : ∀ l ∈ s.deployment.lives, l.id < s.deployment.service.nextSession
  /-- A start that has not published holds the slot of its script. -/
  callHolds : ∀ {i : Nat} {c : StartCall}, s.calls i = some c → c.stage.HoldsSlot →
    s.slot? c.name = some .starting
  /-- The slot of a start that has published holds its session. -/
  callLive : ∀ {i id : Nat} {c : StartCall}, s.calls i = some c → c.stage = .published id →
    s.slot? c.name = some (.live id)
  /-- No two starts under way are of one script. -/
  callOwn : ∀ {i j : Nat} {c c' : StartCall}, s.calls i = some c → s.calls j = some c' →
    c.name = c'.name → i = j
  startingHeld : ∀ {n : ScriptName}, s.slot? n = some .starting →
    ∃ i c, s.calls i = some c ∧ c.name = n ∧ c.stage.HoldsSlot
  /-- A session that is not handed over is only watched. -/
  callWatched : ∀ {i id : Nat} {c : StartCall}, s.calls i = some c → c.stage.session? = some id →
    ⟨id, c.name, .watching⟩ ∈ s.deployment.lives
  /-- A session that has not left holds its slot, or is to be published. -/
  lifeHeld : ∀ l ∈ s.deployment.lives, ¬ l.supervision.HasLeft →
    s.slot? l.name = some (.live l.id) ∨ ∃ i, s.calls i = some ⟨l.name, .spawned l.id⟩
  liveKnown : ∀ {n : ScriptName} {id : Nat}, s.slot? n = some (.live id) →
    ∃ l ∈ s.deployment.lives, l.id = id ∧ l.name = n ∧ ¬ l.supervision.HasLeft

theorem StartStage.holdsSlot_or_published (stage : StartStage) :
    stage.HoldsSlot ∨ ∃ id, stage = .published id := by
  cases stage <;> simp [StartStage.HoldsSlot]

/-- The slot of a start under way is taken. -/
theorem Scene.Sound.slot?_ne_none {s : Scene} (h : s.Sound) {i : Nat} {c : StartCall}
    (hCall : s.calls i = some c) : s.slot? c.name ≠ none := by
  rcases c.stage.holdsSlot_or_published with hHolds | ⟨id, hStage⟩
  · simp [h.callHolds hCall hHolds]
  · simp [h.callLive hCall hStage]

-- ---------------------------------------------------------------------------
-- One script
-- ---------------------------------------------------------------------------

/-- The slot of a script, its sessions, and what a start of it is at, if one is under way, fit
together. -/
structure Deployment.SoundAt (d : Deployment) (n : ScriptName) (stage : Option StartStage) :
    Prop where
  holds : ∀ t ∈ stage, t.HoldsSlot → d.slots.slot? n = some .starting
  live : ∀ id, stage = some (.published id) → d.slots.slot? n = some (.live id)
  held : d.slots.slot? n = some .starting → ∃ t ∈ stage, t.HoldsSlot
  watched : ∀ t ∈ stage, ∀ id, t.session? = some id → ⟨id, n, .watching⟩ ∈ d.lives
  lifeHeld : ∀ l ∈ d.lives, l.name = n → ¬ l.supervision.HasLeft →
    d.slots.slot? n = some (.live l.id) ∨ stage = some (.spawned l.id)
  liveKnown : ∀ id, d.slots.slot? n = some (.live id) →
    ∃ l ∈ d.lives, l.id = id ∧ l.name = n ∧ ¬ l.supervision.HasLeft

section OneScript

variable {s : Scene} {i : Nat} {n : ScriptName} {stage : StartStage}

/-- A start under way is the only one of its script. -/
theorem Scene.Sound.only (h : s.Sound) (hCall : s.calls i = some ⟨n, stage⟩) {j : Nat}
    {c : StartCall} (hAt : s.calls j = some c) : c.name = n ↔ j = i := by
  constructor
  · exact fun hName => h.callOwn hAt hCall hName
  · rintro rfl
    rw [Option.some.inj (hAt.symm.trans hCall)]

/-- All fits together at the script of a start under way. -/
theorem Scene.Sound.soundAt (h : s.Sound) (hCall : s.calls i = some ⟨n, stage⟩) :
    s.deployment.SoundAt n (some stage) where
  holds := by
    rintro _ ⟨⟩ hHolds
    exact h.callHolds hCall hHolds
  live := by
    rintro id ⟨⟩
    exact h.callLive hCall rfl
  held hStarting := by
    obtain ⟨j, c, hAt, hName, hHolds⟩ := h.startingHeld hStarting
    obtain rfl := (h.only hCall hAt).mp hName
    obtain rfl := Option.some.inj (hAt.symm.trans hCall)
    exact ⟨_, rfl, hHolds⟩
  watched := by
    rintro _ ⟨⟩ id hSession
    exact h.callWatched hCall hSession
  lifeHeld l hMem hName hLeft := by
    subst hName
    refine (h.lifeHeld l hMem hLeft).imp_right ?_
    rintro ⟨j, hAt⟩
    obtain rfl := (h.only hCall hAt).mp rfl
    exact congrArg (Option.map StartCall.stage) (hCall.symm.trans hAt)
  liveKnown _ hLive := h.liveKnown hLive

/-- **What a step of one start keeps.** The slots, sessions and starts of other scripts are as they
were, so all fits together if it does at the script of the start. -/
theorem Scene.Sound.change (h : s.Sound) {d : Deployment} {t : Option StartStage}
    (hOnly : ∀ {j c}, s.calls j = some c → (c.name = n ↔ j = i)) (hOnce : d.slots.OnePerName)
    (hIds : d.OwnIds) (hBelow : ∀ l ∈ d.lives, l.id < d.service.nextSession)
    (hSlots : ∀ {m}, m ≠ n → d.slots.slot? m = s.slot? m)
    (hLives : ∀ l ∈ s.deployment.lives, l ∈ d.lives)
    (hNew : ∀ l ∈ d.lives, l.name ≠ n → l ∈ s.deployment.lives) (hAt : d.SoundAt n t) :
    ((s.withDeployment d).withCall i (t.map (StartCall.mk n))).Sound := by
  have hCalls := Scene.withCall_calls (s.withDeployment d) i
  -- a start afterwards is the one of the script, or was there before and is of another
  have hCases : ∀ {j c}, ((s.withDeployment d).withCall i (t.map (StartCall.mk n))).calls j =
      some c → (j = i ∧ c.name = n ∧ c.stage ∈ t) ∨
        (j ≠ i ∧ c.name ≠ n ∧ s.calls j = some c) := by
    intro j c hNow
    rw [hCalls] at hNow
    split at hNow
    · next hj =>
      obtain ⟨u, hStage, rfl⟩ := Option.map_eq_some_iff.mp hNow
      exact .inl ⟨hj, rfl, hStage⟩
    · next hj => exact .inr ⟨hj, fun hName => hj ((hOnly hNow).mp hName), hNow⟩
  have hStays : ∀ {j c}, s.calls j = some c → c.name ≠ n →
      ((s.withDeployment d).withCall i (t.map (StartCall.mk n))).calls j = some c := by
    intro j c hBefore hName
    rw [hCalls, if_neg fun hj => hName ((hOnly hBefore).mpr hj)]
    exact hBefore
  constructor
  case onePerName =>
    exact hOnce
  case ownIds =>
    exact hIds
  case idsBelow =>
    exact hBelow
  case callHolds =>
    intro j c hNow hHolds
    rcases hCases hNow with ⟨-, hName, hStage⟩ | ⟨-, hName, hBefore⟩
    · rw [hName]
      exact hAt.holds _ hStage hHolds
    · exact (hSlots hName).trans (h.callHolds hBefore hHolds)
  case callLive =>
    intro j id c hNow hPublished
    rcases hCases hNow with ⟨-, hName, hStage⟩ | ⟨-, hName, hBefore⟩
    · rw [hName]
      rw [hPublished] at hStage
      exact hAt.live id hStage
    · exact (hSlots hName).trans (h.callLive hBefore hPublished)
  case callOwn =>
    intro j k c c' hNow hNow' hSame
    rcases hCases hNow with ⟨hj, hName, -⟩ | ⟨-, hName, hBefore⟩ <;>
      rcases hCases hNow' with ⟨hk, hName', -⟩ | ⟨-, hName', hBefore'⟩
    · rw [hj, hk]
    · exact absurd (hSame.symm.trans hName) hName'
    · exact absurd (hSame.trans hName') hName
    · exact h.callOwn hBefore hBefore' hSame
  case startingHeld =>
    intro m hStarting
    by_cases hm : m = n
    · subst hm
      obtain ⟨u, hStage, hHolds⟩ := hAt.held hStarting
      refine ⟨i, ⟨m, u⟩, ?_, rfl, hHolds⟩
      rw [Scene.withCall_self, Option.mem_def.mp hStage]
      rfl
    · obtain ⟨j, c, hBefore, rfl, hHolds⟩ := h.startingHeld ((hSlots hm).symm.trans hStarting)
      exact ⟨j, c, hStays hBefore hm, rfl, hHolds⟩
  case callWatched =>
    intro j id c hNow hSession
    rcases hCases hNow with ⟨-, hName, hStage⟩ | ⟨-, -, hBefore⟩
    · rw [hName]
      exact hAt.watched _ hStage id hSession
    · exact hLives _ (h.callWatched hBefore hSession)
  case lifeHeld =>
    intro l hMem hLeft
    by_cases hName : l.name = n
    · subst hName
      refine (hAt.lifeHeld l hMem rfl hLeft).imp_right fun hStage => ⟨i, ?_⟩
      rw [Scene.withCall_self, hStage]
      rfl
    · refine (h.lifeHeld l (hNew l hMem hName) hLeft).imp (hSlots hName).trans ?_
      rintro ⟨j, hBefore⟩
      exact ⟨j, hStays hBefore hName⟩
  case liveKnown =>
    intro m id hLive
    by_cases hm : m = n
    · subst hm
      exact hAt.liveKnown id hLive
    · obtain ⟨l, hMem, hRest⟩ := h.liveKnown ((hSlots hm).symm.trans hLive)
      exact ⟨l, hLives l hMem, hRest⟩

/-- A start under way goes on, or is over, and no session is new. -/
theorem Scene.Sound.goOn (h : s.Sound) (hCall : s.calls i = some ⟨n, stage⟩) {d : Deployment}
    {t : Option StartStage} (hService : d.service = { s.deployment.service with slots := d.slots })
    (hOnce : d.slots.OnePerName) (hSlots : ∀ {m}, m ≠ n → d.slots.slot? m = s.slot? m)
    (hAt : d.SoundAt n t) :
    ((s.withDeployment d).withCall i (t.map (StartCall.mk n))).Sound := by
  have hLives : d.lives = s.deployment.lives := by
    rw [Deployment.lives, hService]
    rfl
  have hNext : d.service.nextSession = s.deployment.service.nextSession := by rw [hService]
  refine h.change (h.only hCall) hOnce ?_ ?_ hSlots ?_ ?_ hAt
  · rw [Deployment.OwnIds, hLives]
    exact h.ownIds
  · rw [hLives, hNext]
    exact h.idsBelow
  · rw [hLives]
    exact fun _ => id
  · rw [hLives]
    exact fun _ hMem _ => hMem

end OneScript

-- ---------------------------------------------------------------------------
-- Steps that leave slots and lives alone
-- ---------------------------------------------------------------------------

theorem sound_of_sameBoard {s : Scene} (h : s.Sound) {d : Deployment}
    (hSame : SameBoard s.deployment d) : (s.withDeployment d).Sound := by
  have hSlot : ∀ n, (s.withDeployment d).slot? n = s.slot? n := by
    intro n
    rw [Scene.slot?, Scene.slot?, Scene.withDeployment_deployment, hSame.slots]
  have hLives : (s.withDeployment d).deployment.lives = s.deployment.lives := hSame.lives
  constructor
  case onePerName =>
    exact hSame.slots ▸ h.onePerName
  case ownIds =>
    exact hSame.ownIds h.ownIds
  case idsBelow =>
    intro l hMem
    rw [hLives] at hMem
    exact hSame.next ▸ h.idsBelow l hMem
  case callHolds =>
    intro i c hCall hHolds
    rw [hSlot]
    exact h.callHolds hCall hHolds
  case callLive =>
    intro i id c hCall hStage
    rw [hSlot]
    exact h.callLive hCall hStage
  case callOwn =>
    exact h.callOwn
  case startingHeld =>
    intro n hStarting
    rw [hSlot] at hStarting
    exact h.startingHeld hStarting
  case callWatched =>
    intro i id c hCall hSession
    rw [hLives]
    exact h.callWatched hCall hSession
  case lifeHeld =>
    intro l hMem hLeft
    rw [hLives] at hMem
    rw [hSlot]
    exact h.lifeHeld l hMem hLeft
  case liveKnown =>
    intro n id hLive
    rw [hSlot] at hLive
    rw [hLives]
    exact h.liveKnown hLive

/-- A start that holds its slot goes on holding it, with no session of its own yet. -/
theorem sound_withCall {s : Scene} (h : s.Sound) {i : Nat} {n : ScriptName}
    {stage stage' : StartStage} (hCall : s.calls i = some ⟨n, stage⟩) (hHolds : stage.HoldsSlot)
    (hNone : stage.session? = none) (hHolds' : stage'.HoldsSlot) (hNone' : stage'.session? = none) :
    (s.withCall i (some ⟨n, stage'⟩)).Sound := by
  have hBefore := h.soundAt hCall
  refine h.goOn (d := s.deployment) (t := some stage') hCall rfl h.onePerName (fun _ => rfl) ?_
  constructor
  case holds =>
    rintro _ ⟨⟩ -
    exact hBefore.holds stage rfl hHolds
  case live =>
    rintro id ⟨⟩
    exact hHolds'.elim
  case held =>
    exact fun _ => ⟨stage', rfl, hHolds'⟩
  case watched =>
    rintro _ ⟨⟩ id hSession
    cases hNone'.symm.trans hSession
  case lifeHeld =>
    intro l hMem hName hLeft
    refine (hBefore.lifeHeld l hMem hName hLeft).imp_right ?_
    rintro ⟨⟩
    cases hNone
  case liveKnown =>
    exact hBefore.liveKnown

-- ---------------------------------------------------------------------------
-- The steps of a start
-- ---------------------------------------------------------------------------

theorem sound_reserve {s : Scene} (h : s.Sound) {i : Nat} {n : ScriptName} {slots : Slots}
    (hFree : s.calls i = none) (hReserve : s.deployment.slots.reserve n = .ok slots) :
    ((s.withDeployment (s.deployment.withSlots slots)).withCall i
      (some ⟨n, .reserved⟩)).Sound := by
  obtain ⟨hNone, hSlot⟩ := Slots.slot?_reserve hReserve
  refine h.change (t := some .reserved) ?_ (Slots.onePerName_reserve h.onePerName hReserve)
    h.ownIds h.idsBelow (fun hm => (hSlot _).trans (if_neg hm)) (fun _ => id) (fun _ hMem _ => hMem) ?_
  · intro j c hAt
    constructor
    · rintro rfl
      exact absurd hNone (h.slot?_ne_none hAt)
    · rintro rfl
      cases hFree.symm.trans hAt
  have hStarting : slots.slot? n = some .starting := (hSlot n).trans (if_pos rfl)
  constructor
  case holds =>
    exact fun _ _ _ => hStarting
  case live =>
    rintro id ⟨⟩
  case held =>
    exact fun _ => ⟨_, rfl, trivial⟩
  case watched =>
    rintro _ ⟨⟩ id ⟨⟩
  case lifeHeld =>
    rintro l hMem rfl hLeft
    -- no session had the slot, and no start was under way
    rcases h.lifeHeld l hMem hLeft with hLive | ⟨j, hAt⟩
    · cases hNone.symm.trans hLive
    · exact absurd hNone (h.slot?_ne_none hAt)
  case liveKnown =>
    intro id hLive
    cases hStarting.symm.trans hLive

theorem sound_spawn {s : Scene} (h : s.Sound) {i : Nat} {n : ScriptName}
    {found : Except Fault (List UInt8)} {session : Session} {d : Deployment}
    (hCall : s.calls i = some ⟨n, .cleared found⟩)
    (hSpawn : Deployment.spawn n s.deployment = (.ok session, d)) :
    ((s.withDeployment d).withCall i (some ⟨n, .spawned session.id⟩)).Sound := by
  obtain ⟨hLife, hSlots, hSessions, hNext, -⟩ := spawn_ok hSpawn
  have hId : session.id = s.deployment.service.nextSession := congrArg Life.id hLife
  have hLives : d.lives = ⟨session.id, n, .watching⟩ :: s.deployment.lives := by
    rw [Deployment.lives, hSessions, List.map_cons, hLife, hId]
    rfl
  have hSlot : ∀ {m}, d.slots.slot? m = s.slot? m := by
    intro m
    rw [hSlots]
    rfl
  have hBefore := h.soundAt hCall
  refine h.change (t := some (.spawned session.id)) (h.only hCall) (hSlots ▸ h.onePerName) ?_ ?_
    (fun _ => hSlot) ?_ ?_ ?_
  · rw [Deployment.OwnIds, hLives, List.map_cons, List.nodup_cons]
    refine ⟨fun hMem => ?_, h.ownIds⟩
    obtain ⟨l, hKnown, hSame⟩ := List.mem_map.mp hMem
    have hBelow := h.idsBelow l hKnown
    simp only at hSame
    omega
  · rw [hLives, hNext]
    intro l hMem
    rcases List.mem_cons.mp hMem with rfl | hOld
    · simp only
      omega
    · have hBelow := h.idsBelow l hOld
      omega
  · rw [hLives]
    exact fun _ => List.mem_cons_of_mem _
  · rw [hLives]
    intro l hMem hName
    exact (List.mem_cons.mp hMem).resolve_left (by rintro rfl; exact hName rfl)
  constructor
  case holds =>
    rintro _ ⟨⟩ -
    exact hSlot.trans (hBefore.holds _ rfl trivial)
  case live =>
    rintro id ⟨⟩
  case held =>
    exact fun _ => ⟨_, rfl, trivial⟩
  case watched =>
    rintro _ ⟨⟩ id ⟨⟩
    rw [hLives]
    exact List.mem_cons_self
  case lifeHeld =>
    rw [hLives]
    intro l hMem hName hLeft
    rcases List.mem_cons.mp hMem with rfl | hOld
    · exact Or.inr rfl
    · refine (hBefore.lifeHeld l hOld hName hLeft).imp hSlot.trans ?_
      rintro ⟨⟩
  case liveKnown =>
    intro id hLive
    obtain ⟨l, hMem, hRest⟩ := hBefore.liveKnown id (hSlot.symm.trans hLive)
    exact ⟨l, hLives ▸ List.mem_cons_of_mem _ hMem, hRest⟩

/-- The session that a start publishes is of its script. -/
theorem Scene.Sound.session_name {s : Scene} (h : s.Sound) {i : Nat} {n : ScriptName}
    {session : Session} (hCall : s.calls i = some ⟨n, .spawned session.id⟩)
    (hSession : s.deployment.service.session? session.id = some session) : session.name = n := by
  have hLife : session.life = ⟨session.id, n, .watching⟩ :=
    life_eq_of_id_eq h.ownIds (life_mem hSession) (h.callWatched hCall rfl) rfl
  exact congrArg Life.name hLife

theorem sound_publish {s : Scene} (h : s.Sound) {i : Nat} {n : ScriptName} {session : Session}
    (hCall : s.calls i = some ⟨n, .spawned session.id⟩)
    (hSession : s.deployment.service.session? session.id = some session) :
    ((s.withDeployment (s.deployment.publish session)).withCall i
      (some ⟨n, .published session.id⟩)).Sound := by
  obtain rfl : session.name = n := h.session_name hCall hSession
  have hBefore := h.soundAt hCall
  have hWatched := h.callWatched hCall rfl
  have hStarting : s.slot? session.name = some .starting := h.callHolds hCall trivial
  have hSlot : ∀ m, (s.deployment.publish session).slots.slot? m =
      if m = session.name then some (.live session.id) else s.slot? m :=
    fun m => Slots.slot?_publish _ _ m _
  have hLive : (s.deployment.publish session).slots.slot? session.name = some (.live session.id) :=
    (hSlot _).trans (if_pos rfl)
  refine h.goOn (t := some (.published session.id)) hCall rfl
    (Slots.onePerName_publish h.onePerName _ _) (fun hm => (hSlot _).trans (if_neg hm)) ?_
  constructor
  case holds =>
    rintro _ ⟨⟩ hHolds
    exact hHolds.elim
  case live =>
    rintro id ⟨⟩
    exact hLive
  case held =>
    intro hNow
    cases hLive.symm.trans hNow
  case watched =>
    rintro _ ⟨⟩ id ⟨⟩
    exact hWatched
  case lifeHeld =>
    intro l hMem hName hLeft
    rcases hBefore.lifeHeld l hMem hName hLeft with hEarlier | hSpawned
    · cases hStarting.symm.trans hEarlier
    · have hId : session.id = l.id := by simpa using hSpawned
      exact Or.inl (hId ▸ hLive)
  case liveKnown =>
    intro id hNow
    cases hLive.symm.trans hNow
    exact ⟨_, hWatched, rfl, rfl, id⟩

theorem sound_vacate {s : Scene} (h : s.Sound) {i : Nat} {n : ScriptName} {f : Fault}
    (hCall : s.calls i = some ⟨n, .failed f⟩) :
    ((s.withDeployment (s.deployment.vacate n)).withCall i none).Sound := by
  have hStarting : s.slot? n = some .starting := h.callHolds hCall trivial
  have hSlot : ∀ m, (s.deployment.vacate n).slots.slot? m =
      if m = n then none else s.slot? m := by
    intro m
    exact (Slots.slot?_vacate _ n m).trans (if_congr (and_iff_left hStarting) rfl rfl)
  have hNone : (s.deployment.vacate n).slots.slot? n = none := (hSlot n).trans (if_pos rfl)
  have hBefore := h.soundAt hCall
  refine h.goOn (t := none) hCall rfl (Slots.onePerName_vacate h.onePerName n)
    (fun hm => (hSlot _).trans (if_neg hm)) ?_
  constructor
  case holds =>
    rintro _ ⟨⟩
  case live =>
    rintro id ⟨⟩
  case held =>
    intro hNow
    cases hNone.symm.trans hNow
  case watched =>
    rintro _ ⟨⟩
  case lifeHeld =>
    intro l hMem hName hLeft
    -- a session that has not left would have the slot, or be spawned
    rcases hBefore.lifeHeld l hMem hName hLeft with hLive | hSpawned
    · cases hStarting.symm.trans hLive
    · cases hSpawned
  case liveKnown =>
    intro id hNow
    cases hNone.symm.trans hNow

theorem sound_handOver {s : Scene} (h : s.Sound) {i id : Nat} {n : ScriptName}
    (hCall : s.calls i = some ⟨n, .published id⟩) : (s.withCall i none).Sound := by
  have hBefore := h.soundAt hCall
  have hLive : s.slot? n = some (.live id) := hBefore.live id rfl
  refine h.goOn (d := s.deployment) (t := none) hCall rfl h.onePerName (fun _ => rfl) ?_
  constructor
  case holds =>
    rintro _ ⟨⟩
  case live =>
    rintro _ ⟨⟩
  case held =>
    intro hNow
    cases hLive.symm.trans hNow
  case watched =>
    rintro _ ⟨⟩
  case lifeHeld =>
    intro l hMem hName hLeft
    refine (hBefore.lifeHeld l hMem hName hLeft).imp_right ?_
    rintro ⟨⟩
  case liveKnown =>
    exact hBefore.liveKnown

-- ---------------------------------------------------------------------------
-- The steps of a supervisor
-- ---------------------------------------------------------------------------

/-- A supervisor gives back at most the slot of its own session. -/
theorem Supervised.slot? {d d' : Deployment} {l : Life} {supervision : Supervision}
    (h : Supervised d l supervision d') {n : ScriptName}
    (hOther : d.slots.slot? n ≠ some (.live l.id)) : d'.slots.slot? n = d.slots.slot? n := by
  rcases h.slots with ⟨-, -, hSlots⟩ | ⟨-, hSlots⟩
  · rw [hSlots, Slots.slot?_release]
    refine if_neg fun hReleased => hOther ?_
    rw [hReleased.1]
    exact hReleased.2
  · rw [hSlots]

/-- What a slot holds after a supervisor's step it held before. -/
theorem Supervised.slot?_eq_some {d d' : Deployment} {l : Life} {supervision : Supervision}
    (h : Supervised d l supervision d') {n : ScriptName} {x : Slot}
    (hAfter : d'.slots.slot? n = some x) : d.slots.slot? n = some x := by
  rcases h.slots with ⟨-, -, hSlots⟩ | ⟨-, hSlots⟩
  · rw [hSlots, Slots.slot?_release] at hAfter
    split at hAfter
    · cases hAfter
    · exact hAfter
  · rwa [hSlots] at hAfter

/-- The sessions after a supervisor's step: its own, and the others as they were. -/
theorem Supervised.mem_lives {d d' : Deployment} {l x : Life} {supervision : Supervision}
    (h : Supervised d l supervision d') :
    x ∈ d'.lives ↔ ∃ y ∈ d.lives, (if y.id = l.id then { l with supervision } else y) = x := by
  rw [h.lives, List.mem_map]

/-- A supervisor's step leaves the ids of the sessions as they are. -/
theorem Supervised.ids {d d' : Deployment} {l : Life} {supervision : Supervision}
    (h : Supervised d l supervision d') : d'.lives.map Life.id = d.lives.map Life.id := by
  rw [h.lives, List.map_map]
  apply List.map_congr_left
  intro y _
  by_cases hId : y.id = l.id <;> simp [hId]

/-- After a supervisor's step a session that has not left still has its slot, or is a start's. -/
theorem Scene.Sound.lifeHeld_supervised {s : Scene} (h : s.Sound) {l : Life}
    {supervision : Supervision} {d : Deployment} (hStep : Supervised s.deployment l supervision d)
    {x : Life} (hKnown : x ∈ d.lives) (hLeft : ¬ x.supervision.HasLeft) :
    d.slots.slot? x.name = some (.live x.id) ∨
      ∃ i, s.calls i = some ⟨x.name, .spawned x.id⟩ := by
  obtain ⟨y, hBefore, rfl⟩ := hStep.mem_lives.mp hKnown
  by_cases hId : y.id = l.id
  · -- the session itself: it has not left, so it keeps its slot
    rw [if_pos hId] at hLeft ⊢
    rcases hStep.slots with ⟨-, hAfter, -⟩ | ⟨hIff, hSlots⟩
    · exact absurd hAfter hLeft
    · rw [hSlots]
      exact h.lifeHeld l hStep.known fun hEarlier => hLeft (hIff.mpr hEarlier)
  · rw [if_neg hId] at hLeft ⊢
    refine (h.lifeHeld y hBefore hLeft).imp_left fun hLive => (hStep.slot? ?_).trans hLive
    intro hOwn
    exact hId (by simpa using hLive.symm.trans hOwn)

/-- After a supervisor's step a live slot is that of a session that has not left. -/
theorem Scene.Sound.liveKnown_supervised {s : Scene} (h : s.Sound) {l : Life}
    {supervision : Supervision} {d : Deployment} (hStep : Supervised s.deployment l supervision d)
    {n : ScriptName} {id : Nat} (hLive : d.slots.slot? n = some (.live id)) :
    ∃ x ∈ d.lives, x.id = id ∧ x.name = n ∧ ¬ x.supervision.HasLeft := by
  obtain ⟨y, hKnown, rfl, rfl, hLeft⟩ := h.liveKnown (hStep.slot?_eq_some hLive)
  by_cases hId : y.id = l.id
  · obtain rfl : y = l := life_eq_of_id_eq h.ownIds hKnown hStep.known hId
    refine ⟨_, hStep.mem_lives.mpr ⟨y, hKnown, if_pos rfl⟩, rfl, rfl, ?_⟩
    rcases hStep.slots with ⟨-, -, hSlots⟩ | ⟨hIff, -⟩
    · -- had it left, its slot would be free
      have hReleased : d.slots.slot? y.name = none := by
        rw [hSlots, Slots.slot?_release]
        exact if_pos ⟨rfl, hStep.slot?_eq_some hLive⟩
      cases hReleased.symm.trans hLive
    · exact fun hAfter => hLeft (hIff.mp hAfter)
  · exact ⟨y, hStep.mem_lives.mpr ⟨y, hKnown, if_neg hId⟩, rfl, rfl, hLeft⟩

theorem sound_supervise {s : Scene} (h : s.Sound) {l : Life} {supervision : Supervision}
    {d : Deployment} (hOver : ∀ i c, s.calls i = some c → c.stage.session? ≠ some l.id)
    (hStep : Supervised s.deployment l supervision d) : (s.withDeployment d).Sound := by
  constructor
  case onePerName =>
    show d.slots.OnePerName
    rcases hStep.slots with ⟨-, -, hSlots⟩ | ⟨-, hSlots⟩
    · rw [hSlots]
      exact Slots.onePerName_release h.onePerName _ _
    · rw [hSlots]
      exact h.onePerName
  case ownIds =>
    show (d.lives.map Life.id).Nodup
    rw [hStep.ids]
    exact h.ownIds
  case idsBelow =>
    intro x hx
    obtain ⟨y, hKnown, rfl⟩ := hStep.mem_lives.mp hx
    have hBelow := h.idsBelow y hKnown
    show _ < d.service.nextSession
    rw [hStep.next]
    split
    · next hId => exact hId ▸ hBelow
    · exact hBelow
  case callHolds =>
    intro i c hCall hHolds
    have hBefore := h.callHolds hCall hHolds
    refine (hStep.slot? ?_).trans hBefore
    intro hLive
    cases hBefore.symm.trans hLive
  case callLive =>
    intro i id c hCall hStage
    have hBefore := h.callLive hCall hStage
    refine (hStep.slot? ?_).trans hBefore
    intro hLive
    obtain rfl : id = l.id := by simpa using hBefore.symm.trans hLive
    exact hOver i c hCall (by rw [hStage]; rfl)
  case callOwn =>
    exact h.callOwn
  case startingHeld =>
    intro n hStarting
    exact h.startingHeld (hStep.slot?_eq_some hStarting)
  case callWatched =>
    intro i id c hCall hSession
    refine hStep.mem_lives.mpr ⟨_, h.callWatched hCall hSession, if_neg ?_⟩
    rintro rfl
    exact hOver i c hCall hSession
  case lifeHeld =>
    exact fun x hx hLeft => h.lifeHeld_supervised hStep hx hLeft
  case liveKnown =>
    exact fun hLive => h.liveKnown_supervised hStep hLive

-- ---------------------------------------------------------------------------
-- Runs
-- ---------------------------------------------------------------------------

/-- Every step keeps slots, sessions and starts fitting together. -/
theorem step_sound {s s' : Scene} {a : Action} (h : s.Sound) (hStep : Step s a s') : s'.Sound := by
  cases hStep with
  | reserve hFree hReserve =>
    obtain ⟨slots, hSlots, rfl⟩ := reserve_ok hReserve
    exact sound_reserve h hFree hSlots
  | refuse hFree hReserve =>
    rw [reserve_error hReserve]
    exact h
  | check hCall hCheck =>
    have hSame := sound_of_sameBoard h (check_sameBoard hCheck)
    exact sound_withCall hSame hCall trivial rfl trivial rfl
  | reject hCall hCheck =>
    have hSame := sound_of_sameBoard h (check_sameBoard hCheck)
    exact sound_withCall hSame hCall trivial rfl trivial rfl
  | spawn hCall hSpawn => exact sound_spawn h hCall hSpawn
  | spawnFails hCall hSpawn =>
    rw [spawn_error hSpawn]
    exact sound_withCall h hCall trivial rfl trivial rfl
  | publish hCall hSession => exact sound_publish h hCall hSession
  | vacate hCall => exact sound_vacate h hCall
  | handOver hCall => exact sound_handOver h hCall
  | supervise hOver hSupervise =>
    obtain ⟨l, supervision, rfl, hStep⟩ := superviseSeeing?_cases h.ownIds hSupervise
    exact sound_supervise h hOver hStep
  | upload fileName bytes => exact sound_of_sameBoard h (upload_sameBoard fileName bytes _)
  | delete n => exact sound_of_sameBoard h (delete_sameBoard n _)
  | move m => exact sound_of_sameBoard h (move_sameBoard h.ownIds m)

theorem initial_sound (config : Config) (workingDir hostname : String) (host : Host) :
    (Scene.initial config workingDir hostname host).Sound := by
  constructor
  case onePerName =>
    exact Slots.onePerName_nil
  case ownIds =>
    exact List.nodup_nil
  case idsBelow =>
    intro l hMem
    cases hMem
  case callHolds =>
    intro i c hCall
    cases hCall
  case callLive =>
    intro i id c hCall
    cases hCall
  case callOwn =>
    intro i j c c' hCall
    cases hCall
  case startingHeld =>
    intro n hStarting
    cases hStarting
  case callWatched =>
    intro i id c hCall
    cases hCall
  case lifeHeld =>
    intro l hMem
    cases hMem
  case liveKnown =>
    intro n id hLive
    cases hLive

/-- Slots, sessions and starts fit together along every run. -/
theorem reaches_sound {Allowed : Scene → Action → Scene → Prop} {s₀ s : Scene} (h : s₀.Sound)
    (hReach : Reaches Allowed s₀ s) : s.Sound := by
  induction hReach with
  | refl => exact h
  | step _ hStep _ ih => exact step_sound ih hStep

end ScriptWarden
