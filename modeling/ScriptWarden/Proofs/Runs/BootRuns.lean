import ScriptWarden.Boot.Launcher
import ScriptWarden.Proofs.Runs.Episodes
import ScriptWarden.Proofs.Runs.LaunchedFile
import ScriptWarden.Proofs.Runs.RecordedHubs

/-!
# The designated script, run at boot

The launcher reads which script is designated, starts it, subscribes to its session and copies the
output until the end, and ends as the script did. It runs in a service of its own, where nobody else
makes requests. Between any two of its steps the supervisor of the session, its readers and its
writer may act, and the host may become any other; and the launcher may be cancelled at any time
after it has subscribed, and again.

* `Booting` — the launcher in its service, with what has happened so far.
* `Booting.Step`, `Booting.Reaches` — who acts, and what runs lead to.
* `Booting.Kept`, `Booting.Follows` — what is kept, of the service and of the session.

## Results

* `Booting.step_kept` — one step keeps it.
* `Booting.Reaches.kept` — every run keeps it.
-/

namespace ScriptWarden

-- ---------------------------------------------------------------------------
-- What the launcher is told
-- ---------------------------------------------------------------------------

/-- The output that a receiver is told of. -/
def Received.output : Received SessionEvent → List UInt8
  | .value (.output chunk) => chunk
  | .value (.ended _) | .lagged _ | .empty | .closed => []

/-- The end that a receiver is told of. -/
def Received.exit? : Received SessionEvent → Option Exit
  | .value (.ended exit) => some exit
  | .value (.output _) | .lagged _ | .empty | .closed => none

namespace BootRun

variable {b b' : BootRun} {d d' : Deployment}

/-- What the launcher begins with when it has subscribed to a session. -/
def joined (n : ScriptName) (x : Session) : BootRun where
  script := n
  session := x.id
  receiver := x.subscribe.1.receiver
  copied := x.subscribe.1.history.flatten
  exit := x.subscribe.1.ended

/-- What the launcher takes: output is copied, and an end is the end. -/
theorem take_eq {got : Received SessionEvent} (hNews : Hub.isNews got = true) (hOpen : b.exit = none)
    (runtime : Duration) :
    b.take runtime got = { b with copied := b.copied ++ got.output, exit := got.exit? } := by
  obtain ⟨script, session, receiver, copied, stopRequested, exit⟩ := b
  cases hOpen
  cases got with
  | value e => cases e <;> simp [take, Received.output, Received.exit?]
  | lagged missed => simp [take, Received.output, Received.exit?]
  | empty => cases hNews
  | closed => cases hNews

/-- The launcher copies until it knows the end, and takes what its receiver gets. -/
theorem copy?_eq_some : b.copy? d = some (b', d') ↔
    b.exit = none ∧ (d.receive b.session b.receiver).1 ≠ .empty ∧
      b' = b.take ((d'.service.session? b.session).elim {} (·.runtime d'.host.now))
        (d.receive b.session b.receiver).1 ∧
      d' = (d.receive b.session b.receiver).2 := by
  rw [copy?]
  cases b.exit with
  | some exit => simp
  | none =>
    rw [Option.isSome_none, if_neg Bool.false_ne_true]
    obtain ⟨got, after⟩ := d.receive b.session b.receiver
    cases got with
    | empty => simp
    | _ =>
      simp only [Option.some.injEq, Prod.mk.injEq, ne_eq, reduceCtorEq, not_false_eq_true, true_and]
      constructor
      · rintro ⟨rfl, rfl⟩
        exact ⟨rfl, rfl⟩
      · rintro ⟨rfl, rfl⟩
        exact ⟨rfl, rfl⟩

/-- A run that copies stays that of its session. -/
theorem copy?_same (h : b.copy? d = some (b', d')) : b'.script = b.script ∧
    b'.session = b.session ∧ b'.receiver = b.receiver ∧ b'.stopRequested = b.stopRequested := by
  obtain ⟨-, -, rfl, -⟩ := copy?_eq_some.mp h
  generalize (d.receive b.session b.receiver).1 = got
  cases got with
  | value e => cases e <;> exact ⟨rfl, rfl, rfl, rfl⟩
  | _ => exact ⟨rfl, rfl, rfl, rfl⟩

/-- The script is asked to end once. -/
theorem cancel_eq (b : BootRun) (d : Deployment) : b.cancel d =
    if b.stopRequested then (b, d)
    else ({ b with stopRequested := true }, (Move.stopSession b.session).perform d) := by
  rw [cancel, Move.perform]
  cases d.service.session? b.session <;> rfl

/-- There is nothing to be copied only after the end, or when there is nothing yet. -/
theorem copy?_eq_none : b.copy? d = none ↔
    b.exit.isSome = true ∨ (d.receive b.session b.receiver).1 = .empty := by
  rw [copy?]
  cases b.exit with
  | some exit => simp
  | none =>
    rw [Option.isSome_none, if_neg Bool.false_ne_true]
    obtain ⟨got, after⟩ := d.receive b.session b.receiver
    cases got <;> simp

end BootRun

-- ---------------------------------------------------------------------------
-- The launcher in its service
-- ---------------------------------------------------------------------------

/-- What the launcher is at. -/
inductive BootStage where
  /-- Nothing is designated. -/
  | idle
  | failed (f : Fault)
  /-- A script is designated, which is to be started. -/
  | named (n : ScriptName)
  | starting (n : ScriptName) (stage : StartStage)
  /-- It has hold of the session. -/
  | holding (n : ScriptName) (session : Nat)
  | following (run : BootRun)

namespace BootStage

/-- What the launcher makes of a designation. -/
def ofDesignation : Except Fault (Option String) → BootStage
  | .error f => .failed f
  | .ok none => .idle
  | .ok (some text) =>
    match parseName text with
    | .error f => .failed f
    | .ok n => .named n

/-- A designation that cannot be read, or is no name of a script. -/
def Unfit (found : Except Fault (Option String)) (f : Fault) : Prop :=
  found = .error f ∨ ∃ text, found = .ok (some text) ∧ parseName text = .error f

/-- What can come of a designation. -/
theorem ofDesignation_cases (found : Except Fault (Option String)) :
    (∃ f, ofDesignation found = .failed f ∧ Unfit found f) ∨
      (ofDesignation found = .idle ∧ found = .ok none) ∨
      ∃ text n, ofDesignation found = .named n ∧ found = .ok (some text) ∧
        parseName text = .ok n := by
  rcases found with f | _ | text
  · exact .inl ⟨f, rfl, .inl rfl⟩
  · exact .inr (.inl ⟨rfl, rfl⟩)
  · cases hName : parseName text with
    | error f => exact .inl ⟨f, by rw [ofDesignation, hName], .inr ⟨text, rfl, hName⟩⟩
    | ok n => exact .inr (.inr ⟨text, n, by rw [ofDesignation, hName], rfl, hName⟩)

/-- The script that is run. -/
@[simp] def script? : BootStage → Option ScriptName
  | .idle | .failed _ => none
  | .named n | .starting n _ | .holding n _ => some n
  | .following b => some b.script

/-- The start that is under way. -/
@[simp] def call? : BootStage → Option StartCall
  | .starting n stage => some ⟨n, stage⟩
  | .idle | .failed _ | .named _ | .holding _ _ | .following _ => none

/-- The session that was started, and its script. -/
@[simp] def owner? : BootStage → Option (Nat × ScriptName)
  | .starting n stage => stage.session?.map (·, n)
  | .holding n id => some (id, n)
  | .following b => some (b.session, b.script)
  | .idle | .failed _ | .named _ => none

/-- The run that is followed. -/
@[simp] def run? : BootStage → Option BootRun
  | .following b => some b
  | .idle | .failed _ | .named _ | .starting _ _ | .holding _ _ => none

/-- What the launcher or its start has failed with. -/
@[simp] def fault? : BootStage → Option Fault
  | .failed f | .starting _ (.failed f) => some f
  | .starting _ .reserved | .starting _ (.cleared _) => none
  | .starting _ (.spawned _) | .starting _ (.published _) => none
  | .idle | .named _ | .holding _ _ | .following _ => none

/-- Whether the script was found to be one that may run. -/
@[simp] def IsCleared : BootStage → Prop
  | .starting _ (.cleared _) | .starting _ (.spawned _) | .starting _ (.published _) => True
  | .starting _ .reserved | .starting _ (.failed _) => False
  | .holding _ _ | .following _ => True
  | .idle | .failed _ | .named _ => False

/-- Where there is a session its script was found to be one that may run. -/
theorem isCleared_of_owner? {t : BootStage} {id : Nat} {n : ScriptName}
    (h : t.owner? = some (id, n)) : t.script? = some n ∧ t.IsCleared := by
  cases t with
  | starting m stage => cases stage <;> cases h <;> exact ⟨rfl, trivial⟩
  | _ => cases h <;> exact ⟨rfl, trivial⟩

/-- Whether the script was asked to end. -/
@[simp] def stopRequested : BootStage → Bool
  | .following b => b.stopRequested
  | _ => false

/-- What the launcher has answered. -/
def answer? : BootStage → Option (Except Fault BootOutcome)
  | .idle => some (.ok .nothing)
  | .failed f => some (.error f)
  | .following b => b.outcome?.map .ok
  | .named _ | .starting _ _ | .holding _ _ => none

end BootStage

/-- The launcher in its service. -/
structure Booting where
  scene : Scene
  stage : BootStage
  /-- What it was told of the session. -/
  told : List (Received SessionEvent) := []
  /-- All steps of the service, newest first, kept in mind for statements only. -/
  past : List Occurrence := []

/-- Whether an action is one that goes on by itself: of a supervisor, a reader, a writer or the host,
or of somebody who remembers what was found earlier. -/
def Action.IsBeside : Action → Prop
  | .supervise _ | .move (.readOutput _ _) | .move (.writeInput _) | .move (.world _)
  | .move (.remember _) => True
  | _ => False

/-- Whether a step asks a session to end. -/
def Occurrence.isStopRequest (e : Occurrence) : Bool :=
  match e.action with
  | .move (.stopSession _) => true
  | _ => false

/-- Whether the file of a script was there when it was checked, and the verdict let it run. -/
def Occurrence.Clears (n : ScriptName) (e : Occurrence) : Prop :=
  e.action = .check 0 ∧
    (∃ bytes, e.before.registry.bytes e.before.files n = .ok bytes) ∧
    ∃ verdict, (e.before.registry.verdict e.before.files n).1 = .ok verdict ∧
      verdict.isExecutable = true

/-- Whether a step of a start was refused: the slot of the script, the script, or its process. -/
def Occurrence.Refuses (n : ScriptName) (f : Fault) (e : Occurrence) : Prop :=
  (e.action = .reserve 0 n ∧ (Deployment.reserve n e.before.deployment).1 = .error f) ∨
  (e.action = .check 0 ∧ (Deployment.check n e.before.deployment).1 = .error f) ∨
  (e.action = .spawn 0 ∧ (Deployment.spawn n e.before.deployment).1 = .error f)

/-- Why a launcher can fail: by the designation, or because a step of the start was refused. -/
def BootFails (designated : Except Fault (Option String)) (past : List Occurrence) (f : Fault) :
    Prop :=
  BootStage.Unfit designated f ∨ ∃ text n, designated = .ok (some text) ∧
    parseName text = .ok n ∧ ∃ e ∈ past, e.Refuses n f

theorem BootFails.later {designated : Except Fault (Option String)} {past : List Occurrence}
    {f : Fault} (h : BootFails designated past f) (e : Occurrence) :
    BootFails designated (e :: past) f := by
  rcases h with hUnfit | ⟨text, n, hFound, hName, e', hMem, hRefuses⟩
  · exact .inl hUnfit
  · exact .inr ⟨text, n, hFound, hName, e', List.mem_cons_of_mem _ hMem, hRefuses⟩

/-- The sessions that there are, and their scripts. -/
def Deployment.owners (d : Deployment) : List (Nat × ScriptName) :=
  d.lives.map fun l => (l.id, l.name)

/-- What the launcher does. -/
inductive BootAct where
  /-- Something goes on by itself. -/
  | beside
  | start
  | subscribe
  | copy
  | cancel

/-- Whether a step is one that the launcher takes of itself. -/
def BootAct.IsOwn : BootAct → Prop
  | .start | .subscribe | .copy => True
  | .beside | .cancel => False

namespace Booting

/-- The launcher when it has read the designation. -/
def begun (s : Scene) : Booting where
  scene := s
  stage := .ofDesignation s.deployment.store.designated

/-- The launcher after a step of its service. -/
def next (v : Booting) (a : Action) (told : Option Happening) (s : Scene) (stage : BootStage) :
    Booting := { v with scene := s, stage, past := ⟨v.scene, a, told⟩ :: v.past }

/-- The launcher when it has been told something. -/
def hearing (v : Booting) (b : BootRun) (b' : BootRun) (d : Deployment) : Booting :=
  { v.next (.move (.receive b.session b.receiver)) none (v.scene.withDeployment d) (.following b') with
    told := v.told ++ [(v.scene.deployment.receive b.session b.receiver).1] }

/-- The launcher when it has been cancelled. -/
def cancelled (v : Booting) (b : BootRun) : Booting :=
  let (b', d) := b.cancel v.scene.deployment
  { v with
    scene := v.scene.withDeployment d
    stage := .following b'
    past := if b.stopRequested then v.past
      else ⟨v.scene, .move (.stopSession b.session), none⟩ :: v.past }

/-- A launcher that has asked the script to end is not cancelled again. -/
theorem cancelled_again {v : Booting} {b : BootRun} (hStage : v.stage = .following b)
    (hAsked : b.stopRequested = true) : v.cancelled b = v := by
  obtain ⟨s, stage, told, past⟩ := v
  obtain rfl : stage = .following b := hStage
  rw [cancelled, BootRun.cancel_eq, if_pos hAsked, if_pos hAsked]
  rfl

theorem cancelled_first (v : Booting) {b : BootRun} (hNot : b.stopRequested = false) :
    v.cancelled b = v.next (.move (.stopSession b.session)) none
      (v.scene.withDeployment ((Move.stopSession b.session).perform v.scene.deployment))
      (.following { b with stopRequested := true }) := by
  have hNever : ¬ b.stopRequested = true := by simp [hNot]
  rw [cancelled, BootRun.cancel_eq, if_neg hNever, if_neg hNever]
  rfl

/-- One step. -/
inductive Step (v : Booting) : BootAct → Booting → Prop
  | beside {a : Action} {told : Option Happening} {s : Scene} :
      a.IsBeside → Happens v.scene a told s → Step v .beside (v.next a told s v.stage)
  | reserve {n : ScriptName} {stage : StartStage} {s : Scene} :
      v.stage = .named n → Happens v.scene (.reserve 0 n) none s → s.calls 0 = some ⟨n, stage⟩ →
      Step v .start (v.next (.reserve 0 n) none s (.starting n stage))
  | refused {n : ScriptName} {f : Fault} {d : Deployment} :
      v.stage = .named n → Deployment.reserve n v.scene.deployment = (.error f, d) →
      Step v .start (v.next (.reserve 0 n) none (v.scene.withDeployment d) (.failed f))
  | start {n : ScriptName} {stage stage' : StartStage} {a : Action} {s : Scene} :
      v.stage = .starting n stage → a.caller? = some 0 → Happens v.scene a none s →
      s.calls 0 = some ⟨n, stage'⟩ → Step v .start (v.next a none s (.starting n stage'))
  | startFailed {n : ScriptName} {f : Fault} {s : Scene} :
      v.stage = .starting n (.failed f) → Happens v.scene (.vacate 0) none s →
      Step v .start (v.next (.vacate 0) none s (.failed f))
  | started {n : ScriptName} {id : Nat} {s : Scene} :
      v.stage = .starting n (.published id) → Happens v.scene (.handOver 0) none s →
      Step v .start (v.next (.handOver 0) none s (.holding n id))
  | subscribe {n : ScriptName} {id : Nat} {x : Session} :
      v.stage = .holding n id → v.scene.deployment.service.session? id = some x →
      Step v .subscribe (v.next (.move (.watchSession id)) none
        (v.scene.withDeployment (Deployment.subscribe x v.scene.deployment).2)
        (.following (.joined n x)))
  | copy {b b' : BootRun} {d : Deployment} :
      v.stage = .following b → b.copy? v.scene.deployment = some (b', d) →
      Step v .copy (v.hearing b b' d)
  | cancel {b : BootRun} :
      v.stage = .following b → b.exit = none → Step v .cancel (v.cancelled b)

/-- What runs lead to when every act is one that the condition allows. -/
inductive Reaches (Allowed : BootAct → Prop) (v₀ : Booting) : Booting → Prop
  | refl : Reaches Allowed v₀ v₀
  | step {v v' : Booting} {a : BootAct} :
      Reaches Allowed v₀ v → Step v a v' → Allowed a → Reaches Allowed v₀ v'

-- ---------------------------------------------------------------------------
-- What is kept
-- ---------------------------------------------------------------------------

/-- The launcher follows a session from where it subscribed: what it was told is what the hub tells
of what was done since, and what it has copied and whether it knows the end is made of that. -/
structure Follows (v : Booting) (limit : Nat) (b : BootRun) (g : Episode)
    (earlier later : List Occurrence) : Prop where
  subscribed : ∃ e, v.past = later ++ e :: earlier ∧ e.action = .move (.watchSession b.session)
  joined : ((Hub.new limit).run (hubActions b.session earlier)).subscribe =
    (g.subscription, g.session.hub)
  session : g.session.id = b.session
  receiver : g.subscription.receiver = b.receiver
  actions : g.actions = hubActions b.session later
  since : g.Since [] v.scene.deployment
  told : v.told = g.got
  copied : b.copied = g.subscription.history.flatten ++ v.told.flatMap Received.output
  exit : b.exit = g.subscription.ended.or (v.told.findSome? Received.exit?)

/-- What every run of the launcher keeps. -/
structure Kept (config : Config) (workingDir hostname : String) (host : Host) (v : Booting) :
    Prop where
  recording : Recording WithoutRequests (.initial config workingDir hostname host) v.past v.scene
  calls : ∀ i, v.scene.calls i = if i = 0 then v.stage.call? else none
  owners : v.scene.deployment.owners = v.stage.owner?.toList
  designated : ∀ n, v.stage.script? = some n → ∃ text,
    (Scene.initial config workingDir hostname host).deployment.store.designated =
      .ok (some text) ∧ parseName text = .ok n
  fails : ∀ f, v.stage.fault? = some f → BootFails
    (Scene.initial config workingDir hostname host).deployment.store.designated v.past f
  cleared : v.stage.IsCleared → ∀ n, v.stage.script? = some n → ∃ e ∈ v.past, e.Clears n
  requests : v.past.countP (·.isStopRequest) = if v.stage.stopRequested then 1 else 0
  untold : v.stage.run? = none → v.told = []
  follows : ∀ b, v.stage = .following b → ∃ g earlier later,
    v.Follows config.replayLimit b g earlier later

end Booting

variable {s s' : Scene} {a : Action} {told : Option Happening} {id : Nat} {x : Session}
  {d d' : Deployment} {config : Config} {workingDir hostname : String} {host : Host}

theorem SameBoard.owners (h : SameBoard d d') : d'.owners = d.owners := by
  rw [Deployment.owners, h.lives]
  rfl

/-- A supervisor leaves it alone whose the sessions are. -/
theorem Supervised.owners {l : Life} {supervision : Supervision} (hIds : d.OwnIds)
    (h : Supervised d l supervision d') : d'.owners = d.owners := by
  rw [Deployment.owners, h.lives, List.map_map]
  refine List.map_congr_left fun x hMem => ?_
  rw [Function.comp_apply]
  split
  · next hSame => rw [life_eq_of_id_eq hIds hMem h.known hSame]
  · rfl

/-- What goes on by itself leaves it alone whose the sessions are. -/
theorem Happens.owners (hSound : s.Sound) (h : Happens s a told s') (hBeside : a.IsBeside) :
    s'.deployment.owners = s.deployment.owners := by
  cases h.step with
  | supervise _ hSupervise =>
    obtain ⟨l, supervision, -, hSupervised⟩ := superviseSeeing?_cases hSound.ownIds hSupervise
    exact hSupervised.owners hSound.ownIds
  | move m => exact (move_sameBoard hSound.ownIds m).owners
  | _ => exact hBeside.elim

theorem Action.IsBeside.withoutRequests (h : a.IsBeside) : WithoutRequests s a s' := by
  cases a with
  | supervise id => trivial
  | move m => cases m <;> trivial
  | _ => exact h.elim

/-- Nothing that goes on by itself asks a session to end, or takes a step of a start. -/
theorem Action.IsBeside.isStopRequest (h : a.IsBeside) :
    Occurrence.isStopRequest ⟨s, a, told⟩ = false := by
  cases a with
  | move m => cases m <;> first | rfl | exact h.elim
  | _ => rfl

theorem Happens.calls_beside (h : Happens s a told s') (hBeside : a.IsBeside) :
    s'.calls = s.calls := by
  cases h.step with
  | supervise => rfl
  | move => rfl
  | _ => exact hBeside.elim

theorem Action.IsBeside.ne_receive (h : a.IsBeside) (i r : Nat) : a ≠ .move (.receive i r) := by
  rintro rfl
  exact h

/-- Whatever a start does happens without more to be told of it. -/
theorem Step.happens_start {i : Nat} (h : Step s a s') (hCaller : a.caller? = some i) :
    Happens s a none s' := by
  refine .other h ?_ ?_ <;> cases a <;> cases hCaller <;> first | trivial | nofun

theorem Move.happens {m : Move} (h : (Action.move m).IsOthers s) :
    Happens s (.move m) none (s.withDeployment (m.perform s.deployment)) :=
  .other (.move m) h nofun

theorem hubAction?_receive {r : Nat} (hSession : s.deployment.service.session? id = some x) :
    Occurrence.hubAction? id ⟨s, .move (.receive id r), none⟩ = some (.receive r) := by
  simp [Occurrence.hubAction?, hSession]

namespace Booting

variable {v v' : Booting} {limit : Nat} {b b' : BootRun} {g : Episode}
  {earlier later : List Occurrence} {n : ScriptName}

/-- What others do leaves what the launcher was told as it is. -/
theorem Follows.next (h : v.Follows limit b g earlier later) (hSound : v.scene.Sound)
    (hHappens : Happens v.scene a told s) (hOwn : WithoutRequests v.scene a s)
    (hOther : ∀ r, a ≠ .move (.receive b.session r)) (stage : BootStage) :
    (v.next a told s stage).Follows limit b
      (g.later (Occurrence.hubAction? g.session.id ⟨v.scene, a, told⟩).toList) earlier
      (⟨v.scene, a, told⟩ :: later) where
  subscribed := by
    obtain ⟨e, hPast, hSubscribe⟩ := h.subscribed
    exact ⟨e, congrArg (List.cons _) hPast, hSubscribe⟩
  joined := h.joined
  session := h.session
  receiver := h.receiver
  actions := by
    rw [hubActions_cons, ← h.actions, h.session]
    rfl
  since := h.since.recorded hSound hHappens hOwn
  told := by
    rw [Episode.got_later, Hub.told_of_ne, List.append_nil]
    · exact h.told
    · rintro action hMem rfl
      rcases hubAction?_cases (Option.mem_toList.mp hMem) with ⟨_, _, _, _, hNot⟩ |
        ⟨_, _, _, _, hNot⟩ | ⟨_, hNot⟩ | ⟨r, hReceive, -⟩
      · cases hNot
      · cases hNot
      · cases hNot
      · rw [h.session] at hReceive
        exact hOther r hReceive
  copied := h.copied
  exit := h.exit

/-- A launcher that has asked the script to end follows as before. -/
theorem Follows.asked (h : v.Follows limit b g earlier later) :
    v.Follows limit { b with stopRequested := true } g earlier later :=
  ⟨h.subscribed, h.joined, h.session, h.receiver, h.actions, h.since, h.told, h.copied, h.exit⟩

/-- Whatever the launcher gets from its receiver it copies, or it is the end. -/
theorem Follows.copy (h : v.Follows limit b g earlier later)
    (hCopy : b.copy? v.scene.deployment = some (b', d)) :
    (v.hearing b b' d).Follows limit b' (g.later [.receive b.receiver]) earlier
      (⟨v.scene, .move (.receive b.session b.receiver), none⟩ :: later) := by
  obtain ⟨hOpen, hSome, hTake, hAfter⟩ := BootRun.copy?_eq_some.mp hCopy
  have hKept : Hub.Action.drop g.subscription.receiver ∉ g.actions := by
    rw [h.actions]
    exact drop_notMem_hubActions _ _ _
  rw [← h.session, ← h.receiver] at hSome
  obtain ⟨hNews, hSince, hTold⟩ := h.since.receive hKept hSome
  obtain ⟨x, hSession, -⟩ := h.since.known
  rw [h.session, h.receiver] at hNews hSince hTold
  rw [h.session] at hSession
  rw [BootRun.take_eq hNews hOpen] at hTake
  have hBefore := h.exit
  rw [hOpen] at hBefore
  obtain ⟨hJoined, hUnended⟩ := Option.or_eq_none_iff.mp hBefore.symm
  subst hTake hAfter
  constructor
  · obtain ⟨e, hPast, hSubscribe⟩ := h.subscribed
    exact ⟨e, congrArg (List.cons _) hPast, hSubscribe⟩
  · exact h.joined
  · exact h.session
  · exact h.receiver
  · rw [hubActions_cons, hubAction?_receive hSession, ← h.actions]
    rfl
  · exact hSince
  · rw [Episode.got_later, h.receiver, hTold, ← h.told]
    rfl
  · show b.copied ++ _ = g.subscription.history.flatten ++ (v.told ++ [_]).flatMap Received.output
    rw [h.copied, List.flatMap_append, List.flatMap_singleton, List.append_assoc]
  · show _ = g.subscription.ended.or ((v.told ++ [_]).findSome? Received.exit?)
    rw [hJoined, Option.none_or, List.findSome?_append, hUnended, Option.none_or,
      List.findSome?_singleton]

/-- The launcher follows the session from where it subscribed. -/
theorem Follows.begin (h : Recording WithoutRequests (.initial config workingDir hostname host)
    v.past v.scene) (hSession : v.scene.deployment.service.session? id = some x)
    (hUntold : v.told = []) :
    (v.next (.move (.watchSession id)) none
      (v.scene.withDeployment (Deployment.subscribe x v.scene.deployment).2)
      (.following (.joined n x))).Follows config.replayLimit (.joined n x)
      ⟨x.subscribe.2, x.subscribe.1, false, []⟩ v.past [] := by
  have hId : x.id = id := session?_id hSession
  subst hId
  have hHub := h.hub.2 x hSession
  obtain ⟨limit, before, hRun, hWithin⟩ := reaches_hub h.reaches hSession
  constructor
  · exact ⟨_, rfl, rfl⟩
  · show ((Hub.new config.replayLimit).run (hubActions x.id v.past)).subscribe = _
    rw [← hHub]
    rfl
  · rfl
  · rfl
  · rfl
  · exact Episode.subscribe_since hSession hRun (fun hMem => hWithin _ hMem) false
  · exact hUntold
  · show _ = _ ++ v.told.flatMap Received.output
    rw [hUntold]
    exact (List.append_nil _).symm
  · show _ = Option.or _ (v.told.findSome? Received.exit?)
    rw [hUntold]
    exact Option.or_none.symm

-- ---------------------------------------------------------------------------
-- Steps
-- ---------------------------------------------------------------------------

/-- The launcher begins with nothing done. -/
theorem begun_kept (config : Config) (workingDir hostname : String) (host : Host) :
    (begun (.initial config workingDir hostname host)).Kept config workingDir hostname host := by
  let s₀ := Scene.initial config workingDir hostname host
  have hNothing : ∀ {stage : BootStage}, (begun s₀).stage = stage → stage.call? = none →
      stage.owner? = none → ¬ stage.IsCleared → stage.stopRequested = false → stage.run? = none →
      (∀ n, stage.script? = some n → ∃ text,
        s₀.deployment.store.designated = .ok (some text) ∧ parseName text = .ok n) →
      (∀ f, stage.fault? = some f → BootFails s₀.deployment.store.designated [] f) →
      (begun s₀).Kept config workingDir hostname host := by
    intro stage hStage hCall hOwner hCleared hStop hRun hNamed hFails
    refine ⟨.begin, fun i => ?_, ?_, hStage ▸ hNamed, hStage ▸ hFails,
      fun h => absurd (hStage ▸ h) hCleared, ?_, fun _ => rfl, fun b hFollowing => ?_⟩
    · rw [hStage, hCall, ite_self]
      rfl
    · rw [hStage, hOwner]
      rfl
    · rw [hStage, hStop]
      rfl
    · rw [← hStage, hFollowing] at hRun
      cases hRun
  rcases BootStage.ofDesignation_cases
      (Scene.initial config workingDir hostname host).deployment.store.designated with
    ⟨f, hStage, hUnfit⟩ | ⟨hStage, hFound⟩ | ⟨text, n, hStage, hFound, hName⟩
  · refine hNothing hStage rfl rfl id rfl rfl nofun fun f' hFault => ?_
    cases hFault
    exact .inl hUnfit
  · exact hNothing hStage rfl rfl id rfl rfl nofun nofun
  · refine hNothing hStage rfl rfl id rfl rfl (fun m hm => ?_) nofun
    cases hm
    exact ⟨text, hFound, hName⟩

/-- A step of the launcher's start is no request, and touches no other start. -/
theorem start_alone (hHappens : Happens s a told s') (hCaller : a.caller? = some 0) :
    WithoutRequests s a s' ∧ Occurrence.isStopRequest ⟨s, a, told⟩ = false ∧
      ∀ i, i ≠ 0 → s'.calls i = s.calls i := by
  refine ⟨?_, ?_, fun i hi => ?_⟩
  · cases a <;> trivial
  · cases a <;> first | rfl | cases hCaller
  · cases hHappens.step <;> cases hCaller <;> first | rfl | exact if_neg hi

/-- What a step of a start that goes on makes of the sessions; and whether the script may run was
found out in a check. -/
theorem start_goesOn {stage stage' : StartStage} (hHappens : Happens s a told s')
    (hCaller : a.caller? = some 0) (hBefore : s.calls 0 = some ⟨n, stage⟩)
    (hAfter : s'.calls 0 = some ⟨n, stage'⟩)
    (hOwners : s.deployment.owners = (BootStage.starting n stage).owner?.toList) :
    s'.deployment.owners = (BootStage.starting n stage').owner?.toList ∧
      ((BootStage.starting n stage').IsCleared →
        (BootStage.starting n stage).IsCleared ∨ Occurrence.Clears n ⟨s, a, told⟩) ∧
      (∀ f, (BootStage.starting n stage').fault? = some f →
        Occurrence.Refuses n f ⟨s, a, told⟩) := by
  -- the start is at what the step finds it at, and then at what the step makes of it
  have hAt : ∀ {i m st}, s.calls i = some ⟨m, st⟩ → i = 0 → m = n ∧ st = stage := by
    rintro i m st hCall rfl
    cases hCall.symm.trans hBefore
    exact ⟨rfl, rfl⟩
  have hNow : ∀ {d : Deployment} {i m st}, i = 0 →
      ((s.withDeployment d).withCall i (some ⟨m, st⟩)).calls 0 = some ⟨n, stage'⟩ → st = stage' := by
    rintro d i m st rfl hCall
    cases (Scene.withCall_self _ _ _).symm.trans hCall
    rfl
  have hStep := hHappens.step
  cases hStep with
  | reserve hFree =>
    obtain rfl := Option.some.inj hCaller
    cases hFree.symm.trans hBefore
  | refuse hFree =>
    obtain rfl := Option.some.inj hCaller
    cases hFree.symm.trans hBefore
  | @check i m d hCall hCheck =>
    obtain rfl := Option.some.inj hCaller
    obtain ⟨rfl, rfl⟩ := hAt hCall rfl
    obtain rfl := hNow rfl hAfter
    have hSame := (check_sameBoard hCheck).owners
    exact ⟨hSame.trans hOwners, fun _ => .inr ⟨rfl, check_ok hCheck, check_verdict hCheck⟩,
      fun f hFault => by cases hFault⟩
  | @reject i m f d hCall hCheck =>
    obtain rfl := Option.some.inj hCaller
    obtain ⟨rfl, rfl⟩ := hAt hCall rfl
    obtain rfl := hNow rfl hAfter
    have hSame := (check_sameBoard hCheck).owners
    refine ⟨hSame.trans hOwners, False.elim, fun f' hFault => ?_⟩
    cases hFault
    exact .inr (.inl ⟨rfl, congrArg Prod.fst hCheck⟩)
  | @spawn i m found session d hCall hSpawn =>
    obtain rfl := Option.some.inj hCaller
    obtain ⟨rfl, rfl⟩ := hAt hCall rfl
    obtain rfl := hNow rfl hAfter
    obtain ⟨hLife, -, hSessions, -⟩ := spawn_ok hSpawn
    refine ⟨?_, fun _ => .inl trivial, fun f hFault => by cases hFault⟩
    show d.owners = [(session.id, m)]
    have hNone : s.deployment.owners = [] := hOwners
    rw [Deployment.owners, Deployment.lives] at hNone ⊢
    rw [hSessions, List.map_cons, List.map_cons, hNone, hLife, show session.id = _ from
      congrArg Life.id hLife]
  | @spawnFails i m found f d hCall hSpawn =>
    obtain rfl := Option.some.inj hCaller
    obtain ⟨rfl, rfl⟩ := hAt hCall rfl
    obtain rfl := hNow rfl hAfter
    refine ⟨?_, False.elim, fun f' hFault => ?_⟩
    · rw [spawn_error hSpawn]
      exact hOwners
    · cases hFault
      exact .inr (.inr ⟨rfl, congrArg Prod.fst hSpawn⟩)
  | @publish i m session hCall hSession =>
    obtain rfl := Option.some.inj hCaller
    obtain ⟨rfl, rfl⟩ := hAt hCall rfl
    obtain rfl := hNow rfl hAfter
    exact ⟨hOwners, fun _ => .inl trivial, fun f hFault => by cases hFault⟩
  | vacate =>
    obtain rfl := Option.some.inj hCaller
    cases (Scene.withCall_self _ _ _).symm.trans hAfter
  | handOver =>
    obtain rfl := Option.some.inj hCaller
    cases (Scene.withCall_self _ _ _).symm.trans hAfter
  | _ => cases hCaller

/-- A start goes on, or ends, and nothing else changes. -/
theorem Kept.start (h : v.Kept config workingDir hostname host) {stage : BootStage}
    (hHappens : Happens v.scene a none s) (hCaller : a.caller? = some 0)
    (hBefore : v.stage.run? = none) (hAfter : stage.run? = none)
    (hCalls : s.calls 0 = stage.call?)
    (hOwners : s.deployment.owners = stage.owner?.toList)
    (hSame : ∀ {n}, stage.script? = some n → v.stage.script? = some n)
    (hFails : ∀ f, stage.fault? = some f → v.stage.fault? = some f ∨
      ∃ n, v.stage.script? = some n ∧ Occurrence.Refuses n f ⟨v.scene, a, none⟩)
    (hCleared : stage.IsCleared → v.stage.IsCleared ∨
      ∀ n, stage.script? = some n → Occurrence.Clears n ⟨v.scene, a, none⟩) :
    (v.next a none s stage).Kept config workingDir hostname host where
  recording := h.recording.next hHappens (start_alone hHappens hCaller).1
  calls i := by
    show s.calls i = if i = 0 then stage.call? else none
    by_cases hi : i = 0
    · rw [hi, if_pos rfl, hCalls]
    · rw [if_neg hi, (start_alone hHappens hCaller).2.2 i hi, h.calls, if_neg hi]
  owners := hOwners
  designated n hNamed := h.designated n (hSame hNamed)
  fails f hFault := by
    rcases hFails f hFault with hEarlier | ⟨n, hNamed, hRefuses⟩
    · exact (h.fails f hEarlier).later _
    · obtain ⟨text, hFound, hName⟩ := h.designated n hNamed
      exact .inr ⟨text, n, hFound, hName, _, List.mem_cons_self, hRefuses⟩
  cleared hNow n hNamed := by
    rcases hCleared hNow with hEarlier | hHere
    · obtain ⟨e, hMem, hClears⟩ := h.cleared hEarlier n (hSame hNamed)
      exact ⟨e, List.mem_cons_of_mem _ hMem, hClears⟩
    · exact ⟨_, List.mem_cons_self, hHere n hNamed⟩
  requests := by
    have hNone : ∀ {t : BootStage}, t.run? = none → t.stopRequested = false := by
      intro t hRun
      cases t with
      | following b => cases hRun
      | _ => rfl
    have hSame := h.requests
    rw [hNone hBefore] at hSame
    show (_ :: v.past).countP _ = if stage.stopRequested then 1 else 0
    rw [hNone hAfter, List.countP_cons, (start_alone hHappens hCaller).2.1, hSame]
    rfl
  untold _ := h.untold hBefore
  follows b hStage := by
    rw [show stage = .following b from hStage] at hAfter
    cases hAfter

/-- What goes on by itself changes nothing of what the launcher is at. -/
theorem Kept.beside (h : v.Kept config workingDir hostname host) (hBeside : a.IsBeside)
    (hHappens : Happens v.scene a told s) :
    (v.next a told s v.stage).Kept config workingDir hostname host := by
  have hSound := h.recording.sound (initial_sound config workingDir hostname host)
  refine ⟨h.recording.next hHappens hBeside.withoutRequests, fun i => ?_,
    (hHappens.owners hSound hBeside).trans h.owners, h.designated,
    fun f hFault => (h.fails f hFault).later _, fun hNow n hNamed => ?_, ?_, h.untold,
    fun b hStage => ?_⟩
  · show s.calls i = _
    rw [hHappens.calls_beside hBeside]
    exact h.calls i
  · obtain ⟨e, hMem, hClears⟩ := h.cleared hNow n hNamed
    exact ⟨e, List.mem_cons_of_mem _ hMem, hClears⟩
  · show (_ :: v.past).countP _ = _
    rw [List.countP_cons, hBeside.isStopRequest]
    exact h.requests
  · obtain ⟨g, earlier, later, hFollows⟩ := h.follows b hStage
    exact ⟨_, earlier, _, hFollows.next hSound hHappens hBeside.withoutRequests
      (fun r => hBeside.ne_receive b.session r) v.stage⟩

/-- The launcher follows a session after a step, whose run was followed before or is new. -/
theorem Kept.follow (h : v.Kept config workingDir hostname host) {m : Move}
    (hHappens : Happens v.scene (.move m) none
      (v.scene.withDeployment (m.perform v.scene.deployment)))
    (hOwn : WithoutRequests v.scene (.move m)
      (v.scene.withDeployment (m.perform v.scene.deployment)))
    {told : List (Received SessionEvent)}
    (hFollows : ∃ g earlier later, Follows
      { v.next (.move m) none (v.scene.withDeployment (m.perform v.scene.deployment))
          (.following b) with told } config.replayLimit b g earlier later)
    (hCall : v.stage.call? = none) (hOwner : v.stage.owner? = some (b.session, b.script))
    (hScript : v.stage.script? = some b.script) (hCleared : v.stage.IsCleared)
    (hStop : b.stopRequested = (v.stage.stopRequested ||
      Occurrence.isStopRequest ⟨v.scene, .move m, none⟩))
    (hOnce : (v.stage.stopRequested &&
      Occurrence.isStopRequest ⟨v.scene, .move m, none⟩) = false) :
    Kept config workingDir hostname host
      { v.next (.move m) none (v.scene.withDeployment (m.perform v.scene.deployment))
          (.following b) with told } where
  recording := h.recording.next hHappens hOwn
  calls i := by
    show v.scene.calls i = if i = 0 then none else none
    rw [h.calls, hCall]
  owners := by
    show (m.perform v.scene.deployment).owners = [(b.session, b.script)]
    rw [(move_sameBoard (h.recording.sound (initial_sound config workingDir hostname host)).ownIds
      m).owners, h.owners, hOwner]
    rfl
  designated n hNamed := h.designated n (hScript.trans hNamed)
  fails f hFault := by cases hFault
  cleared _ n hNamed := by
    obtain ⟨e, hMem, hClears⟩ := h.cleared hCleared n (hScript.trans hNamed)
    exact ⟨e, List.mem_cons_of_mem _ hMem, hClears⟩
  requests := by
    show (_ :: v.past).countP _ = if b.stopRequested then 1 else 0
    rw [List.countP_cons, h.requests, hStop]
    cases hNow : Occurrence.isStopRequest ⟨v.scene, .move m, none⟩ with
    | true =>
      rw [hNow, Bool.and_true] at hOnce
      rw [hOnce]
      rfl
    | false => rw [Bool.or_false]; rfl
  untold hRun := by cases hRun
  follows b' hStage := by
    cases hStage
    exact hFollows

/-- **One step of the launcher** keeps it all. -/
theorem step_kept (h : v.Kept config workingDir hostname host) {act : BootAct}
    (hStep : Step v act v') : v'.Kept config workingDir hostname host := by
  have hSound := h.recording.sound (initial_sound config workingDir hostname host)
  cases hStep with
  | beside hBeside hHappens => exact h.beside hBeside hHappens
  | @reserve n stage s hStage hHappens hCall =>
    have hOwners := h.owners
    rw [hStage] at hOwners
    cases hHappens.step with
    | reserve _ hReserve =>
      obtain ⟨slots, -, rfl⟩ := reserve_ok hReserve
      cases (Scene.withCall_self _ _ _).symm.trans hCall
      exact h.start hHappens rfl (by rw [hStage]; rfl) rfl hCall hOwners
        (fun hNamed => by rw [hStage]; exact hNamed) (fun f hFault => by cases hFault) False.elim
    | refuse hFree => cases hFree.symm.trans hCall
  | @refused n f d hStage hReserve =>
    have hOwners := h.owners
    rw [hStage] at hOwners
    have hFree : v.scene.calls 0 = none := by rw [h.calls, if_pos rfl, hStage]; rfl
    have hHappens := (ScriptWarden.Step.refuse hFree hReserve).happens_start rfl
    have hRefuses : Occurrence.Refuses n f ⟨v.scene, .reserve 0 n, none⟩ :=
      .inl ⟨rfl, congrArg Prod.fst hReserve⟩
    obtain rfl := reserve_error hReserve
    refine h.start hHappens rfl (by rw [hStage]; rfl) rfl hFree hOwners
      (fun hNamed => by cases hNamed) (fun f' hFault => .inr ⟨n, by rw [hStage]; rfl, ?_⟩) False.elim
    cases hFault
    exact hRefuses
  | @start n stage stage' a s hStage hCaller hHappens hCall =>
    have hBefore : v.scene.calls 0 = some ⟨n, stage⟩ := by rw [h.calls, if_pos rfl, hStage]; rfl
    have hOwners := h.owners
    rw [hStage] at hOwners
    obtain ⟨hAfter, hCleared, hRefuses⟩ := start_goesOn hHappens hCaller hBefore hCall hOwners
    refine h.start hHappens hCaller (by rw [hStage]; rfl) rfl hCall hAfter
      (fun hNamed => by rw [hStage]; exact hNamed)
      (fun f hFault => .inr ⟨n, by rw [hStage]; rfl, hRefuses f hFault⟩) fun hNow => ?_
    rw [hStage]
    refine (hCleared hNow).imp_right fun hClears m hNamed => ?_
    cases hNamed
    exact hClears
  | @startFailed n f s hStage hHappens =>
    have hOwners := h.owners
    rw [hStage] at hOwners
    cases hHappens.step with
    | vacate =>
      exact h.start hHappens rfl (by rw [hStage]; rfl) rfl (Scene.withCall_self _ _ _) hOwners
        (fun hNamed => by cases hNamed) (fun f' hFault => .inl (by rw [hStage]; exact hFault))
        False.elim
  | @started n id s hStage hHappens =>
    have hOwners := h.owners
    rw [hStage] at hOwners
    cases hHappens.step with
    | handOver =>
      exact h.start hHappens rfl (by rw [hStage]; rfl) rfl (Scene.withCall_self _ _ _) hOwners
        (fun hNamed => by rw [hStage]; exact hNamed) (fun f hFault => by cases hFault)
        fun _ => .inl (by rw [hStage]; trivial)
  | @subscribe n id x hStage hSession =>
    have hMove : (Move.watchSession id).perform v.scene.deployment =
        (Deployment.subscribe x v.scene.deployment).2 := by
      rw [Move.perform, hSession]
      rfl
    have hUntold : v.told = [] := h.untold (by rw [hStage]; rfl)
    have hFollows := Follows.begin (n := n) h.recording hSession hUntold
    have hId : x.id = id := session?_id hSession
    rw [← hMove] at hFollows ⊢
    exact h.follow (m := .watchSession id) (Move.happens trivial) trivial
      ⟨_, _, _, hFollows⟩ (by rw [hStage]; rfl) (by rw [hStage, ← hId]; rfl) (by rw [hStage]; rfl)
      (by rw [hStage]; trivial) (by rw [hStage]; rfl) (Bool.and_false _)
  | @copy b b' d hStage hCopy =>
    obtain ⟨g, earlier, later, hBefore⟩ := h.follows b hStage
    have hFollows := hBefore.copy hCopy
    obtain ⟨-, -, -, rfl⟩ := BootRun.copy?_eq_some.mp hCopy
    obtain ⟨hScript, hSession, -, hStop⟩ := BootRun.copy?_same hCopy
    exact h.follow (m := .receive b.session b.receiver) (Move.happens trivial) trivial
      ⟨_, _, _, hFollows⟩ (by rw [hStage]; rfl) (by rw [hStage, hScript, hSession]; rfl)
      (by rw [hStage, hScript]; rfl) (by rw [hStage]; trivial)
      (by rw [hStage, hStop]; exact (Bool.or_false _).symm) (Bool.and_false _)
  | @cancel b hStage hOpen =>
    obtain ⟨g, earlier, later, hBefore⟩ := h.follows b hStage
    cases hAsked : b.stopRequested with
    | true => rwa [cancelled_again hStage hAsked]
    | false =>
      rw [cancelled_first v hAsked]
      have hHappens := Move.happens (s := v.scene) (m := .stopSession b.session) trivial
      have hFollows := (hBefore.next hSound hHappens trivial (fun r hNot => by cases hNot)
        (.following { b with stopRequested := true })).asked
      exact h.follow hHappens trivial ⟨_, _, _, hFollows⟩ (by rw [hStage]; rfl) (by rw [hStage]; rfl)
        (by rw [hStage]; rfl) (by rw [hStage]; trivial) (Bool.or_true _).symm
        (by rw [hStage]; exact (Bool.and_true _).trans hAsked)

/-- **What every run of the launcher keeps.** -/
theorem Reaches.kept {Allowed : BootAct → Prop}
    (hReach : Reaches Allowed (begun (.initial config workingDir hostname host)) v) :
    v.Kept config workingDir hostname host := by
  induction hReach with
  | refl => exact begun_kept config workingDir hostname host
  | step _ hStep _ ih => exact step_kept ih hStep

end Booting

end ScriptWarden
