import ScriptWarden.Proofs.Works
import ScriptWarden.Service.Progress
import ScriptWarden.Service.Requests

/-!
# Scenes and their runs

A scene is a deployment together with the starts that are under way in it. A start is a call of its own: it
takes the slot of its script, checks the script, spawns the process, publishes the session and hands
it over to a supervisor, and whatever else goes on may act between these steps: other starts,
supervisors, uploads, deletions, requests about scripts and sessions, readers and writers of pipes,
and the host itself. Each step is one of the actions of the service. An upload and a deletion are one
step each, because they run while the slot of their script is locked.

* `Action` and `Step` — who acts, and what the scene is afterwards.
* `Reaches` — the scenes that runs lead to; steps may be limited by a condition on the run.

## Results

* `start_apply` — a start that nothing comes between does these steps in a row.
-/

namespace ScriptWarden

-- ---------------------------------------------------------------------------
-- Start calls
-- ---------------------------------------------------------------------------

/-- What a start is at. -/
inductive StartStage where
  /-- It has taken the slot and is to check the script. -/
  | reserved
  /-- The script may run. What its file held at the check is kept in mind for statements only. -/
  | cleared (found : Except Fault (List UInt8))
  /-- The process of a session runs; the slot is to hold the session. -/
  | spawned (session : Nat)
  /-- The slot holds the session; its supervisor is to begin. -/
  | published (session : Nat)
  /-- The start failed; the slot is to be given back. -/
  | failed (fault : Fault)

namespace StartStage

/-- Whether the slot of the script is that of the start itself. -/
def HoldsSlot : StartStage → Prop
  | .published _ => False
  | _ => True

/-- The session that the start has spawned and not handed over. -/
def session? : StartStage → Option Nat
  | .spawned id => some id
  | .published id => some id
  | _ => none

end StartStage

/-- A start that is under way. -/
structure StartCall where
  name : ScriptName
  stage : StartStage

/-- A deployment and the starts under way in it, each under a number of its own. -/
structure Scene where
  deployment : Deployment
  calls : Nat → Option StartCall

namespace Scene

/-- A service that has just begun on a host. -/
def initial (config : Config) (workingDir hostname : String) (host : Host) : Scene where
  deployment := { host, service := Service.new config workingDir hostname host.files }
  calls := fun _ => none

/-- The scene after a step of the deployment. -/
def withDeployment (s : Scene) (d : Deployment) : Scene := { s with deployment := d }

/-- The scene in which a start is at something else, or no longer under way. -/
def withCall (s : Scene) (i : Nat) (c : Option StartCall) : Scene :=
  { s with calls := fun j => if j = i then c else s.calls j }

@[simp] theorem withDeployment_deployment (s : Scene) (d : Deployment) :
    (s.withDeployment d).deployment = d := rfl

theorem withCall_calls (s : Scene) (i j : Nat) (c : Option StartCall) :
    (s.withCall i c).calls j = if j = i then c else s.calls j := rfl

theorem withCall_self (s : Scene) (i : Nat) (c : Option StartCall) :
    (s.withCall i c).calls i = c := if_pos rfl

theorem withCall_withDeployment (s : Scene) (i : Nat) (c : Option StartCall) (d : Deployment) :
    (s.withCall i c).withDeployment d = (s.withDeployment d).withCall i c := rfl

theorem withCall_withCall (s : Scene) (i : Nat) (c c' : Option StartCall) :
    (s.withCall i c).withCall i c' = s.withCall i c' := by
  rw [withCall, withCall, withCall, mk.injEq]
  refine ⟨rfl, funext fun j => ?_⟩
  by_cases hAt : j = i
  · simp only [hAt, if_true]
  · simp only [hAt, if_false]

/-- A scene in which a call is already what it becomes. -/
theorem withCall_eq_self {s : Scene} {i : Nat} {c : Option StartCall} (h : s.calls i = c) :
    s.withCall i c = s := by
  obtain ⟨d, calls⟩ := s
  rw [withCall, mk.injEq]
  refine ⟨rfl, funext fun j => ?_⟩
  by_cases hAt : j = i
  · simpa [hAt] using h.symm
  · simp only [hAt, if_false]

/-- The slot of a script. -/
def slot? (s : Scene) (n : ScriptName) : Option Slot := s.deployment.slots.slot? n

/-- The sessions of a scene. -/
def sessions (s : Scene) : List Session := s.deployment.service.sessions

/-- The files of a scene. -/
def files (s : Scene) : Files := s.deployment.host.files

/-- What the service of a scene knows of its scripts. -/
def registry (s : Scene) : Registry := s.deployment.service.registry

end Scene

-- ---------------------------------------------------------------------------
-- Actions
-- ---------------------------------------------------------------------------

namespace Deployment

/-- Let the supervisor of a session take a step, where it is left open what it sees first when the
process has ended and is to end. -/
def superviseSeeing? (d : Deployment) (id : Nat) (stopFirst : Bool) : Option Deployment := do
  let s ← d.service.session? id
  let o := s.outlook d.host.now d.service.config.gracePeriod (d.host.statusOf? s.pid)
  let (supervision, act) ← s.supervision.step? { o with stopFirst }
  let s := { s with supervision }
  some ((d.setSession s).perform s act)

end Deployment

/-- What is done besides starts, supervision, uploads and deletions. A session can be asked by the
name of its script, or by those who have hold of it. -/
inductive Move where
  | stop (n : ScriptName)
  | input (n : ScriptName) (bytes : List UInt8)
  | watch (n : ScriptName)
  | stopSession (id : Nat)
  | inputSession (id : Nat) (bytes : List UInt8)
  | watchSession (id : Nat)
  | receive (id receiver : Nat)
  | unsubscribe (id receiver : Nat)
  | stopAll
  | list
  | record (n : ScriptName)
  | autoboot (n : ScriptName) (enabled : Bool)
  | readOutput (id : Nat) (stream : Stream)
  | writeInput (id : Nat)
  /-- A reader remembers what it found earlier. -/
  | remember (analyses : List (ScriptName × Remembered))
  /-- The host becomes another: its processes, files, pipes and clock. -/
  | world (host : Host)

/-- What a move makes of a deployment. -/
def Move.perform : Move → Deployment → Deployment
  | .stop n, d => (Deployment.stop n d).2
  | .input n bytes, d => (Deployment.sendInput n bytes d).2
  | .watch n, d => (Deployment.watch n d).2
  | .stopSession id, d => (d.service.session? id).elim d fun s => d.setSession s.requestStop
  | .inputSession id bytes, d =>
    (d.service.session? id).elim d fun s => (Deployment.queueInput s bytes d).2
  | .watchSession id, d => (d.service.session? id).elim d fun s => (Deployment.subscribe s d).2
  | .receive id receiver, d => (d.receive id receiver).2
  | .unsubscribe id receiver, d => d.unsubscribe id receiver
  | .stopAll, d => d.stopAll.2
  | .list, d => (Deployment.listScripts d).2
  | .record n, d => (Deployment.scriptRecord n d).2
  | .autoboot n enabled, d => (Deployment.setAutoboot n enabled d).2
  | .readOutput id stream, d => (d.readOutput? id stream).getD d
  | .writeInput id, d => (d.writeInput? id).getD d
  | .remember analyses, d =>
    { d with service := { d.service with registry :=
        { d.service.registry with remembered := analyses } } }
  | .world host, d => { d with host }

/-- Who acts. -/
inductive Action where
  | reserve (call : Nat) (n : ScriptName)
  | check (call : Nat)
  | spawn (call : Nat)
  | publish (call : Nat)
  | vacate (call : Nat)
  | handOver (call : Nat)
  | supervise (session : Nat)
  | upload (fileName : String) (bytes : List UInt8)
  | delete (n : ScriptName)
  | move (m : Move)

/-- The start whose step an action is. -/
def Action.caller? : Action → Option Nat
  | .reserve i _ | .check i | .spawn i | .publish i | .vacate i | .handOver i => some i
  | _ => none

/-- One step of a scene. The supervisor of a session begins when its start has handed it over. -/
inductive Step (s : Scene) : Action → Scene → Prop
  | reserve {i : Nat} {n : ScriptName} {d : Deployment} :
      s.calls i = none → Deployment.reserve n s.deployment = (.ok (), d) →
      Step s (.reserve i n) ((s.withDeployment d).withCall i (some ⟨n, .reserved⟩))
  | refuse {i : Nat} {n : ScriptName} {f : Fault} {d : Deployment} :
      s.calls i = none → Deployment.reserve n s.deployment = (.error f, d) →
      Step s (.reserve i n) (s.withDeployment d)
  | check {i : Nat} {n : ScriptName} {d : Deployment} :
      s.calls i = some ⟨n, .reserved⟩ → Deployment.check n s.deployment = (.ok (), d) →
      Step s (.check i) ((s.withDeployment d).withCall i
        (some ⟨n, .cleared (s.registry.bytes s.files n)⟩))
  | reject {i : Nat} {n : ScriptName} {f : Fault} {d : Deployment} :
      s.calls i = some ⟨n, .reserved⟩ → Deployment.check n s.deployment = (.error f, d) →
      Step s (.check i) ((s.withDeployment d).withCall i (some ⟨n, .failed f⟩))
  | spawn {i : Nat} {n : ScriptName} {found : Except Fault (List UInt8)} {session : Session}
      {d : Deployment} :
      s.calls i = some ⟨n, .cleared found⟩ →
      Deployment.spawn n s.deployment = (.ok session, d) →
      Step s (.spawn i) ((s.withDeployment d).withCall i (some ⟨n, .spawned session.id⟩))
  | spawnFails {i : Nat} {n : ScriptName} {found : Except Fault (List UInt8)} {f : Fault}
      {d : Deployment} :
      s.calls i = some ⟨n, .cleared found⟩ → Deployment.spawn n s.deployment = (.error f, d) →
      Step s (.spawn i) ((s.withDeployment d).withCall i (some ⟨n, .failed f⟩))
  | publish {i : Nat} {n : ScriptName} {session : Session} :
      s.calls i = some ⟨n, .spawned session.id⟩ →
      s.deployment.service.session? session.id = some session →
      Step s (.publish i) ((s.withDeployment (s.deployment.publish session)).withCall i
        (some ⟨n, .published session.id⟩))
  | vacate {i : Nat} {n : ScriptName} {f : Fault} :
      s.calls i = some ⟨n, .failed f⟩ →
      Step s (.vacate i) ((s.withDeployment (s.deployment.vacate n)).withCall i none)
  | handOver {i : Nat} {n : ScriptName} {id : Nat} :
      s.calls i = some ⟨n, .published id⟩ → Step s (.handOver i) (s.withCall i none)
  | supervise {id : Nat} {stopFirst : Bool} {d : Deployment} :
      (∀ i c, s.calls i = some c → c.stage.session? ≠ some id) →
      s.deployment.superviseSeeing? id stopFirst = some d →
      Step s (.supervise id) (s.withDeployment d)
  | upload (fileName : String) (bytes : List UInt8) :
      Step s (.upload fileName bytes)
        (s.withDeployment (Deployment.saveUpload fileName bytes s.deployment).2)
  | delete (n : ScriptName) :
      Step s (.delete n) (s.withDeployment (Deployment.deleteScript n s.deployment).2)
  | move (m : Move) : Step s (.move m) (s.withDeployment (m.perform s.deployment))

/-- The scenes that runs from a scene lead to, when every step is one that the condition allows. -/
inductive Reaches (Allowed : Scene → Action → Scene → Prop) (s₀ : Scene) : Scene → Prop
  | refl : Reaches Allowed s₀ s₀
  | step {s s' : Scene} {a : Action} :
      Reaches Allowed s₀ s → Step s a s' → Allowed s a s' → Reaches Allowed s₀ s'

/-- No condition on the steps of a run. -/
def AnyStep (_ : Scene) (_ : Action) (_ : Scene) : Prop := True

/-- A run goes on. -/
theorem Reaches.trans {Allowed : Scene → Action → Scene → Prop} {s t u : Scene}
    (hFirst : Reaches Allowed s t) (hRest : Reaches Allowed t u) : Reaches Allowed s u := by
  induction hRest with
  | refl => exact hFirst
  | step _ hStep hAllowed ih => exact .step ih hStep hAllowed

theorem Reaches.next {s t u : Scene} {a : Action} (hReach : Reaches AnyStep s t)
    (hStep : Step t a u) : Reaches AnyStep s u :=
  .step hReach hStep trivial

-- ---------------------------------------------------------------------------
-- A start by itself
-- ---------------------------------------------------------------------------

/-- What a start does when nothing comes between its steps. -/
theorem start_apply (n : ScriptName) (d : Deployment) :
    Deployment.start n d = match Deployment.reserve n d with
      | (.error f, d) => (.error f, d)
      | (.ok (), d) => match Deployment.check n d with
        | (.error f, d) => (.error f, d.vacate n)
        | (.ok (), d) => match Deployment.spawn n d with
          | (.error f, d) => (.error f, d.vacate n)
          | (.ok session, d) => (.ok session, d.publish session) := by
  rw [Deployment.start, Work.bind_apply]
  rcases Deployment.reserve n d with ⟨_ | _, d₁⟩
  · rfl
  · simp only [Work.tryCatch_apply, Work.bind_apply]
    rcases Deployment.check n d₁ with ⟨_ | _, d₂⟩
    · rfl
    · simp only
      rcases Deployment.spawn n d₂ with ⟨_ | _, d₃⟩
      · rfl
      · rfl

end ScriptWarden
