import ScriptWarden.Rehearsal.Waiting

/-!
# Viewers and bystanders

Viewers with connections to the service: what they send, and what they are told. Processes that a
rehearsal starts itself, and how the service ends them.
-/

namespace ScriptWarden

namespace Rehearsal

-- ---------------------------------------------------------------------------
-- Processes beside the service
-- ---------------------------------------------------------------------------

/-- Start a process with a script for the shell, whose input is held open, and wait until it has
written something. -/
def spawn (label script : String) (arguments : List String) (workingDir : String) :
    RehearsalWork Unit := do
  let r ← get
  let (input, host) := r.host.makePipe
  let (output, host) := host.makePipe
  match host.spawn "/bin/sh" (["-c", script] ++ arguments) host.environment workingDir
      [(0, .pipeRead input), (1, .pipeWrite output), (2, .null)] with
  | .error fault => throw (.io fault)
  | .ok (pid, host) =>
    set { r with
      host := { host with
        held := [Descriptor.pipeWrite input, .pipeRead output] ++ host.held }
      bystanders := { label, pid, input, output } :: r.bystanders.filter (·.label != label) }
    await fun r => (r.bystander? label).all (·.hasSpoken)

/-- Close the input of a process and wait for it to end; its status. -/
def waitForBystander (label : String) : RehearsalWork (Option UInt32) := do
  match (← get).bystander? label with
  | none => return none
  | some b =>
    modify fun r => { r with host := r.host.release (.pipeWrite b.input) }
    await fun r => (r.host.statusOf? b.pid).isSome
    let r ← get
    match r.host.reap? b.pid with
    | none => return none
    | some (status, host) =>
      set { r with host }
      return some status

/-- Let the service end a process up to where that is over. The fuel bounds how often it looks. -/
def terminateFrom (t : Termination) : Nat → RehearsalWork Unit
  | 0 => return
  | n + 1 => do
    let (next, d) := (← get).deployment.goOnTermination t
    modify (·.withDeployment d)
    match next with
    | none => return
    | some moment =>
      modify (waitUntil (fun _ => false) (some moment))
      terminateFrom t n

/-- Let the service end a process. -/
def terminate (t : Termination) : RehearsalWork Unit := terminateFrom t patience

/-- Let the service end the process with a number. -/
def stopExternal (pid : UInt32) : RehearsalWork Unit := do
  terminate (← onService (Deployment.beginTermination pid))

-- ---------------------------------------------------------------------------
-- Viewers
-- ---------------------------------------------------------------------------

/-- The connection of a viewer. -/
def connection (r : Rehearsal) (viewer : String) : Connection :=
  (r.connections.lookup viewer).getD {}

/-- Let the connection of a viewer be another. -/
def setConnection (r : Rehearsal) (viewer : String) (c : Connection) : Rehearsal :=
  { r with connections := (viewer, c) :: r.connections.filter (·.1 != viewer) }

/-- Connect a viewer. -/
def connect (viewer : String) : RehearsalWork Unit := modify (·.setConnection viewer {})

/-- Let a viewer send a text. -/
def frame (viewer text : String) : RehearsalWork Unit := do
  let r ← get
  match (r.connection viewer).handleText r.deployment text with
  | .settled c d => set ((r.withDeployment d).setConnection viewer c)
  | .ending c t d =>
    set ((r.withDeployment d).setConnection viewer c)
    terminate t
    modify fun r => r.setConnection viewer ((r.connection viewer).endedExternal t)

/-- Take the events that a viewer has been told, up to the first that meets a condition. -/
def takeUntil (viewer : String) (isLast : Event → Bool) : RehearsalWork (List Event) := do
  let r ← get
  let c := r.connection viewer
  let before := c.outbound.takeWhile fun e => !isLast e
  let taken := c.outbound.take (before.length + 1)
  set (r.setConnection viewer { c with outbound := c.outbound.drop taken.length })
  return taken

/-- Wait for an event that meets a condition; the events up to it. -/
def receiveUntil (viewer : String) (isLast : Event → Bool) : RehearsalWork (List Event) := do
  await fun r => (r.connection viewer).outbound.any isLast
  takeUntil viewer isLast

/-- Take all events that a viewer has been told. -/
def queued (viewer : String) : RehearsalWork (List Event) := takeUntil viewer fun _ => false

/-- Let a viewer look at nothing any more; how many sessions are forwarded to it then. -/
def close (viewer : String) : RehearsalWork Nat := do
  let r ← get
  let (c, d) := (r.connection viewer).close r.deployment
  set ((r.withDeployment d).setConnection viewer c)
  return c.watchCount

/-- Join the outputs of one script that follow each other. -/
def joined : List Event → List Event
  | .output a x :: rest =>
    match joined rest with
    | .output b y :: more =>
      if a == b then .output a (x ++ y) :: more else .output a x :: .output b y :: more
    | more => .output a x :: more
  | e :: rest => e :: joined rest
  | [] => []

end Rehearsal

end ScriptWarden
