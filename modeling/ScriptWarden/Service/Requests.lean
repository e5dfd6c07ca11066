import ScriptWarden.External.Termination
import ScriptWarden.Service.Start

/-!
# Requests to a service

What a service does for those who use it: about scripts, about their sessions, and about processes
that it did not start.
-/

namespace ScriptWarden

namespace Deployment

-- ---------------------------------------------------------------------------
-- Scripts
-- ---------------------------------------------------------------------------

/-- Do something that may only be done to a script without a session. -/
def whileIdle (n : ScriptName) (work : DeploymentWork α) : DeploymentWork α := do
  view fun d => d.slots.guardIdle n
  work

/-- Do something that may not be done to a script while it is being checked. -/
def whileNotStarting (n : ScriptName) (work : DeploymentWork α) : DeploymentWork α := do
  view fun d => d.slots.guardNotStarting n
  work

/-- The records of all scripts. -/
def listScripts : DeploymentWork (List ScriptRecord) := do
  let designated ← onStore (Store.view Store.designated)
  let service := (← get).service
  onStore (Store.ask fun r fs => r.records fs service.isRunning designated)

/-- The record of a script. -/
def scriptRecord (n : ScriptName) : DeploymentWork ScriptRecord := do
  let designated ← onStore (Store.view Store.designated)
  let service := (← get).service
  onStore (Store.ask fun r fs => r.record fs (service.isRunning n) designated n)

/-- Take an upload. -/
def saveUpload (fileName : String) (bytes : List UInt8) : DeploymentWork Store.Upload := do
  let n ← view fun _ => parseName fileName
  whileNotStarting n (onStore (Store.saveUpload fileName bytes))

/-- Remove a script without a session, with its log and its designation. -/
def deleteScript (n : ScriptName) : DeploymentWork Unit :=
  whileIdle n (onStore (Store.retireScript n))

/-- Designate a script for the boot, or let it be designated no longer; the designation
afterwards. -/
def setAutoboot (n : ScriptName) (enabled : Bool) : DeploymentWork (Option String) :=
  onStore (Store.setAutoboot n enabled)

-- ---------------------------------------------------------------------------
-- Sessions
-- ---------------------------------------------------------------------------

/-- Ask for a script to end. -/
def stop (n : ScriptName) : DeploymentWork Unit := do
  let session ← view fun d => d.service.get n
  modify fun d => d.setSession session.requestStop

/-- Send input to a session. -/
def queueInput (session : Session) (bytes : List UInt8) : DeploymentWork Unit := do
  let session ← view fun _ => session.queueInput bytes
  modify fun d => d.setSession session

/-- Send input to a script. -/
def sendInput (n : ScriptName) (bytes : List UInt8) : DeploymentWork Unit := do
  queueInput (← view fun d => d.service.get n) bytes

/-- Subscribe to the output of a session. -/
def subscribe (session : Session) : DeploymentWork Subscription := do
  let (subscription, session) := session.subscribe
  modify fun d => d.setSession session
  return subscription

/-- Subscribe to the output of a script. -/
def watch (n : ScriptName) : DeploymentWork (Session × Subscription) := do
  let session ← view fun d => d.service.get n
  return (session, ← subscribe session)

/-- What a receiver of a session gets next. -/
def receive (d : Deployment) (session receiver : Nat) : Received SessionEvent × Deployment :=
  match d.service.session? session with
  | none => (.closed, d)
  | some s =>
    let (got, hub) := s.hub.receive receiver
    (got, d.setSession { s with hub })

/-- Drop a receiver of a session. -/
def unsubscribe (d : Deployment) (session receiver : Nat) : Deployment :=
  match d.service.session? session with
  | none => d
  | some s => d.setSession { s with hub := s.hub.drop receiver }

/-- Ask for all scripts to end; the sessions that were asked. -/
def stopAll (d : Deployment) : List Nat × Deployment :=
  let sessions := d.service.liveSessions
  (sessions.map (·.id), sessions.foldl (fun d s => d.setSession s.requestStop) d)

/-- Whether sessions have announced their end. -/
def haveEnded (d : Deployment) (sessions : List Nat) : Bool :=
  sessions.all fun id =>
    match d.service.session? id with
    | some s => s.hub.ended.isSome
    | none => true

-- ---------------------------------------------------------------------------
-- Processes that the service did not start
-- ---------------------------------------------------------------------------

/-- The processes that run scripts and belong to no session. -/
def externalProcesses (d : Deployment) : List ExternalProcess :=
  d.service.scanner.scan d.host.files d.host.self d.service.ownedPids d.host.processTable

/-- What the process with a number is now. -/
def identify (d : Deployment) (pid : UInt32) : Identified :=
  d.service.scanner.identify d.host.files d.host.processTable pid

/-- Send a signal. A process that is gone is no failure. -/
def sendSignal (pid : UInt32) (number : Nat) : DeploymentWork Unit := fun d =>
  match d.host.signal pid number with
  | .ok host => (.ok (), { d with host })
  | .error .noSuchProcess => (.ok (), d)
  | .error fault => (.error (.io fault), d)

/-- Begin to end a process that the service did not start. -/
def beginTermination (pid : UInt32) : DeploymentWork Termination := do
  let d ← get
  let t ← view fun _ => Termination.begin pid d.host.self d.service.ownedPids
    d.service.scanner.gracePeriod d.host.now (d.identify pid)
  sendSignal pid Signal.terminate
  return t

/-- Go on with ending a process: the moment to look again, or none when that is over. -/
def goOnTermination (t : Termination) (d : Deployment) : Option Moment × Deployment :=
  match t.next d.host.now (d.host.isAlive t.pid) (d.identify t.pid) with
  | .wait moment => (some moment, d)
  | .finished => (none, d)
  | .kill => (none, ((sendSignal t.pid Signal.kill).run d).2)

end Deployment

end ScriptWarden
