import ScriptWarden.External.Scan
import ScriptWarden.Script.Store
import ScriptWarden.Session.Basic
import ScriptWarden.Session.Slots

/-!
# Services

The state of a service: what it knows of the scripts, which of them have sessions, and the sessions
themselves. A service runs on a host; the two together are a deployment.
-/

namespace ScriptWarden

/-- The state of a service. -/
structure Service where
  config : Config
  registry : Registry
  scanner : Scanner
  slots : Slots := []
  /-- All sessions there have been, newest first. -/
  sessions : List Session := []
  nextSession : Nat := 1
  hostname : String

/-- A service and the host that it runs on. -/
structure Deployment where
  host : Host
  service : Service

/-- What is done in a deployment. What it changed before it failed stays changed. -/
abbrev DeploymentWork (α : Type) := ExceptT Fault (StateM Deployment) α

namespace Service

/-- A service that has just begun. -/
def new (config : Config) (workingDir hostname : String) (files : Files) : Service :=
  let registry := Registry.ofConfig config workingDir
  { config, registry, hostname
    scanner := Scanner.ofSite registry.site config.gracePeriod files }

/-- The session with an identity. -/
def session? (s : Service) (id : Nat) : Option Session := s.sessions.find? (·.id == id)

/-- Let a session be another. -/
def setSession (s : Service) (session : Session) : Service :=
  { s with sessions := s.sessions.map fun x => if x.id == session.id then session else x }

/-- The session of a script. -/
def live? (s : Service) (n : ScriptName) : Option Session := (s.slots.live? n).bind s.session?

/-- Whether a script has a session. -/
def isRunning (s : Service) (n : ScriptName) : Bool := (s.slots.live? n).isSome

/-- The session of a script, which has to have one. -/
def get (s : Service) (n : ScriptName) : Except Fault Session :=
  match s.live? n with
  | some session => .ok session
  | none => .error (.notRunning n.text)

/-- The sessions that hold a slot. -/
def liveSessions (s : Service) : List Session := s.slots.sessions.filterMap s.session?

/-- The processes of the sessions. -/
def ownedPids (s : Service) : List UInt32 := s.liveSessions.map (·.pid)

/-- How a script runs, if it does. -/
def status (s : Service) (now : Moment) (n : ScriptName) : Option RunningScript :=
  (s.live? n).map (·.running now)

/-- How all scripts with sessions run, in order of their names. -/
def statusAll (s : Service) (now : Moment) : List RunningScript :=
  (s.liveSessions.map (·.running now)).mergeSort fun a b => decide (a.script ≤ b.script)

end Service

namespace Deployment

/-- Look at a deployment. -/
def view (f : Deployment → Except Fault α) : DeploymentWork α := fun d => (f d, d)

/-- Do something to the store of a deployment: the host's files and what the service knows. -/
def onStore (work : StoreWork α) : DeploymentWork α := fun d =>
  let (answer, store) := work
    { files := d.host.files, registry := d.service.registry, now := d.host.now.timestamp }
  (answer, { d with
    host := { d.host with files := store.files }
    service := { d.service with registry := store.registry } })

/-- The sessions' view of a deployment's slots. -/
def slots (d : Deployment) : Slots := d.service.slots

/-- A deployment with other slots. -/
def withSlots (d : Deployment) (slots : Slots) : Deployment :=
  { d with service := { d.service with slots } }

/-- Let a session be another. -/
def setSession (d : Deployment) (session : Session) : Deployment :=
  { d with service := d.service.setSession session }

end Deployment

end ScriptWarden
