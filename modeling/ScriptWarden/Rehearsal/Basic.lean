import ScriptWarden.Boot.Launcher
import ScriptWarden.Client.Connection
import ScriptWarden.Shell.Catalog

/-!
# Rehearsals

A service on a host of its own, with viewers, with followers of its sessions, and with processes
that it did not start. Nothing happens by itself until somebody waits; the clock then goes from one
event to the next.
-/

namespace ScriptWarden

/-- Somebody who follows a session. -/
structure Follower where
  label : String
  session : Nat
  receiver : Nat
  /-- The pieces of output that came so far, last one first. -/
  pieces : List (List UInt8) := []
  exit : Option Exit := none
deriving DecidableEq, Repr, Inhabited

/-- All output that a follower got. -/
def Follower.output (f : Follower) : List UInt8 := f.pieces.reverse.flatten

/-- Take what came from the session. -/
def Follower.take (f : Follower) : Received SessionEvent → Follower
  | .value (.output chunk) => { f with pieces := chunk :: f.pieces }
  | .value (.ended exit) => { f with exit := some exit }
  | _ => f

/-- A process that was started beside the service. -/
structure Bystander where
  label : String
  pid : UInt32
  /-- The pipe of its input. -/
  input : Nat
  /-- The pipe of its output. -/
  output : Nat
  /-- Whether it has written something, or closed its output. -/
  hasSpoken : Bool := false
deriving DecidableEq, Repr, Inhabited

/-- A rehearsal. -/
structure Rehearsal where
  /-- The directory in which everything happens. -/
  root : String
  host : Host
  service : Service
  /-- A run of the designated script, in a service of its own. -/
  boot : Option (Service × BootRun) := none
  connections : List (String × Connection) := []
  followers : List Follower := []
  bystanders : List Bystander := []

/-- What is done in a rehearsal. What it changed before it failed stays changed. -/
abbrev RehearsalWork (α : Type) := ExceptT Fault (StateM Rehearsal) α

namespace Rehearsal

-- ---------------------------------------------------------------------------
-- Beginning
-- ---------------------------------------------------------------------------

/-- When every rehearsal begins. -/
def beginning : Moment := 1767225600 * 1000000000

/-- The file of a program. Its content does not count. -/
def withProgram (dir : FilePlace) (fs : Files) (name : String) : Files :=
  let id := fs.nextId
  let body : FileBody := { bytes := [0x7f, 0x45, 0x4c, 0x46], modified := Moment.timestamp beginning }
  ({ fs with nextId := id + 1 }.setEntry (dir ++ [name]) (.file id)).setBody id body

/-- The files that there are at the beginning: programs and a directory to work in. -/
def startingFiles (root : String) : Files :=
  let names := Shell.Catalog.programs.map (·.1)
  let fs : Files := {}
  let dirs : List FilePlace := [["bin"], ["usr"], ["usr", "bin"], ["tmp"], ["dev"]]
  let fs := dirs.foldl (fun fs dir => fs.setEntry dir .directory) fs
  let fs := names.foldl (withProgram ["bin"]) fs
  let fs := names.foldl (withProgram ["usr", "bin"]) fs
  let fs := withProgram ["dev"] fs "null"
  (fs.makeDirectories root).toOption.getD fs

/-- The first process of the host. -/
def firstProcess : Process :=
  { pid := Host.firstPid, parent := 0, command := [encodeUtf8 "init"], workingDir := "/"
    descriptors := [], program := Program.idle Asking.stepLimit, startedAt := beginning }

/-- The variables of the service's environment. -/
def startingEnvironment (home : String) : Environment :=
  [("HOME", encodeUtf8 home), ("TZ", encodeUtf8 "UTC"),
   ("PATH", encodeUtf8 "/usr/local/sbin:/usr/local/bin:/usr/sbin:/usr/bin:/sbin:/bin")]

/-- The host at the beginning. -/
def startingHost (root home : String) : Host :=
  { now := beginning, files := startingFiles root, self := 100, programs := Shell.Catalog.find
    environment := startingEnvironment home, processes := [firstProcess], nextPid := 101 }

/-- Make directories, as far as that can be done. -/
def makeDirectories (h : Host) (paths : List String) : Host :=
  { h with files := paths.foldl (fun fs path => (fs.makeDirectories path).toOption.getD fs) h.files }

/-- The name of the host. -/
def hostname : String := "rehearsal"

/-- A rehearsal with settings, in which some directories are there already. -/
def begin (root home : String) (c : Config) (directories : List String) : Rehearsal :=
  let host := makeDirectories (startingHost root home) directories
  { root, host, service := Service.new c root hostname host.files }

-- ---------------------------------------------------------------------------
-- Parts
-- ---------------------------------------------------------------------------

/-- The service on its host. -/
def deployment (r : Rehearsal) : Deployment := { host := r.host, service := r.service }

/-- Let the service and its host be others. -/
def withDeployment (r : Rehearsal) (d : Deployment) : Rehearsal :=
  { r with host := d.host, service := d.service }

/-- Do something in the service. -/
def onService (work : DeploymentWork α) : RehearsalWork α := fun r =>
  let (result, d) := work.run r.deployment
  (result, r.withDeployment d)

/-- Do something to the store of the service. -/
def onStore (work : StoreWork α) : RehearsalWork α := onService (Deployment.onStore work)

/-- The follower with a label. -/
def follower? (r : Rehearsal) (label : String) : Option Follower :=
  r.followers.find? (·.label == label)

/-- The process with a label beside the service. -/
def bystander? (r : Rehearsal) (label : String) : Option Bystander :=
  r.bystanders.find? (·.label == label)

/-- The session that the follower with a label follows. -/
def sessionOf? (r : Rehearsal) (label : String) : Option Session :=
  (r.follower? label).bind fun f => r.service.session? f.session

/-- The processes that have labels, by label. -/
def labelled (r : Rehearsal) : List (String × UInt32) :=
  r.bystanders.map (fun b => (b.label, b.pid)) ++
    r.followers.filterMap fun f => (r.service.session? f.session).map fun s => (f.label, s.pid)

/-- How long it is from one deed to the next. -/
def pace : Duration := Duration.ofMillis 1

/-- Let some time pass before the next deed. -/
def advance (r : Rehearsal) : Rehearsal := { r with host := { r.host with now := r.host.now.after pace } }

end Rehearsal

end ScriptWarden
