import ScriptWarden.Clock.Timestamp
import ScriptWarden.External.Command
import ScriptWarden.Host.Process
import ScriptWarden.Script.Site
import ScriptWarden.Wire.Record

/-!
# Processes that the service did not start

Which processes of a host run a script of the directory without belonging to a session. Nothing is
remembered: every question looks at the processes that there are.
-/

namespace ScriptWarden

/-- What is seen of a process from outside. -/
structure ProcessInfo where
  pid : UInt32
  command : List (List UInt8)
  workingDir : Option (List UInt8)
  /-- When the process was started, in whole seconds. -/
  startTime : Nat
deriving DecidableEq, Repr, Inhabited

/-- What is seen of a process. Of one that has ended there is only the number. -/
def ProcessInfo.ofProcess (p : Process) : ProcessInfo :=
  { pid := p.pid, command := p.command
    workingDir := if p.status.isSome then none else some (encodeUtf8 p.workingDir)
    startTime := p.startedAt / 1000000000 }

/-- What is seen of the processes of a host. -/
def Host.processTable (h : Host) : List ProcessInfo := h.processes.map .ofProcess

/-- What looks for processes that run scripts of a directory. -/
structure Scanner where
  /-- The directory, without links if it was there. -/
  directory : String
  gracePeriod : Duration
deriving DecidableEq, Repr, Inhabited

/-- What tells a process from one that has its number later. -/
structure ProcessIdentity where
  startTime : Nat
  script : String
deriving DecidableEq, Repr, Inhabited

/-- What the process with a number is. -/
inductive Identified where
  | gone
  /-- It runs no script of the directory. -/
  | unmanaged
  | script (identity : ProcessIdentity)
deriving DecidableEq, Repr, Inhabited

namespace Scanner

/-- The scanner of a site. -/
def ofSite (site : Site) (gracePeriod : Duration) (files : Files) : Scanner :=
  { directory := (files.realPath (site.seen site.scriptsDir)).toOption.getD site.scriptsDir
    gracePeriod }

/-- The path of an existing file without links, as bytes. -/
def realBytes? (files : Files) (path : List UInt8) : Option (List UInt8) :=
  (decodeUtf8? path).bind fun text => (files.realPath text).toOption.map encodeUtf8

/-- The script of the directory that a command line runs, if its file is there. -/
def managedScript? (s : Scanner) (files : Files) (p : ProcessInfo) : Option String :=
  (commandScript? (realBytes? files) p.command p.workingDir (encodeUtf8 s.directory)).filter
    fun name => files.isFile (joinPath s.directory name)

/-- The words of a command line in one line. -/
def commandLine (command : List (List UInt8)) : String :=
  " ".intercalate (command.map decodeLossy)

/-- What a process is told as, if it runs a script and is none of the service's own. -/
def external? (s : Scanner) (files : Files) (self : UInt32) (owned : List UInt32)
    (p : ProcessInfo) : Option ExternalProcess :=
  if p.pid == self || owned.contains p.pid then none
  else (s.managedScript? files p).map fun name =>
    { pid := p.pid, name, cmdline := commandLine p.command }

/-- The processes that run a script and are none of the service's own, in order of their numbers. -/
def scan (s : Scanner) (files : Files) (self : UInt32) (owned : List UInt32)
    (table : List ProcessInfo) : List ExternalProcess :=
  (table.filterMap (s.external? files self owned)).mergeSort fun a b => decide (a.pid ≤ b.pid)

/-- What the process with a number is. -/
def identify (s : Scanner) (files : Files) (table : List ProcessInfo) (pid : UInt32) : Identified :=
  match table.find? (·.pid == pid) with
  | none => .gone
  | some p =>
    match s.managedScript? files p with
    | some script => .script { startTime := p.startTime, script }
    | none => .unmanaged

end Scanner

end ScriptWarden
