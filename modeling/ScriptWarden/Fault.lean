import ScriptWarden.Host.IoFault
import ScriptWarden.Script.Name

/-!
# Faults

Why the service could not do what it was asked to. Every fault has one wording; a fault that
follows from another one also tells that.
-/

namespace ScriptWarden

/-- Why a script may not run. -/
inductive Refusal where
  /-- The checks found problems. -/
  | invalid (errors : List String)
  /-- Sibling scripts are missing. -/
  | missing (modules : List String)
deriving DecidableEq, Repr, Inhabited

/-- The wording of a refusal. -/
def Refusal.message : Refusal → String
  | .invalid _ => "Script has validation errors"
  | .missing modules => "Script has missing dependencies: " ++ String.intercalate ", " modules

/-- The refusal for what a verdict found. Problems come before missing siblings. -/
def Refusal.ofFindings (errors missing : List String) : Refusal :=
  if errors.isEmpty then .missing missing else .invalid errors

/-- Why the service could not do something. -/
inductive Fault where
  | refused (reason : Refusal)
  | alreadyRunning (name : String)
  | notRunning (name : String)
  | notExecutable (name : String) (reason : Refusal)
  /-- The queue of input for a script is full. -/
  | inputBacklog (name : String)
  | inputClosed (name : String)
  | notFound (what : String)
  | spawnFailure (name : String) (cause : IoFault)
  | badName (fault : NameFault)
  | notUtf8 (name : String)
  /-- The process belongs to a session, or runs no script of the directory. -/
  | notExternal (pid : UInt32)
  | busy (name : String)
  | io (cause : IoFault)
deriving DecidableEq, Repr, Inhabited

/-- The wording of a fault. -/
def Fault.message : Fault → String
  | .refused reason => reason.message
  | .alreadyRunning name => "Script is already running: " ++ name
  | .notRunning name => "Script is not running: " ++ name
  | .notExecutable name _ => "Script is not executable: " ++ name
  | .inputBacklog name => "Input queue is full for " ++ name
  | .inputClosed name => "Script has closed its input: " ++ name
  | .notFound what => "Not found: " ++ what
  | .spawnFailure name cause => "Failed to start " ++ name ++ ": " ++ cause.message
  | .badName fault => fault.message
  | .notUtf8 name => "File is not valid UTF-8 text: " ++ name
  | .notExternal pid => "Process " ++ toString pid ++ " is not an external script process"
  | .busy name => "Cannot delete running script: " ++ name
  | .io cause => "I/O error: " ++ cause.message

/-- The wording of the fault that a fault follows from. -/
def Fault.cause? : Fault → Option String
  | .notExecutable _ reason => some reason.message
  | .spawnFailure _ cause => some cause.message
  | .io cause => some cause.message
  | _ => none

/-- What a fault of the host means for something with a name: what is not there is not found. -/
def Fault.ofHost (what : String) : IoFault → Fault
  | .notFound => .notFound what
  | fault => .io fault

/-- A text as the name of a script. -/
def parseName (text : String) : Except Fault ScriptName := (ScriptName.parse text).mapError .badName

end ScriptWarden
