import ScriptWarden.External.Scan
import ScriptWarden.Fault

/-!
# Ending processes that the service did not start

A process is asked to end if it runs a script of the directory at that time, and killed if it is
there after the grace period and is still the same process. Its number may have been given to
another process meanwhile; that one is left alone.
-/

namespace ScriptWarden

/-- The ending of a process that is under way. -/
structure Termination where
  pid : UInt32
  identity : ProcessIdentity
  deadline : Moment
deriving DecidableEq, Repr, Inhabited

/-- How an ending goes on. -/
inductive TerminationStep where
  /-- Look again at a moment. -/
  | wait (moment : Moment)
  | kill
  | finished
deriving DecidableEq, Repr, Inhabited

namespace Termination

/-- How often it is looked whether the process has ended. -/
def pollInterval : Duration := Duration.ofMillis 50

/-- Begin to end a process: it is to be asked to end, or refused. -/
def begin (pid self : UInt32) (owned : List UInt32) (gracePeriod : Duration) (now : Moment)
    (seen : Identified) : Except Fault Termination :=
  if owned.contains pid || pid == self then .error (.notExternal pid)
  else
    match seen with
    | .gone => .error (.notFound ("process " ++ toString pid))
    | .unmanaged => .error (.notExternal pid)
    | .script identity => .ok { pid, identity, deadline := now.after gracePeriod }

/-- How an ending goes on, by whether the process is there and what it is now. -/
def next (t : Termination) (now : Moment) (alive : Bool) (seen : Identified) : TerminationStep :=
  if !alive then .finished
  else if now < t.deadline then .wait (now.after pollInterval)
  else if seen == .script t.identity then .kill
  else .finished

end Termination

end ScriptWarden
