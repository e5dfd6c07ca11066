import ScriptWarden.Clock.Timestamp
import ScriptWarden.Session.Exit

/-!
# Supervision

What becomes of a session's process. Its supervisor waits for it to end or to be asked to; a process
that was asked and does not end within the grace period is killed. After the end, what is left in
the output pipes is read for a limited time, the log is written, the slot is given back, and only
then the end is announced. Each of these is one step.
-/

namespace ScriptWarden

/-- An output of a process. -/
inductive Stream where
  | out
  | err
deriving DecidableEq, Repr, Inhabited

/-- What a supervisor is at. -/
inductive Supervision where
  /-- The process runs. -/
  | watching
  /-- The process was asked to end and has until a moment. -/
  | asked (deadline : Moment)
  /-- The process was killed. -/
  | killed
  /-- The process has ended with a status; the outputs listed are waited for, the first until a
  moment. -/
  | draining (status : Option UInt32) (left : List Stream) (deadline : Moment)
  /-- The log is to be written. -/
  | recording (exit : Exit)
  /-- The slot is to be given back. -/
  | leaving (exit : Exit)
  /-- The end is to be announced. -/
  | announcing (exit : Exit)
  | finished
deriving DecidableEq, Repr, Inhabited

/-- What a supervisor sees. -/
structure Outlook where
  now : Moment
  startedAt : Moment
  /-- The status of the process, if it has ended. -/
  status : Option UInt32
  /-- Whether the process is to end. -/
  stopping : Bool
  /-- The outputs that are still being read. -/
  reading : List Stream
  gracePeriod : Duration
  /-- Which comes first when the process has ended and is to end: that is left open. -/
  stopFirst : Bool := false
deriving DecidableEq, Repr, Inhabited

/-- What a supervisor does. -/
inductive SupervisorAct where
  /-- Take the status of the process, which gives its number free. -/
  | reap
  | signal (number : Nat)
  /-- Stop reading an output. -/
  | abandon (stream : Stream)
  | closeInput
  | writeLog (exit : Exit)
  | leave
  | announce (exit : Exit)
  | nothing
deriving DecidableEq, Repr, Inhabited

namespace Supervision

/-- The signal that asks a process to end. -/
def sigterm : Nat := 15

/-- The signal that ends a process. -/
def sigkill : Nat := 9

/-- How long an output of a process that has ended is waited for. Processes that it left behind may
hold it open. -/
def drainTime : Duration := Duration.ofSeconds 1

/-- Begin to wait for the outputs of a process that has ended. -/
def ended (o : Outlook) (status : UInt32) : Supervision × SupervisorAct :=
  (.draining (some status) [.out, .err] (o.now.after drainTime), .reap)

/-- Ask a process to end. -/
def ask (o : Outlook) : Supervision × SupervisorAct :=
  (.asked (o.now.after o.gracePeriod), .signal sigterm)

/-- What a supervisor does next, if anything, and what it is at then. -/
def step? (s : Supervision) (o : Outlook) : Option (Supervision × SupervisorAct) :=
  match s with
  | .watching =>
    match o.status with
    | some status => some (if o.stopping && o.stopFirst then ask o else ended o status)
    | none => if o.stopping then some (ask o) else none
  | .asked deadline =>
    match o.status with
    | some status => some (ended o status)
    | none => if deadline ≤ o.now then some (.killed, .signal sigkill) else none
  | .killed => o.status.map (ended o)
  | .draining status [] _ =>
    some (.recording (Exit.ofStatus status (o.now.since o.startedAt)), .closeInput)
  | .draining status (stream :: rest) deadline =>
    if !o.reading.contains stream then
      some (.draining status rest (o.now.after drainTime), .nothing)
    else if deadline ≤ o.now then
      some (.draining status rest (o.now.after drainTime), .abandon stream)
    else none
  | .recording exit => some (.leaving exit, .writeLog exit)
  | .leaving exit => some (.announcing exit, .leave)
  | .announcing exit => some (.finished, .announce exit)
  | .finished => none

/-- The moment up to which a supervisor waits at most, if it waits for one. -/
def deadline? : Supervision → Option Moment
  | .asked deadline => some deadline
  | .draining _ (_ :: _) deadline => some deadline
  | _ => none

end Supervision

end ScriptWarden
