import ScriptWarden.Clock.Timestamp
import ScriptWarden.Script.Name
import ScriptWarden.Session.Hub
import ScriptWarden.Session.Input
import ScriptWarden.Session.Supervision
import ScriptWarden.Text.Utf8
import ScriptWarden.Wire.Record

/-!
# Sessions

One run of a script: its process, the output of it, the input for it, and its supervisor. A session
that has ended can still be asked for what it was.

The text that is kept of a session when it has ended has a header, the output as far as it was kept,
and a footer.
-/

namespace ScriptWarden

-- ---------------------------------------------------------------------------
-- Logs
-- ---------------------------------------------------------------------------

namespace Log

/-- The lines before the output. -/
def header (n : ScriptName) (startedAt : Timestamp) : String :=
  "=== Execution Log for " ++ n.text ++ " ===\nTimestamp: " ++ startedAt.logText ++ "\n" ++
    String.ofList (List.replicate 50 '=') ++ "\n\n"

/-- The line that stands for output that was not kept. -/
def truncationNote (truncated : Bool) : String :=
  if truncated then "[earlier output truncated]\n" else ""

/-- A number or a dash. -/
def numberOrDash : Option Int32 → String
  | some n => toString n.toInt
  | none => "-"

/-- The lines after the output. -/
def footer (exit : Exit) : String :=
  "\n=== Exited (code " ++ numberOrDash exit.code ++ ", signal " ++ numberOrDash exit.signal ++
    ") after " ++ exit.runtime.text ++ " ===\n"

/-- A text with a line break at its end. -/
def lineEnded (s : String) : String := if s.endsWith "\n" then s else s ++ "\n"

/-- The log of a session. -/
def text (n : ScriptName) (startedAt : Timestamp) (output : List UInt8) (truncated : Bool)
    (exit : Exit) : String :=
  lineEnded (header n startedAt ++ truncationNote truncated ++ decodeLossy output) ++ footer exit

end Log

-- ---------------------------------------------------------------------------
-- Sessions
-- ---------------------------------------------------------------------------

/-- The pipes between a session and its process. -/
structure SessionPipes where
  input : Nat
  out : Nat
  err : Nat
deriving DecidableEq, Repr, Inhabited

/-- The pipe of an output. -/
def SessionPipes.ofStream (p : SessionPipes) : Stream → Nat
  | .out => p.out
  | .err => p.err

/-- One run of a script. -/
structure Session where
  /-- Tells successive runs of a script apart. -/
  id : Nat
  name : ScriptName
  pid : UInt32
  pipes : SessionPipes
  startedAt : Moment
  hub : Hub
  input : InputQueue := {}
  /-- Whether the process is to end; that is never taken back. -/
  stopping : Bool := false
  /-- The outputs that are being read. -/
  reading : List Stream := [.out, .err]
  supervision : Supervision := .watching
deriving DecidableEq, Repr, Inhabited

namespace Session

/-- A session whose process has just been started. -/
def new (id : Nat) (name : ScriptName) (pid : UInt32) (pipes : SessionPipes) (now : Moment)
    (replayLimit : Nat) : Session :=
  { id, name, pid, pipes, startedAt := now, hub := Hub.new replayLimit }

/-- How long a session has been running. -/
def runtime (s : Session) (now : Moment) : Duration := now.since s.startedAt

/-- A session in reports. -/
def running (s : Session) (now : Moment) : RunningScript :=
  { script := s.name.text, pid := s.pid, startTime := s.startedAt.timestamp
    runtime := (s.runtime now).seconds }

/-- Ask for the process to end. Asking again changes nothing. -/
def requestStop (s : Session) : Session := { s with stopping := true }

/-- Accept input for the process. -/
def queueInput (s : Session) (message : List UInt8) : Except Fault Session :=
  (s.input.accept s.name.text message).map fun input => { s with input }

/-- Take a piece of output. -/
def publish (s : Session) (chunk : List UInt8) : Session := { s with hub := s.hub.publish chunk }

/-- Read an output no more. -/
def stopReading (s : Session) (stream : Stream) : Session :=
  { s with reading := s.reading.filter (· != stream) }

/-- What the supervisor of a session sees. -/
def outlook (s : Session) (now : Moment) (gracePeriod : Duration) (status : Option UInt32) :
    Outlook :=
  { now, startedAt := s.startedAt, status, stopping := s.stopping, reading := s.reading, gracePeriod }

/-- The log of a session that has ended. -/
def logText (s : Session) (exit : Exit) : String :=
  Log.text s.name s.startedAt.timestamp s.hub.contents s.hub.truncated exit

/-- Take what there is of a session's output and subscribe to what comes. -/
def subscribe (s : Session) : Subscription × Session :=
  let (subscription, hub) := s.hub.subscribe
  (subscription, { s with hub })

end Session

end ScriptWarden
