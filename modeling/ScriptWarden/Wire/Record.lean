import ScriptWarden.Clock.Timestamp
import ScriptWarden.Verdict
import ScriptWarden.Wire.Request

/-!
# Records

What the service tells about a script, a running script and a process that it did not start, as
JSON values.
-/

namespace ScriptWarden

/-- A moment, written as RFC 3339 text. -/
def Shape.timestamp : Shape Timestamp
  | .str s =>
    match Timestamp.ofText? s with
    | some t => .ok t
    | none => .error (.other "input contains invalid characters")
  | j => Shape.mismatch "an RFC 3339 formatted date and time string" j

/-- One of some words. -/
def Shape.word (known : List (String × α)) : Shape α
  | .str s =>
    match known.lookup s with
    | some a => .ok a
    | none => .error (.unknownVariant s (known.map (·.1)))
  | j => Shape.mismatch "string or map" j

-- ---------------------------------------------------------------------------
-- Words
-- ---------------------------------------------------------------------------

/-- The word for a validity. -/
def Validity.word : Validity → String
  | .valid => "valid"
  | .invalid => "invalid"

/-- The word for the state of the siblings. -/
def Dependencies.word : Dependencies → String
  | .complete => "complete"
  | .missing => "missing_deps"

/-- Whether a script has a session. -/
inductive RunState where
  | idle
  | running
deriving DecidableEq, Repr, Inhabited

/-- The word for a state. -/
def RunState.word : RunState → String
  | .idle => "idle"
  | .running => "running"

/-- The state of a script that has a session, or has none. -/
def RunState.ofRunning (running : Bool) : RunState := if running then .running else .idle

-- ---------------------------------------------------------------------------
-- Running scripts
-- ---------------------------------------------------------------------------

/-- A session in reports. -/
structure RunningScript where
  script : String
  pid : UInt32
  startTime : Timestamp
  runtime : Binary64
deriving DecidableEq, Repr, Inhabited

namespace RunningScript

/-- A session in reports, as a value. -/
def toJson (r : RunningScript) : Json :=
  .obj [("script", .str r.script), ("pid", .nat r.pid.toNat),
    ("start_time", .str r.startTime.text), ("runtime", .real r.runtime)]

/-- The session that a value stands for. -/
def shape : Shape RunningScript := fun j => do
  let r ← Record.ofJson "struct RunningScript" [.of "script" Shape.string, .of "pid" Shape.pid,
    .of "start_time" Shape.timestamp, .of "runtime" Shape.real] j
  .ok { script := ← r.get "script" Shape.string
        pid := ← r.get "pid" Shape.pid
        startTime := ← r.get "start_time" Shape.timestamp
        runtime := ← r.get "runtime" Shape.real }

end RunningScript

-- ---------------------------------------------------------------------------
-- Scripts
-- ---------------------------------------------------------------------------

/-- A script of the directory in reports. -/
structure ScriptRecord where
  name : String
  size : UInt64
  modified : Timestamp
  isValid : Bool
  isExecutable : Bool
  isRunning : Bool
  hasLog : Bool
  isAutoboot : Bool
  errors : List String
  missing : List String
  validity : Validity
  dependencies : Dependencies
  state : RunState
deriving DecidableEq, Repr, Inhabited

namespace ScriptRecord

/-- The fields of a record as a value. -/
def fields (r : ScriptRecord) : List (String × Json) :=
  [("name", .str r.name), ("size", .nat r.size.toNat), ("modified", .str r.modified.text),
   ("is_valid", .bool r.isValid), ("is_executable", .bool r.isExecutable),
   ("is_running", .bool r.isRunning), ("has_log", .bool r.hasLog),
   ("is_autoboot", .bool r.isAutoboot), ("errors", .strings r.errors),
   ("missing_deps", .strings r.missing), ("validity", .str r.validity.word),
   ("dependencies", .str r.dependencies.word), ("state", .str r.state.word)]

/-- A record as a value. -/
def toJson (r : ScriptRecord) : Json := .obj r.fields

/-- The words for validities. -/
def validityShape : Shape Validity := Shape.word [("valid", .valid), ("invalid", .invalid)]

/-- The words for the state of siblings. -/
def dependenciesShape : Shape Dependencies :=
  Shape.word [("complete", .complete), ("missing_deps", .missing)]

/-- The words for states. -/
def stateShape : Shape RunState := Shape.word [("idle", .idle), ("running", .running)]

/-- A list of texts. -/
def textsShape : Shape (List String) := Shape.list Shape.string

/-- The record that a value stands for. -/
def shape : Shape ScriptRecord := fun j => do
  let r ← Record.ofJson "struct ScriptRecord" [.of "name" Shape.string, .of "size" Shape.u64,
    .of "modified" Shape.timestamp, .of "is_valid" Shape.bool, .of "is_executable" Shape.bool,
    .of "is_running" Shape.bool, .of "has_log" Shape.bool, .of "is_autoboot" Shape.bool,
    .of "errors" textsShape, .of "missing_deps" textsShape, .of "validity" validityShape,
    .of "dependencies" dependenciesShape, .of "state" stateShape] j
  .ok { name := ← r.get "name" Shape.string
        size := (← r.get "size" Shape.u64).toUInt64
        modified := ← r.get "modified" Shape.timestamp
        isValid := ← r.get "is_valid" Shape.bool
        isExecutable := ← r.get "is_executable" Shape.bool
        isRunning := ← r.get "is_running" Shape.bool
        hasLog := ← r.get "has_log" Shape.bool
        isAutoboot := ← r.get "is_autoboot" Shape.bool
        errors := ← r.get "errors" textsShape
        missing := ← r.get "missing_deps" textsShape
        validity := ← r.get "validity" validityShape
        dependencies := ← r.get "dependencies" dependenciesShape
        state := ← r.get "state" stateShape }

end ScriptRecord

/-- A verdict as a value. -/
def Verdict.toJson (v : Verdict) : Json :=
  .obj [("is_valid", .bool v.isValid), ("is_executable", .bool v.isExecutable),
    ("validity", .str v.validity.word), ("dependencies", .str v.dependencies.word),
    ("errors", .strings v.errors), ("missing_deps", .strings v.missing)]

-- ---------------------------------------------------------------------------
-- Processes
-- ---------------------------------------------------------------------------

/-- A process that runs a script of the directory and was not started by the service. -/
structure ExternalProcess where
  pid : UInt32
  name : String
  cmdline : String
deriving DecidableEq, Repr, Inhabited

/-- A process as a value. -/
def ExternalProcess.toJson (p : ExternalProcess) : Json :=
  .obj [("pid", .nat p.pid.toNat), ("name", .str p.name), ("cmdline", .str p.cmdline)]

/-- The process that a value stands for. -/
def ExternalProcess.shape : Shape ExternalProcess := fun j => do
  let r ← Record.ofJson "struct ExternalProcess" [.of "pid" Shape.pid, .of "name" Shape.string,
    .of "cmdline" Shape.string] j
  .ok { pid := ← r.get "pid" Shape.pid
        name := ← r.get "name" Shape.string
        cmdline := ← r.get "cmdline" Shape.string }

end ScriptWarden
