import ScriptWarden.Fault
import ScriptWarden.Wire.Record

/-!
# Events

What the service tells a viewer, one JSON text each. The kind of an event is its field `type`.
Lists of problems that are empty, and the parts of a status that are unknown, are left out.
-/

namespace ScriptWarden

/-- What the service tells a viewer. -/
inductive Event where
  | connected (hostname : String)
  | started (script : String) (pid : UInt32) (startTime : Timestamp)
  | output (script data : String)
  /-- So many pieces of output passed the viewer by. -/
  | outputDropped (script : String) (chunks : UInt64)
  | processEnded (script : String) (exitCode signal : Option Int32) (runtime : Binary64)
  | watching (script : String) (pid : UInt32) (startTime : Timestamp)
  | status (script : String) (running : Bool) (pid : Option UInt32)
      (startTime : Option Timestamp) (runtime : Option Binary64)
  | allStatus (running : List RunningScript)
  | error (message : String) (errors missing : List String)
  | externalStopped (pid : UInt32)
deriving DecidableEq, Repr, Inhabited

namespace Event

/-- An error without lists of problems. -/
def plainError (message : String) : Event := .error message [] []

/-- The event for a fault. A script that may not run is told by the reason. -/
def ofFault : Fault → Event
  | .refused (.invalid errors) => .error "Script has validation errors" errors []
  | .refused (.missing modules) => .error "Script has missing dependencies" [] modules
  | .notExecutable _ (.invalid errors) => .error "Script has validation errors" errors []
  | .notExecutable _ (.missing modules) => .error "Script has missing dependencies" [] modules
  | f => plainError f.message

-- ---------------------------------------------------------------------------
-- Values
-- ---------------------------------------------------------------------------

/-- An event of a kind with fields. -/
def tagged (kind : String) (fields : List (String × Json)) : Json :=
  .obj (("type", .str kind) :: fields)

/-- A field that is left out where there is no value. -/
def known (name : String) (value : Option α) (toJson : α → Json) : List (String × Json) :=
  match value with
  | some a => [(name, toJson a)]
  | none => []

/-- A list that is left out where it is empty. -/
def nonEmpty (name : String) (texts : List String) : List (String × Json) :=
  if texts.isEmpty then [] else [(name, .strings texts)]

/-- An integer or null. -/
def intOrNull : Option Int32 → Json
  | some i => .int i.toInt
  | none => .null

/-- An event as a value. -/
def toJson : Event → Json
  | .connected hostname => tagged "connected" [("hostname", .str hostname)]
  | .started script pid time =>
    tagged "started"
      [("script", .str script), ("pid", .nat pid.toNat), ("start_time", .str time.text)]
  | .output script data => tagged "output" [("script", .str script), ("data", .str data)]
  | .outputDropped script chunks =>
    tagged "output_dropped" [("script", .str script), ("chunks", .nat chunks.toNat)]
  | .processEnded script exitCode signal runtime =>
    tagged "process_ended"
      [("script", .str script), ("exit_code", intOrNull exitCode), ("signal", intOrNull signal),
       ("runtime", .real runtime)]
  | .watching script pid time =>
    tagged "watching"
      [("script", .str script), ("pid", .nat pid.toNat), ("start_time", .str time.text)]
  | .status script running pid time runtime =>
    tagged "status"
      ([("script", .str script), ("running", .bool running)] ++
        known "pid" pid (fun p => .nat p.toNat) ++
        known "start_time" time (fun t => .str t.text) ++ known "runtime" runtime .real)
  | .allStatus running => tagged "all_status" [("running", .arr (running.map (·.toJson)))]
  | .error message errors missing =>
    tagged "error"
      ([("message", .str message)] ++ nonEmpty "errors" errors ++ nonEmpty "missing" missing)
  | .externalStopped pid => tagged "external_stopped" [("pid", .nat pid.toNat)]

-- ---------------------------------------------------------------------------
-- Reading
-- ---------------------------------------------------------------------------

/-- The kinds of events. -/
def kinds : List String :=
  ["connected", "started", "output", "output_dropped", "process_ended", "watching", "status",
   "all_status", "error", "external_stopped"]

/-- What an event is called where something else stands for it. -/
def description : String := "internally tagged enum ServerEvent"

/-- What the fields of a kind are called where something else stands for them. -/
def fieldsOf (kind : String) : String := "struct variant ServerEvent::" ++ kind

/-- An integer that may be missing. -/
def codeShape : Shape (Option Int32) := Shape.nullable Shape.i32

/-- The fields that tell a session's beginning. -/
def beginningFields : List FieldShape :=
  [.of "script" Shape.string, .of "pid" Shape.pid, .of "start_time" Shape.timestamp]

/-- The beginning of a session. -/
def ofBeginning (kind : String) (make : String → UInt32 → Timestamp → Event) (body : Json) :
    Except ShapeFault Event := do
  let r ← Record.ofJson (fieldsOf kind) beginningFields body
  .ok (make (← r.get "script" Shape.string) (← r.get "pid" Shape.pid)
    (← r.get "start_time" Shape.timestamp))

/-- A status. -/
def ofStatus (body : Json) : Except ShapeFault Event := do
  let pid := Shape.nullable Shape.pid
  let time := Shape.nullable Shape.timestamp
  let runtime := Shape.nullable Shape.real
  let r ← Record.ofJson (fieldsOf "Status") [.of "script" Shape.string, .of "running" Shape.bool,
    .optional "pid" pid, .optional "start_time" time, .optional "runtime" runtime] body
  .ok (.status (← r.get "script" Shape.string) (← r.get "running" Shape.bool)
    (← r.getD "pid" pid none) (← r.getD "start_time" time none) (← r.getD "runtime" runtime none))

/-- The end of a session. -/
def ofEnding (body : Json) : Except ShapeFault Event := do
  let r ← Record.ofJson (fieldsOf "ProcessEnded") [.of "script" Shape.string,
    .optional "exit_code" codeShape, .optional "signal" codeShape, .of "runtime" Shape.real] body
  .ok (.processEnded (← r.get "script" Shape.string) (← r.getD "exit_code" codeShape none)
    (← r.getD "signal" codeShape none) (← r.get "runtime" Shape.real))

/-- A failed request. -/
def ofError (body : Json) : Except ShapeFault Event := do
  let texts := Shape.list Shape.string
  let r ← Record.ofJson (fieldsOf "Error") [.of "message" Shape.string,
    .optional "errors" texts, .optional "missing" texts] body
  .ok (.error (← r.get "message" Shape.string) (← r.getD "errors" texts [])
    (← r.getD "missing" texts []))

/-- The event of a kind with fields. -/
def ofTagged : Json.Tagged → Except ShapeFault Event
  | ("connected", body) => do
    let r ← Record.ofJson (fieldsOf "Connected") [.of "hostname" Shape.string] body
    .ok (.connected (← r.get "hostname" Shape.string))
  | ("started", body) => ofBeginning "Started" .started body
  | ("watching", body) => ofBeginning "Watching" .watching body
  | ("output", body) => do
    let r ← Record.ofJson (fieldsOf "Output")
      [.of "script" Shape.string, .of "data" Shape.string] body
    .ok (.output (← r.get "script" Shape.string) (← r.get "data" Shape.string))
  | ("output_dropped", body) => do
    let r ← Record.ofJson (fieldsOf "OutputDropped")
      [.of "script" Shape.string, .of "chunks" Shape.u64] body
    .ok (.outputDropped (← r.get "script" Shape.string) (← r.get "chunks" Shape.u64).toUInt64)
  | ("process_ended", body) => ofEnding body
  | ("status", body) => ofStatus body
  | ("all_status", body) => do
    let shape := Shape.list RunningScript.shape
    let r ← Record.ofJson (fieldsOf "AllStatus") [.of "running" shape] body
    .ok (.allStatus (← r.get "running" shape))
  | ("error", body) => ofError body
  | ("external_stopped", body) => do
    let r ← Record.ofJson (fieldsOf "ExternalStopped") [.of "pid" Shape.pid] body
    .ok (.externalStopped (← r.get "pid" Shape.pid))
  | (kind, _) => .error (.unknownVariant kind kinds)

/-- Read an event. -/
def reader : Reader Event := fun c => do
  let (tagged, c) ← Json.readTagged "type" description kinds c
  let e ← Json.unplaced (ofTagged tagged)
  .ok (e, c)

/-- The event that a text is. -/
def parse (text : String) : Except ReadFault Event := Json.readAll reader (encodeUtf8 text)

end Event

end ScriptWarden
