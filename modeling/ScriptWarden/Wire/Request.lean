import ScriptWarden.Json.Shape

/-!
# Requests

What a viewer asks for, one JSON text each. The kind of a request is its field `type`; its other
fields stand beside it in any order. A request can also be written as a list: the kind, then the
fields in order.
-/

namespace ScriptWarden

/-- The number of a process. -/
def Shape.pid : Shape UInt32 := fun j => (Shape.u32 j).map UInt32.ofNat

/-- What a viewer asks for. -/
inductive Request where
  | start (script : String)
  | stop (script : String)
  /-- Text for the standard input of a script. -/
  | input (script data : String)
  | watch (script : String)
  | unwatch (script : String)
  /-- The status of one script, or of every running one. -/
  | status (script : Option String)
  /-- End a process that the service did not start. -/
  | stopExternal (pid : UInt32)
deriving DecidableEq, Repr, Inhabited

namespace Request

/-- The kinds of requests. -/
def kinds : List String :=
  ["start", "stop", "input", "watch", "unwatch", "status", "stop_external"]

/-- What a request is called where something else stands for it. -/
def description : String := "internally tagged enum ClientRequest"

/-- A script's name as a field. -/
def scriptField : FieldShape := .of "script" Shape.string

/-- What the fields of a kind are called where something else stands for them. -/
def fieldsOf (kind : String) : String := "struct variant ClientRequest::" ++ kind

/-- A request that names a script and nothing else. -/
def ofScript (kind : String) (make : String → Request) (body : Json) :
    Except ShapeFault Request := do
  let r ← Record.ofJson (fieldsOf kind) [scriptField] body
  .ok (make (← r.get "script" Shape.string))

/-- The request of a kind with fields. -/
def ofTagged : Json.Tagged → Except ShapeFault Request
  | ("start", body) => ofScript "Start" .start body
  | ("stop", body) => ofScript "Stop" .stop body
  | ("watch", body) => ofScript "Watch" .watch body
  | ("unwatch", body) => ofScript "Unwatch" .unwatch body
  | ("input", body) => do
    let r ← Record.ofJson (fieldsOf "Input") [scriptField, .of "data" Shape.string] body
    .ok (.input (← r.get "script" Shape.string) (← r.get "data" Shape.string))
  | ("status", body) => do
    let shape := Shape.nullable Shape.string
    let r ← Record.ofJson (fieldsOf "Status") [.optional "script" shape] body
    .ok (.status (← r.getD "script" shape none))
  | ("stop_external", body) => do
    let r ← Record.ofJson (fieldsOf "StopExternal") [.of "pid" Shape.pid] body
    .ok (.stopExternal (← r.get "pid" Shape.pid))
  | (kind, _) => .error (.unknownVariant kind kinds)

/-- Read a request. -/
def reader : Reader Request := fun c => do
  let (tagged, c) ← Json.readTagged "type" description kinds c
  let r ← Json.unplaced (ofTagged tagged)
  .ok (r, c)

/-- The request that a text is. -/
def parse (text : String) : Except ReadFault Request := Json.readAll reader (encodeUtf8 text)

/-- A request of a kind with fields. -/
def tagged (kind : String) (fields : List (String × Json)) : Json :=
  .obj (("type", .str kind) :: fields)

/-- A request as a value. -/
def toJson : Request → Json
  | .start script => tagged "start" [("script", .str script)]
  | .stop script => tagged "stop" [("script", .str script)]
  | .input script data => tagged "input" [("script", .str script), ("data", .str data)]
  | .watch script => tagged "watch" [("script", .str script)]
  | .unwatch script => tagged "unwatch" [("script", .str script)]
  | .status script => tagged "status" [("script", .strOrNull script)]
  | .stopExternal pid => tagged "stop_external" [("pid", .nat pid.toNat)]

end Request

end ScriptWarden
