import ScriptWarden.Http.Message
import ScriptWarden.Http.Multipart
import ScriptWarden.Http.Status
import ScriptWarden.Json.InPlace
import ScriptWarden.Service.Requests

/-!
# Routes

What a service answers to HTTP requests: about its scripts, about the script to be run at boot, and
about itself. What has no route is not found, and a route takes only its own methods.
-/

namespace ScriptWarden

/-- What a path asks for. Names of scripts stand as they are written in the path. -/
inductive Route where
  | hostname
  | scripts
  | script (name : String)
  | log (name : String)
  | autoboot (name : String)
  | upload
  | blocked
  | socket
deriving DecidableEq, Repr, Inhabited

namespace Route

/-- The route of a path. A name is not empty. -/
def ofSegments? : List String → Option Route
  | ["api", "hostname"] => some .hostname
  | ["api", "scripts"] => some .scripts
  | ["api", "scripts", name] => if name.isEmpty then none else some (.script name)
  | ["api", "scripts", name, "log"] => if name.isEmpty then none else some (.log name)
  | ["api", "scripts", name, "autoboot"] => if name.isEmpty then none else some (.autoboot name)
  | ["api", "upload"] => some .upload
  | ["api", "config", "blocked"] => some .blocked
  | ["ws"] => some .socket
  | _ => none

/-- The methods of a route. What can be got can also be asked for without what the answer
carries. -/
def methods : Route → List String
  | .script _ => ["GET", "HEAD", "DELETE"]
  | .autoboot _ | .upload => ["POST"]
  | _ => ["GET", "HEAD"]

-- ---------------------------------------------------------------------------
-- Answers
-- ---------------------------------------------------------------------------

/-- The answer to what was done, or to what could not be done. -/
def answerWork (work : DeploymentWork Json) : StateM Deployment HttpAnswer := do
  match ← work.run with
  | .ok value => return .ok value
  | .error fault => return .failure fault.httpStatus fault.message

/-- Answer with the name that a path holds. -/
def withText (raw : String) (answer : String → StateM Deployment HttpAnswer) :
    StateM Deployment HttpAnswer :=
  match decodeUtf8? (HttpRequest.unescaped raw.toList) with
  | none => return .plain 400 "Invalid URL: Invalid UTF-8 in `name`"
  | some text => answer text

/-- Do something about the script that a path names. A name that no script can have is not found. -/
def withName (raw : String) (work : ScriptName → DeploymentWork Json) :
    StateM Deployment HttpAnswer :=
  withText raw fun text =>
    answerWork (do
      match ScriptName.parse text with
      | .ok name => work name
      | .error _ => throw (.notFound text))

/-- All scripts and the processes that run scripts from outside. -/
def scriptsAnswer : DeploymentWork Json := do
  let records ← Deployment.listScripts
  let processes := (← get).externalProcesses
  return .obj [("scripts", .arr (records.map (·.toJson))),
    ("external_processes", .arr (processes.map (·.toJson)))]

/-- A script with its source. -/
def scriptAnswer (n : ScriptName) : DeploymentWork Json := do
  let record ← Deployment.scriptRecord n
  let source ← Deployment.view fun d => d.service.registry.source d.host.files n
  return .obj (record.fields ++ [("content", .str source)])

/-- The log of a script. -/
def logAnswer (n : ScriptName) : DeploymentWork Json := do
  match ← Deployment.view fun d => d.service.registry.log d.host.files n with
  | some text => return .obj [("log", .str text)]
  | none => throw (.notFound ("log for " ++ n.text))

/-- Whether a script is to be designated, as a body asks. A blank body asks for it. -/
def enabledOf (body : List UInt8) : Except ReadFault Bool := do
  if body.all Multipart.isBlankByte then return true
  let fields : List FieldShape := [.optional "enabled" Shape.bool]
  let r ← Json.readAll (Json.readRecord "struct AutobootRequest" fields) body
  Json.unplaced (r.getD "enabled" Shape.bool true)

/-- Designate a script or let it be designated no longer. -/
def designation (enabled : Bool) (n : ScriptName) : DeploymentWork Json := do
  if !(← Deployment.view fun d => .ok (d.service.registry.hasFile d.host.files n)) then
    throw (.notFound n.text)
  let designated ← Deployment.setAutoboot n enabled
  return .obj [("success", .bool true), ("autoboot", .strOrNull designated)]

/-- The answer to a request about the designation. A body that is too large comes before a name that
no script can have, and that before a body that cannot be read. -/
def autobootAnswer (raw : String) (body : List UInt8) : StateM Deployment HttpAnswer :=
  withText raw fun text => do
    if (← get).service.config.maxUpload < body.length then
      return .plain 413 "Failed to buffer the request body: length limit exceeded"
    match ScriptName.parse text, enabledOf body with
    | .error _, _ => answerWork (throw (.notFound text))
    | .ok _, .error fault => return .failure 400 ("Invalid request body: " ++ fault.message)
    | .ok n, .ok enabled => answerWork (designation enabled n)

/-- What became of an upload. -/
def uploadJson (u : Store.Upload) : Json :=
  let saved := match u.savedTo with
    | some path => [("message", Json.str ("File saved to " ++ path))]
    | none => []
  .obj ([("filename", .str u.name.text), ("is_valid", .bool u.verdict.isValid),
    ("is_executable", .bool u.verdict.isExecutable), ("errors", .strings u.verdict.errors),
    ("missing_deps", .strings u.verdict.missing), ("saved", .bool u.savedTo.isSome)] ++ saved)

/-- The answer to an upload: the first file of the form is taken. -/
def uploadAnswer (r : HttpRequest) : StateM Deployment HttpAnswer := do
  let limit := (← get).service.config.maxUpload
  match (r.header? "content-type").bind Multipart.boundary? with
  | none => return .plain 400 "Invalid `boundary` for `multipart/form-data` request"
  | some boundary =>
    if limit < r.body.length then return .failure 413 "Request payload is too large"
    match Multipart.find? boundary "file" r.body with
    | .error fault => return .failure 400 fault.message
    | .ok none => return .failure 400 "No file provided"
    | .ok (some field) =>
      let fileName := field.fileName.getD ""
      if fileName.isEmpty then return .failure 400 "No file selected"
      else answerWork (uploadJson <$> Deployment.saveUpload fileName field.bytes)

/-- The lists of what scripts may not use. -/
def blockedJson (p : Policy) : Json :=
  .obj [("blocked_modules", .strings p.blockedModules), ("blocked_builtins", .strings p.blockedBuiltins),
    ("blocked_functions", .strings p.blockedFunctions)]

/-- The answer to one who asks for a websocket where none can be opened. -/
def socketAnswer (r : HttpRequest) : HttpAnswer :=
  let isHeader := fun (name value : String) =>
    ((r.header? name).map HttpRequest.lower) == some value
  let connection := HttpRequest.lower ((r.header? "connection").getD "")
  if r.method != "GET" then .plain 405 "Request method must be `GET`"
  else if (connection.splitOn "upgrade").length < 2 then
    .plain 400 "Connection header did not include 'upgrade'"
  else if !isHeader "upgrade" "websocket" then
    .plain 400 "`Upgrade` header did not include 'websocket'"
  else if (r.header? "sec-websocket-key").isNone then
    .plain 400 "`Sec-WebSocket-Key` header missing"
  else if !isHeader "sec-websocket-version" "13" then
    .plain 400 "`Sec-WebSocket-Version` header did not include '13'"
  else .plain 426 "WebSocket request couldn't be upgraded since no upgrade state was present"

/-- The answer of a route to a request with one of its methods. -/
def answer (route : Route) (r : HttpRequest) : StateM Deployment HttpAnswer := do
  match route with
  | .hostname => return .ok (.obj [("hostname", .str (← get).service.hostname)])
  | .scripts => answerWork scriptsAnswer
  | .script raw =>
    if r.method == "DELETE" then
      withName raw fun n => do
        Deployment.deleteScript n
        return .obj [("success", .bool true)]
    else withName raw scriptAnswer
  | .log raw => withName raw logAnswer
  | .autoboot raw => autobootAnswer raw r.body
  | .upload => uploadAnswer r
  | .blocked => return .ok (blockedJson (← get).service.config.policy)
  | .socket => return socketAnswer r

end Route

/-- What a service answers to a request. -/
def HttpRequest.answer (r : HttpRequest) : StateM Deployment HttpAnswer := do
  match Route.ofSegments? r.segments with
  | none => return .plain 404
  | some route =>
    if !route.methods.contains r.method then return .plain 405
    else
      let answer ← route.answer r
      return if r.method == "HEAD" then answer.withoutBody else answer

end ScriptWarden
