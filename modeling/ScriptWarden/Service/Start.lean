import ScriptWarden.Service.Basic

/-!
# Starting scripts

A start takes the slot of its script, checks the script, starts its process, and lets the slot hold
the session. Each of these is one step; others may act between them.
-/

namespace ScriptWarden

namespace Deployment

/-- Take the slot of a script. -/
def reserve (n : ScriptName) : DeploymentWork Unit := fun d =>
  match d.slots.reserve n with
  | .ok slots => (.ok (), d.withSlots slots)
  | .error f => (.error f, d)

/-- Give back the slot of a start that failed. -/
def vacate (n : ScriptName) (d : Deployment) : Deployment := d.withSlots (d.slots.vacate n)

/-- Refuse a script that may not run. -/
def check (n : ScriptName) : DeploymentWork Unit := do
  let verdict ← onStore (Store.ask fun r fs => r.verdict fs n)
  if !verdict.isExecutable then
    throw (.notExecutable n.text (.ofFindings verdict.errors verdict.missing))

/-- The variables that scripts are started with besides those of the service. -/
def scriptVariables : Environment :=
  [("PYTHONUNBUFFERED", encodeUtf8 "1"), ("TERM", encodeUtf8 "xterm")]

/-- An environment in which some variables have other values. -/
def overlay (environment changes : Environment) : Environment :=
  environment.filter (fun v => !changes.any (·.1 == v.1)) ++ changes

/-- What follows the interpreter on the command line of a script. -/
def scriptArguments (c : Config) (site : Site) (n : ScriptName) : List String :=
  c.interpreterArgs ++ [site.scriptPath n]

/-- Start the process of a script, in the directory of the scripts and with pipes for its input and
its outputs. -/
def spawn (n : ScriptName) : DeploymentWork Session := fun d =>
  let site := d.service.registry.site
  let config := d.service.config
  let (input, host) := d.host.makePipe
  let (out, host) := host.makePipe
  let (err, host) := host.makePipe
  let started := host.spawn config.interpreter (scriptArguments config site n)
    (overlay host.environment scriptVariables) (site.seen site.scriptsDir)
    [(0, .pipeRead input), (1, .pipeWrite out), (2, .pipeWrite err)]
  match started with
  | .error fault => (.error (.spawnFailure n.text fault), d)
  | .ok (pid, host) =>
    let session := Session.new d.service.nextSession n pid { input, out, err } host.now
      config.replayLimit
    (.ok session,
      { host := { host with held := [.pipeWrite input, .pipeRead out, .pipeRead err] ++ host.held }
        service := { d.service with
          sessions := session :: d.service.sessions, nextSession := d.service.nextSession + 1 } })

/-- Let the slot of a script hold its session. -/
def publish (session : Session) (d : Deployment) : Deployment :=
  d.withSlots (d.slots.publish session.name session.id)

/-- Start a script. A start that fails leaves no slot taken. -/
def start (n : ScriptName) : DeploymentWork Session := do
  reserve n
  try
    check n
    let session ← spawn n
    modify (publish session)
    return session
  catch fault =>
    modify (vacate n)
    throw fault

end Deployment

end ScriptWarden
