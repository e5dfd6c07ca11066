import ScriptWarden.Service.Requests

/-!
# The launcher

The script that is designated for the boot is run once: its output is copied, and the launcher ends
as the script did. Without a designation there is nothing to do.
-/

namespace ScriptWarden

/-- A run of the designated script. -/
structure BootRun where
  script : ScriptName
  session : Nat
  receiver : Nat
  /-- What was copied so far. -/
  copied : List UInt8 := []
  /-- Whether the script was asked to end. -/
  stopRequested : Bool := false
  exit : Option Exit := none
deriving DecidableEq, Repr, Inhabited

/-- What the launcher ends with. -/
inductive BootOutcome where
  /-- Nothing is designated. -/
  | nothing
  | exited (script : ScriptName) (exit : Exit)
deriving DecidableEq, Repr, Inhabited

/-- The code that the launcher ends with. -/
def BootOutcome.code : BootOutcome → Int32
  | .nothing => 0
  | .exited _ exit => exit.shellCode

namespace BootRun

/-- Start the designated script, if there is one. -/
def begin : DeploymentWork (Option BootRun) := do
  match ← Deployment.onStore (Store.view Store.designated) with
  | none => return none
  | some designated =>
    let script ← Deployment.view fun _ => parseName designated
    let session ← Deployment.start script
    let s ← Deployment.subscribe session
    return some
      { script, session := session.id, receiver := s.receiver, copied := s.history.flatten
        exit := s.ended }

/-- Take what came from the session. -/
def take (b : BootRun) (runtime : Duration) : Received SessionEvent → BootRun
  | .value (.output chunk) => { b with copied := b.copied ++ chunk }
  | .value (.ended exit) => { b with exit := some exit }
  | .closed => { b with exit := some { runtime } }
  | .lagged _ | .empty => b

/-- Ask the script to end, once. -/
def cancel (b : BootRun) (d : Deployment) : BootRun × Deployment :=
  if b.stopRequested then (b, d)
  else
    ({ b with stopRequested := true },
      match d.service.session? b.session with
      | some s => d.setSession s.requestStop
      | none => d)

/-- Copy some output; none if there is nothing to copy. -/
def copy? (b : BootRun) (d : Deployment) : Option (BootRun × Deployment) :=
  if b.exit.isSome then none
  else
    match d.receive b.session b.receiver with
    | (.empty, _) => none
    | (got, d) =>
      let runtime := (d.service.session? b.session).elim {} (·.runtime d.host.now)
      some (b.take runtime got, d)

/-- What a run came to, when it has. -/
def outcome? (b : BootRun) : Option BootOutcome := b.exit.map (.exited b.script)

end BootRun

end ScriptWarden
