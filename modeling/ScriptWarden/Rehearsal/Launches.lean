import ScriptWarden.Cli.Commands
import ScriptWarden.Rehearsal.Waiting

/-!
# Commands and boots

Commands of the command line in a rehearsal, each with a service of its own, and runs of the
designated script.
-/

namespace ScriptWarden

namespace Rehearsal

/-- Wait until the designated script has ended, which is asked to end at a moment if one is given.
What the run came to, and what was copied. -/
def finishBoot (cancelAt : Option Moment) : RehearsalWork (BootOutcome × List UInt8) := do
  let isOver := fun (r : Rehearsal) => r.boot.all fun b => b.2.exit.isSome
  modify (waitUntil isOver cancelAt)
  if !isOver (← get) then
    modify fun r =>
      match r.boot with
      | none => r
      | some (service, run) =>
        let (run, d) := run.cancel { host := r.host, service }
        { r with host := d.host, boot := some (d.service, run) }
    await isOver
  let r ← get
  set { r with boot := none }
  match r.boot with
  | some (_, run) => return (run.outcome?.getD .nothing, run.copied)
  | none => return (.nothing, [])

/-- Run the designated script as at boot, and ask it to end after a while if one is given. -/
def runBoot (cancelAfter : Option Duration) : RehearsalWork (BootOutcome × List UInt8) := do
  let r ← get
  let service := Service.new r.service.config r.root hostname r.host.files
  let (result, d) := BootRun.begin.run { host := r.host, service }
  set { r with host := d.host }
  match result with
  | .error fault => throw fault
  | .ok none => return (.nothing, [])
  | .ok (some run) =>
    modify fun r => { r with boot := some (d.service, run) }
    finishBoot (cancelAfter.map r.host.now.after)

/-- Carry out a command line of somebody with a home directory. Nothing is told of how commands are
written. -/
def runCommand (home : String) (words : List String) : RehearsalWork Report := do
  match Arguments.read words with
  | .usageError => return { code := 2 }
  | .help => return {}
  | .order order named =>
    let r ← get
    let terminal : Terminal := { home, workingDir := r.root, hostname }
    let environment := Deployment.overlay r.host.environment [("HOME", encodeUtf8 home)]
    let (begun, host) := order.begin terminal named { r.host with environment }
    set { r with host := { host with environment := r.host.environment } }
    match begun with
    | .ended report => return report
    | .booting service run =>
      modify fun r => { r with boot := some (service, run) }
      let (outcome, copied) ← finishBoot none
      return Order.bootReport copied outcome

end Rehearsal

end ScriptWarden
