import ScriptWarden.Service.Basic

/-!
# What goes on in a service by itself

The readers of outputs, the writers of inputs and the supervisors of sessions. Each move is one
step of one of them; a step that cannot be taken yet is none.
-/

namespace ScriptWarden

namespace Deployment

/-- How many bytes of output are read at once. -/
def readSize : Nat := 4096

/-- Stop reading an output of a session. -/
def letGoOutput (d : Deployment) (s : Session) (stream : Stream) : Deployment :=
  { d.setSession (s.stopReading stream) with
    host := d.host.release (.pipeRead (s.pipes.ofStream stream)) }

/-- Read some output of a session and publish it. -/
def readOutput? (d : Deployment) (id : Nat) (stream : Stream) : Option Deployment := do
  let s ← d.service.session? id
  if !s.reading.contains stream then none
  else
    match d.host.readPipe (s.pipes.ofStream stream) readSize with
    | (.bytes bytes, host) => some ({ d with host }.setSession (s.publish bytes))
    | (.ended, _) => some (d.letGoOutput s stream)
    | (.empty, _) => none

/-- Stop writing to a session's process. -/
def letGoInput (d : Deployment) (s : Session) : Deployment :=
  { d.setSession { s with input := s.input.stop } with
    host := d.host.release (.pipeWrite s.pipes.input) }

/-- Write some input of a session. -/
def writeInput? (d : Deployment) (id : Nat) : Option Deployment := do
  let s ← d.service.session? id
  if s.input.stopped then none
  else if s.input.closed then some (d.letGoInput s)
  else
    match s.input.writing with
    | none => (s.input.take?).map fun input => d.setSession { s with input }
    | some message =>
      match d.host.writePipe s.pipes.input message with
      | (.wrote count, host) =>
        some ({ d with host }.setSession { s with input := s.input.wrote count })
      | (.broken, _) => some (d.letGoInput s)
      | (.full, _) => none

/-- Write the log of a session, as far as that can be done. -/
def writeLog (d : Deployment) (s : Session) (exit : Exit) : Deployment :=
  let site := d.service.registry.site
  let path := site.logPath s.name
  let files := d.host.files
  let prepared := match Files.parentPath? path with
    | some directory => files.makeDirectories (site.seen directory)
    | none => .ok files
  let written := prepared.bind fun files =>
    match files.write d.host.now.timestamp (site.seen path) (encodeUtf8 (s.logText exit)) with
    | .ok files => .ok files
    | .error _ => .ok files
  match written with
  | .ok files => { d with host := { d.host with files } }
  | .error _ => d

/-- Do what the supervisor of a session does. -/
def perform (d : Deployment) (s : Session) : SupervisorAct → Deployment
  | .reap => { d with host := (d.host.reap? s.pid).elim d.host (·.2) }
  | .signal number => { d with host := (d.host.signal s.pid number).toOption.getD d.host }
  | .abandon stream => d.letGoOutput s stream
  | .closeInput => d.setSession { s with input := s.input.close }
  | .writeLog exit => d.writeLog s exit
  | .leave => d.withSlots (d.slots.release s.name s.id)
  | .announce exit => d.setSession { s with hub := s.hub.finish exit }
  | .nothing => d

/-- Let the supervisor of a session take a step. -/
def supervise? (d : Deployment) (id : Nat) : Option Deployment := do
  let s ← d.service.session? id
  let o := s.outlook d.host.now d.service.config.gracePeriod (d.host.statusOf? s.pid)
  let (supervision, act) ← s.supervision.step? o
  let s := { s with supervision }
  some ((d.setSession s).perform s act)

/-- Take a step as often as it can be taken, up to a number of times; whether it was taken. -/
def repeatStep (step : Deployment → Option Deployment) : Nat → Bool → Deployment → Bool × Deployment
  | 0, moved, d => (moved, d)
  | n + 1, moved, d =>
    match step d with
    | some d => repeatStep step n true d
    | none => (moved, d)

/-- How often a step is taken in one turn. -/
def turnLength : Nat := 64

/-- Let everything that belongs to a session have a turn; whether anything was done. -/
def sessionTurn (d : Deployment) (id : Nat) : Bool × Deployment :=
  let steps : List (Deployment → Option Deployment) :=
    [(·.readOutput? id .out), (·.readOutput? id .err), (·.writeInput? id), (·.supervise? id)]
  steps.foldl (fun (moved, d) step => repeatStep step turnLength moved d) (false, d)

/-- Let everything in a service have a turn; whether anything was done. -/
def turn (d : Deployment) : Bool × Deployment :=
  d.service.sessions.foldr (fun s (moved, d) =>
    let (did, d) := if s.supervision == .finished && s.input.stopped && s.reading.isEmpty then (false, d)
      else d.sessionTurn s.id
    (moved || did, d)) (false, d)

/-- The first moment that a supervisor waits for. -/
def nextDeadline? (d : Deployment) : Option Moment :=
  (d.service.sessions.filterMap (·.supervision.deadline?)).min?

end Deployment

end ScriptWarden
