import ScriptWarden.Client.Forwarder
import ScriptWarden.Service.Requests
import ScriptWarden.Wire.Request

/-!
# Connections

A viewer's connection: its requests, the sessions that are forwarded to it, and one queue of the
events that it is to be told, in order. A viewer that falls behind makes its forwarders wait, and
nobody else.
-/

namespace ScriptWarden

/-- The forwarding of a script's session to a viewer. -/
structure Watch where
  name : ScriptName
  session : Nat
  receiver : Nat
  forwarder : Forwarder
deriving DecidableEq, Repr, Inhabited

/-- The connection of a viewer. -/
structure Connection where
  /-- The events that the viewer has not been told yet. -/
  outbound : List Event := []
  /-- At most one for each script. -/
  watches : List Watch := []
deriving DecidableEq, Repr, Inhabited

namespace Connection

/-- How many events may be queued before forwarders wait. -/
def outboundCapacity : Nat := 256

/-- Queue an event. -/
def send (c : Connection) (e : Event) : Connection := { c with outbound := c.outbound ++ [e] }

/-- Whether a forwarding goes on. -/
def isActive (w : Watch) : Bool := !w.forwarder.isOver || !w.forwarder.due.isEmpty

/-- How many sessions are forwarded. -/
def watchCount (c : Connection) : Nat := (c.watches.filter isActive).length

/-- Forward the session of a script no more. -/
def detach (c : Connection) (n : ScriptName) (d : Deployment) : Connection × Deployment :=
  let gone := c.watches.filter (·.name == n)
  ({ c with watches := c.watches.filter (·.name != n) },
    gone.foldl (fun d w => d.unsubscribe w.session w.receiver) d)

/-- Forward no session any more. -/
def close (c : Connection) (d : Deployment) : Connection × Deployment :=
  ({ c with watches := [] }, c.watches.foldl (fun d w => d.unsubscribe w.session w.receiver) d)

/-- Forward a session in place of any other of the same script. -/
def attach (c : Connection) (session : Session) (s : Subscription) (acknowledgement : Option Event)
    (d : Deployment) : Connection × Deployment :=
  let (c, d) := { c with watches := c.watches.filter isActive }.detach session.name d
  let w : Watch :=
    { name := session.name, session := session.id, receiver := s.receiver
      forwarder := Forwarder.begin session.name.text s acknowledgement }
  ({ c with watches := w :: c.watches }, d)

-- ---------------------------------------------------------------------------
-- Requests
-- ---------------------------------------------------------------------------

/-- What a request comes to. -/
inductive Handled where
  | settled (c : Connection) (d : Deployment)
  /-- A process is being ended; the viewer is told when that is over. -/
  | ending (c : Connection) (t : Termination) (d : Deployment)

/-- The answer to work that failed is an event. -/
def answering (c : Connection) (d : Deployment) (work : DeploymentWork α)
    (continue_ : α → Deployment → Handled) : Handled :=
  match work.run d with
  | (.ok a, d) => continue_ a d
  | (.error f, d) => .settled (c.send (.ofFault f)) d

/-- The script that a request is about. -/
def named (script : String) : DeploymentWork ScriptName := Deployment.view fun _ => parseName script

/-- The event that tells how a script runs. -/
def statusEvent (n : ScriptName) : Option RunningScript → Event
  | some r => .status r.script true (some r.pid) (some r.startTime) (some r.runtime)
  | none => .status n.text false none none none

/-- Handle a request. -/
def handle (c : Connection) (d : Deployment) : Request → Handled
  | .start script =>
    c.answering d (do
      let session ← Deployment.start (← named script)
      return (session, ← Deployment.subscribe session)) fun (session, subscription) d =>
        let c := c.send (.started session.name.text session.pid session.startedAt.timestamp)
        let (c, d) := c.attach session subscription none d
        .settled c d
  | .stop script => c.answering d (do Deployment.stop (← named script)) fun _ d => .settled c d
  | .input script data =>
    c.answering d (do Deployment.sendInput (← named script) (encodeUtf8 data)) fun _ d =>
      .settled c d
  | .watch script =>
    c.answering d (do Deployment.watch (← named script)) fun (session, subscription) d =>
      let acknowledgement :=
        Event.watching session.name.text session.pid session.startedAt.timestamp
      let (c, d) := c.attach session subscription (some acknowledgement) d
      .settled c d
  | .unwatch script =>
    match ScriptName.parse script with
    | .ok n => let (c, d) := c.detach n d; .settled c d
    | .error _ => .settled c d
  | .status (some script) =>
    c.answering d (named script) fun n d =>
      .settled (c.send (statusEvent n (d.service.status d.host.now n))) d
  | .status none => .settled (c.send (.allStatus (d.service.statusAll d.host.now))) d
  | .stopExternal pid =>
    c.answering d (Deployment.beginTermination pid) fun t d => .ending c t d

/-- Handle a text from the viewer. -/
def handleText (c : Connection) (d : Deployment) (text : String) : Handled :=
  match Request.parse text with
  | .ok r => c.handle d r
  | .error f => .settled (c.send (.plainError ("Invalid request: " ++ f.message))) d

/-- Tell the viewer that a process has been ended. -/
def endedExternal (c : Connection) (t : Termination) : Connection := c.send (.externalStopped t.pid)

-- ---------------------------------------------------------------------------
-- Forwarding
-- ---------------------------------------------------------------------------

/-- Let a forwarding take one step, with so much room in the viewer's queue: queue an event that is
due, or else take what came from the session. -/
def forward? (room : Bool) (w : Watch) (d : Deployment) :
    Option (Option Event × Watch × Deployment) :=
  match w.forwarder.due with
  | e :: due =>
    if !room then none
    else
      let d := if due.isEmpty && w.forwarder.isOver then d.unsubscribe w.session w.receiver else d
      some (some e, { w with forwarder := { w.forwarder with due } }, d)
  | [] =>
    if w.forwarder.isOver then none
    else
      match d.receive w.session w.receiver with
      | (.empty, _) => none
      | (got, d) =>
        let forwarder := w.forwarder.take got
        let d := if forwarder.isOver && forwarder.due.isEmpty then d.unsubscribe w.session w.receiver
          else d
        some (none, { w with forwarder }, d)

/-- Let a forwarding take steps, up to a number of them; whether it took any. -/
def forwardAll : Nat → Bool → List Event → Watch → Deployment → Bool × List Event × Watch × Deployment
  | 0, moved, out, w, d => (moved, out, w, d)
  | n + 1, moved, out, w, d =>
    match forward? (out.length < outboundCapacity) w d with
    | some (e, w, d) => forwardAll n true (out ++ e.toList) w d
    | none => (moved, out, w, d)

/-- How many steps a forwarding takes in one turn. -/
def turnLength : Nat := 64

/-- Let all forwardings have a turn; whether anything was done. -/
def turn (c : Connection) (d : Deployment) : Bool × Connection × Deployment :=
  let (moved, out, watches, d) := c.watches.foldr (fun w (moved, out, ws, d) =>
    let (moved, out, w, d) := forwardAll turnLength moved out w d
    (moved, out, w :: ws, d)) (false, c.outbound, [], d)
  (moved, { outbound := out, watches }, d)

end Connection

end ScriptWarden
