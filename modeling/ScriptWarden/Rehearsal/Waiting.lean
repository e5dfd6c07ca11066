import ScriptWarden.Rehearsal.Basic
import ScriptWarden.Service.Progress

/-!
# Waiting

What happens in a rehearsal while somebody waits. Everybody gets a turn, one after the other; when
nobody can do anything, the clock goes on to the next moment that somebody waits for.
-/

namespace ScriptWarden

namespace Rehearsal

-- ---------------------------------------------------------------------------
-- Turns
-- ---------------------------------------------------------------------------

/-- Give a follower everything that has come for it. The fuel bounds how much that is. -/
def drain : Nat → Follower → Deployment → Bool → Bool × Follower × Deployment
  | 0, f, d, moved => (moved, f, d)
  | n + 1, f, d, moved =>
    if f.exit.isSome then (moved, f, d)
    else
      match d.receive f.session f.receiver with
      | (.empty, _) | (.closed, _) => (moved, f, d)
      | (got, d) => drain n (f.take got) d true

/-- How much a follower is given in one turn. -/
def drainLength : Nat := 4096

/-- Let the launcher copy what has come. The fuel bounds how much that is. -/
def copyAll : Nat → BootRun → Deployment → Bool → Bool × BootRun × Deployment
  | 0, b, d, moved => (moved, b, d)
  | n + 1, b, d, moved =>
    match b.copy? d with
    | some (b, d) => copyAll n b d true
    | none => (moved, b, d)

/-- Read what a process beside the service has written. -/
def hear (b : Bystander) (h : Host) : Bool × Bystander × Host :=
  match h.readPipe b.output Host.pipeCapacity with
  | (.bytes _, h) => (true, { b with hasSpoken := true }, h)
  | (.ended, h) => (!b.hasSpoken, { b with hasSpoken := true }, h)
  | (.empty, h) => (false, b, h)

/-- Let the processes have a turn. -/
def hostTurn (r : Rehearsal) : Bool × Rehearsal :=
  let (moved, host) := r.host.turn
  (moved, { r with host })

/-- Let the processes go on until all of them wait for something. The fuel bounds how many turns
that takes. -/
def settleFrom : Nat → Rehearsal → Rehearsal
  | 0, r => r
  | n + 1, r =>
    let (moved, r) := r.hostTurn
    if moved then settleFrom n r else r

/-- Let the processes go on for a moment, so that none is seen half-way to another program. -/
def settle (r : Rehearsal) : Rehearsal := settleFrom 16 r

/-- Let the service have a turn. -/
def serviceTurn (r : Rehearsal) : Bool × Rehearsal :=
  let (moved, d) := r.deployment.turn
  (moved, r.withDeployment d)

/-- Let the launcher have a turn. -/
def bootTurn (r : Rehearsal) : Bool × Rehearsal :=
  match r.boot with
  | none => (false, r)
  | some (service, run) =>
    let (moved, d) := ({ host := r.host, service } : Deployment).turn
    let (copied, run, d) := copyAll drainLength run d false
    (moved || copied, { r with host := d.host, boot := some (d.service, run) })

/-- Let the connections of the viewers have a turn. -/
def connectionsTurn (r : Rehearsal) : Bool × Rehearsal :=
  let (moved, connections, d) := r.connections.foldr (fun (label, c) (moved, rest, d) =>
    let (did, c, d) := c.turn d
    (moved || did, (label, c) :: rest, d)) (false, [], r.deployment)
  (moved, { r.withDeployment d with connections })

/-- Let the followers have a turn. -/
def followersTurn (r : Rehearsal) : Bool × Rehearsal :=
  let (moved, followers, d) := r.followers.foldr (fun f (moved, rest, d) =>
    let (did, f, d) := drain drainLength f d false
    (moved || did, f :: rest, d)) (false, [], r.deployment)
  (moved, { r.withDeployment d with followers })

/-- Hear the processes beside the service. -/
def bystandersTurn (r : Rehearsal) : Bool × Rehearsal :=
  let (moved, bystanders, host) := r.bystanders.foldr (fun b (moved, rest, host) =>
    let (did, b, host) := hear b host
    (moved || did, b :: rest, host)) (false, [], r.host)
  (moved, { r with bystanders, host })

/-- Let everybody have a turn; whether anything happened. -/
def turn (r : Rehearsal) : Bool × Rehearsal :=
  [hostTurn, serviceTurn, bootTurn, connectionsTurn, followersTurn, bystandersTurn].foldl
    (fun (moved, r) step => let (did, r) := step r; (moved || did, r)) (false, r)

-- ---------------------------------------------------------------------------
-- The clock
-- ---------------------------------------------------------------------------

/-- The first moment that somebody waits for. -/
def nextMoment? (r : Rehearsal) : Option Moment :=
  let bootDeadline := r.boot.bind fun (service, _) =>
    ({ host := r.host, service } : Deployment).nextDeadline?
  [r.host.nextWaking?, r.deployment.nextDeadline?, bootDeadline].reduceOption.min?

/-- Let the clock go on to a moment. -/
def goOnTo (r : Rehearsal) (m : Moment) : Rehearsal :=
  { r with host := { r.host with now := max r.host.now m } }

/-- Wait until something holds, at most up to a moment. The fuel bounds how many turns that takes. -/
def waitFrom (holds : Rehearsal → Bool) (limit : Option Moment) : Nat → Rehearsal → Rehearsal
  | 0, r => r
  | n + 1, r =>
    if holds r || limit.any (· ≤ r.host.now) then r
    else
      let (moved, r) := r.turn
      if moved then waitFrom holds limit n r
      else
        match [r.nextMoment?, limit].reduceOption.min? with
        | some m => waitFrom holds limit n (r.goOnTo m)
        | none => r

/-- How many turns are waited at most. -/
def patience : Nat := 1000000

/-- Wait until something holds, at most up to a moment. -/
def waitUntil (holds : Rehearsal → Bool) (limit : Option Moment) (r : Rehearsal) : Rehearsal :=
  waitFrom holds limit patience r

/-- Wait until something holds, or nothing can happen any more. -/
def await (holds : Rehearsal → Bool) : RehearsalWork Unit := modify (waitUntil holds none)

/-- Wait for a while. -/
def sleep (span : Duration) : RehearsalWork Unit :=
  modify fun r => waitUntil (fun _ => false) (some (r.host.now.after span)) r

end Rehearsal

end ScriptWarden
