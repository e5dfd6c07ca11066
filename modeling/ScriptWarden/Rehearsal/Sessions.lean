import ScriptWarden.Rehearsal.Waiting

/-!
# Followers of sessions

How scripts are started, followed, fed and ended in a rehearsal.
-/

namespace ScriptWarden

/-- What a session is doing, in a word. -/
def Session.stateWord (s : Session) : String := if s.stopping then "stopping" else "running"

namespace Rehearsal

/-- Follow a session under a label, in place of any other. -/
def follow (label : String) (session : Session) (s : Subscription) : RehearsalWork Unit :=
  modify fun r =>
    let f : Follower := { label, session := session.id, receiver := s.receiver
                          pieces := s.history.reverse, exit := s.ended }
    { r with followers := f :: r.followers.filter (·.label != label) }

/-- Start a script and follow its session. -/
def start (n : ScriptName) (label : String) : RehearsalWork Session := do
  let session ← onService (Deployment.start n)
  follow label session (← onService (Deployment.subscribe session))
  return session

/-- Follow the session of a script; what is kept of its output. -/
def watch (n : ScriptName) (label : String) : RehearsalWork (List UInt8) := do
  let (session, s) ← onService (Deployment.watch n)
  follow label session s
  return s.history.flatten

/-- Ask for a script to end; its session afterwards. -/
def stop (n : ScriptName) : RehearsalWork Session := do
  onService (Deployment.stop n)
  onService (Deployment.view fun d => d.service.get n)

/-- Send chunks to a script until one is refused, at most so many. -/
def flood (n : ScriptName) (chunk : List UInt8) : Nat → RehearsalWork Unit
  | 0 => return
  | times + 1 => do
    onService (Deployment.sendInput n chunk)
    flood n chunk times

/-- Whether bytes contain others. -/
def contains (part : List UInt8) : List UInt8 → Bool
  | [] => part.isEmpty
  | b :: rest => part.isPrefixOf (b :: rest) || contains part rest

/-- Wait until the output of a follower contains bytes or ends; whether it contains them. -/
def readUntil (label : String) (part : List UInt8) : RehearsalWork Bool := do
  let seen := fun (r : Rehearsal) => (r.follower? label).any fun f => contains part f.output
  let ended := fun (r : Rehearsal) => (r.follower? label).all (·.exit.isSome)
  await fun r => seen r || ended r
  return seen (← get)

/-- Wait until the session of a follower has ended. -/
def waitForEnd (label : String) : RehearsalWork (Option Follower) := do
  await fun r => (r.follower? label).all (·.exit.isSome)
  return (← get).follower? label

/-- Ask all scripts to end and wait for that, at most for a while; how many sessions are left. -/
def shutdown (span : Duration) : RehearsalWork Nat := do
  let (sessions, d) := (← get).deployment.stopAll
  modify (·.withDeployment d)
  modify fun r =>
    waitUntil (fun r => r.deployment.haveEnded sessions) (some (r.host.now.after span)) r
  return (← get).service.liveSessions.length

end Rehearsal

end ScriptWarden
