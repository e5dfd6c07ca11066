import ScriptWarden.Fault

/-!
# Input

The input of a session's process: messages wait in a queue that holds a limited number of them,
and a writer puts one after the other into the pipe as far as that has room. Nobody who sends
input waits for the process to read it.
-/

namespace ScriptWarden

/-- The input of a session. -/
structure InputQueue where
  /-- The messages that the writer has not taken, oldest first. -/
  waiting : List (List UInt8) := []
  /-- What is left of the message that the writer is at. -/
  writing : Option (List UInt8) := none
  /-- Whether the session lets its process have no more input. -/
  closed : Bool := false
  /-- Whether the writer has stopped and let go of the pipe. -/
  stopped : Bool := false
deriving DecidableEq, Repr, Inhabited

namespace InputQueue

/-- How many messages may wait. -/
def depth : Nat := 32

/-- Accept a message for the process of a script, whole or not at all. -/
def accept (q : InputQueue) (name : String) (message : List UInt8) : Except Fault InputQueue :=
  if q.closed || q.stopped then .error (.inputClosed name)
  else if depth ≤ q.waiting.length then .error (.inputBacklog name)
  else .ok { q with waiting := q.waiting ++ [message] }

/-- Let the process have no more input. -/
def close (q : InputQueue) : InputQueue := { q with closed := true }

/-- The writer stops: what was accepted and not written is lost. -/
def stop (q : InputQueue) : InputQueue := { q with waiting := [], writing := none, stopped := true }

/-- The writer takes the next message. -/
def take? (q : InputQueue) : Option InputQueue :=
  match q.stopped, q.writing, q.waiting with
  | false, none, message :: rest => some { q with waiting := rest, writing := some message }
  | _, _, _ => none

/-- The pipe has taken so many bytes of the message that the writer is at. -/
def wrote (q : InputQueue) (count : Nat) : InputQueue :=
  match q.writing with
  | some message =>
    let rest := message.drop count
    { q with writing := if rest.isEmpty then none else some rest }
  | none => q

end InputQueue

end ScriptWarden
