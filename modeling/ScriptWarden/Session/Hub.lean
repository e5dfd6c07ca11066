import ScriptWarden.Session.Channel
import ScriptWarden.Session.Exit

/-!
# Output hubs

The output of one session: the end of what was published, for viewers that come late and for the
log, and a channel for those that are there. Publishing adds to both at once and subscribing takes
from both at once, so a viewer gets every piece exactly once.
-/

namespace ScriptWarden

/-- What viewers of a session are told. -/
inductive SessionEvent where
  | output (chunk : List UInt8)
  /-- The process has ended; nothing follows. -/
  | ended (exit : Exit)
deriving DecidableEq, Repr, Inhabited

/-- The output of a session. -/
structure Hub where
  /-- How many bytes are kept for viewers that come late. -/
  limit : Nat
  /-- The pieces kept, oldest first. -/
  history : List (List UInt8) := []
  /-- How many bytes the pieces kept have. -/
  historyBytes : Nat := 0
  /-- Whether older output was let go. -/
  truncated : Bool := false
  ended : Option Exit := none
  channel : Channel SessionEvent
deriving DecidableEq, Repr, Inhabited

/-- What a viewer starts from. -/
structure Subscription where
  /-- The pieces published before, as far as they are kept. -/
  history : List (List UInt8)
  /-- The end of the session, if it came before. -/
  ended : Option Exit
  /-- The receiver of everything after that. -/
  receiver : Nat
deriving DecidableEq, Repr, Inhabited

namespace Hub

/-- How many events a channel holds for a viewer that falls behind. -/
def standardCapacity : Nat := 1024

/-- A hub with a limit and a channel for so many events. -/
def ofCapacity? (limit capacity : Nat) : Option Hub :=
  (Channel.ofCapacity? capacity).map fun channel => { limit, channel }

/-- A hub with a limit. -/
def new (limit : Nat) : Hub := { limit, channel := { capacity := standardCapacity } }

/-- Let go of the oldest bytes until so many are within a limit: the bytes left, the pieces left,
and whether any were let go. -/
def trim (limit : Nat) : Nat → List (List UInt8) → Nat × List (List UInt8) × Bool
  | bytes, [] => (bytes, [], false)
  | bytes, front :: rest =>
    if bytes ≤ limit then (bytes, front :: rest, false)
    else
      let excess := bytes - limit
      if excess < front.length then (bytes - excess, front.drop excess :: rest, true)
      else
        let (bytes, pieces, _) := trim limit (bytes - front.length) rest
        (bytes, pieces, true)

/-- Publish a piece of output. Nothing is published after the end. -/
def publish (h : Hub) (chunk : List UInt8) : Hub :=
  if chunk.isEmpty || h.ended.isSome then h
  else
    let (bytes, history, cut) :=
      trim h.limit (h.historyBytes + chunk.length) (h.history ++ [chunk])
    { h with
      history, historyBytes := bytes, truncated := h.truncated || cut
      channel := h.channel.send (.output chunk) }

/-- Publish the end of the session. There is one end. -/
def finish (h : Hub) (exit : Exit) : Hub :=
  if h.ended.isSome then h
  else { h with ended := some exit, channel := h.channel.send (.ended exit) }

/-- Take what there is and subscribe to what comes. -/
def subscribe (h : Hub) : Subscription × Hub :=
  let (receiver, channel) := h.channel.subscribe
  ({ history := h.history, ended := h.ended, receiver }, { h with channel })

/-- What a receiver gets next. -/
def receive (h : Hub) (receiver : Nat) : Received SessionEvent × Hub :=
  let (got, channel) := h.channel.receive receiver
  (got, { h with channel })

/-- Drop a receiver. -/
def drop (h : Hub) (receiver : Nat) : Hub := { h with channel := h.channel.drop receiver }

/-- Let go of a hub: its receivers still get what was sent. -/
def close (h : Hub) : Hub := { h with channel := h.channel.close }

/-- How many receivers there are. -/
def subscriberCount (h : Hub) : Nat := h.channel.receiverCount

/-- All output that is kept. -/
def contents (h : Hub) : List UInt8 := h.history.flatten

end Hub

end ScriptWarden
