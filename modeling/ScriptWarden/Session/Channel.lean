/-!
# Broadcast channels

A channel with any number of receivers, each of which gets every value that is sent after it
subscribed. The channel keeps the last values up to its capacity; a receiver that has fallen
behind those is told once how many it missed and goes on with the oldest value kept.
-/

namespace ScriptWarden

/-- A channel. A receiver is known by a number. -/
structure Channel (α : Type) where
  capacity : Nat
  /-- How many values have been sent. -/
  sent : Nat := 0
  /-- The last values sent, oldest first. -/
  kept : List α := []
  /-- The receivers, each with the count of values before the next one it gets. -/
  receivers : List (Nat × Nat) := []
  nextReceiver : Nat := 0
  /-- Whether nothing will be sent any more. -/
  closed : Bool := false
deriving DecidableEq, Repr, Inhabited

/-- What a receiver gets. -/
inductive Received (α : Type) where
  | value (a : α)
  /-- So many values have passed the receiver by. -/
  | lagged (missed : Nat)
  /-- Nothing yet. -/
  | empty
  /-- Nothing any more. -/
  | closed
deriving DecidableEq, Repr, Inhabited

namespace Channel

variable {α : Type}

/-- A channel for at least so many values: the next power of two. There is none for no values. -/
def ofCapacity? (n : Nat) : Option (Channel α) :=
  if n == 0 then none else some { capacity := n.nextPowerOfTwo }

/-- How many receivers there are. -/
def receiverCount (c : Channel α) : Nat := c.receivers.length

/-- Send a value to all receivers. Without receivers nothing happens. -/
def send (c : Channel α) (a : α) : Channel α :=
  if c.receivers.isEmpty then c
  else
    let kept := c.kept ++ [a]
    { c with sent := c.sent + 1, kept := kept.drop (kept.length - c.capacity) }

/-- A new receiver, which gets what is sent from now on. -/
def subscribe (c : Channel α) : Nat × Channel α :=
  (c.nextReceiver,
    { c with
      receivers := (c.nextReceiver, c.sent) :: c.receivers
      nextReceiver := c.nextReceiver + 1 })

/-- Drop a receiver. -/
def drop (c : Channel α) (receiver : Nat) : Channel α :=
  { c with receivers := c.receivers.filter (·.1 != receiver) }

/-- The count of values before the oldest one kept. -/
def oldest (c : Channel α) : Nat := c.sent - c.kept.length

/-- Set the count of a receiver. -/
def setPosition (c : Channel α) (receiver position : Nat) : Channel α :=
  { c with receivers := c.receivers.map fun (r, p) => (r, if r == receiver then position else p) }

/-- What a receiver gets next. -/
def receive (c : Channel α) (receiver : Nat) : Received α × Channel α :=
  match c.receivers.lookup receiver with
  | none => (.closed, c)
  | some position =>
    if position < c.oldest then
      (.lagged (c.oldest - position), c.setPosition receiver c.oldest)
    else
      match c.kept[position - c.oldest]? with
      | some a => (.value a, c.setPosition receiver (position + 1))
      | none => (if c.closed then .closed else .empty, c)

/-- Send nothing any more. -/
def close (c : Channel α) : Channel α := { c with closed := true }

end Channel

end ScriptWarden
