import ScriptWarden.Service.Progress

/-!
# The input of a session

A call that has found the input open puts its message at the end of the queue, unless the queue is
full or the writer has stopped. The writer takes the messages in this order, and puts each into the
pipe as far as the pipe has room. So what was put is always a beginning of what was accepted, and until
the writer stops the rest is what the queue holds. A writer that has something to do while the input is
closed may see either first.

## Results

* `InputQueue.accept_eq` — a call, as what it finds and what it does then.
* `InputQueue.Moves` — what an input goes through.
* `Ledger.moves` — what was accepted, was put and waits, in every move.
* `Host.writePipe_wrote` — what the pipe has when something was put.
* `writeInput?_eq` — what the writer of a service sees first.
* `writeSeeing?_cases`, `writeInput?_cases` — what the writer of a session does in a step.
* `Writes.moves`, `Writes.lookup` — what that comes to for the input and for the pipe.
* `writeSeeing?_waits` — what a writer waits for.
-/

namespace ScriptWarden

namespace InputQueue

variable {q q' : InputQueue} {name : String} {message : List UInt8} {f : Fault}

-- ---------------------------------------------------------------------------
-- Calls
-- ---------------------------------------------------------------------------

/-- Whether no input is accepted from those who ask from now on. -/
def IsShut (q : InputQueue) : Prop := q.closed = true ∨ q.stopped = true

/-- What a call that has found the input open does: its message goes into the queue whole, or not at
all. -/
def send (q : InputQueue) (name : String) (message : List UInt8) : Except Fault InputQueue :=
  if q.stopped then .error (.inputClosed name)
  else if depth ≤ q.waiting.length then .error (.inputBacklog name)
  else .ok { q with waiting := q.waiting ++ [message] }

/-- A call looks whether the input is open, and then sends. -/
theorem accept_eq (q : InputQueue) (name : String) (message : List UInt8) :
    q.accept name message =
      if q.closed then .error (.inputClosed name) else q.send name message := by
  rw [accept, send]
  cases q.closed <;> cases q.stopped <;> rfl

theorem send_eq_ok : q.send name message = .ok q' ↔
    q.stopped = false ∧ q.waiting.length < depth ∧
      q' = { q with waiting := q.waiting ++ [message] } := by
  rw [send]
  cases q.stopped with
  | true => simp
  | false =>
    by_cases hFull : depth ≤ q.waiting.length
    · simp [hFull, Nat.not_lt.mpr hFull]
    · simp [hFull, Nat.lt_of_not_le hFull, eq_comm]

theorem send_eq_error : q.send name message = .error f ↔
    q.stopped = true ∧ f = .inputClosed name ∨
      q.stopped = false ∧ depth ≤ q.waiting.length ∧ f = .inputBacklog name := by
  rw [send]
  cases q.stopped with
  | true => simp [eq_comm]
  | false =>
    by_cases hFull : depth ≤ q.waiting.length
    · simp [hFull, eq_comm]
    · simp [hFull]

theorem take?_eq_some : q.take? = some q' ↔ ∃ message rest, q.stopped = false ∧ q.writing = none ∧
    q.waiting = message :: rest ∧
      q' = { q with waiting := rest, writing := some message } := by
  rw [take?]
  split
  · next message rest hStopped hWriting hWaiting =>
    constructor
    · intro hTaken
      exact ⟨message, rest, hStopped, hWriting, hWaiting, (Option.some.inj hTaken).symm⟩
    · rintro ⟨_, _, -, -, hSame, rfl⟩
      cases hWaiting.symm.trans hSame
      rfl
  · next hNot =>
    refine iff_of_false nofun ?_
    rintro ⟨message, rest, hStopped, hWriting, hWaiting, -⟩
    exact hNot message rest hStopped hWriting hWaiting

-- ---------------------------------------------------------------------------
-- What is to come
-- ---------------------------------------------------------------------------

/-- What the writer is to put into the pipe. -/
def toCome (q : InputQueue) : List UInt8 := q.writing.getD [] ++ q.waiting.flatten

theorem toCome_take (h : q.take? = some q') : q'.toCome = q.toCome := by
  obtain ⟨message, rest, -, hWriting, hWaiting, rfl⟩ := take?_eq_some.mp h
  simp [toCome, hWriting, hWaiting]

theorem toCome_wrote (h : q.writing = some message) (count : Nat) :
    q.toCome = message.take count ++ (q.wrote count).toCome := by
  have hRest : (q.wrote count).writing.getD [] = message.drop count ∧
      (q.wrote count).waiting = q.waiting := by
    rw [wrote, h]
    simp only
    split
    · next hDone => exact ⟨(List.isEmpty_iff.mp hDone).symm, trivial⟩
    · exact ⟨rfl, trivial⟩
  rw [toCome, toCome, h, hRest.1, hRest.2, Option.getD_some, ← List.append_assoc,
    List.take_append_drop]

theorem wrote_waiting (q : InputQueue) (count : Nat) : (q.wrote count).waiting = q.waiting := by
  rw [wrote]
  split <;> rfl

-- ---------------------------------------------------------------------------
-- Moves
-- ---------------------------------------------------------------------------

/-- One move of an input, with the messages that are accepted in it, and the bytes that are put into
the pipe. -/
inductive Moves (q : InputQueue) : List (List UInt8) → List UInt8 → InputQueue → Prop
  | rests : Moves q [] [] q
  | closes : Moves q [] [] q.close
  | stops : Moves q [] [] q.stop
  | sends {name : String} {message : List UInt8} {q' : InputQueue} :
      q.send name message = .ok q' → Moves q [message] [] q'
  | takes {q' : InputQueue} : q.take? = some q' → Moves q [] [] q'
  | puts {message : List UInt8} {count : Nat} :
      q.stopped = false → q.writing = some message → Moves q [] (message.take count) (q.wrote count)

/-- What was closed, or has stopped, stays so. -/
theorem Moves.staysShut {messages : List (List UInt8)} {bytes : List UInt8}
    (h : q.Moves messages bytes q') :
    (q.closed = true → q'.closed = true) ∧ (q.stopped = true → q'.stopped = true) := by
  cases h with
  | rests => exact ⟨id, id⟩
  | closes => exact ⟨fun _ => rfl, id⟩
  | stops => exact ⟨id, fun _ => rfl⟩
  | sends hSend =>
    obtain ⟨-, -, rfl⟩ := send_eq_ok.mp hSend
    exact ⟨id, id⟩
  | takes hTake =>
    obtain ⟨message, rest, -, -, -, rfl⟩ := take?_eq_some.mp hTake
    exact ⟨id, id⟩
  | puts =>
    rw [wrote]
    split <;> exact ⟨id, id⟩

end InputQueue

-- ---------------------------------------------------------------------------
-- Ledgers
-- ---------------------------------------------------------------------------

/-- The messages that were accepted, in order, and the bytes that were put into the pipe, beside what
the queue holds. -/
structure Ledger (accepted : List (List UInt8)) (written : List UInt8) (q : InputQueue) : Prop where
  /-- Nothing is lost before the writer stops. -/
  whole : q.stopped = false → accepted.flatten = written ++ q.toCome
  isPrefix : written <+: accepted.flatten
  depth : q.waiting.length ≤ InputQueue.depth

namespace Ledger

variable {accepted : List (List UInt8)} {written : List UInt8} {q q' : InputQueue} {name : String}
  {message : List UInt8}

theorem begin : Ledger [] [] {} := ⟨fun _ => rfl, List.nil_prefix, Nat.zero_le _⟩

theorem send (h : Ledger accepted written q) (hSend : q.send name message = .ok q') :
    Ledger (accepted ++ [message]) written q' := by
  obtain ⟨hStopped, hRoom, rfl⟩ := InputQueue.send_eq_ok.mp hSend
  have hFlat : (accepted ++ [message]).flatten = accepted.flatten ++ message := by simp
  refine ⟨fun _ => ?_, ?_, ?_⟩
  · rw [hFlat, h.whole hStopped]
    simp [InputQueue.toCome]
  · rw [hFlat]
    exact h.isPrefix.trans (List.prefix_append _ _)
  · rw [List.length_append, List.length_singleton]
    exact hRoom

theorem take (h : Ledger accepted written q) (hTake : q.take? = some q') :
    Ledger accepted written q' := by
  have hSame := InputQueue.toCome_take hTake
  obtain ⟨next, rest, hStopped, -, hWaiting, rfl⟩ := InputQueue.take?_eq_some.mp hTake
  refine ⟨fun _ => ?_, h.isPrefix, ?_⟩
  · rw [hSame]
    exact h.whole hStopped
  · have hDepth := h.depth
    rw [hWaiting, List.length_cons] at hDepth
    exact Nat.le_of_succ_le hDepth

theorem put (h : Ledger accepted written q) (hStopped : q.stopped = false)
    (hWriting : q.writing = some message) (count : Nat) :
    Ledger accepted (written ++ message.take count) (q.wrote count) := by
  have hWhole : accepted.flatten = written ++ message.take count ++ (q.wrote count).toCome := by
    rw [h.whole hStopped, InputQueue.toCome_wrote hWriting count, List.append_assoc]
  refine ⟨fun _ => hWhole, ?_, ?_⟩
  · rw [hWhole]
    exact List.prefix_append _ _
  · rw [InputQueue.wrote_waiting]
    exact h.depth

/-- **What every move keeps.** -/
theorem moves {messages : List (List UInt8)} {bytes : List UInt8} (h : Ledger accepted written q)
    (hMoves : q.Moves messages bytes q') : Ledger (accepted ++ messages) (written ++ bytes) q' := by
  cases hMoves with
  | rests => simpa only [List.append_nil] using h
  | closes =>
    simp only [List.append_nil]
    exact ⟨h.whole, h.isPrefix, h.depth⟩
  | stops =>
    simp only [List.append_nil]
    exact ⟨nofun, h.isPrefix, Nat.zero_le _⟩
  | sends hSend => simpa only [List.append_nil] using h.send hSend
  | takes hTake => simpa only [List.append_nil] using h.take hTake
  | puts hStopped hWriting => simpa only [List.append_nil] using h.put hStopped hWriting _

end Ledger

-- ---------------------------------------------------------------------------
-- Pipes
-- ---------------------------------------------------------------------------

namespace Host

variable {h h' : Host} {pipe count : Nat} {bytes there : List UInt8}

theorem lookup_setPipe (hThere : h.pipes.lookup pipe = some there) (bytes : List UInt8) :
    (h.setPipe pipe bytes).pipes.lookup pipe = some bytes := by
  show (h.pipes.map fun e => if e.1 == pipe then (pipe, bytes) else e).lookup pipe = some bytes
  revert hThere
  induction h.pipes with
  | nil => nofun
  | cons e rest ih =>
    obtain ⟨number, held⟩ := e
    intro hThere
    by_cases hHere : number = pipe
    · simp [hHere]
    · have hOther : (pipe == number) = false := by simpa using Ne.symm hHere
      rw [List.lookup_cons, hOther] at hThere
      have hKept : (number == pipe) = false := by simpa using hHere
      simp only [List.map_cons, hKept, Bool.false_eq_true, if_false, List.lookup_cons, hOther]
      exact ih hThere

/-- What was put is at the end of what the pipe had. -/
theorem writePipe_wrote (hWrote : h.writePipe pipe bytes = (.wrote count, h'))
    (hThere : h.pipes.lookup pipe = some there) :
    h'.pipes.lookup pipe = some (there ++ bytes.take count) := by
  rw [writePipe, hThere] at hWrote
  simp only at hWrote
  split at hWrote
  · cases hWrote
    simpa using hThere
  · split at hWrote
    · cases hWrote
    · split at hWrote
      · cases hWrote
      · cases hWrote
        rw [lookup_setPipe hThere, List.length_take, ← List.take_eq_take_min]

end Host

-- ---------------------------------------------------------------------------
-- Writers
-- ---------------------------------------------------------------------------

/-- Let the writer of a session take a step, where it is left open what it sees first when the input is
closed and there is something to write. The bytes that it puts into the pipe are told. -/
def Deployment.writeSeeing? (d : Deployment) (id : Nat) (closeFirst : Bool) :
    Option (List UInt8 × Deployment) := do
  let s ← d.service.session? id
  if s.input.stopped then none
  else if s.input.closed && closeFirst then some ([], d.letGoInput s)
  else
    match s.input.writing with
    | none => s.input.take?.map fun input => ([], d.setSession { s with input })
    | some message =>
      match d.host.writePipe s.pipes.input message with
      | (.wrote count, host) =>
        some (message.take count,
          { d with host }.setSession { s with input := s.input.wrote count })
      | (.broken, _) => some ([], d.letGoInput s)
      | (.full, _) => none

/-- The writer of a service sees first that the input is closed. -/
theorem writeInput?_eq (d : Deployment) (id : Nat) :
    d.writeInput? id = (d.writeSeeing? id true).map Prod.snd := by
  rw [Deployment.writeInput?, Deployment.writeSeeing?]
  cases d.service.session? id with
  | none => rfl
  | some x =>
    simp only [Option.bind_eq_bind, Option.bind_some, Bool.and_true]
    split
    · rfl
    · split
      · rfl
      · cases x.input.writing with
        | none =>
          simp only [Option.map_map]
          rfl
        | some message =>
          simp only
          rcases d.host.writePipe x.pipes.input message with ⟨_ | _ | _, host⟩ <;> rfl

variable {d d' : Deployment} {x : Session} {id : Nat} {bytes : List UInt8} {closeFirst : Bool}
  {h host : Host} {input : InputQueue}

/-- What the writer of a session does in a step, on a host: the bytes that it puts into the pipe, the
input after that, and the host. -/
inductive Writes (x : Session) (h : Host) : List UInt8 → InputQueue → Host → Prop
  | letsGo : Writes x h [] x.input.stop (h.release (.pipeWrite x.pipes.input))
  | takes {input : InputQueue} : x.input.take? = some input → Writes x h [] input h
  | puts {message : List UInt8} {count : Nat} {host : Host} :
      x.input.stopped = false → x.input.writing = some message →
      h.writePipe x.pipes.input message = (.wrote count, host) →
      Writes x h (message.take count) (x.input.wrote count) host

theorem writeSeeing?_cases (h : d.writeSeeing? id closeFirst = some (bytes, d')) :
    ∃ x input host, d.service.session? id = some x ∧ Writes x d.host bytes input host ∧
      d' = { d with host }.setSession { x with input } := by
  rw [Deployment.writeSeeing?] at h
  obtain ⟨x, hSession, hRest⟩ := Option.bind_eq_some_iff.mp h
  refine ⟨x, ?_⟩
  split at hRest
  · cases hRest
  · next hStopped =>
    split at hRest
    · cases hRest
      exact ⟨_, _, hSession, .letsGo, rfl⟩
    · split at hRest
      · obtain ⟨input, hTake, hDone⟩ := Option.map_eq_some_iff.mp hRest
        cases hDone
        exact ⟨_, _, hSession, .takes hTake, rfl⟩
      · next message hWriting =>
        split at hRest
        · next count host hWrote =>
          cases hRest
          exact ⟨_, _, hSession, .puts (by simpa using hStopped) hWriting hWrote, rfl⟩
        · cases hRest
          exact ⟨_, _, hSession, .letsGo, rfl⟩
        · cases hRest

/-- What the writer of a service does to a deployment. -/
theorem writeInput?_cases (h : d.writeInput? id = some d') :
    ∃ x bytes input host, d.service.session? id = some x ∧ Writes x d.host bytes input host ∧
      d' = { d with host }.setSession { x with input } := by
  rw [writeInput?_eq] at h
  obtain ⟨⟨bytes, d'⟩, hWrite, rfl⟩ := Option.map_eq_some_iff.mp h
  obtain ⟨x, input, host, hSession, hWrites, hAfter⟩ := writeSeeing?_cases hWrite
  exact ⟨x, bytes, input, host, hSession, hWrites, hAfter⟩

theorem Writes.moves (hWrites : Writes x h bytes input host) :
    x.input.Moves [] bytes input := by
  cases hWrites with
  | letsGo => exact .stops
  | takes hTake => exact .takes hTake
  | puts hStopped hWriting _ => exact .puts hStopped hWriting

/-- The bytes that are put into a pipe are at its end. -/
theorem Writes.lookup {there : List UInt8} (hWrites : Writes x h bytes input host)
    (hThere : h.pipes.lookup x.pipes.input = some there) :
    host.pipes.lookup x.pipes.input = some (there ++ bytes) := by
  cases hWrites with
  | letsGo => exact hThere.trans (by rw [List.append_nil])
  | takes _ => exact hThere.trans (by rw [List.append_nil])
  | puts _ _ hWrote => exact Host.writePipe_wrote hWrote hThere

/-- A writer waits for a message, or for room in the pipe. -/
theorem writeSeeing?_waits (hSession : d.service.session? id = some x)
    (hStopped : x.input.stopped = false) (hWaits : d.writeSeeing? id closeFirst = none) :
    x.input.writing = none ∧ x.input.waiting = [] ∨
      ∃ message, x.input.writing = some message ∧
        (d.host.writePipe x.pipes.input message).1 = .full := by
  rw [Deployment.writeSeeing?, hSession] at hWaits
  simp only [Option.bind_eq_bind, Option.bind_some, hStopped, Bool.false_eq_true, if_false] at hWaits
  split at hWaits
  · cases hWaits
  · cases hWriting : x.input.writing with
    | none =>
      refine .inl ⟨rfl, ?_⟩
      rw [hWriting] at hWaits
      have hNone : x.input.take? = none := Option.map_eq_none_iff.mp hWaits
      cases hWaiting : x.input.waiting with
      | nil => rfl
      | cons message rest => simp [InputQueue.take?, hStopped, hWriting, hWaiting] at hNone
    | some message =>
      refine .inr ⟨message, rfl, ?_⟩
      rw [hWriting] at hWaits
      simp only at hWaits
      generalize d.host.writePipe x.pipes.input message = result at hWaits ⊢
      rcases result with ⟨_ | _ | _, host⟩
      · cases hWaits
      · rfl
      · cases hWaits

end ScriptWarden
