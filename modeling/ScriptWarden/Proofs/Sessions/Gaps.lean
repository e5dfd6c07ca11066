import ScriptWarden.Proofs.Sessions.Forwarding

/-!
# What a viewer reads between gaps

What comes from a session is cut into parts where the viewer missed some of it: the history and the
chunks up to the first lag, those up to the next, and so on. A forwarder writes each part as if it
were a text by itself, because it lets go of a character that was cut when it hears of a lag. The
parts of the text on the viewer's side are cut by the events that tell of missed pieces.

A viewer's queue may be closed at any moment. `forward` is the forwarding of a session to such a
queue, which gives up with the first event that is refused; what it has queued by then are the first
of the events that it would have queued.

## Results

* `Streamed.take` — one answer of the session, and `Streamed.takeAll` — all of them.
* `queued_forward` — what a queue that is closed has taken.
* `forwarding_is_honest` — the events, their order, their counts and their texts.
-/

namespace ScriptWarden

namespace Forwarder

-- ---------------------------------------------------------------------------
-- What came
-- ---------------------------------------------------------------------------

/-- Whether nothing is asked of a session after an answer. -/
def isLast : Received SessionEvent → Bool
  | .value (.ended _) | .closed => true
  | .value (.output _) | .lagged _ | .empty => false

/-- The answers up to the last one that is asked for. -/
def untilOver : List (Received SessionEvent) → List (Received SessionEvent)
  | [] => []
  | got :: rest => if isLast got then [got] else got :: untilOver rest

/-- What a viewer hears: the end alone when that came before the viewer, and otherwise the answers
up to the last one that is asked for. -/
def heardBy (s : Subscription) (received : List (Received SessionEvent)) :
    List (Received SessionEvent) :=
  match s.ended with
  | some exit => [.value (.ended exit)]
  | none => untilOver received

/-- The end that answers tell of. -/
def heardEnd (heard : List (Received SessionEvent)) : Option Exit :=
  heard.findSome? fun
    | .value (.ended exit) => some exit
    | _ => none

/-- The counts of missed pieces that answers tell of. -/
def lagCounts (heard : List (Received SessionEvent)) : List Nat :=
  heard.filterMap fun
    | .lagged missed => some missed
    | _ => none

/-- The bytes that came, cut where pieces were missed. The first part goes on from some bytes. -/
def receivedParts (bytes : List UInt8) : List (Received SessionEvent) → List (List UInt8)
  | [] => [bytes]
  | .value (.output chunk) :: rest => receivedParts (bytes ++ chunk) rest
  | .lagged _ :: rest => bytes :: receivedParts [] rest
  | .value (.ended _) :: rest | .closed :: rest | .empty :: rest => receivedParts bytes rest

-- ---------------------------------------------------------------------------
-- What is told
-- ---------------------------------------------------------------------------

/-- The counts of missed pieces among events. -/
def droppedCounts (events : List Event) : List UInt64 :=
  events.filterMap fun
    | .outputDropped _ count => some count
    | _ => none

/-- The text of the output among events, cut where pieces are told to be missing. The first part
goes on from some text. -/
def textParts (text : String) : List Event → List String
  | [] => [text]
  | .output _ data :: rest => textParts (text ++ data) rest
  | .outputDropped _ _ :: rest => text :: textParts "" rest
  | _ :: rest => textParts text rest

/-- Output that is not empty, or the count of what is left out. -/
def IsStream (script : String) (e : Event) : Prop :=
  (∃ data, data ≠ "" ∧ e = .output script data) ∨ ∃ count, e = .outputDropped script count

/-- After what was heard some parts are done, and the last one so far goes on. -/
def PartsAt (bytes : List UInt8) (heard : List (Received SessionEvent)) (done : List (List UInt8))
    (current : List UInt8) : Prop :=
  ∀ more, receivedParts bytes (heard ++ more) = done ++ receivedParts current more

/-- After some events some parts of the text are done, and the last one so far goes on. -/
def TextsAt (text : String) (events : List Event) (done : List String) (current : String) : Prop :=
  ∀ more, textParts text (events ++ more) = done ++ textParts current more

theorem TextsAt.output {text data script : String} {events : List Event} {done : List String}
    {current : String} (h : TextsAt text events done current) :
    TextsAt text (events ++ outputEvents script data) done (current ++ data) := by
  intro more
  rw [List.append_assoc, h, outputEvents]
  split
  · next hEmpty => rw [String.isEmpty_iff.mp hEmpty, List.nil_append, String.append_empty]
  · rfl

theorem TextsAt.dropped {text script : String} {events : List Event} {done : List String}
    {current : String} (h : TextsAt text events done current) (count : UInt64) :
    TextsAt text (events ++ [.outputDropped script count]) (done ++ [current]) "" := by
  intro more
  rw [List.append_assoc, h, List.append_assoc]
  rfl

theorem outputEvents_isStream (script data : String) :
    ∀ e ∈ outputEvents script data, IsStream script e := by
  intro e hMem
  rw [outputEvents] at hMem
  split at hMem
  · cases hMem
  · next hSome => exact Or.inl ⟨data, fun hNone => hSome (hNone ▸ rfl), List.mem_singleton.mp hMem⟩

theorem droppedCounts_append (events more : List Event) :
    droppedCounts (events ++ more) = droppedCounts events ++ droppedCounts more :=
  List.filterMap_append

@[simp] theorem droppedCounts_outputEvents (script data : String) :
    droppedCounts (outputEvents script data) = [] := by
  rw [outputEvents]
  split <;> rfl

theorem lagCounts_append (heard more : List (Received SessionEvent)) :
    lagCounts (heard ++ more) = lagCounts heard ++ lagCounts more := List.filterMap_append

theorem heardEnd_append (heard more : List (Received SessionEvent)) :
    heardEnd (heard ++ more) = (heardEnd heard).or (heardEnd more) := List.findSome?_append

theorem heardEnd_of_not_last {got : Received SessionEvent} (h : isLast got = false) :
    heardEnd [got] = none := by
  cases got with
  | value e =>
    cases e with
    | output chunk => rfl
    | ended exit => cases h
  | _ => rfl

theorem takeAll_of_over {f : Forwarder} (h : f.isOver = true)
    (received : List (Received SessionEvent)) : f.takeAll received = f := by
  induction received with
  | nil => rfl
  | cons got rest ih => rwa [takeAll, List.foldl_cons, if_pos h]

theorem takeAll_cons {f : Forwarder} (h : f.isOver = false) (got : Received SessionEvent)
    (rest : List (Received SessionEvent)) :
    f.takeAll (got :: rest) = (f.take got).takeAll rest := by
  rw [takeAll, List.foldl_cons, if_neg (by simp [h])]
  rfl

-- ---------------------------------------------------------------------------
-- One part
-- ---------------------------------------------------------------------------

/-- A decoder has written a text for bytes, but for those that it holds. -/
def Wrote (d : Utf8Decoder) (bytes : List UInt8) (text : String) : Prop :=
  ∃ front, bytes = front ++ d.held ∧ Cut front d.held ∧ text = decodeLossy front

theorem Wrote.start : Wrote {} [] "" := ⟨[], rfl, .nil, rfl⟩

theorem Wrote.length_le {d : Utf8Decoder} {bytes : List UInt8} {text : String}
    (h : Wrote d bytes text) : d.held.length ≤ 3 := by
  obtain ⟨front, -, hCut, -⟩ := h
  exact hCut.length_le

theorem Wrote.push {d : Utf8Decoder} {bytes : List UInt8} {text : String} (h : Wrote d bytes text)
    (chunk : List UInt8) :
    Wrote (d.push chunk).2 (bytes ++ chunk) (text ++ (d.push chunk).1) := by
  obtain ⟨front, rfl, hCut, rfl⟩ := h
  obtain ⟨front', hBytes, hCut', hText⟩ := Utf8Decoder.pushAll_cut [chunk] front d hCut
  refine ⟨front', ?_, hCut', ?_⟩
  · simpa [Utf8Decoder.pushAll] using hBytes
  · simpa [Utf8Decoder.pushAll] using hText

/-- What is held completes the text of the bytes. -/
theorem Wrote.finish {d : Utf8Decoder} {bytes : List UInt8} {text : String}
    (h : Wrote d bytes text) : text ++ d.finish.1 = decodeLossy bytes := by
  obtain ⟨front, rfl, hCut, rfl⟩ := h
  have hWhole := hCut.decodeChars_append (List.prefix_append d.held [])
  rw [decodeLossy.eq_def (front ++ d.held), hWhole, String.ofList_append]
  rfl

-- ---------------------------------------------------------------------------
-- What a forwarder has written
-- ---------------------------------------------------------------------------

/-- What a forwarder that began with some bytes, their text and some events has made of what it
heard: the events after those, and the parts of their text, the last of which may go on. -/
structure Streamed (f : Forwarder) (bytes : List UInt8) (text : String) (before : List Event)
    (heard : List (Received SessionEvent)) (later : List Event) (ending : Option Exit) : Prop where
  due : f.due = before ++ later ++ ending.toList.map (endEvent f.script)
  stream : ∀ e ∈ later, IsStream f.script e
  dropped : droppedCounts later = (lagCounts heard).map UInt64.ofNat
  parts : ∃ done current written, PartsAt bytes heard done current ∧
    TextsAt text later (done.map decodeLossy) written ∧
    if f.isOver then written = decodeLossy current else Wrote f.decoder current written

namespace Streamed

variable {f : Forwarder} {bytes : List UInt8} {text : String} {before later : List Event}
  {heard : List (Received SessionEvent)} {ending : Option Exit}

/-- A piece of output, or nothing. -/
theorem output (h : Streamed f bytes text before heard later none) (hOpen : f.isOver = false)
    (chunk : List UInt8) :
    Streamed (f.take (.value (.output chunk))) bytes text before
      (heard ++ [.value (.output chunk)])
      (later ++ outputEvents f.script (f.decoder.push chunk).1) none := by
  obtain ⟨done, current, written, hParts, hTexts, hWrote⟩ := h.parts
  rw [if_neg (by simp [hOpen])] at hWrote
  refine ⟨?_, ?_, ?_, done, current ++ chunk, written ++ (f.decoder.push chunk).1, ?_,
    hTexts.output, ?_⟩
  · show f.due ++ outputEvents f.script (f.decoder.push chunk).1 = _
    rw [h.due]
    simp
  · exact List.forall_mem_append.mpr ⟨h.stream, outputEvents_isStream f.script _⟩
  · rw [droppedCounts_append, droppedCounts_outputEvents, List.append_nil, h.dropped,
      lagCounts_append]
    simp [lagCounts]
  · intro more
    rw [List.append_assoc, hParts]
    rfl
  · rw [if_neg (by simpa [take] using hOpen)]
    exact hWrote.push chunk

/-- A lag ends a part: the character that was cut is let go of. -/
theorem lagged (h : Streamed f bytes text before heard later none) (hOpen : f.isOver = false)
    (missed : Nat) :
    Streamed (f.take (.lagged missed)) bytes text before (heard ++ [.lagged missed])
      (later ++ outputEvents f.script f.decoder.finish.1 ++
        [.outputDropped f.script (UInt64.ofNat missed)]) none := by
  obtain ⟨done, current, written, hParts, hTexts, hWrote⟩ := h.parts
  rw [if_neg (by simp [hOpen])] at hWrote
  refine ⟨?_, ?_, ?_, done ++ [current], [], "", ?_, ?_, ?_⟩
  · show f.due ++ outputEvents f.script f.decoder.finish.1 ++ _ = _
    rw [h.due]
    simp
  · refine List.forall_mem_append.mpr ⟨List.forall_mem_append.mpr
      ⟨h.stream, outputEvents_isStream f.script _⟩, ?_⟩
    exact List.forall_mem_singleton.mpr (Or.inr ⟨_, rfl⟩)
  · rw [droppedCounts_append, droppedCounts_append, droppedCounts_outputEvents, List.append_nil,
      h.dropped, lagCounts_append, List.map_append]
    rfl
  · intro more
    rw [List.append_assoc, hParts, List.append_assoc]
    rfl
  · have hFlushed : TextsAt text (later ++ outputEvents f.script f.decoder.finish.1)
        (done.map decodeLossy) (decodeLossy current) := hWrote.finish ▸ hTexts.output
    rw [List.map_append]
    exact hFlushed.dropped (UInt64.ofNat missed)
  · rw [if_neg (by simpa [take] using hOpen)]
    exact .start

/-- The last answer ends the last part. -/
theorem finish (h : Streamed f bytes text before heard later none) (hOpen : f.isOver = false)
    {got : Received SessionEvent} {exit : Option Exit} (hTake : f.take got = f.finish exit)
    (hLags : lagCounts [got] = [])
    (hParts : ∀ bytes more, receivedParts bytes (got :: more) = receivedParts bytes more) :
    Streamed (f.take got) bytes text before (heard ++ [got])
      (later ++ outputEvents f.script f.decoder.finish.1) exit := by
  obtain ⟨done, current, written, hDone, hTexts, hWrote⟩ := h.parts
  rw [if_neg (by simp [hOpen])] at hWrote
  rw [hTake]
  refine ⟨?_, ?_, ?_, done, current, written ++ f.decoder.finish.1, ?_, hTexts.output, ?_⟩
  · show f.due ++ outputEvents f.script f.decoder.finish.1 ++ _ = _
    rw [h.due]
    cases exit <;> simp [Forwarder.finish]
  · exact List.forall_mem_append.mpr ⟨h.stream, outputEvents_isStream f.script _⟩
  · rw [droppedCounts_append, droppedCounts_outputEvents, List.append_nil, h.dropped,
      lagCounts_append, hLags, List.append_nil]
  · intro more
    rw [List.append_assoc, hDone, List.singleton_append, hParts]
  · exact hWrote.finish

/-- **One answer.** A forwarder that goes on takes what comes. -/
theorem take (h : Streamed f bytes text before heard later none) (hOpen : f.isOver = false)
    (got : Received SessionEvent) :
    ∃ later', Streamed (f.take got) bytes text before (heard ++ [got]) later' (heardEnd [got]) ∧
      (f.take got).isOver = isLast got := by
  cases got with
  | value e =>
    cases e with
    | output chunk => exact ⟨_, h.output hOpen chunk, hOpen⟩
    | ended exit => exact ⟨_, h.finish hOpen rfl rfl fun _ _ => rfl, rfl⟩
  | lagged missed => exact ⟨_, h.lagged hOpen missed, hOpen⟩
  | closed => exact ⟨_, h.finish hOpen rfl rfl fun _ _ => rfl, rfl⟩
  | empty =>
    obtain ⟨done, current, written, hParts, hTexts, hWrote⟩ := h.parts
    refine ⟨later, ⟨h.due, h.stream, ?_, done, current, written, ?_, hTexts, hWrote⟩, hOpen⟩
    · rw [lagCounts_append, h.dropped]
      simp [lagCounts]
    · intro more
      rw [List.append_assoc, hParts]
      rfl

/-- **All answers**, of which those after the last one that is asked for do not count. -/
theorem takeAll (h : Streamed f bytes text before heard later none) (hOpen : f.isOver = false)
    (received : List (Received SessionEvent)) :
    ∃ later', Streamed (f.takeAll received) bytes text before (heard ++ untilOver received) later'
        (heardEnd (untilOver received)) ∧
      (f.takeAll received).isOver = (untilOver received).any isLast := by
  induction received generalizing f heard later with
  | nil =>
    refine ⟨later, ?_, hOpen⟩
    rw [untilOver, List.append_nil]
    exact h
  | cons got rest ih =>
    obtain ⟨later', hTook, hOver⟩ := h.take hOpen got
    rw [takeAll_cons hOpen, untilOver]
    cases hLast : isLast got with
    | true =>
      rw [takeAll_of_over (hOver.trans hLast), if_pos rfl]
      exact ⟨later', hTook, by simp [hOver, hLast]⟩
    | false =>
      rw [heardEnd_of_not_last hLast] at hTook
      obtain ⟨all, hAll, hAllOver⟩ := ih hTook (hOver.trans hLast)
      rw [if_neg (by simp)]
      refine ⟨all, ?_, by simp [hAllOver, hLast]⟩
      have hEnd : heardEnd (got :: untilOver rest) = heardEnd (untilOver rest) := by
        rw [← List.singleton_append, heardEnd_append, heardEnd_of_not_last hLast, Option.none_or]
      rw [hEnd]
      rwa [List.append_assoc] at hAll

end Streamed

@[simp] theorem script_take (f : Forwarder) (got : Received SessionEvent) :
    (f.take got).script = f.script := by
  cases got with
  | value e => cases e <;> rfl
  | _ => rfl

theorem script_takeAll (f : Forwarder) (received : List (Received SessionEvent)) :
    (f.takeAll received).script = f.script := by
  induction received generalizing f with
  | nil => rfl
  | cons got rest ih =>
    cases hOver : f.isOver with
    | true => rw [takeAll_of_over hOver]
    | false => rw [takeAll_cons hOver, ih, script_take]

/-- A forwarder that begins is one that has heard nothing. -/
theorem begin_streamed (script : String) {s : Subscription} (acknowledgement : Option Event)
    (hOpen : s.ended = none) :
    Streamed (begin script s acknowledgement) s.history.flatten
      (({} : Utf8Decoder).push s.history.flatten).1
      (outputEvents script (({} : Utf8Decoder).push s.history.flatten).1 ++ acknowledgement.toList)
      [] [] none := by
  obtain ⟨history, ended, receiver⟩ := s
  obtain rfl : ended = none := hOpen
  have hWrote := Wrote.start.push history.flatten
  rw [List.nil_append, String.empty_append] at hWrote
  refine ⟨?_, List.forall_mem_nil _, rfl, [], _, _, fun _ => rfl, fun _ => rfl, hWrote⟩
  show outputEvents script (({} : Utf8Decoder).push history.flatten).1 ++ acknowledgement.toList = _
  rw [Option.toList_none, List.map_nil, List.append_nil, List.append_nil]

-- ---------------------------------------------------------------------------
-- Queues that are closed
-- ---------------------------------------------------------------------------

/-- A viewer's queue: the events in it, and how many more it takes before it is closed, if it will
be. -/
structure Queue where
  queued : List Event := []
  room : Option Nat := none
deriving DecidableEq, Repr

namespace Queue

/-- Queue an event; the queue is handed back as it is when it has been closed. -/
def send (q : Queue) (e : Event) : Except Queue Queue :=
  match q.room with
  | none => .ok { q with queued := q.queued ++ [e] }
  | some 0 => .error q
  | some (n + 1) => .ok { queued := q.queued ++ [e], room := some n }

/-- Queue events, up to the first that is refused. -/
def sendAll (q : Queue) (events : List Event) : Except Queue Queue := events.foldlM send q

/-- The queue, whether or not it has been closed. -/
def settle : Except Queue Queue → Queue
  | .ok q => q
  | .error q => q

end Queue

/-- Queue what is left of the output, and the end; nobody asks any more whether they are taken. -/
def conclude (script : String) (d : Utf8Decoder) (exit : Option Exit) (q : Queue) : Queue :=
  let q := Queue.settle (q.sendAll (outputEvents script d.finish.1))
  match exit with
  | some exit => Queue.settle (q.send (endEvent script exit))
  | none => q

/-- Queue events for what comes from a session, and give up when one is refused. -/
def pump (script : String) (d : Utf8Decoder) :
    List (Received SessionEvent) → Queue → Except Queue Queue
  | [], q => .ok q
  | .value (.output chunk) :: rest, q => do
    let (data, d) := d.push chunk
    let q ← q.sendAll (outputEvents script data)
    pump script d rest q
  | .value (.ended exit) :: _, q => .ok (conclude script d (some exit) q)
  | .lagged missed :: rest, q => do
    let (cut, d) := d.finish
    let q ← q.sendAll (outputEvents script cut)
    let q ← q.send (.outputDropped script (UInt64.ofNat missed))
    pump script d rest q
  | .closed :: _, q => .ok (conclude script d none q)
  | .empty :: rest, q => pump script d rest q

/-- Forward a session to a queue that may be closed: replay the history, acknowledge, and go on
until the session ends. -/
def forward (script : String) (s : Subscription) (acknowledgement : Option Event)
    (received : List (Received SessionEvent)) (q : Queue) : Queue :=
  Queue.settle do
    let (replay, d) := ({} : Utf8Decoder).push s.history.flatten
    let q ← q.sendAll (outputEvents script replay)
    let q ← q.sendAll acknowledgement.toList
    match s.ended with
    | some exit => .ok (conclude script d (some exit) q)
    | none => pump script d received q

namespace Queue

/-- A queue that has been closed takes nothing more. -/
theorem sendAll_of_closed {q : Queue} (h : q.room = some 0) (events : List Event) :
    settle (q.sendAll events) = q := by
  cases events with
  | nil => rfl
  | cons e rest =>
    rw [sendAll, List.foldlM_cons, send, h]
    rfl

theorem closed_of_refused {q q' : Queue} {events : List Event} (h : q.sendAll events = .error q') :
    q'.room = some 0 := by
  induction events generalizing q with
  | nil => cases h
  | cons e rest ih =>
    rw [sendAll, List.foldlM_cons] at h
    obtain ⟨queued, room⟩ := q
    match room, h with
    | none, h => exact ih h
    | some 0, h =>
      obtain rfl := Except.error.inj h
      rfl
    | some (n + 1), h => exact ih h

theorem sendAll_append (q : Queue) (events more : List Event) :
    q.sendAll (events ++ more) = q.sendAll events >>= (·.sendAll more) := List.foldlM_append

theorem sendAll_singleton (q : Queue) (e : Event) : q.sendAll [e] = q.send e := by
  rw [sendAll, List.foldlM_cons]
  cases q.send e <;> rfl

/-- To queue events and go on with what queues others is to queue them all. -/
theorem settle_bind {q : Queue} {events more : List Event} {next : Queue → Except Queue Queue}
    (h : ∀ q, settle (next q) = settle (q.sendAll more)) :
    settle (q.sendAll events >>= next) = settle (q.sendAll (events ++ more)) := by
  rw [sendAll_append]
  cases q.sendAll events with
  | ok q' => exact h q'
  | error q' => rfl

/-- To queue others after events that nobody asks about is to queue them all. -/
theorem settle_settle (q : Queue) (events more : List Event) :
    settle ((settle (q.sendAll events)).sendAll more) = settle (q.sendAll (events ++ more)) := by
  rw [sendAll_append]
  cases hSent : q.sendAll events with
  | ok q' => rfl
  | error q' => exact sendAll_of_closed (closed_of_refused hSent) more

/-- What was queued is the first of the events, as many as the queue takes. -/
theorem queued_sendAll (queued : List Event) (room : Option Nat) (events : List Event) :
    (settle (sendAll { queued, room } events)).queued =
      queued ++ match room with
        | none => events
        | some n => events.take n := by
  induction events generalizing queued room with
  | nil => cases room <;> simp [sendAll, settle, pure, Except.pure]
  | cons e rest ih =>
    rw [sendAll, List.foldlM_cons]
    match room with
    | none => exact (ih (queued ++ [e]) none).trans (by simp)
    | some 0 => exact (List.append_nil queued).symm
    | some (n + 1) => exact (ih (queued ++ [e]) (some n)).trans (by simp)

end Queue

/-- What was due before stays in front, whatever comes. -/
theorem takeAll_front (f : Forwarder) (queued : List Event)
    (received : List (Received SessionEvent)) :
    ({ f with due := queued ++ f.due } : Forwarder).takeAll received =
      { f.takeAll received with due := queued ++ (f.takeAll received).due } := by
  induction received generalizing f with
  | nil => rfl
  | cons got rest ih =>
    have hSame : ({ f with due := queued ++ f.due } : Forwarder).isOver = f.isOver := rfl
    obtain hOver | hOver := Bool.eq_false_or_eq_true f.isOver
    · rw [takeAll_of_over (hSame.trans hOver), takeAll_of_over hOver]
    · rw [takeAll_cons (hSame.trans hOver), takeAll_cons hOver, take_front, ih]

/-- The forwarding of a script with nothing due. -/
abbrev fresh (script : String) (d : Utf8Decoder) : Forwarder := { script, decoder := d }

/-- What becomes due after events that are due is due behind them. -/
theorem due_takeAll (script : String) (d : Utf8Decoder) (due : List Event)
    (received : List (Received SessionEvent)) :
    (takeAll { script, decoder := d, due } received).due =
      due ++ ((fresh script d).takeAll received).due := by
  have hFront := takeAll_front (fresh script d) due received
  rw [List.append_nil] at hFront
  rw [hFront]

theorem due_output (script : String) (d : Utf8Decoder) (chunk : List UInt8)
    (rest : List (Received SessionEvent)) :
    ((fresh script d).takeAll (.value (.output chunk) :: rest)).due =
      outputEvents script (d.push chunk).1 ++
        ((fresh script (d.push chunk).2).takeAll rest).due := by
  have hTake : (fresh script d).take (.value (.output chunk)) =
      { script, decoder := (d.push chunk).2
        due := [] ++ outputEvents script (d.push chunk).1 } := rfl
  rw [takeAll_cons rfl, hTake, due_takeAll, List.nil_append]

theorem due_lagged (script : String) (d : Utf8Decoder) (missed : Nat)
    (rest : List (Received SessionEvent)) :
    ((fresh script d).takeAll (.lagged missed :: rest)).due =
      outputEvents script d.finish.1 ++ ([.outputDropped script (UInt64.ofNat missed)] ++
        ((fresh script d.finish.2).takeAll rest).due) := by
  have hTake : (fresh script d).take (.lagged missed) =
      { script, decoder := d.finish.2
        due := [] ++ outputEvents script d.finish.1 ++
          [.outputDropped script (UInt64.ofNat missed)] } := rfl
  rw [takeAll_cons rfl, hTake, due_takeAll, List.nil_append, List.append_assoc]

theorem due_finish (script : String) (d : Utf8Decoder) (due : List Event) (exit : Option Exit) :
    (finish { script, decoder := d, due } exit).due =
      due ++ ((fresh script d).finish exit).due := by
  simp [finish]

/-- What is queued at the end is what is due then. -/
theorem settle_conclude (script : String) (d : Utf8Decoder) (exit : Option Exit) (q : Queue) :
    Queue.settle (.ok (conclude script d exit q)) =
      Queue.settle (q.sendAll ((fresh script d).finish exit).due) := by
  rw [Queue.settle]
  show _ = Queue.settle (q.sendAll
    ([] ++ outputEvents script d.finish.1 ++ (exit.map (endEvent script)).toList))
  rw [List.nil_append, ← Queue.settle_settle]
  cases exit with
  | none => rfl
  | some exit => rw [conclude, Option.map_some, Option.toList_some, Queue.sendAll_singleton]

/-- What is queued for what comes from a session is what becomes due. -/
theorem settle_pump (script : String) (d : Utf8Decoder) (received : List (Received SessionEvent))
    (q : Queue) : Queue.settle (pump script d received q) =
      Queue.settle (q.sendAll ((fresh script d).takeAll received).due) := by
  induction received generalizing d q with
  | nil => rfl
  | cons got rest ih =>
    cases got with
    | value e =>
      cases e with
      | output chunk =>
        rw [due_output]
        exact Queue.settle_bind (ih (d.push chunk).2)
      | ended exit =>
        have hOver : (fresh script d).takeAll (.value (.ended exit) :: rest) =
            (fresh script d).finish (some exit) := takeAll_of_over rfl rest
        rw [hOver]
        exact settle_conclude script d (some exit) q
    | lagged missed =>
      rw [due_lagged]
      refine Queue.settle_bind fun q => ?_
      rw [← Queue.settle_bind (ih d.finish.2), Queue.sendAll_singleton]
      rfl
    | closed =>
      have hOver : (fresh script d).takeAll (.closed :: rest) = (fresh script d).finish none :=
        takeAll_of_over rfl rest
      rw [hOver]
      exact settle_conclude script d none q
    | empty => exact ih d q

theorem events_of_open (script : String) (history : List (List UInt8)) (receiver : Nat)
    (acknowledgement : Option Event) (received : List (Received SessionEvent)) :
    events script ⟨history, none, receiver⟩ acknowledgement received =
      outputEvents script (({} : Utf8Decoder).push history.flatten).1 ++
        (acknowledgement.toList ++ ((fresh script
          (({} : Utf8Decoder).push history.flatten).2).takeAll received).due) := by
  have hBegin : begin script ⟨history, none, receiver⟩ acknowledgement =
      { script
        decoder := (({} : Utf8Decoder).push history.flatten).2
        due := outputEvents script (({} : Utf8Decoder).push history.flatten).1 ++
          acknowledgement.toList } := rfl
  show ((begin script _ acknowledgement).takeAll received).due = _
  rw [hBegin, due_takeAll, List.append_assoc]

theorem events_of_ended (script : String) (history : List (List UInt8)) (exit : Exit)
    (receiver : Nat) (acknowledgement : Option Event) (received : List (Received SessionEvent)) :
    events script ⟨history, some exit, receiver⟩ acknowledgement received =
      outputEvents script (({} : Utf8Decoder).push history.flatten).1 ++
        (acknowledgement.toList ++ ((fresh script
          (({} : Utf8Decoder).push history.flatten).2).finish (some exit)).due) := by
  have hBegin : begin script ⟨history, some exit, receiver⟩ acknowledgement = finish
      { script
        decoder := (({} : Utf8Decoder).push history.flatten).2
        due := outputEvents script (({} : Utf8Decoder).push history.flatten).1 ++
          acknowledgement.toList } (some exit) := rfl
  show ((begin script _ acknowledgement).takeAll received).due = _
  rw [hBegin, takeAll_of_over rfl, due_finish, List.append_assoc]

/-- What is queued is all that becomes due, or the first of it when the queue is closed. -/
theorem queued_forward (script : String) (s : Subscription) (acknowledgement : Option Event)
    (received : List (Received SessionEvent)) (room : Option Nat) :
    (forward script s acknowledgement received { room }).queued =
      match room with
      | none => events script s acknowledgement received
      | some n => (events script s acknowledgement received).take n := by
  have hAll : forward script s acknowledgement received { room } =
      Queue.settle (Queue.sendAll { room } (events script s acknowledgement received)) := by
    obtain ⟨history, ended, receiver⟩ := s
    cases ended with
    | none =>
      rw [events_of_open, ← Queue.settle_bind fun q =>
        Queue.settle_bind (settle_pump script _ received)]
      rfl
    | some exit =>
      rw [events_of_ended, ← Queue.settle_bind fun q =>
        Queue.settle_bind (settle_conclude script _ (some exit))]
      rfl
  rw [hAll, Queue.queued_sendAll, List.nil_append]

-- ---------------------------------------------------------------------------
-- All events
-- ---------------------------------------------------------------------------

/-- A forwarder that has taken everything: what it began with, and what it made of what it heard. -/
theorem exists_streamed (script : String) (s : Subscription) (acknowledgement : Option Event)
    (received : List (Received SessionEvent)) :
    let replay := (({} : Utf8Decoder).push s.history.flatten).1
    ∃ (f : Forwarder) (later : List Event), f.script = script ∧
      f.due = events script s acknowledgement received ∧
      f.isOver = (heardBy s received).any isLast ∧
      Streamed f s.history.flatten replay
        (outputEvents script replay ++ acknowledgement.toList) (heardBy s received) later
        (heardEnd (heardBy s received)) := by
  obtain ⟨history, ended, receiver⟩ := s
  have hBegin := @begin_streamed script ⟨history, none, receiver⟩ acknowledgement rfl
  cases ended with
  | none =>
    obtain ⟨later, hAll, hOver⟩ := hBegin.takeAll rfl received
    exact ⟨_, later, script_takeAll _ received, rfl, hOver, hAll⟩
  | some exit =>
    refine ⟨_, _, ?_, ?_, rfl, hBegin.finish rfl rfl rfl fun _ _ => rfl⟩
    · rfl
    · exact (congrArg Forwarder.due (takeAll_of_over rfl received)).symm

/-- **Forwarding delivers a stream in order, with honest gaps.** The events for a viewer are at most
one piece of output for the history, the acknowledgement, pieces of output and counts of missed
pieces, and one end if the session ended. No output is empty, the counts are those of the lags in
order, and the text between two counts is that of exactly the bytes that came between two lags, but
for at most three bytes at the end of a stream that goes on. A queue that is closed after some
events has taken the first ones of these. -/
theorem forwarding_is_honest (script : String) (s : Subscription) (acknowledgement : Option Event)
    (received : List (Received SessionEvent)) :
    let heard := heardBy s received
    let told := events script s acknowledgement received
    (∃ replay later,
      told = replay ++ acknowledgement.toList ++ later ++
        (heardEnd heard).toList.map (endEvent script) ∧
      (replay.length ≤ 1 ∧ ∀ e ∈ replay, ∃ data, data ≠ "" ∧ e = .output script data) ∧
      (∀ e ∈ later, IsStream script e) ∧
      droppedCounts later = (lagCounts heard).map UInt64.ofNat ∧
      ∃ held, held.length ≤ 3 ∧ (heard.any isLast = true → held = []) ∧
        textParts "" (replay ++ later ++ outputEvents script (decodeLossy held)) =
          (receivedParts s.history.flatten heard).map decodeLossy) ∧
    (forward script s acknowledgement received {}).queued = told ∧
    ∀ n, (forward script s acknowledgement received { room := some n }).queued = told.take n := by
  intro heard told
  refine ⟨?_, queued_forward script s acknowledgement received none,
    fun n => queued_forward script s acknowledgement received (some n)⟩
  obtain ⟨f, later, rfl, hDue, hOver, hStreamed⟩ :=
    exists_streamed script s acknowledgement received
  obtain ⟨done, current, written, hParts, hTexts, hWrote⟩ := hStreamed.parts
  have hReceived : receivedParts s.history.flatten heard = done ++ [current] := by
    simpa [receivedParts] using hParts []
  -- the text goes on from that of the replay
  have hReplay : ∀ t events,
      textParts "" (outputEvents f.script t ++ events) = textParts t events := by
    intro t events
    have hStart : TextsAt "" [] [] "" := fun _ => rfl
    have hOutput : TextsAt "" (outputEvents f.script t) [] t := by simpa using hStart.output
    exact hOutput events
  have hHeld : ∃ held : List UInt8, held.length ≤ 3 ∧ (f.isOver = true → held = []) ∧
      written ++ decodeLossy held = decodeLossy current := by
    cases hEnd : f.isOver with
    | true =>
      rw [if_pos hEnd] at hWrote
      exact ⟨[], Nat.zero_le 3, fun _ => rfl, hWrote ▸ String.append_empty⟩
    | false =>
      rw [if_neg (by simp [hEnd])] at hWrote
      exact ⟨f.decoder.held, hWrote.length_le, by simp, hWrote.finish⟩
  obtain ⟨held, hFew, hNone, hText⟩ := hHeld
  refine ⟨outputEvents f.script (({} : Utf8Decoder).push s.history.flatten).1, later, ?_, ⟨?_, ?_⟩,
    hStreamed.stream, hStreamed.dropped, held, hFew, fun hLast => hNone (hOver.trans hLast), ?_⟩
  · exact hDue.symm.trans hStreamed.due
  · rw [outputEvents]
    split <;> simp
  · intro e hMem
    rcases outputEvents_isStream f.script _ e hMem with hData | ⟨count, rfl⟩
    · exact hData
    · rw [outputEvents] at hMem
      split at hMem <;> simp at hMem
  · have hLast : TextsAt (({} : Utf8Decoder).push s.history.flatten).1
        (later ++ outputEvents f.script (decodeLossy held)) (done.map decodeLossy)
        (decodeLossy current) := hText ▸ hTexts.output
    rw [List.append_assoc, hReplay, ← List.append_nil (later ++ _), hLast, hReceived,
      List.map_append]
    rfl

end Forwarder

end ScriptWarden
