import ScriptWarden.Client.Forwarder
import ScriptWarden.Proofs.Sessions.Hubs
import ScriptWarden.Proofs.Text.Chunks

/-!
# What a forwarder makes of a session

A forwarder turns what a viewer hears of a session into events: pieces of output and counts of
missed ones, and last the end. Whatever is cut and lagged, only an end that was heard makes the
event of an end, and after it there is none. All these events are of the script that is forwarded.

## Results

* `forwarder_tells` — the events for what a viewer starts from and for everything that it hears.
* `Labelled` — all of them are of one script, whatever is taken.
* `outputText_of_values` — the text of the output events, when nothing was missed.
* `dropped_of_lagged` — when something was missed, an event says so.
-/

namespace ScriptWarden

/-- The script whose session an event is a part of. A status is an answer to a question. -/
def Event.script? : Event → Option String
  | .started script _ _ | .output script _ | .outputDropped script _ | .processEnded script _ _ _
  | .watching script _ _ => some script
  | _ => none

/-- A failed request is answered, and no part of a session. -/
theorem Event.script?_ofFault (f : Fault) : (Event.ofFault f).script? = none := by
  unfold Event.ofFault
  split <;> rfl

/-- Output of a script's session, or the count of what is left out of it. -/
def Event.IsPiece (script : String) (e : Event) : Prop :=
  (∃ data, e = .output script data) ∨ ∃ chunks, e = .outputDropped script chunks

theorem Event.IsPiece.script? {script : String} {e : Event} (h : e.IsPiece script) :
    e.script? = some script := by
  rcases h with ⟨data, rfl⟩ | ⟨chunks, rfl⟩ <;> rfl

/-- The text of the output among events. -/
def outputText : List Event → String
  | [] => ""
  | .output _ data :: rest => data ++ outputText rest
  | _ :: rest => outputText rest

theorem outputText_append (events later : List Event) :
    outputText (events ++ later) = outputText events ++ outputText later := by
  induction events with
  | nil => exact String.empty_append.symm
  | cons e rest ih =>
    cases e with
    | output script data =>
      show data ++ outputText (rest ++ later) = data ++ outputText rest ++ outputText later
      rw [ih, String.append_assoc]
    | _ => exact ih

/-- Whoever misses nothing hears each event. -/
theorem Hub.Hears.eq_values {got : List (Received SessionEvent)} {events : List SessionEvent}
    (h : Hub.Hears got events) (hAll : ∀ missed, .lagged missed ∉ got) :
    got = events.map .value := by
  induction h with
  | nil => rfl
  | value e _ ih =>
    rw [List.map_cons, ← ih fun missed hMem => hAll missed (List.mem_cons_of_mem _ hMem)]
  | lagged _ _ _ => exact absurd List.mem_cons_self (hAll _)

namespace Forwarder

variable {f : Forwarder} {script : String} {s : Subscription} {acknowledgement : Option Event}

/-- A forwarder that has taken what came from the session. -/
def takeAll (f : Forwarder) (received : List (Received SessionEvent)) : Forwarder :=
  received.foldl (fun f got => if f.isOver then f else f.take got) f

theorem takeAll_append (f : Forwarder) (received later : List (Received SessionEvent)) :
    f.takeAll (received ++ later) = (f.takeAll received).takeAll later := List.foldl_append

theorem outputEvents_isPiece (script data : String) :
    ∀ e ∈ outputEvents script data, e.IsPiece script := by
  intro e hMem
  rw [outputEvents] at hMem
  split at hMem
  · cases hMem
  · exact Or.inl ⟨data, List.mem_singleton.mp hMem⟩

/-- What becomes due after other events: pieces, and the end if it is known. -/
structure Tells (f f' : Forwarder) (ending : Option Exit) : Prop where
  script : f'.script = f.script
  isOver : f'.isOver = ending.isSome
  due : ∃ pieces, f'.due = f.due ++ pieces ++ ending.toList.map (endEvent f.script) ∧
    ∀ e ∈ pieces, e.IsPiece f.script

theorem Tells.nothing (h : f.isOver = false) : Tells f f none :=
  ⟨rfl, h, [], by simp, by simp⟩

theorem finish_tells (f : Forwarder) (exit : Exit) : Tells f (f.finish (some exit)) (some exit) :=
  ⟨rfl, rfl, _, rfl, outputEvents_isPiece f.script _⟩

/-- Pieces that become due do not end a forwarding. -/
theorem Tells.after {f' f'' : Forwarder} {ending : Option Exit} (h : Tells f f' none)
    (h' : Tells f' f'' ending) : Tells f f'' ending := by
  obtain ⟨pieces, hDue, hPieces⟩ := h.due
  obtain ⟨pieces', hDue', hPieces'⟩ := h'.due
  rw [h.script] at hDue' hPieces'
  refine ⟨h'.script.trans h.script, h'.isOver, pieces ++ pieces', ?_, fun e hMem => ?_⟩
  · rw [hDue', hDue]
    simp
  · rcases List.mem_append.mp hMem with hFirst | hSecond
    · exact hPieces e hFirst
    · exact hPieces' e hSecond

theorem take_output_tells (h : f.isOver = false) (chunk : List UInt8) :
    Tells f (f.take (.value (.output chunk))) none := by
  refine ⟨rfl, h, outputEvents f.script (f.decoder.push chunk).1, ?_,
    outputEvents_isPiece f.script _⟩
  rw [Option.toList_none, List.map_nil, List.append_nil]
  rfl

theorem take_lagged_tells (h : f.isOver = false) (missed : Nat) :
    Tells f (f.take (.lagged missed)) none := by
  refine ⟨rfl, h, outputEvents f.script f.decoder.finish.1 ++
    [.outputDropped f.script (UInt64.ofNat missed)], ?_, fun e hMem => ?_⟩
  · rw [Option.toList_none, List.map_nil, List.append_nil, ← List.append_assoc]
    rfl
  · rcases List.mem_append.mp hMem with hOutput | hDropped
    · exact outputEvents_isPiece f.script _ e hOutput
    · exact Or.inr ⟨_, List.mem_singleton.mp hDropped⟩

/-- The events for what a viewer heard: pieces, and the end if it heard of it. -/
theorem takeAll_tells (h : f.isOver = false) {got : List (Received SessionEvent)}
    {pieces : List (List UInt8)} {ending : Option Exit}
    (hHears : Hub.Hears got (pieces.map .output ++ ending.toList.map .ended)) :
    Tells f (f.takeAll got) ending := by
  generalize hEvents : pieces.map SessionEvent.output ++ ending.toList.map .ended = events at hHears
  induction hHears generalizing f pieces with
  | nil =>
    obtain ⟨-, hNone⟩ := List.append_eq_nil_iff.mp hEvents
    obtain rfl : ending = none := by simpa using hNone
    exact .nothing h
  | @value e got events hRest ih =>
    have hNext : f.takeAll (.value e :: got) = (f.take (.value e)).takeAll got := by
      rw [takeAll, List.foldl_cons, if_neg (by simp [h])]
      rfl
    rw [hNext]
    cases pieces with
    | nil =>
      cases ending with
      | none => cases hEvents
      | some exit =>
        obtain ⟨rfl, rfl⟩ : SessionEvent.ended exit = e ∧ [] = events := by simpa using hEvents
        rw [hRest.nil_of_nothing rfl]
        exact finish_tells f exit
    | cons chunk pieces =>
      obtain ⟨rfl, hLater⟩ := List.cons.inj hEvents
      have hOpen : (f.take (.value (.output chunk))).isOver = false := h
      exact (take_output_tells h chunk).after (ih hOpen hLater)
  | @lagged missed got events _ hRest ih =>
    have hNext : f.takeAll (.lagged missed.length :: got) =
        (f.take (.lagged missed.length)).takeAll got := by
      rw [takeAll, List.foldl_cons, if_neg (by simp [h])]
      rfl
    rw [hNext]
    refine (take_lagged_tells h missed.length).after ?_
    have hOpen : (f.take (.lagged missed.length)).isOver = false := h
    by_cases hEmpty : events = []
    · -- only pieces were missed, so there is no end
      subst hEmpty
      obtain rfl : ending = none := by
        cases ending with
        | none => rfl
        | some exit =>
          have hAmong : SessionEvent.ended exit ∈ missed.map .output ++ [] := hEvents ▸ by simp
          simp at hAmong
      rw [hRest.nil_of_nothing rfl]
      exact .nothing hOpen
    · have hTail : (ending.toList.map SessionEvent.ended).length ≤ 1 := by cases ending <;> simp
      obtain ⟨before, after, -, -, hAfter⟩ := Hub.pieces_of_append hEvents hTail hEmpty
      exact ih hOpen hAfter.symm

/-- A forwarder begins with what was kept of the output and the acknowledgement, and has no more to
tell but the end if it came. -/
theorem begin_tells (script : String) (s : Subscription) (acknowledgement : Option Event) :
    ∃ (f : Forwarder) (replay : List Event), f.script = script ∧ f.isOver = false ∧
      f.due = replay ++ acknowledgement.toList ∧ (∀ e ∈ replay, e.IsPiece script) ∧
      Tells f (begin script s acknowledgement) s.ended ∧
      (s.ended = none → begin script s acknowledgement = f) := by
  obtain ⟨history, ended, receiver⟩ := s
  refine ⟨{ script
            decoder := (({} : Utf8Decoder).push history.flatten).2
            due := outputEvents script (({} : Utf8Decoder).push history.flatten).1 ++
              acknowledgement.toList },
    _, rfl, rfl, rfl, outputEvents_isPiece script _, ?_, ?_⟩
  · cases ended with
    | none => exact .nothing rfl
    | some exit => exact finish_tells _ exit
  · rintro rfl
    rfl

/-- All events for a viewer: the pieces it starts from and the acknowledgement, then pieces, and the
end if it started from that or heard of it. One that starts from the end hears nothing. -/
theorem forwarder_tells (script : String) {s : Subscription} (acknowledgement : Option Event)
    {got : List (Received SessionEvent)} {pieces : List (List UInt8)} {ending : Option Exit}
    (hHears : Hub.Hears got (pieces.map .output ++ ending.toList.map .ended))
    (hLate : s.ended ≠ none → got = []) :
    ((begin script s acknowledgement).takeAll got).isOver = (s.ended.or ending).isSome ∧
      ∃ replay later, ((begin script s acknowledgement).takeAll got).due =
          replay ++ acknowledgement.toList ++ later ++
            (s.ended.or ending).toList.map (endEvent script) ∧
        ∀ e ∈ replay ++ later, e.IsPiece script := by
  obtain ⟨f, replay, hScript, hOpen, hDue, hReplay, hBegin, hSame⟩ :=
    begin_tells script s acknowledgement
  have hAll : Tells f ((begin script s acknowledgement).takeAll got) (s.ended.or ending) := by
    cases hEnded : s.ended with
    | none =>
      rw [hSame hEnded, Option.none_or]
      exact takeAll_tells hOpen hHears
    | some exit =>
      rw [hLate (by simp [hEnded]), Option.some_or, ← hEnded]
      exact hBegin
  obtain ⟨later, hLater, hPieces⟩ := hAll.due
  rw [hScript] at hLater hPieces
  refine ⟨hAll.isOver, replay, later, by rw [hLater, hDue], fun e hMem => ?_⟩
  rcases List.mem_append.mp hMem with hFirst | hSecond
  · exact hReplay e hFirst
  · exact hPieces e hSecond

-- ---------------------------------------------------------------------------
-- What is due
-- ---------------------------------------------------------------------------

/-- All events that are due are of the script that is forwarded. -/
def Labelled (f : Forwarder) : Prop := ∀ e ∈ f.due, e.script? = some f.script

theorem Labelled.of_tells {f' : Forwarder} {ending : Option Exit} (hLabelled : f.Labelled)
    (h : Tells f f' ending) : f'.Labelled := by
  obtain ⟨pieces, hDue, hPieces⟩ := h.due
  intro e hMem
  rw [hDue, List.mem_append, List.mem_append] at hMem
  rw [h.script]
  rcases hMem with (hBefore | hPiece) | hEnd
  · exact hLabelled e hBefore
  · exact (hPieces e hPiece).script?
  · obtain ⟨exit, -, rfl⟩ := List.mem_map.mp hEnd
    rfl

theorem begin_labelled (script : String) (s : Subscription) {acknowledgement : Option Event}
    (hAcknowledgement : ∀ e ∈ acknowledgement, e.script? = some script) :
    (begin script s acknowledgement).script = script ∧
      (begin script s acknowledgement).Labelled := by
  obtain ⟨f, replay, rfl, -, hDue, hReplay, hBegin, -⟩ := begin_tells script s acknowledgement
  refine ⟨hBegin.script, .of_tells (fun e hMem => ?_) hBegin⟩
  rw [hDue, List.mem_append] at hMem
  rcases hMem with hPiece | hKnown
  · exact (hReplay e hPiece).script?
  · exact hAcknowledgement e (by simpa using hKnown)

/-- What comes from the session is said of no other script. -/
theorem take_labelled (hLabelled : f.Labelled) (h : f.isOver = false)
    (got : Received SessionEvent) :
    (f.take got).script = f.script ∧ (f.take got).Labelled := by
  cases got with
  | value e =>
    cases e with
    | output chunk => exact ⟨rfl, hLabelled.of_tells (take_output_tells h chunk)⟩
    | ended exit => exact ⟨rfl, hLabelled.of_tells (finish_tells f exit)⟩
  | lagged missed => exact ⟨rfl, hLabelled.of_tells (take_lagged_tells h missed)⟩
  | empty => exact ⟨rfl, hLabelled⟩
  | closed =>
    refine ⟨rfl, fun e hMem => ?_⟩
    have hParts : e ∈ f.due ++ outputEvents f.script f.decoder.finish.1 ++ [] := hMem
    rw [List.append_nil, List.mem_append] at hParts
    rcases hParts with hBefore | hRest
    · exact hLabelled e hBefore
    · exact (outputEvents_isPiece _ _ e hRest).script?

/-- When the end was taken it is due. -/
theorem due_ne_nil_of_take (h : f.isOver = false) {got : Received SessionEvent}
    (hNews : Hub.isNews got = true) (hOver : (f.take got).isOver = true) :
    (f.take got).due ≠ [] := by
  cases got with
  | value e =>
    cases e with
    | output chunk => exact absurd (hOver.symm.trans (take_output_tells h chunk).isOver) (by simp)
    | ended exit =>
      obtain ⟨pieces, hDue, -⟩ := (finish_tells f exit).due
      show (f.finish (some exit)).due ≠ []
      rw [hDue]
      simp
  | lagged missed => exact absurd (hOver.symm.trans (take_lagged_tells h missed).isOver) (by simp)
  | empty => cases hNews
  | closed => cases hNews

/-- What was due before stays in front. -/
theorem take_front (f : Forwarder) (queued : List Event) (got : Received SessionEvent) :
    ({ f with due := queued ++ f.due } : Forwarder).take got =
      { f.take got with due := queued ++ (f.take got).due } := by
  cases got with
  | value e => cases e <;> simp [take, finish, List.append_assoc]
  | _ => simp [take, finish, List.append_assoc]

-- ---------------------------------------------------------------------------
-- The text of the output
-- ---------------------------------------------------------------------------

theorem outputText_outputEvents (script data : String) :
    outputText (outputEvents script data) = data := by
  unfold outputEvents
  split
  · next hEmpty => exact (String.isEmpty_iff.mp hEmpty).symm
  · exact String.append_empty

/-- Pieces are written as they come, but for what is held of a character. -/
theorem takeAll_pieces (h : f.isOver = false) (pieces : List (List UInt8)) :
    (f.takeAll (pieces.map fun chunk => .value (.output chunk))).isOver = false ∧
      (f.takeAll (pieces.map fun chunk => .value (.output chunk))).decoder =
        (f.decoder.pushAll pieces).2 ∧
      outputText (f.takeAll (pieces.map fun chunk => .value (.output chunk))).due =
        outputText f.due ++ (f.decoder.pushAll pieces).1 := by
  induction pieces generalizing f with
  | nil => exact ⟨h, rfl, String.append_empty.symm⟩
  | cons chunk rest ih =>
    have hNext : f.takeAll ((chunk :: rest).map fun chunk => .value (.output chunk)) =
        (f.take (.value (.output chunk))).takeAll
          (rest.map fun chunk => .value (.output chunk)) := by
      rw [takeAll, List.map_cons, List.foldl_cons, if_neg (by simp [h])]
      rfl
    obtain ⟨hOpen, hDecoder, hText⟩ := ih (f := f.take (.value (.output chunk))) h
    rw [hNext]
    refine ⟨hOpen, hDecoder, hText.trans ?_⟩
    show outputText (f.due ++ outputEvents f.script (f.decoder.push chunk).1) ++
        ((f.decoder.push chunk).2.pushAll rest).1 =
      outputText f.due ++ ((f.decoder.push chunk).1 ++ ((f.decoder.push chunk).2.pushAll rest).1)
    rw [outputText_append, outputText_outputEvents, String.append_assoc]

/-- What is written of a session from where it was joined, when nothing of it was missed, is what
all its output is read as. -/
theorem outputText_of_values (script : String) (hOpen : s.ended = none)
    (hAcknowledgement : outputText acknowledgement.toList = "") (pieces : List (List UInt8))
    (exit : Exit) :
    outputText ((begin script s acknowledgement).takeAll
        ((pieces.map SessionEvent.output ++ [SessionEvent.ended exit]).map .value)).due =
      decodeLossy (s.history.flatten ++ pieces.flatten) := by
  obtain ⟨history, ended, receiver⟩ := s
  obtain rfl : ended = none := hOpen
  let f : Forwarder := begin script { history, ended := none, receiver } acknowledgement
  have hFirst : outputText f.due = (({} : Utf8Decoder).push history.flatten).1 := by
    show outputText (outputEvents script (({} : Utf8Decoder).push history.flatten).1 ++
      acknowledgement.toList) = _
    rw [outputText_append, outputText_outputEvents, hAcknowledgement, String.append_empty]
  obtain ⟨hStill, hDecoder, hText⟩ := takeAll_pieces (f := f) rfl pieces
  have hEnd : f.takeAll
      ((pieces.map SessionEvent.output ++ [SessionEvent.ended exit]).map .value) =
      (f.takeAll (pieces.map fun chunk => .value (.output chunk))).finish (some exit) := by
    rw [List.map_append, List.map_map, takeAll_append, List.map_singleton]
    show (if (f.takeAll (pieces.map fun chunk => .value (.output chunk))).isOver then _ else _) = _
    rw [hStill]
    rfl
  rw [hEnd]
  generalize f.takeAll (pieces.map fun chunk => .value (.output chunk)) = f' at *
  show outputText (f'.due ++ outputEvents f'.script f'.decoder.finish.1 ++
    [endEvent f'.script exit]) = _
  rw [outputText_append, outputText_append, outputText_outputEvents, hText, hFirst, hDecoder]
  -- a decoder that is given all that was kept as one chunk
  have hWhole := Utf8Decoder.pushAll_finish (history.flatten :: pieces)
  rw [List.flatten_cons] at hWhole
  rw [← hWhole]
  exact String.append_empty

/-- What is due stays due, whatever comes. -/
theorem due_prefix_take (f : Forwarder) (got : Received SessionEvent) :
    f.due <+: (f.take got).due := by
  cases got with
  | value e =>
    cases e with
    | output chunk => exact List.prefix_append _ _
    | ended exit => exact (List.prefix_append _ _).trans (List.prefix_append _ _)
  | lagged missed => exact (List.prefix_append _ _).trans (List.prefix_append _ _)
  | empty => exact List.prefix_refl _
  | closed => exact (List.prefix_append _ _).trans (List.prefix_append _ _)

theorem due_prefix_takeAll (f : Forwarder) (got : List (Received SessionEvent)) :
    f.due <+: (f.takeAll got).due := by
  induction got generalizing f with
  | nil => exact List.prefix_refl _
  | cons first rest ih =>
    have hNext : f.takeAll (first :: rest) = (if f.isOver then f else f.take first).takeAll rest :=
      rfl
    rw [hNext]
    refine List.IsPrefix.trans ?_ (ih _)
    split
    · exact List.prefix_refl _
    · exact f.due_prefix_take first

/-- When pieces were missed, an event says so. -/
theorem dropped_of_lagged (h : f.isOver = false) {got : List (Received SessionEvent)}
    {pieces : List (List UInt8)} {ending : Option Exit}
    (hHears : Hub.Hears got (pieces.map .output ++ ending.toList.map .ended)) {missed : Nat}
    (hMem : .lagged missed ∈ got) : ∃ count, .outputDropped f.script count ∈ (f.takeAll got).due := by
  generalize hEvents : pieces.map SessionEvent.output ++ ending.toList.map .ended = events at hHears
  induction hHears generalizing f pieces with
  | nil => cases hMem
  | @value e got events hRest ih =>
    have hLater : .lagged missed ∈ got := by simpa using hMem
    have hNext : f.takeAll (.value e :: got) = (f.take (.value e)).takeAll got := by
      rw [takeAll, List.foldl_cons, if_neg (by simp [h])]
      rfl
    rw [hNext]
    cases pieces with
    | nil =>
      cases ending with
      | none => cases hEvents
      | some exit =>
        obtain ⟨-, rfl⟩ : SessionEvent.ended exit = e ∧ [] = events := by simpa using hEvents
        rw [hRest.nil_of_nothing rfl] at hLater
        cases hLater
    | cons chunk pieces =>
      obtain ⟨rfl, hAfter⟩ := List.cons.inj hEvents
      exact ih (f := f.take (.value (.output chunk))) h hLater hAfter
  | @lagged others got events _ hRest _ =>
    have hNext : f.takeAll (.lagged others.length :: got) =
        (f.take (.lagged others.length)).takeAll got := by
      rw [takeAll, List.foldl_cons, if_neg (by simp [h])]
      rfl
    rw [hNext]
    refine ⟨UInt64.ofNat others.length, (due_prefix_takeAll _ got).subset ?_⟩
    exact List.mem_append_right _ List.mem_cons_self

end Forwarder

end ScriptWarden
