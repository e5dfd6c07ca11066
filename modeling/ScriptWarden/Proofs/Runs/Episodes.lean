import ScriptWarden.Proofs.Runs.Viewing

/-!
# Episodes

An episode is what a viewer is told of one session: it opens with the announcement, if the viewer
started the session, goes on with the events of the forwarding, and is complete with the event of
the end. It says from where on the viewer heard the session and what was done with the hub since
then, so everything about its events follows from what viewers hear of a hub.

## Results

* `Episode.Since.develops` — the session of an episode goes on.
* `Episode.Since.tells` — the events of an episode: an end is told of when it was heard, and
  everything before it has been told of or counted as missed.
* `Episode.Carries` — a forwarding at work on an episode; what it takes and queues.
-/

namespace ScriptWarden

/-- A session from where a viewer joined it. -/
structure Episode where
  /-- The session as it was when the viewer had subscribed. -/
  session : Session
  subscription : Subscription
  /-- Whether the viewer has asked for it by a watch, and not started it. -/
  asked : Bool
  /-- What was done with the hub since then. -/
  actions : List Hub.Action

namespace Episode

/-- What the forwarding has been told of. -/
def got (g : Episode) : List (Received SessionEvent) :=
  g.session.hub.told g.subscription.receiver g.actions

/-- The acknowledgement of a watch. -/
def acknowledgement (g : Episode) : Option Event :=
  if g.asked then some g.session.watchingEvent else none

/-- What is queued before the forwarding begins. -/
def opening (g : Episode) : List Event := if g.asked then [] else [g.session.startedEvent]

/-- The forwarding that begins an episode. -/
def beginning (g : Episode) : Watch := Watch.begin g.session g.subscription g.acknowledgement

/-- The forwarder that has taken everything and queued nothing. -/
def forwarder (g : Episode) : Forwarder := g.beginning.forwarder.takeAll g.got

/-- All events of an episode. -/
def events (g : Episode) : List Event := g.opening ++ g.forwarder.due

/-- The episode after more was done with the hub. -/
def later (g : Episode) (more : List Hub.Action) : Episode :=
  { g with actions := g.actions ++ more }

/-- The session of an episode is known, with the hub that has been acted on as the episode says, and
in some ways since. -/
structure Since (g : Episode) (rest : List Hub.Action) (d : Deployment) : Prop where
  joined : ∃ limit before,
    ((Hub.new limit).run before).subscribe = (g.subscription, g.session.hub) ∧
      Hub.Action.close ∉ before
  known : ∃ s, d.service.session? g.session.id = some s ∧ s.origin = g.session.origin ∧
    s.hub = g.session.hub.run (g.actions ++ rest)
  unclosed : Hub.Action.close ∉ g.actions ++ rest

/-- How the events of an episode read: the opening, what was kept of the output, the
acknowledgement, the output, and the end if it is known. -/
def Tells (g : Episode) (ending : Option Exit) : Prop :=
  ∃ replay output, g.events = g.opening ++ (replay ++ g.acknowledgement.toList ++ output ++
      ending.toList.map (Forwarder.endEvent g.session.name.text)) ∧
    ∀ e ∈ replay ++ output, e.IsPiece g.session.name.text

/-- The end of the session is known and told of, and all that came since the viewer joined has been
told of or counted as missed. -/
structure IsComplete (g : Episode) (d : Deployment) : Prop where
  ended : ∃ s exit, d.service.session? g.session.id = some s ∧ s.hub.ended = some exit ∧
    g.Tells (some exit)
  heard : Hub.Hears g.got (Hub.stream g.subscription.ended g.actions)

variable {g : Episode} {rest more : List Hub.Action} {d d' : Deployment} {n : ScriptName}
  {touched : Nat → Nat → Prop}

-- ---------------------------------------------------------------------------
-- Episodes that go on
-- ---------------------------------------------------------------------------

theorem got_later (more : List Hub.Action) : (g.later more).got =
    g.got ++ (g.session.hub.run g.actions).told g.subscription.receiver more :=
  Hub.told_append _ _ _ _

theorem forwarder_later (more : List Hub.Action) : (g.later more).forwarder =
    g.forwarder.takeAll ((g.session.hub.run g.actions).told g.subscription.receiver more) := by
  rw [forwarder, got_later, Forwarder.takeAll_append]
  rfl

/-- What others do adds no events. -/
theorem forwarder_later_of_ne (h : ∀ action ∈ more, action ≠ .receive g.subscription.receiver) :
    (g.later more).forwarder = g.forwarder := by
  rw [forwarder_later, Hub.told_of_ne h]
  rfl

/-- The session of an episode goes on. -/
theorem Since.develops (h : g.Since rest d) (hDevelops : Develops touched d d') :
    ∃ more, g.Since (rest ++ more) d' ∧
      ∀ action ∈ more, action.Within (touched g.session.id) := by
  obtain ⟨s, hSession, hOrigin, hHub⟩ := h.known
  obtain ⟨t, hLater, hOn⟩ := hDevelops.session? hSession
  obtain ⟨more, hMore, hWithin⟩ := hOn.hub
  have hUnclosed : Hub.Action.close ∉ g.actions ++ rest ++ more := fun hMem =>
    (List.mem_append.mp hMem).elim h.unclosed fun hClose => hWithin _ hClose
  rw [List.append_assoc] at hUnclosed
  refine ⟨more, ⟨h.joined, ⟨t, hLater, hOn.origin.trans hOrigin, ?_⟩, hUnclosed⟩, hWithin⟩
  rw [hMore, hHub, ← Hub.run_append, List.append_assoc]

/-- What was done since then can be counted in. -/
theorem Since.later (h : g.Since more d) : (g.later more).Since [] d := by
  obtain ⟨s, hSession, hOrigin, hHub⟩ := h.known
  exact ⟨h.joined, ⟨s, hSession, hOrigin, by rw [List.append_nil]; exact hHub⟩,
    by rw [List.append_nil]; exact h.unclosed⟩

/-- A session that the viewer subscribes to is one that an episode can be about. -/
theorem subscribe_since {id : Nat} {session : Session} {limit : Nat} {before : List Hub.Action}
    (hSession : d.service.session? id = some session)
    (hHub : session.hub = (Hub.new limit).run before) (hBefore : Hub.Action.close ∉ before)
    (asked : Bool) : Since ⟨session.subscribe.2, session.subscribe.1, asked, []⟩ []
      (Deployment.subscribe session d).2 := by
  refine ⟨⟨limit, before, by rw [← hHub]; rfl, hBefore⟩, ⟨session.subscribe.2, ?_, rfl, rfl⟩,
    by simp⟩
  have hId : session.subscribe.2.id = session.id := rfl
  show (d.setSession session.subscribe.2).service.session? session.id = some session.subscribe.2
  rw [session?_setSession, if_pos hId.symm, session?_self hSession, Option.map_some]

-- ---------------------------------------------------------------------------
-- What is heard
-- ---------------------------------------------------------------------------

/-- The viewer joined a hub of some pieces, from the end if there was one, and waits for what comes.
-/
theorem Since.awaits (h : g.Since rest d) :
    (∃ pieces, Hub.Consistent g.session.hub pieces g.subscription.ended) ∧
      Hub.Awaits g.session.hub g.subscription.receiver [] := by
  obtain ⟨limit, before, hJoined, -⟩ := h.joined
  have hCapacity : 0 < Hub.standardCapacity := by decide
  have hBefore := (Hub.Consistent.initial limit hCapacity).run before
  obtain ⟨all, hHolds⟩ := hBefore.sent
  obtain ⟨hSubscription, hHub⟩ := Prod.mk.inj hJoined
  rw [← hSubscription, ← hHub]
  refine ⟨⟨_, hBefore.room, hBefore.kept, hBefore.bytes, rfl, all, hHolds.sent, hHolds.kept⟩,
    hBefore.room, hHolds.subscribe, .nil _⟩

/-- The end that is known of the session: the one that the viewer started from, or one announced
since. -/
theorem Since.ended (h : g.Since rest d) : ∃ s, d.service.session? g.session.id = some s ∧
    s.hub.ended = g.subscription.ended.or (Hub.announced (g.actions ++ rest)) := by
  obtain ⟨⟨pieces, hConsistent⟩, -⟩ := h.awaits
  obtain ⟨s, hSession, -, hHub⟩ := h.known
  exact ⟨s, hSession, by rw [hHub, (hConsistent.run _).ended]⟩

/-- What the forwarding has been told of is the front of what there is to be told, and all of it
when nothing is left. -/
theorem Since.hears (h : g.Since rest d) : ∃ heard unheard,
    Hub.stream g.subscription.ended g.actions = heard ++ unheard ∧ Hub.Hears g.got heard ∧
      (g.session.hub.Drained g.subscription.receiver g.actions → unheard = []) := by
  obtain ⟨⟨pieces, hConsistent⟩, hAwaits⟩ := h.awaits
  obtain ⟨heard, unheard, hStream, hHears, hAll⟩ := hAwaits.hears g.actions
  rw [List.nil_append, hConsistent.ended] at hStream
  exact ⟨heard, unheard, hStream, hHears, hAll⟩

/-- The events of an episode: either all there is has been heard, and an end that is known is told
of; or some is left, and no end is told of. -/
theorem Since.tells (h : g.Since rest d) : ∃ ending, g.Tells ending ∧
    g.forwarder.isOver = ending.isSome ∧
    (g.session.hub.Drained g.subscription.receiver g.actions →
      ending = g.subscription.ended.or (Hub.announced g.actions)) ∧
    (ending = none ∨ ending = g.subscription.ended.or (Hub.announced g.actions) ∧
      Hub.Hears g.got (Hub.stream g.subscription.ended g.actions)) := by
  obtain ⟨heard, unheard, hStream, hHears, hAll⟩ := h.hears
  -- the forwarder's account of what was heard, as events of the episode
  have hTell : ∀ (pieces : List (List UInt8)) (ending : Option Exit),
      heard = pieces.map .output ++ ending.toList.map .ended →
      (g.subscription.ended ≠ none → g.got = []) → g.Tells (g.subscription.ended.or ending) ∧
        g.forwarder.isOver = (g.subscription.ended.or ending).isSome := by
    intro pieces ending hHeard hLate
    obtain ⟨hOver, replay, output, hDue, hPieces⟩ := Forwarder.forwarder_tells
      g.session.name.text g.acknowledgement (hHeard ▸ hHears) hLate
    exact ⟨⟨replay, output, congrArg (g.opening ++ ·) hDue, hPieces⟩, hOver⟩
  cases hEnded : g.subscription.ended with
  | some exit =>
    rw [hEnded] at hStream hTell
    obtain ⟨rfl, rfl⟩ : heard = [] ∧ unheard = [] := List.append_eq_nil_iff.mp hStream.symm
    have hGot : g.got = [] := hHears.nil_of_nothing rfl
    obtain ⟨hTells, hOver⟩ := hTell [] none rfl fun _ => hGot
    exact ⟨some exit, hTells, hOver, fun _ => rfl, Or.inr ⟨rfl, hHears⟩⟩
  | none =>
    rw [hEnded] at hStream hTell
    simp only [Option.none_or] at hTell ⊢
    rcases Hub.heard_cases hStream with ⟨hDone, hHeard⟩ | ⟨before, hHeard⟩
    · obtain ⟨hTells, hOver⟩ := hTell _ _ hHeard nofun
      rw [hDone, List.append_nil] at hStream
      exact ⟨_, hTells, hOver, fun _ => rfl, Or.inr ⟨rfl, hStream ▸ hHears⟩⟩
    · have hPieces : heard = before.map .output ++ (none : Option Exit).toList.map .ended := by
        rw [hHeard, Option.toList_none, List.map_nil, List.append_nil]
      obtain ⟨hTells, hOver⟩ := hTell _ _ hPieces nofun
      refine ⟨none, hTells, hOver, fun hDrained => ?_, Or.inl rfl⟩
      -- if nothing was left then there is no end
      rw [hAll hDrained, List.append_nil, hHeard] at hStream
      cases hAnnounced : Hub.announced g.actions with
      | none => rfl
      | some exit =>
        have hAmong : SessionEvent.ended exit ∈ before.map SessionEvent.output := by
          rw [← hStream, Hub.stream, hAnnounced]
          simp
        simp at hAmong

/-- An episode whose forwarder is over is complete. -/
theorem Since.isComplete (h : g.Since rest d) (hOver : g.forwarder.isOver = true) :
    g.IsComplete d := by
  obtain ⟨ending, hTells, hSome, -, hAll⟩ := h.tells
  rw [hOver] at hSome
  obtain ⟨exit, rfl⟩ := Option.isSome_iff_exists.mp hSome.symm
  rcases hAll with hNone | ⟨hEnd, hHears⟩
  · cases hNone
  · obtain ⟨s, hSession, hEnded⟩ := h.ended
    rw [Hub.announced_append, ← Option.or_assoc, ← hEnd, Option.some_or] at hEnded
    exact ⟨⟨s, exit, hSession, hEnded, hTells⟩, hHears⟩

/-- The hub of an episode is open and has the viewer's receiver, as long as that is not dropped. -/
theorem Since.pending (h : g.Since [] d)
    (hKept : Hub.Action.drop g.subscription.receiver ∉ g.actions) : ∃ s pending,
    d.service.session? g.session.id = some s ∧ s.origin = g.session.origin ∧
      s.hub = g.session.hub.run g.actions ∧ Hub.Awaits s.hub g.subscription.receiver pending ∧
      s.hub.channel.closed = false := by
  obtain ⟨s, hSession, hOrigin, hHub⟩ := h.known
  rw [List.append_nil] at hHub
  obtain ⟨-, hAwaits⟩ := h.awaits
  obtain ⟨pending, hPending⟩ := hAwaits.run hKept
  have hOpen : (g.session.hub.run g.actions).channel.closed = false := by
    obtain ⟨limit, before, hJoined, hBefore⟩ := h.joined
    have hActions : Hub.Action.close ∉ g.actions := fun hMem =>
      h.unclosed (List.mem_append_left _ hMem)
    rw [Hub.closed_run hActions, ← (Prod.mk.inj hJoined).2]
    exact Hub.closed_run hBefore
  exact ⟨s, pending, hSession, hOrigin, hHub, hHub ▸ hPending, hHub ▸ hOpen⟩

/-- A viewer that is not told that there is nothing yet is told of the session. -/
theorem Since.receive (h : g.Since [] d)
    (hKept : Hub.Action.drop g.subscription.receiver ∉ g.actions)
    (hSome : (d.receive g.session.id g.subscription.receiver).1 ≠ .empty) :
    Hub.isNews (d.receive g.session.id g.subscription.receiver).1 = true ∧
      (g.later [.receive g.subscription.receiver]).Since []
        (d.receive g.session.id g.subscription.receiver).2 ∧
      (g.session.hub.run g.actions).told g.subscription.receiver
        [.receive g.subscription.receiver] =
        [(d.receive g.session.id g.subscription.receiver).1] := by
  obtain ⟨s, pending, hSession, hOrigin, hHub, hAwaits, hOpen⟩ := h.pending hKept
  have hReceive : d.receive g.session.id g.subscription.receiver =
      ((s.hub.receive g.subscription.receiver).1,
        d.setSession { s with hub := (s.hub.receive g.subscription.receiver).2 }) := by
    rw [Deployment.receive, hSession]
  -- the hub tells of something or of nothing yet
  have hNever : (s.hub.receive g.subscription.receiver).1 ≠ .closed :=
    hAwaits.owes.receive_ne_closed hOpen
  rw [hReceive] at hSome ⊢
  have hNews : Hub.isNews (s.hub.receive g.subscription.receiver).1 = true := by
    generalize (s.hub.receive g.subscription.receiver).1 = got at hSome hNever
    cases got with
    | empty => exact absurd rfl hSome
    | closed => exact absurd rfl hNever
    | _ => rfl
  refine ⟨hNews, Since.later (g := g) ⟨h.joined, ?_, ?_⟩, ?_⟩
  · have hId : s.id = g.session.id := session?_id hSession
    refine ⟨{ s with hub := (s.hub.receive g.subscription.receiver).2 }, ?_, hOrigin, ?_⟩
    · rw [session?_setSession, if_pos hId.symm, hSession, Option.map_some]
    · rw [Hub.run_append, ← hHub]
      rfl
  · have hBefore := h.unclosed
    rw [List.append_nil] at hBefore
    simpa using hBefore
  · rw [Hub.told, if_pos rfl, ← hHub, Hub.told, List.append_nil, List.filter_cons_of_pos hNews]
    rfl

-- ---------------------------------------------------------------------------
-- Forwardings at work
-- ---------------------------------------------------------------------------

/-- A forwarding at work on an episode: what it has queued and what is due are the events of the
episode's forwarder. -/
structure Carries (g : Episode) (w : Watch) (d : Deployment) : Prop where
  since : g.Since [] d
  kept : Hub.Action.drop g.subscription.receiver ∉ g.actions
  session : w.session = g.session.id
  receiver : w.receiver = g.subscription.receiver
  queued : ∃ queued, g.forwarder = { w.forwarder with due := queued ++ w.forwarder.due }

variable {w w' : Watch}

theorem Carries.isOver (h : g.Carries w d) : g.forwarder.isOver = w.forwarder.isOver := by
  obtain ⟨queued, hQueued⟩ := h.queued
  rw [hQueued]

/-- The forwarding that has just begun. -/
theorem Since.carries (h : g.Since [] d) (hActions : g.actions = []) :
    g.Carries g.beginning d ∧ g.forwarder = g.beginning.forwarder := by
  have hForwarder : g.forwarder = g.beginning.forwarder := by
    rw [forwarder, got, hActions]
    rfl
  exact ⟨⟨h, by simp [hActions], rfl, rfl, [], hForwarder⟩, hForwarder⟩

/-- What others do adds to what was done with the hub, and no events. -/
theorem Carries.develops (h : g.Carries w d) (hDevelops : Develops touched d d')
    (hAway : ¬ touched w.session w.receiver) :
    ∃ more, (g.later more).Carries w d' ∧ (g.later more).forwarder = g.forwarder := by
  obtain ⟨more, hSince, hWithin⟩ := h.since.develops hDevelops
  rw [List.nil_append] at hSince
  rw [h.session, h.receiver] at hAway
  have hSame : (g.later more).forwarder = g.forwarder := by
    refine forwarder_later_of_ne fun action hMem => ?_
    rintro rfl
    exact hAway (hWithin _ hMem)
  obtain ⟨queued, hQueued⟩ := h.queued
  refine ⟨more, ⟨hSince.later, fun hMem => ?_, h.session, h.receiver, queued, hSame ▸ hQueued⟩,
    hSame⟩
  rcases List.mem_append.mp hMem with hBefore | hMore
  · exact h.kept hBefore
  · exact hAway (hWithin _ hMore)

/-- The hub of a forwarding at work is open and has its receiver. -/
theorem Carries.awaits (h : g.Carries w d) : ∃ s pending,
    d.service.session? w.session = some s ∧ s.origin = g.session.origin ∧
      s.hub = g.session.hub.run g.actions ∧ Hub.Awaits s.hub w.receiver pending ∧
      s.hub.channel.closed = false := by
  rw [h.session, h.receiver]
  exact h.since.pending h.kept

/-- A forwarding that goes on is told of the session as long as it asks. -/
theorem Carries.receive (h : g.Carries w d) (hSome : (d.receive w.session w.receiver).1 ≠ .empty) :
    Hub.isNews (d.receive w.session w.receiver).1 = true ∧
      (g.later [.receive w.receiver]).Since [] (d.receive w.session w.receiver).2 ∧
      (g.session.hub.run g.actions).told g.subscription.receiver [.receive w.receiver] =
        [(d.receive w.session w.receiver).1] := by
  rw [h.session, h.receiver] at hSome ⊢
  exact h.since.receive h.kept hSome

/-- A step of a forwarding at work: it queues what is due, or more becomes due, and both are what
the episode's events are. It is at work as long as it goes on. -/
theorem Carries.forward {room : Bool} {e : Option Event} (h : g.Carries w d)
    (hForward : Connection.forward? room w d = some (e, w', d')) : ∃ more new,
    (g.later more).events = g.events ++ new ∧
      e.toList ++ w'.forwarder.due = w.forwarder.due ++ new ∧
      (Connection.isActive w' = true → (g.later more).Carries w' d') ∧
      (Connection.isActive w' = false →
        (g.later more).forwarder.isOver = true ∧ ∃ rest, (g.later more).Since rest d') := by
  obtain ⟨queued, hQueued⟩ := h.queued
  rcases Connection.forward?_cases hForward with ⟨first, due, hDue, -, rfl, rfl, rfl⟩ |
    ⟨hDue, hOpen, rfl, hSome, rfl, rfl⟩
  · -- nothing is done with the hub but what the last event leads to
    have hNothing : g.later [] = g := by
      rw [later, List.append_nil]
    refine ⟨[], [], ?_, ?_, fun hActive => ?_, fun hDone => ?_⟩
    · rw [hNothing, List.append_nil]
    · rw [hDue, List.append_nil]
      rfl
    · have hLeft : (due.isEmpty && w.forwarder.isOver) = false := by
        rw [← Bool.not_eq_true, Bool.and_eq_true, and_comm, ← Connection.isActive_eq_false
          (w := { w with forwarder := { w.forwarder with due } }), hActive]
        exact Bool.noConfusion
      rw [hLeft, if_neg Bool.false_ne_true, hNothing]
      refine ⟨h.since, h.kept, h.session, h.receiver, queued ++ [first], ?_⟩
      rw [hQueued, hDue, List.append_assoc]
      rfl
    · obtain ⟨hOver, -⟩ := Connection.isActive_eq_false.mp hDone
      rw [hNothing]
      refine ⟨h.isOver.trans hOver, ?_⟩
      have hDevelops := Connection.forward?_develops hForward
      obtain ⟨more, hSince, -⟩ := h.since.develops hDevelops
      exact ⟨_, hSince⟩
  · obtain ⟨hNews, hSince, hTold⟩ := h.receive hSome
    generalize (d.receive w.session w.receiver).1 = got at *
    have hActive : Connection.isActive { w with forwarder := w.forwarder.take got } = true := by
      rw [Connection.isActive]
      cases hOver : (w.forwarder.take got).isOver with
      | false => rfl
      | true => simpa using Forwarder.due_ne_nil_of_take hOpen hNews hOver
    have hNext : (g.later [.receive w.receiver]).forwarder =
        { w.forwarder.take got with due := queued ++ (w.forwarder.take got).due } := by
      rw [forwarder_later, hTold, Forwarder.takeAll, List.foldl_cons, h.isOver, hOpen, hQueued,
        Forwarder.take_front]
      rfl
    refine ⟨[.receive w.receiver], (w.forwarder.take got).due, ?_, ?_, fun _ => ?_, fun hDone => ?_⟩
    · rw [events, hNext, events, hQueued, hDue, List.append_nil, List.append_assoc]
      rfl
    · rw [hDue]
      rfl
    · have hLeft :
          ¬ ((w.forwarder.take got).isOver && (w.forwarder.take got).due.isEmpty) = true := by
        rw [Bool.and_eq_true, ← Connection.isActive_eq_false
          (w := { w with forwarder := w.forwarder.take got }), hActive]
        exact Bool.noConfusion
      rw [if_neg hLeft]
      refine ⟨hSince, ?_, h.session, h.receiver, queued, hNext⟩
      simpa [later] using h.kept
    · cases hActive.symm.trans hDone

/-- A forwarding that goes on and can take no step, with room for events, has told of everything,
and the session has not ended. -/
theorem Carries.stuck (h : g.Carries w d) (hActive : Connection.isActive w = true)
    (hStuck : Connection.forward? true w d = none) :
    ∃ s, d.service.session? g.session.id = some s ∧ s.hub.ended = none := by
  obtain ⟨hOpen, hEmpty⟩ := Connection.eq_empty_of_forward? hActive hStuck
  obtain ⟨s, hSession, -, hHub⟩ := h.since.known
  rw [List.append_nil] at hHub
  have hDrained : g.session.hub.Drained g.subscription.receiver g.actions := by
    refine ⟨h.kept, ?_⟩
    rw [h.session, h.receiver, Deployment.receive, hSession] at hEmpty
    rw [← hHub]
    exact congrArg Hub.isNews hEmpty
  obtain ⟨ending, -, hOver, hEnding, -⟩ := h.since.tells
  have hNone : ending = none := by
    rw [h.isOver, hOpen] at hOver
    exact Option.not_isSome_iff_eq_none.mp (by simp [← hOver])
  obtain ⟨t, hKnown, hEnded⟩ := h.since.ended
  rw [List.append_nil, ← hEnding hDrained, hNone] at hEnded
  exact ⟨t, hKnown, hEnded⟩

end Episode

end ScriptWarden
