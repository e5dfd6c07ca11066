import ScriptWarden.Proofs.Runs.Draining
import ScriptWarden.Proofs.Runs.KeptOutput

/-!
# Viewers and logs

A viewer that subscribes to a session reads its output in pieces: what was kept up to then, and what
is published later, with characters that are cut put together again. The log is made of all that was
kept, at once. Both read the same text, wherever the output was cut and whenever the viewer came, as
long as nothing was let go of and the viewer missed nothing.

## Results

* `Forwarding` — a run in which a viewer is sent a session.
* `Forwarding.completes` — when the session has ended the viewer can be sent the rest.
* `Followed.outputText` — what it was sent then.
* `viewers_see_what_logs_hold` — what viewers are sent and what logs hold.
-/

namespace ScriptWarden

variable {Allowed : Scene → Action → Scene → Prop} {s₀ s s' : Scene} {past : List Happening}
  {w w' : Watch} {sent : List Event} {g : Episode} {d d' : Deployment} {id : Nat}
  {config : Config} {workingDir hostname : String} {host : Host}

-- ---------------------------------------------------------------------------
-- Runs with a viewer
-- ---------------------------------------------------------------------------

/-- Viewers may ask for what comes, and leave. -/
def LetsViewers (Allowed : Scene → Action → Scene → Prop) : Prop :=
  ∀ s id r s', Allowed s (.move (.receive id r)) s' ∧ Allowed s (.move (.unsubscribe id r)) s'

/-- A run in which a viewer subscribes to a session before its end, by a start or by a watch, and is
sent what its forwarding queues; nobody else has hold of its receiver. With what has happened and
what the viewer was sent. -/
inductive Forwarding (Allowed : Scene → Action → Scene → Prop) (s₀ : Scene) :
    List Happening → Watch → List Event → Scene → Prop
  | subscribe {past : List Happening} {s : Scene} {id : Nat} {x : Session} (asked : Bool) :
      Chronicle Allowed s₀ past s → s.deployment.service.session? id = some x →
      x.hub.ended = none → Allowed s (.move (.watchSession id))
        (s.withDeployment (Deployment.subscribe x s.deployment).2) →
      Forwarding Allowed s₀ past
        (Watch.begin x.subscribe.2 x.subscribe.1
          (if asked then some x.subscribe.2.watchingEvent else none)) []
        (s.withDeployment (Deployment.subscribe x s.deployment).2)
  | others {past : List Happening} {w : Watch} {sent : List Event} {s s' : Scene} {a : Action}
      {told : Option Happening} :
      Forwarding Allowed s₀ past w sent s → Happens s a told s' → Allowed s a s' →
      ¬ a.Touches w.session w.receiver → Forwarding Allowed s₀ (told.toList ++ past) w sent s'
  | forward {past : List Happening} {w w' : Watch} {sent : List Event} {s : Scene} {room : Bool}
      {e : Option Event} {d : Deployment} :
      Forwarding Allowed s₀ past w sent s →
      Connection.forward? room w s.deployment = some (e, w', d) →
      Forwarding Allowed s₀ past w' (sent ++ e.toList) (s.withDeployment d)

/-- What others than supervisors and readers do adds nothing to a chronicle. -/
theorem Chronicle.move (h : Chronicle Allowed s₀ past s) {m : Move}
    (hOthers : Action.IsOthers s (.move m))
    (hAllowed : Allowed s (.move m) (s.withDeployment (m.perform s.deployment))) :
    Chronicle Allowed s₀ past (s.withDeployment (m.perform s.deployment)) :=
  h.next (.other (.move m) hOthers nofun) hAllowed

theorem Chronicle.forward (hViewers : LetsViewers Allowed) (h : Chronicle Allowed s₀ past s)
    {room : Bool} {e : Option Event}
    (hForward : Connection.forward? room w s.deployment = some (e, w', d)) :
    Chronicle Allowed s₀ past (s.withDeployment d) := by
  have hLeave : ∀ {t : Scene}, Chronicle Allowed s₀ past t → Chronicle Allowed s₀ past
      (t.withDeployment (t.deployment.unsubscribe w.session w.receiver)) := fun hRun =>
    hRun.move (m := .unsubscribe w.session w.receiver) trivial (hViewers _ _ _ _).2
  have hAsk : Chronicle Allowed s₀ past
      (s.withDeployment (s.deployment.receive w.session w.receiver).2) :=
    h.move (m := .receive w.session w.receiver) trivial (hViewers _ _ _ _).1
  rcases Connection.forward?_cases hForward with ⟨_, _, _, _, _, _, rfl⟩ | ⟨_, _, _, _, _, rfl⟩
  · split
    · exact hLeave h
    · exact h
  · split
    · exact hLeave hAsk
    · exact hAsk

theorem Forwarding.chronicle (hViewers : LetsViewers Allowed)
    (h : Forwarding Allowed s₀ past w sent s) : Chronicle Allowed s₀ past s := by
  induction h with
  | @subscribe past s id x asked hPast hSession _ hAllowed =>
    have hMove : (Move.watchSession id).perform s.deployment =
        (Deployment.subscribe x s.deployment).2 := by
      rw [Move.perform, hSession]
      rfl
    rw [← hMove] at hAllowed ⊢
    exact hPast.move trivial hAllowed
  | others _ hHappens hAllowed _ ih => exact ih.next hHappens hAllowed
  | forward _ hForward ih => exact ih.forward hViewers hForward

-- ---------------------------------------------------------------------------
-- What the viewer is sent
-- ---------------------------------------------------------------------------

/-- The episode that a forwarding is about: its events were sent, or are due. -/
structure Followed (g : Episode) (w : Watch) (sent : List Event) (d : Deployment) : Prop where
  session : w.session = g.session.id
  joined : g.subscription.ended = none
  told : g.forwarder.due = sent ++ w.forwarder.due
  since : (Connection.isActive w = true ∧ g.Carries w d) ∨
    (Connection.isActive w = false ∧ g.forwarder.isOver = true ∧ ∃ rest, g.Since rest d)

theorem Forwarder.begin_isOver {script : String} {joined : Subscription}
    {acknowledgement : Option Event} (h : joined.ended = none) :
    (begin script joined acknowledgement).isOver = false := by
  obtain ⟨history, ended, receiver⟩ := joined
  cases h
  rfl

theorem forward?_session {room : Bool} {e : Option Event}
    (h : Connection.forward? room w d = some (e, w', d')) : w'.session = w.session := by
  rcases Connection.forward?_cases h with ⟨_, _, _, _, _, rfl, _⟩ | ⟨_, _, _, _, rfl, _⟩ <;> rfl

/-- A forwarding that is done takes no step. -/
theorem forward?_of_done {room : Bool} (h : Connection.isActive w = false) :
    Connection.forward? room w d = none := by
  obtain ⟨hOver, hDue⟩ := Connection.isActive_eq_false.mp h
  unfold Connection.forward?
  rw [List.isEmpty_iff.mp hDue, hOver]
  rfl

theorem Followed.forward (h : Followed g w sent d) {room : Bool} {e : Option Event}
    (hForward : Connection.forward? room w d = some (e, w', d')) :
    ∃ g', Followed g' w' (sent ++ e.toList) d' := by
  rcases h.since with ⟨-, hCarries⟩ | ⟨hDone, -, -⟩
  · obtain ⟨more, new, hEvents, hDue, hOn, hDone⟩ := hCarries.forward hForward
    refine ⟨g.later more, (forward?_session hForward).trans h.session, h.joined, ?_, ?_⟩
    · have hAll : (g.later more).forwarder.due = g.forwarder.due ++ new := by
        have hOpening : g.opening ++ (g.later more).forwarder.due =
            g.opening ++ g.forwarder.due ++ new := hEvents
        rw [List.append_assoc] at hOpening
        exact List.append_cancel_left hOpening
      rw [hAll, h.told, List.append_assoc, List.append_assoc, hDue]
    · cases hActive : Connection.isActive w' with
      | true => exact .inl ⟨rfl, hOn hActive⟩
      | false => exact .inr ⟨rfl, hDone hActive⟩
  · rw [forward?_of_done hDone] at hForward
    cases hForward

theorem Followed.others (h : Followed g w sent d) {touched : Nat → Nat → Prop}
    (hDevelops : Develops touched d d') (hAway : ¬ touched w.session w.receiver) :
    ∃ g', Followed g' w sent d' := by
  rcases h.since with ⟨hActive, hCarries⟩ | ⟨hDone, hOver, rest, hSince⟩
  · obtain ⟨more, hOn, hSame⟩ := hCarries.develops hDevelops hAway
    refine ⟨g.later more, h.session, h.joined, ?_, .inl ⟨hActive, hOn⟩⟩
    rw [hSame]
    exact h.told
  · obtain ⟨more, hOn, -⟩ := hSince.develops hDevelops
    exact ⟨g, h.session, h.joined, h.told, .inr ⟨hDone, hOver, _, hOn⟩⟩

theorem Forwarding.followed (hViewers : LetsViewers Allowed)
    (h : Forwarding Allowed (Scene.initial config workingDir hostname host) past w sent s) :
    ∃ g, Followed g w sent s.deployment := by
  induction h with
  | @subscribe past s id x asked hPast hSession hOpen _ =>
    obtain ⟨limit, actions, hHub, hWithin⟩ := reaches_hub hPast.reaches hSession
    have hBefore : Hub.Action.close ∉ actions := fun hMem => hWithin _ hMem
    have hSince := Episode.subscribe_since (d := s.deployment) hSession hHub hBefore asked
    obtain ⟨hCarries, hForwarder⟩ := hSince.carries rfl
    let g : Episode := ⟨x.subscribe.2, x.subscribe.1, asked, []⟩
    have hGoesOn : g.beginning.forwarder.isOver = false := Forwarder.begin_isOver hOpen
    have hActive : Connection.isActive g.beginning = true := by
      rw [Connection.isActive, hGoesOn]
      rfl
    exact ⟨g, rfl, hOpen, congrArg Forwarder.due hForwarder, .inl ⟨hActive, hCarries⟩⟩
  | others hBefore hHappens _ hAway ih =>
    obtain ⟨g, hFollowed⟩ := ih
    have hSound := (hBefore.chronicle hViewers).sound
      (initial_sound config workingDir hostname host)
    exact hFollowed.others (step_develops hSound hHappens.step) hAway
  | forward _ hForward ih =>
    obtain ⟨g, hFollowed⟩ := ih
    exact hFollowed.forward hForward

/-- With room for what is left, the forwarding of a session that has ended gets done. -/
theorem Forwarding.completes_of_left (hViewers : LetsViewers Allowed) {count : Nat}
    (h : Forwarding Allowed (Scene.initial config workingDir hostname host) past w sent s)
    {x : Session} (hSession : s.deployment.service.session? w.session = some x) {exit : Exit}
    (hEnded : x.hub.ended = some exit) (hLeft : w.Left s.deployment count) :
    ∃ w' more s', Forwarding Allowed (Scene.initial config workingDir hostname host) past w'
      (sent ++ more) s' ∧ w'.session = w.session ∧ Connection.isActive w' = false := by
  induction count using Nat.strong_induction_on generalizing w sent s x with
  | _ count ih =>
    obtain ⟨g, hFollowed⟩ := h.followed hViewers
    rcases hFollowed.since with ⟨hActive, hCarries⟩ | ⟨hDone, -, -⟩
    · cases hForward : Connection.forward? true w s.deployment with
      | none =>
        -- there is nothing yet only before the end
        obtain ⟨y, hThere, hOpen⟩ := hCarries.stuck hActive hForward
        rw [← hFollowed.session] at hThere
        obtain rfl := Option.some.inj (hThere.symm.trans hSession)
        cases hOpen.symm.trans hEnded
      | some next =>
        obtain ⟨e, w', d⟩ := next
        have hNext := h.forward hForward
        have hSame := forward?_session hForward
        obtain ⟨y, hLater, hOn⟩ := (Connection.forward?_develops hForward).session? hSession
        obtain ⟨actions, hHub, -⟩ := hOn.hub
        have hStill : y.hub.ended = some exit := by
          rw [hHub]
          exact Hub.ended_run hEnded actions
        cases hGoesOn : Connection.isActive w' with
        | false => exact ⟨w', e.toList, _, hNext, hSame, hGoesOn⟩
        | true =>
          obtain ⟨less, hLess, hLeft'⟩ := hLeft.forward hForward hGoesOn
          rw [← hSame] at hLater
          obtain ⟨w'', more, s', hRest, hSame', hDone⟩ := ih less hLess hNext hLater hStill hLeft'
          rw [List.append_assoc] at hRest
          exact ⟨w'', _, s', hRest, hSame'.trans hSame, hDone⟩
    · exact ⟨w, [], s, by rwa [List.append_nil], rfl, hDone⟩

/-- When a session has ended, its forwarding gets done as soon as there is room for the rest. -/
theorem Forwarding.completes (hViewers : LetsViewers Allowed)
    (h : Forwarding Allowed (Scene.initial config workingDir hostname host) past w sent s)
    {x : Session} (hSession : s.deployment.service.session? w.session = some x) {exit : Exit}
    (hEnded : x.hub.ended = some exit) :
    ∃ w' more s', Forwarding Allowed (Scene.initial config workingDir hostname host) past w'
      (sent ++ more) s' ∧ w'.session = w.session ∧ Connection.isActive w' = false := by
  obtain ⟨g, hFollowed⟩ := h.followed hViewers
  rcases hFollowed.since with ⟨-, hCarries⟩ | ⟨hDone, -, -⟩
  · obtain ⟨count, hLeft⟩ := hCarries.left
    exact h.completes_of_left hViewers hSession hEnded hLeft
  · exact ⟨w, [], s, by rwa [List.append_nil], rfl, hDone⟩

/-- A viewer that missed nothing was sent, when its forwarding is done, what was kept when it came
and all that was published from then to the end. -/
theorem Followed.outputText_heard (h : Followed g w sent d)
    (hDone : Connection.isActive w = false)
    (hNone : ∀ script count, .outputDropped script count ∉ sent) :
    (∃ rest, g.Since rest d) ∧ (∃ exit, Hub.announced g.actions = some exit) ∧
      outputText sent =
        decodeLossy (g.subscription.history.flatten ++ (Hub.published g.actions).flatten) := by
  obtain ⟨-, hDue⟩ := Connection.isActive_eq_false.mp hDone
  have hSent : g.forwarder.due = sent := by
    rw [h.told, List.isEmpty_iff.mp hDue, List.append_nil]
  rcases h.since with ⟨hActive, -⟩ | ⟨-, hOver, rest, hSince⟩
  · cases hActive.symm.trans hDone
  obtain ⟨ending, -, hEnding, -, hAll⟩ := hSince.tells
  rw [hOver] at hEnding
  obtain ⟨exit, rfl⟩ := Option.isSome_iff_exists.mp hEnding.symm
  obtain ⟨hAnnounced, hHears⟩ := hAll.resolve_left nofun
  rw [h.joined, Option.none_or] at hAnnounced
  rw [h.joined] at hHears
  have hHeard : Hub.Hears g.got ((Hub.published g.actions).map .output ++
      (some exit).toList.map .ended) := by
    rw [hAnnounced]
    exact hHears
  -- the viewer missed nothing, so it heard each piece
  have hOpen : g.beginning.forwarder.isOver = false := Forwarder.begin_isOver h.joined
  have hGot : g.got = ((Hub.published g.actions).map SessionEvent.output ++
      [SessionEvent.ended exit]).map .value := by
    refine hHeard.eq_values fun missed hMem => ?_
    obtain ⟨count, hDropped⟩ := Forwarder.dropped_of_lagged hOpen hHeard hMem
    have hAmong : .outputDropped g.beginning.forwarder.script count ∈ g.forwarder.due := hDropped
    rw [hSent] at hAmong
    exact hNone _ _ hAmong
  refine ⟨⟨rest, hSince⟩, ⟨exit, hAnnounced.symm⟩, ?_⟩
  have hAcknowledgement : outputText g.acknowledgement.toList = "" := by
    unfold Episode.acknowledgement
    split <;> rfl
  rw [← hSent, Episode.forwarder, hGot]
  exact Forwarder.outputText_of_values _ h.joined hAcknowledgement _ exit

/-- A viewer that missed nothing was sent, when its forwarding is done, all that was kept of a
session of which nothing was let go. The session has ended then. -/
theorem Followed.outputText_sent (h : Followed g w sent d) (hDone : Connection.isActive w = false)
    (hNone : ∀ script count, .outputDropped script count ∉ sent) :
    ∃ x, d.service.session? w.session = some x ∧ x.hub.ended.isSome = true ∧
      (x.hub.truncated = false → outputText sent = decodeLossy x.hub.contents) := by
  obtain ⟨⟨rest, hSince⟩, ⟨exit, hAnnounced⟩, hText⟩ := h.outputText_heard hDone hNone
  obtain ⟨limit, before, hJoined, -⟩ := hSince.joined
  obtain ⟨x, hSession, -, hHub⟩ := hSince.known
  obtain ⟨y, hKnown, hEnded⟩ := hSince.ended
  obtain rfl := Option.some.inj (hKnown.symm.trans hSession)
  rw [h.joined, Option.none_or, Hub.announced_append, hAnnounced, Option.some_or] at hEnded
  rw [h.session]
  refine ⟨y, hSession, by rw [hEnded]; rfl, fun hUncut => ?_⟩
  have hSubscription : ((Hub.new limit).run before).subscribe.1 = g.subscription :=
    congrArg Prod.fst hJoined
  have hJoinedHub : ((Hub.new limit).run before).act .subscribe = g.session.hub :=
    congrArg Prod.snd hJoined
  have hRun : y.hub = (Hub.new limit).run (before ++ .subscribe :: (g.actions ++ rest)) := by
    rw [hHub, ← hJoinedHub, Hub.run_append _ before]
    rfl
  have hOpen : ((Hub.new limit).run before).ended = none := by
    rw [← h.joined, ← hSubscription]
    rfl
  have hHistory : g.subscription.history = ((Hub.new limit).run before).history := by
    rw [← hSubscription]
    rfl
  rw [hRun] at hUncut
  rw [hText, hHistory, Hub.contents, hRun, Hub.history_since hOpen hAnnounced hUncut,
    List.flatten_append]

-- ---------------------------------------------------------------------------
-- The law
-- ---------------------------------------------------------------------------

/--
**Viewers and logs agree.** A viewer subscribes to a session before its end, in any run of a
service, with whatever output and pieces. When the session has ended the viewer can be sent the
rest. Once its forwarding is done, if it was never told that it missed anything and all output of
the session is within the limit:

* the output that it was sent reads as all output that was published, decoded at once;
* the log of the session was to be written, with this text between its header and its footer, but
  for a line break at its end;
* where logs are files of their own and nothing but the service touches them, a log that could be
  written holds that, as long as it is there and no later session of the script has written one.
-/
theorem viewers_see_what_logs_hold (hViewers : LetsViewers Allowed)
    (h : Forwarding Allowed (Scene.initial config workingDir hostname host) past w sent s) :
    (∀ x exit, s.deployment.service.session? w.session = some x → x.hub.ended = some exit →
      ∃ w' more s', Forwarding Allowed (Scene.initial config workingDir hostname host) past w'
        (sent ++ more) s' ∧ w'.session = w.session ∧ Connection.isActive w' = false) ∧
    (Connection.isActive w = false → (∀ script count, .outputDropped script count ∉ sent) →
      (outputOf w.session past).length ≤ config.replayLimit →
      outputText sent = decodeLossy (outputOf w.session past) ∧
      (∃ y exit done, .supervised y (.writeLog exit) done ∈ past ∧ y.id = w.session) ∧
      ∀ y exit done, .supervised y (.writeLog exit) done ∈ past → y.id = w.session →
        y.logText exit = Log.header y.name y.startedAt.timestamp ++
          (outputText sent ++ Log.lineBreak (outputText sent)) ++ Log.footer exit ∧
        ((Site.ofConfig config workingDir).LogsKept host.files →
          (∀ s a s', Allowed s a s' → LogsLeft s a s') → done = true →
          (∀ z exit', .supervised z (.writeLog exit') true ∈ past → z.name = y.name → z.id ≤ y.id) →
          ∀ text, (Site.ofConfig config workingDir).log? s.files y.name = some text →
            text = encodeUtf8 (Log.header y.name y.startedAt.timestamp ++
              (outputText sent ++ Log.lineBreak (outputText sent)) ++ Log.footer exit))) := by
  have hFirst := initial_sound config workingDir hostname host
  have hPast := h.chronicle hViewers
  refine ⟨fun x exit hSession hEnded => h.completes hViewers hSession hEnded, ?_⟩
  intro hDone hNone hFits
  obtain ⟨g, hFollowed⟩ := h.followed hViewers
  obtain ⟨x, hSession, hEnded, hSent⟩ := hFollowed.outputText_sent hDone hNone
  have hId : x.id = w.session := session?_id hSession
  have hKept := hPast.keepsOutput hSession
  rw [← hId] at hFits
  obtain ⟨hHistory, -, hWhole⟩ := hKept.whole hFits
  have hText : outputText sent = decodeLossy (outputOf w.session past) := by
    rw [hSent hWhole, Hub.contents, hHistory, hId]
  refine ⟨hText, ?_, fun y exit done hMem hSame => ?_⟩
  · -- the end was announced when the log was to be written
    have hAccounted := hPast.accounted hSession
    rw [← hId]
    refine hAccounted.logged ?_
    rw [hAccounted.announced hEnded]
    decide
  have hLogged : y ∈ past.filterMap Happening.logged? := List.mem_filterMap.mpr ⟨_, hMem, rfl⟩
  rw [hId, ← hSame] at hFits
  obtain ⟨hContents, hUncut⟩ := hPast.logged_output y hLogged hFits
  have hLogText : y.logText exit = Log.header y.name y.startedAt.timestamp ++
      (outputText sent ++ Log.lineBreak (outputText sent)) ++ Log.footer exit := by
    rw [y.logText_of_whole hContents hUncut exit, hText, hSame]
  refine ⟨hLogText, fun hKeptLogs hLeft hWritten hLast text hThere => ?_⟩
  subst hWritten
  have hTurn := initial_inTurn config workingDir hostname host
  obtain ⟨hSite, -, hLogs⟩ := hPast.logsFollow hFirst hKeptLogs hLeft
  have hIs : s.registry.site = Site.ofConfig config workingDir := hSite
  rw [← hIs, hLogs y.name] at hThere
  rw [← hLogText]
  exact last_log (hPast.logs_in_order hFirst hTurn) hThere hMem rfl hLast

-- ---------------------------------------------------------------------------
-- A character that is cut
-- ---------------------------------------------------------------------------

/-- Runs that go on with whatever touches no receiver and no log. -/
def GoesOn (run : List Happening → Scene → Prop) : Prop :=
  ∀ {past s a told s'}, run past s → Happens s a told s' → LogsLeft s a s' →
    (∀ i r, ¬ a.Touches i r) → run (told.toList ++ past) s'

/-- A run in which so much output was read of the first session, and no start is under way. -/
def HasRead (run : List Happening → Scene → Prop) (bytes : List UInt8) (s : Scene) : Prop :=
  (∃ past, run past s ∧ outputOf 1 past = bytes) ∧ s.calls = fun _ => none

section

variable {run : List Happening → Scene → Prop} {bytes : List UInt8}

theorem HasRead.move (h : HasRead run bytes s) (hRun : GoesOn run) {m : Move}
    (hOthers : Action.IsOthers s (.move m)) (hAway : ∀ i r, ¬ m.Touches i r)
    (hLeft : LogsLeft s (.move m) (s.withDeployment (m.perform s.deployment))) :
    HasRead run bytes (s.withDeployment (m.perform s.deployment)) := by
  obtain ⟨⟨past, hPast, hBytes⟩, hIdle⟩ := h
  exact ⟨⟨past, hRun hPast (.other (.move m) hOthers nofun) hLeft hAway, hBytes⟩, hIdle⟩

theorem HasRead.read (h : HasRead run bytes s) (hRun : GoesOn run) (stream : Stream)
    (got : Host.PipeRead) (hRead : (s.deployment.read? 1 stream).map (·.2) = some got) :
    HasRead run (bytes ++ (Happening.read 1 stream got).outputOf 1)
      (s.withDeployment ((Move.readOutput 1 stream).perform s.deployment)) := by
  obtain ⟨⟨past, hPast, rfl⟩, hIdle⟩ := h
  obtain ⟨⟨x, found⟩, hFound, rfl⟩ := Option.map_eq_some_iff.mp hRead
  have hGoesOn := hRun hPast (.read hFound) (fun hMay => absurd hMay id) fun _ _ => id
  exact ⟨⟨_, hGoesOn, rfl⟩, hIdle⟩

theorem HasRead.supervise (h : HasRead run bytes s) (hRun : GoesOn run)
    (hDir : s.hasLogDir 1 = true) (hNext : s.deployment.supervise? 1 = some d) :
    HasRead run bytes (s.withDeployment d) := by
  obtain ⟨⟨past, hPast, hBytes⟩, hIdle⟩ := h
  obtain ⟨x, act, hAct, rfl⟩ := superviseSeeing?_eq_some.mp hNext
  have hOver : ∀ i c, s.calls i = some c → c.stage.session? ≠ some 1 := by
    intro i c hCall
    rw [hIdle] at hCall
    cases hCall
  have hGoesOn := hRun hPast (.supervise hOver hAct) (logsLeft_of_hasLogDir hDir) fun _ _ => id
  exact ⟨⟨_, hGoesOn, (List.append_nil _).trans hBytes⟩, hIdle⟩

/-- The process has written something. -/
def Scene.written (s : Scene) (bytes : List UInt8) : Scene :=
  s.withDeployment ((Move.world (s.deployment.host.writePipe 1 bytes).2).perform s.deployment)

/-- What was written was read. -/
def Scene.published (s : Scene) (bytes : List UInt8) : Scene :=
  (s.written bytes).withDeployment ((Move.readOutput 1 .out).perform (s.written bytes).deployment)

theorem HasRead.published (h : HasRead run bytes s) (hRun : GoesOn run) (more : List UInt8)
    (hRead : ((s.written more).deployment.read? 1 .out).map (·.2) = some (.bytes more)) :
    HasRead run (bytes ++ more) (s.published more) := by
  have hWritten : HasRead run bytes (s.written more) := by
    refine h.move hRun trivial (fun _ _ => id) fun _ => ?_
    show s.registry.site.SameLogs s.files (s.deployment.host.writePipe 1 more).2.files
    obtain ⟨pipes, hPipe⟩ := s.deployment.host.writePipe_eq 1 more
    rw [hPipe]
    exact .refl _ _
  exact hWritten.read hRun .out (.bytes more) hRead

end

/-- A run without readers reads nothing. -/
theorem Chronicle.outputOf_unread (hNever : ∀ s id stream s',
    ¬ Allowed s (.move (.readOutput id stream)) s') (h : Chronicle Allowed s₀ past s) :
    outputOf id past = [] := by
  induction h with
  | begin => rfl
  | next _ hHappens hAllowed ih =>
    cases hHappens with
    | read => exact absurd hAllowed (hNever _ _ _ _)
    | other => exact ih
    | _ => exact (List.append_nil _).trans ih

theorem Chronicle.mono {Allowed' : Scene → Action → Scene → Prop}
    (hMore : ∀ s a s', Allowed s a s' → Allowed' s a s') (h : Chronicle Allowed s₀ past s) :
    Chronicle Allowed' s₀ past s := by
  induction h with
  | begin => exact .begin
  | next _ hHappens hAllowed ih => exact ih.next hHappens (hMore _ _ _ hAllowed)

theorem logsLeft_letsViewers : LetsViewers LogsLeft := fun _ _ _ _ => ⟨nofun, nofun⟩

/-- Half of a character was read when the viewer subscribes. -/
def halfScene : Scene := loggingScene.published [0xC3]

/-- The session that the viewer subscribes to. -/
def halfSession : Session := (halfScene.deployment.service.session? 1).getD default

/-- The viewer watches the session. -/
def halfWatch : Watch :=
  .begin halfSession.subscribe.2 halfSession.subscribe.1
    (some halfSession.subscribe.2.watchingEvent)

/-- The other half was read, and the session was stopped and has ended. -/
def wholeScene : Scene :=
  let s := (halfScene.withDeployment
    (Deployment.subscribe halfSession halfScene.deployment).2).published [0xA9]
  let s := (s.withDeployment ((Move.stop default).perform s.deployment)).supervised 1 2
  let s := s.withDeployment ((Move.readOutput 1 .out).perform s.deployment)
  (s.withDeployment ((Move.readOutput 1 .err).perform s.deployment)).supervised 1 6

/-- What a forwarding comes to in some steps with room, with what it has sent. -/
def forwardTimes : Nat → Watch × List Event × Scene → Watch × List Event × Scene
  | 0, v => v
  | count + 1, (w, sent, s) =>
    match Connection.forward? true w s.deployment with
    | some (e, w', d) => forwardTimes count (w', sent ++ e.toList, s.withDeployment d)
    | none => (w, sent, s)

theorem Forwarding.forwardTimes (count : Nat) (h : Forwarding Allowed s₀ past w sent s) :
    let (w', sent', s') := ScriptWarden.forwardTimes count (w, sent, s)
    Forwarding Allowed s₀ past w' sent' s' := by
  induction count generalizing w sent s with
  | zero => exact h
  | succ count ih =>
    unfold ScriptWarden.forwardTimes
    cases hForward : Connection.forward? true w s.deployment with
    | none => exact h
    | some next => exact ih (h.forward hForward)

theorem halfScene_read :
    HasRead (Chronicle LogsLeft (Scene.initial loggingConfig "/" "host" loggingHost)) [0xC3]
      halfScene := by
  let unread (s : Scene) (a : Action) (s' : Scene) : Prop :=
    LogsLeft s a s' ∧ ∀ id stream, a ≠ .move (.readOutput id stream)
  have hGoesOn : GoesOn (Chronicle LogsLeft (Scene.initial loggingConfig "/" "host" loggingHost)) :=
    fun hPast hHappens hLeft _ => hPast.next hHappens hLeft
  have hStarted : Reaches unread _ loggingScene :=
    loggingScene_reached (fun _ _ _ => ⟨nofun, nofun⟩) fun _ a _ hCaller =>
      ⟨logsLeft_of_caller hCaller, fun _ _ ha => by rw [ha] at hCaller; cases hCaller⟩
  obtain ⟨past, hPast⟩ := hStarted.chronicle
  have hNothing : outputOf 1 past = [] :=
    hPast.outputOf_unread fun _ id stream _ hAllowed => hAllowed.2 id stream rfl
  have hRead : HasRead (Chronicle LogsLeft _) [] loggingScene :=
    ⟨⟨past, hPast.mono fun _ _ _ hBoth => hBoth.1, hNothing⟩, rfl⟩
  exact hRead.published hGoesOn [0xC3] (by decide +kernel)

/-- The viewer was sent nothing yet when all of the session is over. -/
theorem wholeScene_read :
    HasRead (fun past => Forwarding LogsLeft
      (Scene.initial loggingConfig "/" "host" loggingHost) past halfWatch []) [0xC3, 0xA9]
      wholeScene := by
  have hGoesOn : GoesOn fun past => Forwarding LogsLeft
      (Scene.initial loggingConfig "/" "host" loggingHost) past halfWatch [] :=
    fun hRun hHappens hLeft hAway => hRun.others hHappens hLeft (hAway _ _)
  obtain ⟨⟨past, hPast, hBytes⟩, hIdle⟩ := halfScene_read
  have hSession : halfScene.deployment.service.session? 1 = some halfSession := by decide +kernel
  have hOpen : halfSession.hub.ended = none := by decide +kernel
  have hJoined : HasRead (fun past => Forwarding LogsLeft
      (Scene.initial loggingConfig "/" "host" loggingHost) past halfWatch []) [0xC3]
      (halfScene.withDeployment (Deployment.subscribe halfSession halfScene.deployment).2) :=
    ⟨⟨past, .subscribe true hPast hSession hOpen nofun, hBytes⟩, hIdle⟩
  have hWhole := hJoined.published hGoesOn [0xA9] (by decide +kernel)
  have hStopped := hWhole.move hGoesOn (m := .stop default) trivial (fun _ _ => id) nofun
  have hReaped := Scene.supervised_holds 1 2 (fun h => h.supervise hGoesOn) hStopped
    (by decide +kernel)
  have hOut := hReaped.read hGoesOn .out .ended (by decide +kernel)
  have hErr := hOut.read hGoesOn .err .ended (by decide +kernel)
  exact Scene.supervised_holds 1 6 (fun h => h.supervise hGoesOn) hErr (by decide +kernel)

/-- The viewer was sent everything. -/
def sentScene : Watch × List Event × Scene := forwardTimes 8 (halfWatch, [], wholeScene)

/-- Only the first session can have written a log there. -/
theorem sentScene_logged (h : Chronicle Allowed s₀ past sentScene.2.2) (hSound : s₀.Sound) :
    ∀ y ∈ past.filterMap Happening.logged?, y.id = 1 := by
  have hOnly : sentScene.2.2.deployment.service.sessions.map (·.id) = [1] := by decide +kernel
  intro y hMem
  obtain ⟨z, hSession, -, -⟩ := h.logged_stays hSound y hMem
  have hThere : z.id ∈ sentScene.2.2.deployment.service.sessions.map (·.id) :=
    List.mem_map_of_mem (List.mem_of_find?_eq_some hSession)
  rw [hOnly, session?_id hSession] at hThere
  exact List.mem_singleton.mp hThere

/-- A viewer that comes in the middle of a character is sent all of it, as the log has it. -/
theorem cut_character_agrees :
    ∃ past, Forwarding LogsLeft (Scene.initial loggingConfig "/" "host" loggingHost) past
        sentScene.1 sentScene.2.1 sentScene.2.2 ∧
      outputOf 1 past = [0xC3, 0xA9] ∧ outputText sentScene.2.1 = "é" ∧
      ∃ (y : Session) (exit : Exit),
        (Site.ofConfig loggingConfig "/").log? sentScene.2.2.files default =
          some (encodeUtf8 (Log.header y.name y.startedAt.timestamp ++ ("é" ++ "\n") ++
            Log.footer exit)) := by
  have hFirst := initial_sound loggingConfig "/" "host" loggingHost
  obtain ⟨⟨past, hRun, hBytes⟩, -⟩ := wholeScene_read
  have hSent : Forwarding LogsLeft (Scene.initial loggingConfig "/" "host" loggingHost) past
      sentScene.1 sentScene.2.1 sentScene.2.2 := hRun.forwardTimes 8
  have hWatched : sentScene.1.session = 1 := by decide +kernel
  have hDone : Connection.isActive sentScene.1 = false := by decide +kernel
  have hNone : ∀ script count, .outputDropped script count ∉ sentScene.2.1 := by
    have hTold : sentScene.2.1.all fun e =>
        e matches .watching .. | .output .. | .processEnded .. := by
      decide +kernel
    intro script count hMem
    cases List.all_eq_true.mp hTold _ hMem
  obtain ⟨-, hAgree⟩ := viewers_see_what_logs_hold logsLeft_letsViewers hSent
  rw [hWatched, hBytes] at hAgree
  obtain ⟨hText, -, hLogged⟩ := hAgree hDone hNone (by decide)
  have hDecoded : outputText sentScene.2.1 = "é" := hText.trans (by decide +kernel)
  -- the log is there because the session wrote it
  have hPast := hSent.chronicle logsLeft_letsViewers
  obtain ⟨hSite, -, hLogs⟩ := hPast.logsFollow hFirst loggingHost_kept fun _ _ _ h => h
  obtain ⟨text, hThere⟩ : ∃ text,
      (Site.ofConfig loggingConfig "/").log? sentScene.2.2.files default = some text :=
    Option.isSome_iff_exists.mp (by decide +kernel)
  obtain ⟨y, exit, hMem, hName⟩ : ∃ x exit, .supervised x (.writeLog exit) true ∈ past ∧
      x.name = default := by
    apply written_of_logAfter
    have hBefore : (Site.ofConfig loggingConfig "/").log? loggingHost.files default = none := by
      decide +kernel
    have hNow : sentScene.2.2.registry.site.log? sentScene.2.2.files default =
        logAfter ((Site.ofConfig loggingConfig "/").log? loggingHost.files default) default past :=
      hLogs default
    rw [show sentScene.2.2.registry.site = Site.ofConfig loggingConfig "/" from hSite, hThere,
      hBefore] at hNow
    rw [← hNow]
    exact Option.some_ne_none text
  have hIds := sentScene_logged hPast hFirst
  have hFirstId : ∀ z exit', .supervised z (.writeLog exit') true ∈ past → z.id = 1 :=
    fun z _ hWritten => hIds z (List.mem_filterMap.mpr ⟨_, hWritten, rfl⟩)
  obtain ⟨-, hHolds⟩ := hLogged y exit true hMem (hFirstId y exit hMem)
  have hIs := hHolds loggingHost_kept (fun _ _ _ h => h) rfl
    (fun z exit' hWritten _ => by rw [hFirstId z exit' hWritten, hFirstId y exit hMem]) text
    (by rw [hName]; exact hThere)
  have hBreak : Log.lineBreak "é" = "\n" := by decide +kernel
  rw [hDecoded, hBreak] at hIs
  exact ⟨past, hSent, hBytes, hDecoded, y, exit, by rw [hThere, hIs]⟩

end ScriptWarden
