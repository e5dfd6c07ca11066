import ScriptWarden.Client.Connection
import ScriptWarden.Proofs.Runs.Outputs
import ScriptWarden.Proofs.Sessions.Forwarding

/-!
# A viewer among others

A viewer's connection in a service where anything else goes on. Its handler takes one request after
the other, each in several steps: a start runs through its stages, takes hold of the session,
subscribes to it, queues the announcement and begins the forwarding. Each forwarder takes steps of
its own. Between any two of these steps others may act: other starts, other viewers, the
supervisors, readers and writers of pipes, and the host.

A forwarding that is replaced or given up is stopped, but not at once: a forwarder that is at work
goes on for a while, and only then is gone.

* `Errand` — what the handler is at.
* `Act` and `Step` — who acts, and what there is afterwards.
* `Reaches` — what runs lead to; acts may be limited by a condition.

## Results

* `Step.reaches` — what a viewer does is a run of the service.
* `Coherent` — sessions, scripts and events fit together at a connection, along every run.
-/

namespace ScriptWarden

-- ---------------------------------------------------------------------------
-- Watches
-- ---------------------------------------------------------------------------

/-- The event that tells that a session has been started. -/
def Session.startedEvent (s : Session) : Event :=
  .started s.name.text s.pid s.startedAt.timestamp

/-- The event that tells that a session is watched. -/
def Session.watchingEvent (s : Session) : Event :=
  .watching s.name.text s.pid s.startedAt.timestamp

/-- The beginning of a forwarding. -/
def Watch.begin (session : Session) (s : Subscription) (acknowledgement : Option Event) :
    Watch where
  name := session.name
  session := session.id
  receiver := s.receiver
  forwarder := Forwarder.begin session.name.text s acknowledgement

/-- Whether a forwarding tells of its own script. -/
def Watch.IsLabelled (w : Watch) : Prop :=
  w.forwarder.script = w.name.text ∧ w.forwarder.Labelled

theorem Watch.begin_labelled (session : Session) (s : Subscription) {acknowledgement : Option Event}
    (h : ∀ e ∈ acknowledgement, e.script? = some session.name.text) :
    (Watch.begin session s acknowledgement).IsLabelled := Forwarder.begin_labelled _ s h

/-- A forwarding that begins goes on: it has the end to tell, or is to wait for it. -/
theorem Watch.begin_isActive (session : Session) (s : Subscription)
    (acknowledgement : Option Event) :
    Connection.isActive (Watch.begin session s acknowledgement) = true := by
  obtain ⟨f, replay, -, -, -, -, hTells, -⟩ :=
    Forwarder.begin_tells session.name.text s acknowledgement
  obtain ⟨pieces, hDue, -⟩ := hTells.due
  have hOver := hTells.isOver
  rw [Connection.isActive, Watch.begin]
  cases hEnded : s.ended with
  | none => simp [hOver, hEnded]
  | some exit => simp [hDue, hEnded]

namespace Connection

@[simp] theorem send_watches (c : Connection) (e : Event) : (c.send e).watches = c.watches := rfl

@[simp] theorem send_outbound (c : Connection) (e : Event) :
    (c.send e).outbound = c.outbound ++ [e] := rfl

/-- Whether there is room for an event. -/
def hasRoom (c : Connection) : Bool := c.outbound.length < outboundCapacity

/-- The forwardings that go on of a script. -/
def replaced (c : Connection) (n : ScriptName) : List Watch :=
  (c.watches.filter isActive).filter (·.name == n)

/-- The connection with a forwarding in place of others of the same script. -/
def replacing (c : Connection) (w : Watch) : Connection :=
  { c with watches := w :: (c.watches.filter isActive).filter (·.name != w.name) }

variable {room : Bool} {w w' : Watch} {d d' : Deployment} {e : Option Event}

/-- A forwarding goes on until nothing is left to be queued after the end. -/
theorem isActive_eq_false : isActive w = false ↔
    w.forwarder.isOver = true ∧ w.forwarder.due.isEmpty = true := by
  simp [isActive]

/-- A forwarding that goes on takes a step when there is room, unless there is nothing yet. -/
theorem eq_empty_of_forward? (hActive : isActive w = true) (h : forward? true w d = none) :
    w.forwarder.isOver = false ∧ (d.receive w.session w.receiver).1 = .empty := by
  rw [forward?] at h
  split at h
  · cases h
  · next hDue =>
    have hOpen : w.forwarder.isOver = false := by simpa [isActive, hDue] using hActive
    rw [if_neg (by simp [hOpen])] at h
    refine ⟨hOpen, ?_⟩
    generalize d.receive w.session w.receiver = got at h ⊢
    obtain ⟨got, d₁⟩ := got
    cases got with
    | empty => rfl
    | _ => cases h

/-- A forwarding takes a step by queueing an event that is due, or else by taking what comes from
the session. It unsubscribes when nothing is left to be queued after the end. -/
theorem forward?_cases (h : forward? room w d = some (e, w', d')) :
    (∃ first due, w.forwarder.due = first :: due ∧ room = true ∧ e = some first ∧
        w' = { w with forwarder := { w.forwarder with due } } ∧
        d' = if due.isEmpty && w.forwarder.isOver then d.unsubscribe w.session w.receiver else d) ∨
      (w.forwarder.due = [] ∧ w.forwarder.isOver = false ∧ e = none ∧
        (d.receive w.session w.receiver).1 ≠ .empty ∧
        w' = { w with forwarder := w.forwarder.take (d.receive w.session w.receiver).1 } ∧
        d' = if w'.forwarder.isOver && w'.forwarder.due.isEmpty then
            (d.receive w.session w.receiver).2.unsubscribe w.session w.receiver
          else (d.receive w.session w.receiver).2) := by
  rw [forward?] at h
  split at h
  · next first due hDue =>
    cases room with
    | false => cases h
    | true =>
      cases h
      exact Or.inl ⟨first, due, hDue, rfl, rfl, rfl, rfl⟩
  · next hDue =>
    split at h
    · cases h
    next hOver =>
    generalize hGot : d.receive w.session w.receiver = got at h ⊢
    obtain ⟨got, d₁⟩ := got
    refine Or.inr ⟨hDue, by simpa using hOver, ?_⟩
    cases got with
    | empty => cases h
    | _ =>
      cases h
      exact ⟨rfl, by simp, rfl, rfl⟩

/-- A forwarding touches no receiver but its own. -/
theorem forward?_develops (h : forward? room w d = some (e, w', d')) :
    Develops (fun i j => i = w.session ∧ j = w.receiver) d d' := by
  rcases forward?_cases h with ⟨_, _, _, _, _, _, rfl⟩ | ⟨_, _, _, _, _, rfl⟩
  · split
    · exact (unsubscribe_turns d _ _).develops
    · exact .refl d
  · have hReceive := (receive_turns d w.session w.receiver).develops
    split
    · exact hReceive.trans (unsubscribe_turns _ _ _).develops
    · exact hReceive

/-- A forwarding stays that of its session. -/
theorem forward?_same (h : forward? room w d = some (e, w', d')) :
    w'.name = w.name ∧ w'.session = w.session ∧ w'.receiver = w.receiver := by
  rcases forward?_cases h with ⟨_, _, _, _, _, rfl, _⟩ | ⟨_, _, _, _, rfl, _⟩ <;>
    exact ⟨rfl, rfl, rfl⟩

theorem forward?_labelled (h : forward? room w d = some (e, w', d')) (hLabelled : w.IsLabelled) :
    w'.IsLabelled ∧ ∀ first ∈ e, first.script? = some w.name.text := by
  obtain ⟨hScript, hEvents⟩ := hLabelled
  rcases forward?_cases h with ⟨first, due, hDue, _, rfl, rfl, _⟩ | ⟨_, hOpen, rfl, _, rfl, _⟩
  · refine ⟨⟨hScript, fun x hMem => hEvents x ?_⟩, fun x hMem => ?_⟩
    · rw [hDue]
      exact List.mem_cons_of_mem first hMem
    · obtain rfl : first = x := Option.some.inj hMem
      rw [← hScript]
      exact hEvents first (by rw [hDue]; exact List.mem_cons_self)
  · obtain ⟨hSame, hLater⟩ := Forwarder.take_labelled hEvents hOpen _
    exact ⟨⟨hSame.trans hScript, hLater⟩, by simp⟩

/-- Only a forwarding that goes on takes a step. -/
theorem isActive_of_forward? (h : forward? room w d = some (e, w', d')) : isActive w = true := by
  rcases forward?_cases h with ⟨first, due, hDue, _⟩ | ⟨_, hOpen, _⟩
  · simp [isActive, hDue]
  · simp [isActive, hOpen]

end Connection

-- ---------------------------------------------------------------------------
-- Acts
-- ---------------------------------------------------------------------------

/-- What the handler of a connection is at. -/
inductive Errand where
  | idle
  /-- An event is to be queued. -/
  | answering (e : Event)
  /-- A start of a script is under way. -/
  | starting (call : Nat) (n : ScriptName)
  /-- It has hold of a session of a script, from a start or from a watch. -/
  | holding (n : ScriptName) (session : Nat) (asked : Bool)
  /-- It has subscribed to a session that it started, which is to be announced. -/
  | announcing (session : Session) (s : Subscription)
  /-- A forwarding is to begin. -/
  | attaching (w : Watch)

/-- The forwarding that is to begin. -/
@[simp] def Errand.watch? : Errand → Option Watch
  | .attaching w => some w
  | .idle | .answering _ | .starting _ _ | .holding _ _ _ | .announcing _ _ => none

/-- Whether the handler is at a session of a script that is not forwarded yet. -/
def Errand.Concerns (n : ScriptName) : Errand → Prop
  | .starting _ m | .holding m _ _ => m = n
  | .announcing session _ => session.name = n
  | .idle | .answering _ | .attaching _ => False

/-- A connection of a viewer to a service. -/
structure Viewing where
  scene : Scene
  connection : Connection := {}
  errand : Errand := .idle
  /-- The forwardings that have been stopped and are not gone. -/
  leaving : List Watch := []
  /-- The events that the viewer has taken. -/
  taken : List Event := []
  /-- The sessions that its starts came to, kept in mind for statements only. -/
  own : List (ScriptName × Nat) := []

/-- What is done at a connection, and besides. -/
inductive Act where
  | others (a : Action)
  | start (n : ScriptName)
  | watch (n : ScriptName)
  | unwatch (n : ScriptName)
  | close
  /-- Any other request, with the event that answers it. -/
  | ask (e : Event)
  /-- The handler goes on. -/
  | goOn
  | forward (w : Watch)
  /-- A forwarding that has been stopped goes on nevertheless. -/
  | linger (w : Watch)
  | vanish (w : Watch)
  /-- The viewer takes an event. -/
  | take

/-- The receivers that an act touches. -/
def Act.Touches : Act → Nat → Nat → Prop
  | .others a => a.Touches
  | .forward w | .linger w | .vanish w => fun id r => id = w.session ∧ r = w.receiver
  | _ => untouched

namespace Viewing

/-- A viewer that has just connected. -/
def opened (s : Scene) : Viewing := { scene := s }

/-- The deployment that a viewer is connected to. -/
def deployment (v : Viewing) : Deployment := v.scene.deployment

/-- The viewing in another deployment. -/
def withDeployment (v : Viewing) (d : Deployment) : Viewing :=
  { v with scene := v.scene.withDeployment d }

@[simp] theorem withDeployment_deployment (v : Viewing) (d : Deployment) :
    (v.withDeployment d).deployment = d := rfl

@[simp] theorem withDeployment_connection (v : Viewing) (d : Deployment) :
    (v.withDeployment d).connection = v.connection := rfl

@[simp] theorem withDeployment_errand (v : Viewing) (d : Deployment) :
    (v.withDeployment d).errand = v.errand := rfl

@[simp] theorem withDeployment_leaving (v : Viewing) (d : Deployment) :
    (v.withDeployment d).leaving = v.leaving := rfl

/-- The forwardings of a viewer, with the one that is to begin. -/
def forwardings (v : Viewing) : List Watch := v.errand.watch?.toList ++ v.connection.watches

/-- Whether a receiver is the viewer's own. -/
def Holds (v : Viewing) (id r : Nat) : Prop :=
  (∃ w ∈ v.forwardings ++ v.leaving, w.session = id ∧ w.receiver = r) ∨
    ∃ session s, v.errand = .announcing session s ∧ session.id = id ∧ s.receiver = r

/-- Whether an action is the viewer's to take: the end of its start, or a use of its receivers. -/
def IsOwn (v : Viewing) (a : Action) : Prop :=
  (∃ i n, v.errand = .starting i n ∧ (a = .handOver i ∨ a = .vacate i)) ∨
    ∃ id r, a.Touches id r ∧ v.Holds id r

/-- One step. -/
inductive Step (v : Viewing) : Act → Viewing → Prop
  | others {a : Action} {s : Scene} :
      ScriptWarden.Step v.scene a s → ¬ v.IsOwn a → Step v (.others a) { v with scene := s }
  | start {i : Nat} {n : ScriptName} {d : Deployment} :
      v.errand = .idle → v.scene.calls i = none →
      Deployment.reserve n v.deployment = (.ok (), d) →
      Step v (.start n) { v with
        scene := (v.scene.withDeployment d).withCall i (some ⟨n, .reserved⟩)
        errand := .starting i n }
  | startRefused {n : ScriptName} {f : Fault} {d : Deployment} :
      v.errand = .idle → Deployment.reserve n v.deployment = (.error f, d) →
      Step v (.start n) { v.withDeployment d with errand := .answering (.ofFault f) }
  | startFailed {i : Nat} {n : ScriptName} {f : Fault} :
      v.errand = .starting i n → v.scene.calls i = some ⟨n, .failed f⟩ →
      Step v .goOn { v with
        scene := (v.scene.withDeployment (v.deployment.vacate n)).withCall i none
        errand := .answering (.ofFault f) }
  | started {i id : Nat} {n : ScriptName} :
      v.errand = .starting i n → v.scene.calls i = some ⟨n, .published id⟩ →
      Step v .goOn { v with
        scene := v.scene.withCall i none
        errand := .holding n id false
        own := v.own ++ [(n, id)] }
  | watch {n : ScriptName} {session : Session} :
      v.errand = .idle → v.deployment.service.get n = .ok session →
      Step v (.watch n) { v with errand := .holding n session.id true }
  | watchRefused {n : ScriptName} {f : Fault} :
      v.errand = .idle → v.deployment.service.get n = .error f →
      Step v (.watch n) { v with errand := .answering (.ofFault f) }
  | subscribeStarted {n : ScriptName} {id : Nat} {session : Session} :
      v.errand = .holding n id false → v.deployment.service.session? id = some session →
      Step v .goOn { v.withDeployment (Deployment.subscribe session v.deployment).2 with
        errand := .announcing session.subscribe.2 session.subscribe.1 }
  | subscribeWatched {n : ScriptName} {id : Nat} {session : Session} :
      v.errand = .holding n id true → v.deployment.service.session? id = some session →
      Step v .goOn { v.withDeployment (Deployment.subscribe session v.deployment).2 with
        errand := .attaching
          (Watch.begin session.subscribe.2 session.subscribe.1 (some session.watchingEvent)) }
  | announce {session : Session} {s : Subscription} :
      v.errand = .announcing session s → v.connection.hasRoom = true →
      Step v .goOn { v with
        connection := v.connection.send session.startedEvent
        errand := .attaching (Watch.begin session s none) }
  | attach {w : Watch} :
      v.errand = .attaching w →
      Step v .goOn { v with
        connection := v.connection.replacing w
        leaving := v.leaving ++ v.connection.replaced w.name
        errand := .idle }
  | unwatch {n : ScriptName} :
      v.errand = .idle →
      Step v (.unwatch n) { v with
        connection.watches := v.connection.watches.filter (·.name != n)
        leaving := v.leaving ++ v.connection.watches.filter (·.name == n) }
  | close :
      v.errand = .idle →
      Step v .close { v with
        connection.watches := []
        leaving := v.leaving ++ v.connection.watches }
  | ask {e : Event} :
      v.errand = .idle → e.script? = none → Step v (.ask e) { v with errand := .answering e }
  | answer {e : Event} :
      v.errand = .answering e → v.connection.hasRoom = true →
      Step v .goOn { v with connection := v.connection.send e, errand := .idle }
  | forward {before after : List Watch} {w w' : Watch} {e : Option Event} {d : Deployment} :
      v.connection.watches = before ++ w :: after →
      Connection.forward? v.connection.hasRoom w v.deployment = some (e, w', d) →
      Step v (.forward w) { v.withDeployment d with
        connection.outbound := v.connection.outbound ++ e.toList
        connection.watches := before ++ w' :: after }
  | linger {before after : List Watch} {w w' : Watch} {e : Option Event} {d : Deployment} :
      v.leaving = before ++ w :: after →
      Connection.forward? v.connection.hasRoom w v.deployment = some (e, w', d) →
      Step v (.linger w) { v.withDeployment d with
        connection.outbound := v.connection.outbound ++ e.toList
        leaving := before ++ w' :: after }
  | vanish {before after : List Watch} {w : Watch} :
      v.leaving = before ++ w :: after →
      Step v (.vanish w) { v.withDeployment (v.deployment.unsubscribe w.session w.receiver) with
        leaving := before ++ after }
  | take {e : Event} {rest : List Event} :
      v.connection.outbound = e :: rest →
      Step v .take { v with connection.outbound := rest, taken := v.taken ++ [e] }

/-- What runs lead to when every act is one that the condition allows. -/
inductive Reaches (Allowed : Viewing → Act → Prop) (v₀ : Viewing) : Viewing → Prop
  | refl : Reaches Allowed v₀ v₀
  | step {v v' : Viewing} {a : Act} :
      Reaches Allowed v₀ v → Step v a v' → Allowed v a → Reaches Allowed v₀ v'

variable {v v' : Viewing} {a : Act}

/-- A run goes on. -/
theorem Reaches.trans {Allowed : Viewing → Act → Prop} {v'' : Viewing}
    (hFirst : Reaches Allowed v v') (hRest : Reaches Allowed v' v'') : Reaches Allowed v v'' := by
  induction hRest with
  | refl => exact hFirst
  | step _ hStep hAllowed ih => exact ih.step hStep hAllowed

-- ---------------------------------------------------------------------------
-- The service under a viewer
-- ---------------------------------------------------------------------------

/-- What a forwarding does is a run. -/
theorem forward?_reaches {s : Scene} {room : Bool} {w w' : Watch} {d : Deployment}
    {e : Option Event} (h : Connection.forward? room w s.deployment = some (e, w', d)) :
    ScriptWarden.Reaches AnyStep s (s.withDeployment d) := by
  rcases Connection.forward?_cases h with ⟨_, _, _, _, _, _, rfl⟩ | ⟨_, _, _, _, _, rfl⟩
  · split
    · exact .next .refl (.move (.unsubscribe w.session w.receiver))
    · exact .refl
  · have hReceive := ScriptWarden.Reaches.refl.next (.move (s := s) (.receive w.session w.receiver))
    split
    · exact hReceive.next (.move (.unsubscribe w.session w.receiver))
    · exact hReceive

theorem subscribe_reaches {s : Scene} {id : Nat} {session : Session}
    (h : s.deployment.service.session? id = some session) :
    ScriptWarden.Reaches AnyStep s
      (s.withDeployment (Deployment.subscribe session s.deployment).2) := by
  have hMove : (Move.watchSession id).perform s.deployment =
      (Deployment.subscribe session s.deployment).2 := by
    rw [Move.perform, h]
    rfl
  exact hMove ▸ .next .refl (.move (.watchSession id))

/-- What a viewer does is a run of the service. -/
theorem Step.reaches (hStep : Step v a v') : ScriptWarden.Reaches AnyStep v.scene v'.scene := by
  cases hStep with
  | others hOther _ => exact .next .refl hOther
  | start _ hFree hReserve => exact .next .refl (.reserve hFree hReserve)
  | startRefused _ hReserve =>
    rw [reserve_error hReserve]
    exact .refl
  | startFailed _ hCall => exact .next .refl (.vacate hCall)
  | started _ hCall => exact .next .refl (.handOver hCall)
  | subscribeStarted _ hSession => exact subscribe_reaches hSession
  | subscribeWatched _ hSession => exact subscribe_reaches hSession
  | forward _ hForward => exact forward?_reaches hForward
  | linger _ hForward => exact forward?_reaches hForward
  | @vanish before after w _ => exact .next .refl (.move (.unsubscribe w.session w.receiver))
  | _ => exact .refl

/-- What a step does to the sessions. -/
theorem Step.develops (hSound : v.scene.Sound) (hStep : Step v a v') :
    Develops a.Touches v.deployment v'.deployment := by
  cases hStep with
  | others hOther _ => exact step_develops hSound hOther
  | start _ _ hReserve =>
    obtain ⟨slots, -, rfl⟩ := reserve_ok hReserve
    exact .of_sessions rfl
  | startRefused _ hReserve =>
    rw [reserve_error hReserve]
    exact .refl _
  | startFailed => exact .of_sessions rfl
  | subscribeStarted _ hSession => exact (subscribe_turns (session?_self hSession)).develops
  | subscribeWatched _ hSession => exact (subscribe_turns (session?_self hSession)).develops
  | forward _ hForward => exact Connection.forward?_develops hForward
  | linger _ hForward => exact Connection.forward?_develops hForward
  | vanish => exact (unsubscribe_turns _ _ _).develops
  | _ => exact .refl _

-- ---------------------------------------------------------------------------
-- What is at a connection
-- ---------------------------------------------------------------------------

/-- Whether a session is known as one of a script. -/
def Knows (v : Viewing) (id : Nat) (n : ScriptName) : Prop :=
  ∃ s, v.deployment.service.session? id = some s ∧ s.name = n

theorem Knows.develops {touched : Nat → Nat → Prop} {id : Nat} {n : ScriptName} (h : v.Knows id n)
    (hDevelops : Develops touched v.deployment v'.deployment) : v'.Knows id n := by
  obtain ⟨s, hSession, hName⟩ := h
  obtain ⟨t, hLater, hOn⟩ := hDevelops.session? hSession
  have hSame : t.name = s.name := congrArg Origin.name hOn.origin
  exact ⟨t, hLater, hSame.trans hName⟩

/-- A session is one of one script. -/
theorem Knows.unique {id : Nat} {n m : ScriptName} (h : v.Knows id n) (h' : v.Knows id m) :
    n = m := by
  obtain ⟨s, hSession, rfl⟩ := h
  obtain ⟨t, hSession', rfl⟩ := h'
  rw [Option.some.inj (hSession.symm.trans hSession')]

/-- The session of a life is known. -/
theorem knows_of_life (hSound : v.scene.Sound) {l : Life}
    (hLife : l ∈ v.deployment.lives) : v.Knows l.id l.name := by
  obtain ⟨x, hMem, rfl⟩ := List.mem_map.mp hLife
  obtain ⟨s, hSession⟩ : ∃ s, v.deployment.service.session? x.id = some s :=
    Option.isSome_iff_exists.mp (List.find?_isSome.mpr ⟨x, hMem, by simp⟩)
  have hSame : s.life = x.life :=
    life_eq_of_id_eq hSound.ownIds (life_mem hSession) hLife (session?_id hSession)
  exact ⟨s, hSession, congrArg Life.name hSame⟩

/-- A session that is got by the name of a script is one of that script. -/
theorem knows_of_get (hSound : v.scene.Sound) {n : ScriptName} {session : Session}
    (h : v.deployment.service.get n = .ok session) : v.Knows session.id n := by
  rw [Service.get] at h
  split at h
  · next found hLive =>
    cases h
    obtain ⟨id, hSlot, hSession⟩ := Option.bind_eq_some_iff.mp hLive
    have hHeld : v.scene.slot? n = some (.live id) := by
      rw [Slots.live?] at hSlot
      split at hSlot
      · next hAt => exact hAt.trans (by rw [Option.some.inj hSlot])
      · cases hSlot
    obtain ⟨l, hMem, rfl, rfl, -⟩ := hSound.liveKnown hHeld
    have hId : session.id = l.id := session?_id hSession
    exact hId ▸ knows_of_life hSound hMem
  · cases h

/-- Sessions, scripts and events fit together at a connection. -/
structure Coherent (v : Viewing) : Prop where
  watched : ∀ w ∈ v.forwardings ++ v.leaving, v.Knows w.session w.name ∧ w.IsLabelled
  held : ∀ {n : ScriptName} {id : Nat} {asked : Bool}, v.errand = .holding n id asked →
    v.Knows id n
  joined : ∀ {session : Session} {s : Subscription}, v.errand = .announcing session s →
    v.Knows session.id session.name
  beginning : ∀ {w : Watch}, v.errand = .attaching w → Connection.isActive w = true
  answered : ∀ {e : Event}, v.errand = .answering e → e.script? = none

theorem opened_coherent (s : Scene) : (opened s).Coherent where
  watched := by simp [opened, forwardings, Errand.watch?]
  held := by simp [opened]
  joined := by simp [opened]
  beginning := by simp [opened]
  answered := by simp [opened]

namespace Coherent

variable {touched : Nat → Nat → Prop}

/-- What goes on is known as before, and what is new has to be known. -/
theorem next (h : v.Coherent) (hDevelops : Develops touched v.deployment v'.deployment)
    (hWatched : ∀ w ∈ v'.forwardings ++ v'.leaving, w ∈ v.forwardings ++ v.leaving ∨
      v.Knows w.session w.name ∧ w.IsLabelled)
    (hHeld : ∀ {n id asked}, v'.errand = .holding n id asked → v.Knows id n)
    (hJoined : ∀ {session s}, v'.errand = .announcing session s →
      v.Knows session.id session.name)
    (hBeginning : ∀ {w}, v'.errand = .attaching w → Connection.isActive w = true)
    (hAnswered : ∀ {e}, v'.errand = .answering e → e.script? = none) : v'.Coherent where
  watched w hMem := by
    have hBefore : v.Knows w.session w.name ∧ w.IsLabelled := by
      rcases hWatched w hMem with hOld | hNew
      · exact h.watched w hOld
      · exact hNew
    exact ⟨hBefore.1.develops hDevelops, hBefore.2⟩
  held hErrand := (hHeld hErrand).develops hDevelops
  joined hErrand := (hJoined hErrand).develops hDevelops
  beginning := hBeginning
  answered := hAnswered

/-- While the handler stays at what it is at. -/
theorem sameErrand (h : v.Coherent) (hDevelops : Develops touched v.deployment v'.deployment)
    (hErrand : v'.errand = v.errand)
    (hWatched : ∀ w ∈ v'.forwardings ++ v'.leaving, w ∈ v.forwardings ++ v.leaving ∨
      v.Knows w.session w.name ∧ w.IsLabelled) : v'.Coherent :=
  h.next hDevelops hWatched (fun hAt => h.held (hErrand ▸ hAt))
    (fun hAt => h.joined (hErrand ▸ hAt)) (fun hAt => h.beginning (hErrand ▸ hAt))
    (fun hAt => h.answered (hErrand ▸ hAt))

/-- While the handler neither begins a forwarding nor is about to. -/
theorem sameWatches (h : v.Coherent) (hDevelops : Develops touched v.deployment v'.deployment)
    (hWatches : v'.connection.watches = v.connection.watches) (hLeaving : v'.leaving = v.leaving)
    {x : Errand} (hAt : v.errand = x) (hWatch : x.watch? = none) (hWatch' : v'.errand.watch? = none)
    (hHeld : ∀ {n id asked}, v'.errand = .holding n id asked → v.Knows id n)
    (hJoined : ∀ {session s}, v'.errand = .announcing session s →
      v.Knows session.id session.name)
    (hAnswered : ∀ {e}, v'.errand = .answering e → e.script? = none) : v'.Coherent := by
  refine h.next hDevelops (fun w hMem => Or.inl ?_) hHeld hJoined (fun hNow => ?_) hAnswered
  · rw [forwardings, hWatches, hLeaving, hWatch'] at hMem
    rwa [forwardings, hAt, hWatch]
  · rw [hNow] at hWatch'
    cases hWatch'

/-- A forwarding that took a step is known as before. -/
theorem forwarded (h : v.Coherent) {w w' : Watch} {room : Bool} {e : Option Event}
    {d : Deployment} (hMem : w ∈ v.forwardings ++ v.leaving)
    (hForward : Connection.forward? room w v.deployment = some (e, w', d)) :
    v.Knows w'.session w'.name ∧ w'.IsLabelled := by
  obtain ⟨hKnows, hLabelled⟩ := h.watched w hMem
  obtain ⟨hName, hSession, -⟩ := Connection.forward?_same hForward
  exact ⟨hName ▸ hSession ▸ hKnows, (Connection.forward?_labelled hForward hLabelled).1⟩

end Coherent

theorem step_coherent (hSound : v.scene.Sound) (h : v.Coherent) (hStep : Step v a v') :
    v'.Coherent := by
  have hDevelops := hStep.develops hSound
  cases hStep with
  | others => exact h.sameErrand hDevelops rfl fun w hMem => Or.inl hMem
  | start hIdle => exact h.sameWatches hDevelops rfl rfl hIdle rfl rfl nofun nofun nofun
  | startRefused hIdle =>
    refine h.sameWatches hDevelops rfl rfl hIdle rfl rfl nofun nofun ?_
    rintro _ ⟨⟩
    exact Event.script?_ofFault _
  | startFailed hAt =>
    refine h.sameWatches hDevelops rfl rfl hAt rfl rfl nofun nofun ?_
    rintro _ ⟨⟩
    exact Event.script?_ofFault _
  | started hAt hCall =>
    refine h.sameWatches hDevelops rfl rfl hAt rfl rfl ?_ nofun nofun
    rintro _ _ _ ⟨⟩
    exact knows_of_life hSound (hSound.callWatched hCall rfl)
  | watch hIdle hGet =>
    refine h.sameWatches hDevelops rfl rfl hIdle rfl rfl ?_ nofun nofun
    rintro _ _ _ ⟨⟩
    exact knows_of_get hSound hGet
  | watchRefused hIdle =>
    refine h.sameWatches hDevelops rfl rfl hIdle rfl rfl nofun nofun ?_
    rintro _ ⟨⟩
    exact Event.script?_ofFault _
  | @subscribeStarted n id session hAt hSession =>
    refine h.sameWatches hDevelops rfl rfl hAt rfl rfl nofun ?_ nofun
    rintro _ _ ⟨⟩
    exact ⟨session, session?_self hSession, rfl⟩
  | @subscribeWatched n id session hAt hSession =>
    refine h.next hDevelops (fun w hMem => ?_) nofun nofun ?_ nofun
    · rcases List.mem_cons.mp hMem with rfl | hOld
      · exact Or.inr ⟨⟨session, session?_self hSession, rfl⟩,
          Watch.begin_labelled _ _ (by rintro e ⟨⟩; rfl)⟩
      · exact Or.inl (by simpa [forwardings, hAt] using hOld)
    · rintro _ ⟨⟩
      exact Watch.begin_isActive _ _ _
  | @announce session s hAt =>
    refine h.next hDevelops (fun w hMem => ?_) nofun nofun ?_ nofun
    · rcases List.mem_cons.mp hMem with rfl | hOld
      · exact Or.inr ⟨h.joined hAt, Watch.begin_labelled _ _ (by simp)⟩
      · exact Or.inl (by simpa [forwardings, hAt] using hOld)
    · rintro _ ⟨⟩
      exact Watch.begin_isActive _ _ _
  | @attach w hAt =>
    refine h.next hDevelops (fun x hMem => Or.inl ?_) nofun nofun nofun nofun
    simp only [forwardings, Errand.watch?, hAt, Connection.replacing, Connection.replaced,
      Option.toList_none, Option.toList_some, List.filter_filter, List.nil_append, List.cons_append,
      List.mem_cons, List.mem_append, List.mem_filter, Bool.and_eq_true, beq_iff_eq] at hMem ⊢
    tauto
  | unwatch hIdle =>
    refine h.sameErrand hDevelops rfl fun x hMem => Or.inl ?_
    simp only [forwardings, hIdle, Errand.watch?, Option.toList_none, List.nil_append,
      List.mem_append, List.mem_filter] at hMem ⊢
    tauto
  | close hIdle =>
    refine h.sameErrand hDevelops rfl fun x hMem => Or.inl ?_
    simp only [forwardings, hIdle, Errand.watch?, Option.toList_none, List.nil_append,
      List.append_nil, List.mem_append] at hMem ⊢
    tauto
  | ask hIdle hScript =>
    refine h.sameWatches hDevelops rfl rfl hIdle rfl rfl nofun nofun ?_
    rintro _ ⟨⟩
    exact hScript
  | answer hAt => exact h.sameWatches hDevelops rfl rfl hAt rfl rfl nofun nofun nofun
  | @forward before after w w' e d hParts hForward =>
    have hNew := h.forwarded (by simp [forwardings, hParts]) hForward
    refine h.sameErrand hDevelops rfl fun x hMem => ?_
    simp only [forwardings, hParts, withDeployment, List.append_assoc, List.cons_append,
      List.mem_append, List.mem_cons] at hMem ⊢
    rcases hMem with hAt | hBefore | rfl | hAfter | hLeft <;> tauto
  | @linger before after w w' e d hParts hForward =>
    have hNew := h.forwarded (by simp [hParts]) hForward
    refine h.sameErrand hDevelops rfl fun x hMem => ?_
    simp only [forwardings, hParts, withDeployment, List.append_assoc, List.mem_append,
      List.mem_cons] at hMem ⊢
    rcases hMem with hAt | hOld | hBefore | rfl | hAfter <;> tauto
  | vanish hParts =>
    refine h.sameErrand hDevelops rfl fun x hMem => Or.inl ?_
    simp only [forwardings, hParts, withDeployment, List.append_assoc, List.mem_append,
      List.mem_cons] at hMem ⊢
    tauto
  | take => exact h.sameErrand hDevelops rfl fun w hMem => Or.inl hMem

end Viewing

end ScriptWarden
