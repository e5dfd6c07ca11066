import ScriptWarden.Proofs.Runs.Viewing

/-!
# Requests that nothing comes between

A viewer's request is handled in several steps, and others may act between them. When nothing does,
the steps lead to what the connection makes of the request.

The same goes for what the service does by itself, a supervisor's steps for one. Runs can be spelled
out in this way: `Rests` says that one has come to where the handler rests and no start is under
way.

## Results

* `Viewing.handle_isRun` — a request that is handled without anything in between is a run.
-/

namespace ScriptWarden

/-- Whether an act is a request that the handler takes up. -/
def Act.isRequest : Act → Bool
  | .start _ | .watch _ | .unwatch _ | .close | .ask _ => true
  | .others _ | .goOn | .forward _ | .linger _ | .vanish _ | .take => false

namespace Viewing

variable {Allowed : Viewing → Act → Prop} {v v' : Viewing} {d : Deployment} {n : ScriptName}
  {i : Nat}

-- ---------------------------------------------------------------------------
-- Parts of requests
-- ---------------------------------------------------------------------------

/-- What touches no receiver and ends no start may be done by others. -/
theorem not_isOwn {a : Action} (hTouches : a.Touches = untouched)
    (hEnd : ∀ i, a ≠ .handOver i ∧ a ≠ .vacate i) : ¬ v.IsOwn a := by
  rintro (⟨i, n, -, hSame | hSame⟩ | ⟨id, r, hTouched, -⟩)
  · exact (hEnd i).1 hSame
  · exact (hEnd i).2 hSame
  · rw [hTouches] at hTouched
    exact hTouched

/-- The viewing after an event was queued by the handler. -/
def answered (v : Viewing) (e : Event) (d : Deployment) : Viewing :=
  { v.withDeployment d with connection := v.connection.send e, errand := .idle }

/-- The viewing after a forwarding was begun by the handler. -/
def attached (v : Viewing) (w : Watch) (d : Deployment) : Viewing :=
  { v.withDeployment d with
    connection := v.connection.replacing w
    leaving := v.leaving ++ v.connection.replaced w.name
    errand := .idle }

/-- The viewing after a session was started for the viewer and nothing was told of it yet. -/
def startedAt (v : Viewing) (session : Session) : Viewing :=
  { v with connection := v.connection.send session.startedEvent
           own := v.own ++ [(session.name, session.id)] }

section

variable (hRest : ∀ v a, a.isRequest = false → Allowed v a)

include hRest

/-- The forwardings that were stopped are gone at once if nothing comes between. -/
theorem vanish_isRun {before gone : List Watch} (hLeaving : v.leaving = before ++ gone) :
    Reaches Allowed v { v.withDeployment
      (gone.foldl (fun d w => d.unsubscribe w.session w.receiver) v.deployment) with
      leaving := before } := by
  induction gone generalizing v with
  | nil =>
    rw [List.append_nil] at hLeaving
    obtain rfl := hLeaving
    exact .refl
  | cons w rest ih =>
    have hFirst := Reaches.refl.step (.vanish hLeaving) (hRest v _ rfl)
    exact hFirst.trans (ih rfl)

/-- A request that only gets an answer. -/
theorem ask_isRun {e : Event} (hIdle : v.errand = .idle) (hRoom : v.connection.hasRoom = true)
    (hScript : e.script? = none) (hAsk : Allowed v (.ask e)) :
    Reaches Allowed v (v.answered e v.deployment) :=
  (Reaches.refl.step (.ask hIdle hScript) hAsk).step (.answer rfl hRoom) (hRest _ _ rfl)

/-- A start that succeeds. -/
theorem start_isRun {session : Session} (hIdle : v.errand = .idle)
    (hRoom : v.connection.hasRoom = true) (hFree : v.scene.calls i = none)
    (hStart : Deployment.start n v.deployment = (.ok session, d)) (hAsk : Allowed v (.start n)) :
    Reaches Allowed v ((v.startedAt session).attached
      (Watch.begin session session.subscribe.1 none) (Deployment.subscribe session d).2) := by
  rw [start_apply] at hStart
  rcases hReserve : Deployment.reserve n v.deployment with ⟨f | _, d₁⟩ <;>
    simp only [hReserve] at hStart
  · cases hStart
  rcases hCheck : Deployment.check n d₁ with ⟨f | _, d₂⟩ <;> simp only [hCheck] at hStart
  · cases hStart
  rcases hSpawn : Deployment.spawn n d₂ with ⟨f | started, d₃⟩ <;> simp only [hSpawn] at hStart
  · cases hStart
  cases hStart
  obtain ⟨hLife, -, hSessions, -⟩ := spawn_ok hSpawn
  have hName : session.name = n := congrArg Life.name hLife
  have hKnown : d₃.service.session? session.id = some session := by
    rw [Service.session?, hSessions]
    simp
  have hFar : ∀ (u : Viewing) {a : Action}, a.Touches = untouched →
      (∀ i, a ≠ .handOver i ∧ a ≠ .vacate i) → ¬ u.IsOwn a := fun u _ => not_isOwn
  -- the stages of the start
  have hReserved := Reaches.refl.step (.start hIdle hFree hReserve) hAsk
  have hChecked := hReserved.step
    (.others (.check (Scene.withCall_self _ i _) hCheck) (hFar _ rfl (by simp))) (hRest _ _ rfl)
  have hSpawned := hChecked.step
    (.others (.spawn (Scene.withCall_self _ i _) hSpawn) (hFar _ rfl (by simp))) (hRest _ _ rfl)
  have hPublished := hSpawned.step
    (.others (.publish (Scene.withCall_self _ i _) hKnown) (hFar _ rfl (by simp))) (hRest _ _ rfl)
  -- the handler goes on with the session
  have hStarted := hPublished.step (.started rfl (Scene.withCall_self _ i _)) (hRest _ _ rfl)
  have hSubscribed := hStarted.step (.subscribeStarted rfl hKnown) (hRest _ _ rfl)
  have hAnnounced := hSubscribed.step (.announce rfl hRoom) (hRest _ _ rfl)
  have hAttached := hAnnounced.step (.attach rfl) (hRest _ _ rfl)
  have hEnd : ∀ d, ((v.scene.withDeployment d).withCall i none) = v.scene.withDeployment d :=
    fun d => Scene.withCall_eq_self hFree
  rw [startedAt, attached, withDeployment, ← hEnd, hName]
  simp only [Scene.withCall_withDeployment, Scene.withCall_withCall] at hAttached
  exact hAttached

/-- A start that fails. -/
theorem start_fails_isRun {f : Fault} (hIdle : v.errand = .idle)
    (hRoom : v.connection.hasRoom = true) (hFree : v.scene.calls i = none)
    (hStart : Deployment.start n v.deployment = (.error f, d)) (hAsk : Allowed v (.start n)) :
    Reaches Allowed v (v.answered (.ofFault f) d) := by
  have hEnd : ∀ d, ((v.scene.withDeployment d).withCall i none) = v.scene.withDeployment d :=
    fun d => Scene.withCall_eq_self hFree
  have hFar : ∀ (u : Viewing) {a : Action}, a.Touches = untouched →
      (∀ i, a ≠ .handOver i ∧ a ≠ .vacate i) → ¬ u.IsOwn a := fun u _ => not_isOwn
  rw [start_apply] at hStart
  rcases hReserve : Deployment.reserve n v.deployment with ⟨g | _, d₁⟩ <;>
    simp only [hReserve] at hStart
  · cases hStart
    exact (Reaches.refl.step (.startRefused hIdle hReserve) hAsk).step (.answer rfl hRoom)
      (hRest _ _ rfl)
  have hReserved := Reaches.refl.step (.start hIdle hFree hReserve) hAsk
  rcases hCheck : Deployment.check n d₁ with ⟨g | _, d₂⟩ <;> simp only [hCheck] at hStart
  · cases hStart
    have hRejected := hReserved.step
      (.others (.reject (Scene.withCall_self _ i _) hCheck) (hFar _ rfl (by simp))) (hRest _ _ rfl)
    have hFailed := hRejected.step (.startFailed rfl (Scene.withCall_self _ i _)) (hRest _ _ rfl)
    have hAnswered := hFailed.step (.answer rfl hRoom) (hRest _ _ rfl)
    rw [answered, withDeployment, ← hEnd]
    simp only [Scene.withCall_withDeployment, Scene.withCall_withCall] at hAnswered
    exact hAnswered
  have hChecked := hReserved.step
    (.others (.check (Scene.withCall_self _ i _) hCheck) (hFar _ rfl (by simp))) (hRest _ _ rfl)
  rcases hSpawn : Deployment.spawn n d₂ with ⟨g | started, d₃⟩ <;> simp only [hSpawn] at hStart
  · cases hStart
    have hUnspawned := hChecked.step
      (.others (.spawnFails (Scene.withCall_self _ i _) hSpawn) (hFar _ rfl (by simp)))
      (hRest _ _ rfl)
    have hFailed := hUnspawned.step (.startFailed rfl (Scene.withCall_self _ i _)) (hRest _ _ rfl)
    have hAnswered := hFailed.step (.answer rfl hRoom) (hRest _ _ rfl)
    rw [answered, withDeployment, ← hEnd]
    simp only [Scene.withCall_withDeployment, Scene.withCall_withCall] at hAnswered
    exact hAnswered
  · cases hStart

/-- A watch of a script with a session. -/
theorem watch_isRun {session : Session} (hIdle : v.errand = .idle)
    (hGet : v.deployment.service.get n = .ok session) (hAsk : Allowed v (.watch n)) :
    Reaches Allowed v (v.attached
      (Watch.begin session session.subscribe.1 (some session.watchingEvent))
      (Deployment.subscribe session v.deployment).2) := by
  have hKnown : v.deployment.service.session? session.id = some session := by
    rw [Service.get] at hGet
    split at hGet
    · next found hLive =>
      cases hGet
      obtain ⟨id, -, hSession⟩ := Option.bind_eq_some_iff.mp hLive
      exact session?_self hSession
    · cases hGet
  have hHeld := Reaches.refl.step (.watch hIdle hGet) hAsk
  have hSubscribed := hHeld.step (.subscribeWatched rfl hKnown) (hRest _ _ rfl)
  exact hSubscribed.step (.attach rfl) (hRest _ _ rfl)

/-- A move that touches no receiver. -/
theorem move_isRun {m : Move} (hTouches : m.Touches = untouched) :
    Reaches Allowed v (v.withDeployment (m.perform v.deployment)) :=
  .step .refl (.others (.move m) (not_isOwn hTouches (by simp))) (hRest _ _ rfl)

end

-- ---------------------------------------------------------------------------
-- Requests
-- ---------------------------------------------------------------------------

/-- How a script runs is an answer to a question. -/
theorem script?_statusEvent (n : ScriptName) (running : Option RunningScript) :
    (Connection.statusEvent n running).script? = none := by
  cases running <;> rfl

/-- To begin to end a process changes nothing but the host. -/
theorem beginTermination_host (pid : UInt32) (d : Deployment) :
    (Deployment.beginTermination pid d).2 =
      { d with host := (Deployment.beginTermination pid d).2.host } := by
  have hRefl : ∀ d : Deployment, d.service = d.service := fun _ => rfl
  have hTrans : ∀ d e f : Deployment, e.service = d.service → f.service = e.service →
      f.service = d.service := fun _ _ _ hFirst hRest => hRest.trans hFirst
  have hSignal : Work.Keeps (fun d e => e.service = d.service)
      (Deployment.sendSignal pid Signal.terminate) := by
    intro d
    rw [Deployment.sendSignal]
    split <;> rfl
  have hKeeps : Work.Keeps (fun d e => e.service = d.service)
      (Deployment.beginTermination pid) :=
    .bind hTrans hRefl fun _ => .bind hTrans hRefl fun t =>
      .bind hTrans hSignal fun _ => .pure hRefl t
  rw [← hKeeps d]

/-- No condition on what is done. -/
def AnyAct (_ : Viewing) (_ : Act) : Prop := True

/-- What a request comes to is what a run leads to. -/
def IsRun (v : Viewing) (handled : Connection.Handled) : Prop :=
  ∃ u, Reaches AnyAct v u ∧ u.errand = .idle ∧
    (handled = .settled u.connection u.deployment ∨
      ∃ t, handled = .ending u.connection t u.deployment)

theorem IsRun.of_reaches {u : Viewing} {handled : Connection.Handled} (hReach : Reaches AnyAct v u)
    (h : u.IsRun handled) : v.IsRun handled := by
  obtain ⟨w, hLater, hHandled⟩ := h
  exact ⟨w, hReach.trans hLater, hHandled⟩

theorem answered_isRun {e : Event} (hIdle : v.errand = .idle) (hRoom : v.connection.hasRoom = true)
    (hScript : e.script? = none) : v.IsRun (.settled (v.connection.send e) v.deployment) :=
  ⟨_, ask_isRun (fun _ _ _ => trivial) hIdle hRoom hScript trivial, rfl, Or.inl rfl⟩

/-- A forwarding begins in place of others, and they are gone at once. -/
theorem attached_isRun {w : Watch} (hReach : Reaches AnyAct v (v'.attached w d)) :
    v.IsRun (.settled (v'.connection.replacing w)
      ((v'.connection.replaced w.name).foldl (fun d w => d.unsubscribe w.session w.receiver) d)) :=
  ⟨_, hReach.trans (vanish_isRun (fun _ _ _ => trivial) rfl), rfl, Or.inl rfl⟩

/-- Work that does what a move does, and is answered only when it fails. -/
theorem answering_isRun {α : Type} {work : DeploymentWork α} {m : Move}
    {after : α → Deployment → Connection.Handled} (hIdle : v.errand = .idle)
    (hRoom : v.connection.hasRoom = true) (hTouches : m.Touches = untouched)
    (hMove : (work v.deployment).2 = m.perform v.deployment)
    (hAfter : ∀ a d, after a d = .settled v.connection d ∨
      ∃ t, after a d = .ending v.connection t d) :
    v.IsRun (v.connection.answering v.deployment work after) := by
  have hMoved : Reaches AnyAct v (v.withDeployment (work v.deployment).2) :=
    hMove ▸ move_isRun (fun _ _ _ => trivial) hTouches
  rw [Connection.answering, ExceptT.run]
  generalize work v.deployment = done at hMoved
  obtain ⟨f | a, d⟩ := done
  · exact .of_reaches hMoved (answered_isRun hIdle hRoom (Event.script?_ofFault f))
  · exact ⟨_, hMoved, hIdle, hAfter a d⟩

/-- Work on a script, the name of which may be none. -/
theorem named_isRun {α : Type} {script : String} {work : ScriptName → DeploymentWork α}
    {after : α → Deployment → Connection.Handled} (hIdle : v.errand = .idle)
    (hRoom : v.connection.hasRoom = true)
    (hWork : ∀ n, v.IsRun (v.connection.answering v.deployment (work n) after)) :
    v.IsRun (v.connection.answering v.deployment (Connection.named script >>= work) after) := by
  have hNamed : Connection.named script v.deployment = (parseName script, v.deployment) := rfl
  rw [Connection.answering, ExceptT.run, Work.bind_apply, hNamed]
  cases parseName script with
  | ok n => exact hWork n
  | error f => exact answered_isRun hIdle hRoom (Event.script?_ofFault f)

/-- **A request that is handled without anything in between is a run** of the viewer, to what the
connection makes of the request. -/
theorem handle_isRun (hIdle : v.errand = .idle) (hRoom : v.connection.hasRoom = true)
    (hFree : v.scene.calls i = none) (r : Request) :
    v.IsRun (v.connection.handle v.deployment r) := by
  cases r with
  | start script =>
    refine named_isRun hIdle hRoom fun n => ?_
    rw [Connection.answering, ExceptT.run, Work.bind_apply]
    cases hStart : Deployment.start n v.deployment with | mk answer d
    cases answer with
    | ok session =>
      exact attached_isRun (start_isRun (fun _ _ _ => trivial) hIdle hRoom hFree hStart trivial)
    | error f =>
      exact ⟨_, start_fails_isRun (fun _ _ _ => trivial) hIdle hRoom hFree hStart trivial, rfl,
        Or.inl rfl⟩
  | stop script =>
    exact named_isRun hIdle hRoom fun n =>
      answering_isRun (m := .stop n) hIdle hRoom rfl rfl fun _ _ => Or.inl rfl
  | input script data =>
    exact named_isRun hIdle hRoom fun n =>
      answering_isRun (m := .input n (encodeUtf8 data)) hIdle hRoom rfl rfl fun _ _ => Or.inl rfl
  | watch script =>
    refine named_isRun hIdle hRoom fun n => ?_
    rw [Connection.answering, ExceptT.run, Deployment.watch, Work.bind_apply, Deployment.view]
    cases hGet : v.deployment.service.get n with
    | ok session => exact attached_isRun (watch_isRun (fun _ _ _ => trivial) hIdle hGet trivial)
    | error f => exact answered_isRun hIdle hRoom (Event.script?_ofFault f)
  | unwatch script =>
    rw [Connection.handle]
    cases ScriptName.parse script with
    | ok n =>
      have hStopped : Reaches AnyAct v _ := .step .refl (.unwatch (n := n) hIdle) trivial
      exact ⟨_, hStopped.trans (vanish_isRun (fun _ _ _ => trivial) rfl), hIdle, Or.inl rfl⟩
    | error f => exact ⟨v, .refl, hIdle, Or.inl rfl⟩
  | status script =>
    cases script with
    | none => exact answered_isRun hIdle hRoom rfl
    | some script =>
      have hNamed : (Connection.named script).run v.deployment =
        (parseName script, v.deployment) := rfl
      rw [Connection.handle, Connection.answering, hNamed]
      cases parseName script with
      | ok n => exact answered_isRun hIdle hRoom (script?_statusEvent n _)
      | error f => exact answered_isRun hIdle hRoom (Event.script?_ofFault f)
  | stopExternal pid =>
    exact answering_isRun (m := .world (Deployment.beginTermination pid v.deployment).2.host) hIdle
      hRoom rfl (beginTermination_host pid v.deployment) fun t _ => Or.inr ⟨t, rfl⟩

-- ---------------------------------------------------------------------------
-- Between requests
-- ---------------------------------------------------------------------------

/-- The viewing after a start that nothing comes between, if it succeeds. -/
def launched (v : Viewing) (n : ScriptName) : Viewing :=
  match Deployment.start n v.deployment with
  | (.ok session, d) => (v.startedAt session).attached
      (Watch.begin session session.subscribe.1 none) (Deployment.subscribe session d).2
  | (.error _, _) => v

/-- The viewing after a move. -/
def moved (v : Viewing) (m : Move) : Viewing := v.withDeployment (m.perform v.deployment)

/-- The viewing after some steps of a session's supervisor. -/
def supervised (v : Viewing) (id steps : Nat) : Viewing :=
  v.withDeployment (Deployment.repeatStep (·.supervise? id) steps false v.deployment).2

/-- The viewing after a step of the forwarding that began last, if it can take one. -/
def forwardedLast (v : Viewing) : Viewing :=
  match v.connection.watches with
  | [] => v
  | w :: rest =>
    match Connection.forward? v.connection.hasRoom w v.deployment with
    | none => v
    | some (e, w', d) => { v.withDeployment d with
        connection.outbound := v.connection.outbound ++ e.toList
        connection.watches := w' :: rest }

/-- The viewing after all forwardings that were stopped are gone. -/
def cleared (v : Viewing) : Viewing :=
  { v.withDeployment
      (v.leaving.foldl (fun d w => d.unsubscribe w.session w.receiver) v.deployment) with
    leaving := [] }

/-- A run has come to where the handler rests and no start is under way. -/
structure Rests (Allowed : Viewing → Act → Prop) (v₀ v : Viewing) : Prop where
  reaches : Reaches Allowed v₀ v
  idle : v.errand = .idle
  calls : ∀ i, v.scene.calls i = none

namespace Rests

variable {v₀ : Viewing} (hRest : ∀ v a, a.isRequest = false → Allowed v a)

include hRest

theorem launched (h : Rests Allowed v₀ v) (hRoom : v.connection.hasRoom = true)
    (hAsk : Allowed v (.start n)) : Rests Allowed v₀ (v.launched n) := by
  rw [Viewing.launched]
  cases hStart : Deployment.start n v.deployment with | mk answer d
  cases answer with
  | ok session =>
    exact ⟨h.reaches.trans (start_isRun hRest h.idle hRoom (h.calls 0) hStart hAsk), rfl, h.calls⟩
  | error f => exact h

theorem moved (h : Rests Allowed v₀ v) {m : Move} (hTouches : m.Touches = untouched) :
    Rests Allowed v₀ (v.moved m) :=
  ⟨h.reaches.trans (move_isRun hRest hTouches), h.idle, h.calls⟩

theorem supervised (h : Rests Allowed v₀ v) (id steps : Nat) :
    Rests Allowed v₀ (v.supervised id steps) := by
  suffices hSteps : ∀ moved : Bool, Rests Allowed v₀
      (v.withDeployment (Deployment.repeatStep (·.supervise? id) steps moved v.deployment).2) from
    hSteps false
  induction steps generalizing v with
  | zero => exact fun _ => h
  | succ k ih =>
    intro moved
    rw [Deployment.repeatStep]
    cases hStep : v.deployment.supervise? id with
    | none => exact h
    | some d =>
      have hFirst : Step v (.others (.supervise id)) (v.withDeployment d) :=
        .others (.supervise (by simp [h.calls]) hStep) (not_isOwn rfl (by simp))
      exact ih ⟨h.reaches.step hFirst (hRest _ _ rfl), h.idle, h.calls⟩ true

theorem forwardedLast (h : Rests Allowed v₀ v) : Rests Allowed v₀ v.forwardedLast := by
  rw [Viewing.forwardedLast]
  cases hWatches : v.connection.watches with
  | nil => exact h
  | cons w rest =>
    simp only
    cases hForward : Connection.forward? v.connection.hasRoom w v.deployment with
    | none => exact h
    | some next =>
      have hParts : v.connection.watches = [] ++ w :: rest := hWatches
      exact ⟨h.reaches.step (.forward hParts hForward) (hRest _ _ rfl), h.idle, h.calls⟩

theorem cleared (h : Rests Allowed v₀ v) : Rests Allowed v₀ v.cleared :=
  ⟨h.reaches.trans (vanish_isRun hRest rfl), h.idle, h.calls⟩

end Rests

end Viewing

end ScriptWarden
