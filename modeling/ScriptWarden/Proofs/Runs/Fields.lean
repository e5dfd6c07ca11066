import ScriptWarden.Proofs.Runs.Outputs

/-!
# What steps leave of a session

Of a session, requests and viewers change the wish that it ends, the input that waits, and the hub;
its readers change the hub and what is being read. What is read of a session without looking at any of
these stays. A session that begins is the only one that is new.

## Results

* `KeepsField` — what is read of the sessions stays.
* `move_keepsField` — what moves leave of sessions.
* `step_sessions` — what all steps leave of them.
-/

namespace ScriptWarden

/-- What is read of the sessions stays, and so does which sessions there are. -/
def KeepsField {α : Type} (f : Session → α) (d d' : Deployment) : Prop :=
  ∀ id, (d'.service.session? id).map f = (d.service.session? id).map f

/-- Whether a move asks sessions to end. -/
def Move.Stops : Move → Prop
  | .stop _ | .stopSession _ | .stopAll => True
  | _ => False

/-- Whether a move gives a session input, or passes that on. -/
def Move.Feeds : Move → Prop
  | .input _ _ | .inputSession _ _ | .writeInput _ => True
  | _ => False

variable {α : Type} {f : Session → α} {d d' : Deployment} {x y : Session} {id : Nat}

theorem KeepsField.of_sessions (h : d'.service.sessions = d.service.sessions) : KeepsField f d d' := by
  intro id
  rw [Service.session?, Service.session?, h]

theorem KeepsField.trans {d'' : Deployment} (h : KeepsField f d d') (h' : KeepsField f d' d'') :
    KeepsField f d d'' := fun id => (h' id).trans (h id)

theorem setSession_keepsField (hSession : d.service.session? x.id = some x) (hId : y.id = x.id)
    (hSame : f y = f x) : KeepsField f d (d.setSession y) := by
  intro id
  rw [session?_setSession, hId]
  split
  · next hi => rw [hi, hSession, Option.map_some, Option.map_some, Option.map_some, hSame]
  · rfl

theorem queueInput_keepsField (hFeed : ∀ x input, f { x with input } = f x)
    (hSession : d.service.session? x.id = some x) (bytes : List UInt8) :
    KeepsField f d (Deployment.queueInput x bytes d).2 := by
  rw [queueInput_apply]
  split
  · exact setSession_keepsField hSession rfl (hFeed _ _)
  · exact .of_sessions rfl

theorem writeInput?_keepsField (hFeed : ∀ x input, f { x with input } = f x)
    (h : d.writeInput? id = some d') : KeepsField f d d' := by
  obtain ⟨x, _, input, host, hSession, -, rfl⟩ := writeInput?_cases h
  exact setSession_keepsField (d := { d with host }) (session?_self hSession) rfl (hFeed _ _)

theorem stopAll_keepsField (hStop : ∀ x, f x.requestStop = f x) (d : Deployment) :
    KeepsField f d d.stopAll.2 := by
  have hAsk : ∀ (sessions : List Session) (e : Deployment),
      (∀ x ∈ sessions, (e.service.session? x.id).map f = some (f x)) →
      KeepsField f e (sessions.foldl (fun e x => e.setSession x.requestStop) e) := by
    intro sessions
    induction sessions with
    | nil => exact fun e _ => .of_sessions rfl
    | cons x rest ih =>
      intro e hKnown
      have hOne : KeepsField f e (e.setSession x.requestStop) := by
        intro id
        rw [session?_setSession]
        split
        · next hi =>
          have hThere := hKnown x List.mem_cons_self
          rw [hi, show x.requestStop.id = x.id from rfl, hThere]
          obtain ⟨y, hSession, -⟩ := Option.map_eq_some_iff.mp hThere
          rw [hSession, Option.map_some, Option.map_some, hStop]
        · rfl
      refine hOne.trans (ih _ fun y hMem => ?_)
      rw [hOne]
      exact hKnown y (List.mem_cons_of_mem x hMem)
  refine hAsk d.service.liveSessions d fun x hMem => ?_
  obtain ⟨i, -, hSession⟩ := List.mem_filterMap.mp hMem
  rw [session?_self hSession, Option.map_some]

theorem readOutput_keepsField (hHub : ∀ x hub, f { x with hub } = f x)
    (hReading : ∀ x reading, f { x with reading } = f x) (i : Nat) (stream : Stream)
    (d : Deployment) : KeepsField f d ((Move.readOutput i stream).perform d) := by
  cases hRead : d.read? i stream with
  | none =>
    rw [perform_readOutput_of_none hRead]
    exact .of_sessions rfl
  | some found =>
    obtain ⟨x, got⟩ := found
    obtain ⟨hSession, -, -⟩ := read?_cases hRead
    have hSame : f (x.reads stream got) = f x := by
      cases got with
      | bytes bytes => exact hHub x _
      | empty => rfl
      | ended => exact hReading x _
    intro j
    rw [(read_session? hRead).2 j]
    split
    · next hj => rw [hj, hSession, Option.map_some, Option.map_some, hSame]
    · rfl

/-- What is done with the session of a script changes nothing where there is none. -/
theorem withSession_keepsField {β : Type} {n : ScriptName} {work : Session → DeploymentWork β}
    (hWork : ∀ x, d.service.session? x.id = some x → KeepsField f d (work x d).2) :
    KeepsField f d ((Deployment.view (fun d => d.service.get n) >>= work) d).2 := by
  rcases withSession_cases n work d with ⟨x, -, hSession, hAfter⟩ | ⟨_, -, hAfter⟩
  · rw [hAfter]
    exact hWork x hSession
  · rw [hAfter]
    exact .of_sessions rfl

/-- A session that is asked by its identity. -/
theorem elim_session?_keepsField {g : Session → Deployment}
    (hSome : ∀ x, d.service.session? x.id = some x → KeepsField f d (g x)) :
    KeepsField f d ((d.service.session? id).elim d g) := by
  cases hSession : d.service.session? id with
  | none => exact .of_sessions rfl
  | some x => exact hSome x (session?_self hSession)

/-- **What a move leaves of a session.** -/
theorem move_keepsField (hHub : ∀ x hub, f { x with hub } = f x)
    (hReading : ∀ x reading, f { x with reading } = f x) {m : Move}
    (hStop : m.Stops → ∀ x, f x.requestStop = f x)
    (hFeed : m.Feeds → ∀ x input, f { x with input } = f x) (d : Deployment) :
    KeepsField f d (m.perform d) := by
  cases m with
  | stop n =>
    exact withSession_keepsField fun x hSession =>
      setSession_keepsField hSession rfl (hStop trivial x)
  | input n bytes =>
    exact withSession_keepsField fun x hSession => queueInput_keepsField (hFeed trivial) hSession bytes
  | watch n =>
    refine withSession_keepsField fun x hSession => ?_
    exact setSession_keepsField (y := x.subscribe.2) hSession rfl (hHub x _)
  | stopSession i =>
    exact elim_session?_keepsField fun x hSession =>
      setSession_keepsField hSession rfl (hStop trivial x)
  | inputSession i bytes =>
    exact elim_session?_keepsField fun x hSession =>
      queueInput_keepsField (hFeed trivial) hSession bytes
  | watchSession i =>
    refine elim_session?_keepsField fun x hSession => ?_
    exact setSession_keepsField (y := x.subscribe.2) hSession rfl (hHub x _)
  | receive i r =>
    rw [Move.perform, Deployment.receive]
    cases hSession : d.service.session? i with
    | none => exact .of_sessions rfl
    | some x => exact setSession_keepsField (session?_self hSession) rfl (hHub x _)
  | unsubscribe i r =>
    rw [Move.perform, Deployment.unsubscribe]
    cases hSession : d.service.session? i with
    | none => exact .of_sessions rfl
    | some x => exact setSession_keepsField (session?_self hSession) rfl (hHub x _)
  | stopAll => exact stopAll_keepsField (hStop trivial) d
  | list => exact .of_sessions (list_sessions d).1
  | record n => exact .of_sessions (record_sessions n d).1
  | autoboot n enabled => exact .of_sessions rfl
  | readOutput i stream => exact readOutput_keepsField hHub hReading i stream d
  | writeInput i =>
    rw [Move.perform]
    cases hWrite : d.writeInput? i with
    | none => exact .of_sessions rfl
    | some d' => exact writeInput?_keepsField (hFeed trivial) hWrite
  | remember analyses => exact .of_sessions rfl
  | world host => exact .of_sessions rfl

/-- A session that begins is new, and the others are the same. -/
theorem spawn_session? {n : ScriptName} (h : Deployment.spawn n d = (.ok x, d')) (id : Nat) :
    d'.service.session? id = if x.id = id then some x else d.service.session? id := by
  rw [Service.session?, (spawn_ok h).2.2.1]
  split
  · next hId => rw [List.find?_cons_of_pos (by simpa using hId)]
  · next hId =>
    rw [List.find?_cons_of_neg (by simpa using hId)]
    rfl

theorem spawn_new {n : ScriptName} (h : Deployment.spawn n d = (.ok x, d')) :
    x.id = d.service.nextSession ∧ x.stopping = false ∧ x.input = {} := by
  obtain ⟨piped, started, hSpawned⟩ := spawned_of_spawn h
  rw [hSpawned.made]
  exact ⟨rfl, rfl, rfl⟩

/-- What a step comes to for the sessions of a scene: one begins, or the supervisor of one goes on, or
what is read of them stays. -/
inductive SessionStep (s s' : Scene) (a : Action) : Prop
  | spawns {x : Session} : x.stopping = false → x.input = {} →
      s.deployment.service.session? x.id = none →
      (∀ id, s'.deployment.service.session? id =
        if x.id = id then some x else s.deployment.service.session? id) → SessionStep s s' a
  | supervises {i : Nat} {x : Session} {supervision : Supervision} {act : SupervisorAct} :
      s.deployment.service.session? i = some x →
      (∀ id, s'.deployment.service.session? id =
        if id = i then some (Session.does { x with supervision } act)
        else s.deployment.service.session? id) → SessionStep s s' a
  | others :
      (∀ {α : Type} {f : Session → α}, (∀ x hub, f { x with hub } = f x) →
        (∀ x reading, f { x with reading } = f x) →
        (∀ m, a = .move m → (m.Stops → ∀ x, f x.requestStop = f x) ∧
          (m.Feeds → ∀ x input, f { x with input } = f x)) →
        KeepsField f s.deployment s'.deployment) → SessionStep s s' a

/-- **What steps leave of sessions.** -/
theorem step_sessions {s s' : Scene} {a : Action} (h : s.Sound) (hStep : Step s a s') :
    SessionStep s s' a := by
  have hSame : ∀ {s' : Scene},
      s'.deployment.service.sessions = s.deployment.service.sessions → SessionStep s s' a :=
    fun hSessions => .others fun _ _ _ => .of_sessions hSessions
  cases hStep with
  | reserve _ hReserve =>
    obtain ⟨slots, -, rfl⟩ := reserve_ok hReserve
    exact hSame rfl
  | refuse _ hReserve =>
    rw [reserve_error hReserve]
    exact hSame rfl
  | check _ hCheck => exact hSame (check_sessions hCheck).1
  | reject _ hCheck => exact hSame (check_sessions hCheck).1
  | spawn _ hSpawn =>
    obtain ⟨hId, hStopping, hInput⟩ := spawn_new hSpawn
    exact .spawns hStopping hInput (hId ▸ h.next_session?) (spawn_session? hSpawn)
  | spawnFails _ hSpawn =>
    rw [spawn_error hSpawn]
    exact hSame rfl
  | publish => exact hSame rfl
  | vacate => exact hSame rfl
  | handOver => exact hSame rfl
  | supervise _ hSupervise =>
    obtain ⟨y, act, hAct, rfl⟩ := superviseSeeing?_eq_some.mp hSupervise
    obtain ⟨x, -, supervision, hSession, -, -, rfl⟩ := act?_cases hAct
    exact .supervises hSession (act_session? hAct)
  | upload fileName bytes => exact hSame (upload_sessions fileName bytes s.deployment).1
  | delete n => exact hSame (delete_sessions n s.deployment).1
  | move m =>
    exact .others fun hHub hReading hMove =>
      move_keepsField hHub hReading (hMove m rfl).1 (hMove m rfl).2 s.deployment

end ScriptWarden
