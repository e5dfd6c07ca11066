import ScriptWarden.Proofs.Runs.Episodes
import ScriptWarden.Proofs.Runs.Recordings

/-!
# Hubs and recordings

What is done with the hub of a session can be read from a recording: its readers publish, its
supervisor announces the end, and whoever has hold of it subscribes and receives. So the hub of a
session is what these actions make of a new one. Here that is shown of services that nobody else makes
requests of, such as the one that runs the designated script: starts, supervisors, readers, writers
and the host act on them, and whoever has hold of a session.

## Results

* `hubActions` — what is done with the hub of a session, as it was recorded.
* `Happens.hub`, `Recording.hub` — the hub is what that makes of it, after a step and after a run.
* `Episode.Since.recorded` — what a viewer is told goes by what is recorded.
-/

namespace ScriptWarden

/-- Whether an action is one of a start, or of what goes on by itself, or of somebody who has hold of
a session. -/
def WithoutRequests (_ : Scene) (a : Action) (_ : Scene) : Prop :=
  match a with
  | .upload _ _ | .delete _ => False
  | .move (.stopSession _) | .move (.watchSession _) | .move (.receive _ _)
  | .move (.readOutput _ _) | .move (.writeInput _) | .move (.world _)
  | .move (.remember _) => True
  | .move _ => False
  | .reserve _ _ | .check _ | .spawn _ | .publish _ | .vacate _ | .handOver _ | .supervise _ => True

/-- What is done with the hub of a session in a step. -/
def Occurrence.hubAction? (id : Nat) (e : Occurrence) : Option Hub.Action :=
  if e.before.deployment.service.session? id = none then none
  else
    match e.action, e.told with
    | _, some (.read i _ (.bytes bytes)) => if i = id then some (.publish bytes) else none
    | _, some (.supervised x (.announce exit) _) => if x.id = id then some (.finish exit) else none
    | .move (.watchSession i), _ => if i = id then some .subscribe else none
    | .move (.receive i r), _ => if i = id then some (.receive r) else none
    | _, _ => none

/-- What was done with the hub of a session, oldest first. -/
def hubActions (id : Nat) (past : List Occurrence) : List Hub.Action :=
  (past.filterMap (·.hubAction? id)).reverse

variable {Allowed : Scene → Action → Scene → Prop} {s s' : Scene} {a : Action}
  {told : Option Happening} {past : List Occurrence} {e : Occurrence} {id : Nat}
  {x y : Session} {config : Config} {workingDir hostname : String} {host : Host}

theorem hubActions_cons (e : Occurrence) (past : List Occurrence) :
    hubActions id (e :: past) = hubActions id past ++ (e.hubAction? id).toList := by
  rw [hubActions, List.filterMap_cons]
  cases e.hubAction? id <;> simp [hubActions]

/-- What can be done with a hub in a step, and by whom. -/
theorem hubAction?_cases {action : Hub.Action} (h : e.hubAction? id = some action) :
    (∃ i stream bytes, e.told = some (.read i stream (.bytes bytes)) ∧ action = .publish bytes) ∨
    (∃ y exit done, e.told = some (.supervised y (.announce exit) done) ∧ action = .finish exit) ∨
    (e.action = .move (.watchSession id) ∧ action = .subscribe) ∨
    ∃ r, e.action = .move (.receive id r) ∧ action = .receive r := by
  obtain ⟨before, a, told⟩ := e
  unfold Occurrence.hubAction? at h
  simp only at h ⊢
  split at h
  · cases h
  split at h
  · split at h <;> cases h
    exact .inl ⟨_, _, _, rfl, rfl⟩
  · split at h <;> cases h
    exact .inr (.inl ⟨_, _, _, rfl, rfl⟩)
  · split at h <;> cases h
    next hId => exact .inr (.inr (.inl ⟨by rw [hId], rfl⟩))
  · split at h <;> cases h
    next hId => exact .inr (.inr (.inr ⟨_, by rw [hId], rfl⟩))
  · cases h

/-- Nobody lets go of a hub or of a receiver. -/
theorem hubAction?_ne (e : Occurrence) (id : Nat) :
    e.hubAction? id ≠ some .close ∧ ∀ r, e.hubAction? id ≠ some (.drop r) := by
  constructor
  · intro hClose
    rcases hubAction?_cases hClose with ⟨_, _, _, _, hNot⟩ | ⟨_, _, _, _, hNot⟩ | ⟨_, hNot⟩ |
      ⟨_, _, hNot⟩ <;> cases hNot
  · intro r hDrop
    rcases hubAction?_cases hDrop with ⟨_, _, _, _, hNot⟩ | ⟨_, _, _, _, hNot⟩ | ⟨_, hNot⟩ |
      ⟨_, _, hNot⟩ <;> cases hNot

theorem drop_notMem_hubActions (id r : Nat) (past : List Occurrence) :
    Hub.Action.drop r ∉ hubActions id past := by
  intro hMem
  obtain ⟨e, -, hDrop⟩ := List.mem_filterMap.mp (List.mem_reverse.mp hMem)
  exact (hubAction?_ne e id).2 r hDrop

theorem hubAction?_of_unknown (h : e.before.deployment.service.session? id = none) :
    e.hubAction? id = none := if_pos h

theorem toList_ite (i : Nat) (action : Hub.Action) :
    (if i = id then some action else none).toList = if i = id then [action] else [] := by
  split <;> rfl

/-- Nothing is done with the hub in a step that leaves the sessions alone. -/
theorem hub_of_sessions {d d' : Deployment} (hSession : d.service.session? id = some x)
    (h : d'.service.sessions = d.service.sessions) :
    (d'.service.session? id).map Session.hub = some x.hub := by
  rw [Service.session?, h]
  exact congrArg (Option.map Session.hub) hSession

/-- One session is acted on, and the others are the same. -/
theorem hub_setSession {d : Deployment} {i : Nat} {z : Session} (actions : List Hub.Action)
    (hSession : d.service.session? id = some x) (hThere : d.service.session? i = some z)
    (hId : y.id = z.id) (hHub : y.hub = z.hub.run actions) :
    ((d.setSession y).service.session? id).map Session.hub =
      some (x.hub.run (if i = id then actions else [])) := by
  have hOwn : z.id = i := session?_id hThere
  rw [session?_setSession, hId, hOwn]
  by_cases hSame : id = i
  · subst hSame
    obtain rfl : z = x := Option.some.inj (hThere.symm.trans hSession)
    rw [if_pos rfl, if_pos rfl, hSession, Option.map_some, Option.map_some, hHub]
  · rw [if_neg hSame, if_neg (Ne.symm hSame), hSession]
    rfl

/-- The step of a start does nothing with the hub of a session that there is. -/
theorem start_hub {i : Nat} (hSound : s.Sound) (h : Step s a s') (hCaller : a.caller? = some i)
    (hSession : s.deployment.service.session? id = some x) :
    (s'.deployment.service.session? id).map Session.hub = some x.hub := by
  have hSame : ∀ {d : Deployment}, d.service.sessions = s.deployment.service.sessions →
      (d.service.session? id).map Session.hub = some x.hub := hub_of_sessions hSession
  cases h with
  | reserve _ hReserve =>
    obtain ⟨slots, -, rfl⟩ := reserve_ok hReserve
    exact hSame rfl
  | refuse _ hReserve =>
    rw [reserve_error hReserve]
    exact hSame rfl
  | check _ hCheck => exact hSame (check_sessions hCheck).1
  | reject _ hCheck => exact hSame (check_sessions hCheck).1
  | @spawn i n found session d _ hSpawn =>
    have hNew : session.id ≠ id := by
      rintro rfl
      rw [(spawn_new hSpawn).1, hSound.next_session?] at hSession
      cases hSession
    show (d.service.session? id).map Session.hub = some x.hub
    rw [spawn_session? hSpawn, if_neg hNew, hSession]
    rfl
  | spawnFails _ hSpawn =>
    rw [spawn_error hSpawn]
    exact hSame rfl
  | publish => exact hSame rfl
  | vacate => exact hSame rfl
  | handOver => exact hSame rfl
  | _ => cases hCaller

theorem hubAction?_start {i : Nat} (hCaller : a.caller? = some i) :
    Occurrence.hubAction? id ⟨s, a, none⟩ = none := by
  unfold Occurrence.hubAction?
  split
  · rfl
  · cases a <;> first | rfl | cases hCaller

/-- What a supervisor does with the hub of a session: it announces the end. -/
theorem act_hub {i : Nat} {stopFirst done : Bool} {act : SupervisorAct}
    (hAct : s.deployment.act? i stopFirst = some (y, act))
    (hSession : s.deployment.service.session? id = some x) :
    (((s.deployment.setSession y).perform y act).service.session? id).map Session.hub =
      some (x.hub.run
        (Occurrence.hubAction? id ⟨s, .supervise i, some (.supervised y act done)⟩).toList) := by
  obtain ⟨z, supervision, hThere, rfl, -⟩ := act?_outlook hAct
  have hId : z.id = i := session?_id hThere
  have hKnown : ¬ s.deployment.service.session? id = none := by simp [hSession]
  unfold Occurrence.hubAction?
  rw [if_neg hKnown, act_session? hAct id]
  by_cases hSame : id = i
  · subst hSame
    obtain rfl : z = x := Option.some.inj (hThere.symm.trans hSession)
    rw [if_pos rfl, Option.map_some]
    cases act <;> simp [Session.does, Session.stopReading, Hub.run, Hub.act, hId]
  · have hOther : z.id ≠ id := fun h => hSame (h.symm.trans hId)
    rw [if_neg hSame, hSession, Option.map_some]
    cases act <;> simp [Hub.run, hOther]

/-- What a reader does with the hub of a session: it publishes what it has read. -/
theorem read_hub {i : Nat} {stream : Stream} {got : Host.PipeRead}
    (hRead : s.deployment.read? i stream = some (y, got))
    (hSession : s.deployment.service.session? id = some x) :
    (((Move.readOutput i stream).perform s.deployment).service.session? id).map Session.hub =
      some (x.hub.run (Occurrence.hubAction? id
        ⟨s, .move (.readOutput i stream), some (.read i stream got)⟩).toList) := by
  have hKnown : ¬ s.deployment.service.session? id = none := by simp [hSession]
  unfold Occurrence.hubAction?
  rw [if_neg hKnown, (read_session? hRead).2 id]
  by_cases hSame : id = i
  · subst hSame
    obtain rfl : y = x := Option.some.inj ((read?_cases hRead).1.symm.trans hSession)
    rw [if_pos rfl, Option.map_some]
    cases got <;> simp [Session.reads, Session.publish, Session.stopReading, Hub.run, Hub.act]
  · rw [if_neg hSame, hSession, Option.map_some]
    cases got <;> simp [Hub.run, Ne.symm hSame]

/-- What whoever has hold of a session does with its hub: it subscribes and receives. -/
theorem move_hub {m : Move} (hOwn : WithoutRequests s (.move m) s')
    (hUnread : (Action.move m).IsOthers s) (hSession : s.deployment.service.session? id = some x) :
    ((m.perform s.deployment).service.session? id).map Session.hub =
      some (x.hub.run (Occurrence.hubAction? id ⟨s, .move m, none⟩).toList) := by
  have hKnown : ¬ s.deployment.service.session? id = none := by simp [hSession]
  have hSame : ∀ {d : Deployment}, d.service.sessions = s.deployment.service.sessions →
      (d.service.session? id).map Session.hub = some (x.hub.run []) := hub_of_sessions hSession
  unfold Occurrence.hubAction?
  rw [if_neg hKnown]
  cases m with
  | stopSession i =>
    rw [Move.perform]
    cases hThere : s.deployment.service.session? i with
    | none => exact hSame rfl
    | some z =>
      have hNow := hub_setSession (y := z.requestStop) [] hSession hThere rfl rfl
      rwa [ite_self] at hNow
  | watchSession i =>
    rw [Move.perform]
    cases hThere : s.deployment.service.session? i with
    | none =>
      have hOther : i ≠ id := fun h => hKnown (h ▸ hThere)
      simpa [hOther] using hSame (d := s.deployment) rfl
    | some z =>
      rw [toList_ite]
      exact hub_setSession (y := z.subscribe.2) _ hSession hThere rfl rfl
  | receive i r =>
    rw [Move.perform, Deployment.receive]
    cases hThere : s.deployment.service.session? i with
    | none =>
      have hOther : i ≠ id := fun h => hKnown (h ▸ hThere)
      simpa [hOther] using hSame (d := s.deployment) rfl
    | some z =>
      rw [toList_ite]
      exact hub_setSession (y := { z with hub := (z.hub.receive r).2 }) _ hSession hThere rfl rfl
  | readOutput i stream =>
    rw [perform_readOutput_of_none hUnread]
    exact hSame rfl
  | writeInput i =>
    rw [Move.perform]
    cases hWrite : s.deployment.writeInput? i with
    | none => exact hSame rfl
    | some d =>
      obtain ⟨z, _, input, host, hThere, -, rfl⟩ := writeInput?_cases hWrite
      have hNow := hub_setSession (d := { s.deployment with host }) (y := { z with input }) []
        hSession hThere rfl rfl
      rwa [ite_self] at hNow
  | world host => exact hSame rfl
  | remember found => exact hSame rfl
  | _ => exact hOwn.elim

/-- **What a step makes of the hub of a session** is what is recorded of it. -/
theorem Happens.hub (hSound : s.Sound) (h : Happens s a told s') (hOwn : WithoutRequests s a s')
    (hSession : s.deployment.service.session? id = some x) :
    (s'.deployment.service.session? id).map Session.hub =
      some (x.hub.run (Occurrence.hubAction? id ⟨s, a, told⟩).toList) := by
  cases h with
  | supervise _ hAct => exact act_hub hAct hSession
  | read hRead => exact read_hub hRead hSession
  | delete => exact hOwn.elim
  | other hStep hOthers _ =>
    cases hCaller : a.caller? with
    | some i =>
      rw [hubAction?_start hCaller]
      exact start_hub hSound hStep hCaller hSession
    | none =>
      cases hStep with
      | supervise => exact hOthers.elim
      | upload => exact hOwn.elim
      | delete => exact hOwn.elim
      | move m => exact move_hub hOwn hOthers hSession
      | _ => cases hCaller

/-- A session begins with a new hub. -/
theorem Happens.hub_begins (hSound : s.Sound) (h : Happens s a told s')
    (hNone : s.deployment.service.session? id = none)
    (hSession : s'.deployment.service.session? id = some y) :
    y.hub = Hub.new s.deployment.service.config.replayLimit := by
  have hTurns : ∀ {touched}, Turns touched s.deployment s'.deployment →
      y.hub = Hub.new s.deployment.service.config.replayLimit := by
    intro touched hTurns
    rcases hTurns.before hSession with ⟨x, hThere, -⟩ | ⟨-, -, n, pid, pipes, now, rfl⟩
    · cases hThere.symm.trans hNone
    · rfl
  have hUnknown : ∀ {i : Nat} {z z' : Session}, s.deployment.service.session? i = some z →
      (if id = i then some z' else s.deployment.service.session? id) ≠ some y := by
    intro i z z' hThere hNow
    split at hNow
    · next hSame => cases hNone.symm.trans (hSame ▸ hThere)
    · cases hNone.symm.trans hNow
  cases h with
  | supervise _ hAct =>
    obtain ⟨x, -, hThere, -⟩ := act?_outlook hAct
    exact absurd ((act_session? hAct id).symm.trans hSession) (hUnknown hThere)
  | read hRead =>
    exact absurd (((read_session? hRead).2 id).symm.trans hSession) (hUnknown (read?_cases hRead).1)
  | delete n => exact hTurns (step_turns hSound (.delete n) trivial)
  | other hStep hOthers _ => exact hTurns (step_turns hSound hStep hOthers)

/-- Sessions stay. -/
theorem Happens.unknown (hSound : s.Sound) (h : Happens s a told s')
    (hNone : s'.deployment.service.session? id = none) :
    s.deployment.service.session? id = none := by
  cases hSession : s.deployment.service.session? id with
  | none => rfl
  | some x =>
    obtain ⟨y, hThere, -⟩ := (h.advances hSound).stays hSession
    cases hNone.symm.trans hThere

theorem Recording.config_eq (h : Recording Allowed (.initial config workingDir hostname host) past s) :
    s.deployment.service.config = config := by
  have h₀ := initial_sound config workingDir hostname host
  induction h with
  | begin => rfl
  | next hPast hHappens _ ih => exact (hHappens.advances (hPast.sound h₀)).config.trans ih

/-- **The hub of a session** is what the recorded actions make of a new one. -/
theorem Recording.hub
    (h : Recording WithoutRequests (.initial config workingDir hostname host) past s) :
    (s.deployment.service.session? id = none → hubActions id past = []) ∧
      ∀ x, s.deployment.service.session? id = some x →
        x.hub = (Hub.new config.replayLimit).run (hubActions id past) := by
  have h₀ := initial_sound config workingDir hostname host
  induction h with
  | begin => exact ⟨fun _ => rfl, fun x hSession => absurd hSession Scene.initial_session?⟩
  | @next past s s' a told hPast hHappens hAllowed ih =>
    obtain ⟨hUnknown, hKnown⟩ := ih
    have hSound := hPast.sound h₀
    refine ⟨fun hNone => ?_, fun y hSession => ?_⟩
    · have hBefore := hHappens.unknown hSound hNone
      rw [hubActions_cons, hUnknown hBefore, hubAction?_of_unknown hBefore]
      rfl
    · rw [hubActions_cons, Hub.run_append]
      cases hBefore : s.deployment.service.session? id with
      | none =>
        rw [hHappens.hub_begins hSound hBefore hSession, hPast.config_eq, hUnknown hBefore,
          hubAction?_of_unknown hBefore]
        rfl
      | some x =>
        have hNow := hHappens.hub hSound hAllowed hBefore
        rw [hSession, Option.map_some] at hNow
        rw [Option.some.inj hNow, hKnown x hBefore]

/-- A session that somebody has subscribed to goes on as it is recorded. -/
theorem Episode.Since.recorded {g : Episode} (h : g.Since [] s.deployment) (hSound : s.Sound)
    (hHappens : Happens s a told s') (hOwn : WithoutRequests s a s') :
    (g.later (Occurrence.hubAction? g.session.id ⟨s, a, told⟩).toList).Since [] s'.deployment := by
  obtain ⟨x, hSession, hOrigin, hHub⟩ := h.known
  rw [List.append_nil] at hHub
  obtain ⟨y, hThere, hOn⟩ := (step_develops hSound hHappens.step).session? hSession
  have hNow := hHappens.hub hSound hOwn hSession
  rw [hThere, Option.map_some, hHub, ← Hub.run_append] at hNow
  have hUnclosed := h.unclosed
  rw [List.append_nil] at hUnclosed
  refine Since.later ⟨h.joined, ⟨y, hThere, hOn.origin.trans hOrigin, Option.some.inj hNow⟩, ?_⟩
  intro hMem
  rcases List.mem_append.mp hMem with hBefore | hNew
  · exact hUnclosed hBefore
  · exact (hubAction?_ne _ _).1 (Option.mem_toList.mp hNew)

end ScriptWarden
