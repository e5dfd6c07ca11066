import ScriptWarden.Proofs.Runs.Turns

/-!
# Sessions and their hubs along runs

What every action does to the hub of every session: a session that there is stays, started by the
same call as the same process, and its hub is acted on as its publishers and viewers do. A receiver
is told of something or dropped by nobody but those who have hold of it. A session that is new
begins with a hub of its own.

## Results

* `step_develops` — what a step does to the sessions.
* `reaches_hub` — the hub of a session, in every scene that a run leads to.
-/

namespace ScriptWarden

-- ---------------------------------------------------------------------------
-- Sessions that go on
-- ---------------------------------------------------------------------------

/-- What never changes of a session. -/
structure Origin where
  id : Nat
  name : ScriptName
  pid : UInt32
  startedAt : Moment

/-- The origin of a session. -/
def Session.origin (s : Session) : Origin := ⟨s.id, s.name, s.pid, s.startedAt⟩

/-- Whether an action on a hub leaves it open and all receivers alone but those that are touched. -/
def Hub.Action.Within (touched : Nat → Prop) : Hub.Action → Prop
  | .receive r | .drop r => touched r
  | .close => False
  | .publish _ | .finish _ | .subscribe => True

/-- A session becomes another by actions on its hub, and by what is not of its origin. -/
structure Session.GoesOn (touched : Nat → Prop) (s t : Session) : Prop where
  origin : t.origin = s.origin
  hub : ∃ actions, t.hub = s.hub.run actions ∧ ∀ action ∈ actions, action.Within touched

/-- What there is under an identity, and later. -/
inductive Follows (touched : Nat → Prop) : Option Session → Option Session → Prop
  | none : Follows touched none none
  | begun {s : Session} {limit : Nat} {actions : List Hub.Action} :
    s.hub = (Hub.new limit).run actions → (∀ action ∈ actions, action.Within fun _ => True) →
      Follows touched none (some s)
  | goesOn {s t : Session} : s.GoesOn touched t → Follows touched (some s) (some t)

/-- The sessions of a deployment go on, and there may be new ones. -/
def Develops (touched : Nat → Nat → Prop) (d d' : Deployment) : Prop :=
  ∀ id, Follows (touched id) (d.service.session? id) (d'.service.session? id)

variable {d d' : Deployment} {s t : Session} {touched touched' : Nat → Nat → Prop}
  {mine : Nat → Prop}

theorem Hub.Action.Within.mono {mine' : Nat → Prop} {action : Hub.Action} (h : action.Within mine)
    (hMore : ∀ r, mine r → mine' r) : action.Within mine' := by
  cases action with
  | receive r => exact hMore r h
  | drop r => exact hMore r h
  | close => exact h
  | _ => trivial

namespace Session.GoesOn

theorem of_hub_eq (hOrigin : t.origin = s.origin) (hHub : t.hub = s.hub) : s.GoesOn mine t :=
  ⟨hOrigin, [], hHub, by simp⟩

theorem of_act (action : Hub.Action) (hOrigin : t.origin = s.origin)
    (hHub : t.hub = s.hub.act action) (hWithin : action.Within mine) : s.GoesOn mine t :=
  ⟨hOrigin, [action], hHub, by simpa using hWithin⟩

theorem trans {u : Session} (h : s.GoesOn mine t) (h' : t.GoesOn mine u) : s.GoesOn mine u := by
  obtain ⟨actions, hHub, hWithin⟩ := h.hub
  obtain ⟨actions', hHub', hWithin'⟩ := h'.hub
  refine ⟨h'.origin.trans h.origin, actions ++ actions', ?_, fun action hMem => ?_⟩
  · rw [hHub', hHub, Hub.run_append]
  · rcases List.mem_append.mp hMem with hFirst | hSecond
    · exact hWithin action hFirst
    · exact hWithin' action hSecond

end Session.GoesOn

namespace Develops

theorem of_sessions (h : d'.service.sessions = d.service.sessions) : Develops touched d d' := by
  intro id
  have hSame : d'.service.session? id = d.service.session? id := by
    rw [Service.session?, Service.session?, h]
  rw [hSame]
  cases d.service.session? id with
  | none => exact .none
  | some s => exact .goesOn (.of_hub_eq rfl rfl)

theorem refl (d : Deployment) : Develops touched d d := of_sessions rfl

theorem trans {d'' : Deployment} (h : Develops touched d d') (h' : Develops touched d' d'') :
    Develops touched d d'' := by
  intro id
  have hFirst := h id
  have hSecond := h' id
  generalize d.service.session? id = before at hFirst
  generalize d'.service.session? id = between at hFirst hSecond
  generalize d''.service.session? id = after at hSecond
  cases hFirst with
  | none =>
    cases hSecond with
    | none => exact .none
    | begun hHub hWithin => exact .begun hHub hWithin
  | begun hHub hWithin =>
    cases hSecond with
    | goesOn hOn =>
      obtain ⟨actions, hNext, hWithin'⟩ := hOn.hub
      refine .begun (by rw [hNext, hHub, ← Hub.run_append]) fun action hMem => ?_
      rcases List.mem_append.mp hMem with hEarly | hLate
      · exact hWithin action hEarly
      · exact (hWithin' action hLate).mono fun _ _ => trivial
  | goesOn hOn =>
    cases hSecond with
    | goesOn hOn' => exact .goesOn (hOn.trans hOn')

theorem mono (h : Develops touched d d') (hMore : ∀ id r, touched id r → touched' id r) :
    Develops touched' d d' := by
  intro id
  have hOne := h id
  generalize d.service.session? id = before at hOne ⊢
  generalize d'.service.session? id = after at hOne ⊢
  cases hOne with
  | none => exact .none
  | begun hHub hWithin => exact .begun hHub hWithin
  | goesOn hOn =>
    obtain ⟨actions, hHub, hWithin⟩ := hOn.hub
    exact .goesOn ⟨hOn.origin, actions, hHub, fun a hMem => (hWithin a hMem).mono (hMore id)⟩

/-- A session that there is goes on. -/
theorem session? (h : Develops touched d d') {id : Nat}
    (hSession : d.service.session? id = some s) :
    ∃ t, d'.service.session? id = some t ∧ s.GoesOn (touched id) t := by
  have hOne := h id
  rw [hSession] at hOne
  generalize d'.service.session? id = after at hOne
  cases hOne with
  | goesOn hOn => exact ⟨_, rfl, hOn⟩

end Develops

-- ---------------------------------------------------------------------------
-- Turns and supervisors
-- ---------------------------------------------------------------------------

/-- Whoever has a turn acts on the hub as viewers do. -/
theorem Session.Turn.goesOn (h : s.Turn mine t) : s.GoesOn mine t := by
  cases h with
  | subscribe => exact .of_act .subscribe rfl rfl trivial
  | receive hMine => exact .of_act (.receive _) rfl rfl hMine
  | drop hMine => exact .of_act (.drop _) rfl rfl hMine
  | _ => exact .of_hub_eq rfl rfl

theorem Turned.follows {next limit : Nat} {before after : Option Session}
    (h : Turned mine next limit before after) : Follows mine before after := by
  cases h with
  | none => exact .none
  | @begun id n pid pipes now _ =>
    have hNew : (Session.new id n pid pipes now limit).hub = (Hub.new limit).run [] := rfl
    exact .begun hNew (by simp)
  | turn hTurn => exact .goesOn hTurn.goesOn

theorem Turns.develops (h : Turns touched d d') : Develops touched d d' :=
  fun id => (h.each id).follows

/-- One session goes on. -/
theorem develops_of_session? {id : Nat} (hSession : d.service.session? id = some s)
    (hOn : s.GoesOn (touched id) t) (hAfter : ∀ i, d'.service.session? i =
      if i = id then some t else d.service.session? i) : Develops touched d d' := by
  intro i
  rw [hAfter]
  by_cases hId : i = id
  · rw [if_pos hId, hId, hSession]
    exact .goesOn hOn
  · rw [if_neg hId]
    exact Develops.refl d i

/-- Readers act on the hub as publishers do. -/
theorem Session.reads_goesOn (s : Session) (stream : Stream) (got : Host.PipeRead) :
    s.GoesOn mine (s.reads stream got) := by
  cases got with
  | bytes bytes => exact .of_act (.publish bytes) rfl rfl trivial
  | _ => exact .of_hub_eq rfl rfl

/-- Of what a supervisor does, only the announcement acts on the hub. -/
theorem Session.does_goesOn (s : Session) (act : SupervisorAct) : s.GoesOn mine (s.does act) := by
  cases act with
  | announce exit => exact .of_act (.finish exit) rfl rfl trivial
  | _ => exact .of_hub_eq rfl rfl

theorem superviseSeeing?_develops {id : Nat} {stopFirst : Bool}
    (h : d.superviseSeeing? id stopFirst = some d') : Develops touched d d' := by
  obtain ⟨x, act, hAct, rfl⟩ := superviseSeeing?_eq_some.mp h
  obtain ⟨s, o, supervision, hSession, -, -, rfl⟩ := act?_cases hAct
  have hMoved : s.GoesOn (touched id) { s with supervision } := .of_hub_eq rfl rfl
  exact develops_of_session? hSession (hMoved.trans (Session.does_goesOn _ act))
    (act_session? hAct)

-- ---------------------------------------------------------------------------
-- Steps
-- ---------------------------------------------------------------------------

theorem step_develops {s s' : Scene} {a : Action} (h : s.Sound) (hStep : Step s a s') :
    Develops a.Touches s.deployment s'.deployment := by
  by_cases hOthers : a.IsOthers s
  · exact (step_turns h hStep hOthers).develops
  · cases hStep with
    | supervise _ hSupervise => exact superviseSeeing?_develops hSupervise
    | move m =>
      cases m with
      | readOutput id stream =>
        obtain ⟨⟨x, got⟩, hRead⟩ := Option.ne_none_iff_exists'.mp hOthers
        exact develops_of_session? (read?_cases hRead).1 (x.reads_goesOn stream got)
          (read_session? hRead).2
      | _ => exact absurd trivial hOthers
    | _ => exact absurd trivial hOthers

/-- The hub of every session has been acted on since it was new. -/
theorem reaches_hub {Allowed : Scene → Action → Scene → Prop} {config : Config}
    {workingDir hostname : String} {host : Host} {s : Scene}
    (hReach : Reaches Allowed (Scene.initial config workingDir hostname host) s) {id : Nat}
    {session : Session} (hSession : s.deployment.service.session? id = some session) :
    ∃ limit actions, session.hub = (Hub.new limit).run actions ∧
      ∀ action ∈ actions, action.Within fun _ => True := by
  induction hReach generalizing session with
  | refl => cases hSession
  | @step s s' a hBefore hStep _ ih =>
    have hSound := reaches_sound (initial_sound config workingDir hostname host) hBefore
    have hOne := step_develops hSound hStep id
    rw [hSession] at hOne
    generalize hEarlier : s.deployment.service.session? id = before at hOne
    cases hOne with
    | begun hHub hWithin => exact ⟨_, _, hHub, hWithin⟩
    | goesOn hOn =>
      obtain ⟨limit, actions, hHub, hWithin⟩ := ih hEarlier
      obtain ⟨later, hLater, hWithin'⟩ := hOn.hub
      refine ⟨limit, actions ++ later, by rw [hLater, hHub, Hub.run_append], fun action hMem => ?_⟩
      rcases List.mem_append.mp hMem with hEarly | hLate
      · exact hWithin action hEarly
      · exact (hWithin' action hLate).mono fun _ _ => trivial

end ScriptWarden
