import Mathlib.Logic.Function.Basic
import ScriptWarden.Proofs.Runs.EndedSessions
import ScriptWarden.Proofs.Runs.Fields
import ScriptWarden.Proofs.Sessions.Inputs

/-!
# Feeding processes

A call that gives a session input looks first whether the input is open, and then sends; other calls,
the writer and the supervisor of the session, and whatever else there is in a scene, may come between.
A write that fails changes nothing: it is when the writer lets go of the pipe that it is gone.

## Results

* `Feeds` — one step; `FedRun` — a run, with the answers that calls got and the bytes that were put.
* `sendInput_alone` — a call that nothing comes between.
* `Feeds.inputs` — what a step comes to for the input of a session.
* `FedRun.ledger`, `FedRun.answers_when_shut` — what runs keep.
* `input_in_order_or_refused` — the law.
-/

namespace ScriptWarden

variable {d d' : Deployment} {x : Session} {id : Nat} {bytes message : List UInt8}
  {closeFirst : Bool}

/-- A writer that finds the pipe broken puts nothing and stops. -/
theorem writeSeeing?_of_broken (hSession : d.service.session? id = some x)
    (hStopped : x.input.stopped = false) (hWriting : x.input.writing = some message)
    (hBroken : (d.host.writePipe x.pipes.input message).1 = .broken) :
    ∃ d', d.writeSeeing? id closeFirst = some ([], d') ∧
      d'.service.session? id = some { x with input := x.input.stop } := by
  refine ⟨d.letGoInput x, ?_, ?_⟩
  · rw [Deployment.writeSeeing?, hSession]
    generalize hPipe : d.host.writePipe x.pipes.input message = result at hBroken
    obtain ⟨_, host⟩ := result
    cases hBroken
    simp [hStopped, hWriting, hPipe]
  · show (d.setSession { x with input := x.input.stop }).service.session? id = _
    rw [session?_setSession, if_pos (session?_id hSession).symm, hSession, Option.map_some]

-- ---------------------------------------------------------------------------
-- Steps
-- ---------------------------------------------------------------------------

/-- A call that has found the input of a session open, and is to send its message. -/
structure InputCall where
  session : Nat
  message : List UInt8

/-- What is told of input. -/
inductive InputDeed where
  /-- A call is answered that had hold of a session. Those that had found the input open have numbers. -/
  | answered (call : Option Nat) (session : Nat) (message : List UInt8) (answer : Except Fault Unit)
  /-- A call is answered that found no session of the script. -/
  | missed (n : ScriptName) (message : List UInt8) (fault : Fault)
  | put (session : Nat) (bytes : List UInt8)

namespace InputDeed

/-- The message that a session accepts. -/
def accepted? (id : Nat) : InputDeed → Option (List UInt8)
  | .answered _ session message (.ok ()) => if session = id then some message else none
  | _ => none

/-- The bytes that are put into the pipe of a session. -/
def written (id : Nat) : InputDeed → List UInt8
  | .put session bytes => if session = id then bytes else []
  | _ => []

/-- Why a call is refused. -/
def fault? : InputDeed → Option Fault
  | .answered _ _ _ (.error f) | .missed _ _ f => some f
  | _ => none

end InputDeed

/-- The messages that a session has accepted, oldest first. -/
def accepted (id : Nat) (past : List InputDeed) : List (List UInt8) := past.filterMap (·.accepted? id)

/-- The bytes that have been put into the pipe of a session. -/
def written (id : Nat) (past : List InputDeed) : List UInt8 := past.flatMap (·.written id)

theorem accepted_append (id : Nat) (past later : List InputDeed) :
    accepted id (past ++ later) = accepted id past ++ accepted id later := List.filterMap_append

theorem written_append (id : Nat) (past later : List InputDeed) :
    written id (past ++ later) = written id past ++ written id later := List.flatMap_append

theorem accepted_ok (id session : Nat) (call : Option Nat) (message : List UInt8) :
    accepted id [.answered call session message (.ok ())] =
      if session = id then [message] else [] := by
  by_cases hId : session = id <;> simp [accepted, InputDeed.accepted?, hId]

theorem written_answered (id session : Nat) (call : Option Nat) (message : List UInt8)
    (answer : Except Fault Unit) : written id [.answered call session message answer] = [] := rfl

theorem accepted_put (id session : Nat) (bytes : List UInt8) :
    accepted id [.put session bytes] = [] := rfl

theorem written_put (id session : Nat) (bytes : List UInt8) :
    written id [.put session bytes] = if session = id then bytes else [] := List.append_nil _

/-- A scene and the calls under way in it that give sessions input, each under a number of its own. -/
structure Feeding where
  scene : Scene
  calls : Nat → Option InputCall

namespace Feeding

def deployment (w : Feeding) : Deployment := w.scene.deployment

/-- The session with an identity. -/
def session? (w : Feeding) (id : Nat) : Option Session := w.deployment.service.session? id

/-- A scene in which nobody gives input. -/
def quiet (s : Scene) : Feeding := { scene := s, calls := fun _ => none }

def withScene (w : Feeding) (scene : Scene) : Feeding := { w with scene }

def withDeployment (w : Feeding) (d : Deployment) : Feeding :=
  w.withScene (w.scene.withDeployment d)

/-- Another host, with other pipes. -/
def onHost (w : Feeding) (host : Host) : Feeding := w.withDeployment { w.deployment with host }

def withCall (w : Feeding) (i : Nat) (c : Option InputCall) : Feeding :=
  { w with calls := Function.update w.calls i c }

theorem withCall_calls (w : Feeding) (i j : Nat) (c : Option InputCall) :
    (w.withCall i c).calls j = if j = i then c else w.calls j := Function.update_apply ..

end Feeding

/-- Whether an action is one that is taken in steps here: input that is given or passed on. -/
def Action.Feeds : Action → Prop
  | .move m => m.Feeds
  | _ => False

/-- One step, and what is told of it. Who has got hold of a session can give it input whatever has
become of it. -/
inductive Feeds (w : Feeding) : Option InputDeed → Feeding → Prop
  | others {a : Action} {s : Scene} : Step w.scene a s → ¬ a.Feeds → Feeds w none (w.withScene s)
  | miss {n : ScriptName} {f : Fault} (message : List UInt8) : w.deployment.service.get n = .error f →
      Feeds w (some (.missed n message f)) w
  | turnAway {id : Nat} {x : Session} (message : List UInt8) : w.session? id = some x →
      x.input.closed = true →
      Feeds w (some (.answered none id message (.error (.inputClosed x.name.text)))) w
  | look {i id : Nat} {x : Session} (message : List UInt8) : w.calls i = none →
      w.session? id = some x → x.input.closed = false →
      Feeds w none (w.withCall i (some ⟨id, message⟩))
  | accept {i : Nat} {c : InputCall} {x : Session} {input : InputQueue} : w.calls i = some c →
      w.session? c.session = some x → x.input.send x.name.text c.message = .ok input →
      Feeds w (some (.answered (some i) c.session c.message (.ok ())))
        ((w.withDeployment (w.deployment.setSession { x with input })).withCall i none)
  | refuse {i : Nat} {c : InputCall} {x : Session} {f : Fault} : w.calls i = some c →
      w.session? c.session = some x → x.input.send x.name.text c.message = .error f →
      Feeds w (some (.answered (some i) c.session c.message (.error f))) (w.withCall i none)
  | write {id : Nat} {closeFirst : Bool} {bytes : List UInt8} {d : Deployment} :
      w.deployment.writeSeeing? id closeFirst = some (bytes, d) →
      Feeds w (some (.put id bytes)) (w.withDeployment d)

/-- What runs lead to, with all that was told, oldest first. -/
inductive FedRun (w₀ : Feeding) : List InputDeed → Feeding → Prop
  | begin : FedRun w₀ [] w₀
  | next {past : List InputDeed} {w w' : Feeding} {told : Option InputDeed} :
      FedRun w₀ past w → Feeds w told w' → FedRun w₀ (past ++ told.toList) w'

variable {w₀ w w' : Feeding} {told : Option InputDeed} {past later : List InputDeed} {i : Nat}
  {f : Fault} {config : Config} {workingDir hostname : String} {host : Host}

theorem FedRun.trans {v : Feeding} (h : FedRun v past w) (h' : FedRun w later w') :
    FedRun v (past ++ later) w' := by
  induction h' with
  | begin =>
    rw [List.append_nil]
    exact h
  | next _ hFeeds ih =>
    rw [← List.append_assoc]
    exact ih.next hFeeds

/-- Starts give no input. -/
theorem not_feeds_of_caller {a : Action} (h : a.caller? = some i) : ¬ a.Feeds := by
  cases a with
  | move => cases h
  | _ => exact id

/-- What others do is a run of which nothing is told. -/
theorem FedRun.others {s : Scene}
    (h : Reaches (fun _ a _ => ¬ a.Feeds) w.scene s) : FedRun w [] (w.withScene s) := by
  induction h with
  | refl => exact .begin
  | step _ hStep hAllowed ih => exact ih.next (.others hStep hAllowed)

-- ---------------------------------------------------------------------------
-- A call by itself
-- ---------------------------------------------------------------------------

/-- A call that has hold of a session and that nothing comes between is a run, with the answer that it
gets. -/
theorem queueInput_alone (hFree : w.calls i = none) (hSession : w.session? id = some x)
    (message : List UInt8) :
    ∃ call, FedRun w [.answered call id message (Deployment.queueInput x message w.deployment).1]
      (w.withDeployment (Deployment.queueInput x message w.deployment).2) := by
  rw [queueInput_apply, InputQueue.accept_eq]
  cases hClosed : x.input.closed with
  | true => exact ⟨none, FedRun.begin.next (.turnAway message hSession hClosed)⟩
  | false =>
    have hLook := FedRun.begin.next (.look message hFree hSession hClosed)
    have hFound := (w.withCall_calls i i (some ⟨id, message⟩)).trans (if_pos rfl)
    -- with the call gone, only the deployment differs
    have hGone : ∀ d, ((w.withCall i (some ⟨id, message⟩)).withDeployment d).withCall i none =
        w.withDeployment d := fun d => by
      show Feeding.mk _ (Function.update (Function.update w.calls i _) i none) = _
      rw [Function.update_idem, ← hFree, Function.update_eq_self]
      rfl
    refine ⟨some i, ?_⟩
    simp only [Bool.false_eq_true, if_false]
    cases hSend : x.input.send x.name.text message with
    | error f =>
      have hDone := hLook.next (.refuse hFound hSession hSend)
      exact hGone w.deployment ▸ hDone
    | ok input =>
      have hDone := hLook.next (.accept hFound hSession hSend)
      exact hGone _ ▸ hDone

/-- What a call by name comes to when nothing comes between. -/
theorem sendInput_alone (hFree : w.calls i = none) (n : ScriptName) (message : List UInt8) :
    ∃ told, FedRun w [told] (w.withDeployment (Deployment.sendInput n message w.deployment).2) ∧
      ((∃ call id, told = .answered call id message (Deployment.sendInput n message w.deployment).1) ∨
        ∃ f, told = .missed n message f ∧
          (Deployment.sendInput n message w.deployment).1 = .error f) := by
  rw [Deployment.sendInput]
  rcases withSession_cases n (fun x => Deployment.queueInput x message) w.deployment with
    ⟨x, -, hSession, hDone⟩ | ⟨f, hGet, hDone⟩
  · rw [hDone]
    obtain ⟨call, hRun⟩ := queueInput_alone hFree hSession message
    exact ⟨_, hRun, .inl ⟨call, x.id, rfl⟩⟩
  · rw [hDone]
    exact ⟨_, FedRun.begin.next (.miss message hGet), .inr ⟨f, rfl, rfl⟩⟩

-- ---------------------------------------------------------------------------
-- What steps come to for a session
-- ---------------------------------------------------------------------------

/-- What a step comes to for the input of a session: the messages that are accepted, and the bytes that
are put into the pipe. -/
inductive Inputs : List (List UInt8) → List UInt8 → Option Session → Option Session → Prop
  | absent : Inputs [] [] none none
  | begins {y : Session} : y.input = {} → Inputs [] [] none (some y)
  | goes {messages : List (List UInt8)} {bytes : List UInt8} {x y : Session} : y.name = x.name →
      x.input.Moves messages bytes y.input → Inputs messages bytes (some x) (some y)

theorem Inputs.same (o : Option Session) : Inputs [] [] o o := by
  cases o with
  | none => exact .absent
  | some x => exact .goes rfl .rests

/-- When names and inputs stay, nothing has come to any input. -/
theorem Inputs.of_keepsField (h : KeepsField (fun x => (x.name, x.input)) d d') (id : Nat) :
    Inputs [] [] (d.service.session? id) (d'.service.session? id) := by
  have hSame := h id
  cases hBefore : d.service.session? id with
  | none =>
    rw [hBefore, Option.map_none, Option.map_eq_none_iff] at hSame
    rw [hSame]
    exact .absent
  | some x =>
    rw [hBefore, Option.map_some, Option.map_eq_some_iff] at hSame
    obtain ⟨y, hAfter, hFed⟩ := hSame
    obtain ⟨hName, hInput⟩ := Prod.mk.inj hFed
    rw [hAfter]
    exact .goes hName (hInput ▸ .rests)

/-- When the input of one session moves, the others are the same. -/
theorem inputs_setSession {messages : List (List UInt8)} {input : InputQueue}
    (hSession : d.service.session? i = some x) (hMoves : x.input.Moves messages bytes input)
    (id : Nat) :
    Inputs (if i = id then messages else []) (if i = id then bytes else [])
      (d.service.session? id) ((d.setSession { x with input }).service.session? id) := by
  have hOwn : x.id = i := session?_id hSession
  rw [session?_setSession]
  by_cases hId : i = id
  · rw [if_pos hId, if_pos hId, if_pos (hId.symm.trans hOwn.symm), ← hId, hSession]
    exact .goes rfl hMoves
  · rw [if_neg hId, if_neg hId, if_neg fun hSame => hId (hOwn.symm.trans hSame.symm)]
    exact .same _

/-- What others do leaves inputs as they are, but a session may begin and a supervisor may close. -/
theorem step_inputs {s s' : Scene} {a : Action} (h : s.Sound) (hStep : Step s a s')
    (hOthers : ¬ a.Feeds) (id : Nat) :
    Inputs [] [] (s.deployment.service.session? id) (s'.deployment.service.session? id) := by
  cases step_sessions h hStep with
  | @spawns x _ hInput hUnknown hAfter =>
    rw [hAfter id]
    split
    · next hSame =>
      rw [hSame] at hUnknown
      rw [hUnknown]
      exact .begins hInput
    · exact .same _
  | @supervises i x supervision act hSession hAfter =>
    rw [hAfter id]
    split
    · next hSame =>
      rw [hSame, hSession]
      refine .goes (Session.does_name _ act) ?_
      cases act with
      | closeInput => exact .closes
      | _ => exact .rests
    · exact .same _
  | others hKeeps =>
    refine .of_keepsField (hKeeps (fun _ _ => rfl) (fun _ _ => rfl) fun m hm => ?_) id
    subst hm
    exact ⟨fun _ _ => rfl, fun hFeeds => absurd hFeeds hOthers⟩

/-- What a step comes to for the input of a session. -/
theorem Feeds.inputs (h : w.scene.Sound) (hFeeds : Feeds w told w') (id : Nat) :
    Inputs (accepted id told.toList) (written id told.toList) (w.session? id) (w'.session? id) := by
  cases hFeeds with
  | others hStep hOthers => exact step_inputs h hStep hOthers id
  | miss => exact .same _
  | turnAway => exact .same _
  | look => exact .same _
  | refuse => exact .same _
  | accept _ hSession hSend =>
    rw [Option.toList, accepted_ok, written_answered]
    have hInputs := inputs_setSession hSession (.sends hSend) id
    rw [ite_self] at hInputs
    exact hInputs
  | @write i closeFirst bytes d hWrite =>
    obtain ⟨x, input, host, hSession, hWrites, rfl⟩ := writeSeeing?_cases hWrite
    rw [Option.toList, accepted_put, written_put]
    have hInputs := inputs_setSession (d := { w.deployment with host }) hSession hWrites.moves id
    rw [ite_self] at hInputs
    exact hInputs

-- ---------------------------------------------------------------------------
-- Runs
-- ---------------------------------------------------------------------------

theorem Feeds.sound (h : w.scene.Sound) (hFeeds : Feeds w told w') : w'.scene.Sound := by
  cases hFeeds with
  | others hStep _ => exact step_sound h hStep
  | miss => exact h
  | turnAway => exact h
  | look => exact h
  | refuse => exact h
  | @accept i c x input _ hSession _ =>
    exact sound_of_sameBoard h (setSession_sameBoard h.ownIds (s := { x with input })
      (show x.life ∈ _ from life_mem hSession))
  | write hWrite =>
    obtain ⟨x, input, host, hSession, -, rfl⟩ := writeSeeing?_cases hWrite
    have hHost := host_sameBoard w.deployment host
    exact sound_of_sameBoard h (hHost.trans
      (setSession_sameBoard (hHost.ownIds h.ownIds) (s := { x with input })
        (show x.life ∈ _ from life_mem hSession)))

theorem FedRun.sound (h₀ : w₀.scene.Sound) (h : FedRun w₀ past w) : w.scene.Sound := by
  induction h with
  | begin => exact h₀
  | next _ hFeeds ih => exact hFeeds.sound ih

/-- Of a session that has not begun nothing is told; afterwards, what was accepted and what was put
agree with what it holds. -/
theorem FedRun.ledger (h : FedRun (.quiet (.initial config workingDir hostname host)) past w)
    (id : Nat) :
    (w.session? id = none → accepted id past = [] ∧ written id past = []) ∧
      ∀ x, w.session? id = some x → Ledger (accepted id past) (written id past) x.input := by
  induction h with
  | begin => exact ⟨fun _ => ⟨rfl, rfl⟩, fun x hSession => absurd hSession Scene.initial_session?⟩
  | @next past w w' told hPast hFeeds ih =>
    obtain ⟨hUnknown, hKnown⟩ := ih
    have hSound := hPast.sound (initial_sound config workingDir hostname host)
    have hInputs := hFeeds.inputs hSound id
    rw [accepted_append, written_append]
    generalize accepted id told.toList = messages at hInputs ⊢
    generalize written id told.toList = bytes at hInputs ⊢
    generalize hBefore : w.session? id = before at hInputs
    generalize w'.session? id = after at hInputs ⊢
    cases hInputs with
    | absent =>
      obtain ⟨hAccepted, hWritten⟩ := hUnknown hBefore
      rw [hAccepted, hWritten]
      exact ⟨fun _ => ⟨rfl, rfl⟩, by simp⟩
    | begins hEmpty =>
      obtain ⟨hAccepted, hWritten⟩ := hUnknown hBefore
      rw [hAccepted, hWritten]
      refine ⟨by simp, fun y hSession => ?_⟩
      obtain rfl := Option.some.inj hSession
      rw [hEmpty]
      exact .begin
    | goes _ hMoves =>
      refine ⟨by simp, fun y hSession => ?_⟩
      obtain rfl := Option.some.inj hSession
      exact (hKnown _ hBefore).moves hMoves

/-- A session stays, and what was closed, or has stopped, stays so. -/
theorem FedRun.staysShut (h₀ : w.scene.Sound) (hSession : w.session? id = some x)
    (h : FedRun w later w') :
    ∃ y, w'.session? id = some y ∧ y.name = x.name ∧
      (x.input.closed = true → y.input.closed = true) ∧
      (x.input.stopped = true → y.input.stopped = true) := by
  induction h with
  | begin => exact ⟨x, hSession, rfl, fun h => h, fun h => h⟩
  | next hPast hFeeds ih =>
    obtain ⟨y, hThere, hName, hClosed, hStopped⟩ := ih
    have hInputs := hFeeds.inputs (hPast.sound h₀) id
    rw [hThere] at hInputs
    generalize accepted id _ = messages at hInputs
    generalize written id _ = bytes at hInputs
    generalize Feeding.session? _ id = after at hInputs ⊢
    cases hInputs with
    | goes hSame hMoves =>
      obtain ⟨hStaysClosed, hStaysStopped⟩ := hMoves.staysShut
      exact ⟨_, rfl, hSame.trans hName, hStaysClosed ∘ hClosed, hStaysStopped ∘ hStopped⟩

/-- Once the input of a session is closed, no further call finds it open. -/
theorem FedRun.pending (h₀ : w.scene.Sound) (hSession : w.session? id = some x)
    (hClosed : x.input.closed = true) (h : FedRun w later w') (hCall : w'.calls i = some ⟨id, message⟩) :
    w.calls i = some ⟨id, message⟩ := by
  induction h with
  | begin => exact hCall
  | @next past v v' told hPast hFeeds ih =>
    have hKept : ∀ {j : Nat}, (v.withCall j none).calls i = some ⟨id, message⟩ →
        v.calls i = some ⟨id, message⟩ := by
      intro j hThere
      rw [Feeding.withCall_calls] at hThere
      split at hThere
      · cases hThere
      · exact hThere
    cases hFeeds with
    | others => exact ih hCall
    | miss => exact ih hCall
    | turnAway => exact ih hCall
    | accept => exact ih (hKept hCall)
    | refuse => exact ih (hKept hCall)
    | write => exact ih hCall
    | @look j session z found _ hThere hOpen =>
      rw [Feeding.withCall_calls] at hCall
      split at hCall
      · cases hCall
        obtain ⟨y, hSame, -, hStays, -⟩ := hPast.staysShut h₀ hSession
        obtain rfl := Option.some.inj (hSame.symm.trans hThere)
        cases hOpen.symm.trans (hStays hClosed)
      · exact ih hCall

/-- **What is shut stays shut.** Once the input of a session was closed, or its writer has stopped,
calls are told that it is closed. Only a call that had found it open before it was closed may still get
another answer, until the writer stops. -/
theorem FedRun.answers_when_shut (h₀ : w.scene.Sound) (hSession : w.session? id = some x)
    (hShut : x.input.IsShut) (h : FedRun w later w') {call : Option Nat} {answer : Except Fault Unit}
    (hMem : .answered call id message answer ∈ later) :
    answer = .error (.inputClosed x.name.text) ∨
      x.input.stopped = false ∧ ∃ i, call = some i ∧ w.calls i = some ⟨id, message⟩ := by
  induction h with
  | begin => cases hMem
  | @next past v v' told hPast hFeeds ih =>
    rcases List.mem_append.mp hMem with hEarlier | hNow
    · exact ih hEarlier
    rw [Option.mem_toList] at hNow
    obtain ⟨y, hThere, hName, -, hStops⟩ := hPast.staysShut h₀ hSession
    -- a writer that has not stopped now had not stopped then, so the input was closed
    have hOpen : y.input.stopped = false → x.input.stopped = false ∧ x.input.closed = true := by
      intro hRuns
      have hRan : x.input.stopped = false := by
        rw [← Bool.not_eq_true]
        intro hStopped
        cases hRuns.symm.trans (hStops hStopped)
      exact ⟨hRan, hShut.resolve_right (by rw [hRan]; exact Bool.false_ne_true)⟩
    cases hFeeds with
    | turnAway _ hSame _ =>
      cases hNow
      obtain rfl := Option.some.inj (hThere.symm.trans hSame)
      exact .inl (by rw [hName])
    | accept hCall hSame hSend =>
      cases hNow
      obtain rfl := Option.some.inj (hThere.symm.trans hSame)
      obtain ⟨hRuns, -, -⟩ := InputQueue.send_eq_ok.mp hSend
      obtain ⟨hRan, hClosed⟩ := hOpen hRuns
      exact .inr ⟨hRan, _, rfl, hPast.pending h₀ hSession hClosed hCall⟩
    | refuse hCall hSame hSend =>
      cases hNow
      obtain rfl := Option.some.inj (hThere.symm.trans hSame)
      rcases InputQueue.send_eq_error.mp hSend with ⟨-, rfl⟩ | ⟨hRuns, -, -⟩
      · exact .inl (by rw [hName])
      · obtain ⟨hRan, hClosed⟩ := hOpen hRuns
        exact .inr ⟨hRan, _, rfl, hPast.pending h₀ hSession hClosed hCall⟩
    | _ => cases hNow

-- ---------------------------------------------------------------------------
-- Input in order, or refused
-- ---------------------------------------------------------------------------

/-- No call that gives a session input waits: whatever host there is, with whatever pipes, each of its
steps can be taken at once, and the host has no say in the answer. -/
structure Feeding.Prompt (w : Feeding) (id : Nat) : Prop where
  looks : ∀ i message host, w.calls i = none →
    Feeds (w.onHost host) none ((w.onHost host).withCall i (some ⟨id, message⟩)) ∨
      ∃ answer, Feeds (w.onHost host) (some (.answered none id message answer)) (w.onHost host)
  answers : ∀ i message, w.calls i = some ⟨id, message⟩ → ∃ answer, ∀ host, ∃ d, d.host = host ∧
    Feeds (w.onHost host) (some (.answered (some i) id message answer))
      ((w.withDeployment d).withCall i none)

theorem Feeding.prompt (hSession : w.session? id = some x) : w.Prompt id := by
  constructor
  · intro i message host hFree
    cases hClosed : x.input.closed with
    | false => exact .inl (.look message hFree hSession hClosed)
    | true => exact .inr ⟨_, .turnAway message hSession hClosed⟩
  · intro i message hCall
    cases hSend : x.input.send x.name.text message with
    | ok input =>
      refine ⟨.ok (), fun host =>
        ⟨{ w.deployment with host }.setSession { x with input }, rfl, ?_⟩⟩
      exact .accept (w := w.onHost host) hCall hSession hSend
    | error f =>
      exact ⟨.error f, fun host =>
        ⟨{ w.deployment with host }, rfl, .refuse (w := w.onHost host) hCall hSession hSend⟩⟩

/-- A call that is refused changes nothing. -/
theorem Feeds.refused {deed : InputDeed} (h : Feeds w (some deed) w') (hFault : deed.fault? = some f) :
    w'.deployment = w.deployment ∧
      ∃ name, f = .inputBacklog name ∨ f = .inputClosed name ∨ f = .notRunning name := by
  cases h with
  | @miss n g _ hGet =>
    obtain rfl := Option.some.inj hFault
    rw [Service.get] at hGet
    split at hGet
    · cases hGet
    · cases hGet
      exact ⟨rfl, _, .inr (.inr rfl)⟩
  | turnAway =>
    obtain rfl := Option.some.inj hFault
    exact ⟨rfl, _, .inr (.inl rfl)⟩
  | refuse _ _ hSend =>
    obtain rfl := Option.some.inj hFault
    rcases InputQueue.send_eq_error.mp hSend with ⟨-, rfl⟩ | ⟨-, -, rfl⟩
    · exact ⟨rfl, _, .inr (.inl rfl)⟩
    · exact ⟨rfl, _, .inl rfl⟩
  | accept => cases hFault
  | write => cases hFault

/-- A call that had found the input open is accepted when there is room and a writer. -/
theorem Feeds.accepted_iff {answer : Except Fault Unit}
    (h : Feeds w (some (.answered (some i) id message answer)) w') (hSession : w.session? id = some x) :
    answer = .ok () ↔ x.input.stopped = false ∧ x.input.waiting.length < 32 := by
  cases h with
  | accept _ hSame hSend =>
    obtain rfl := Option.some.inj (hSession.symm.trans hSame)
    obtain ⟨hRuns, hRoom, -⟩ := InputQueue.send_eq_ok.mp hSend
    exact iff_of_true rfl ⟨hRuns, hRoom⟩
  | refuse _ hSame hSend =>
    obtain rfl := Option.some.inj (hSession.symm.trans hSame)
    refine iff_of_false (by simp) ?_
    rintro ⟨hRuns, hRoom⟩
    rcases InputQueue.send_eq_error.mp hSend with ⟨hStopped, -⟩ | ⟨-, hFull, -⟩
    · cases hRuns.symm.trans hStopped
    · exact absurd hRoom (Nat.not_lt.mpr hFull)

/-- The bytes that are put for a session are at the end of its pipe. -/
theorem Feeds.lookup {there : List UInt8} (h : Feeds w (some (.put id bytes)) w')
    (hSession : w.session? id = some x)
    (hThere : w.deployment.host.pipes.lookup x.pipes.input = some there) :
    w'.deployment.host.pipes.lookup x.pipes.input = some (there ++ bytes) := by
  cases h with
  | write hWrite =>
    obtain ⟨y, input, host, hSame, hWrites, rfl⟩ := writeSeeing?_cases hWrite
    obtain rfl := Option.some.inj (hSession.symm.trans hSame)
    exact hWrites.lookup hThere

/-- A session has accepted a message, which was written, and another one. -/
def fedScene : Scene :=
  let s := loggingScene
  let s := s.withDeployment ((Move.inputSession 1 [117]).perform s.deployment)
  let s := s.withDeployment ((Move.writeInput 1).perform s.deployment)
  let s := s.withDeployment ((Move.writeInput 1).perform s.deployment)
  s.withDeployment ((Move.inputSession 1 [112]).perform s.deployment)

/-- The process has ended, and the writer has found that out when it wrote the other message. -/
def unfedScene : Scene :=
  let s := fedScene
  let s := s.withDeployment ((Move.world s.deployment.host.turn.2).perform s.deployment)
  let s := s.withDeployment ((Move.writeInput 1).perform s.deployment)
  s.withDeployment ((Move.writeInput 1).perform s.deployment)

theorem unfedScene_reached :
    ∃ past, FedRun (.quiet (.initial loggingConfig "/" "host" loggingHost)) past (.quiet unfedScene) ∧
      accepted 1 past = [[117], [112]] ∧ written 1 past = [117] := by
  let reached (s : Scene) (messages : List (List UInt8)) (bytes : List UInt8) : Prop :=
    ∃ past, FedRun (.quiet (.initial loggingConfig "/" "host" loggingHost)) past (.quiet s) ∧
      accepted 1 past = messages ∧ written 1 past = bytes
  have hGive : ∀ {s messages bytes} (message), reached s messages bytes →
      (s.deployment.service.session? 1).map
        (fun x => (Deployment.queueInput x message s.deployment).1) = some (.ok ()) →
      reached (s.withDeployment ((Move.inputSession 1 message).perform s.deployment))
        (messages ++ [message]) bytes := by
    rintro s _ _ message ⟨past, hRun, rfl, rfl⟩ hAccepts
    obtain ⟨x, hSession, hAnswer⟩ := Option.map_eq_some_iff.mp hAccepts
    obtain ⟨call, hCall⟩ :=
      queueInput_alone (w := .quiet s) (i := 0) rfl hSession message
    rw [show (Deployment.queueInput x message (Feeding.quiet s).deployment).1 = .ok () from hAnswer]
      at hCall
    refine ⟨past ++ [.answered call 1 message (.ok ())], ?_, ?_, ?_⟩
    · rw [Move.perform, hSession]
      exact hRun.trans hCall
    · rw [accepted_append, accepted_ok, if_pos rfl]
    · rw [written_append, written_answered, List.append_nil]
  have hWrite : ∀ {s messages bytes} (more), reached s messages bytes →
      (s.deployment.writeSeeing? 1 true).map Prod.fst = some more →
      reached (s.withDeployment ((Move.writeInput 1).perform s.deployment)) messages
        (bytes ++ more) := by
    rintro s _ _ more ⟨past, hRun, rfl, rfl⟩ hWrites
    obtain ⟨⟨more, d⟩, hWrote, rfl⟩ := Option.map_eq_some_iff.mp hWrites
    refine ⟨past ++ [.put 1 more], ?_, ?_, ?_⟩
    · rw [Move.perform, writeInput?_eq, hWrote]
      exact hRun.next (.write (w := .quiet s) hWrote)
    · rw [accepted_append, accepted_put, List.append_nil]
    · rw [written_append, written_put, if_pos rfl]
  have hStarted : reached loggingScene [] [] :=
    ⟨[], .others (loggingScene_reached (fun _ _ _ => id) fun _ _ _ => not_feeds_of_caller), rfl, rfl⟩
  have hFed : reached fedScene [[117], [112]] [117] :=
    hGive [112] (hWrite [117] (hWrite [] (hGive [117] hStarted (by decide +kernel))
      (by decide +kernel)) (by decide +kernel)) (by decide +kernel)
  obtain ⟨past, hRun, hAccepted, hWritten⟩ := hFed
  have hEnded := hRun.next (.others (w := .quiet fedScene)
    (.move (.world fedScene.deployment.host.turn.2)) id)
  rw [Option.toList, List.append_nil] at hEnded
  exact hWrite [] (hWrite [] ⟨past, hEnded, hAccepted, hWritten⟩ (by decide +kernel))
    (by decide +kernel)

end ScriptWarden
