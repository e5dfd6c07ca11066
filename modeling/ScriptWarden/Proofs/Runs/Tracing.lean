import ScriptWarden.Proofs.Files.OwnPlaces
import ScriptWarden.Proofs.Runs.Episodes

/-!
# Tracing what a viewer is told

What a viewer has been told of a script at any time: the episodes that are over, and perhaps one
that a forwarding is at work on. This is kept as long as the viewer gives up no forwarding of the
script and comes to a session, by a start or a watch, only when none goes on.

## Results

* `Viewing.Traced` — the invariant.
* `Viewing.step_traced` — every orderly step keeps it.
-/

namespace ScriptWarden

/-- The sessions of a script that were started for the viewer and that it has not been told of. -/
@[simp] def Errand.unannounced (n : ScriptName) : Errand → List Nat
  | .holding m id false => if m = n then [id] else []
  | .announcing session _ => if session.name = n then [session.id] else []
  | .idle | .answering _ | .starting _ _ | .holding _ _ true | .attaching _ => []

/-- Whether a forwarding is one of a script and goes on. -/
def Watch.isGoing (n : ScriptName) (w : Watch) : Bool := w.name == n && Connection.isActive w

/-- A forwarding that begins replaces none that goes on, if there is none of its script. -/
theorem Connection.filter_replacing (c : Connection) (w : Watch) {n : ScriptName}
    (hOthers : w.name = n → c.watches.filter (Watch.isGoing n) = []) :
    (c.replacing w).watches.filter (Watch.isGoing n) =
      (w :: c.watches).filter (Watch.isGoing n) := by
  have hRest : ((c.watches.filter isActive).filter (·.name != w.name)).filter (Watch.isGoing n) =
      c.watches.filter (Watch.isGoing n) := by
    rw [List.filter_filter, List.filter_filter]
    refine List.filter_congr fun x hMem => ?_
    cases hGoing : x.isGoing n with
    | false => rfl
    | true =>
      obtain ⟨hName, hActive⟩ : x.name = n ∧ isActive x = true := by
        simpa [Watch.isGoing] using hGoing
      have hOther : x.name ≠ w.name := by
        intro hSame
        have hAmong := List.mem_filter.mpr ⟨hMem, hGoing⟩
        rw [hOthers (hSame.symm.trans hName)] at hAmong
        cases hAmong
      simp [hActive, hOther]
  rw [replacing, List.filter_cons, List.filter_cons, hRest]

namespace Viewing

/-- All events for a viewer, those it has taken and those that are queued. -/
def told (v : Viewing) : List Event := v.taken ++ v.connection.outbound

/-- What a viewer is told of a script. -/
def stream (v : Viewing) (n : ScriptName) : List Event :=
  v.told.filter fun e => e.script? == some n.text

/-- The forwardings of a script that go on. -/
def going (v : Viewing) (n : ScriptName) : List Watch :=
  v.forwardings.filter (Watch.isGoing n)

/-- The events of a script that wait for room in the queue. -/
def due (v : Viewing) (n : ScriptName) : List Event := (v.going n).flatMap (·.forwarder.due)

/-- The sessions of a script that a viewer has started, in order. -/
def started (v : Viewing) (n : ScriptName) : List Nat := (v.own.filter (·.1 == n)).map (·.2)

/-- Whether a request comes to a session of a script: a start that takes the slot, or a watch of the
session that there is. -/
def Admits (v : Viewing) (n : ScriptName) (a : Act) : Prop :=
  a = .start n ∧ (Deployment.reserve n v.deployment).1 = .ok () ∨
    a = .watch n ∧ ∃ session, v.deployment.service.get n = .ok session

/-- A viewer gives up no forwarding of a script, and comes to a session only when none goes on. -/
def Orderly (n : ScriptName) (v : Viewing) (a : Act) : Prop :=
  a ≠ .unwatch n ∧ a ≠ .close ∧ (v.Admits n a → v.going n = [])

-- ---------------------------------------------------------------------------
-- The invariant
-- ---------------------------------------------------------------------------

/-- What a viewer has been told of a script are episodes that are over and perhaps one that a
forwarding is at work on. -/
structure Traced (v : Viewing) (n : ScriptName) (done : List Episode) (current : Option Episode) :
    Prop where
  coherent : v.Coherent
  left : ∀ w ∈ v.leaving, w.name ≠ n
  told : v.stream n ++ v.due n = (done ++ current.toList).flatMap Episode.events
  started : v.started n = ((done ++ current.toList).filter (!·.asked)).map (·.session.id) ++
    v.errand.unannounced n
  named : ∀ g ∈ done ++ current.toList, g.session.name = n
  finished : ∀ g ∈ done, g.forwarder.isOver = true ∧ ∃ rest, g.Since rest v.deployment
  resting : current = none → v.going n = []
  carried : ∀ g ∈ current, ∃ w, v.going n = [w] ∧ g.Carries w v.deployment
  /-- The handler is at a new session only when nothing is forwarded. -/
  calm : v.errand.Concerns n → v.going n = []
  /-- A session that is to be announced can be forwarded from where the handler subscribed. -/
  joined : ∀ {session s}, v.errand = .announcing session s → session.name = n →
    ∃ g : Episode, g.session = session ∧ g.subscription = s ∧ g.asked = false ∧
      g.Carries g.beginning v.deployment ∧ g.forwarder = g.beginning.forwarder

variable {v v' : Viewing} {n : ScriptName} {done : List Episode} {current : Option Episode}
  {touched : Nat → Nat → Prop} {a : Act}

theorem opened_traced (s : Scene) (n : ScriptName) : (opened s).Traced n [] none where
  coherent := opened_coherent s
  left := by simp [opened]
  told := rfl
  started := rfl
  named := by simp
  finished := by simp
  resting _ := rfl
  carried := by simp
  calm := by simp [opened, Errand.Concerns]
  joined := by simp [opened]

/-- The only one that meets a condition becomes another. -/
theorem filter_replace {α : Type} {p : α → Bool} {before after : List α} {x y : α} (hx : p x = true)
    (h : (before ++ x :: after).filter p = [x]) :
    (before ++ y :: after).filter p = if p y then [y] else [] := by
  rw [List.filter_append, List.filter_cons_of_pos hx] at h
  have hLength := congrArg List.length h
  rw [List.length_append, List.length_cons, List.length_singleton] at hLength
  have hBefore : before.filter p = [] := List.length_eq_zero_iff.mp (by omega)
  have hAfter : after.filter p = [] := List.length_eq_zero_iff.mp (by omega)
  rw [List.filter_append, List.filter_cons, hBefore, hAfter, List.nil_append]

theorem mem_going {w : Watch} : w ∈ v.going n ↔
    w ∈ v.forwardings ∧ w.name = n ∧ Connection.isActive w = true := by
  simp [going, Watch.isGoing]

/-- A step of the only forwarding of a script that goes on leaves it, or none. -/
theorem going_forward {before after : List Watch} {w w' : Watch} {e : Option Event} {room : Bool}
    {d : Deployment} (hGoing : v.going n = [w])
    (hParts : v.connection.watches = before ++ w :: after)
    (hForward : Connection.forward? room w v.deployment = some (e, w', d))
    (hErrand : v'.errand = v.errand) (hWatches : v'.connection.watches = before ++ w' :: after) :
    v'.going n = if Connection.isActive w' then [w'] else [] := by
  obtain ⟨-, hName, hActive⟩ := mem_going.mp (hGoing ▸ List.mem_singleton_self w)
  obtain ⟨hSame, -, -⟩ := Connection.forward?_same hForward
  have hHere : w.isGoing n = true := by simp [Watch.isGoing, hName, hActive]
  have hOne : (v.errand.watch?.toList ++ before ++ w :: after).filter (Watch.isGoing n) = [w] := by
    rw [← hGoing, going, forwardings, hParts, List.append_assoc]
  rw [going, forwardings, hErrand, hWatches, ← List.append_assoc, filter_replace hHere hOne]
  simp [Watch.isGoing, hSame, hName]

namespace Traced

/-- While the handler is at a new session no episode goes on. -/
theorem current_eq_none (h : v.Traced n done current) (hNone : v.going n = []) :
    current = none := by
  cases current with
  | none => rfl
  | some g =>
    obtain ⟨w, hGoing, -⟩ := h.carried g rfl
    cases hNone.symm.trans hGoing

/-- What is over stays so. -/
theorem finished_develops (h : v.Traced n done current)
    (hDevelops : Develops touched v.deployment v'.deployment) :
    ∀ g ∈ done, g.forwarder.isOver = true ∧ ∃ rest, g.Since rest v'.deployment := by
  intro g hMem
  obtain ⟨hOver, rest, hSince⟩ := h.finished g hMem
  obtain ⟨more, hLater, -⟩ := hSince.develops hDevelops
  exact ⟨hOver, _, hLater⟩

/-- Another episode of the script. -/
theorem named_concat (h : v.Traced n done current) {g : Episode} (hName : g.session.name = n) :
    ∀ x ∈ done ++ [g], x.session.name = n := by
  intro x hMem
  rcases List.mem_append.mp hMem with hDone | hLast
  · exact h.named x (List.mem_append_left _ hDone)
  · rw [List.mem_singleton.mp hLast]
    exact hName

/-- While a forwarding of the script goes on the handler is at no new session of it. -/
theorem not_concerns (h : v.Traced n done current) {w : Watch} (hGoing : v.going n = [w]) :
    ¬ v.errand.Concerns n := fun hConcerns => by
  cases (h.calm hConcerns).symm.trans hGoing

/-- A step that adds no event of the script, and begins and ends no forwarding of it. -/
theorem quiet (h : v.Traced n done current) (hCoherent : v'.Coherent)
    (hDevelops : Develops touched v.deployment v'.deployment)
    (hAway : ∀ {id r}, touched id r → v.Knows id n → ¬ v.Holds id r)
    (hStream : v'.stream n = v.stream n) (hGoing : v'.going n = v.going n)
    (hLeft : ∀ w ∈ v'.leaving, w.name ≠ n)
    (hStarted : ∃ more, v'.started n = v.started n ++ more ∧
      v'.errand.unannounced n = v.errand.unannounced n ++ more)
    (hCalm : v'.errand.Concerns n → v.going n = [])
    (hJoined : ∀ {session s}, v'.errand = .announcing session s → session.name = n →
      v.errand = .announcing session s ∨
      ∃ g : Episode, g.session = session ∧ g.subscription = s ∧ g.asked = false ∧
        g.Carries g.beginning v'.deployment ∧ g.forwarder = g.beginning.forwarder) :
    ∃ current', v'.Traced n done current' := by
  have hOver := h.finished_develops hDevelops
  have hJoined' : ∀ {session s}, v'.errand = .announcing session s → session.name = n →
      ∃ g : Episode, g.session = session ∧ g.subscription = s ∧ g.asked = false ∧
        g.Carries g.beginning v'.deployment ∧ g.forwarder = g.beginning.forwarder := by
    intro session s hAt hName
    rcases hJoined hAt hName with hBefore | hNew
    · obtain ⟨g, rfl, rfl, hAsked, hCarries, hForwarder⟩ := h.joined hBefore hName
      have hFar : ¬ touched g.beginning.session g.beginning.receiver := fun hTouched =>
        hAway hTouched (hName ▸ h.coherent.joined hBefore) (Or.inr ⟨_, _, hBefore, rfl, rfl⟩)
      obtain ⟨more, hLater, hSame⟩ := hCarries.develops hDevelops hFar
      exact ⟨g.later more, rfl, rfl, hAsked, hLater, hSame.trans hForwarder⟩
    · exact hNew
  obtain ⟨more, hMore, hUnannounced⟩ := hStarted
  have hDue : v'.due n = v.due n := by rw [due, due, hGoing]
  cases current with
  | none =>
    refine ⟨none, hCoherent, hLeft, ?_, ?_, h.named, hOver, fun _ => ?_, by simp, fun hAt => ?_,
      hJoined'⟩
    · rw [hStream, hDue, h.told]
    · rw [hMore, hUnannounced, h.started, List.append_assoc]
    · rw [hGoing, h.resting rfl]
    · rw [hGoing, hCalm hAt]
  | some g =>
    obtain ⟨w, hW, hCarries⟩ := h.carried g rfl
    obtain ⟨hMem, hName, -⟩ := mem_going.mp (hW ▸ List.mem_singleton_self w)
    have hFar : ¬ touched w.session w.receiver := fun hTouched =>
      hAway hTouched (hName ▸ (h.coherent.watched w (List.mem_append_left _ hMem)).1)
        (Or.inl ⟨w, List.mem_append_left _ hMem, rfl, rfl⟩)
    obtain ⟨acts, hLater, hSame⟩ := hCarries.develops hDevelops hFar
    have hEvents : (g.later acts).events = g.events := by
      rw [Episode.events, hSame]
      rfl
    refine ⟨some (g.later acts), hCoherent, hLeft, ?_, ?_,
      h.named_concat (g := g.later acts) (h.named g (by simp)), hOver, (by rintro ⟨⟩), ?_,
      fun hAt => ?_, hJoined'⟩
    · rw [hStream, hDue, h.told]
      simp [hEvents]
    · rw [hMore, hUnannounced, h.started, ← List.append_assoc]
      simp [Episode.later, List.filter_cons]
      split <;> rfl
    · rintro x ⟨⟩
      exact ⟨w, hGoing.trans hW, hLater⟩
    · rw [hGoing, hCalm hAt]

/-- A step of the handler that begins no forwarding. -/
theorem errand (h : v.Traced n done current) (hCoherent : v'.Coherent)
    (hDevelops : Develops untouched v.deployment v'.deployment)
    (hConnection : v'.connection = v.connection) (hLeaving : v'.leaving = v.leaving)
    (hTaken : v'.taken = v.taken) (hWatch : v.errand.watch? = none)
    (hWatch' : v'.errand.watch? = none)
    (hStarted : ∃ more, v'.started n = v.started n ++ more ∧
      v'.errand.unannounced n = v.errand.unannounced n ++ more)
    (hCalm : v'.errand.Concerns n → v.going n = [])
    (hJoined : ∀ {session s}, v'.errand = .announcing session s → session.name = n →
      v.errand = .announcing session s ∨
      ∃ g : Episode, g.session = session ∧ g.subscription = s ∧ g.asked = false ∧
        g.Carries g.beginning v'.deployment ∧ g.forwarder = g.beginning.forwarder) :
    ∃ current', v'.Traced n done current' := by
  refine h.quiet hCoherent hDevelops (fun hTouched => hTouched.elim) ?_ ?_ (hLeaving ▸ h.left)
    hStarted hCalm hJoined
  · rw [stream, stream, Viewing.told, Viewing.told, hConnection, hTaken]
  · rw [going, going, forwardings, forwardings, hConnection, hWatch, hWatch']

/-- A step of the handler that neither comes to a session nor is at a new one before. -/
theorem waits (h : v.Traced n done current) (hCoherent : v'.Coherent)
    (hDevelops : Develops untouched v.deployment v'.deployment)
    (hConnection : v'.connection = v.connection) (hLeaving : v'.leaving = v.leaving)
    (hTaken : v'.taken = v.taken) (hOwn : v'.own = v.own) {x : Errand} (hAt : v.errand = x)
    (hWatch : x.watch? = none) (hNone : x.unannounced n = [])
    (hWatch' : v'.errand.watch? = none) (hNone' : v'.errand.unannounced n = [])
    (hAnnouncing : ∀ {session s}, v'.errand ≠ .announcing session s)
    (hCalm : v'.errand.Concerns n → v.going n = []) : ∃ current', v'.Traced n done current' := by
  refine h.errand hCoherent hDevelops hConnection hLeaving hTaken (by rw [hAt, hWatch]) hWatch'
    ⟨[], ?_, ?_⟩ hCalm fun hNow => absurd hNow hAnnouncing
  · rw [Viewing.started, hOwn, List.append_nil]
    rfl
  · rw [hNone', hAt, hNone, List.append_nil]

/-- A step that leaves the handler at what it is at. -/
theorem sameErrand (h : v.Traced n done current) (hCoherent : v'.Coherent)
    (hDevelops : Develops touched v.deployment v'.deployment)
    (hAway : ∀ {id r}, touched id r → v.Knows id n → ¬ v.Holds id r)
    (hErrand : v'.errand = v.errand) (hOwn : v'.own = v.own)
    (hStream : v'.stream n = v.stream n) (hGoing : v'.going n = v.going n)
    (hLeft : ∀ w ∈ v'.leaving, w.name ≠ n) : ∃ current', v'.Traced n done current' := by
  refine h.quiet hCoherent hDevelops hAway hStream hGoing hLeft ⟨[], ?_, ?_⟩
    (fun hAt => h.calm (hErrand ▸ hAt)) fun hAt _ => Or.inl (hErrand ▸ hAt)
  · rw [Viewing.started, hOwn, List.append_nil]
    rfl
  · rw [hErrand, List.append_nil]

/-- An episode begins when no other goes on. -/
theorem begins (h : v.Traced n done current) {g : Episode} (hCoherent : v'.Coherent)
    (hDevelops : Develops untouched v.deployment v'.deployment) (hNone : v.going n = [])
    (hErrand : v'.errand = .attaching g.beginning)
    (hWatches : v'.connection.watches = v.connection.watches) (hWatch : v.errand.watch? = none)
    (hLeaving : v'.leaving = v.leaving) (hOwn : v'.own = v.own)
    (hStream : v'.stream n = v.stream n ++ g.opening) (hName : g.session.name = n)
    (hUnannounced : v.errand.unannounced n = if g.asked then [] else [g.session.id])
    (hCarries : g.Carries g.beginning v'.deployment)
    (hForwarder : g.forwarder = g.beginning.forwarder) :
    v'.Traced n done (some g) := by
  obtain rfl := h.current_eq_none hNone
  have hBegins : v'.going n = [g.beginning] := by
    have hOthers : v.connection.watches.filter (Watch.isGoing n) = [] := by
      rwa [going, forwardings, hWatch, Option.toList_none, List.nil_append] at hNone
    have hActive : g.beginning.isGoing n = true := by
      rw [Watch.isGoing, Bool.and_eq_true]
      exact ⟨by simpa [Episode.beginning, Watch.begin] using hName, Watch.begin_isActive _ _ _⟩
    rw [going, forwardings, hErrand, hWatches, Errand.watch?, Option.toList_some,
      List.singleton_append, List.filter_cons, if_pos hActive, hOthers]
  refine ⟨hCoherent, hLeaving ▸ h.left, ?_, ?_, h.named_concat hName,
    h.finished_develops hDevelops, (by rintro ⟨⟩), ?_, ?_, ?_⟩
  · have hTold := h.told
    rw [due, hNone, List.flatMap_nil, List.append_nil, Option.toList_none, List.append_nil] at hTold
    rw [hStream, hTold, due, hBegins, Option.toList_some, List.flatMap_append,
      List.flatMap_singleton, List.flatMap_singleton, Episode.events, hForwarder, List.append_assoc]
  · have hStarted := h.started
    rw [hUnannounced, Option.toList_none, List.append_nil] at hStarted
    rw [Viewing.started, hOwn, ← Viewing.started, hStarted, hErrand]
    cases hAsked : g.asked <;> simp [hAsked]
  · rintro x ⟨⟩
    exact ⟨_, hBegins, hCarries⟩
  · rw [hErrand]
    exact False.elim
  · rw [hErrand]
    rintro _ _ ⟨⟩

/-- A step of the forwarding of the script. When it is over its episode is done. -/
theorem forwarded (h : v.Traced n done current) {before after : List Watch} {w w' : Watch}
    {e : Option Event} {d : Deployment} (hParts : v.connection.watches = before ++ w :: after)
    (hForward : Connection.forward? v.connection.hasRoom w v.deployment = some (e, w', d))
    (hName : w.name = n) (hCoherent : v'.Coherent) (hDeployment : v'.deployment = d)
    (hErrand : v'.errand = v.errand) (hLeaving : v'.leaving = v.leaving)
    (hTaken : v'.taken = v.taken) (hOwn : v'.own = v.own)
    (hOutbound : v'.connection.outbound = v.connection.outbound ++ e.toList)
    (hWatches : v'.connection.watches = before ++ w' :: after) :
    ∃ done' current', v'.Traced n done' current' := by
  have hActive := Connection.isActive_of_forward? hForward
  have hDevelops :
      Develops (fun i j => i = w.session ∧ j = w.receiver) v.deployment v'.deployment :=
    hDeployment ▸ Connection.forward?_develops hForward
  have hAmong : w ∈ v.forwardings := by simp [forwardings, hParts]
  -- the episode at work is that of this forwarding
  have hMem : w ∈ v.going n := mem_going.mpr ⟨hAmong, hName, hActive⟩
  cases current with
  | none =>
    rw [h.resting rfl] at hMem
    cases hMem
  | some g =>
  obtain ⟨w₀, hGoing, hCarries⟩ := h.carried g rfl
  obtain rfl : w = w₀ := List.mem_singleton.mp (hGoing ▸ hMem)
  obtain ⟨more, new, hEvents, hQueue, hOn, hDone⟩ := hCarries.forward hForward
  have hGoing' := going_forward hGoing hParts hForward hErrand hWatches
  have hStream : v'.stream n = v.stream n ++ e.toList := by
    obtain ⟨-, hLabels⟩ := Connection.forward?_labelled hForward
      (h.coherent.watched w (List.mem_append_left _ hAmong)).2
    have hEvent : e.toList.filter (fun e => e.script? == some n.text) = e.toList := by
      refine List.filter_eq_self.mpr fun x hMem => ?_
      rw [hLabels x (by simpa using hMem), hName]
      exact BEq.rfl
    rw [stream, Viewing.told, hTaken, hOutbound, ← List.append_assoc, List.filter_append, hEvent]
    rfl
  have hTold : v.stream n ++ e.toList ++ w'.forwarder.due =
      (done ++ [g.later more]).flatMap Episode.events := by
    have hBefore := h.told
    rw [due, hGoing, List.flatMap_singleton, Option.toList_some, List.flatMap_append,
      List.flatMap_singleton] at hBefore
    rw [List.append_assoc, hQueue, ← List.append_assoc, hBefore, List.append_assoc, ← hEvents,
      List.flatMap_append, List.flatMap_singleton]
  have hOver := h.finished_develops hDevelops
  have hStarted : v'.started n =
      ((done ++ [g.later more]).filter (!·.asked)).map (·.session.id) ++
        v'.errand.unannounced n := by
    have hBefore := h.started
    rw [Viewing.started, hOwn, ← Viewing.started, hErrand, hBefore]
    cases hAsked : g.asked <;> simp [Episode.later, hAsked]
  have hNamed := h.named_concat (g := g.later more) (h.named g (by simp))
  have hCalm : ¬ v'.errand.Concerns n := hErrand ▸ h.not_concerns hGoing
  have hAnnouncing : ∀ {session s}, v'.errand = .announcing session s → session.name ≠ n :=
    fun hAt hScript => hCalm (by rw [hAt]; exact hScript)
  cases hGoesOn : Connection.isActive w' with
  | true =>
    rw [hGoesOn, if_pos rfl] at hGoing'
    refine ⟨done, some (g.later more), hCoherent, hLeaving ▸ h.left, ?_, hStarted, hNamed, hOver,
      (by rintro ⟨⟩), ?_, fun hAt => absurd hAt hCalm,
      fun hAt hScript => absurd hScript (hAnnouncing hAt)⟩
    · rw [hStream, due, hGoing', List.flatMap_singleton]
      exact hTold
    · rintro x ⟨⟩
      exact ⟨w', hGoing', hDeployment ▸ hOn hGoesOn⟩
  | false =>
    rw [hGoesOn, if_neg Bool.false_ne_true] at hGoing'
    obtain ⟨hOver', rest, hSince⟩ := hDone hGoesOn
    have hNothing : w'.forwarder.due = [] := by
      simpa using (Connection.isActive_eq_false.mp hGoesOn).2
    refine ⟨done ++ [g.later more], none, hCoherent, hLeaving ▸ h.left, ?_, ?_, ?_, fun x hx => ?_,
      fun _ => hGoing', by simp, fun hAt => absurd hAt hCalm,
      fun hAt hScript => absurd hScript (hAnnouncing hAt)⟩
    · rw [hNothing, List.append_nil] at hTold
      rw [hStream, due, hGoing', List.flatMap_nil, List.append_nil, Option.toList_none,
        List.append_nil]
      exact hTold
    · rw [Option.toList_none, List.append_nil]
      exact hStarted
    · rw [Option.toList_none, List.append_nil]
      exact hNamed
    · rcases List.mem_append.mp hx with hBefore | hLast
      · exact hOver x hBefore
      · obtain rfl := List.mem_singleton.mp hLast
        exact ⟨hOver', rest, hDeployment ▸ hSince⟩

end Traced

-- ---------------------------------------------------------------------------
-- Steps
-- ---------------------------------------------------------------------------

/-- The hubs of all sessions have been acted on since they were new, and are open. -/
def HubsKnown (v : Viewing) : Prop :=
  ∀ {id : Nat} {session : Session}, v.deployment.service.session? id = some session →
    ∃ limit before, session.hub = (Hub.new limit).run before ∧ Hub.Action.close ∉ before

/-- Events of other scripts are not told of a script. -/
theorem stream_queued {m : Option String} {events : List Event} (hTaken : v'.taken = v.taken)
    (hOutbound : v'.connection.outbound = v.connection.outbound ++ events)
    (hEvents : ∀ e ∈ events, e.script? = m) (hOther : m ≠ some n.text) :
    v'.stream n = v.stream n := by
  have hNone : events.filter (fun e => e.script? == some n.text) = [] := by
    refine List.filter_eq_nil_iff.mpr fun e hMem => ?_
    rw [hEvents e hMem]
    simpa using hOther
  rw [stream, stream, told, told, hTaken, hOutbound, ← List.append_assoc, List.filter_append,
    hNone, List.append_nil]

/-- A script keeps its forwardings when those of another are given up. -/
theorem filter_unwatched {m : ScriptName} (hOther : m ≠ n) (watches : List Watch) :
    (watches.filter (·.name != m)).filter (Watch.isGoing n) = watches.filter (Watch.isGoing n) := by
  rw [List.filter_filter]
  refine List.filter_congr fun w _ => ?_
  by_cases hName : w.name = n <;> simp [Watch.isGoing, hName, Ne.symm hOther]

/-- If the forwarding that is to begin is of a script, no other one is. -/
theorem Traced.alone (h : v.Traced n done current) {w : Watch} (hAt : v.errand = .attaching w)
    (hName : w.name = n) : v.connection.watches.filter (Watch.isGoing n) = [] := by
  have hHere : w.isGoing n = true := by simp [Watch.isGoing, hName, h.coherent.beginning hAt]
  have hCons : v.going n = w :: v.connection.watches.filter (Watch.isGoing n) := by
    rw [going, forwardings, hAt]
    exact List.filter_cons_of_pos hHere
  cases current with
  | none => cases (h.resting rfl).symm.trans hCons
  | some g =>
    obtain ⟨w₀, hGoing, -⟩ := h.carried g rfl
    exact (List.cons.inj (hCons.symm.trans hGoing)).2

theorem text_ne {m : ScriptName} (h : m ≠ n) : some m.text ≠ some n.text :=
  fun hSame => h (ScriptName.eq_of_text (Option.some.inj hSame))

/-- A forwarding touches no session of another script. -/
theorem knows_ne {w : Watch} (hKnows : v.Knows w.session w.name) (hName : w.name ≠ n) {id r : Nat}
    (hTouched : id = w.session ∧ r = w.receiver) : v.Knows id n → ¬ v.Holds id r :=
  fun hOther => absurd (hKnows.unique (hTouched.1 ▸ hOther)) hName

namespace Traced

/-- The handler subscribes to a session that it started. -/
theorem subscribesStarted (h : v.Traced n done current) (hHubs : v.HubsKnown) {m : ScriptName}
    {id : Nat} {session : Session} (hAt : v.errand = .holding m id false)
    (hSession : v.deployment.service.session? id = some session) (hCoherent : v'.Coherent)
    (hDevelops : Develops untouched v.deployment v'.deployment)
    (hDeployment : v'.deployment = (Deployment.subscribe session v.deployment).2)
    (hConnection : v'.connection = v.connection) (hLeaving : v'.leaving = v.leaving)
    (hTaken : v'.taken = v.taken) (hOwn : v'.own = v.own)
    (hErrand : v'.errand = .announcing session.subscribe.2 session.subscribe.1) :
    ∃ current', v'.Traced n done current' := by
  obtain ⟨limit, earlier, hHub, hOpen⟩ := hHubs hSession
  have hId : session.id = id := session?_id hSession
  have hName : session.name = m :=
    Knows.unique ⟨session, hSession, rfl⟩ (h.coherent.held hAt)
  refine h.errand hCoherent hDevelops hConnection hLeaving hTaken (by rw [hAt]; rfl)
    (by rw [hErrand]; rfl) ⟨[], ?_, ?_⟩ (fun hScript => h.calm ?_) fun hNow _ => Or.inr ?_
  · rw [Viewing.started, hOwn, List.append_nil]
    rfl
  · rw [hErrand, hAt, List.append_nil, ← hName, ← hId]
    rfl
  · rw [hErrand] at hScript
    rw [hAt, ← hName]
    exact hScript
  · rw [hErrand] at hNow
    cases hNow
    exact ⟨_, rfl, rfl, rfl,
      hDeployment ▸ (Episode.subscribe_since hSession hHub hOpen false).carries rfl⟩

/-- The handler subscribes to a session that is watched, which begins an episode of its script. -/
theorem subscribesWatched (h : v.Traced n done current) (hHubs : v.HubsKnown) {m : ScriptName}
    {id : Nat} {session : Session} (hAt : v.errand = .holding m id true)
    (hSession : v.deployment.service.session? id = some session) (hCoherent : v'.Coherent)
    (hDevelops : Develops untouched v.deployment v'.deployment)
    (hDeployment : v'.deployment = (Deployment.subscribe session v.deployment).2)
    (hConnection : v'.connection = v.connection) (hLeaving : v'.leaving = v.leaving)
    (hTaken : v'.taken = v.taken) (hOwn : v'.own = v.own)
    (hErrand : v'.errand = .attaching
      (Watch.begin session.subscribe.2 session.subscribe.1 (some session.watchingEvent))) :
    ∃ current', v'.Traced n done current' := by
  obtain ⟨limit, earlier, hHub, hOpen⟩ := hHubs hSession
  have hName : session.name = m :=
    Knows.unique ⟨session, hSession, rfl⟩ (h.coherent.held hAt)
  have hStream : v'.stream n = v.stream n := by
    rw [stream, stream, Viewing.told, Viewing.told, hConnection, hTaken]
  by_cases hScript : m = n
  · let g : Episode := ⟨session.subscribe.2, session.subscribe.1, true, []⟩
    obtain ⟨hCarries, hForwarder⟩ : g.Carries g.beginning _ ∧ g.forwarder = _ :=
      (Episode.subscribe_since hSession hHub hOpen true).carries rfl
    have hNone : v.going n = [] := h.calm (by rw [hAt]; exact hScript)
    exact ⟨some g, h.begins hCoherent hDevelops hNone hErrand (by rw [hConnection])
      (by rw [hAt]; rfl) hLeaving hOwn (hStream.trans (List.append_nil _).symm)
      (hName.trans hScript) (by rw [hAt]; rfl) (hDeployment ▸ hCarries) hForwarder⟩
  · refine h.quiet hCoherent hDevelops (fun hTouched => hTouched.elim) hStream ?_
      (hLeaving ▸ h.left) ⟨[], ?_, ?_⟩ (by rw [hErrand]; exact False.elim)
      (by rw [hErrand]; rintro _ _ ⟨⟩)
    · have hOther : ((Watch.begin session.subscribe.2 session.subscribe.1
          (some session.watchingEvent)).name == n) = false :=
        beq_eq_false_iff_ne.mpr fun hSame => hScript (hName.symm.trans hSame)
      simp [going, forwardings, Watch.isGoing, hErrand, hConnection, hAt, hOther]
    · rw [Viewing.started, hOwn, List.append_nil]
      rfl
    · rw [hErrand, hAt]
      rfl

/-- The handler announces a session, which begins an episode of its script. -/
theorem announces (h : v.Traced n done current) {session : Session} {s : Subscription}
    (hAt : v.errand = .announcing session s) (hCoherent : v'.Coherent)
    (hDeployment : v'.deployment = v.deployment)
    (hConnection : v'.connection = v.connection.send session.startedEvent)
    (hLeaving : v'.leaving = v.leaving) (hTaken : v'.taken = v.taken) (hOwn : v'.own = v.own)
    (hErrand : v'.errand = .attaching (Watch.begin session s none)) :
    ∃ current', v'.Traced n done current' := by
  have hDevelops : Develops untouched v.deployment v'.deployment := hDeployment ▸ .refl _
  have hWatches : v'.connection.watches = v.connection.watches := by
    rw [hConnection, Connection.send_watches]
  have hOutbound : v'.connection.outbound = v.connection.outbound ++ [session.startedEvent] := by
    rw [hConnection, Connection.send_outbound]
  by_cases hScript : session.name = n
  · obtain ⟨g, rfl, rfl, hAsked, hCarries, hForwarder⟩ := h.joined hAt hScript
    have hNone : v.going n = [] := h.calm (by rw [hAt]; exact hScript)
    refine ⟨some g, h.begins hCoherent hDevelops hNone ?_ hWatches (by rw [hAt]; rfl) hLeaving hOwn
      ?_ hScript ?_ (hDeployment ▸ hCarries) hForwarder⟩
    · rw [hErrand, Episode.beginning, Episode.acknowledgement, hAsked]
      rfl
    · have hEvent : g.session.startedEvent.script? = some n.text := by rw [← hScript]; rfl
      rw [stream, Viewing.told, hTaken, hOutbound, ← List.append_assoc, List.filter_append,
        Episode.opening, hAsked]
      simp [stream, Viewing.told, hEvent]
    · simp [hAt, hAsked, hScript]
  · have hEvents : ∀ e ∈ [session.startedEvent], e.script? = some session.name.text := by
      simp [Session.startedEvent, Event.script?]
    refine h.quiet hCoherent hDevelops (fun hTouched => hTouched.elim)
      (stream_queued hTaken hOutbound hEvents (text_ne hScript)) ?_ (hLeaving ▸ h.left) ⟨[], ?_, ?_⟩
      (by rw [hErrand]; exact False.elim) (by rw [hErrand]; rintro _ _ ⟨⟩)
    · have hOther : ((Watch.begin session s none).name == n) = false := by
        simpa [Watch.begin] using hScript
      simp [going, forwardings, Watch.isGoing, hErrand, hWatches, hAt, hOther]
    · rw [Viewing.started, hOwn, List.append_nil]
      rfl
    · simp [hErrand, hAt, hScript]

/-- A forwarding takes the place of those of its script, none of which goes on. -/
theorem attaches (h : v.Traced n done current) {w : Watch} (hAt : v.errand = .attaching w)
    (hCoherent : v'.Coherent) (hDeployment : v'.deployment = v.deployment)
    (hConnection : v'.connection = v.connection.replacing w)
    (hLeaving : v'.leaving = v.leaving ++ v.connection.replaced w.name)
    (hTaken : v'.taken = v.taken) (hOwn : v'.own = v.own) (hErrand : v'.errand = .idle) :
    ∃ current', v'.Traced n done current' := by
  have hDevelops : Develops untouched v.deployment v'.deployment := hDeployment ▸ .refl _
  refine h.quiet hCoherent hDevelops (fun hTouched => hTouched.elim) ?_ ?_
    (fun x hMem hScript => ?_) ⟨[], ?_, ?_⟩ (by rw [hErrand]; exact False.elim)
    (by rw [hErrand]; rintro _ _ ⟨⟩)
  · rw [stream, stream, Viewing.told, Viewing.told, hConnection, hTaken]
    rfl
  · have hKept := v.connection.filter_replacing w (h.alone hAt)
    rw [going, forwardings, going, forwardings, hAt, hErrand, hConnection]
    exact hKept
  · rcases List.mem_append.mp (hLeaving ▸ hMem) with hBefore | hGone
    · exact h.left x hBefore hScript
    · simp only [Connection.replaced, List.mem_filter, beq_iff_eq] at hGone
      obtain ⟨⟨hWatch, hGoes⟩, hName⟩ := hGone
      have hAmong : x ∈ v.connection.watches.filter (Watch.isGoing n) :=
        List.mem_filter.mpr ⟨hWatch, by simp [Watch.isGoing, hScript, hGoes]⟩
      rw [h.alone hAt (hName.symm.trans hScript)] at hAmong
      cases hAmong
  · rw [Viewing.started, hOwn, List.append_nil]
    rfl
  · rw [hErrand, hAt]
    rfl

/-- A step of a forwarding of another script, whether it has been stopped or not. -/
theorem forwardedOther (h : v.Traced n done current) {w w' : Watch} {e : Option Event}
    {d : Deployment} (hMem : w ∈ v.forwardings ++ v.leaving) (hName : w.name ≠ n)
    (hForward : Connection.forward? v.connection.hasRoom w v.deployment = some (e, w', d))
    (hCoherent : v'.Coherent) (hDeployment : v'.deployment = d) (hErrand : v'.errand = v.errand)
    (hTaken : v'.taken = v.taken) (hOwn : v'.own = v.own)
    (hOutbound : v'.connection.outbound = v.connection.outbound ++ e.toList)
    (hGoing : v'.going n = v.going n) (hLeft : ∀ x ∈ v'.leaving, x.name ≠ n) :
    ∃ current', v'.Traced n done current' := by
  obtain ⟨hKnows, hLabelled⟩ := h.coherent.watched w hMem
  obtain ⟨-, hLabels⟩ := Connection.forward?_labelled hForward hLabelled
  have hEvents : ∀ x ∈ e.toList, x.script? = some w.name.text := by simpa using hLabels
  exact h.sameErrand hCoherent (hDeployment ▸ Connection.forward?_develops hForward)
    (knows_ne hKnows hName) hErrand hOwn (stream_queued hTaken hOutbound hEvents (text_ne hName))
    hGoing hLeft

end Traced

/-- What is traced stays so by every step of an orderly viewer, whoever takes it. -/
theorem step_traced (hSound : v.scene.Sound) (hHubs : v.HubsKnown) (h : v.Traced n done current)
    (hStep : Step v a v') (hAllowed : Orderly n v a) :
    ∃ done' current', v'.Traced n done' current' := by
  have hDevelops := hStep.develops hSound
  have hCoherent := step_coherent hSound h.coherent hStep
  obtain ⟨hUnwatch, hClose, hBegin⟩ := hAllowed
  cases hStep with
  | others hOther hOwn =>
    refine ⟨done, h.sameErrand hCoherent hDevelops (fun hTouched _ hHolds => ?_) rfl rfl rfl rfl
      h.left⟩
    exact hOwn (Or.inr ⟨_, _, hTouched, hHolds⟩)
  | @start i m d hIdle hFree hReserve =>
    refine ⟨done, h.waits hCoherent hDevelops rfl rfl rfl rfl hIdle rfl rfl rfl rfl
      (by rintro _ _ ⟨⟩) ?_⟩
    rintro rfl
    exact hBegin (Or.inl ⟨rfl, by rw [hReserve]⟩)
  | startRefused hIdle =>
    exact ⟨done, h.waits hCoherent hDevelops rfl rfl rfl rfl hIdle rfl rfl rfl rfl
      (by rintro _ _ ⟨⟩) False.elim⟩
  | startFailed hAt =>
    exact ⟨done, h.waits hCoherent hDevelops rfl rfl rfl rfl hAt rfl rfl rfl rfl
      (by rintro _ _ ⟨⟩) False.elim⟩
  | @started i id m hAt =>
    refine ⟨done, h.errand hCoherent hDevelops rfl rfl rfl (by rw [hAt]; rfl) rfl
      ⟨if m = n then [id] else [], ?_, ?_⟩ (fun hName => h.calm ?_) (by rintro _ _ ⟨⟩)⟩
    · by_cases hName : m = n <;> simp [started, hName]
    · rw [hAt]
      rfl
    · rw [hAt]
      exact hName
  | @watch m session hIdle hGet =>
    refine ⟨done, h.waits hCoherent hDevelops rfl rfl rfl rfl hIdle rfl rfl rfl rfl
      (by rintro _ _ ⟨⟩) ?_⟩
    rintro rfl
    exact hBegin (Or.inr ⟨rfl, session, hGet⟩)
  | watchRefused hIdle =>
    exact ⟨done, h.waits hCoherent hDevelops rfl rfl rfl rfl hIdle rfl rfl rfl rfl
      (by rintro _ _ ⟨⟩) False.elim⟩
  | subscribeStarted hAt hSession =>
    exact ⟨done, h.subscribesStarted hHubs hAt hSession hCoherent hDevelops rfl rfl rfl rfl rfl rfl⟩
  | subscribeWatched hAt hSession =>
    exact ⟨done, h.subscribesWatched hHubs hAt hSession hCoherent hDevelops rfl rfl rfl rfl rfl rfl⟩
  | announce hAt => exact ⟨done, h.announces hAt hCoherent rfl rfl rfl rfl rfl rfl⟩
  | attach hAt => exact ⟨done, h.attaches hAt hCoherent rfl rfl rfl rfl rfl rfl⟩
  | @unwatch m hIdle =>
    have hScript : m ≠ n := by
      rintro rfl
      exact hUnwatch rfl
    refine ⟨done, h.sameErrand hCoherent hDevelops (fun hTouched => hTouched.elim) rfl rfl rfl ?_
      fun x hMem => ?_⟩
    · rw [going, going, forwardings, forwardings, hIdle]
      exact filter_unwatched hScript _
    · rcases List.mem_append.mp hMem with hBefore | hGone
      · exact h.left x hBefore
      · have hName : x.name = m := by simpa using (List.mem_filter.mp hGone).2
        exact hName ▸ hScript
  | close => exact absurd rfl hClose
  | ask hIdle =>
    exact ⟨done, h.waits hCoherent hDevelops rfl rfl rfl rfl hIdle rfl rfl rfl rfl
      (by rintro _ _ ⟨⟩) False.elim⟩
  | @answer e hAt =>
    have hEvents : ∀ x ∈ [e], x.script? = none := by simp [h.coherent.answered hAt]
    refine ⟨done, h.quiet hCoherent hDevelops (fun hTouched => hTouched.elim)
      (stream_queued rfl rfl hEvents (Option.some_ne_none _).symm) ?_ h.left
      ⟨[], (List.append_nil _).symm, ?_⟩ False.elim (by rintro _ _ ⟨⟩)⟩
    · simp [going, forwardings, hAt]
    · rw [hAt]
      rfl
  | @forward before after w w' e d hParts hForward =>
    by_cases hName : w.name = n
    · exact h.forwarded hParts hForward hName hCoherent rfl rfl rfl rfl rfl rfl rfl
    · obtain ⟨hStays, -, -⟩ := Connection.forward?_same hForward
      refine ⟨done, h.forwardedOther (by simp [forwardings, hParts]) hName hForward hCoherent rfl
        rfl rfl rfl rfl ?_ h.left⟩
      simp [going, forwardings, Watch.isGoing, hParts, hName, hStays]
  | @linger before after w w' e d hParts hForward =>
    have hMem : w ∈ v.leaving := by simp [hParts]
    have hName := h.left w hMem
    obtain ⟨hStays, -, -⟩ := Connection.forward?_same hForward
    refine ⟨done, h.forwardedOther (List.mem_append_right _ hMem) hName hForward hCoherent rfl rfl
      rfl rfl rfl rfl fun x hx => ?_⟩
    rcases List.mem_append.mp hx with hBefore | hRest
    · exact h.left x (by simp [hParts, hBefore])
    · rcases List.mem_cons.mp hRest with rfl | hAfter
      · exact hStays ▸ hName
      · exact h.left x (by simp [hParts, hAfter])
  | @vanish before after w hParts =>
    have hMem : w ∈ v.leaving := by simp [hParts]
    have hKnows := (h.coherent.watched w (List.mem_append_right _ hMem)).1
    refine ⟨done, h.sameErrand hCoherent hDevelops (knows_ne hKnows (h.left w hMem)) rfl rfl rfl rfl
      fun x hx => h.left x ?_⟩
    rw [hParts]
    rcases List.mem_append.mp hx with hBefore | hAfter
    · exact List.mem_append_left _ hBefore
    · exact List.mem_append_right _ (List.mem_cons_of_mem w hAfter)
  | @take e rest hOutbound =>
    refine ⟨done, h.sameErrand hCoherent hDevelops (fun hTouched => hTouched.elim) rfl rfl ?_ rfl
      h.left⟩
    rw [stream, stream, told, told, hOutbound, List.append_assoc]
    rfl

end Viewing

end ScriptWarden
