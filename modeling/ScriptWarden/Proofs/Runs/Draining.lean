import ScriptWarden.Proofs.Runs.Tracing

/-!
# Viewers that take what they are told

What is left of a script at a connection is the events that are due and the values that the
forwarding has not been told of. Each step of the forwarding makes it less, counting a value for
more than the events that it comes to, and taking the events makes room. So a viewer that takes what
it is told comes to where nothing is left.

## Results

* `Viewing.drains` — the run that leads there.
-/

namespace ScriptWarden

/-- A piece of output, a gap or an end comes to two events at most. -/
theorem Forwarder.length_due_take_le (f : Forwarder) (got : Received SessionEvent) :
    (f.take got).due.length ≤ f.due.length + 2 := by
  have hOutput : ∀ data : String, (outputEvents f.script data).length ≤ 1 := by
    intro data
    rw [outputEvents]
    split <;> simp
  have hRest := hOutput f.decoder.finish.1
  cases got with
  | value e =>
    cases e with
    | output chunk =>
      have hPiece := hOutput (f.decoder.push chunk).1
      simp only [take, List.length_append]
      omega
    | ended exit =>
      simp only [take, finish, List.length_append, Option.map_some, Option.toList_some,
        List.length_singleton]
      omega
  | lagged missed =>
    simp only [take, List.length_append, List.length_singleton]
    omega
  | closed =>
    simp only [take, finish, List.length_append, Option.map_none, Option.toList_none,
      List.length_nil]
    omega
  | empty => exact Nat.le_add_right _ 2

/-- What a forwarding has left to do: the events that are due, and the values that its receiver is
owed, by a count that goes down. -/
def Watch.Left (w : Watch) (d : Deployment) (count : Nat) : Prop :=
  ∃ s pending, d.service.session? w.session = some s ∧ 0 < s.hub.channel.capacity ∧
    s.hub.channel.closed = false ∧ s.hub.channel.Owes w.receiver pending ∧
    count = w.forwarder.due.length + 3 * pending.length

variable {d d' : Deployment} {w w' : Watch} {n : ScriptName} {count : Nat}

/-- A forwarding at work on an episode has so much left to do. -/
theorem Episode.Carries.left {g : Episode} (h : g.Carries w d) : ∃ count, w.Left d count := by
  obtain ⟨s, pending, hSession, -, -, hAwaits, hOpen⟩ := h.awaits
  exact ⟨_, s, pending, hSession, hAwaits.room, hOpen, hAwaits.owes, rfl⟩

/-- A step of a forwarding that goes on leaves less to be done. -/
theorem Watch.Left.forward {room : Bool} {e : Option Event} (h : w.Left d count)
    (hForward : Connection.forward? room w d = some (e, w', d'))
    (hActive : Connection.isActive w' = true) : ∃ less < count, w'.Left d' less := by
  obtain ⟨s, pending, hSession, hRoom, hOpen, hOwes, rfl⟩ := h
  rcases Connection.forward?_cases hForward with ⟨first, due, hDue, -, -, rfl, rfl⟩ |
    ⟨hDue, -, -, hSome, rfl, rfl⟩
  · have hStays : (due.isEmpty && w.forwarder.isOver) = false := by
      rw [Connection.isActive] at hActive
      cases hOver : w.forwarder.isOver <;> simp_all
    refine ⟨due.length + 3 * pending.length, ?_, s, pending, ?_, hRoom, hOpen, hOwes, rfl⟩
    · rw [hDue, List.length_cons]
      omega
    · rw [hStays]
      exact hSession
  · have hReceive : d.receive w.session w.receiver = ((s.hub.channel.receive w.receiver).1,
        d.setSession { s with
          hub := { s.hub with channel := (s.hub.channel.receive w.receiver).2 } }) := by
      rw [Deployment.receive, hSession]
      rfl
    rw [hReceive] at hSome hActive ⊢
    -- the receiver is owed less
    obtain ⟨rest, hLess, hRest⟩ : ∃ rest : List SessionEvent, rest.length < pending.length ∧
        (s.hub.channel.receive w.receiver).2.Owes w.receiver rest := by
      rcases hOwes.receive hRoom with ⟨-, hNone | hClosed⟩ | ⟨a, rest, rfl, -, hRest⟩ |
        ⟨missed, rest, hMissed, -, rfl, -, hRest⟩
      · rw [hNone] at hSome
        exact absurd rfl hSome
      · have hNever := hOwes.receive_ne_closed hOpen
        rw [hClosed] at hNever
        exact absurd rfl hNever
      · exact ⟨rest, Nat.lt_succ_self _, hRest⟩
      · refine ⟨rest, ?_, hRest⟩
        rw [List.length_append]
        have hPositive := List.length_pos_iff.mpr hMissed
        omega
    have hStays : ¬ ((w.forwarder.take (s.hub.channel.receive w.receiver).1).isOver &&
        (w.forwarder.take (s.hub.channel.receive w.receiver).1).due.isEmpty) = true := by
      rw [Connection.isActive] at hActive
      simpa [Bool.or_eq_true, Classical.or_iff_not_imp_left] using hActive
    refine ⟨(w.forwarder.take (s.hub.channel.receive w.receiver).1).due.length + 3 * rest.length,
      ?_, { s with hub := { s.hub with channel := (s.hub.channel.receive w.receiver).2 } }, rest,
      ?_, ?_, ?_, hRest, rfl⟩
    · have hTaken := w.forwarder.length_due_take_le (s.hub.channel.receive w.receiver).1
      rw [hDue, List.length_nil] at hTaken ⊢
      omega
    · have hId : s.id = w.session := session?_id hSession
      rw [if_neg hStays, session?_setSession, if_pos hId.symm, hSession, Option.map_some]
    · rw [Channel.capacity_receive]
      exact hRoom
    · rw [Channel.closed_receive]
      exact hOpen

namespace Viewing

variable {v : Viewing} {done : List Episode} {current : Option Episode}

/-- Whether nothing of a script is left to be done at a connection that has room for events. -/
def Settled (v : Viewing) (n : ScriptName) : Prop :=
  v.errand = .idle ∧ ∀ w ∈ v.going n, Connection.forward? true w v.deployment = none

theorem settled_of_quiet (hIdle : v.errand = .idle) (hGoing : v.going n = []) : v.Settled n :=
  ⟨hIdle, by simp [hGoing]⟩

/-- What is done when a viewer only takes what it is told. -/
def Drains (_ : Viewing) (a : Act) : Prop := a = .take ∨ ∃ w, a = .forward w

/-- A viewer can take all events that are queued. -/
theorem takeAll_reaches (v : Viewing) : Reaches Drains v
    { v with connection.outbound := [], taken := v.taken ++ v.connection.outbound } := by
  generalize hQueue : v.connection.outbound = queue
  induction queue generalizing v with
  | nil =>
    have hSame : ({ v with connection.outbound := [], taken := v.taken ++ [] } : Viewing) = v := by
      rw [List.append_nil, ← hQueue]
    rw [hSame]
    exact .refl
  | cons e rest ih =>
    have hFirst : Reaches Drains v _ := .step .refl (.take hQueue) (Or.inl rfl)
    have hRest := ih { v with connection.outbound := rest, taken := v.taken ++ [e] } rfl
    rw [List.append_assoc] at hRest
    exact hFirst.trans hRest

/-- One forwarding of a script is drained. -/
theorem drain_one (hIdle : v.errand = .idle) (hGoing : v.going n = [w])
    (hLeft : w.Left v.deployment count) : ∃ v', Reaches Drains v v' ∧ v'.Settled n := by
  induction count using Nat.strong_induction_on generalizing v w with
  | _ count ih =>
    cases hForward : Connection.forward? true w v.deployment with
    | none =>
      refine ⟨v, .refl, hIdle, fun x hMem => ?_⟩
      rw [hGoing, List.mem_singleton] at hMem
      rw [hMem]
      exact hForward
    | some next =>
      obtain ⟨e, w', d'⟩ := next
      obtain ⟨hMem, -, -⟩ := mem_going.mp (hGoing ▸ List.mem_singleton_self w)
      obtain ⟨before, after, hParts⟩ :
          ∃ before after, v.connection.watches = before ++ w :: after := by
        rw [forwardings, hIdle] at hMem
        exact List.append_of_mem hMem
      -- taking what is queued makes room for the step
      let emptied : Viewing :=
        { v with connection.outbound := [], taken := v.taken ++ v.connection.outbound }
      let stepped : Viewing := { emptied.withDeployment d' with
        connection.outbound := emptied.connection.outbound ++ e.toList
        connection.watches := before ++ w' :: after }
      have hStepped : Reaches Drains v stepped :=
        v.takeAll_reaches.step (.forward hParts hForward) (Or.inr ⟨w, rfl⟩)
      have hAfter : stepped.going n = if Connection.isActive w' then [w'] else [] :=
        going_forward hGoing hParts hForward rfl rfl
      cases hActive : Connection.isActive w' with
      | true =>
        rw [hActive, if_pos rfl] at hAfter
        obtain ⟨less, hLess, hRest⟩ := hLeft.forward hForward hActive
        obtain ⟨v', hLater, hSettled⟩ := ih less hLess (v := stepped) hIdle hAfter hRest
        exact ⟨v', hStepped.trans hLater, hSettled⟩
      | false =>
        rw [hActive, if_neg Bool.false_ne_true] at hAfter
        exact ⟨_, hStepped, settled_of_quiet hIdle hAfter⟩

/-- A viewer that takes what it is told, while nothing else goes on at its connection, comes to
where nothing of a script is left to be done. -/
theorem drains (h : v.Traced n done current) (hIdle : v.errand = .idle) :
    ∃ v', Reaches Drains v v' ∧ v'.Settled n := by
  cases current with
  | none => exact ⟨v, .refl, settled_of_quiet hIdle (h.resting rfl)⟩
  | some g =>
    obtain ⟨w, hGoing, hCarries⟩ := h.carried g rfl
    obtain ⟨count, hLeft⟩ := hCarries.left
    exact drain_one hIdle hGoing hLeft

end Viewing

end ScriptWarden
