import Mathlib.Algebra.GroupWithZero.Nat
import ScriptWarden.Proofs.Sessions.Channels
import ScriptWarden.Session.Hub

/-!
# What viewers hear

Publishers and viewers of one hub act in any order. The pieces that are published, those with any
bytes and before the end, are in one order for all. A viewer starts from the last bytes of the
pieces before it came, and is told of the rest in that order, but for pieces it is told it missed.

The end is the last event sent, so the channel always keeps it: it is never among those missed,
however few events the channel has room for and however late the viewer asks.

## Results

* `trim_eq` — what is kept are the last bytes.
* `Consistent.run` — the hub after any actions.
* `history_of_uncut` — a hub that has let nothing go keeps all that was published.
* `Awaits.hears` — what a viewer is told during any actions.
* `viewer_hears_everything` — snapshot, pieces and end, for every viewer.
-/

namespace ScriptWarden

namespace Hub

-- ---------------------------------------------------------------------------
-- Actions
-- ---------------------------------------------------------------------------

/-- What publishers and viewers do with a hub. -/
inductive Action where
  | publish (chunk : List UInt8)
  | finish (exit : Exit)
  | subscribe
  | receive (receiver : Nat)
  | drop (receiver : Nat)
  | close
deriving DecidableEq, Repr

/-- The hub after an action. -/
def act (h : Hub) : Action → Hub
  | .publish chunk => h.publish chunk
  | .finish exit => h.finish exit
  | .subscribe => h.subscribe.2
  | .receive receiver => (h.receive receiver).2
  | .drop receiver => h.drop receiver
  | .close => h.close

/-- The hub after actions. -/
def run (h : Hub) (actions : List Action) : Hub := actions.foldl act h

theorem run_cons (h : Hub) (action : Action) (rest : List Action) :
    h.run (action :: rest) = (h.act action).run rest := rfl

theorem run_append (h : Hub) (actions later : List Action) :
    h.run (actions ++ later) = (h.run actions).run later := List.foldl_append

/-- Whether a receiver is told of anything. -/
def isNews : Received SessionEvent → Bool
  | .value _ | .lagged _ => true
  | .empty | .closed => false

/-- What a receiver is told during actions. -/
def told (h : Hub) (r : Nat) : List Action → List (Received SessionEvent)
  | [] => []
  | action :: rest =>
    (if action = .receive r then [(h.receive r).1].filter isNews else []) ++ (h.act action).told r rest

/-- The pieces that actions publish: those with any bytes, up to the end. -/
def published : List Action → List (List UInt8)
  | [] => []
  | .publish chunk :: rest => if chunk.isEmpty then published rest else chunk :: published rest
  | .finish _ :: _ => []
  | _ :: rest => published rest

/-- The end that actions announce, which is the first. -/
def announced : List Action → Option Exit
  | [] => none
  | .finish exit :: _ => some exit
  | _ :: rest => announced rest

/-- What there is to be told during actions, after an end if there was one. -/
def stream (ending : Option Exit) (actions : List Action) : List SessionEvent :=
  match ending with
  | some _ => []
  | none => (published actions).map .output ++ (announced actions).toList.map .ended

/-- What a viewer is told of events: each in turn, or how many pieces it missed. -/
inductive Hears : List (Received SessionEvent) → List SessionEvent → Prop where
  | nil : Hears [] []
  | value (e : SessionEvent) {got : List (Received SessionEvent)} {events : List SessionEvent} :
    Hears got events → Hears (.value e :: got) (e :: events)
  | lagged {missed : List (List UInt8)} {got : List (Received SessionEvent)}
    {events : List SessionEvent} : missed ≠ [] → Hears got events →
      Hears (.lagged missed.length :: got) (missed.map .output ++ events)

/-- For how many pieces an answer stands. -/
def pieceCount : Received SessionEvent → Nat
  | .value (.output _) => 1
  | .lagged missed => missed
  | .value (.ended _) | .empty | .closed => 0

/-- Whether a receiver that is not dropped has been told everything after actions. -/
def Drained (h : Hub) (r : Nat) (actions : List Action) : Prop :=
  .drop r ∉ actions ∧ isNews ((h.run actions).receive r).1 = false

theorem published_append (actions later : List Action) : published (actions ++ later) =
    published actions ++ if (announced actions).isSome then [] else published later := by
  induction actions with
  | nil => rfl
  | cons action rest ih =>
    cases action with
    | publish chunk =>
      simp only [List.cons_append, published, announced, ih]
      split <;> rfl
    | finish exit => rfl
    | _ => exact ih

theorem announced_append (actions later : List Action) :
    announced (actions ++ later) = (announced actions).or (announced later) := by
  induction actions with
  | nil => rfl
  | cons action rest ih =>
    cases action with
    | finish exit => rfl
    | _ => exact ih

-- ---------------------------------------------------------------------------
-- What is kept
-- ---------------------------------------------------------------------------

theorem trim_eq (limit : Nat) (pieces : List (List UInt8)) :
    (trim limit pieces.flatten.length pieces).1 =
        (trim limit pieces.flatten.length pieces).2.1.flatten.length ∧
      (trim limit pieces.flatten.length pieces).2.1.flatten = pieces.flatten.rtake limit := by
  induction pieces with
  | nil => simp [trim]
  | cons front rest ih =>
    have hLength : (front :: rest).flatten.length = front.length + rest.flatten.length := by simp
    rw [trim, hLength]
    by_cases hFits : front.length + rest.flatten.length ≤ limit
    · rw [if_pos hFits]
      refine ⟨hLength.symm, ?_⟩
      rw [List.rtake, hLength, Nat.sub_eq_zero_of_le hFits, List.drop_zero]
    rw [if_neg hFits]
    by_cases hPart : front.length + rest.flatten.length - limit < front.length
    · simp only [if_pos hPart]
      refine ⟨?_, ?_⟩
      · rw [List.flatten_cons, List.length_append, List.length_drop]
        omega
      · rw [List.flatten_cons, List.flatten_cons, List.rtake, List.length_append,
          List.drop_append_of_le_length (Nat.le_of_lt hPart)]
    · simp only [if_neg hPart, Nat.add_sub_cancel_left]
      refine ⟨ih.1, ?_⟩
      rw [ih.2, List.flatten_cons, rtake_append_of_le]
      omega

/-- The hub of so many pieces and an end. -/
structure Consistent (h : Hub) (pieces : List (List UInt8)) (ending : Option Exit) : Prop where
  room : 0 < h.channel.capacity
  kept : h.history.flatten = pieces.flatten.rtake h.limit
  bytes : h.historyBytes = h.history.flatten.length
  ended : h.ended = ending
  sent : ∃ all, h.channel.Holds all

variable {hub : Hub} {pieces : List (List UInt8)} {ending : Option Exit} {chunk : List UInt8}

theorem publish_of_isEmpty (h : chunk.isEmpty = true) : hub.publish chunk = hub := by
  rw [publish, h, Bool.true_or, if_pos rfl]

theorem publish_of_ended (h : hub.ended.isSome = true) : hub.publish chunk = hub := by
  rw [publish, h, Bool.or_true, if_pos rfl]

theorem finish_of_ended (h : hub.ended.isSome = true) (exit : Exit) : hub.finish exit = hub := by
  rw [finish, if_pos h]

theorem publish_of_open (hChunk : chunk.isEmpty = false) (hOpen : hub.ended = none) :
    hub.publish chunk = { hub with
      history := (trim hub.limit (hub.historyBytes + chunk.length) (hub.history ++ [chunk])).2.1
      historyBytes := (trim hub.limit (hub.historyBytes + chunk.length) (hub.history ++ [chunk])).1
      truncated := hub.truncated ||
        (trim hub.limit (hub.historyBytes + chunk.length) (hub.history ++ [chunk])).2.2
      channel := hub.channel.send (.output chunk) } := by
  rw [publish, hChunk, hOpen]
  rfl

theorem finish_of_open (hOpen : hub.ended = none) (exit : Exit) :
    hub.finish exit =
      { hub with ended := some exit, channel := hub.channel.send (.ended exit) } := by
  rw [finish, hOpen]
  rfl

theorem limit_act (hub : Hub) (action : Action) : (hub.act action).limit = hub.limit := by
  cases action with
  | publish chunk =>
    rw [act, publish]
    split <;> rfl
  | finish exit =>
    rw [act, finish]
    split <;> rfl
  | _ => rfl

theorem limit_run (hub : Hub) (actions : List Action) : (hub.run actions).limit = hub.limit := by
  induction actions generalizing hub with
  | nil => rfl
  | cons action rest ih => rw [run_cons, ih, limit_act]

namespace Consistent

theorem initial (limit : Nat) {capacity : Nat} (hCapacity : 0 < capacity) :
    Consistent { limit, channel := { capacity } } [] none :=
  ⟨hCapacity, (List.rtake_nil limit).symm, rfl, rfl, [], .initial capacity⟩

theorem publish (h : Consistent hub pieces none) (hChunk : chunk.isEmpty = false) :
    Consistent (hub.publish chunk) (pieces ++ [chunk]) none := by
  have hBytes : hub.historyBytes + chunk.length = (hub.history ++ [chunk]).flatten.length := by
    simp [h.bytes]
  obtain ⟨hLength, hKept⟩ := trim_eq hub.limit (hub.history ++ [chunk])
  rw [publish_of_open hChunk h.ended, hBytes]
  refine ⟨?_, ?_, hLength, h.ended, ?_⟩
  · rw [Channel.capacity_send]
    exact h.room
  · rw [hKept, List.flatten_append, h.kept, rtake_append_rtake, List.flatten_append]
  · exact Channel.exists_holds_send h.sent _

theorem finish (h : Consistent hub pieces none) (exit : Exit) :
    Consistent (hub.finish exit) pieces (some exit) := by
  rw [finish_of_open h.ended]
  refine ⟨?_, h.kept, h.bytes, rfl, Channel.exists_holds_send h.sent _⟩
  rw [Channel.capacity_send]
  exact h.room

/-- One action, which counts only before an end. -/
theorem act (h : Consistent hub pieces ending) (action : Action) :
    Consistent (hub.act action)
      (pieces ++ if ending.isSome then [] else published [action])
      (ending.or (announced [action])) := by
  obtain ⟨all, hHolds⟩ := h.sent
  have hSame : ∀ {hub'}, Consistent hub' pieces ending → Consistent hub'
      (pieces ++ if ending.isSome then [] else []) (ending.or none) := by
    intro hub' h'
    simpa using h'
  cases action with
  | publish chunk =>
    cases ending with
    | some exit =>
      rw [Hub.act, publish_of_ended (by rw [h.ended, Option.isSome_some])]
      exact hSame h
    | none =>
      cases hChunk : chunk.isEmpty with
      | true =>
        rw [Hub.act, publish_of_isEmpty hChunk, published, if_pos hChunk]
        exact hSame h
      | false =>
        rw [published, hChunk]
        exact h.publish hChunk
  | finish exit =>
    cases ending with
    | some first =>
      rw [Hub.act, finish_of_ended (by rw [h.ended, Option.isSome_some])]
      exact hSame h
    | none =>
      rw [published, ite_self, List.append_nil]
      exact h.finish exit
  | subscribe => exact hSame ⟨h.room, h.kept, h.bytes, h.ended, all, hHolds.sent, hHolds.kept⟩
  | receive r =>
    refine hSame ⟨?_, h.kept, h.bytes, h.ended, all, hHolds.receive r⟩
    rw [Hub.act, Hub.receive, Channel.capacity_receive]
    exact h.room
  | drop r => exact hSame ⟨h.room, h.kept, h.bytes, h.ended, all, hHolds.sent, hHolds.kept⟩
  | close => exact hSame ⟨h.room, h.kept, h.bytes, h.ended, all, hHolds.sent, hHolds.kept⟩

/-- The hub after actions, of which only those before an end count. -/
theorem run (h : Consistent hub pieces ending) (actions : List Action) :
    Consistent (hub.run actions)
      (pieces ++ if ending.isSome then [] else published actions)
      (ending.or (announced actions)) := by
  induction actions generalizing hub pieces ending with
  | nil => simpa [Hub.run, published, announced] using h
  | cons action rest ih =>
    have hRest := ih (h.act action)
    rw [run_cons, ← List.singleton_append, published_append, announced_append]
    cases ending with
    | some exit => simpa using hRest
    | none =>
      rw [List.append_assoc] at hRest
      exact hRest

end Consistent

-- ---------------------------------------------------------------------------
-- Output that is kept as a whole
-- ---------------------------------------------------------------------------

/-- Nothing is let go of what is within the limit. -/
theorem trim_of_le {limit bytes : Nat} (h : bytes ≤ limit) (pieces : List (List UInt8)) :
    trim limit bytes pieces = (bytes, pieces, false) := by
  cases pieces with
  | nil => rfl
  | cons front rest => rw [trim, if_pos h]

theorem trim_uncut {limit bytes : Nat} (h : (trim limit bytes pieces).2.2 = false) :
    (trim limit bytes pieces).2.1 = pieces := by
  cases pieces with
  | nil => rfl
  | cons front rest =>
    by_cases hFits : bytes ≤ limit
    · rw [trim_of_le hFits]
    · rw [trim, if_neg hFits] at h
      simp only at h
      split at h <;> cases h

/-- What was let go is gone. -/
theorem truncated_run (h : hub.truncated = true) (actions : List Action) :
    (hub.run actions).truncated = true := by
  induction actions generalizing hub with
  | nil => exact h
  | cons action rest ih =>
    rw [run_cons]
    apply ih
    cases action with
    | publish chunk =>
      rw [act, publish]
      split
      · exact h
      · simp [h]
    | finish exit =>
      rw [act, finish]
      split <;> exact h
    | _ => exact h

theorem uncut_before {actions later : List Action}
    (h : (hub.run (actions ++ later)).truncated = false) : (hub.run actions).truncated = false := by
  rw [← Bool.not_eq_true]
  intro hCut
  rw [run_append, truncated_run hCut] at h
  cases h

/-- A session that has ended stays so. -/
theorem ended_run {exit : Exit} (h : hub.ended = some exit) (actions : List Action) :
    (hub.run actions).ended = some exit := by
  induction actions generalizing hub with
  | nil => exact h
  | cons action rest ih =>
    apply ih
    have hEnded : hub.ended.isSome = true := by
      rw [h]
      rfl
    cases action with
    | publish chunk => rw [act, publish_of_ended hEnded, h]
    | finish exit' => rw [act, finish_of_ended hEnded, h]
    | _ => exact h

theorem ended_run_new (limit : Nat) (actions : List Action) :
    ((Hub.new limit).run actions).ended = announced actions := by
  have hCapacity : 0 < standardCapacity := by decide
  exact ((Consistent.initial limit hCapacity).run actions).ended

/-- A hub that has let nothing go keeps all pieces that were published. -/
theorem history_of_uncut (limit : Nat) (actions : List Action)
    (h : ((Hub.new limit).run actions).truncated = false) :
    ((Hub.new limit).run actions).history = published actions := by
  induction actions using List.reverseRecOn with
  | nil => rfl
  | append_singleton actions action ih =>
    have hEnded := ended_run_new limit actions
    have hSoFar := ih (uncut_before h)
    rw [run_append] at h ⊢
    rw [published_append]
    generalize (Hub.new limit).run actions = hub at *
    have hSame : ∀ {hub' : Hub}, hub'.history = hub.history →
        hub'.history = published actions ++ if (announced actions).isSome then [] else [] := by
      intro hub' hHistory
      rw [hHistory, hSoFar, ite_self, List.append_nil]
    cases action with
    | publish chunk =>
      cases hOpen : announced actions with
      | some exit =>
        rw [hOpen] at hEnded
        show (hub.publish chunk).history = published actions ++ []
        rw [publish_of_ended (by rw [hEnded]; rfl), hSoFar, List.append_nil]
      | none =>
        rw [hOpen] at hEnded
        cases hChunk : chunk.isEmpty with
        | true =>
          show (hub.publish chunk).history = published actions ++ published [.publish chunk]
          rw [publish_of_isEmpty hChunk, published, hChunk, hSoFar]
          exact (List.append_nil _).symm
        | false =>
          have hUncut : (hub.publish chunk).truncated = false := h
          show (hub.publish chunk).history = published actions ++ published [.publish chunk]
          rw [publish_of_open hChunk hEnded] at hUncut ⊢
          rw [published, hChunk, ← hSoFar]
          exact trim_uncut (Bool.or_eq_false_iff.mp hUncut).2
    | finish exit =>
      refine hSame ?_
      show (hub.finish exit).history = hub.history
      rw [finish]
      split <;> rfl
    | _ => exact hSame rfl

/-- When nothing was let go of, what is kept after the end is what was kept at a subscription before
it, and what was published since. -/
theorem history_since {limit : Nat} {before actions rest : List Action} {exit : Exit}
    (hOpen : ((Hub.new limit).run before).ended = none) (hAnnounced : announced actions = some exit)
    (hUncut : ((Hub.new limit).run (before ++ .subscribe :: (actions ++ rest))).truncated = false) :
    ((Hub.new limit).run (before ++ .subscribe :: (actions ++ rest))).history =
      ((Hub.new limit).run before).history ++ published actions := by
  have hNotYet : announced before = none := by rw [← ended_run_new limit, hOpen]
  rw [history_of_uncut limit _ hUncut, history_of_uncut limit _ (uncut_before hUncut),
    published_append, hNotYet]
  show _ ++ published (actions ++ rest) = _
  rw [published_append, hAnnounced]
  exact congrArg (published before ++ ·) (List.append_nil _)

-- ---------------------------------------------------------------------------
-- What is told
-- ---------------------------------------------------------------------------

variable {r : Nat} {pending : List SessionEvent} {action : Action} {actions rest : List Action}

theorem told_cons_of_ne (h : action ≠ .receive r) :
    hub.told r (action :: rest) = (hub.act action).told r rest := by
  rw [told, if_neg h, List.nil_append]

theorem told_append (hub : Hub) (r : Nat) (actions later : List Action) :
    hub.told r (actions ++ later) = hub.told r actions ++ (hub.run actions).told r later := by
  induction actions generalizing hub with
  | nil => rfl
  | cons action rest ih =>
    rw [List.cons_append, told, told, ih, List.append_assoc]
    rfl

/-- A receiver that does not ask is told nothing. -/
theorem told_of_ne (h : ∀ action ∈ actions, action ≠ .receive r) : hub.told r actions = [] := by
  induction actions generalizing hub with
  | nil => rfl
  | cons action rest ih =>
    rw [told_cons_of_ne (h action List.mem_cons_self)]
    exact ih fun action hMem => h action (List.mem_cons_of_mem _ hMem)

theorem publish_channel (hub : Hub) (chunk : List UInt8) :
    (hub.publish chunk).channel = hub.channel ∨
      (hub.publish chunk).channel = hub.channel.send (.output chunk) := by
  rw [publish]
  split
  · exact Or.inl rfl
  · exact Or.inr rfl

theorem finish_channel (hub : Hub) (exit : Exit) :
    (hub.finish exit).channel = hub.channel ∨
      (hub.finish exit).channel = hub.channel.send (.ended exit) := by
  rw [finish]
  split
  · exact Or.inl rfl
  · exact Or.inr rfl

/-- No end is told of before there is one. -/
theorem ended_of_kept (limit : Nat) (actions : List Action) {exit : Exit}
    (h : .ended exit ∈ ((Hub.new limit).run actions).channel.kept) :
    ((Hub.new limit).run actions).ended = some exit := by
  have hRun : ∀ (actions : List Action) (hub : Hub),
      (∀ e, .ended e ∈ hub.channel.kept → hub.ended = some e) →
      .ended exit ∈ (hub.run actions).channel.kept → (hub.run actions).ended = some exit := by
    intro actions
    induction actions with
    | nil => exact fun hub hSoFar hKept => hSoFar exit hKept
    | cons action rest ih =>
      intro hub hSoFar
      refine ih (hub.act action) fun e hKept => ?_
      cases action with
      | publish chunk =>
        have hSame : (hub.publish chunk).ended = hub.ended := by
          rw [publish]
          split <;> rfl
        rw [act, hSame]
        rcases hub.publish_channel chunk with hLeft | hSent
        · exact hSoFar e (by rw [act, hLeft] at hKept; exact hKept)
        · rw [act, hSent] at hKept
          rcases Channel.mem_kept_send hKept with hBefore | hNew
          · exact hSoFar e hBefore
          · cases hNew
      | finish exit' =>
        cases hEnded : hub.ended with
        | some first =>
          have hFirst : (hub.ended).isSome = true := by rw [hEnded]; rfl
          rw [act, finish_of_ended hFirst] at hKept ⊢
          exact hSoFar e hKept
        | none =>
          rw [act, finish_of_open hEnded] at hKept ⊢
          rcases Channel.mem_kept_send hKept with hBefore | hNew
          · cases hEnded.symm.trans (hSoFar e hBefore)
          · cases hNew
            rfl
      | receive r =>
        refine hSoFar e ?_
        rw [act, receive, Channel.kept_receive] at hKept
        exact hKept
      | _ => exact hSoFar e hKept
  exact hRun actions (Hub.new limit) nofun h

/-- A hub that nobody lets go of is open. -/
theorem closed_run (h : Action.close ∉ actions) :
    (hub.run actions).channel.closed = hub.channel.closed := by
  induction actions generalizing hub with
  | nil => rfl
  | cons action rest ih =>
    obtain ⟨hFirst, hRest⟩ := not_or.mp fun hMem => h (List.mem_cons.mpr hMem)
    rw [run_cons, ih hRest]
    cases action with
    | publish chunk =>
      rcases hub.publish_channel chunk with hSame | hSent
      · rw [act, hSame]
      · rw [act, hSent, Channel.closed_send]
    | finish exit =>
      rcases hub.finish_channel exit with hSame | hSent
      · rw [act, hSame]
      · rw [act, hSent, Channel.closed_send]
    | receive r => exact Channel.closed_receive r
    | close => exact absurd rfl hFirst
    | _ => rfl

/-- A receiver that was dropped stays so. -/
theorem dropped_act (h : hub.channel.Dropped r) (action : Action) :
    (hub.act action).channel.Dropped r := by
  cases action with
  | publish chunk =>
    rcases hub.publish_channel chunk with hSame | hSent
    · rwa [act, hSame]
    · rw [act, hSent]
      exact h.send _
  | finish exit =>
    rcases hub.finish_channel exit with hSame | hSent
    · rwa [act, hSame]
    · rw [act, hSent]
      exact h.send _
  | subscribe => exact h.subscribe
  | receive r' => exact h.receive r'
  | drop r' => exact h.drop r'
  | close => exact h

/-- A receiver that was dropped is told nothing. -/
theorem told_of_dropped (h : hub.channel.Dropped r) (actions : List Action) :
    hub.told r actions = [] := by
  induction actions generalizing hub with
  | nil => rfl
  | cons action rest ih =>
    have hNothing : (hub.receive r).1 = .closed := by
      rw [receive, h.receive_eq]
    rw [told, ih (dropped_act h action), hNothing, List.append_nil]
    split <;> rfl

/-- What stands in front of something, where pieces have one event behind them at most. -/
theorem pieces_of_append {pieces : List (List UInt8)} {front rest tail : List SessionEvent}
    (h : pieces.map .output ++ tail = front ++ rest) (hTail : tail.length ≤ 1) (hRest : rest ≠ []) :
    ∃ before after, pieces = before ++ after ∧ front = before.map .output ∧
      rest = after.map .output ++ tail := by
  rcases List.append_eq_append_iff.mp h with ⟨reach, rfl, hEnd⟩ | ⟨later, hPieces, rfl⟩
  · have hSome : 0 < rest.length := List.length_pos_iff.mpr hRest
    rw [hEnd, List.length_append] at hTail
    obtain rfl : reach = [] := List.length_eq_zero_iff.mp (by omega)
    exact ⟨pieces, [], by simp, by simp, by simpa using hEnd.symm⟩
  · obtain ⟨before, after, rfl, rfl, rfl⟩ := List.map_eq_append_iff.mp hPieces
    exact ⟨before, after, rfl, rfl, rfl⟩

/-- What was heard of pieces and an end are pieces, unless nothing was left to be heard. -/
theorem heard_cases {pieces : List (List UInt8)} {ending : Option Exit}
    {heard unheard : List SessionEvent}
    (h : pieces.map .output ++ ending.toList.map .ended = heard ++ unheard) :
    (unheard = [] ∧ heard = pieces.map .output ++ ending.toList.map .ended) ∨
      ∃ before : List (List UInt8), heard = before.map .output := by
  by_cases hAll : unheard = []
  · exact Or.inl ⟨hAll, by rw [h, hAll, List.append_nil]⟩
  · have hTail : (ending.toList.map SessionEvent.ended).length ≤ 1 := by cases ending <;> simp
    obtain ⟨before, _, -, hFront, -⟩ := pieces_of_append h hTail hAll
    exact Or.inr ⟨before, hFront⟩

/-- Pieces, and behind them the end if it came. -/
def IsOrdered (ended : Option Exit) (events : List SessionEvent) : Prop :=
  ∃ (pieces : List (List UInt8)) (ending : Option Exit),
    events = pieces.map .output ++ ending.toList.map .ended ∧ (ending = none ∨ ending = ended)

namespace IsOrdered

theorem nil (ended : Option Exit) : IsOrdered ended [] := ⟨[], none, rfl, Or.inl rfl⟩

/-- In front of another event there are pieces only. -/
theorem of_append {ended : Option Exit} {front rest : List SessionEvent}
    (h : IsOrdered ended (front ++ rest)) (hRest : rest ≠ []) :
    (∃ pieces : List (List UInt8), front = pieces.map .output) ∧ IsOrdered ended rest := by
  obtain ⟨pieces, ending, hEvents, hEnding⟩ := h
  have hTail : (ending.toList.map SessionEvent.ended).length ≤ 1 := by cases ending <;> simp
  obtain ⟨before, after, -, hFront, hAfter⟩ := pieces_of_append hEvents.symm hTail hRest
  exact ⟨⟨before, hFront⟩, after, ending, hAfter, hEnding⟩

end IsOrdered

/-- What a viewer waits for. -/
structure Awaits (h : Hub) (r : Nat) (pending : List SessionEvent) : Prop where
  room : 0 < h.channel.capacity
  owes : h.channel.Owes r pending
  ordered : IsOrdered h.ended pending

namespace Awaits

/-- While there is no end a viewer waits for pieces only. -/
theorem pieces_of_open (h : Awaits hub r pending) (hOpen : hub.ended = none) :
    ∃ pieces : List (List UInt8), pending = pieces.map .output := by
  obtain ⟨pieces, ending, rfl, hEnding⟩ := h.ordered
  rw [hOpen, or_self] at hEnding
  exact ⟨pieces, by rw [hEnding, Option.toList_none, List.map_nil, List.append_nil]⟩

theorem publish (h : Awaits hub r pending) (hChunk : chunk.isEmpty = false)
    (hOpen : hub.ended = none) : Awaits (hub.publish chunk) r (pending ++ [.output chunk]) := by
  obtain ⟨pieces, rfl⟩ := h.pieces_of_open hOpen
  rw [publish_of_open hChunk hOpen]
  refine ⟨?_, h.owes.send _, pieces ++ [chunk], none, by simp, Or.inl rfl⟩
  rw [Channel.capacity_send]
  exact h.room

theorem finish (h : Awaits hub r pending) (hOpen : hub.ended = none) (exit : Exit) :
    Awaits (hub.finish exit) r (pending ++ [.ended exit]) := by
  obtain ⟨pieces, rfl⟩ := h.pieces_of_open hOpen
  rw [finish_of_open hOpen]
  refine ⟨?_, h.owes.send _, pieces, some exit, rfl, Or.inr rfl⟩
  rw [Channel.capacity_send]
  exact h.room

/-- What others do adds to the end of what a viewer waits for. -/
theorem act_other (h : Awaits hub r pending) (hReceive : action ≠ .receive r)
    (hDrop : action ≠ .drop r) (rest : List Action) :
    ∃ new, Awaits (hub.act action) r (pending ++ new) ∧
      stream hub.ended (action :: rest) = new ++ stream (hub.act action).ended rest := by
  have hNothing : ∀ {hub'}, Awaits hub' r pending → hub'.ended = hub.ended →
      stream hub.ended (action :: rest) = stream hub.ended rest → ∃ new,
        Awaits hub' r (pending ++ new) ∧
          stream hub.ended (action :: rest) = new ++ stream hub'.ended rest := by
    intro hub' hSame hEnded hStream
    exact ⟨[], by rwa [List.append_nil], by rw [hStream, hEnded, List.nil_append]⟩
  have hOther : (∀ chunk, action ≠ .publish chunk) → (∀ exit, action ≠ .finish exit) →
      stream hub.ended (action :: rest) = stream hub.ended rest := by
    intro hPublish hFinish
    cases action <;> simp_all [stream, published, announced]
  cases action with
  | publish chunk =>
    cases hEnded : hub.ended with
    | some exit =>
      rw [act, publish_of_ended (by rw [hEnded, Option.isSome_some]), ← hEnded]
      refine hNothing h rfl ?_
      rw [hEnded]
      rfl
    | none =>
      cases hChunk : chunk.isEmpty with
      | true =>
        rw [act, publish_of_isEmpty hChunk, ← hEnded]
        refine hNothing h rfl ?_
        rw [hEnded, stream, stream, published, if_pos hChunk]
        rfl
      | false =>
        refine ⟨[.output chunk], h.publish hChunk hEnded, ?_⟩
        have hStill : (hub.publish chunk).ended = none := by
          rw [publish_of_open hChunk hEnded]
          exact hEnded
        rw [act, hStill, stream, stream, published, hChunk]
        rfl
  | finish exit =>
    cases hEnded : hub.ended with
    | some first =>
      rw [act, finish_of_ended (by rw [hEnded, Option.isSome_some]), ← hEnded]
      refine hNothing h rfl ?_
      rw [hEnded]
      rfl
    | none =>
      refine ⟨[.ended exit], h.finish hEnded exit, ?_⟩
      rw [act, finish_of_open hEnded]
      rfl
  | subscribe => exact hNothing ⟨h.room, h.owes.subscribe, h.ordered⟩ rfl (hOther (by simp) (by simp))
  | receive r' =>
    have hNe : r' ≠ r := fun hSame => hReceive (hSame ▸ rfl)
    refine hNothing ⟨?_, h.owes.receive_other hNe, h.ordered⟩ rfl (hOther (by simp) (by simp))
    rw [act, Hub.receive, Channel.capacity_receive]
    exact h.room
  | drop r' =>
    have hNe : r' ≠ r := fun hSame => hDrop (hSame ▸ rfl)
    exact hNothing ⟨h.room, h.owes.drop hNe, h.ordered⟩ rfl (hOther (by simp) (by simp))
  | close => exact hNothing ⟨h.room, h.owes.close, h.ordered⟩ rfl (hOther (by simp) (by simp))

/-- The viewer is told of the front of what it waits for, if it waits for anything. -/
theorem receive (h : Awaits hub r pending) :
    (pending = [] ∧ isNews (hub.receive r).1 = false ∧ (hub.receive r).2 = hub) ∨
    ∃ front rest, pending = front ++ rest ∧ Awaits (hub.receive r).2 r rest ∧
      isNews (hub.receive r).1 = true ∧
      ∀ got events, Hears got events → Hears ((hub.receive r).1 :: got) (front ++ events) := by
  have hRoom : 0 < (hub.receive r).2.channel.capacity := by
    rw [Hub.receive, Channel.capacity_receive]
    exact h.room
  rcases h.owes.receive h.room with ⟨hNone, hTold⟩ | ⟨event, rest, rfl, hTold, hOwes⟩ |
    ⟨missed, rest, hMissed, hRest, rfl, hTold, hOwes⟩
  · refine Or.inl ⟨hNone, ?_⟩
    rcases hTold with hEmpty | hClosed
    · rw [Hub.receive, hEmpty]
      exact ⟨rfl, rfl⟩
    · rw [Hub.receive, hClosed]
      exact ⟨rfl, rfl⟩
  · have hOrdered : IsOrdered hub.ended rest := by
      by_cases hRest : rest = []
      · rw [hRest]
        exact .nil _
      · have hParts : IsOrdered hub.ended ([event] ++ rest) := h.ordered
        exact (hParts.of_append hRest).2
    refine Or.inr ⟨[event], rest, rfl, ⟨hRoom, hOwes, hOrdered⟩, ?_, fun got events hHears => ?_⟩
    · rw [Hub.receive, hTold]
      rfl
    · rw [Hub.receive, hTold]
      exact .value event hHears
  · obtain ⟨⟨pieces, rfl⟩, hOrdered⟩ := h.ordered.of_append hRest
    refine Or.inr ⟨_, rest, rfl, ⟨hRoom, hOwes, hOrdered⟩, ?_, fun got events hHears => ?_⟩
    · rw [Hub.receive, hTold]
      rfl
    · rw [Hub.receive, hTold, List.length_map]
      exact .lagged (by simpa using hMissed) hHears

/-- A viewer that is not dropped waits for something, or nothing, after any actions. -/
theorem run (h : Awaits hub r pending) (hKept : .drop r ∉ actions) :
    ∃ left, Awaits (hub.run actions) r left := by
  induction actions generalizing hub pending with
  | nil => exact ⟨pending, h⟩
  | cons action rest ih =>
    obtain ⟨hDrop, hRest⟩ := not_or.mp fun hMem => hKept (List.mem_cons.mpr hMem)
    rw [run_cons]
    by_cases hReceive : action = .receive r
    · subst hReceive
      rcases h.receive with ⟨-, -, hSame⟩ | ⟨_, left, -, hLeft, -⟩
      · rw [act, hSame]
        exact ih h hRest
      · exact ih hLeft hRest
    · obtain ⟨new, hNext, -⟩ := h.act_other hReceive (fun hSame => hDrop hSame.symm) rest
      exact ih hNext hRest

/-- What a viewer is told during actions is the front of what it waits for and of what the actions
send, and all of it when nothing is left to be told. -/
theorem hears (h : Awaits hub r pending) (actions : List Action) :
    ∃ heard unheard, pending ++ stream hub.ended actions = heard ++ unheard ∧
      Hears (hub.told r actions) heard ∧ (hub.Drained r actions → unheard = []) := by
  induction actions generalizing hub pending with
  | nil =>
    refine ⟨[], pending, ?_, .nil, fun hDrained => ?_⟩
    · cases hEnded : hub.ended <;> simp [stream, published, announced]
    · rcases h.receive with ⟨hNone, -⟩ | ⟨_, _, _, _, hNews, _⟩
      · exact hNone
      · exact absurd (hDrained.2.symm.trans hNews) Bool.false_ne_true
  | cons action rest ih =>
    by_cases hDrop : action = .drop r
    · subst hDrop
      refine ⟨[], _, (List.nil_append _).symm, ?_, fun hDrained => ?_⟩
      · rw [told_cons_of_ne (by simp), told_of_dropped h.owes.dropped]
        exact .nil
      · exact absurd List.mem_cons_self hDrained.1
    have hRest : hub.Drained r (action :: rest) → (hub.act action).Drained r rest :=
      fun hDrained => ⟨fun hMem => hDrained.1 (List.mem_cons_of_mem _ hMem), hDrained.2⟩
    by_cases hReceive : action = .receive r
    · subst hReceive
      have hStream : stream hub.ended (.receive r :: rest) = stream hub.ended rest := by
        cases hEnded : hub.ended <;> rfl
      rw [hStream, told, if_pos rfl]
      rcases h.receive with ⟨-, hNews, hSame⟩ | ⟨front, left, rfl, hLeft, hNews, hHears⟩
      · obtain ⟨heard, unheard, hEvents, hHeard, hAll⟩ := ih h
        rw [act, hSame] at hRest
        refine ⟨heard, unheard, hEvents, ?_, fun hDrained => hAll (hRest hDrained)⟩
        rw [act, hSame, List.filter_cons_of_neg (by simp [hNews])]
        exact hHeard
      · obtain ⟨heard, unheard, hEvents, hHeard, hAll⟩ := ih hLeft
        refine ⟨front ++ heard, unheard, ?_, ?_, fun hDrained => hAll (hRest hDrained)⟩
        · rw [List.append_assoc, List.append_assoc, ← hEvents]
          rfl
        · rw [List.filter_cons_of_pos hNews]
          exact hHears _ _ hHeard
    · obtain ⟨new, hNext, hStream⟩ := h.act_other hReceive hDrop rest
      obtain ⟨heard, unheard, hEvents, hHeard, hAll⟩ := ih hNext
      refine ⟨heard, unheard, ?_, ?_, fun hDrained => hAll (hRest hDrained)⟩
      · rw [hStream, ← List.append_assoc, hEvents]
      · rw [told_cons_of_ne hReceive]
        exact hHeard

end Awaits

-- ---------------------------------------------------------------------------
-- Every viewer
-- ---------------------------------------------------------------------------

theorem Hears.nil_of_nothing {got : List (Received SessionEvent)} {events : List SessionEvent}
    (h : Hears got events) (hNothing : events = []) : got = [] := by
  cases h with
  | nil => rfl
  | value e _ => simp at hNothing
  | lagged hMissed _ => simp [hMissed] at hNothing

/-- Each piece is told of or counted as missed. -/
theorem Hears.pieceCount {got : List (Received SessionEvent)} {events : List SessionEvent}
    (h : Hears got events) :
    (got.map Hub.pieceCount).sum = events.countP fun e => e matches .output _ := by
  induction h with
  | nil => rfl
  | value e _ ih => cases e <;> simp [Hub.pieceCount, ih, Nat.add_comm]
  | lagged _ _ ih => simp [Hub.pieceCount, ih, Function.comp_def]

/-- The end is told of once, last. -/
theorem Hears.ended {got : List (Received SessionEvent)} {pieces : List (List UInt8)} {exit : Exit}
    (h : Hears got (pieces.map .output ++ [.ended exit])) :
    ∃ news, got = news ++ [.value (.ended exit)] ∧ ∀ e, .value (.ended e) ∉ news := by
  generalize hEvents : pieces.map SessionEvent.output ++ [.ended exit] = events at h
  induction h generalizing pieces with
  | nil => simp at hEvents
  | value e hRest ih =>
    cases pieces with
    | nil =>
      obtain ⟨rfl, rfl⟩ : SessionEvent.ended exit = e ∧ [] = _ := by simpa using hEvents
      exact ⟨[], by rw [hRest.nil_of_nothing rfl]; rfl, by simp⟩
    | cons piece pieces =>
      obtain ⟨rfl, hLater⟩ := List.cons.inj hEvents
      obtain ⟨news, rfl, hNews⟩ := ih hLater
      exact ⟨.value (.output piece) :: news, rfl, by simpa using hNews⟩
  | @lagged missed got events _ _ ih =>
    have hSome : events ≠ [] := by
      rintro rfl
      have hAmong : SessionEvent.ended exit ∈ missed.map .output ++ [] := hEvents ▸ by simp
      simp at hAmong
    obtain ⟨_, after, -, -, hAfter⟩ := pieces_of_append hEvents (Nat.le_refl 1) hSome
    obtain ⟨news, rfl, hNews⟩ := ih hAfter.symm
    exact ⟨.lagged missed.length :: news, rfl, by simpa using hNews⟩

/-- Every viewer of a hub with room for any event starts from the last bytes that were published
before it came, and from the end if that came before. It is told of the pieces published from then
on, all in one order and none left out but those it is told it missed, and last of the end, once.
When nothing is left to be told no piece and no end has been left out. -/
theorem viewer_hears_everything (limit capacity : Nat) (hCapacity : 0 < capacity) :
    ∃ hub, Hub.ofCapacity? limit capacity = some hub ∧ ∀ before after : List Action,
      let sub := (hub.run before).subscribe.1
      let joined := (hub.run before).subscribe.2
      let got := joined.told sub.receiver after
      sub.history.flatten = (published before).flatten.rtake limit ∧
      sub.ended = announced before ∧
      ∃ later ending, published (before ++ .subscribe :: after) = published before ++ later ∧
        announced (before ++ .subscribe :: after) = (announced before).or ending ∧
        (announced before ≠ none → later = [] ∧ ending = none ∧ got = []) ∧
        (∃ heard unheard, later.map .output ++ ending.toList.map .ended = heard ++ unheard ∧
          Hears got heard ∧ (joined.Drained sub.receiver after → unheard = [])) ∧
        (joined.Drained sub.receiver after → (got.map pieceCount).sum = later.length ∧
          ∀ exit, ending = some exit → ∃ news, got = news ++ [.value (.ended exit)] ∧
            ∀ e, .value (.ended e) ∉ news) := by
  have hPower : 0 < capacity.nextPowerOfTwo :=
    Nat.pos_of_isPowerOfTwo (Nat.isPowerOfTwo_nextPowerOfTwo capacity)
  refine ⟨{ limit, channel := { capacity := capacity.nextPowerOfTwo } }, ?_, fun before after => ?_⟩
  · rw [ofCapacity?, Channel.ofCapacity?, if_neg (by simpa using Nat.ne_of_gt hCapacity)]
    rfl
  intro sub joined got
  have hBefore := (Consistent.initial limit hPower).run before
  obtain ⟨all, hHolds⟩ := hBefore.sent
  have hEnded : joined.ended = announced before := hBefore.ended
  have hAwaits : Awaits joined sub.receiver [] := ⟨hBefore.room, hHolds.subscribe, .nil _⟩
  obtain ⟨heard, unheard, hStream, hHears, hAll⟩ := hAwaits.hears after
  rw [List.nil_append, hEnded] at hStream
  refine ⟨?_, hEnded, ?_⟩
  · have hKept := hBefore.kept
    rwa [limit_run] at hKept
  rw [published_append, announced_append]
  cases hFirst : announced before with
  | some exit =>
    rw [hFirst] at hStream
    obtain ⟨rfl, rfl⟩ : heard = [] ∧ unheard = [] := List.append_eq_nil_iff.mp hStream.symm
    have hNothing : got = [] := hHears.nil_of_nothing rfl
    refine ⟨[], none, rfl, rfl, fun _ => ⟨rfl, rfl, hNothing⟩, ⟨[], [], rfl, hHears, fun _ => rfl⟩,
      fun _ => ⟨by rw [hNothing]; rfl, by simp⟩⟩
  | none =>
    rw [hFirst] at hStream
    refine ⟨published after, announced after, rfl, rfl, fun hNot => absurd rfl hNot,
      ⟨heard, unheard, hStream, hHears, hAll⟩, fun hDrained => ?_⟩
    rw [hAll hDrained, List.append_nil] at hStream
    rw [← hStream, stream] at hHears
    refine ⟨?_, fun exit hExit => ?_⟩
    · rw [hHears.pieceCount]
      cases announced after <;> simp [Function.comp_def]
    · rw [hExit] at hHears
      exact hHears.ended

/-- With room for one event, a viewer that asks after the end missed two pieces and hears the end.
-/
theorem late_viewer_hears_end :
    let hub : Hub := { limit := 1, channel := { capacity := 1 } }
    let joined := (hub.run [.publish [1, 2]]).subscribe.2
    let after := [.publish [3], .publish [4], .finish {}, .receive 0, .receive 0]
    joined.Drained 0 after ∧ ((joined.told 0 after).map pieceCount).sum = 2 ∧
      ∃ news, joined.told 0 after = news ++ [.value (.ended {})] ∧
        ∀ e, .value (.ended e) ∉ news := by
  intro hub joined after
  have hOne : Nat.nextPowerOfTwo 1 = 1 := by decide +kernel
  have hDrained : joined.Drained 0 after := ⟨by decide, by decide⟩
  obtain ⟨hub', hHub, hHears⟩ := viewer_hears_everything 1 1 (by decide)
  rw [ofCapacity?, Channel.ofCapacity?, hOne] at hHub
  obtain rfl : hub = hub' := Option.some.inj hHub
  obtain ⟨-, -, later, ending, hWhole, hEnd, -, -, hAll⟩ := hHears [.publish [1, 2]] after
  have hLater : [1, 2] :: [[3], [4]] = [1, 2] :: later := hWhole
  obtain rfl : [[3], [4]] = later := (List.cons.inj hLater).2
  exact ⟨hDrained, (hAll hDrained).1, (hAll hDrained).2 {} hEnd.symm⟩

end Hub

end ScriptWarden
