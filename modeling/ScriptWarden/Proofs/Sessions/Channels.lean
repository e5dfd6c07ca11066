import Mathlib.Data.List.DropRight
import ScriptWarden.Proofs.Lookup
import ScriptWarden.Session.Channel

/-!
# Deliveries

What a channel still has to tell a receiver, as a list: the values sent since it subscribed that it
has not been told of. Sending adds to the end of the list; what is received is its front, or the
number of values taken from its front because the channel let go of them. What others do leaves the
list alone, as long as the receiver is not dropped.

A channel that keeps any value keeps the last one, so a receiver that missed values is always owed
one more.

## Results

* `Holds` — the channel keeps the last values sent, whatever happens.
* `Owes.receive` — what is received, and `Owes.send`, `Owes.subscribe`, `Owes.drop`,
  `Owes.receive_other` — what else happens.
-/

namespace ScriptWarden

theorem rtake_append_of_le {α : Type} {n : Nat} (l : List α) {m : List α} (h : n ≤ m.length) :
    (l ++ m).rtake n = m.rtake n := by
  rw [List.rtake, List.rtake, List.length_append, Nat.add_sub_assoc h, List.drop_length_add_append]

theorem rtake_append_rtake {α : Type} (n : Nat) (l m : List α) :
    (l.rtake n ++ m).rtake n = (l ++ m).rtake n := by
  rcases Nat.le_total l.length n with hShort | hLong
  · have hAll : l.rtake n = l := by rw [List.rtake, Nat.sub_eq_zero_of_le hShort, List.drop_zero]
    rw [hAll]
  · have hLength : (l.rtake n).length = n := by
      rw [List.rtake, List.length_drop, Nat.sub_sub_self hLong]
    have hParts : l.take (l.length - n) ++ (l.rtake n ++ m) = l ++ m := by
      rw [← List.append_assoc, List.rtake, List.take_append_drop]
    rw [← hParts, rtake_append_of_le (l.take _)]
    rw [List.length_append, hLength]
    exact Nat.le_add_right n _

namespace Channel

variable {α : Type} {c : Channel α} {all pending : List α} {r : Nat}

-- ---------------------------------------------------------------------------
-- What is kept
-- ---------------------------------------------------------------------------

/-- All values that were sent: the last of them are kept. -/
structure Holds (c : Channel α) (all : List α) : Prop where
  sent : c.sent = all.length
  kept : c.kept = all.rtake c.capacity

theorem Holds.initial (capacity : Nat) : Holds ({ capacity } : Channel α) [] :=
  ⟨rfl, List.rtake_nil capacity |>.symm⟩

theorem Holds.send (h : c.Holds all) (a : α) (hReceiver : c.receivers ≠ []) :
    (c.send a).Holds (all ++ [a]) := by
  have hSend : c.send a = { c with
      sent := c.sent + 1, kept := (c.kept ++ [a]).rtake c.capacity } := by
    rw [Channel.send, if_neg (by simpa using hReceiver)]
    rfl
  rw [hSend]
  refine ⟨?_, ?_⟩
  · rw [h.sent, List.length_append, List.length_singleton]
  · rw [h.kept, rtake_append_rtake]

theorem exists_holds_send (h : ∃ all, c.Holds all) (a : α) : ∃ all, (c.send a).Holds all := by
  obtain ⟨all, hHolds⟩ := h
  by_cases hReceiver : c.receivers = []
  · exact ⟨all, by rwa [Channel.send, if_pos (by simp [hReceiver])]⟩
  · exact ⟨all ++ [a], hHolds.send a hReceiver⟩

@[simp] theorem capacity_send (a : α) : (c.send a).capacity = c.capacity := by
  rw [Channel.send]
  split <;> rfl

/-- The count of values before the oldest one kept. -/
theorem Holds.oldest (h : c.Holds all) : c.oldest = all.length - c.capacity := by
  rw [Channel.oldest, h.sent, h.kept, List.rtake, List.length_drop]
  omega

/-- What is kept is found where it was sent. -/
theorem Holds.getElem? (h : c.Holds all) {position : Nat} (hKept : c.oldest ≤ position) :
    c.kept[position - c.oldest]? = all[position]? := by
  rw [h.oldest] at hKept ⊢
  rw [h.kept, List.rtake, List.getElem?_drop, Nat.add_sub_cancel' hKept]

-- ---------------------------------------------------------------------------
-- What is owed
-- ---------------------------------------------------------------------------

/-- The values that a receiver has not been told of. -/
def Owes (c : Channel α) (r : Nat) (pending : List α) : Prop :=
  r < c.nextReceiver ∧ ∃ told, c.Holds (told ++ pending) ∧ c.receivers.lookup r = some told.length

/-- Whether a receiver has been dropped. -/
def Dropped (c : Channel α) (r : Nat) : Prop :=
  r < c.nextReceiver ∧ c.receivers.lookup r = none

theorem Holds.subscribe (h : c.Holds all) : c.subscribe.2.Owes c.subscribe.1 [] := by
  refine ⟨Nat.lt_succ_self _, all, ?_, ?_⟩
  · rw [List.append_nil]
    exact ⟨h.sent, h.kept⟩
  · rw [Channel.subscribe, lookup_cons_eq, if_pos (by simp), h.sent]

theorem setPosition_lookup (r' position : Nat) :
    (c.setPosition r' position).receivers.lookup r =
      if r == r' then (c.receivers.lookup r).map fun _ => position else c.receivers.lookup r :=
  lookup_map_set c.receivers r' r position

/-- A receiver that has been told changes nothing but its own position. -/
theorem receive_cases (r : Nat) :
    (c.receive r).2 = c ∨ ∃ position, (c.receive r).2 = c.setPosition r position := by
  rw [receive]
  split
  · exact Or.inl rfl
  split
  · exact Or.inr ⟨_, rfl⟩
  split
  · exact Or.inr ⟨_, rfl⟩
  · exact Or.inl rfl

theorem Holds.receive (h : c.Holds all) (r : Nat) : (c.receive r).2.Holds all := by
  rcases c.receive_cases r with hSame | ⟨position, hMoved⟩
  · rwa [hSame]
  · rw [hMoved]
    exact ⟨h.sent, h.kept⟩

@[simp] theorem capacity_receive (r : Nat) : (c.receive r).2.capacity = c.capacity := by
  rcases c.receive_cases r with hSame | ⟨position, hMoved⟩
  · rw [hSame]
  · rw [hMoved]
    rfl

theorem Owes.send (h : c.Owes r pending) (a : α) : (c.send a).Owes r (pending ++ [a]) := by
  obtain ⟨hKnown, told, hHolds, hAt⟩ := h
  have hReceiver : c.receivers ≠ [] := by
    intro hNone
    simp [hNone] at hAt
  refine ⟨?_, told, List.append_assoc told pending [a] ▸ hHolds.send a hReceiver, ?_⟩ <;>
    rw [Channel.send, if_neg (by simpa using hReceiver)]
  · exact hKnown
  · exact hAt

theorem Owes.subscribe (h : c.Owes r pending) : c.subscribe.2.Owes r pending := by
  obtain ⟨hKnown, told, hHolds, hAt⟩ := h
  refine ⟨Nat.lt_succ_of_lt hKnown, told, ⟨hHolds.sent, hHolds.kept⟩, ?_⟩
  rw [Channel.subscribe, lookup_cons_eq, if_neg (by simpa using Nat.ne_of_lt hKnown), hAt]

theorem Owes.drop (h : c.Owes r pending) {r' : Nat} (hOther : r' ≠ r) :
    (c.drop r').Owes r pending := by
  obtain ⟨hKnown, told, hHolds, hAt⟩ := h
  refine ⟨hKnown, told, ⟨hHolds.sent, hHolds.kept⟩, ?_⟩
  rw [Channel.drop, lookup_filter_ne, if_neg (by simpa using hOther.symm), hAt]

theorem Owes.close (h : c.Owes r pending) : c.close.Owes r pending := by
  obtain ⟨hKnown, told, hHolds, hAt⟩ := h
  exact ⟨hKnown, told, ⟨hHolds.sent, hHolds.kept⟩, hAt⟩

theorem Owes.receive_other (h : c.Owes r pending) {r' : Nat} (hOther : r' ≠ r) :
    (c.receive r').2.Owes r pending := by
  obtain ⟨hKnown, told, hHolds, hAt⟩ := h
  rcases c.receive_cases r' with hSame | ⟨position, hMoved⟩
  · rw [hSame]
    exact ⟨hKnown, told, hHolds, hAt⟩
  · rw [hMoved]
    refine ⟨hKnown, told, ⟨hHolds.sent, hHolds.kept⟩, ?_⟩
    rw [setPosition_lookup, if_neg (by simpa using hOther.symm), hAt]

/-- A receiver is told nothing when it is owed nothing, and otherwise of the next value, or of how
many it missed of those before one that is kept. -/
theorem Owes.receive (h : c.Owes r pending) (hCapacity : 0 < c.capacity) :
    (pending = [] ∧ (c.receive r = (.empty, c) ∨ c.receive r = (.closed, c))) ∨
    (∃ a rest, pending = a :: rest ∧ (c.receive r).1 = .value a ∧ (c.receive r).2.Owes r rest) ∨
    (∃ missed rest, missed ≠ [] ∧ rest ≠ [] ∧ pending = missed ++ rest ∧
      (c.receive r).1 = .lagged missed.length ∧ (c.receive r).2.Owes r rest) := by
  obtain ⟨hKnown, told, hHolds, hAt⟩ := h
  -- to move on is to be told of the front of what is owed
  have hMove : ∀ front rest, pending = front ++ rest →
      (c.setPosition r (told.length + front.length)).Owes r rest := by
    rintro front rest rfl
    refine ⟨hKnown, told ++ front, ?_, ?_⟩
    · rw [List.append_assoc]
      exact ⟨hHolds.sent, hHolds.kept⟩
    · rw [setPosition_lookup, if_pos (by simp), hAt, Option.map_some, List.length_append]
  have hOldest := hHolds.oldest
  rw [List.length_append] at hOldest
  rw [Channel.receive, hAt]
  by_cases hBehind : told.length < c.oldest
  · have hParts : pending = pending.take (c.oldest - told.length) ++
        pending.drop (c.oldest - told.length) := (List.take_append_drop _ _).symm
    have hMissed : (pending.take (c.oldest - told.length)).length = c.oldest - told.length := by
      rw [List.length_take]
      omega
    have hRest : 0 < (pending.drop (c.oldest - told.length)).length := by
      rw [List.length_drop]
      omega
    refine Or.inr (Or.inr ⟨_, _, ?_, List.length_pos_iff.mp hRest, hParts, ?_, ?_⟩)
    · rw [← List.length_pos_iff, hMissed]
      omega
    · simp only [if_pos hBehind, hMissed]
    · have hMoved := hMove _ _ hParts
      rw [hMissed, Nat.add_sub_cancel' (Nat.le_of_lt hBehind)] at hMoved
      simpa only [if_pos hBehind] using hMoved
  · have hNext : c.kept[told.length - c.oldest]? = pending.head? := by
      rw [hHolds.getElem? (Nat.le_of_not_lt hBehind), List.getElem?_append_right (Nat.le_refl _),
        Nat.sub_self, List.head?_eq_getElem?]
    cases pending with
    | nil =>
      refine Or.inl ⟨rfl, ?_⟩
      simp only [if_neg hBehind, hNext, List.head?_nil]
      cases c.closed
      · exact Or.inl rfl
      · exact Or.inr rfl
    | cons a rest =>
      refine Or.inr (Or.inl ⟨a, rest, rfl, ?_, ?_⟩)
      · simp only [if_neg hBehind, hNext, List.head?_cons]
      · simp only [if_neg hBehind, hNext, List.head?_cons]
        exact hMove [a] rest rfl

/-- A receiver that is owed something, or may be, is told of the end of the channel by a closed one
only. -/
theorem Owes.receive_ne_closed (h : c.Owes r pending) (hOpen : c.closed = false) :
    (c.receive r).1 ≠ .closed := by
  obtain ⟨-, told, -, hAt⟩ := h
  rw [Channel.receive, hAt]
  simp only [hOpen]
  split
  · simp
  · split <;> simp

/-- A receiver is told of nothing but what is kept. -/
theorem mem_kept_of_receive {a : α} (h : (c.receive r).1 = .value a) : a ∈ c.kept := by
  rw [receive] at h
  split at h
  · cases h
  split at h
  · cases h
  split at h
  · next position _ _ a' hKept =>
    cases h
    exact List.mem_of_getElem? hKept
  · split at h <;> cases h

theorem mem_kept_send {a b : α} (h : b ∈ (c.send a).kept) : b ∈ c.kept ∨ b = a := by
  rw [send] at h
  split at h
  · exact Or.inl h
  · exact (List.mem_append.mp (List.mem_of_mem_drop h)).imp_right List.mem_singleton.mp

theorem kept_receive (r : Nat) : (c.receive r).2.kept = c.kept := by
  rcases c.receive_cases r with hSame | ⟨position, hMoved⟩
  · rw [hSame]
  · rw [hMoved]
    rfl

theorem closed_send (a : α) : (c.send a).closed = c.closed := by
  rw [Channel.send]
  split <;> rfl

theorem closed_receive (r : Nat) : (c.receive r).2.closed = c.closed := by
  rcases c.receive_cases r with hSame | ⟨position, hMoved⟩
  · rw [hSame]
  · rw [hMoved]
    rfl

-- ---------------------------------------------------------------------------
-- Dropped receivers
-- ---------------------------------------------------------------------------

theorem Owes.dropped (h : c.Owes r pending) : (c.drop r).Dropped r := by
  refine ⟨h.1, ?_⟩
  rw [Channel.drop, lookup_filter_ne, if_pos (by simp)]

namespace Dropped

theorem receive_eq (h : c.Dropped r) : c.receive r = (.closed, c) := by
  rw [Channel.receive, h.2]

theorem send (h : c.Dropped r) (a : α) : (c.send a).Dropped r := by
  rw [Channel.send]
  split <;> exact h

theorem subscribe (h : c.Dropped r) : c.subscribe.2.Dropped r := by
  refine ⟨Nat.lt_succ_of_lt h.1, ?_⟩
  rw [Channel.subscribe, lookup_cons_eq, if_neg (by simpa using Nat.ne_of_lt h.1), h.2]

theorem drop (h : c.Dropped r) (r' : Nat) : (c.drop r').Dropped r := by
  refine ⟨h.1, ?_⟩
  rw [Channel.drop, lookup_filter_ne, h.2, ite_self]

theorem receive (h : c.Dropped r) (r' : Nat) : (c.receive r').2.Dropped r := by
  rcases c.receive_cases r' with hSame | ⟨position, hMoved⟩
  · rwa [hSame]
  · rw [hMoved]
    refine ⟨h.1, ?_⟩
    rw [setPosition_lookup, h.2, Option.map_none, ite_self]

end Dropped

end Channel

end ScriptWarden
