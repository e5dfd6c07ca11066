import ScriptWarden.Proofs.Lookup
import ScriptWarden.Session.Slots

/-!
# Laws of slots

What each change of the slots does to the slot of every script, and that no script is listed twice.

## Results

* `slot?_reserve`, `slot?_publish`, `slot?_vacate`, `slot?_release` — a change touches the slot of
  one script, and gives back only what it may give back.
* `OnePerName` and `onePerName_reserve`, `onePerName_publish`, `onePerName_clear` — every script is
  listed at most once.
-/

namespace ScriptWarden

namespace Slots

variable {s t : Slots} {n m : ScriptName} {id : Nat}

-- ---------------------------------------------------------------------------
-- The slot of a script after a change
-- ---------------------------------------------------------------------------

theorem slot?_cons (n m : ScriptName) (x : Slot) (s : Slots) :
    slot? ((n, x) :: s) m = if m = n then some x else s.slot? m := by
  simpa [slot?] using lookup_cons_eq n m x s

theorem slot?_clear (s : Slots) (n m : ScriptName) :
    (s.clear n).slot? m = if m = n then none else s.slot? m := by
  simpa [slot?, clear] using lookup_filter_ne s n m

/-- A start takes a slot that is free, and no other. -/
theorem slot?_reserve (h : s.reserve n = .ok t) :
    s.slot? n = none ∧ ∀ m, t.slot? m = if m = n then some .starting else s.slot? m := by
  rw [reserve] at h
  split at h
  · cases h
  · next hFree =>
    cases h
    exact ⟨hFree, fun m => slot?_cons n m .starting s⟩

/-- A start of a script whose slot is taken is refused. -/
theorem reserve_eq_error (h : s.slot? n ≠ none) : s.reserve n = .error (.alreadyRunning n.text) := by
  rw [reserve]
  split
  · rfl
  · next hFree => exact absurd hFree h

theorem slot?_publish (s : Slots) (n m : ScriptName) (id : Nat) :
    (s.publish n id).slot? m = if m = n then some (.live id) else s.slot? m := by
  rw [publish, slot?_cons, slot?_clear]
  split <;> rfl

/-- Only a slot that a start holds is vacated. -/
theorem slot?_vacate (s : Slots) (n m : ScriptName) :
    (s.vacate n).slot? m =
      if m = n ∧ s.slot? n = some .starting then none else s.slot? m := by
  rw [vacate]
  by_cases hHeld : s.slot? n = some .starting
  · simp [hHeld, slot?_clear]
  · simp [hHeld]

/-- Only a slot that holds the session itself is released. -/
theorem slot?_release (s : Slots) (n m : ScriptName) (id : Nat) :
    (s.release n id).slot? m =
      if m = n ∧ s.slot? n = some (.live id) then none else s.slot? m := by
  rw [release]
  by_cases hHeld : s.slot? n = some (.live id)
  · simp [hHeld, slot?_clear]
  · simp [hHeld]

/-- A session that holds a slot is one of those there are. -/
theorem mem_sessions_of_slot? (h : s.slot? n = some (.live id)) : id ∈ s.sessions := by
  obtain ⟨before, after, hEntry, -⟩ := List.lookup_eq_some_iff.mp h
  exact List.mem_filterMap.mpr ⟨(n, .live id), hEntry ▸ by simp, rfl⟩

-- ---------------------------------------------------------------------------
-- One slot for each script
-- ---------------------------------------------------------------------------

/-- No script is listed twice. -/
def OnePerName (s : Slots) : Prop := (s.map Prod.fst).Nodup

theorem onePerName_nil : OnePerName [] := List.nodup_nil

theorem onePerName_clear (h : s.OnePerName) (n : ScriptName) : (s.clear n).OnePerName :=
  List.Pairwise.sublist (List.filter_sublist.map _) h

theorem not_mem_of_slot?_none (h : s.slot? n = none) : n ∉ s.map Prod.fst := by
  intro hMem
  obtain ⟨⟨k, x⟩, hEntry, rfl⟩ := List.mem_map.mp hMem
  rw [slot?, List.lookup_eq_none_iff] at h
  simpa using h (k, x) hEntry

theorem onePerName_cons (h : s.OnePerName) (hFree : s.slot? n = none) (x : Slot) :
    OnePerName ((n, x) :: s) :=
  List.nodup_cons.mpr ⟨not_mem_of_slot?_none hFree, h⟩

theorem onePerName_reserve (h : s.OnePerName) (hReserve : s.reserve n = .ok t) :
    t.OnePerName := by
  rw [reserve] at hReserve
  split at hReserve
  · cases hReserve
  · next hFree =>
    cases hReserve
    exact onePerName_cons h hFree .starting

theorem onePerName_publish (h : s.OnePerName) (n : ScriptName) (id : Nat) :
    (s.publish n id).OnePerName :=
  onePerName_cons (onePerName_clear h n) (by simp [slot?_clear]) _

theorem onePerName_vacate (h : s.OnePerName) (n : ScriptName) : (s.vacate n).OnePerName := by
  rw [vacate]
  split
  · exact onePerName_clear h n
  · exact h

theorem onePerName_release (h : s.OnePerName) (n : ScriptName) (id : Nat) :
    (s.release n id).OnePerName := by
  rw [release]
  split
  · exact onePerName_clear h n
  · exact h

/-- There is at most one entry for a script. -/
theorem length_entries_le_one (h : s.OnePerName) (n : ScriptName) :
    (s.filter (·.1 == n)).length ≤ 1 := by
  have hCount : (s.map Prod.fst).count n ≤ 1 := List.nodup_iff_count.mp h n
  rw [List.count_eq_countP, List.countP_map, List.countP_eq_length_filter] at hCount
  exact hCount

end Slots

end ScriptWarden
