/-!
# Looking up keys

What is found under a key in a list of pairs when a pair is put in front, a key is taken out or the
value of a key is set.
-/

namespace ScriptWarden

variable {α β : Type} [BEq α]

theorem lookup_cons_eq (a b : α) (x : β) (l : List (α × β)) :
    ((a, x) :: l).lookup b = if b == a then some x else l.lookup b := by
  rw [List.lookup_cons]
  cases b == a <;> rfl

theorem lookup_filter_ne [LawfulBEq α] (l : List (α × β)) (a b : α) :
    (l.filter (·.1 != a)).lookup b = if b == a then none else l.lookup b := by
  induction l with
  | nil => simp
  | cons e l ih =>
    obtain ⟨k, x⟩ := e
    by_cases hKey : k = a
    · have hFilter : ((k, x) :: l).filter (·.1 != a) = l.filter (·.1 != a) := by simp [hKey]
      rw [hFilter, ih, lookup_cons_eq, hKey]
      cases b == a <;> rfl
    · have hFilter : ((k, x) :: l).filter (·.1 != a) = (k, x) :: l.filter (·.1 != a) := by
        simp [hKey]
      rw [hFilter, lookup_cons_eq, lookup_cons_eq, ih]
      by_cases hAt : b = k
      · simp [hAt, hKey]
      · simp [hAt]

theorem lookup_map_set [LawfulBEq α] (l : List (α × β)) (a b : α) (x : β) :
    (l.map fun (k, y) => (k, if k == a then x else y)).lookup b =
      if b == a then (l.lookup b).map fun _ => x else l.lookup b := by
  induction l with
  | nil => simp
  | cons e l ih =>
    obtain ⟨k, y⟩ := e
    rw [List.map_cons, lookup_cons_eq, lookup_cons_eq, ih]
    by_cases hAt : b = k
    · subst hAt
      cases b == a <;> simp
    · simp [hAt]

end ScriptWarden
