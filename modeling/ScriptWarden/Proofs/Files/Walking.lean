import ScriptWarden.Host.Files
import ScriptWarden.Proofs.Lookup

/-!
# Walking

Where paths lead, and what that depends on. A walk that goes on goes through directories and links
only, so files may come and go without any path leading elsewhere; and a walk that does not follow
a link at its end comes to a place with the last name of the path.

## Results

* `place_ok_iff` — files that have the same ways have the same places.
* `place_getLast?` — the last name of a place is the last name of the path.
* `place_follow`, `place_noFollow` — following a link at the end makes no difference where there is
  none.
-/

namespace ScriptWarden

namespace Files

variable {fs fs' : Files}

-- ---------------------------------------------------------------------------
-- Entries and bodies after a change
-- ---------------------------------------------------------------------------

theorem entryAt?_setEntry (fs : Files) {p : FilePlace} (hp : p ≠ []) (e : Entry) (q : FilePlace) :
    (fs.setEntry p e).entryAt? q = if q = p then some e else fs.entryAt? q := by
  by_cases hRoot : q = []
  · simp [entryAt?, hRoot, hp.symm]
  · by_cases hAt : q = p
    · simp [entryAt?, setEntry, hAt, hp]
    · simp [entryAt?, setEntry, hRoot, hAt, lookup_cons_eq, lookup_filter_ne]

theorem entryAt?_clearEntry (fs : Files) {p : FilePlace} (hp : p ≠ []) (q : FilePlace) :
    (fs.clearEntry p).entryAt? q = if q = p then none else fs.entryAt? q := by
  by_cases hRoot : q = []
  · simp [entryAt?, hRoot, hp.symm]
  · by_cases hAt : q = p
    · simp [entryAt?, clearEntry, hAt, hp, lookup_filter_ne]
    · simp [entryAt?, clearEntry, hRoot, hAt, lookup_filter_ne]

theorem body_setBody (fs : Files) (id : FileId) (b : FileBody) (j : FileId) :
    (fs.setBody id b).body j = if j = id then b else fs.body j := by
  by_cases hAt : j = id
  · simp [body, setBody, hAt]
  · simp [body, setBody, hAt, lookup_cons_eq, lookup_filter_ne]

-- ---------------------------------------------------------------------------
-- Plain files
-- ---------------------------------------------------------------------------

/-- There are no links, and every file has one name and an identity that was given out. -/
structure Plain (fs : Files) : Prop where
  noLinks : ∀ {q : FilePlace} {t : String}, fs.entryAt? q ≠ some (.link t)
  oneName : ∀ {q q' : FilePlace} {id : FileId}, fs.entryAt? q = some (.file id) →
    fs.entryAt? q' = some (.file id) → q' = q
  fresh : ∀ {q : FilePlace} {id : FileId}, fs.entryAt? q = some (.file id) → id < fs.nextId

theorem entry_of_entryAt? {q : FilePlace} {e : Entry} (h : fs.entryAt? q = some e) :
    e = .directory ∨ (q, e) ∈ fs.entries := by
  unfold entryAt? at h
  split at h
  · exact .inl (Option.some.inj h).symm
  · obtain ⟨front, rest, hEntries, -⟩ := List.lookup_eq_some_iff.mp h
    exact .inr (by simp [hEntries])

/-- That files are plain can be seen from the list of what there is. -/
theorem plain_of_entries (hLinks : ∀ x ∈ fs.entries, ∀ t, x.2 ≠ .link t)
    (hNames : ∀ x ∈ fs.entries, ∀ y ∈ fs.entries, ∀ id, x.2 = .file id → y.2 = .file id →
      y.1 = x.1)
    (hFresh : ∀ x ∈ fs.entries, ∀ id, x.2 = .file id → id < fs.nextId) : fs.Plain where
  noLinks {q t} hEntry := by
    rcases entry_of_entryAt? hEntry with h | hMem
    · cases h
    · exact hLinks _ hMem t rfl
  oneName {q q' id} hEntry hEntry' := by
    rcases entry_of_entryAt? hEntry with h | hMem
    · cases h
    rcases entry_of_entryAt? hEntry' with h | hMem'
    · cases h
    exact hNames _ hMem _ hMem' id rfl rfl
  fresh {q id} hEntry := by
    rcases entry_of_entryAt? hEntry with h | hMem
    · cases h
    · exact hFresh _ hMem id rfl

-- ---------------------------------------------------------------------------
-- Ways
-- ---------------------------------------------------------------------------

/-- What a walk that goes on can go through at a place: a directory or a link. -/
def wayAt? (fs : Files) (p : FilePlace) : Option Entry :=
  match fs.entryAt? p with
  | some (.file _) => none
  | e => e

/-- Directories and links are the same; files may differ. -/
def SameWays (fs fs' : Files) : Prop := ∀ p, fs'.wayAt? p = fs.wayAt? p

theorem SameWays.trans {fs fs' fs'' : Files} (h : SameWays fs fs') (h' : SameWays fs' fs'') :
    SameWays fs fs'' := fun p => (h' p).trans (h p)

theorem wayAt?_eq_some_iff {p : FilePlace} {e : Entry} :
    fs.wayAt? p = some e ↔ fs.entryAt? p = some e ∧ ∀ id, e ≠ .file id := by
  rw [wayAt?]
  cases hEntry : fs.entryAt? p with
  | none => simp
  | some e' =>
    cases e' with
    | file id =>
      simp only [reduceCtorEq, Option.some.injEq, false_iff, not_and]
      rintro rfl hNot
      exact hNot id rfl
    | directory =>
      simp only [Option.some.injEq, iff_self_and]
      rintro rfl id
      simp
    | link target =>
      simp only [Option.some.injEq, iff_self_and]
      rintro rfl id
      simp

theorem wayAt?_directory_iff {p : FilePlace} :
    fs.wayAt? p = some .directory ↔ fs.entryAt? p = some .directory := by
  simp [wayAt?_eq_some_iff]

theorem wayAt?_link_iff {p : FilePlace} {target : String} :
    fs.wayAt? p = some (.link target) ↔ fs.entryAt? p = some (.link target) := by
  simp [wayAt?_eq_some_iff]

theorem wayAt?_eq_none_iff {p : FilePlace} :
    fs.wayAt? p = none ↔ fs.entryAt? p = none ∨ ∃ id, fs.entryAt? p = some (.file id) := by
  rw [wayAt?]
  split
  · next id hEntry => simp [hEntry]
  · next hNot =>
    refine ⟨Or.inl, ?_⟩
    rintro (hNone | ⟨id, hFile⟩)
    · exact hNone
    · exact absurd hFile (hNot id)

theorem SameWays.link_iff (h : SameWays fs fs') {p : FilePlace} {target : String} :
    fs'.entryAt? p = some (.link target) ↔ fs.entryAt? p = some (.link target) := by
  rw [← wayAt?_link_iff, h p, wayAt?_link_iff]

-- ---------------------------------------------------------------------------
-- Walks
-- ---------------------------------------------------------------------------

theorem walk_nil {follow : Bool} {n : Nat} {p r : FilePlace} :
    fs.walk follow n p [] = .ok r ↔ n ≠ 0 ∧ p = r := by
  cases n <;> simp [walk]

/-- A step of a walk that arrives looks at nothing but ways. -/
theorem walk_cons {follow : Bool} {n : Nat} {p r : FilePlace} {s : String} {rest : List String} :
    fs.walk follow (n + 1) p (s :: rest) = .ok r ↔ fs.wayAt? p = some .directory ∧
      if s = "." then fs.walk follow n p rest = .ok r
      else if s = ".." then fs.walk follow n p.dropLast rest = .ok r
      else s.utf8ByteSize ≤ nameLimit ∧
        match fs.wayAt? (p ++ [s]) with
        | some (.link target) =>
          if rest = [] ∧ follow = false then p ++ [s] = r
          else fs.walk follow n (if target.startsWith "/" then [] else p)
            (steps target ++ rest) = .ok r
        | some .directory => fs.walk follow n (p ++ [s]) rest = .ok r
        | _ => rest = [] ∧ p ++ [s] = r := by
  rw [walk, wayAt?_directory_iff]
  by_cases hHere : fs.entryAt? p = some .directory
  · by_cases hDot : s = "."
    · simp [hHere, hDot]
    · by_cases hUp : s = ".."
      · simp [hHere, hUp]
      · by_cases hLong : nameLimit < s.utf8ByteSize
        · simp [hHere, hDot, hUp, hLong, Nat.not_le.mpr hLong]
        · have hShort := Nat.not_lt.mp hLong
          rw [wayAt?]
          cases hNext : fs.entryAt? (p ++ [s]) with
          | none => cases rest <;> simp [hHere, hDot, hUp, hLong, hShort, hNext]
          | some e =>
            cases e with
            | file id => cases rest <;> simp [hHere, hDot, hUp, hLong, hShort, hNext]
            | directory => simp [hHere, hDot, hUp, hLong, hShort, hNext]
            | link target =>
              cases rest <;> cases follow <;> simp [hHere, hDot, hUp, hLong, hShort, hNext]
  · simp [hHere]

/-- Walks lead to the same places where the ways are the same. -/
theorem walk_ok_iff (h : SameWays fs fs') {follow : Bool} {n : Nat} {p r : FilePlace}
    {l : List String} : fs'.walk follow n p l = .ok r ↔ fs.walk follow n p l = .ok r := by
  induction n generalizing p l with
  | zero => rfl
  | succ n ih =>
    cases l with
    | nil => rw [walk_nil, walk_nil]
    | cons s rest =>
      rw [walk_cons, walk_cons, h p, h (p ++ [s])]
      simp only [ih]

/-- A walk that does not follow a link at its end comes to a place with the last name of its
steps. -/
theorem walk_getLast? {n : Nat} {p r : FilePlace} {l : List String} {x : String} (hDot : x ≠ ".")
    (hUp : x ≠ "..") (h : fs.walk false n p (l ++ [x]) = .ok r) : r.getLast? = some x := by
  induction n generalizing p l with
  | zero => simp [walk] at h
  | succ n ih =>
    cases l with
    | nil =>
      obtain ⟨-, hStep⟩ := walk_cons.mp h
      rw [if_neg hDot, if_neg hUp] at hStep
      have hHere : p ++ [x] = r := by
        obtain ⟨-, hNext⟩ := hStep
        split at hNext
        · exact hNext
        · exact (walk_nil.mp hNext).2
        · exact hNext.2
      simp [← hHere]
    | cons s rest =>
      rw [List.cons_append] at h
      obtain ⟨-, hStep⟩ := walk_cons.mp h
      split at hStep
      · exact ih hStep
      · split at hStep
        · exact ih hStep
        · obtain ⟨-, hNext⟩ := hStep
          split at hNext
          · next target _ =>
            -- the steps of the link stand before those that are left
            rw [if_neg (by simp), ← List.append_assoc] at hNext
            exact ih hNext
          · exact ih hNext
          · exact absurd hNext.1 (by simp)

/-- Where there is no link at the end, following it makes no difference. -/
theorem walk_follow {n : Nat} {p q : FilePlace} {l : List String}
    (h : fs.walk false n p l = .ok q) (hNoLink : ∀ t, fs.entryAt? q ≠ some (.link t)) :
    fs.walk true n p l = .ok q := by
  induction n generalizing p l with
  | zero => simp [walk] at h
  | succ n ih =>
    cases l with
    | nil => rwa [walk_nil] at h ⊢
    | cons s rest =>
      rw [walk_cons] at h ⊢
      obtain ⟨hHere, hStep⟩ := h
      refine ⟨hHere, ?_⟩
      split at hStep
      · rw [if_pos ‹_›]
        exact ih hStep
      · rw [if_neg ‹_›]
        split at hStep
        · rw [if_pos ‹_›]
          exact ih hStep
        · rw [if_neg ‹_›]
          obtain ⟨hShort, hNext⟩ := hStep
          refine ⟨hShort, ?_⟩
          split at hNext
          · next target hLink =>
            by_cases hEnd : rest = []
            · rw [if_pos ⟨hEnd, rfl⟩] at hNext
              subst hNext
              exact absurd (wayAt?_link_iff.mp hLink) (hNoLink target)
            · rw [if_neg (by simp [hEnd])] at hNext
              simp only [Bool.true_eq_false, and_false, if_false]
              exact ih hNext
          · exact ih hNext
          · exact hNext

/-- A walk that arrives arrives also when it does not follow a link at its end: where it does, or at
such a link. -/
theorem walk_noFollow {n : Nat} {p r : FilePlace} {l : List String}
    (h : fs.walk true n p l = .ok r) :
    ∃ q, fs.walk false n p l = .ok q ∧ (q = r ∨ ∃ t, fs.entryAt? q = some (.link t)) := by
  induction n generalizing p l with
  | zero => simp [walk] at h
  | succ n ih =>
    cases l with
    | nil => exact ⟨r, by rwa [walk_nil] at h ⊢, Or.inl rfl⟩
    | cons s rest =>
      rw [walk_cons] at h
      obtain ⟨hHere, hStep⟩ := h
      simp only [walk_cons, hHere, true_and]
      split at hStep
      · simp only [if_pos ‹s = "."›]
        exact ih hStep
      · simp only [if_neg ‹¬s = "."›]
        split at hStep
        · simp only [if_pos ‹s = ".."›]
          exact ih hStep
        · simp only [if_neg ‹¬s = ".."›]
          obtain ⟨hShort, hNext⟩ := hStep
          simp only [hShort, true_and]
          split at hNext
          · next target hLink =>
            simp only [Bool.true_eq_false, and_false, if_false] at hNext
            by_cases hEnd : rest = []
            · refine ⟨p ++ [s], ?_, Or.inr ⟨target, wayAt?_link_iff.mp hLink⟩⟩
              simp [hEnd]
            · simp only [hEnd, false_and, if_false]
              exact ih hNext
          · exact ih hNext
          · exact ⟨r, hNext, Or.inl rfl⟩

/-- All the way to a place are directories. -/
def Open (fs : Files) (p : FilePlace) : Prop := ∀ q, q <+: p → fs.entryAt? q = some .directory

/-- A walk that follows links ends at none. -/
theorem walk_ends {n : Nat} {p r : FilePlace} {l : List String} (hOpen : fs.Open p)
    (h : fs.walk true n p l = .ok r) (t : String) : fs.entryAt? r ≠ some (.link t) := by
  induction n generalizing p l with
  | zero => simp [walk] at h
  | succ n ih =>
    cases l with
    | nil =>
      obtain rfl := (walk_nil.mp h).2
      simp [hOpen p List.prefix_rfl]
    | cons s rest =>
      rw [walk_cons] at h
      obtain ⟨-, hStep⟩ := h
      split at hStep
      · exact ih hOpen hStep
      · split at hStep
        · exact ih (fun q hq => hOpen q (hq.trans (List.dropLast_prefix p))) hStep
        · obtain ⟨-, hNext⟩ := hStep
          split at hNext
          · next target hLink =>
            simp only [Bool.true_eq_false, and_false, if_false] at hNext
            refine ih ?_ hNext
            split
            · intro q hq
              rw [List.prefix_nil.mp hq]
              rfl
            · exact hOpen
          · next hDirectory =>
            refine ih (fun q hq => ?_) hNext
            rcases List.prefix_concat_iff.mp hq with rfl | hAbove
            · exact wayAt?_directory_iff.mp hDirectory
            · exact hOpen q hAbove
          · next hNoLink _ =>
            obtain ⟨-, rfl⟩ := hNext
            intro hLink
            exact hNoLink t (wayAt?_link_iff.mpr hLink)

-- ---------------------------------------------------------------------------
-- Places
-- ---------------------------------------------------------------------------

theorem place_eq_ok {path : String} {follow : Bool} {r : FilePlace} :
    fs.place path follow = .ok r ↔ path ≠ "" ∧ '\x00' ∉ path.toList ∧
      fs.walk follow stepLimit [] (steps path) = .ok r := by
  rw [place]
  by_cases hEmpty : path = ""
  · simp [hEmpty]
  · by_cases hNul : '\x00' ∈ path.toList
    · simp [hEmpty, hNul]
    · simp [hEmpty, hNul]

/-- Paths lead to the same places where the ways are the same. -/
theorem place_ok_iff (h : SameWays fs fs') {path : String} {follow : Bool} {r : FilePlace} :
    fs'.place path follow = .ok r ↔ fs.place path follow = .ok r := by
  rw [place_eq_ok, place_eq_ok, walk_ok_iff h]

theorem place_getLast? {path x : String} {l : List String} {r : FilePlace}
    (hSteps : steps path = l ++ [x]) (hDot : x ≠ ".") (hUp : x ≠ "..")
    (h : fs.place path false = .ok r) : r.getLast? = some x := by
  rw [place_eq_ok, hSteps] at h
  exact walk_getLast? hDot hUp h.2.2

theorem place_follow {path : String} {q : FilePlace} (h : fs.place path false = .ok q)
    (hNoLink : ∀ t, fs.entryAt? q ≠ some (.link t)) : fs.place path = .ok q := by
  rw [place_eq_ok] at h ⊢
  exact ⟨h.1, h.2.1, walk_follow h.2.2 hNoLink⟩

theorem place_noFollow {path : String} {r : FilePlace} (h : fs.place path = .ok r) :
    ∃ q, fs.place path false = .ok q ∧ (q = r ∨ ∃ t, fs.entryAt? q = some (.link t)) := by
  rw [place_eq_ok] at h
  obtain ⟨q, hWalk, hEnd⟩ := walk_noFollow h.2.2
  exact ⟨q, place_eq_ok.mpr ⟨h.1, h.2.1, hWalk⟩, hEnd⟩

-- ---------------------------------------------------------------------------
-- Reading and directories
-- ---------------------------------------------------------------------------

theorem existing_eq_ok {path : String} {q : FilePlace} {e : Entry} :
    fs.existing path = .ok (q, e) ↔ fs.place path = .ok q ∧ fs.entryAt? q = some e := by
  rw [existing]
  cases fs.place path with
  | error f => simp [bind, Except.bind]
  | ok p =>
    cases hEntry : fs.entryAt? p with
    | none =>
      simp only [bind, Except.bind, hEntry, reduceCtorEq, Except.ok.injEq, false_iff, not_and]
      rintro rfl
      simp [hEntry]
    | some e' =>
      simp only [bind, Except.bind, hEntry, Except.ok.injEq, Prod.mk.injEq]
      constructor
      · rintro ⟨rfl, rfl⟩
        exact ⟨rfl, hEntry⟩
      · rintro ⟨rfl, hSame⟩
        exact ⟨rfl, Option.some.inj (hEntry.symm.trans hSame)⟩

theorem read_eq_ok {path : String} {bytes : List UInt8} :
    fs.read path = .ok bytes ↔
      ∃ q id, fs.place path = .ok q ∧ fs.entryAt? q = some (.file id) ∧
        (fs.body id).bytes = bytes := by
  rw [read]
  cases hExisting : fs.existing path with
  | error f =>
    simp only [bind, Except.bind, reduceCtorEq, false_iff]
    rintro ⟨q, id, hPlace, hEntry, -⟩
    cases hExisting.symm.trans (existing_eq_ok.mpr ⟨hPlace, hEntry⟩)
  | ok found =>
    obtain ⟨p, e⟩ := found
    obtain ⟨hPlace, hEntry⟩ := existing_eq_ok.mp hExisting
    have hOnly : (∃ q id, fs.place path = .ok q ∧ fs.entryAt? q = some (.file id) ∧
        (fs.body id).bytes = bytes) ↔ ∃ id, e = .file id ∧ (fs.body id).bytes = bytes := by
      simp [hPlace, hEntry]
    rw [hOnly]
    cases e <;> simp [bind, Except.bind]

theorem isDirectory_iff {path : String} :
    fs.isDirectory path = true ↔ ∃ q e, fs.place path = .ok q ∧ fs.wayAt? q = some e := by
  rw [isDirectory, info]
  cases hExisting : fs.existing path with
  | error f =>
    simp only [bind, Except.bind, Bool.false_eq_true, false_iff]
    rintro ⟨q, e, hPlace, hWay⟩
    have hEntry := (wayAt?_eq_some_iff.mp hWay).1
    cases hExisting.symm.trans (existing_eq_ok.mpr ⟨hPlace, hEntry⟩)
  | ok found =>
    obtain ⟨p, e⟩ := found
    obtain ⟨hPlace, hEntry⟩ := existing_eq_ok.mp hExisting
    have hOnly : (∃ q e, fs.place path = .ok q ∧ fs.wayAt? q = some e) ↔
        ∀ id, e ≠ .file id := by
      simp [hPlace, wayAt?_eq_some_iff, hEntry]
    rw [hOnly]
    cases e <;> simp [bind, Except.bind]

/-- The place of a directory that is there. -/
theorem place_of_isDirectory {path : String} (h : fs.isDirectory path = true) :
    ∃ q, fs.place path = .ok q ∧ fs.entryAt? q = some .directory := by
  obtain ⟨q, e, hPlace, hWay⟩ := isDirectory_iff.mp h
  obtain ⟨hEntry, hNoFile⟩ := wayAt?_eq_some_iff.mp hWay
  have hRoot : fs.Open [] := by
    intro q hq
    rw [List.prefix_nil.mp hq]
    rfl
  have hNoLink := walk_ends hRoot (place_eq_ok.mp hPlace).2.2
  have hDirectory : e = .directory := by
    cases e with
    | directory => rfl
    | file id => exact absurd rfl (hNoFile id)
    | link t => exact absurd hEntry (hNoLink t)
  exact ⟨q, hPlace, hDirectory ▸ hEntry⟩

/-- The names in a directory can be read. -/
theorem list_eq_ok {path : String} {q : FilePlace} (hPlace : fs.place path = .ok q)
    (hEntry : fs.entryAt? q = some .directory) : fs.list path = .ok (fs.children q) := by
  simp [list, existing_eq_ok.mpr ⟨hPlace, hEntry⟩, bind, Except.bind]

theorem list_of_isDirectory {path : String} (h : fs.isDirectory path = true) :
    ∃ entries, fs.list path = .ok entries := by
  obtain ⟨q, hPlace, hEntry⟩ := place_of_isDirectory h
  exact ⟨_, list_eq_ok hPlace hEntry⟩

/-- A directory that is there is not made again. -/
theorem makeDirectories_eq_self {path : String} (h : fs.isDirectory path = true) :
    fs.makeDirectories path = .ok fs := by
  obtain ⟨r, e, hPlace, hWay⟩ := isDirectory_iff.mp h
  have hEmpty : path ≠ "" := (place_eq_ok.mp hPlace).1
  obtain ⟨q, hHere, hEnd⟩ := place_noFollow hPlace
  have hTaken : ∃ e, fs.entryAt? q = some e := by
    rcases hEnd with rfl | ⟨t, hLink⟩
    · exact ⟨e, (wayAt?_eq_some_iff.mp hWay).1⟩
    · exact ⟨.link t, hLink⟩
  obtain ⟨e', hEntry⟩ := hTaken
  have hMade : fs.makeDirectory path = .error .alreadyExists := by
    simp [makeDirectory, hHere, bind, Except.bind, hEntry]
  simp [makeDirectories, makeDirectoriesFrom, hEmpty, hMade, h]

end Files

end ScriptWarden
