import Mathlib.Algebra.GroupWithZero.Nat
import Mathlib.Algebra.Order.BigOperators.Group.List
import Mathlib.Algebra.Order.Group.Nat
import Mathlib.Data.List.TakeDrop
import ScriptWarden.Proofs.Confinement

/-!
# Confinement in a directory that is written relatively

A configuration may name the scripts directory, and the directories that scripts may touch, from
the directory that the service works in. Where that is, the check does not know: it follows
relative paths from nowhere, where a `..` too many is dropped, and a root that says nothing
contains everything.

What the check compares is right as far as a path and a root are *level*: both begin at the root of
the file system, or both in the working directory and climb above it equally often. Paths that are
accepted through a root that they are level with lie inside it, wherever the service works. Other
paths are accepted too, and lie outside.

## Results

* `destination_relative` — a relative path leads to what it climbs to, and from there to what the
  check takes for its place.
* `confines_everywhere_iff` — which paths lie inside wherever the service works.
* `accepted_path_confined` — an accepted path does, if it is level with what accepts it.
* `dot_directory_accepts_all`, `climbing_path_accepted` — neither half of that can be left out.
-/

namespace ScriptWarden

-- ---------------------------------------------------------------------------
-- Climbing
-- ---------------------------------------------------------------------------

/-- How often components climb above where they begin, after some that lead down from there. -/
def climbsFrom : Nat → List String → Nat
  | _, [] => 0
  | depth, c :: rest =>
    if c = "" ∨ c = "." then climbsFrom depth rest
    else if c = ".." then
      match depth with
      | 0 => climbsFrom 0 rest + 1
      | d + 1 => climbsFrom d rest
    else climbsFrom (depth + 1) rest

/-- How often a path climbs above where it begins. -/
def climbs (path : String) : Nat := climbsFrom 0 (cutAt '/' path)

/-- Components followed from below a place: what is above the place counts only where they climb
there. -/
theorem foldl_stepTo_append (components place below : List String) :
    components.foldl stepTo (place ++ below) =
      place.take (place.length - climbsFrom below.length components) ++
        components.foldl stepTo below := by
  induction components generalizing place below with
  | nil => simp [climbsFrom]
  | cons c rest ih =>
    rw [List.foldl_cons, List.foldl_cons]
    by_cases hEmpty : c = ""
    · subst hEmpty
      simpa [climbsFrom] using ih place below
    · by_cases hHere : c = "."
      · subst hHere
        simpa [climbsFrom] using ih place below
      · by_cases hUp : c = ".."
        · subst hUp
          rw [stepTo_up, stepTo_up]
          rcases List.eq_nil_or_concat below with rfl | ⟨front, last, hBelow⟩
          · -- nothing is left below: the step is taken above
            have hAbove := ih place.dropLast []
            rw [List.append_nil, List.dropLast_eq_take, List.take_take, List.length_take] at hAbove
            have hKept : min (min (place.length - 1) place.length - climbsFrom 0 rest)
                (place.length - 1) = place.length - (climbsFrom 0 rest + 1) := by omega
            rw [List.length_nil, hKept] at hAbove
            simpa [climbsFrom, List.dropLast_eq_take] using hAbove
          · rw [List.concat_eq_append] at hBelow
            subst hBelow
            rw [← List.append_assoc, List.dropLast_concat, List.dropLast_concat]
            simpa [climbsFrom] using ih place front
        · rw [stepTo_name hEmpty hHere hUp, stepTo_name hEmpty hHere hUp, List.append_assoc]
          simpa [climbsFrom, hEmpty, hHere, hUp] using ih place (below ++ [c])

/-- A relative path leads up as far as it climbs, and then to what it comes to from nowhere. -/
theorem destination_relative {path : String} (h : isAbsolutePath path = false)
    (place : List String) :
    destination place path = place.take (place.length - climbs path) ++ destination [] path := by
  have hFollowed := foldl_stepTo_append (cutAt '/' path) place []
  rw [List.append_nil] at hFollowed
  rw [destination_of_relative h, destination_of_relative h, hFollowed]
  rfl

-- ---------------------------------------------------------------------------
-- Joined paths, from anywhere
-- ---------------------------------------------------------------------------

/-- A path joined to a directory leads, from every place, where it leads from the directory. -/
theorem destination_joinPath_from (place : List String) (directory path : String) :
    destination place (joinPath directory path) =
      destination (destination place directory) path := by
  by_cases hPath : isAbsolutePath path = true
  · rw [joinPath_of_absolute hPath, destination_of_absolute hPath,
      destination_of_absolute hPath (destination place directory)]
  · rw [Bool.not_eq_true] at hPath
    by_cases hEmpty : directory = ""
    · subst hEmpty
      rw [joinPath, if_neg (by simp [hPath])]
      rfl
    · rw [destination, isAbsolutePath_joinPath_of_relative hPath, foldl_joinPath hEmpty hPath,
        destination_of_relative hPath, destination]

-- ---------------------------------------------------------------------------
-- What is to be accepted
-- ---------------------------------------------------------------------------

/-- The place of the scripts directory, for a service that works in a place. -/
def Rules.homeFrom (r : Rules) (place : List String) : List String := destination place r.scriptsDir

/-- The places that file operations may touch, with everything below them, for a service that works
in a place. -/
def Rules.rootPlacesFrom (r : Rules) (place : List String) : List (List String) :=
  if r.policy.allowedPaths = [] then [r.homeFrom place]
  else r.policy.allowedPaths.map (destination (r.homeFrom place))

/-- For a service that works in a place, a path followed from the scripts directory comes to a place
that file operations may touch. -/
def Rules.Confines (r : Rules) (place : List String) (path : String) : Prop :=
  ∃ root ∈ r.rootPlacesFrom place, root <+: destination (r.homeFrom place) path

variable {r : Rules}

theorem rootPlacesFrom_eq (r : Rules) (place : List String) :
    r.rootPlacesFrom place = r.roots.map (destination place) := by
  rw [Rules.rootPlacesFrom, Rules.roots, effectiveRoots]
  by_cases hListed : r.policy.allowedPaths = []
  · simp [hListed, Rules.homeFrom]
  · rw [if_neg hListed, if_neg (by simpa using hListed), List.map_map]
    exact List.map_congr_left fun listed _ =>
      (destination_joinPath_from place r.scriptsDir listed).symm

theorem confines_iff {place : List String} {path : String} :
    r.Confines place path ↔
      ∃ root ∈ r.roots, destination place root <+: destination place (joinPath r.scriptsDir path) := by
  rw [Rules.Confines, rootPlacesFrom_eq, Rules.homeFrom, destination_joinPath_from]
  simp

-- ---------------------------------------------------------------------------
-- What is accepted
-- ---------------------------------------------------------------------------

/-- What the check asks of a root and a path: followed from nowhere, the path comes to a place at or
below the root, and both begin at the root of the file system or neither does, unless the root says
nothing. -/
def Overlays (root path : String) : Prop :=
  (isAbsolutePath root = isAbsolutePath path ∨
      isAbsolutePath root = false ∧ destination [] root = []) ∧
    destination [] root <+: destination [] path

theorem isWithin_iff_overlays {path root : String} :
    (resolvePath path).isWithin (resolvePath root) = true ↔ Overlays root path := by
  rw [ResolvedPath.isWithin, resolvePath_eq, resolvePath_eq]
  simp [Overlays]

theorem allowsPath_iff_overlays {path : String} :
    r.allowsPath path = true ↔ ∃ root ∈ r.roots, Overlays root (joinPath r.scriptsDir path) := by
  rw [Rules.allowsPath, isPathAllowed, List.any_eq_true]
  simp only [isWithin_iff_overlays]

/-- For a scripts directory at the root the check is right wherever the service works. -/
theorem allowsPath_iff_confines (hAbsolute : isAbsolutePath r.scriptsDir = true) {path : String}
    (place : List String) : r.allowsPath path = true ↔ r.Confines place path := by
  have hJoined := isAbsolutePath_joinPath hAbsolute path
  rw [allowsPath_iff_overlays, confines_iff]
  refine exists_congr fun root => and_congr_right fun hRoot => ?_
  have hBegins := isAbsolutePath_of_mem_roots hAbsolute hRoot
  rw [destination_of_absolute hBegins, destination_of_absolute hJoined, Overlays, hBegins, hJoined]
  simp

/-- A root and a path begin at the same place: both at the root of the file system, or both in the
working directory, where they climb equally far. A root that only climbs may also climb further. -/
structure LevelWith (root path : String) : Prop where
  beginning : isAbsolutePath root = isAbsolutePath path
  climbing : isAbsolutePath path = false →
    climbs path = climbs root ∨ destination [] root = [] ∧ climbs path ≤ climbs root

/-- A root contains a path wherever the service works: it is the whole file system, or they are
level and the check is right. -/
def Encloses (root path : String) : Prop :=
  (isAbsolutePath root = true ∧ destination [] root = []) ∨
    (LevelWith root path ∧ destination [] root <+: destination [] path)

theorem Overlays.encloses {root path : String} (h : Overlays root path)
    (hLevel : LevelWith root path) : Encloses root path := Or.inr ⟨hLevel, h.2⟩

theorem Encloses.below {root path : String} (h : Encloses root path) (place : List String) :
    destination place root <+: destination place path := by
  rcases h with ⟨hRoot, hWhole⟩ | ⟨⟨hBeginning, hClimbing⟩, hBelow⟩
  · rw [destination_of_absolute hRoot, hWhole]
    exact List.nil_prefix
  · cases hPath : isAbsolutePath path with
    | true =>
      rwa [destination_of_absolute hPath, destination_of_absolute (hBeginning.trans hPath)]
    | false =>
      rw [destination_relative hPath, destination_relative (hBeginning.trans hPath)]
      rcases hClimbing hPath with hSame | ⟨hNothing, hFurther⟩
      · rw [hSame]
        exact (List.prefix_append_right_inj _).mpr hBelow
      · rw [hNothing, List.append_nil]
        have hAbove : place.take (place.length - climbs root) <+:
            place.take (place.length - climbs path) :=
          List.take_prefix_take_left (by omega)
        exact hAbove.trans (List.prefix_append _ _)

-- ---------------------------------------------------------------------------
-- Which paths lie inside wherever the service works
-- ---------------------------------------------------------------------------

/-- A name of so many letters, and one. -/
def plainName (k : Nat) : String := String.ofList (List.replicate (k + 1) 'x')

/-- Among names that together have so many letters it is not. -/
theorem plainName_not_mem {names : List String} {k : Nat} (hk : (names.map String.length).sum ≤ k) :
    plainName k ∉ names := by
  intro hMember
  have hLength : (plainName k).length = k + 1 := by simp [plainName]
  have hBound : (plainName k).length ≤ (names.map String.length).sum :=
    List.le_sum_of_mem (List.mem_map_of_mem hMember)
  omega

theorem destination_plainName (place : List String) (k : Nat) :
    destination place (plainName k) = place ++ [plainName k] := by
  have hRelative : isAbsolutePath (plainName k) = false := by
    rw [← Bool.not_eq_true, isAbsolutePath_iff]
    simp [plainName, List.replicate_succ]
  have hWhole : cutAt '/' (plainName k) = [plainName k] := by
    have hNoSlash : '/' ∉ List.replicate (k + 1) 'x' := by simp [List.mem_replicate]
    simp [cutAt, plainName, List.splitOn_eq_singleton hNoSlash]
  have hOther : ∀ other : String, other.toList.head? ≠ some 'x' → plainName k ≠ other := by
    rintro other hHead rfl
    exact hHead (by simp [plainName, List.replicate_succ])
  rw [destination_of_relative hRelative, hWhole]
  exact stepTo_name (hOther "" (by decide)) (hOther "." (by decide)) (hOther ".." (by decide)) place

/-- Directories as deep as one likes, all of one name. -/
theorem exists_deep_directory (n k : Nat) :
    ∃ directory, isAbsolutePath directory = true ∧
      destination [] directory = List.replicate n (plainName k) := by
  induction n with
  | zero =>
    refine ⟨"/", by decide +kernel, ?_⟩
    rw [List.replicate_zero]
    decide +kernel
  | succ n ih =>
    obtain ⟨above, hAbsolute, hAbove⟩ := ih
    refine ⟨joinPath above (plainName k), isAbsolutePath_joinPath hAbsolute _, ?_⟩
    rw [destination_joinPath hAbsolute, hAbove, destination_plainName, List.replicate_succ']

/-- A list that begins with a name is no prefix of one without it. -/
theorem not_replicate_below {name : String} {n : Nat} (hn : 0 < n) {rest places : List String}
    (hOther : name ∉ places) : ¬ List.replicate n name ++ rest <+: places := by
  intro hPrefix
  apply hOther
  apply hPrefix.subset
  exact List.mem_append_left _ (List.mem_replicate.mpr ⟨by omega, rfl⟩)

/-- What begins with a name where a list does not contain it is all of the list's prefix. -/
theorem eq_nil_of_prefix_replicate {name : String} {n : Nat} (hn : 0 < n)
    {places rest : List String} (hOther : name ∉ places)
    (hPrefix : places <+: List.replicate n name ++ rest) : places = [] := by
  obtain ⟨m, rfl⟩ : ∃ m, n = m + 1 := ⟨n - 1, by omega⟩
  cases places with
  | nil => rfl
  | cons c tail =>
    rw [List.replicate_succ, List.cons_append, List.cons_prefix_cons] at hPrefix
    exact absurd (hPrefix.1 ▸ List.mem_cons_self) hOther

/-- In a place deep enough, all of whose names are strange to both, a root contains no more than it
contains everywhere. -/
theorem encloses_of_deep {root path name : String} {n : Nat} (hRoot : name ∉ destination [] root)
    (hPath : name ∉ destination [] path) (hRootDepth : climbs root < n) (hPathDepth : climbs path < n)
    (hPrefix : destination (List.replicate n name) root <+:
      destination (List.replicate n name) path) : Encloses root path := by
  cases hRootBegins : isAbsolutePath root with
  | true =>
    rw [destination_of_absolute hRootBegins] at hPrefix
    cases hPathBegins : isAbsolutePath path with
    | true =>
      rw [destination_of_absolute hPathBegins] at hPrefix
      exact Or.inr ⟨⟨hRootBegins.trans hPathBegins.symm, by simp [hPathBegins]⟩, hPrefix⟩
    | false =>
      rw [destination_relative hPathBegins, List.length_replicate, List.take_replicate] at hPrefix
      exact Or.inl ⟨hRootBegins, eq_nil_of_prefix_replicate (by omega) hRoot hPrefix⟩
  | false =>
    rw [destination_relative hRootBegins, List.length_replicate, List.take_replicate] at hPrefix
    cases hPathBegins : isAbsolutePath path with
    | true =>
      rw [destination_of_absolute hPathBegins] at hPrefix
      exact absurd hPrefix (not_replicate_below (by omega) hPath)
    | false =>
      rw [destination_relative hPathBegins, List.length_replicate, List.take_replicate] at hPrefix
      rw [Nat.min_eq_left (by omega), Nat.min_eq_left (by omega)] at hPrefix
      have hBeginning := hRootBegins.trans hPathBegins.symm
      rcases Nat.lt_trichotomy (climbs path) (climbs root) with hLess | hSame | hMore
      · -- the path ends below where the root's climbing ends: what the root says must be nothing
        have hSplit : n - climbs path = (n - climbs root) + (climbs root - climbs path) := by omega
        rw [hSplit, List.replicate_add, List.append_assoc, List.prefix_append_right_inj] at hPrefix
        have hNothing := eq_nil_of_prefix_replicate (by omega) hRoot hPrefix
        refine Or.inr ⟨⟨hBeginning, fun _ => Or.inr ⟨hNothing, Nat.le_of_lt hLess⟩⟩, ?_⟩
        rw [hNothing]
        exact List.nil_prefix
      · rw [hSame, List.prefix_append_right_inj] at hPrefix
        exact Or.inr ⟨⟨hBeginning, fun _ => Or.inl hSame⟩, hPrefix⟩
      · have hSplit : n - climbs root = (n - climbs path) + (climbs path - climbs root) := by omega
        rw [hSplit, List.replicate_add, List.append_assoc, List.prefix_append_right_inj] at hPrefix
        exact absurd hPrefix (not_replicate_below (by omega) hPath)

/-- The paths that lie inside wherever the service works are those that some root encloses. -/
theorem confines_everywhere_iff {path : String} :
    (∀ directory, isAbsolutePath directory = true → r.Confines (destination [] directory) path) ↔
      ∃ root ∈ r.roots, Encloses root (joinPath r.scriptsDir path) := by
  constructor
  · intro hEverywhere
    -- one directory is enough: deeper than anything climbs, under a name that is nowhere mentioned
    let paths := joinPath r.scriptsDir path :: r.roots
    let k := ((paths.flatMap (destination [])).map String.length).sum
    obtain ⟨directory, hAbsolute, hDeep⟩ := exists_deep_directory ((paths.map climbs).sum + 1) k
    obtain ⟨root, hRoot, hPrefix⟩ := confines_iff.mp (hEverywhere directory hAbsolute)
    have hMember : root ∈ paths := List.mem_cons_of_mem _ hRoot
    have hJoined : joinPath r.scriptsDir path ∈ paths := List.mem_cons_self
    have hOther : ∀ p ∈ paths, plainName k ∉ destination [] p := by
      intro p hp hMentioned
      exact plainName_not_mem (Nat.le_refl _) (List.mem_flatMap.mpr ⟨p, hp, hMentioned⟩)
    have hDepth : ∀ p ∈ paths, climbs p < (paths.map climbs).sum + 1 := fun p hp =>
      Nat.lt_succ_of_le (List.le_sum_of_mem (List.mem_map_of_mem hp))
    rw [hDeep] at hPrefix
    exact ⟨root, hRoot, encloses_of_deep (hOther _ hMember) (hOther _ hJoined) (hDepth _ hMember)
      (hDepth _ hJoined) hPrefix⟩
  · rintro ⟨root, hRoot, hEncloses⟩ directory -
    exact confines_iff.mpr ⟨root, hRoot, hEncloses.below _⟩

-- ---------------------------------------------------------------------------
-- Accepted paths
-- ---------------------------------------------------------------------------

/--
**Accepted paths lie inside, if they are level with what accepts them.** However the scripts
directory and the allowed directories are written, and wherever the service works: a path that the
check accepts lies in one of the allowed directories, provided that the roots that the check takes
it to lie in begin where the path begins.
-/
theorem accepted_path_confined {path : String} (hAccepted : r.allowsPath path = true)
    (hLevel : ∀ root ∈ r.roots, Overlays root (joinPath r.scriptsDir path) →
      LevelWith root (joinPath r.scriptsDir path))
    (place : List String) : r.Confines place path := by
  obtain ⟨root, hRoot, hOverlays⟩ := allowsPath_iff_overlays.mp hAccepted
  have hEncloses := hOverlays.encloses (hLevel root hRoot hOverlays)
  exact confines_iff.mpr ⟨root, hRoot, hEncloses.below place⟩

/-- Rules with a relative scripts directory, and an allowed one beside it. -/
def besideRules : Rules :=
  { policy := { Policy.standard with allowedPaths := ["data", "../shared"] }
    scriptsDir := "code" }

/-- The directory beside the scripts directory is where it should be. -/
theorem beside_path_confined :
    besideRules.Confines ["srv", "warden"] "logs/../../shared/out.txt" := by
  refine accepted_path_confined (by decide +kernel) ?_ _
  intro root hRoot _
  have hRoots : besideRules.roots = ["code/data", "code/../shared"] := by decide +kernel
  rw [hRoots] at hRoot
  -- both are relative, and neither they nor the path climb above the working directory
  have hLevel : ∀ root ∈ ["code/data", "code/../shared"], isAbsolutePath root = false ∧
      climbs root = 0 := by decide +kernel
  obtain ⟨hRelative, hClimbs⟩ := hLevel root hRoot
  constructor
  · rw [hRelative]
    decide +kernel
  · intro _
    rw [hClimbs]
    exact Or.inl (by decide +kernel)

/-- A relative root that says nothing accepts every path. -/
theorem allowsPath_of_root_nothing {root : String} (hRoot : root ∈ r.roots)
    (hRelative : isAbsolutePath root = false) (hNothing : destination [] root = [])
    (path : String) : r.allowsPath path = true := by
  rw [allowsPath_iff_overlays]
  refine ⟨root, hRoot, Or.inr ⟨hRelative, hNothing⟩, ?_⟩
  rw [hNothing]
  exact List.nil_prefix

instance (r : Rules) (place : List String) (path : String) : Decidable (r.Confines place path) :=
  inferInstanceAs (Decidable (∃ root ∈ r.rootPlacesFrom place, root <+: _))

/-- With `.` for the scripts directory and nothing listed every path is accepted, and a service that
works in `/srv` lets its scripts write to `/etc`. -/
theorem dot_directory_accepts_all :
    let r : Rules := { policy := Policy.standard, scriptsDir := "." }
    (∀ path, r.allowsPath path = true) ∧ ¬ r.Confines ["srv"] "/etc/passwd" := by
  intro r
  refine ⟨allowsPath_of_root_nothing (List.mem_singleton.mpr rfl) ?_ ?_, ?_⟩ <;> decide +kernel

/-- The climb out of the working directory is lost, and what is left looks like the scripts
directory. -/
theorem climbing_path_accepted :
    let r : Rules := { policy := Policy.standard, scriptsDir := "code" }
    r.allowsPath "../../code/x" = true ∧ ¬ r.Confines ["srv", "warden"] "../../code/x" := by
  decide +kernel

end ScriptWarden
