import Mathlib.Data.List.Basic
import ScriptWarden.Checks
import ScriptWarden.Proofs.Files.OwnPlaces

/-!
# Confinement

What the check of a path accepts. A place is the list of the components from the root on; a path
leads from one place to another, component by component: nothing and `.` stay, `..` goes one back
and stays at the root, and everything else goes one on. A path that begins at the root leads from
there, wherever one is.

The check joins texts, cuts them at slashes and compares what is left. For a directory at the root
it accepts a path exactly when the path, followed from the directory, comes to a place at or below
one of the places that are allowed.

## Results

* `resolvePath_eq` — what a path is resolved to is the place it leads to from the root.
* `destination_joinPath` — a path joined to a directory leads where the path leads from there.
* `destination_roots` — where the allowed directories are.
* `allowsPath_iff_destination` — what is accepted.
-/

namespace ScriptWarden

-- ---------------------------------------------------------------------------
-- Places
-- ---------------------------------------------------------------------------

/-- Where a component leads from a place. -/
def stepTo (place : List String) (component : String) : List String :=
  if component = "" ∨ component = "." then place
  else if component = ".." then place.dropLast
  else place ++ [component]

/-- Where a path leads from a place. -/
def destination (place : List String) (path : String) : List String :=
  (cutAt '/' path).foldl stepTo (if isAbsolutePath path then [] else place)

/-- The place of the scripts directory. -/
def Rules.home (r : Rules) : List String := destination [] r.scriptsDir

/-- The places that file operations may touch, with everything below them: those that the policy
lists, seen from the scripts directory, or that directory itself. -/
def Rules.rootPlaces (r : Rules) : List (List String) :=
  if r.policy.allowedPaths = [] then [r.home] else r.policy.allowedPaths.map (destination r.home)

-- ---------------------------------------------------------------------------
-- Following a path
-- ---------------------------------------------------------------------------

@[simp] theorem stepTo_empty (place : List String) : stepTo place "" = place := rfl

@[simp] theorem stepTo_here (place : List String) : stepTo place "." = place := rfl

@[simp] theorem stepTo_up (place : List String) : stepTo place ".." = place.dropLast := rfl

theorem stepTo_name {c : String} (hEmpty : c ≠ "") (hHere : c ≠ ".") (hUp : c ≠ "..")
    (place : List String) : stepTo place c = place ++ [c] := by
  rw [stepTo, if_neg (by simp [hEmpty, hHere]), if_neg hUp]

/-- Taking components from the front of a list that is kept innermost first is following them. -/
theorem walkParts_reverse (components reached : List String) :
    (walkParts reached (components.filter fun c => c != "" && c != ".")).reverse =
      components.foldl stepTo reached.reverse := by
  induction components generalizing reached with
  | nil => rfl
  | cons c rest ih =>
    rw [List.foldl_cons]
    by_cases hEmpty : c = ""
    · subst hEmpty
      exact ih reached
    · by_cases hHere : c = "."
      · subst hHere
        exact ih reached
      · have hKept : (c :: rest).filter (fun c => c != "" && c != ".") =
            c :: rest.filter fun c => c != "" && c != "." := by
          simp [hEmpty, hHere]
        rw [hKept]
        by_cases hUp : c = ".."
        · subst hUp
          rw [walkParts, ih, stepTo_up, List.drop_one, List.dropLast_reverse]
        · rw [walkParts.eq_3 _ _ _ (by simpa using hUp), ih, List.reverse_cons,
            stepTo_name hEmpty hHere hUp]

theorem resolvePath_eq (path : String) :
    resolvePath path = { absolute := isAbsolutePath path, parts := destination [] path } := by
  rw [resolvePath, pathParts, walkParts_reverse, destination, ite_self]
  rfl

/-- A path that begins at the root leads from everywhere to the same place. -/
theorem destination_of_absolute {path : String} (h : isAbsolutePath path = true)
    (place : List String) : destination place path = destination [] path := by
  rw [destination, destination, if_pos h, if_pos h]

theorem destination_of_relative {path : String} (h : isAbsolutePath path = false)
    (place : List String) : destination place path = (cutAt '/' path).foldl stepTo place := by
  rw [destination, if_neg (by simp [h])]

-- ---------------------------------------------------------------------------
-- Joined paths
-- ---------------------------------------------------------------------------

theorem cutAt_append_slash (front back : String) :
    cutAt '/' (front ++ "/" ++ back) = cutAt '/' front ++ cutAt '/' back := by
  simp [cutAt, List.splitOn_append_cons_self]

/-- What stands before the slash at the end of a text. -/
theorem eq_append_slash {s : String} (h : s.endsWith "/" = true) : ∃ front, s = front ++ "/" := by
  obtain ⟨front, hFront⟩ := endsWith_iff.mp h
  refine ⟨String.ofList front, ?_⟩
  rw [← String.toList_inj, ← hFront]
  simp

/-- The components of a relative path, joined to a directory, are followed after those of the
directory. -/
theorem foldl_joinPath {directory path : String} (hDirectory : directory ≠ "")
    (hPath : isAbsolutePath path = false) (place : List String) :
    (cutAt '/' (joinPath directory path)).foldl stepTo place =
      (cutAt '/' path).foldl stepTo ((cutAt '/' directory).foldl stepTo place) := by
  rw [joinPath, if_neg (by simp [hPath]), if_neg (by simpa using hDirectory)]
  split
  · next hSlash =>
    obtain ⟨front, rfl⟩ := eq_append_slash hSlash
    -- the component between the slash at the end and the path is empty
    have hEnd : cutAt '/' (front ++ "/") = cutAt '/' front ++ [""] := by
      simpa [cutAt] using cutAt_append_slash front ""
    rw [cutAt_append_slash, hEnd, List.foldl_append, List.foldl_append]
    rfl
  · rw [cutAt_append_slash, List.foldl_append]

theorem ne_empty_of_absolute {path : String} (h : isAbsolutePath path = true) : path ≠ "" := by
  rintro rfl
  rw [isAbsolutePath_iff] at h
  cases h

theorem destination_joinPath {directory : String} (h : isAbsolutePath directory = true)
    (path : String) :
    destination [] (joinPath directory path) = destination (destination [] directory) path := by
  by_cases hPath : isAbsolutePath path = true
  · rw [joinPath_of_absolute hPath, destination_of_absolute hPath (destination [] directory)]
  · rw [Bool.not_eq_true] at hPath
    rw [destination, ite_self, foldl_joinPath (ne_empty_of_absolute h) hPath,
      destination_of_relative hPath, destination, ite_self]

-- ---------------------------------------------------------------------------
-- What is accepted
-- ---------------------------------------------------------------------------

variable {r : Rules}

/-- For a scripts directory at the root, every allowed directory begins there. -/
theorem isAbsolutePath_of_mem_roots (h : isAbsolutePath r.scriptsDir = true) {root : String}
    (hRoot : root ∈ r.roots) : isAbsolutePath root = true := by
  rw [Rules.roots, effectiveRoots] at hRoot
  split at hRoot
  · rw [List.mem_singleton.mp hRoot]
    exact h
  · obtain ⟨listed, -, rfl⟩ := List.mem_map.mp hRoot
    exact isAbsolutePath_joinPath h listed

theorem destination_roots (h : isAbsolutePath r.scriptsDir = true) :
    r.roots.map (destination []) = r.rootPlaces := by
  rw [Rules.roots, Rules.rootPlaces, effectiveRoots]
  by_cases hListed : r.policy.allowedPaths = []
  · simp [hListed, Rules.home]
  · rw [if_neg (by simpa using hListed), if_neg hListed, List.map_map]
    exact List.map_congr_left fun listed _ => destination_joinPath h listed

/-- Where both begin at the root, to lie at or below is to be reached through. -/
theorem isWithin_resolvePath_iff {path root : String} (hPath : isAbsolutePath path = true)
    (hRoot : isAbsolutePath root = true) :
    (resolvePath path).isWithin (resolvePath root) = true ↔
      destination [] root <+: destination [] path := by
  rw [ResolvedPath.isWithin, resolvePath_eq, resolvePath_eq]
  simp [hPath, hRoot]

/--
**Confinement is exact.** For a scripts directory at the root and any list of allowed directories,
the check accepts a path exactly when the path, followed from the scripts directory, comes to a
place at or below the place of one of the allowed directories, followed from there too.
-/
theorem allowsPath_iff_destination (h : isAbsolutePath r.scriptsDir = true) (path : String) :
    r.allowsPath path = true ↔ ∃ root ∈ r.rootPlaces, root <+: destination r.home path := by
  have hJoined : isAbsolutePath (joinPath r.scriptsDir path) = true := isAbsolutePath_joinPath h path
  calc r.allowsPath path = true
      ↔ ∃ root ∈ r.roots,
          (resolvePath (joinPath r.scriptsDir path)).isWithin (resolvePath root) = true := by
        rw [Rules.allowsPath, isPathAllowed, List.any_eq_true]
    _ ↔ ∃ root ∈ r.roots, destination [] root <+: destination r.home path := by
        refine exists_congr fun root => and_congr_right fun hRoot => ?_
        rw [isWithin_resolvePath_iff hJoined (isAbsolutePath_of_mem_roots h hRoot),
          destination_joinPath h, Rules.home]
    _ ↔ ∃ root ∈ r.rootPlaces, root <+: destination r.home path := by
        simp only [← destination_roots h, List.mem_map, exists_exists_and_eq_and]

/-- Rules with a directory that is listed through another one. -/
def sharingRules : Rules :=
  { policy := { Policy.standard with allowedPaths := ["../shared//./logs/..", "/tmp/x"] }
    scriptsDir := "/home/../srv/code/" }

/-- A path that leaves the scripts directory and comes to the shared one is accepted; one that
climbs above the root comes to a place that is not allowed. -/
theorem shared_path_accepted :
    isAbsolutePath sharingRules.scriptsDir = true ∧
      sharingRules.allowsPath "a/../../shared/out.txt" = true ∧
      sharingRules.allowsPath "../../../../../etc/passwd" = false := by
  have hRoot : isAbsolutePath sharingRules.scriptsDir = true := by decide +kernel
  have hPlaces : sharingRules.rootPlaces = [["srv", "shared"], ["tmp", "x"]] := by decide +kernel
  refine ⟨hRoot, ?_, ?_⟩
  · rw [allowsPath_iff_destination hRoot, hPlaces]
    decide +kernel
  · rw [← Bool.not_eq_true, allowsPath_iff_destination hRoot, hPlaces]
    decide +kernel

end ScriptWarden
