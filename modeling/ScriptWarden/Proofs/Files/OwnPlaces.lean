import ScriptWarden.Proofs.Files.Walking
import ScriptWarden.Script.Site

/-!
# The places of scripts, drafts and logs

The file of a script, the draft of an upload and the log of a script lie at places whose last names
are their own, whatever directories the configuration names and however it writes them. So no two
of them share a place.

## Results

* `steps_of_endsIn` — a path that ends in a file name has that name as its last step.
* `scriptPlace_getLast?`, `uploadPlace_getLast?`, `logPlace_getLast?` — the last names of places.
* `Site.seen_of_absolute` — a path that begins at the root is seen as it is.
* `ScriptName.text_ne_uploadName`, `ScriptName.text_ne_logName` — no script is called like a draft
  or a log.
-/

namespace ScriptWarden

-- ---------------------------------------------------------------------------
-- The last name of a path
-- ---------------------------------------------------------------------------

/-- A path that ends in a name: the name is all of it, or stands after a slash. -/
def EndsIn (path name : String) : Prop :=
  ∃ front, path.toList = front ++ name.toList ∧ (front = [] ∨ front.getLast? = some '/')

/-- What can stand between two slashes and names something there. -/
structure IsFileName (name : String) : Prop where
  nonempty : name.toList ≠ []
  noSlash : '/' ∉ name.toList
  notHere : name ≠ "."
  notUp : name ≠ ".."

theorem endsWith_iff {s t : String} : s.endsWith t = true ↔ t.toList <:+ s.toList := by
  rw [← String.endsWith_toSlice, String.Slice.endsWith_string_iff, String.copy_toSlice]

theorem getLast?_of_endsWith_slash {s : String} (h : s.endsWith "/" = true) :
    s.toList.getLast? = some '/' := by
  obtain ⟨front, hFront⟩ := endsWith_iff.mp h
  rw [← hFront]
  exact List.getLast?_concat

theorem cutAt_of_endsIn {path name : String} (h : EndsIn path name) (hSlash : '/' ∉ name.toList) :
    ∃ l, cutAt '/' path = l ++ [name] := by
  obtain ⟨front, hPath, hFront⟩ := h
  have hName : name.toList.splitOn '/' = [name.toList] := List.splitOn_eq_singleton hSlash
  rcases hFront with rfl | hLast
  · exact ⟨[], by simp [cutAt, hPath, hName]⟩
  · obtain ⟨front', rfl⟩ := List.getLast?_eq_some_iff.mp hLast
    refine ⟨(front'.splitOn '/').map String.ofList, ?_⟩
    rw [cutAt, hPath, List.append_assoc, List.singleton_append, List.splitOn_append_cons_self,
      hName, List.map_append]
    simp

/-- A path that ends in a file name has no slash at its end. -/
theorem IsFileName.noSlashEnd {path name : String} (hName : IsFileName name)
    (h : EndsIn path name) : path.endsWith "/" = false := by
  rw [Bool.eq_false_iff]
  intro hSlash
  obtain ⟨front, hPath, -⟩ := h
  have hLast := getLast?_of_endsWith_slash hSlash
  obtain ⟨stem, last, hEnd⟩ := List.eq_nil_or_concat name.toList |>.resolve_left hName.nonempty
  rw [List.concat_eq_append] at hEnd
  rw [hPath, hEnd, ← List.append_assoc, List.getLast?_concat] at hLast
  apply hName.noSlash
  rw [hEnd, Option.some.inj hLast]
  exact List.mem_append_right stem (List.mem_singleton_self _)

/-- A path that ends in a file name has that name as its last step. -/
theorem steps_of_endsIn {path name : String} (h : EndsIn path name) (hName : IsFileName name) :
    ∃ l, Files.steps path = l ++ [name] := by
  obtain ⟨l, hCut⟩ := cutAt_of_endsIn h hName.noSlash
  have hNoSlash : path.endsWith "/" = false := hName.noSlashEnd h
  refine ⟨l.filter (· != ""), ?_⟩
  have hKept : name ≠ "" := by
    rintro rfl
    exact hName.nonempty rfl
  simp [Files.steps, hNoSlash, hCut, hKept]

theorem endsIn_joinPath {directory path name : String} (h : EndsIn path name) :
    EndsIn (joinPath directory path) name := by
  rw [joinPath]
  split
  · exact h
  · split
    · exact h
    · obtain ⟨front, hPath, hFront⟩ := h
      -- what stands before the name in the longer path
      have hLonger : ∀ d : List Char, d.getLast? = some '/' →
          (d ++ front).getLast? = some '/' := by
        intro d hd
        rcases hFront with rfl | hLast
        · simpa using hd
        · rw [List.getLast?_append, hLast]
          rfl
      split
      · next hSlash =>
        exact ⟨directory.toList ++ front, by simp [hPath],
          Or.inr (hLonger _ (getLast?_of_endsWith_slash hSlash))⟩
      · exact ⟨(directory.toList ++ ['/']) ++ front, by simp [hPath],
          Or.inr (hLonger _ List.getLast?_concat)⟩

theorem endsIn_self (name : String) : EndsIn name name := ⟨[], rfl, Or.inl rfl⟩

theorem Site.endsIn_seen {site : Site} {path name : String} (h : EndsIn path name)
    (hName : name.toList ≠ []) : EndsIn (site.seen path) name := by
  have hSome : path.isEmpty = false := by
    obtain ⟨front, hPath, -⟩ := h
    rw [Bool.eq_false_iff]
    intro hEmpty
    rw [String.isEmpty_iff.mp hEmpty] at hPath
    exact hName (List.append_eq_nil_iff.mp hPath.symm).2
  rw [Site.seen, hSome]
  exact endsIn_joinPath h

-- ---------------------------------------------------------------------------
-- Paths that begin at the root
-- ---------------------------------------------------------------------------

theorem startsWith_iff {s t : String} : s.startsWith t = true ↔ t.toList <+: s.toList := by
  rw [← String.startsWith_toSlice, String.Slice.startsWith_string_iff, String.copy_toSlice]

theorem isAbsolutePath_iff {path : String} :
    isAbsolutePath path = true ↔ path.toList.head? = some '/' := by
  rw [isAbsolutePath, startsWith_iff]
  cases path.toList <;> simp [eq_comm]

/-- What is seen from a directory at the root begins there too. -/
theorem isAbsolutePath_joinPath {directory : String} (h : isAbsolutePath directory = true)
    (path : String) : isAbsolutePath (joinPath directory path) = true := by
  rw [isAbsolutePath_iff] at h
  rw [joinPath]
  split
  · assumption
  · split
    · next hEmpty => simp [String.isEmpty_iff.mp hEmpty] at h
    · split <;> simp [isAbsolutePath_iff, h]

/-- A relative path, joined to a directory, begins where the directory does. -/
theorem isAbsolutePath_joinPath_of_relative {path : String} (hPath : isAbsolutePath path = false)
    (directory : String) : isAbsolutePath (joinPath directory path) = isAbsolutePath directory := by
  rw [joinPath, if_neg (by simp [hPath])]
  split
  · next hEmpty =>
    rw [String.isEmpty_iff.mp hEmpty, hPath]
    decide
  · next hSome =>
    have hHead : ∀ tail : List Char,
        (directory.toList ++ tail).head? = directory.toList.head? := by
      intro tail
      cases hList : directory.toList with
      | nil => exact absurd (String.isEmpty_iff.mpr (String.toList_eq_nil_iff.mp hList)) hSome
      | cons c rest => rfl
    rw [Bool.eq_iff_iff, isAbsolutePath_iff, isAbsolutePath_iff]
    split <;> simp [hHead]

/-- A path that begins at the root is the same from every directory. -/
theorem joinPath_of_absolute {path : String} (h : isAbsolutePath path = true)
    (directory : String) : joinPath directory path = path := by
  rw [joinPath, if_pos h]

theorem Site.seen_of_absolute {site : Site} {path : String} (h : isAbsolutePath path = true) :
    site.seen path = path := by
  have hSome : path.isEmpty = false := by
    rw [Bool.eq_false_iff]
    intro hEmpty
    rw [String.isEmpty_iff.mp hEmpty, isAbsolutePath_iff] at h
    simp at h
  rw [seen, hSome]
  exact joinPath_of_absolute h _

-- ---------------------------------------------------------------------------
-- File names of scripts
-- ---------------------------------------------------------------------------

namespace ScriptName

/-- A script is known by its text. -/
theorem eq_of_text {n m : ScriptName} (h : n.text = m.text) : n = m := by
  obtain ⟨text, accepted⟩ := n
  obtain rfl : text = m.text := h
  rfl

variable (n m : ScriptName)

theorem text_plain : n.text.toList ≠ [] ∧ n.text.toList.head? ≠ some '.' ∧
    '/' ∉ n.text.toList := by
  have hAccepted := n.accepted
  rw [isScriptName, Bool.and_eq_true, isPlainFileName] at hAccepted
  obtain ⟨hPlain, -⟩ := hAccepted
  simp only [Bool.and_eq_true, Bool.not_eq_true', List.isEmpty_eq_false_iff, bne_iff_ne,
    List.any_eq_false] at hPlain
  obtain ⟨⟨hNonempty, hHead⟩, hBreakers⟩ := hPlain
  refine ⟨hNonempty, hHead, fun hSlash => ?_⟩
  exact hBreakers '/' hSlash (by decide)

theorem text_isFileName : IsFileName n.text := by
  obtain ⟨hNonempty, hHead, hSlash⟩ := n.text_plain
  refine ⟨hNonempty, hSlash, ?_, ?_⟩
  · intro hDot
    simp [hDot] at hHead
  · intro hUp
    simp [hUp] at hHead

theorem uploadName_toList : n.uploadName.toList = '.' :: (n.text.toList ++ ".upload".toList) := by
  simp [uploadName]

theorem logName_toList : n.logName.toList = n.text.toList ++ ".log".toList := by
  simp [logName]

theorem uploadName_isFileName : IsFileName n.uploadName := by
  obtain ⟨-, -, hSlash⟩ := n.text_plain
  refine ⟨by simp [uploadName_toList], by simp [uploadName_toList, hSlash], ?_, ?_⟩
  · intro hDot
    have hList := congrArg String.toList hDot
    simp [uploadName_toList] at hList
  · intro hUp
    have hList := congrArg (List.length ∘ String.toList) hUp
    simp [uploadName_toList] at hList

theorem logName_isFileName : IsFileName n.logName := by
  obtain ⟨-, -, hSlash⟩ := n.text_plain
  refine ⟨by simp [logName_toList], by simp [logName_toList, hSlash], ?_, ?_⟩
  · intro hDot
    have hList := congrArg (List.length ∘ String.toList) hDot
    simp [logName_toList] at hList
  · intro hUp
    have hList := congrArg (List.length ∘ String.toList) hUp
    simp [logName_toList] at hList

/-- No script is called like a draft. -/
theorem text_ne_uploadName : n.text ≠ m.uploadName := by
  intro hSame
  apply n.text_plain.2.1
  rw [hSame, uploadName_toList]
  rfl

/-- No log is called like a draft. -/
theorem logName_ne_uploadName : n.logName ≠ m.uploadName := by
  intro hSame
  have hEnds := congrArg (fun name => name.toList.getLast?) hSame
  simp only [logName_toList, uploadName_toList] at hEnds
  simp [List.getLast?_cons] at hEnds

/-- No script is called like a log. -/
theorem text_ne_logName : n.text ≠ m.logName := by
  intro hSame
  have hSuffix : n.text.toList.drop (n.text.toList.length - 3) = scriptSuffix := by
    have hAccepted := n.accepted
    rw [isScriptName, Bool.and_eq_true, hasScriptSuffix, Bool.and_eq_true, beq_iff_eq]
      at hAccepted
    exact hAccepted.2.2
  have hList : n.text.toList = (m.text.toList ++ ['.']) ++ ['l', 'o', 'g'] := by
    rw [hSame, logName_toList, List.append_assoc]
    rfl
  have hLength : n.text.toList.length - 3 = (m.text.toList ++ ['.']).length := by
    simp [hList]
  rw [hLength, hList, List.drop_left] at hSuffix
  exact absurd hSuffix (by decide)

end ScriptName

-- ---------------------------------------------------------------------------
-- Places
-- ---------------------------------------------------------------------------

namespace Site

variable {site : Site} {fs : Files} {n : ScriptName} {q : FilePlace}

/-- The place of a path that ends in a file name has that name as its last. -/
theorem place_getLast?_of_endsIn {path name : String} (hEnds : EndsIn path name)
    (hName : IsFileName name) (h : fs.place (site.seen path) false = .ok q) :
    q.getLast? = some name := by
  obtain ⟨l, hSteps⟩ := steps_of_endsIn (endsIn_seen hEnds hName.nonempty) hName
  exact Files.place_getLast? hSteps hName.notHere hName.notUp h

theorem scriptPlace_getLast? (h : fs.place (site.seen (site.scriptPath n)) false = .ok q) :
    q.getLast? = some n.text :=
  place_getLast?_of_endsIn (endsIn_joinPath (endsIn_self _)) n.text_isFileName h

theorem uploadPlace_getLast? (h : fs.place (site.seen (site.uploadPath n)) false = .ok q) :
    q.getLast? = some n.uploadName :=
  place_getLast?_of_endsIn (endsIn_joinPath (endsIn_self _)) n.uploadName_isFileName h

theorem logPlace_getLast? (h : fs.place (site.seen (site.logPath n)) false = .ok q) :
    q.getLast? = some n.logName :=
  place_getLast?_of_endsIn (endsIn_joinPath (endsIn_self _)) n.logName_isFileName h

end Site

end ScriptWarden
