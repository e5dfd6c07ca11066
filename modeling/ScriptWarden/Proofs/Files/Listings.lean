import ScriptWarden.Proofs.Files.ScriptFiles
import ScriptWarden.Script.Registry

/-!
# What the directory lists

The list of the scripts is read from the entries of their directory, and what a script holds is read
through its path. Here the two are tied: the place of a script is the entry of its name in the
directory, whatever way the configuration writes that. Drafts and logs are no entries that are
listed, so writing one leaves the list as it is.

## Results

* `Files.mem_scriptsIn` — which entries are listed.
* `Site.scriptPlace_eq` — the place of a script lies in the directory.
* `Site.Settled.scriptsIn_draft`, `Site.Drafted.mem_scriptsIn`, `Files.mem_scriptsIn_of_remove` — what
  the three changes do to the list.
* `Registry.names_eq` — the list, as it is answered.
-/

namespace ScriptWarden

-- ---------------------------------------------------------------------------
-- Paths in a directory
-- ---------------------------------------------------------------------------

/-- The names on a path. -/
def pathNames (path : String) : List String := (cutAt '/' path).filter (· != "")

theorem steps_eq (path : String) :
    Files.steps path = if path.endsWith "/" then pathNames path ++ ["."] else pathNames path := rfl

private theorem splitOn_name {name : String} (hSlash : '/' ∉ name.toList) (front : List Char) :
    ((front ++ '/' :: name.toList).splitOn '/').map String.ofList =
      (front.splitOn '/').map String.ofList ++ [name] := by
  rw [List.splitOn_append_cons_self, List.splitOn_eq_singleton hSlash, List.map_append]
  simp

theorem IsFileName.relative {name : String} (h : IsFileName name) : isAbsolutePath name = false := by
  rw [Bool.eq_false_iff]
  intro hAbsolute
  rw [isAbsolutePath_iff] at hAbsolute
  exact h.noSlash (List.mem_of_mem_head? hAbsolute)

theorem joinPath_of_relative {path : String} (hPath : isAbsolutePath path = false)
    (directory : String) : joinPath directory path =
      if directory.isEmpty then path
      else if directory.endsWith "/" then directory ++ path else directory ++ "/" ++ path := by
  rw [joinPath, hPath]
  rfl

/-- The names on the path of something in a directory: those of the directory, and its own. -/
theorem pathNames_joinPath {directory name : String} (hDirectory : directory ≠ "")
    (hName : IsFileName name) : pathNames (joinPath directory name) = pathNames directory ++ [name] := by
  have hKept : name ≠ "" := by
    rintro rfl
    exact hName.nonempty rfl
  have hSome : directory.isEmpty = false := by
    rw [Bool.eq_false_iff]
    exact fun hEmpty => hDirectory (String.isEmpty_iff.mp hEmpty)
  rw [joinPath_of_relative hName.relative, hSome]
  simp only [Bool.false_eq_true, if_false]
  split
  · next hSlash =>
    -- a slash at the end of the directory stands before the empty name
    obtain ⟨front, hFront⟩ := endsWith_iff.mp hSlash
    have hFront' : directory.toList = front ++ ['/'] := hFront.symm
    have hJoined : (directory ++ name).toList = front ++ '/' :: name.toList := by
      simp [hFront']
    have hEmptyEnd : ((front ++ ['/']).splitOn '/').map String.ofList =
        (front.splitOn '/').map String.ofList ++ [""] := by
      rw [List.splitOn_append_cons_self, List.map_append]
      rfl
    rw [pathNames, pathNames, cutAt, cutAt, hJoined, hFront', hEmptyEnd,
      splitOn_name hName.noSlash]
    simp [hKept]
  · have hJoined : (directory ++ "/" ++ name).toList = directory.toList ++ '/' :: name.toList := by
      simp
    rw [pathNames, pathNames, cutAt, cutAt, hJoined, splitOn_name hName.noSlash]
    simp [hKept]

theorem joinPath_ne_empty {directory : String} (hDirectory : directory ≠ "") (path : String) :
    joinPath directory path ≠ "" := by
  intro hEmpty
  rw [joinPath] at hEmpty
  split at hEmpty
  · next hAbsolute => simp [hEmpty, isAbsolutePath_iff] at hAbsolute
  · split at hEmpty
    · next hNone => exact hDirectory (String.isEmpty_iff.mp hNone)
    · have hList := congrArg String.toList hEmpty
      split at hList <;> simp_all

theorem endsWith_slash_iff {s : String} : s.endsWith "/" = true ↔ s.toList.getLast? = some '/' := by
  refine ⟨getLast?_of_endsWith_slash, fun hLast => ?_⟩
  obtain ⟨front, hFront⟩ := List.getLast?_eq_some_iff.mp hLast
  exact endsWith_iff.mpr ⟨front, hFront.symm⟩

/-- A path ends with a slash when what it ends in does. -/
theorem endsWith_slash_append {front back : String} (hBack : back ≠ "") :
    (front ++ back).endsWith "/" = back.endsWith "/" := by
  have hSome : back.toList ≠ [] := fun hNone => hBack (String.toList_eq_nil_iff.mp hNone)
  rw [Bool.eq_iff_iff, endsWith_slash_iff, endsWith_slash_iff, String.toList_append,
    List.getLast?_append, Option.or_eq_some_iff]
  simp [hSome]

/-- A directory may be joined to the one it is seen from before or after what lies in it. -/
theorem joinPath_assoc {directory middle path : String} (hMiddle : middle ≠ "")
    (hPath : isAbsolutePath path = false) :
    joinPath directory (joinPath middle path) = joinPath (joinPath directory middle) path := by
  cases hAbsolute : isAbsolutePath middle with
  | true =>
    rw [joinPath_of_absolute (isAbsolutePath_joinPath hAbsolute path), joinPath_of_absolute hAbsolute]
  | false =>
    have hSome : middle.isEmpty = false := by
      rw [Bool.eq_false_iff]
      exact fun hEmpty => hMiddle (String.isEmpty_iff.mp hEmpty)
    have hBehind : ∀ front : String, joinPath (front ++ middle) path = front ++ joinPath middle path := by
      intro front
      have hLonger : (front ++ middle).isEmpty = false := by
        rw [Bool.eq_false_iff]
        intro hEmpty
        exact hMiddle (String.append_eq_empty_iff.mp (String.isEmpty_iff.mp hEmpty)).2
      rw [joinPath_of_relative hPath, joinPath_of_relative hPath, hLonger, hSome,
        endsWith_slash_append hMiddle]
      simp only [Bool.false_eq_true, if_false]
      split
      · rw [String.append_assoc]
      · simp only [String.append_assoc]
    have hRest : isAbsolutePath (joinPath middle path) = false := by
      rw [isAbsolutePath_joinPath_of_relative hPath, hAbsolute]
    rw [joinPath_of_relative hRest, joinPath_of_relative hAbsolute]
    split
    · rfl
    · split
      · exact (hBehind directory).symm
      · exact (hBehind (directory ++ "/")).symm

/-- What lies in a directory is seen where the directory is seen. -/
theorem Site.seen_joinPath {site : Site} {directory name : String} (hDirectory : directory ≠ "")
    (hName : IsFileName name) :
    site.seen (joinPath directory name) = joinPath (site.seen directory) name := by
  have hSome : ∀ path : String, path ≠ "" → path.isEmpty = false := by
    intro path hPath
    rw [Bool.eq_false_iff]
    exact fun hEmpty => hPath (String.isEmpty_iff.mp hEmpty)
  rw [Site.seen, Site.seen, hSome _ hDirectory, hSome _ (joinPath_ne_empty hDirectory name)]
  exact joinPath_assoc hDirectory hName.relative

namespace Files

variable {fs fs' : Files}

/-- A walk to something in a directory is a walk to the directory and one more step. -/
theorem walk_snoc {n m : Nat} {p q r : FilePlace} {l : List String} {x : String} (hDot : x ≠ ".")
    (hUp : x ≠ "..") (h : fs.walk false n p (l ++ [x]) = .ok q)
    (hFront : fs.walk true m p l = .ok r) : q = r ++ [x] := by
  induction n generalizing m p l with
  | zero => simp [walk] at h
  | succ n ih =>
    cases m with
    | zero => simp [walk] at hFront
    | succ m =>
      cases l with
      | nil =>
        obtain ⟨-, rfl⟩ := walk_nil.mp hFront
        obtain ⟨-, hStep⟩ := walk_cons.mp h
        rw [if_neg hDot, if_neg hUp] at hStep
        obtain ⟨-, hNext⟩ := hStep
        split at hNext
        · exact hNext.symm
        · exact (walk_nil.mp hNext).2.symm
        · exact hNext.2.symm
      | cons s rest =>
        rw [List.cons_append] at h
        obtain ⟨-, hStep⟩ := walk_cons.mp h
        obtain ⟨-, hStep'⟩ := walk_cons.mp hFront
        split at hStep
        · rw [if_pos ‹_›] at hStep'
          exact ih hStep hStep'
        · rw [if_neg ‹_›] at hStep'
          split at hStep
          · rw [if_pos ‹_›] at hStep'
            exact ih hStep hStep'
          · rw [if_neg ‹_›] at hStep'
            obtain ⟨-, hNext⟩ := hStep
            obtain ⟨-, hNext'⟩ := hStep'
            split at hNext
            · next target hLink =>
              -- the link is followed both times: there is a step after it, or it is asked for
              rw [if_neg (by simp), ← List.append_assoc] at hNext
              simp only [hLink, Bool.true_eq_false, and_false, if_false] at hNext'
              exact ih hNext hNext'
            · next hDirectory =>
              simp only [hDirectory] at hNext'
              exact ih hNext hNext'
            · exact absurd hNext.1 (by simp)

/-- A step that stays changes nothing. -/
theorem walk_dot {m : Nat} {p r : FilePlace} {l : List String}
    (h : fs.walk true m p (l ++ ["."]) = .ok r) : fs.walk true m p l = .ok r := by
  induction m generalizing p l with
  | zero => simp [walk] at h
  | succ m ih =>
    cases l with
    | nil =>
      obtain ⟨-, hStep⟩ := walk_cons.mp h
      rw [if_pos rfl] at hStep
      exact walk_nil.mpr ⟨Nat.succ_ne_zero m, (walk_nil.mp hStep).2⟩
    | cons s rest =>
      rw [List.cons_append, walk_cons] at h
      rw [walk_cons]
      obtain ⟨hHere, hStep⟩ := h
      refine ⟨hHere, ?_⟩
      split at hStep
      · rw [if_pos ‹_›]
        exact ih hStep
      · rw [if_neg ‹_›]
        split at hStep
        · rw [if_pos ‹_›]
          exact ih hStep
        · rw [if_neg ‹_›]
          obtain ⟨hShort, hNext⟩ := hStep
          refine ⟨hShort, ?_⟩
          split at hNext
          · next target hLink =>
            simp only [Bool.true_eq_false, and_false, if_false] at hNext ⊢
            rw [← List.append_assoc] at hNext
            exact ih hNext
          · exact ih hNext
          · exact absurd hNext.1 (by simp)

/-- The place of something in a directory. -/
theorem place_joinPath {directory name : String} {p q : FilePlace} (hName : IsFileName name)
    (hDirectory : fs.place directory = .ok p)
    (h : fs.place (joinPath directory name) false = .ok q) : q = p ++ [name] := by
  rw [place_eq_ok] at hDirectory h
  obtain ⟨hSome, -, hFront⟩ := hDirectory
  obtain ⟨-, -, hWalk⟩ := h
  have hEnds : EndsIn (joinPath directory name) name := endsIn_joinPath (endsIn_self name)
  have hSteps : steps (joinPath directory name) = pathNames directory ++ [name] := by
    rw [steps_eq, hName.noSlashEnd hEnds]
    exact pathNames_joinPath hSome hName
  rw [hSteps] at hWalk
  have hNames : fs.walk true stepLimit [] (pathNames directory) = .ok p := by
    rw [steps_eq] at hFront
    split at hFront
    · exact walk_dot hFront
    · exact hFront
  exact walk_snoc hName.notHere hName.notUp hWalk hNames

-- ---------------------------------------------------------------------------
-- Entries that are scripts
-- ---------------------------------------------------------------------------

end Files

theorem ScriptName.parse_eq_some {text : String} {n : ScriptName} :
    (ScriptName.parse text).toOption = some n ↔ text = n.text := by
  constructor
  · intro hParsed
    unfold ScriptName.parse at hParsed
    split at hParsed
    · obtain rfl : _ = n := Option.some.inj hParsed
      rfl
    · split at hParsed <;> cases hParsed
  · rintro rfl
    rw [ScriptName.parse, dif_pos n.accepted]
    rfl

theorem Registry.scriptIn?_eq_some {x : String × Entry} {n : ScriptName} :
    Registry.scriptIn? x = some n ↔ ∃ id, x = (n.text, .file id) := by
  obtain ⟨name, e⟩ := x
  cases e with
  | file id =>
    rw [Registry.scriptIn?, ScriptName.parse_eq_some]
    simp
  | directory => simp [Registry.scriptIn?]
  | link target => simp [Registry.scriptIn?]

namespace Files

variable {fs fs' : Files} {p q : FilePlace} {n : ScriptName} {e : Entry} {id : FileId}

/-- The script that an entry is in a directory. -/
def scriptAt? (p : FilePlace) (x : FilePlace × Entry) : Option ScriptName :=
  x.1.getLast?.bind fun name => if x.1.dropLast == p then Registry.scriptIn? (name, x.2) else none

/-- The scripts in a directory. -/
def scriptsIn (fs : Files) (p : FilePlace) : List ScriptName := fs.entries.filterMap (scriptAt? p)

theorem scriptsIn_eq (fs : Files) (p : FilePlace) :
    fs.scriptsIn p = (fs.children p).filterMap Registry.scriptIn? := by
  rw [scriptsIn, children, List.filterMap_filterMap]
  congr 1
  funext x
  obtain ⟨q, e⟩ := x
  cases hLast : q.getLast? with
  | none => simp [scriptAt?, hLast]
  | some name =>
    simp only [scriptAt?, hLast, Option.bind_some]
    split <;> simp

theorem scriptAt?_eq_some {x : FilePlace × Entry} :
    scriptAt? p x = some n ↔ ∃ id, x = (p ++ [n.text], .file id) := by
  obtain ⟨q, e⟩ := x
  rw [scriptAt?]
  constructor
  · intro hFound
    obtain ⟨name, hLast, hScript⟩ := Option.bind_eq_some_iff.mp hFound
    split at hScript
    · next hFront =>
      obtain ⟨id, hEntry⟩ := Registry.scriptIn?_eq_some.mp hScript
      obtain ⟨rfl, rfl⟩ := Prod.mk.inj hEntry
      obtain ⟨front, rfl⟩ := List.getLast?_eq_some_iff.mp hLast
      rw [List.dropLast_concat, beq_iff_eq] at hFront
      exact ⟨id, by rw [hFront]⟩
    · cases hScript
  · rintro ⟨id, hEntry⟩
    obtain ⟨rfl, rfl⟩ := Prod.mk.inj hEntry
    simp [Registry.scriptIn?_eq_some]

theorem scriptAt?_eq_none {x : FilePlace × Entry} (hName : ∀ n : ScriptName, x.1.getLast? ≠ some n.text) :
    scriptAt? p x = none := by
  refine Option.eq_none_iff_forall_ne_some.mpr fun n hFound => ?_
  obtain ⟨id, rfl⟩ := scriptAt?_eq_some.mp hFound
  exact hName n (by simp)

/-- A script is listed when there is an entry of its name that is a file. -/
theorem mem_scriptsIn : n ∈ fs.scriptsIn p ↔ ∃ id, (p ++ [n.text], .file id) ∈ fs.entries := by
  rw [scriptsIn, List.mem_filterMap]
  constructor
  · rintro ⟨x, hMem, hFound⟩
    obtain ⟨id, rfl⟩ := scriptAt?_eq_some.mp hFound
    exact ⟨id, hMem⟩
  · rintro ⟨id, hMem⟩
    exact ⟨_, hMem, scriptAt?_eq_some.mpr ⟨id, rfl⟩⟩

/-- Entries that are no scripts are not listed, so it makes no difference to have fewer. -/
theorem scriptsIn_clearEntry (hName : ∀ n : ScriptName, q.getLast? ≠ some n.text) :
    (fs.clearEntry q).scriptsIn p = fs.scriptsIn p := by
  have hNone : ∀ x : FilePlace × Entry, x.1 = q → scriptAt? p x = none :=
    fun x hx => scriptAt?_eq_none (hx ▸ hName)
  rw [scriptsIn, scriptsIn, clearEntry, List.filterMap_filter]
  congr 1
  funext x
  by_cases hx : x.1 = q
  · simp [hx, hNone x hx]
  · simp [hx]

theorem scriptsIn_setEntry (fs : Files) (hName : ∀ n : ScriptName, q.getLast? ≠ some n.text) :
    (fs.setEntry q e).scriptsIn p = fs.scriptsIn p := by
  have hNone : scriptAt? p (q, e) = none := scriptAt?_eq_none hName
  have hRest : (fs.entries.filter (·.1 != q)).filterMap (scriptAt? p) = fs.scriptsIn p :=
    scriptsIn_clearEntry hName
  rw [scriptsIn, setEntry, List.filterMap_cons_none hNone]
  exact hRest

/-- A file that gets an entry of a script's name is listed, beside the others. -/
theorem mem_scriptsIn_setEntry {k : ScriptName} :
    k ∈ (fs.setEntry (p ++ [n.text]) (.file id)).scriptsIn p ↔ k = n ∨ k ∈ fs.scriptsIn p := by
  rw [mem_scriptsIn, mem_scriptsIn, setEntry]
  simp only [List.mem_cons, List.mem_filter, Prod.mk.injEq, List.append_cancel_left_eq,
    List.cons.injEq, and_true, Entry.file.injEq, bne_iff_ne, ne_eq]
  constructor
  · rintro ⟨j, ⟨hText, -⟩ | ⟨hMem, -⟩⟩
    · exact Or.inl (ScriptName.eq_of_text hText)
    · exact Or.inr ⟨j, hMem⟩
  · rintro (rfl | ⟨j, hMem⟩)
    · exact ⟨id, Or.inl ⟨rfl, rfl⟩⟩
    · by_cases hText : k.text = n.text
      · exact ⟨id, Or.inl ⟨hText, rfl⟩⟩
      · exact ⟨j, Or.inr ⟨hMem, hText⟩⟩

/-- What has an entry is there. -/
theorem entryAt?_ne_none (hMem : (q, e) ∈ fs.entries) : fs.entryAt? q ≠ none := by
  rw [entryAt?]
  split
  · simp
  · intro hNone
    have hOther := List.lookup_eq_none_iff.mp hNone _ hMem
    simp at hOther

theorem remove_entries {path : String} (hRemove : fs.remove path = .ok fs') :
    ∃ q, fs' = fs.clearEntry q := by
  rw [remove] at hRemove
  cases hPlace : fs.place path false with
  | error f => simp [hPlace, bind, Except.bind] at hRemove
  | ok q =>
    simp only [hPlace, bind, Except.bind] at hRemove
    split at hRemove
    · cases hRemove
    · exact ⟨q, (Except.ok.inj hRemove).symm⟩
    · cases hRemove

/-- Removing a file lists no script that was not listed, and not the one that was removed. -/
theorem mem_scriptsIn_of_remove {path : String} (hRemove : fs.remove path = .ok fs')
    (hRemoved : Site.Removed fs q fs') (hMem : n ∈ fs'.scriptsIn p) :
    n ∈ fs.scriptsIn p ∧ p ++ [n.text] ≠ q := by
  rw [mem_scriptsIn] at hMem
  obtain ⟨id, hEntry⟩ := hMem
  constructor
  · obtain ⟨r, rfl⟩ := remove_entries hRemove
    exact mem_scriptsIn.mpr ⟨id, (List.mem_filter.mp hEntry).1⟩
  · rintro rfl
    exact entryAt?_ne_none hEntry ((hRemoved.entry _).trans (if_pos rfl))

end Files

namespace Site

variable {site : Site} {fs fs' : Files} {n k : ScriptName} {p q : FilePlace} {id : FileId}

-- ---------------------------------------------------------------------------
-- The scripts directory
-- ---------------------------------------------------------------------------

/-- The place of a script is the entry of its name in the directory. -/
theorem scriptPlace_eq (hDirectory : fs.place (site.seen site.scriptsDir) = .ok p)
    (hScript : fs.place (site.seen (site.scriptPath n)) false = .ok q) : q = p ++ [n.text] := by
  have hSome : site.scriptsDir ≠ "" := by
    intro hNone
    rw [seen, hNone, Files.place_eq_ok] at hDirectory
    exact hDirectory.1 rfl
  rw [scriptPath, seen_joinPath hSome n.text_isFileName] at hScript
  exact Files.place_joinPath n.text_isFileName hDirectory hScript

/-- The place of a draft, links followed or not. -/
theorem Settled.draftPlace (h : site.Settled fs)
    (hPlace : fs.place (site.seen (site.uploadPath n)) = .ok q) :
    fs.place (site.seen (site.uploadPath n)) false = .ok q := by
  obtain ⟨q', hPlace', rfl | ⟨t, hLink⟩⟩ := Files.place_noFollow hPlace
  · exact hPlace'
  · exact absurd hLink (h.noLinks (.upload n) hPlace')

/-- A draft is not listed. -/
theorem Settled.scriptsIn_draft (h : site.Settled fs) {now : Timestamp}
    (hOpen : fs.openEmpty now (site.seen (site.uploadPath n)) = .ok (id, fs')) :
    fs'.scriptsIn p = fs.scriptsIn p := by
  rw [Files.openEmpty] at hOpen
  cases hPlace : fs.place (site.seen (site.uploadPath n)) with
  | error f => simp [hPlace, bind, Except.bind] at hOpen
  | ok q =>
    have hLast := uploadPlace_getLast? (h.draftPlace hPlace)
    have hName : ∀ k : ScriptName, q.getLast? ≠ some k.text := by
      intro k hText
      exact k.text_ne_uploadName n (Option.some.inj (hText.symm.trans hLast))
    simp only [hPlace, bind, Except.bind] at hOpen
    split at hOpen
    · cases hOpen
      rfl
    · cases hOpen
    · cases hOpen
      exact Files.scriptsIn_setEntry { fs with nextId := fs.nextId + 1 } hName

/-- A draft that gets the name of its script lists that, beside the others. -/
theorem Drafted.mem_scriptsIn (h : site.Settled fs) {bytes : List UInt8}
    (hDrafted : Drafted fs q id bytes fs')
    (hPlace : fs.place (site.seen (site.uploadPath n)) false = .ok q)
    (hDirectory : fs.place (site.seen site.scriptsDir) = .ok p) {fs'' : Files}
    (hRename : fs'.rename (site.seen (site.uploadPath n)) (site.seen (site.scriptPath n)) =
      .ok fs'') : k ∈ fs''.scriptsIn p ↔ k = n ∨ k ∈ fs'.scriptsIn p := by
  have h' : site.Settled fs' := hDrafted.settled h
  have hSource := (Files.place_ok_iff hDrafted.ways).mpr hPlace
  have hFile : fs'.entryAt? q = some (.file id) := (hDrafted.entry q).trans (if_pos rfl)
  have hLast := uploadPlace_getLast? hSource
  have hApart : ∀ r, fs'.place (site.seen (site.scriptPath n)) false = .ok r → r ≠ q :=
    fun r hScript => ne_of_getLast? (scriptPlace_getLast? hScript) hLast (n.text_ne_uploadName n)
  obtain ⟨r, hTarget, -, rfl⟩ :=
    rename_file hSource hFile (fun _ _ => h'.noLinks (.script n)) hApart hRename
  obtain rfl : r = p ++ [n.text] :=
    scriptPlace_eq ((Files.place_ok_iff hDrafted.ways).mpr hDirectory) hTarget
  rw [Files.mem_scriptsIn_setEntry, Files.scriptsIn_clearEntry]
  intro m hText
  exact m.text_ne_uploadName n (Option.some.inj (hText.symm.trans hLast))

end Site

namespace Registry

variable {r : Registry} {fs fs' : Files} {p : FilePlace}

/-- The list of the scripts in a directory that is there. -/
theorem names_of_place (hDirectory : fs.place (r.site.seen r.site.scriptsDir) = .ok p)
    (hEntry : fs.entryAt? p = some .directory) :
    r.names fs = .ok ((fs.scriptsIn p).mergeSort fun a b => decide (a.text ≤ b.text)) := by
  rw [names, Files.list_eq_ok hDirectory hEntry, Files.scriptsIn_eq]

/-- The list stays where the entries of the directory that are scripts stay. -/
theorem names_eq (h : r.site.Settled fs) (hWays : Files.SameWays fs fs')
    (hScripts : ∀ p, fs'.scriptsIn p = fs.scriptsIn p) : r.names fs' = r.names fs := by
  obtain ⟨p, hPlace, hEntry⟩ := Files.place_of_isDirectory h.there
  have hPlace' := (Files.place_ok_iff hWays).mpr hPlace
  have hEntry' : fs'.entryAt? p = some .directory := by
    rw [← Files.wayAt?_directory_iff, hWays p]
    exact Files.wayAt?_directory_iff.mpr hEntry
  rw [names_of_place hPlace hEntry, names_of_place hPlace' hEntry', hScripts]

end Registry

end ScriptWarden
