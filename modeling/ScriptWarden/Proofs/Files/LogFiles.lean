import ScriptWarden.Proofs.Files.ScriptChanges

/-!
# The files of logs

The log of a script is a file that is written where it is, so it must be no link and have no other
name; and the designation of the boot script is kept elsewhere. Then writing a log and removing one
change that log and no other, and whatever else is written or removed changes no log.

The directory of the logs is made where it is not there. What lies behind a missing directory cannot
be told from the text of a path, so that this uncovers no log is a condition of its own; where the
directory is there, nothing is made.

## Results

* `LogsKept.log?_eq_some` — the log of a script, without following links.
* `SameLogs` — changes that leave the logs alone, as `upload_sameLogs` does.
* `write_log`, `retireScript_log` — what changes one log.
-/

namespace ScriptWarden

namespace Site

variable {site : Site} {fs fs' fs'' : Files} {n m : ScriptName} {p q : FilePlace} {id : FileId}
  {bytes : List UInt8}

-- ---------------------------------------------------------------------------
-- Logs
-- ---------------------------------------------------------------------------

/-- What the log of a script holds, if there is one. -/
def log? (site : Site) (fs : Files) (n : ScriptName) : Option (List UInt8) :=
  (fs.read (site.seen (site.logPath n))).toOption

/-- The files with the directory of a script's log. -/
def makeLogDir (site : Site) (fs : Files) (n : ScriptName) : Except IoFault Files :=
  match Files.parentPath? (site.logPath n) with
  | some directory => fs.makeDirectories (site.seen directory)
  | none => .ok fs

/-- Logs are files of their own. -/
structure LogsKept (site : Site) (fs : Files) : Prop where
  settled : site.Settled fs
  oneName : ∀ {n : ScriptName} {q q' : FilePlace} {id : FileId},
    fs.place (site.seen (site.logPath n)) false = .ok q → fs.entryAt? q = some (.file id) →
    fs.entryAt? q' = some (.file id) → q' = q
  apart : ∀ {n : ScriptName} {q : FilePlace},
    fs.place (site.seen site.autobootFile) false = .ok q →
    fs.place (site.seen (site.logPath n)) false ≠ .ok q

theorem LogsKept.edit (h : site.LogsKept fs) (hEdit : Edit fs fs' q id) : site.LogsKept fs' where
  settled := h.settled.edit hEdit
  oneName := hEdit.oneName fun _ _ _ => h.oneName
  apart := by
    intro n p hPlace hPlace'
    exact h.apart ((Files.place_ok_iff hEdit.ways).mp hPlace)
      ((Files.place_ok_iff hEdit.ways).mp hPlace')

/-- The log of a script, without following links. -/
theorem LogsKept.log?_eq_some (h : site.LogsKept fs) :
    site.log? fs n = some bytes ↔ ∃ q id,
      fs.place (site.seen (site.logPath n)) false = .ok q ∧ fs.entryAt? q = some (.file id) ∧
        (fs.body id).bytes = bytes := by
  have hRead : site.log? fs n = some bytes ↔
      fs.read (site.seen (site.logPath n)) = .ok bytes := by
    unfold log?
    cases fs.read (site.seen (site.logPath n)) <;> simp [Except.toOption]
  rw [hRead, Files.read_eq_ok]
  constructor
  · rintro ⟨q, id, hPlace, hEntry, hBytes⟩
    obtain ⟨q', hPlace', hEnd⟩ := Files.place_noFollow hPlace
    rcases hEnd with rfl | ⟨t, hLink⟩
    · exact ⟨q', id, hPlace', hEntry, hBytes⟩
    · exact absurd hLink (h.settled.noLinks (.log n) hPlace')
  · rintro ⟨q, id, hPlace, hEntry, hBytes⟩
    exact ⟨q, id, Files.place_follow hPlace (by simp [hEntry]), hEntry, hBytes⟩

/-- A log whose place and file are left alone is what it was. -/
theorem LogsKept.log?_congr (h : site.LogsKept fs) (h' : site.LogsKept fs')
    (hWays : Files.SameWays fs fs')
    (hEntry : ∀ q, fs.place (site.seen (site.logPath n)) false = .ok q →
      fs'.entryAt? q = fs.entryAt? q)
    (hBody : ∀ q id, fs.place (site.seen (site.logPath n)) false = .ok q →
      fs.entryAt? q = some (.file id) → fs'.body id = fs.body id) :
    site.log? fs' n = site.log? fs n := by
  apply Option.ext
  intro bytes
  rw [h.log?_eq_some, h'.log?_eq_some]
  constructor
  · rintro ⟨q, id, hPlace, hFile, hBytes⟩
    have hPlace' := (Files.place_ok_iff hWays).mp hPlace
    have hFile' := (hEntry q hPlace').symm.trans hFile
    refine ⟨q, id, hPlace', hFile', ?_⟩
    rw [← hBody q id hPlace' hFile']
    exact hBytes
  · rintro ⟨q, id, hPlace, hFile, hBytes⟩
    refine ⟨q, id, (Files.place_ok_iff hWays).mpr hPlace, (hEntry q hPlace).trans hFile, ?_⟩
    rw [hBody q id hPlace hFile]
    exact hBytes

/-- Logs of different scripts lie at different places. -/
theorem logPlace_ne (hPlace : fs.place (site.seen (site.logPath n)) false = .ok q) (hName : m ≠ n) :
    fs.place (site.seen (site.logPath m)) false ≠ .ok q := by
  intro hSame
  have hNames := Option.some.inj ((logPlace_getLast? hSame).symm.trans (logPlace_getLast? hPlace))
  have hTexts := congrArg String.toList hNames
  rw [ScriptName.logName_toList, ScriptName.logName_toList] at hTexts
  exact hName (ScriptName.eq_of_text (String.ext (List.append_cancel_right hTexts)))

-- ---------------------------------------------------------------------------
-- One file written, renamed or removed
-- ---------------------------------------------------------------------------

theorem Drafted.log?_other (h : site.LogsKept fs) (hDrafted : Drafted fs q id bytes fs')
    (hOther : fs.place (site.seen (site.logPath n)) false ≠ .ok q) :
    site.log? fs' n = site.log? fs n := by
  have hApart : ∀ p, fs.place (site.seen (site.logPath n)) false = .ok p → p ≠ q := by
    rintro p hPlace rfl
    exact hOther hPlace
  refine h.log?_congr (h.edit hDrafted.edit) hDrafted.ways (fun p hPlace => ?_)
    fun p j hPlace hFile => hDrafted.bodies j ?_
  · rw [hDrafted.entry, if_neg (hApart p hPlace)]
  · rintro rfl
    exact hApart p hPlace (hDrafted.own p hFile)

theorem Drafted.log?_own (h : site.LogsKept fs) (hDrafted : Drafted fs q id bytes fs')
    (hPlace : fs.place (site.seen (site.logPath n)) false = .ok q) :
    site.log? fs' n = some bytes := by
  refine (h.edit hDrafted.edit).log?_eq_some.mpr ⟨q, id, ?_, ?_, hDrafted.bytes⟩
  · exact (Files.place_ok_iff hDrafted.ways).mpr hPlace
  · rw [hDrafted.entry, if_pos rfl]

theorem Removed.log?_other (h : site.LogsKept fs) (hRemoved : Removed fs q fs')
    (hOther : fs.place (site.seen (site.logPath n)) false ≠ .ok q) :
    site.log? fs' n = site.log? fs n := by
  refine h.log?_congr (h.edit (hRemoved.edit h.settled)) hRemoved.ways (fun p hPlace => ?_)
    fun p j _ _ => hRemoved.body j
  have hApart : p ≠ q := by
    rintro rfl
    exact hOther hPlace
  rw [hRemoved.entry, if_neg hApart]

theorem Removed.log?_own (h : site.LogsKept fs) (hRemoved : Removed fs q fs')
    (hPlace : fs.place (site.seen (site.logPath n)) false = .ok q) : site.log? fs' n = none := by
  refine Option.eq_none_iff_forall_ne_some.mpr fun bytes hLog => ?_
  obtain ⟨p, j, hPlace', hFile, -⟩ := (h.edit (hRemoved.edit h.settled)).log?_eq_some.mp hLog
  obtain rfl : p = q :=
    Except.ok.inj (((Files.place_ok_iff hRemoved.ways).mp hPlace').symm.trans hPlace)
  rw [hRemoved.entry, if_pos rfl] at hFile
  cases hFile

theorem Moved.log?_other (h : site.LogsKept fs) (h' : site.LogsKept fs')
    (hMoved : Moved fs p q id fs')
    (hSource : fs.place (site.seen (site.logPath n)) false ≠ .ok p)
    (hTarget : fs.place (site.seen (site.logPath n)) false ≠ .ok q) :
    site.log? fs' n = site.log? fs n := by
  refine h.log?_congr h' hMoved.ways (fun x hPlace => ?_) fun x j _ _ => hMoved.body j
  have hNotTarget : x ≠ q := by
    rintro rfl
    exact hTarget hPlace
  have hNotSource : x ≠ p := by
    rintro rfl
    exact hSource hPlace
  rw [hMoved.entry, if_neg hNotTarget, if_neg hNotSource]

-- ---------------------------------------------------------------------------
-- Changes that leave logs alone
-- ---------------------------------------------------------------------------

/-- Logs that are files of their own stay so, and hold what they held. -/
def SameLogs (site : Site) (fs fs' : Files) : Prop :=
  site.LogsKept fs → site.LogsKept fs' ∧ ∀ n, site.log? fs' n = site.log? fs n

theorem SameLogs.refl (site : Site) (fs : Files) : site.SameLogs fs fs := fun h => ⟨h, fun _ => rfl⟩

theorem SameLogs.trans (h : site.SameLogs fs fs') (h' : site.SameLogs fs' fs'') :
    site.SameLogs fs fs'' := by
  intro hKept
  obtain ⟨hKept', hFirst⟩ := h hKept
  obtain ⟨hKept'', hRest⟩ := h' hKept'
  exact ⟨hKept'', fun n => (hRest n).trans (hFirst n)⟩

/-- Where the directory of the logs is there, nothing is made. -/
theorem makeLogDir_there
    (hThere : ∀ directory, Files.parentPath? (site.logPath n) = some directory →
      fs.isDirectory (site.seen directory) = true) : site.makeLogDir fs n = .ok fs := by
  unfold makeLogDir
  split
  · next directory hDirectory => exact Files.makeDirectories_eq_self (hThere directory hDirectory)
  · rfl

theorem sameLogs_of_removed (hRemoved : Removed fs q fs')
    (hOther : site.LogsKept fs → ∀ n, fs.place (site.seen (site.logPath n)) false ≠ .ok q) :
    site.SameLogs fs fs' := by
  intro h
  exact ⟨h.edit (hRemoved.edit h.settled), fun n => hRemoved.log?_other h (hOther h n)⟩

/-- A draft of an upload is no log. -/
theorem sameLogs_of_draft (hDrafted : Drafted fs q id bytes fs')
    (hPlace : fs.place (site.seen (site.uploadPath n)) false = .ok q) : site.SameLogs fs fs' := by
  intro h
  refine ⟨h.edit hDrafted.edit, fun m => hDrafted.log?_other h fun hLog => ?_⟩
  exact m.logName_ne_uploadName n
    (Option.some.inj ((logPlace_getLast? hLog).symm.trans (uploadPlace_getLast? hPlace)))

/-- What is renamed to a script is no log. -/
theorem sameLogs_of_upload (h : site.Settled fs) (hDrafted : Drafted fs q id bytes fs')
    (hPlace : fs.place (site.seen (site.uploadPath n)) false = .ok q)
    (hRename : fs'.rename (site.seen (site.uploadPath n)) (site.seen (site.scriptPath n)) =
      .ok fs'') : site.SameLogs fs fs'' := by
  obtain ⟨-, p, hTarget, hMoved⟩ := hDrafted.moved h hPlace hRename
  refine (sameLogs_of_draft hDrafted hPlace).trans fun h' => ?_
  have hFile : fs'.entryAt? q = some (.file id) := (hDrafted.entry q).trans (if_pos rfl)
  have h'' := h'.edit (hMoved.edit h'.settled hFile fun x => hDrafted.alone)
  refine ⟨h'', fun m => hMoved.log?_other h' h'' (fun hLog => ?_) fun hLog => ?_⟩
  · have hSource := (Files.place_ok_iff hDrafted.ways).mpr hPlace
    exact m.logName_ne_uploadName n
      (Option.some.inj ((logPlace_getLast? hLog).symm.trans (uploadPlace_getLast? hSource)))
  · exact n.text_ne_logName m
      (Option.some.inj ((scriptPlace_getLast? hTarget).symm.trans (logPlace_getLast? hLog)))

/-- Writing a log changes that log and no other. -/
theorem write_log (h : site.LogsKept fs) {now : Timestamp}
    (hWrite : fs.write now (site.seen (site.logPath n)) bytes = .ok fs') :
    site.LogsKept fs' ∧ ∀ m, site.log? fs' m = if m = n then some bytes else site.log? fs m := by
  rw [Files.write] at hWrite
  cases hOpen : fs.openEmpty now (site.seen (site.logPath n)) with
  | error f => simp [hOpen, bind, Except.bind] at hWrite
  | ok opened =>
    obtain ⟨id, opened⟩ := opened
    simp only [hOpen, bind, Except.bind] at hWrite
    cases hWrite
    obtain ⟨q, hPlace, hOpened⟩ := drafted_of_plain h.settled
      (fun _ _ => h.settled.noLinks (.log n)) (fun _ _ _ => h.oneName) hOpen
    have hWritten := hOpened.append now bytes
    refine ⟨h.edit hWritten.edit, fun m => ?_⟩
    split
    · next hName =>
      subst hName
      exact hWritten.log?_own h hPlace
    · next hName => exact hWritten.log?_other h (logPlace_ne hPlace hName)

end Site

namespace Store

variable {s : Store} {n : ScriptName}

-- ---------------------------------------------------------------------------
-- Uploads and deletions
-- ---------------------------------------------------------------------------

/-- Work that leaves logs alone. -/
def LeavesLogs (s t : Store) : Prop := t.site = s.site ∧ s.site.SameLogs s.files t.files

theorem LeavesLogs.refl (s : Store) : LeavesLogs s s := ⟨rfl, .refl _ _⟩

theorem LeavesLogs.trans (s t u : Store) (h : LeavesLogs s t) (h' : LeavesLogs t u) :
    LeavesLogs s u := by
  obtain ⟨hSite, hFirst⟩ := h
  obtain ⟨hSite', hRest⟩ := h'
  exact ⟨hSite'.trans hSite, hFirst.trans (hSite ▸ hRest)⟩

theorem upload_sameLogs {fileName : String} (bytes : List UInt8) (s : Store) :
    s.site.SameLogs s.files (saveUpload fileName bytes (fun _ => none) s).2.files := by
  intro h
  cases hName : parseName fileName with
  | error f =>
    have hParsed : view (fun _ => parseName fileName) s = (.error f, s) := by rw [view, hName]
    unfold saveUpload
    rw [Work.bind_error hParsed]
    exact Site.SameLogs.refl _ _ h
  | ok n =>
    revert h
    by_cases hSettled : s.site.Settled s.files
    · rcases saveUpload_files hSettled hName (fun _ => none) with hSame | ⟨-, hPlaced⟩
      · rw [hSame]
        exact Site.SameLogs.refl _ _
      · rw [hPlaced]
        rcases placeFile_cases (s.site.uploadPath n) (s.site.scriptPath n) bytes (fun _ => none) s
          with ⟨f, hDone⟩ | ⟨id, opened, hOpen, hRest⟩
        · rw [hDone]
          exact Site.SameLogs.refl _ _
        · obtain ⟨q, hPlace, hOpened⟩ := Site.drafted_of_openEmpty hSettled hOpen
          rcases hRest with ⟨f, part, -, hDone⟩ | ⟨files, hRename, hDone⟩
          · rw [hDone]
            exact Site.sameLogs_of_draft (hOpened.append s.now part) hPlace
          · rw [hDone]
            exact Site.sameLogs_of_upload hSettled (hOpened.append s.now bytes) hPlace hRename
    · exact fun h => absurd h.settled hSettled

theorem removeScript_leavesLogs (n : ScriptName) : Work.Keeps LeavesLogs (removeScript n) := by
  intro s
  unfold removeScript
  split
  · next files hRemove =>
    refine ⟨rfl, fun h => ?_⟩
    obtain ⟨q, hPlace, hRemoved⟩ :=
      Site.removed_of_remove (fun _ _ => h.settled.noLinks (.script n)) hRemove
    refine Site.sameLogs_of_removed hRemoved (fun _ m hLog => ?_) h
    exact n.text_ne_logName m
      (Option.some.inj ((Site.scriptPlace_getLast? hPlace).symm.trans (Site.logPlace_getLast? hLog)))
  · exact .refl s

theorem clearDesignationOf_leavesLogs (name : String) :
    Work.Keeps LeavesLogs (clearDesignationOf name) := by
  have hClear : Work.Keeps LeavesLogs clearDesignation := by
    intro s
    unfold clearDesignation
    split
    · next files hRemove =>
      refine ⟨rfl, fun h => ?_⟩
      obtain ⟨q, hPlace, hRemoved⟩ :=
        Site.removed_of_remove (fun _ _ => h.settled.noLinks .designation) hRemove
      exact Site.sameLogs_of_removed hRemoved (fun hKept m => hKept.apart hPlace) h
    · exact .refl s
    · exact .refl s
  have hView : Work.Keeps LeavesLogs (view designated) := .refl
  unfold clearDesignationOf
  refine .bind .trans hView fun found => ?_
  split
  · exact .pure .refl _
  · exact .bind .trans hClear fun _ => .pure .refl _

/-- Removing a log leaves none, and no other log changes. -/
theorem removeLog_log (h : s.site.LogsKept s.files) (n : ScriptName) :
    (removeLog n s).2.site = s.site ∧ s.site.LogsKept (removeLog n s).2.files ∧
      ∀ m, s.site.log? (removeLog n s).2.files m = if m = n then none else s.site.log? s.files m := by
  cases hRemove : s.files.remove (s.site.seen (s.site.logPath n)) with
  | ok files =>
    have hRun : (removeLog n s).2 = { s with files } := by
      unfold removeLog
      rw [Work.modify_apply]
      simp only [hRemove]
    rw [hRun]
    obtain ⟨q, hPlace, hRemoved⟩ :=
      Site.removed_of_remove (fun _ _ => h.settled.noLinks (.log n)) hRemove
    refine ⟨rfl, h.edit (hRemoved.edit h.settled), fun m => ?_⟩
    split
    · next hName =>
      subst hName
      exact hRemoved.log?_own h hPlace
    · next hName => exact hRemoved.log?_other h (Site.logPlace_ne hPlace hName)
  | error f =>
    have hRun : (removeLog n s).2 = s := by
      unfold removeLog
      rw [Work.modify_apply]
      simp only [hRemove]
    rw [hRun]
    refine ⟨rfl, h, fun m => ?_⟩
    split
    · next hName =>
      -- what could not be removed was no file
      subst hName
      refine Option.eq_none_iff_forall_ne_some.mpr fun bytes hLog => ?_
      obtain ⟨q, id, hPlace, hFile, -⟩ := h.log?_eq_some.mp hLog
      simp [Files.remove, hPlace, hFile, bind, Except.bind] at hRemove
    · rfl

/-- A deletion removes the log if it removes the script, and changes no other log. -/
theorem retireScript_log (h : s.site.LogsKept s.files) (n : ScriptName) :
    (retireScript n s).2.site = s.site ∧ s.site.LogsKept (retireScript n s).2.files ∧
      ∀ m, s.site.log? (retireScript n s).2.files m =
        if m = n ∧ (removeScript n s).1.isOk then none else s.site.log? s.files m := by
  obtain ⟨hSite, hSame⟩ := removeScript_leavesLogs n s
  obtain ⟨hKept, hLogs⟩ := hSame h
  unfold retireScript
  rcases hRun : removeScript n s with ⟨f | ⟨⟩, t⟩
  · rw [hRun] at hSite hKept hLogs
    have hFails : deleteScript n s = (.error f, t) := by
      unfold deleteScript
      rw [Work.bind_error hRun]
    rw [Work.bind_error hFails]
    exact ⟨hSite, hKept, fun m => by simpa [Except.isOk, Except.toBool] using hLogs m⟩
  · rw [hRun] at hSite hKept hLogs
    let u : Store := { t with registry := t.registry.forget n }
    have hDeleted : deleteScript n s = removeLog n u := by
      unfold deleteScript
      rw [Work.bind_ok hRun]
      rfl
    have hForgot : u.site = s.site := hSite
    obtain ⟨hSite', hKept', hLogs'⟩ := removeLog_log (s := u) (by rw [hForgot]; exact hKept) n
    have hDone : deleteScript n s = (.ok ⟨⟩, (removeLog n u).2) := hDeleted.trans rfl
    rw [Work.bind_ok hDone, Work.discard_apply]
    rw [hForgot] at hSite' hKept' hLogs'
    obtain ⟨hSite'', hSame''⟩ := clearDesignationOf_leavesLogs n.text (removeLog n u).2
    rw [hSite'] at hSite'' hSame''
    obtain ⟨hKept'', hLogs''⟩ := hSame'' hKept'
    have hAll : ∀ m, s.site.log? (clearDesignationOf n.text (removeLog n u).2).2.files m =
        if m = n then none else s.site.log? s.files m := by
      intro m
      rw [hLogs'', hLogs']
      split
      · rfl
      · exact hLogs m
    rcases hClear : clearDesignationOf n.text (removeLog n u).2 with ⟨_ | _, v⟩ <;>
      rw [hClear] at hSite'' hKept'' hAll <;>
      exact ⟨hSite'', hKept'', fun m => by simpa [Except.isOk, Except.toBool] using hAll m⟩

end Store

end ScriptWarden
