import Mathlib.Data.List.TakeWhile
import ScriptWarden.Proofs.Files.DesignationFile

/-!
# Designations and scripts

The file of the designation is written to a draft first, whose name ends in an extension that no
script has. So a designation that is written leaves every script alone, as long as its own file lies
apart from them; and taking an upload leaves the designation alone, as long as its path does not end
in the name of an upload's draft.

## Results

* `writeDesignation_reads` — writing a designation leaves all scripts alone.
* `saveUpload_leaves` — an upload leaves the designation alone.
* `removeScript_removes` — a script that was removed cannot be read.
-/

namespace ScriptWarden

-- ---------------------------------------------------------------------------
-- The draft of the designation
-- ---------------------------------------------------------------------------

/-- A path with an extension after it ends in a name with that extension. -/
theorem endsIn_extension (path : List Char) (extension : String) (hSlash : '/' ∉ extension.toList) :
    ∃ name stem, EndsIn (String.ofList path ++ "." ++ extension) name ∧
      '/' ∉ name.toList ∧ name.toList = stem ++ '.' :: extension.toList := by
  -- the last name of the path, and what stands before it
  let stem := (path.reverse.takeWhile (· != '/')).reverse
  let front := (path.reverse.dropWhile (· != '/')).reverse
  have hPath : path = front ++ stem := by
    have hSplit : path.reverse.takeWhile (· != '/') ++ path.reverse.dropWhile (· != '/') =
        path.reverse := List.takeWhile_append_dropWhile
    rw [← List.reverse_append, hSplit, List.reverse_reverse]
  have hFront : front = [] ∨ front.getLast? = some '/' := by
    rw [List.getLast?_reverse]
    cases hRest : path.reverse.dropWhile (· != '/') with
    | nil => exact .inl (by simp [front, hRest])
    | cons c rest =>
      have hHead := List.head?_dropWhile_not (· != '/') path.reverse
      rw [hRest] at hHead
      exact .inr (by simpa using hHead)
  have hStem : '/' ∉ stem := by
    intro hMem
    have hKept := List.mem_takeWhile_imp (List.mem_reverse.mp hMem)
    simp at hKept
  refine ⟨String.ofList (stem ++ '.' :: extension.toList), stem, ⟨front, ?_, hFront⟩, ?_, by simp⟩
  · rw [String.toList_ofList, ← List.append_assoc, ← hPath]
    simp
  · simp [hStem, hSlash]

namespace Site

variable {site : Site} {fs : Files} {n : ScriptName} {p q : FilePlace}

/-- The draft of the designation is the file itself, where its path ends in no name, or has an
extension of its own. -/
theorem designationDraft_cases (site : Site) :
    site.designationDraft = site.autobootFile ∨
      ∃ path, site.designationDraft = String.ofList path ++ "." ++ "tmp" := by
  simp only [designationDraft, withExtension]
  split
  · exact .inl rfl
  · exact .inr ⟨_, rfl⟩

/-- The draft of the designation lies apart from every script. -/
theorem DesignationKept.draft_apart (h : site.DesignationKept fs)
    (hDraft : fs.place (site.seen site.designationDraft) false = .ok q)
    (hScript : fs.place (site.seen (site.scriptPath n)) false = .ok p) : p ≠ q := by
  rcases site.designationDraft_cases with hSelf | ⟨path, hPath⟩
  · rw [hSelf] at hDraft
    rintro rfl
    exact h.settled.apart hDraft hScript
  · obtain ⟨name, stem, hEnds, hSlash, hName⟩ := endsIn_extension path "tmp" (by decide)
    rw [← hPath] at hEnds
    have hEnd : name.toList.getLast? = some 'p' := by
      rw [hName, List.getLast?_append]
      rfl
    have hFileName : IsFileName name := by
      refine ⟨by simp [hName], hSlash, ?_, ?_⟩ <;> rintro rfl <;> exact absurd hEnd (by decide)
    refine ne_of_getLast? (scriptPlace_getLast? hScript) (place_getLast?_of_endsIn hEnds hFileName hDraft) ?_
    rintro rfl
    obtain ⟨stem, hText⟩ := n.text_endsInPy
    simp [hText, scriptSuffix] at hEnd

/-- The path of the designation ends in a name that no upload's draft has. -/
def DesignationNamed (site : Site) : Prop :=
  ∃ name, EndsIn site.autobootFile name ∧ IsFileName name ∧ ∀ n : ScriptName, name ≠ n.uploadName

/-- The designation lies apart from every upload's draft. -/
theorem DesignationNamed.apart (h : site.DesignationNamed)
    (hPlace : fs.place (site.seen site.autobootFile) false = .ok p)
    (hDraft : fs.place (site.seen (site.uploadPath n)) false = .ok q) : p ≠ q := by
  obtain ⟨name, hEnds, hName, hOther⟩ := h
  exact ne_of_getLast? (place_getLast?_of_endsIn hEnds hName hPlace) (uploadPlace_getLast? hDraft)
    (hOther n)

end Site

namespace Store

variable {s t : Store} {n m : ScriptName} {bytes b : List UInt8}

-- ---------------------------------------------------------------------------
-- What changes of the one leave of the other
-- ---------------------------------------------------------------------------

/-- Writing a designation leaves every script alone. -/
theorem writeDesignation_reads (h : s.site.DesignationKept s.files) (n m : ScriptName) :
    s.site.Reads (writeDesignation n s).2.files m b ↔ s.site.Reads s.files m b := by
  rw [writeDesignation_apply h, placeFile_unhindered]
  cases hOpen : s.files.openEmpty s.now (s.site.seen s.site.designationDraft) with
  | error f => exact Iff.rfl
  | ok opened =>
    obtain ⟨id, opened⟩ := opened
    obtain ⟨p, hDraft, hOpened⟩ := Site.drafted_of_plain h.settled
      (fun _ _ => h.draftNoLink) (fun _ _ _ => h.draftOneName) hOpen
    have hWritten := hOpened.append s.now (designationBytes n)
    have hKept := h.edit hWritten.edit
    have hFile : (opened.append s.now id (designationBytes n)).entryAt? p = some (.file id) :=
      (hWritten.entry p).trans (if_pos rfl)
    have hSource := (Files.place_ok_iff hWritten.ways).mpr hDraft
    have hFirst : s.site.Reads (opened.append s.now id (designationBytes n)) m b ↔
        s.site.Reads s.files m b :=
      Site.reads_congr_of_shows fun _ =>
        hWritten.shows_of_apart h.settled fun _ hScript => h.draft_apart hDraft hScript
    simp only
    by_cases hSame : s.files.place (s.site.seen s.site.autobootFile) false = .ok p
    · -- the draft is the file of the designation itself
      have hTarget := (Files.place_ok_iff hWritten.ways).mpr hSame
      rw [Site.rename_same hSource hTarget hFile]
      exact hFirst
    cases hRename : (opened.append s.now id (designationBytes n)).rename
      (s.site.seen s.site.designationDraft) (s.site.seen s.site.autobootFile) with
    | error f => exact hFirst
    | ok files =>
      have hOther : ∀ q, (opened.append s.now id (designationBytes n)).place
          (s.site.seen s.site.autobootFile) false = .ok q → q ≠ p := by
        rintro q hPlace rfl
        exact hSame ((Files.place_ok_iff hWritten.ways).mp hPlace)
      obtain ⟨q, hTarget, hMoved⟩ := Site.moved_of_rename hSource hFile
        (fun _ _ => hKept.settled.noLinks .designation) hOther hRename
      have hOwn : ∀ x, (opened.append s.now id (designationBytes n)).entryAt? x =
          some (.file id) → x = p := fun x hEntry => hKept.draftOneName hSource hFile hEntry
      refine Iff.trans (Site.reads_congr_of_shows fun _ => ?_) hFirst
      refine hMoved.shows_of_apart hKept.settled (hMoved.settled hKept.settled hFile hOwn)
        fun x hScript => ⟨hKept.draft_apart hSource hScript, ?_⟩
      rintro rfl
      exact hKept.settled.apart hTarget hScript

/-- A script whose file was removed cannot be read any more. -/
theorem removeScript_removes (h : s.site.Settled s.files) (hRemove : removeScript n s = (.ok (), t)) :
    ¬ s.site.Reads t.files n b := by
  unfold removeScript at hRemove
  split at hRemove
  · next files hDone =>
    cases hRemove
    obtain ⟨q, hPlace, hRemoved⟩ := Site.removed_of_remove (fun _ _ => h.noLinks (.script n)) hDone
    intro hReads
    obtain ⟨body, hShows, -⟩ := Site.reads_iff_shows.mp hReads
    obtain ⟨p, id, hPlace', hFile, -⟩ := (hRemoved.settled h).shows_iff.mp hShows
    cases hPlace.symm.trans ((Files.place_ok_iff hRemoved.ways).mp hPlace')
    rw [hRemoved.entry, if_pos rfl] at hFile
    cases hFile
  · cases hRemove

/-- Placing the file of a script leaves what is registered for the boot. -/
theorem placeFile_leaves {r : Option String} (h : s.Registers r) (hNamed : s.site.DesignationNamed)
    (n : ScriptName) (bytes : List UInt8) (obstacle : PlacingStep → Option IoFault) :
    let files := (placeFile (s.site.uploadPath n) (s.site.scriptPath n) bytes obstacle s).2.files
    s.site.DesignationKept files ∧ s.site.Names files r := by
  have hSettled := h.kept.settled
  rcases placeFile_cases (s.site.uploadPath n) (s.site.scriptPath n) bytes obstacle s with
    ⟨f, hDone⟩ | ⟨id, opened, hOpen, hRest⟩
  · rw [hDone]
    exact ⟨h.kept, h.names⟩
  obtain ⟨q, hPlace, hOpened⟩ := Site.drafted_of_openEmpty hSettled hOpen
  have hDrafted : ∀ part, s.site.DesignationKept (opened.append s.now id part) ∧
      s.site.Names (opened.append s.now id part) r := fun part =>
    ⟨h.kept.edit (hOpened.append s.now part).edit,
      h.names.drafted (hOpened.append s.now part) fun hSame => hNamed.apart hSame hPlace rfl⟩
  rcases hRest with ⟨f, part, -, hDone⟩ | ⟨files, hRename, hDone⟩
  · rw [hDone]
    exact hDrafted part
  · rw [hDone]
    have hWritten := hOpened.append s.now bytes
    obtain ⟨hKept, hNames⟩ := hDrafted bytes
    obtain ⟨-, p, hTarget, hMoved⟩ := hWritten.moved hSettled hPlace hRename
    have hFile : (opened.append s.now id bytes).entryAt? q = some (.file id) :=
      (hWritten.entry q).trans (if_pos rfl)
    refine ⟨hKept.edit (hMoved.edit hKept.settled hFile fun x => hWritten.alone), ?_⟩
    refine hNames.congr hMoved.ways (fun x hHere => ?_) fun _ _ _ _ => hMoved.body _
    have hNotDraft : x ≠ q :=
      hNamed.apart hHere ((Files.place_ok_iff hWritten.ways).mpr hPlace)
    have hNotScript : x ≠ p := by
      rintro rfl
      exact hKept.settled.apart hHere hTarget
    rw [hMoved.entry, if_neg hNotScript, if_neg hNotDraft]

/-- An upload leaves what is registered for the boot. -/
theorem saveUpload_leaves (hNamed : s.site.DesignationNamed) (fileName : String) (bytes : List UInt8)
    (obstacle : PlacingStep → Option IoFault) :
    LeavesRegister s (saveUpload fileName bytes obstacle s).2 := by
  intro r h
  have hSite : (saveUpload fileName bytes obstacle s).2.site = s.site :=
    Registry.site_eq_of_bare (saveUpload_rules fileName bytes obstacle s)
  refine ⟨hSite, ?_⟩
  cases hName : parseName fileName with
  | error f =>
    have hParsed : view (fun _ => parseName fileName) s = (.error f, s) := by rw [view, hName]
    rw [saveUpload, Work.bind_error hParsed]
    exact h
  | ok n =>
    rcases saveUpload_files h.kept.settled hName obstacle with hSame | ⟨-, hPlaced⟩
    · exact h.of_files hSite hSame
    · obtain ⟨hKept, hNames⟩ := placeFile_leaves h hNamed n bytes obstacle
      constructor
      · rw [hSite, hPlaced]
        exact hKept
      · rw [hSite, hPlaced]
        exact hNames

end Store

end ScriptWarden
