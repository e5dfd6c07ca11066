import ScriptWarden.Proofs.Files.Listings
import ScriptWarden.Proofs.Files.ScriptChanges
import ScriptWarden.Proofs.Runs.ValidatedFiles

/-!
# Uploads are all or nothing

The host may fail at any step of an upload: it may not tell which scripts there are, not make the
directory, not open the draft, take a part of the bytes only, or not give the draft its name. The
draft lies in the directory of the scripts itself, but is never listed there, and the script gets
all of it in one step. So an upload that is not saved leaves the list and the scripts as they were,
however far it got; and as a call that is under way looks like one that fails at its next step, no
reader ever meets a script in between.

The directory is there and holds plain files. A link that was left at a draft's place is followed
when the draft is written, and would carry the bytes of one upload into the file of another script:
`linked_draft_overwrites` is that run.

## Results

* `Store.saveUpload_saved_iff` — when an upload is saved.
* `Store.saveUpload_outcome` — what one that is saved leaves behind, and one that is not.
* `uploads_all_or_nothing` — the law, over any course of uploads and deletions.
-/

namespace ScriptWarden

namespace Registry

variable {r : Registry} {fs fs' : Files} {n : ScriptName} {bytes : List UInt8}

-- ---------------------------------------------------------------------------
-- What can be seen of the scripts
-- ---------------------------------------------------------------------------

/-- The scripts are what they were: which there are, and what each of them holds. -/
structure SameScripts (r : Registry) (fs fs' : Files) : Prop where
  names : r.names fs' = r.names fs
  bytes : ∀ n b, r.bytes fs' n = .ok b ↔ r.bytes fs n = .ok b

/-- A script is listed and holds bytes; the others are what they were. -/
structure Saves (r : Registry) (n : ScriptName) (bytes : List UInt8) (fs fs' : Files) : Prop where
  own : r.bytes fs' n = .ok bytes
  listed : ∃ ns ns', r.names fs = .ok ns ∧ r.names fs' = .ok ns' ∧ ∀ m, m ∈ ns' ↔ m = n ∨ m ∈ ns
  others : ∀ m b, m ≠ n → (r.bytes fs' m = .ok b ↔ r.bytes fs m = .ok b)

/-- Every script that is listed can be read, and is without problems. -/
def Clean (r : Registry) (fs : Files) : Prop :=
  ∀ ns, r.names fs = .ok ns → ∀ n ∈ ns, ∃ b, r.bytes fs n = .ok b ∧ (r.analyzeBytes n b).problems = []

theorem SameScripts.refl (r : Registry) (fs : Files) : r.SameScripts fs fs :=
  ⟨rfl, fun _ _ => Iff.rfl⟩

theorem Clean.of_same (h : r.Clean fs) (hSame : r.SameScripts fs fs') : r.Clean fs' := by
  intro ns hNames n hMem
  rw [hSame.names] at hNames
  obtain ⟨b, hBytes, hProblems⟩ := h ns hNames n hMem
  exact ⟨b, (hSame.bytes n b).mpr hBytes, hProblems⟩

theorem Clean.of_saves (h : r.Clean fs) (hSaves : r.Saves n bytes fs fs')
    (hValid : (r.analyzeBytes n bytes).problems = []) : r.Clean fs' := by
  intro ns hNames m hMem
  obtain ⟨ns₀, ns', hBefore, hAfter, hListed⟩ := hSaves.listed
  obtain rfl : ns' = ns := Except.ok.inj (hAfter.symm.trans hNames)
  by_cases hName : m = n
  · exact ⟨bytes, hName ▸ hSaves.own, hName ▸ hValid⟩
  · obtain ⟨b, hBytes, hProblems⟩ := h ns₀ hBefore m (((hListed m).mp hMem).resolve_left hName)
    exact ⟨b, (hSaves.others m b hName).mpr hBytes, hProblems⟩

/-- What cannot be seen of a registry makes no difference. -/
theorem Clean.of_bare {r' : Registry} (h : r.Clean fs) (hBare : r'.bare = r.bare) : r'.Clean fs := by
  intro ns hNames n hMem
  show ∃ b, r'.bare.bytes fs n = .ok b ∧ (r'.bare.analyzeBytes n b).problems = []
  have hNames' : r'.bare.names fs = .ok ns := hNames
  rw [hBare] at hNames' ⊢
  exact h ns hNames' n hMem

-- ---------------------------------------------------------------------------
-- Drafts, scripts and removals
-- ---------------------------------------------------------------------------

/-- A draft that is written, as far as that goes, cannot be seen. -/
theorem sameScripts_of_draft (h : r.site.Settled fs) {now : Timestamp} {id : FileId} {opened : Files}
    (hOpen : fs.openEmpty now (r.site.seen (r.site.uploadPath n)) = .ok (id, opened))
    (part : List UInt8) : r.SameScripts fs (opened.append now id part) := by
  obtain ⟨q, hPlace, hOpened⟩ := Site.drafted_of_openEmpty h hOpen
  have hDrafted := hOpened.append now part
  have hListed : ∀ p, opened.scriptsIn p = fs.scriptsIn p := fun p => h.scriptsIn_draft hOpen
  refine ⟨names_eq h hDrafted.ways hListed, fun m b => ?_⟩
  rw [bytes_eq_ok, bytes_eq_ok, hDrafted.reads_iff h hPlace]

/-- A draft that gets the name of its script is that script. -/
theorem saves_of_rename (h : r.site.Settled fs) {now : Timestamp} {id : FileId} {opened : Files}
    (hOpen : fs.openEmpty now (r.site.seen (r.site.uploadPath n)) = .ok (id, opened))
    (hRename : (opened.append now id bytes).rename (r.site.seen (r.site.uploadPath n))
      (r.site.seen (r.site.scriptPath n)) = .ok fs') : r.Saves n bytes fs fs' := by
  obtain ⟨q, hPlace, hOpened⟩ := Site.drafted_of_openEmpty h hOpen
  have hDrafted := hOpened.append now bytes
  obtain ⟨hSettled, r', hTarget, hMoved⟩ := hDrafted.moved h hPlace hRename
  obtain ⟨p, hDirectory, hEntry⟩ := Files.place_of_isDirectory h.there
  have hListed : ∀ m, m ∈ fs'.scriptsIn p ↔ m = n ∨ m ∈ fs.scriptsIn p := by
    intro m
    rw [hDrafted.mem_scriptsIn h hPlace hDirectory hRename, ← h.scriptsIn_draft hOpen]
    rfl
  constructor
  · rw [bytes_eq_ok, hMoved.reads_own hSettled hTarget]
    exact hDrafted.bytes
  · obtain ⟨p', hDirectory', hEntry'⟩ := Files.place_of_isDirectory hSettled.there
    have hWays : Files.SameWays fs fs' := hDrafted.ways.trans hMoved.ways
    obtain rfl : p' = p :=
      Except.ok.inj (((Files.place_ok_iff hWays).mp hDirectory').symm.trans hDirectory)
    refine ⟨_, _, names_of_place hDirectory hEntry, names_of_place hDirectory' hEntry', fun m => ?_⟩
    rw [List.mem_mergeSort, List.mem_mergeSort, hListed]
  · intro m b hName
    rw [bytes_eq_ok, bytes_eq_ok]
    exact Site.reads_congr_of_shows fun _ => hDrafted.shows_of_rename h hPlace hRename hName

/-- Removing a file that is no link leaves no script listed that cannot be read. -/
theorem Clean.of_removed (hClean : r.Clean fs) (h : r.site.Settled fs) {path : String}
    (hNoLink : ∀ q t, fs.place path false = .ok q → fs.entryAt? q ≠ some (.link t))
    (hRemove : fs.remove path = .ok fs') : r.site.Settled fs' ∧ r.Clean fs' := by
  obtain ⟨q, -, hRemoved⟩ := Site.removed_of_remove hNoLink hRemove
  have hSettled := hRemoved.settled h
  refine ⟨hSettled, fun ns hNames n hMem => ?_⟩
  obtain ⟨p, hDirectory', hEntry'⟩ := Files.place_of_isDirectory hSettled.there
  have hDirectory := (Files.place_ok_iff hRemoved.ways).mp hDirectory'
  have hEntry : fs.entryAt? p = some .directory := by
    rw [← Files.wayAt?_directory_iff, ← hRemoved.ways p]
    exact Files.wayAt?_directory_iff.mpr hEntry'
  rw [names_of_place hDirectory' hEntry'] at hNames
  cases hNames
  rw [List.mem_mergeSort] at hMem
  obtain ⟨hBefore, hOther⟩ := Files.mem_scriptsIn_of_remove hRemove hRemoved hMem
  obtain ⟨b, hBytes, hProblems⟩ :=
    hClean _ (names_of_place hDirectory hEntry) n (List.mem_mergeSort.mpr hBefore)
  refine ⟨b, ?_, hProblems⟩
  rw [bytes_eq_ok] at hBytes ⊢
  refine (hRemoved.reads_iff h fun r' hScript => ?_).mpr hBytes
  rw [Site.scriptPlace_eq hDirectory hScript]
  exact hOther

end Registry

namespace Store

variable {s : Store} {n : ScriptName} {bytes : List UInt8}

-- ---------------------------------------------------------------------------
-- When an upload is saved
-- ---------------------------------------------------------------------------

/-- An answer says that the script was saved. -/
def Saved (answer : Except Fault Upload) : Prop := ∃ u, answer = .ok u ∧ u.savedTo ≠ none

theorem not_saved_error (f : Fault) : ¬ Saved (.error f) := by
  rintro ⟨u, hOk, -⟩
  cases hOk

theorem not_saved_refused (n : ScriptName) (v : Verdict) : ¬ Saved (.ok ⟨n, v, none⟩) := by
  rintro ⟨u, hOk, hSaved⟩
  cases hOk
  exact hSaved rfl

/-- No step of placing the file of a script fails: the host can do each of them, and neither the
draft nor the name of the script is taken by something that is no file. -/
structure Placeable (s : Store) (n : ScriptName) (bytes : List UInt8)
    (obstacle : PlacingStep → Option IoFault) : Prop where
  unhindered : ∀ step, (∀ i, step = .writeByte i → i < bytes.length) → obstacle step = none
  files : ∃ id opened files,
    s.files.openEmpty s.now (s.site.seen (s.site.uploadPath n)) = .ok (id, opened) ∧
      (opened.append s.now id bytes).rename (s.site.seen (s.site.uploadPath n))
        (s.site.seen (s.site.scriptPath n)) = .ok files

theorem writeBytes_eq_ok {id : FileId} {obstacle : PlacingStep → Option IoFault} {t : Store} :
    writeBytes id bytes obstacle s = (.ok (), t) ↔
      (∀ i < bytes.length, obstacle (.writeByte i) = none) ∧
        { s with files := s.files.append s.now id bytes } = t := by
  have hStops : (List.range bytes.length).findSome? (fun i =>
      (obstacle (.writeByte i)).map fun fault => (i, fault)) = none ↔
      ∀ i < bytes.length, obstacle (.writeByte i) = none := by
    simp [List.findSome?_eq_none_iff]
  rw [writeBytes, ← hStops]
  split
  · next hNone =>
    rw [Prod.mk.injEq]
    exact ⟨fun hDone => ⟨hNone, hDone.2⟩, fun hDone => ⟨rfl, hDone.2⟩⟩
  · next hSome =>
    refine iff_of_false (fun hFails => ?_) fun hDone => ?_
    · cases hFails
    · cases hSome.symm.trans hDone.1

theorem change_eq_ok {f : Store → Except IoFault Files} {obstacle : Option IoFault} {t : Store} :
    change f obstacle s = (.ok (), t) ↔
      obstacle = none ∧ ∃ files, f s = .ok files ∧ { s with files } = t := by
  cases obstacle with
  | some fault =>
    refine iff_of_false (fun hFails => ?_) fun hDone => ?_
    · cases hFails
    · cases hDone.1
  | none =>
    rw [change]
    split
    · next files hFiles =>
      rw [Prod.mk.injEq]
      constructor
      · exact fun hDone => ⟨rfl, files, hFiles, hDone.2⟩
      · rintro ⟨-, files', hFiles', hDone⟩
        cases hFiles.symm.trans hFiles'
        exact ⟨rfl, hDone⟩
    · next fault hFails =>
      refine iff_of_false (fun hDone => ?_) fun hDone => ?_
      · cases hDone
      · obtain ⟨-, files, hFiles, -⟩ := hDone
        cases hFails.symm.trans hFiles

theorem placeFile_eq_ok {draft target : String} {obstacle : PlacingStep → Option IoFault} {t : Store} :
    placeFile draft target bytes obstacle s = (.ok (), t) ↔
      obstacle .openDraft = none ∧ (∀ i < bytes.length, obstacle (.writeByte i) = none) ∧
        obstacle .rename = none ∧
        ∃ id opened files, s.files.openEmpty s.now (s.site.seen draft) = .ok (id, opened) ∧
          (opened.append s.now id bytes).rename (s.site.seen draft) (s.site.seen target) = .ok files ∧
          { s with files } = t := by
  rw [placeFile_apply]
  cases hOpening : obstacle .openDraft with
  | some fault =>
    refine iff_of_false (fun hFails => ?_) fun hDone => ?_
    · cases hFails
    · cases hDone.1
  | none =>
    simp only
    cases hOpen : s.files.openEmpty s.now (s.site.seen draft) with
    | error fault =>
      refine iff_of_false (fun hFails => ?_) ?_
      · cases hFails
      · rintro ⟨-, -, -, id, opened, files, hOk, -⟩
        cases hOk
    | ok opened =>
      obtain ⟨id, opened⟩ := opened
      simp only
      rw [Work.bind_eq_ok]
      constructor
      · rintro ⟨⟨⟩, u, hWrite, hRename⟩
        obtain ⟨hBytes, rfl⟩ := writeBytes_eq_ok.mp hWrite
        obtain ⟨hFree, files, hMoved, hLast⟩ := change_eq_ok.mp hRename
        exact ⟨trivial, hBytes, hFree, id, opened, files, rfl, hMoved, hLast⟩
      · rintro ⟨-, hBytes, hFree, id', opened', files, hOk, hMoved, hLast⟩
        cases hOk
        exact ⟨(), _, writeBytes_eq_ok.mpr ⟨hBytes, rfl⟩,
          change_eq_ok.mpr ⟨hFree, files, hMoved, hLast⟩⟩

theorem Placeable.placeFile_ok {obstacle : PlacingStep → Option IoFault}
    (h : s.Placeable n bytes obstacle) :
    ∃ t, placeFile (s.site.uploadPath n) (s.site.scriptPath n) bytes obstacle s = (.ok (), t) := by
  obtain ⟨id, opened, files, hOpen, hRename⟩ := h.files
  have hBytes : ∀ i < bytes.length, obstacle (.writeByte i) = none := by
    intro i hi
    refine h.unhindered _ fun j hj => ?_
    cases hj
    exact hi
  exact ⟨_, placeFile_eq_ok.mpr ⟨h.unhindered _ nofun, hBytes, h.unhindered _ nofun, id, opened, files,
    hOpen, hRename, rfl⟩⟩

/-- **When an upload is saved**: its name is that of a script, its bytes are a text, the verdict on
that is that it is valid, and no step failed. -/
theorem saveUpload_saved_iff (hThere : s.files.isDirectory (s.site.seen s.site.scriptsDir) = true)
    {fileName : String} (hName : parseName fileName = .ok n) (obstacle : PlacingStep → Option IoFault) :
    Saved (saveUpload fileName bytes obstacle s).1 ↔
      ∃ text known, decodeUtf8? bytes = some text ∧ s.registry.modules s.files = .ok known ∧
        (s.registry.rules.validate text n.text known).isValid = true ∧
        s.Placeable n bytes obstacle := by
  rw [saveUpload_eq hThere hName]
  cases decodeUtf8? bytes with
  | none =>
    refine iff_of_false (not_saved_error _) ?_
    rintro ⟨text, known, hText, -⟩
    cases hText
  | some text =>
    simp only
    cases hObstacle : obstacle .readNames with
    | some fault =>
      refine iff_of_false (not_saved_error _) ?_
      rintro ⟨text, known, -, -, -, hPlaceable⟩
      cases hObstacle.symm.trans (hPlaceable.unhindered .readNames (by simp))
    | none =>
      simp only [knownModules]
      cases s.registry.modules s.files with
      | error f =>
        refine iff_of_false (not_saved_error _) ?_
        rintro ⟨text, known, -, hKnown, -⟩
        cases hKnown
      | ok known =>
        simp only
        split
        · next hValid =>
          cases hMake : obstacle .makeDirectory with
          | some fault =>
            refine iff_of_false (not_saved_error _) ?_
            rintro ⟨text, known, -, -, -, hPlaceable⟩
            cases hMake.symm.trans (hPlaceable.unhindered .makeDirectory (by simp))
          | none =>
            simp only
            rcases hPlace : placeFile (s.site.uploadPath n) (s.site.scriptPath n) bytes obstacle s
              with ⟨f | ⟨⟩, t⟩
            · refine iff_of_false (not_saved_error f) ?_
              rintro ⟨-, -, -, -, -, hPlaceable⟩
              obtain ⟨t', hDone⟩ := hPlaceable.placeFile_ok
              cases hPlace.symm.trans hDone
            · refine iff_of_true ⟨_, rfl, by simp⟩ ⟨text, known, rfl, rfl, hValid, ?_⟩
              obtain ⟨hOpen, hBytes, hRename, id, opened, files, hFiles⟩ := placeFile_eq_ok.mp hPlace
              refine ⟨fun step hTaken => ?_, id, opened, files, hFiles.1, hFiles.2.1⟩
              cases step with
              | readNames => exact hObstacle
              | makeDirectory => exact hMake
              | openDraft => exact hOpen
              | writeByte i => exact hBytes i (hTaken i rfl)
              | rename => exact hRename
        · next hInvalid =>
          refine iff_of_false (not_saved_refused _ _) ?_
          rintro ⟨text', known', hText, hKnown, hValid, -⟩
          cases hText
          cases hKnown
          exact hInvalid hValid

-- ---------------------------------------------------------------------------
-- What an upload leaves behind
-- ---------------------------------------------------------------------------

/-- An upload that is not saved cannot be seen; one that is saved was found valid, and is what its
script holds. -/
theorem saveUpload_outcome (h : s.site.Settled s.files) (fileName : String) (bytes : List UInt8)
    (obstacle : PlacingStep → Option IoFault) :
    (¬ Saved (saveUpload fileName bytes obstacle s).1 ∧
        s.registry.SameScripts s.files (saveUpload fileName bytes obstacle s).2.files) ∨
      (Saved (saveUpload fileName bytes obstacle s).1 ∧ ∃ n, parseName fileName = .ok n ∧
        (s.registry.analyzeBytes n bytes).problems = [] ∧
        s.registry.Saves n bytes s.files (saveUpload fileName bytes obstacle s).2.files) := by
  cases hName : parseName fileName with
  | error f =>
    have hParsed : view (fun _ => parseName fileName) s = (.error f, s) := by rw [view, hName]
    rw [saveUpload, Work.bind_error hParsed]
    exact Or.inl ⟨not_saved_error f, .refl _ _⟩
  | ok n =>
    rcases saveUpload_apply h.there hName bytes obstacle with
      ⟨answer, hNothing, hUnsaved⟩ | ⟨hClean, verdict, hPlaced⟩
    · rw [hNothing]
      refine Or.inl ⟨?_, .refl _ _⟩
      rintro ⟨u, hOk, hSaved⟩
      exact hSaved (hUnsaved u hOk)
    · rw [hPlaced]
      rcases placeFile_cases (s.site.uploadPath n) (s.site.scriptPath n) bytes obstacle s with
        ⟨f, hDone⟩ | ⟨id, opened, hOpen, ⟨f, part, -, hDone⟩ | ⟨files, hRename, hDone⟩⟩
      · rw [hDone]
        exact Or.inl ⟨not_saved_error f, .refl _ _⟩
      · rw [hDone]
        exact Or.inl ⟨not_saved_error f, Registry.sameScripts_of_draft h hOpen part⟩
      · rw [hDone]
        exact Or.inr ⟨⟨_, rfl, by simp⟩, n, rfl, hClean, Registry.saves_of_rename h hOpen hRename⟩

-- ---------------------------------------------------------------------------
-- What uploads and deletions keep
-- ---------------------------------------------------------------------------

/-- The directory stays settled, and if all scripts that are listed are without problems they stay
so. -/
def KeepsClean (s t : Store) : Prop :=
  s.site.Settled s.files → t.registry.bare = s.registry.bare ∧ s.site.Settled t.files ∧
    (s.registry.Clean s.files → s.registry.Clean t.files)

theorem KeepsClean.refl (s : Store) : KeepsClean s s := fun h => ⟨rfl, h, id⟩

theorem KeepsClean.trans (s t u : Store) (h : KeepsClean s t) (h' : KeepsClean t u) :
    KeepsClean s u := by
  intro hSettled
  obtain ⟨hBare, hFirst, hClean⟩ := h hSettled
  have hSite : t.site = s.site := Registry.site_eq_of_bare hBare
  obtain ⟨hBare', hRest, hClean'⟩ := h' (hSite ▸ hFirst)
  refine ⟨hBare'.trans hBare, hSite ▸ hRest, fun hBegin => ?_⟩
  exact (hClean' ((hClean hBegin).of_bare hBare)).of_bare hBare.symm

theorem saveUpload_keepsClean (fileName : String) (bytes : List UInt8)
    (obstacle : PlacingStep → Option IoFault) :
    Work.Keeps KeepsClean (saveUpload fileName bytes obstacle) := by
  intro s h
  refine ⟨saveUpload_rules fileName bytes obstacle s, ?_, fun hClean => ?_⟩
  · cases hName : parseName fileName with
    | error f =>
      have hParsed : view (fun _ => parseName fileName) s = (.error f, s) := by rw [view, hName]
      rw [saveUpload, Work.bind_error hParsed]
      exact h
    | ok n => exact (saveUpload_written h hName obstacle bytes).1.settled
  · rcases saveUpload_outcome h fileName bytes obstacle with ⟨-, hSame⟩ | ⟨-, n, -, hValid, hSaves⟩
    · exact hClean.of_same hSame
    · exact hClean.of_saves hSaves hValid

/-- Removing what the service may remove. -/
theorem keepsClean_of_remove {s : Store} {path : String} (hOwns : s.site.Owns path) {files : Files}
    (hRemove : s.files.remove (s.site.seen path) = .ok files) :
    KeepsClean s { s with files } := by
  intro h
  have hNoLink : ∀ q t, s.files.place (s.site.seen path) false = .ok q →
      s.files.entryAt? q ≠ some (.link t) := fun _ _ => h.noLinks hOwns
  obtain ⟨q, -, hRemoved⟩ := Site.removed_of_remove hNoLink hRemove
  exact ⟨rfl, hRemoved.settled h, fun hClean => (hClean.of_removed h hNoLink hRemove).2⟩

theorem retireScript_keepsClean (n : ScriptName) : Work.Keeps KeepsClean (retireScript n) := by
  have hScript : Work.Keeps KeepsClean (removeScript n) := by
    intro s
    unfold removeScript
    split
    · next files hRemove => exact keepsClean_of_remove (.script n) hRemove
    · exact .refl s
  have hForget : Work.Keeps KeepsClean (forget n) := fun s h => ⟨rfl, h, id⟩
  have hLog : Work.Keeps KeepsClean (removeLog n) := by
    intro s
    unfold removeLog
    rw [Work.modify_apply]
    simp only
    split
    · next files hRemove => exact keepsClean_of_remove (.log n) hRemove
    · exact .refl s
  have hDesignation : Work.Keeps KeepsClean clearDesignation := by
    intro s
    unfold clearDesignation
    split
    · next files hRemove => exact keepsClean_of_remove .designation hRemove
    · exact .refl s
    · exact .refl s
  have hDelete : Work.Keeps KeepsClean (deleteScript n) :=
    .bind .trans hScript fun _ => .bind .trans hForget fun _ => hLog
  refine .bind .trans hDelete fun _ => .bind .trans ?_ fun _ => .pure .refl _
  unfold clearDesignationOf
  refine .bind .trans (fun s => .refl s) fun found => ?_
  split
  · exact .pure .refl _
  · exact .bind .trans hDesignation fun _ => .pure .refl _

end Store

-- ---------------------------------------------------------------------------
-- Courses of uploads and deletions
-- ---------------------------------------------------------------------------

namespace Deployment

/-- Take an upload on a host that may fail at any step. -/
def saveUploadUnder (obstacle : Store.PlacingStep → Option IoFault) (fileName : String)
    (bytes : List UInt8) : DeploymentWork Store.Upload := do
  let n ← view fun _ => parseName fileName
  whileNotStarting n (onStore (Store.saveUpload fileName bytes obstacle))

/-- On a host that does not fail it is the upload that the service takes. -/
theorem saveUploadUnder_none (fileName : String) (bytes : List UInt8) :
    saveUploadUnder (fun _ => none) fileName bytes = saveUpload fileName bytes := rfl

/-- What may not be done while a script is being checked is refused then, and nothing is changed. -/
theorem whileNotStarting_apply {α : Type} (n : ScriptName) (work : DeploymentWork α) (d : Deployment) :
    whileNotStarting n work d =
      if d.slots.slot? n = some .starting then (.error (.busy n.text), d) else work d := by
  split
  · next hStarting =>
    have hGuard : view (fun d => d.slots.guardNotStarting n) d = (.error (.busy n.text), d) := by
      rw [view, Slots.guardNotStarting, hStarting]
    exact Work.bind_error hGuard
  · next hFree =>
    have hGuard : view (fun d => d.slots.guardNotStarting n) d = (.ok (), d) := by
      rw [view, Slots.guardNotStarting]
      split
      · next hTaken => exact absurd hTaken hFree
      · rfl
    exact Work.bind_ok hGuard

/-- An upload is refused for its name or because a start is checking the script, or it is the
store's. -/
theorem saveUploadUnder_cases (obstacle : Store.PlacingStep → Option IoFault) (fileName : String)
    (bytes : List UInt8) (d : Deployment) :
    (∃ f, saveUploadUnder obstacle fileName bytes d = (.error f, d) ∧
        ∀ n, parseName fileName = .ok n → d.slots.slot? n = some .starting) ∨
      ∃ n, parseName fileName = .ok n ∧ d.slots.slot? n ≠ some .starting ∧
        saveUploadUnder obstacle fileName bytes d =
          onStore (Store.saveUpload fileName bytes obstacle) d := by
  cases hName : parseName fileName with
  | error f =>
    have hParsed : view (fun _ => parseName fileName) d = (.error f, d) := by rw [view, hName]
    exact Or.inl ⟨f, Work.bind_error hParsed, by simp⟩
  | ok n =>
    have hParsed : view (fun _ => parseName fileName) d = (.ok n, d) := by rw [view, hName]
    rw [saveUploadUnder, Work.bind_ok hParsed, whileNotStarting_apply]
    split
    · next hStarting =>
      refine Or.inl ⟨_, rfl, fun m hSame => ?_⟩
      cases hSame
      exact hStarting
    · next hFree => exact Or.inr ⟨n, rfl, hFree, rfl⟩

/-- What a course of uploads and deletions leads to, on a host that may fail at any step of an
upload. Between them time goes on, scripts start and end, and no file changes. -/
inductive UploadCourse (d₀ : Deployment) : Deployment → Prop
  | begin : UploadCourse d₀ d₀
  | upload {d : Deployment} (obstacle : Store.PlacingStep → Option IoFault) (fileName : String)
      (bytes : List UInt8) :
      UploadCourse d₀ d → UploadCourse d₀ (saveUploadUnder obstacle fileName bytes d).2
  | delete {d : Deployment} (n : ScriptName) :
      UploadCourse d₀ d → UploadCourse d₀ (deleteScript n d).2
  | meanwhile {d d' : Deployment} : UploadCourse d₀ d → d'.host.files = d.host.files →
      d'.service.registry.bare = d.service.registry.bare → UploadCourse d₀ d'

theorem onStore_keepsClean {α : Type} {work : StoreWork α} (h : Work.Keeps Store.KeepsClean work)
    (d : Deployment) : Store.KeepsClean d.store (onStore work d).2.store := h d.store

theorem uploadCourse_keepsClean {d₀ d : Deployment} (hCourse : UploadCourse d₀ d) :
    Store.KeepsClean d₀.store d.store := by
  induction hCourse with
  | begin => exact .refl _
  | @upload d obstacle fileName bytes _ ih =>
    rcases saveUploadUnder_cases obstacle fileName bytes d with ⟨f, hSame, -⟩ | ⟨n, -, -, hDone⟩
    · rw [hSame]
      exact ih
    · rw [hDone]
      exact ih.trans _ _ _ (onStore_keepsClean (Store.saveUpload_keepsClean fileName bytes obstacle) d)
  | @delete d n _ ih =>
    by_cases hFree : d.slots.slot? n = none
    · rw [deleteScript_free hFree]
      exact ih.trans _ _ _ (onStore_keepsClean (Store.retireScript_keepsClean n) d)
    · rw [deleteScript_busy hFree]
      exact ih
  | @meanwhile d d' _ hFiles hBare ih =>
    refine ih.trans _ _ _ fun hSettled => ⟨hBare, ?_, fun hClean => ?_⟩
    · show d.store.site.Settled d'.host.files
      rw [hFiles]
      exact hSettled
    · show d.service.registry.Clean d'.host.files
      rw [hFiles]
      exact hClean

end Deployment

open Deployment

/--
**Uploads are all or nothing.** Let uploads and deletions with any names and bytes follow one another
on a directory that is there and holds plain files, and let the host fail at any step of any upload.
Then at any time:

* if no script was listed at first, all that are listed can be read and are without problems;
* an upload that is not saved leaves the list and what every script holds as they were;
* an upload that is saved is what its script holds, and every other script is what it was;
* an upload is saved exactly when it has the name of a script that no start is checking, its bytes
  are a text that is found valid, and no step fails.
-/
theorem uploads_all_or_nothing {d₀ d : Deployment}
    (hSettled : d₀.service.registry.site.Settled d₀.host.files) (hCourse : UploadCourse d₀ d) :
    (d₀.service.registry.names d₀.host.files = .ok [] →
      d.service.registry.Clean d.host.files) ∧
    ∀ obstacle fileName bytes,
      (¬ Store.Saved (saveUploadUnder obstacle fileName bytes d).1 →
        d.service.registry.SameScripts d.host.files
          (saveUploadUnder obstacle fileName bytes d).2.host.files) ∧
      (Store.Saved (saveUploadUnder obstacle fileName bytes d).1 →
        ∃ n, parseName fileName = .ok n ∧ d.service.registry.Saves n bytes d.host.files
          (saveUploadUnder obstacle fileName bytes d).2.host.files) ∧
      (Store.Saved (saveUploadUnder obstacle fileName bytes d).1 ↔
        ∃ n text known, parseName fileName = .ok n ∧ d.slots.slot? n ≠ some .starting ∧
          decodeUtf8? bytes = some text ∧ d.service.registry.modules d.host.files = .ok known ∧
          (d.service.registry.rules.validate text n.text known).isValid = true ∧
          d.store.Placeable n bytes obstacle) := by
  obtain ⟨hBare, hKept, hClean⟩ := uploadCourse_keepsClean hCourse hSettled
  have hSite : d.store.site = d₀.store.site := Registry.site_eq_of_bare hBare
  have hHere : d.store.site.Settled d.store.files := hSite ▸ hKept
  constructor
  · intro hNone
    have hEmpty : d₀.service.registry.Clean d₀.host.files := by
      intro ns hNames n hMem
      cases hNone.symm.trans hNames
      cases hMem
    exact (hClean hEmpty).of_bare hBare
  · intro obstacle fileName bytes
    rcases saveUploadUnder_cases obstacle fileName bytes d with
      ⟨f, hRefused, hStarting⟩ | ⟨n, hName, hFree, hDone⟩
    · rw [hRefused]
      refine ⟨fun _ => .refl _ _, fun hSaved => absurd hSaved (Store.not_saved_error f), ?_⟩
      refine iff_of_false (Store.not_saved_error f) ?_
      rintro ⟨n, -, -, hName, hFree, -⟩
      exact hFree (hStarting n hName)
    · rw [hDone, onStore_answer, onStore_files]
      refine ⟨fun hNot => ?_, fun hSaved => ?_, ?_⟩
      · rcases Store.saveUpload_outcome hHere fileName bytes obstacle with ⟨-, hSame⟩ | ⟨hSaved, -⟩
        · exact hSame
        · exact absurd hSaved hNot
      · rcases Store.saveUpload_outcome hHere fileName bytes obstacle with
          ⟨hNot, -⟩ | ⟨-, m, hParsed, -, hSaves⟩
        · exact absurd hSaved hNot
        · exact ⟨m, hParsed, hSaves⟩
      · rw [Store.saveUpload_saved_iff hHere.there hName]
        constructor
        · rintro ⟨text, known, hText, hKnown, hValid, hPlaceable⟩
          exact ⟨n, text, known, hName, hFree, hText, hKnown, hValid, hPlaceable⟩
        · rintro ⟨m, text, known, hParsed, -, hText, hKnown, hValid, hPlaceable⟩
          cases hName.symm.trans hParsed
          exact ⟨text, known, hText, hKnown, hValid, hPlaceable⟩

/-- A host that cannot give the draft the name of its script. -/
def renameFails : Store.PlacingStep → Option IoFault
  | .rename => some .permissionDenied
  | _ => none

/-- In a new directory an upload that is no text, and one whose last step fails, are not saved, and
neither can be seen afterwards. -/
theorem failed_uploads_leave_nothing :
    ∃ d, UploadCourse emptyScene.deployment d ∧ d.service.registry.Clean d.host.files ∧
      ∀ bytes, ¬ Store.Saved (saveUploadUnder renameFails "a.py" bytes d).1 ∧
        d.service.registry.SameScripts d.host.files
          (saveUploadUnder renameFails "a.py" bytes d).2.host.files := by
  have hCourse : UploadCourse emptyScene.deployment _ :=
    .upload (fun _ => none) "a.py" [0xFF] (.delete default .begin)
  have hNone : emptyScene.deployment.service.registry.names emptyScene.deployment.host.files = .ok [] := by
    decide +kernel
  obtain ⟨hClean, hUploads⟩ := uploads_all_or_nothing emptyHost_settled hCourse
  refine ⟨_, hCourse, hClean hNone, fun bytes => ?_⟩
  obtain ⟨hUnsaved, -, hSaved⟩ := hUploads renameFails "a.py" bytes
  have hNot := mt hSaved.mp fun ⟨n, text, known, _, _, _, _, _, hPlaceable⟩ =>
    (nofun : renameFails .rename ≠ none) (hPlaceable.unhindered .rename nofun)
  exact ⟨hNot, hUnsaved hNot⟩

/-- A directory of one script, and of a link to it that was left at the place of a draft. -/
def linkedFiles : Files where
  entries := [(["scripts"], .directory), (["scripts", "b.py"], .file 0),
    (["scripts", ".a.py.upload"], .link "b.py")]
  bodies := [(0, { bytes := [0x0A], modified := default })]
  nextId := 1

/-- The service of that directory. -/
def linkedStore : Store where
  files := linkedFiles
  registry := Registry.ofConfig emptyConfig "/"
  now := default

/-- **A draft that is a link is written through.** Placing the file of one script is done, and it is
another that holds the bytes. -/
theorem linked_draft_overwrites :
    let b : ScriptName := ⟨"b.py", by decide⟩
    let placed := Store.placeFile (linkedStore.site.uploadPath default)
      (linkedStore.site.scriptPath default) [0x31] (fun _ => none) linkedStore
    linkedStore.registry.bytes linkedStore.files b = .ok [0x0A] ∧ placed.1 = .ok () ∧
      linkedStore.registry.bytes placed.2.files b = .ok [0x31] ∧
      linkedStore.registry.names placed.2.files = .ok [b] := by
  decide +kernel

end ScriptWarden
