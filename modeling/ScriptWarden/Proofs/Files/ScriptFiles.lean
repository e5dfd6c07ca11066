import ScriptWarden.Proofs.Files.OwnPlaces

/-!
# The files of scripts

A scripts directory is settled when it is there and holds plain files: no link at what the service
writes or removes, no other name for a draft that was left behind, and the designation of the boot
script kept elsewhere. In a settled directory, writing a draft, giving it the name of a script and
removing a file touch the file of one script at most, and leave the directory settled.

## Results

* `Settled.shows_iff` — the file of a script, without following links.
* `Drafted`, `Moved`, `Removed` — the three changes, and what each does to every script.
-/

namespace ScriptWarden

namespace Site

variable {site : Site} {fs fs' : Files} {n m : ScriptName} {q : FilePlace} {id : FileId}
  {bytes : List UInt8}

-- ---------------------------------------------------------------------------
-- Settled directories
-- ---------------------------------------------------------------------------

/-- The paths that uploads and deletions write or remove. -/
inductive Owns (site : Site) : String → Prop
  | script (n : ScriptName) : site.Owns (site.scriptPath n)
  | upload (n : ScriptName) : site.Owns (site.uploadPath n)
  | log (n : ScriptName) : site.Owns (site.logPath n)
  | designation : site.Owns site.autobootFile

/-- The directory of the scripts is there and holds plain files. -/
structure Settled (site : Site) (fs : Files) : Prop where
  there : fs.isDirectory (site.seen site.scriptsDir) = true
  /-- What uploads and deletions write or remove is no link. -/
  noLinks : ∀ {path : String} {q : FilePlace} {t : String}, site.Owns path →
    fs.place (site.seen path) false = .ok q → fs.entryAt? q ≠ some (.link t)
  /-- A draft that was left behind has no other name. -/
  oneName : ∀ {n : ScriptName} {q q' : FilePlace} {id : FileId},
    fs.place (site.seen (site.uploadPath n)) false = .ok q → fs.entryAt? q = some (.file id) →
    fs.entryAt? q' = some (.file id) → q' = q
  /-- A new file gets an identity that no file has. -/
  fresh : ∀ {q : FilePlace} {id : FileId}, fs.entryAt? q = some (.file id) → id < fs.nextId
  /-- The designation is not kept in the file of a script. -/
  apart : ∀ {n : ScriptName} {q : FilePlace},
    fs.place (site.seen site.autobootFile) false = .ok q →
    fs.place (site.seen (site.scriptPath n)) false ≠ .ok q

/-- Directories and links stay, and every file is either an old one at its old place or the one of
an identity and a place. -/
structure Edit (fs fs' : Files) (q₀ : FilePlace) (id : FileId) : Prop where
  ways : Files.SameWays fs fs'
  files : ∀ q j, fs'.entryAt? q = some (.file j) →
    (q = q₀ ∧ j = id ∧ j < fs'.nextId) ∨ (j ≠ id ∧ fs.entryAt? q = some (.file j))
  next : fs.nextId ≤ fs'.nextId

/-- A file that has one name has one after an edit. -/
theorem Edit.oneName {q₀ : FilePlace} (h : Edit fs fs' q₀ id) {path : String}
    (hBefore : ∀ q q' j, fs.place path false = .ok q → fs.entryAt? q = some (.file j) →
      fs.entryAt? q' = some (.file j) → q' = q) {q q' : FilePlace} {j : FileId}
    (hPlace : fs'.place path false = .ok q) (hEntry : fs'.entryAt? q = some (.file j))
    (hEntry' : fs'.entryAt? q' = some (.file j)) : q' = q := by
  rcases h.files q j hEntry with ⟨rfl, rfl, -⟩ | ⟨hj, hOld⟩
  · rcases h.files q' j hEntry' with ⟨rfl, -, -⟩ | ⟨hj, -⟩
    · rfl
    · exact absurd rfl hj
  · rcases h.files q' j hEntry' with ⟨-, hj', -⟩ | ⟨-, hOld'⟩
    · exact absurd hj' hj
    · exact hBefore q q' j ((Files.place_ok_iff h.ways).mp hPlace) hOld hOld'

/-- What is no link is none after an edit. -/
theorem Edit.noLink {q₀ : FilePlace} (h : Edit fs fs' q₀ id) {path : String}
    (hBefore : ∀ q t, fs.place path false = .ok q → fs.entryAt? q ≠ some (.link t)) {q : FilePlace}
    {t : String} (hPlace : fs'.place path false = .ok q) : fs'.entryAt? q ≠ some (.link t) :=
  fun hLink => hBefore q t ((Files.place_ok_iff h.ways).mp hPlace) (h.ways.link_iff.mp hLink)

/-- A directory is there after an edit. -/
theorem Edit.isDirectory {q₀ : FilePlace} (h : Edit fs fs' q₀ id) {path : String}
    (hThere : fs.isDirectory path = true) : fs'.isDirectory path = true := by
  obtain ⟨q, e, hPlace, hWay⟩ := Files.isDirectory_iff.mp hThere
  exact Files.isDirectory_iff.mpr
    ⟨q, e, (Files.place_ok_iff h.ways).mpr hPlace, (h.ways q).trans hWay⟩

theorem Settled.edit (h : site.Settled fs) {q₀ : FilePlace} (hEdit : Edit fs fs' q₀ id) :
    site.Settled fs' where
  there := hEdit.isDirectory h.there
  noLinks hOwns := hEdit.noLink fun _ _ => h.noLinks hOwns
  oneName := hEdit.oneName fun _ _ _ => h.oneName
  fresh := by
    intro q j hEntry
    rcases hEdit.files q j hEntry with ⟨-, -, hBelow⟩ | ⟨-, hOld⟩
    · exact hBelow
    · exact Nat.lt_of_lt_of_le (h.fresh hOld) hEdit.next
  apart := by
    intro n q hPlace hPlace'
    exact h.apart ((Files.place_ok_iff hEdit.ways).mp hPlace)
      ((Files.place_ok_iff hEdit.ways).mp hPlace')

-- ---------------------------------------------------------------------------
-- What a script's file holds
-- ---------------------------------------------------------------------------

/-- The file of a script is there and holds bytes. -/
def Reads (site : Site) (fs : Files) (n : ScriptName) (bytes : List UInt8) : Prop :=
  fs.read (site.seen (site.scriptPath n)) = .ok bytes

/-- The file of a script is there, and this is what it holds and when that was written. -/
def Shows (site : Site) (fs : Files) (n : ScriptName) (body : FileBody) : Prop :=
  ∃ q id, fs.existing (site.seen (site.scriptPath n)) = .ok (q, .file id) ∧ fs.body id = body

variable {body : FileBody}

theorem reads_iff_shows : site.Reads fs n bytes ↔ ∃ body, site.Shows fs n body ∧ body.bytes = bytes := by
  rw [Reads, Files.read_eq_ok]
  constructor
  · rintro ⟨q, id, hPlace, hEntry, hBytes⟩
    exact ⟨fs.body id, ⟨q, id, Files.existing_eq_ok.mpr ⟨hPlace, hEntry⟩, rfl⟩, hBytes⟩
  · rintro ⟨_, ⟨q, id, hExisting, rfl⟩, hBytes⟩
    obtain ⟨hPlace, hEntry⟩ := Files.existing_eq_ok.mp hExisting
    exact ⟨q, id, hPlace, hEntry, hBytes⟩

theorem Shows.unique {body' : FileBody} (h : site.Shows fs n body) (h' : site.Shows fs n body') :
    body = body' := by
  obtain ⟨q, id, hExisting, rfl⟩ := h
  obtain ⟨q', id', hExisting', rfl⟩ := h'
  cases hExisting.symm.trans hExisting'
  rfl

/-- What reads of a script find is the same where its file is. -/
theorem reads_congr_of_shows (h : ∀ body, site.Shows fs' n body ↔ site.Shows fs n body) :
    site.Reads fs' n bytes ↔ site.Reads fs n bytes := by
  simp only [reads_iff_shows, h]

/-- The file of a script, without following links. -/
theorem Settled.shows_iff (h : site.Settled fs) :
    site.Shows fs n body ↔ ∃ q id, fs.place (site.seen (site.scriptPath n)) false = .ok q ∧
      fs.entryAt? q = some (.file id) ∧ fs.body id = body := by
  constructor
  · rintro ⟨q, id, hExisting, hBody⟩
    obtain ⟨hPlace, hEntry⟩ := Files.existing_eq_ok.mp hExisting
    obtain ⟨q', hPlace', hEnd⟩ := Files.place_noFollow hPlace
    rcases hEnd with rfl | ⟨t, hLink⟩
    · exact ⟨q', id, hPlace', hEntry, hBody⟩
    · exact absurd hLink (h.noLinks (.script n) hPlace')
  · rintro ⟨q, id, hPlace, hEntry, hBody⟩
    refine ⟨q, id, Files.existing_eq_ok.mpr ⟨Files.place_follow hPlace ?_, hEntry⟩, hBody⟩
    simp [hEntry]

/-- A script whose place and file are left alone has the file that it had. -/
theorem Settled.shows_congr (h : site.Settled fs) (h' : site.Settled fs')
    (hWays : Files.SameWays fs fs')
    (hEntry : ∀ q, fs.place (site.seen (site.scriptPath n)) false = .ok q →
      fs'.entryAt? q = fs.entryAt? q)
    (hBody : ∀ q id, fs.place (site.seen (site.scriptPath n)) false = .ok q →
      fs.entryAt? q = some (.file id) → fs'.body id = fs.body id) :
    site.Shows fs' n body ↔ site.Shows fs n body := by
  rw [h.shows_iff, h'.shows_iff]
  constructor
  · rintro ⟨q, id, hPlace, hFile, hShown⟩
    have hPlace' := (Files.place_ok_iff hWays).mp hPlace
    have hFile' := (hEntry q hPlace').symm.trans hFile
    exact ⟨q, id, hPlace', hFile', (hBody q id hPlace' hFile').symm.trans hShown⟩
  · rintro ⟨q, id, hPlace, hFile, hShown⟩
    exact ⟨q, id, (Files.place_ok_iff hWays).mpr hPlace, (hEntry q hPlace).trans hFile,
      (hBody q id hPlace hFile).trans hShown⟩

/-- Files that lie at places with different last names lie at different places. -/
theorem ne_of_getLast? {q q' : FilePlace} {x y : String} (hq : q.getLast? = some x)
    (hq' : q'.getLast? = some y) (hName : x ≠ y) : q ≠ q' := by
  rintro rfl
  exact hName (Option.some.inj (hq.symm.trans hq'))

/-- Where there is no directory is not the root. -/
theorem ne_root (fs : Files) {q : FilePlace} (h : fs.entryAt? q ≠ some .directory) : q ≠ [] := by
  rintro rfl
  exact h rfl

/-- Directories and links stay where every entry stays but some that are neither before nor
afterwards. -/
theorem sameWays_of_entries
    (h : ∀ q, fs'.entryAt? q = fs.entryAt? q ∨ (fs.wayAt? q = none ∧ fs'.wayAt? q = none)) :
    Files.SameWays fs fs' := by
  intro q
  rcases h q with hSame | ⟨hBefore, hAfter⟩
  · rw [Files.wayAt?, Files.wayAt?, hSame]
  · rw [hBefore, hAfter]

-- ---------------------------------------------------------------------------
-- Writing a draft
-- ---------------------------------------------------------------------------

/-- A draft has been written: its place holds a file of its own with the bytes. -/
structure Drafted (fs : Files) (q : FilePlace) (id : FileId) (bytes : List UInt8) (fs' : Files) :
    Prop where
  ways : Files.SameWays fs fs'
  entry : ∀ p, fs'.entryAt? p = if p = q then some (.file id) else fs.entryAt? p
  own : ∀ p, fs.entryAt? p = some (.file id) → p = q
  bodies : ∀ j, j ≠ id → fs'.body j = fs.body j
  bytes : (fs'.body id).bytes = bytes
  next : fs.nextId ≤ fs'.nextId
  below : id < fs'.nextId

/-- Opening a file for writing empties the one that is there, or makes a new one. -/
theorem openEmpty_of_fresh (hFresh : ∀ q id, fs.entryAt? q = some (.file id) → id < fs.nextId)
    {now : Timestamp} {path : String} (hOpen : fs.openEmpty now path = .ok (id, fs')) :
    ∃ q, fs.place path = .ok q ∧
      ((fs.entryAt? q = some (.file id) ∧
          fs' = fs.setBody id { bytes := [], modified := now }) ∨
        Drafted fs q id [] fs') := by
  rw [Files.openEmpty] at hOpen
  cases hPlace : fs.place path with
  | error f => simp [hPlace, bind, Except.bind] at hOpen
  | ok q =>
    refine ⟨q, rfl, ?_⟩
    simp only [hPlace, bind, Except.bind] at hOpen
    split at hOpen
    · next hEntry =>
      cases hOpen
      exact Or.inl ⟨hEntry, rfl⟩
    · cases hOpen
    · next hEntry =>
      cases hOpen
      have hRoot : q ≠ [] := ne_root fs (by simp [hEntry])
      have hEntries : ∀ p, (({ fs with nextId := fs.nextId + 1 }.setEntry q
          (.file fs.nextId)).setBody fs.nextId { bytes := [], modified := now }).entryAt? p =
          if p = q then some (.file fs.nextId) else fs.entryAt? p :=
        fun p => Files.entryAt?_setEntry { fs with nextId := fs.nextId + 1 } hRoot _ p
      right
      constructor
      · refine sameWays_of_entries fun p => ?_
        by_cases hp : p = q
        · refine Or.inr ⟨Files.wayAt?_eq_none_iff.mpr (Or.inl (hp ▸ hEntry)), ?_⟩
          exact Files.wayAt?_eq_none_iff.mpr
            (Or.inr ⟨fs.nextId, (hEntries p).trans (if_pos hp)⟩)
        · exact Or.inl ((hEntries p).trans (if_neg hp))
      · exact hEntries
      · intro p hFile
        exact absurd (hFresh p _ hFile) (Nat.lt_irrefl _)
      · intro j hj
        rw [Files.body_setBody, if_neg hj]
        rfl
      · rw [Files.body_setBody, if_pos rfl]
      · exact Nat.le_succ _
      · exact Nat.lt_succ_self _

theorem openEmpty_cases (h : site.Settled fs) {now : Timestamp} {path : String}
    (hOpen : fs.openEmpty now path = .ok (id, fs')) :
    ∃ q, fs.place path = .ok q ∧
      ((fs.entryAt? q = some (.file id) ∧
          fs' = fs.setBody id { bytes := [], modified := now }) ∨
        Drafted fs q id [] fs') :=
  openEmpty_of_fresh (fun _ _ => h.fresh) hOpen

/-- Opening a file that is no link, and has no other name when it is there, leaves an empty one. -/
theorem drafted_of_plain (h : site.Settled fs) {now : Timestamp} {path : String}
    (hNoLink : ∀ q t, fs.place path false = .ok q → fs.entryAt? q ≠ some (.link t))
    (hOneName : ∀ q q' j, fs.place path false = .ok q → fs.entryAt? q = some (.file j) →
      fs.entryAt? q' = some (.file j) → q' = q)
    (hOpen : fs.openEmpty now path = .ok (id, fs')) :
    ∃ q, fs.place path false = .ok q ∧ Drafted fs q id [] fs' := by
  obtain ⟨q, hPlace, hOpened⟩ := openEmpty_cases h hOpen
  obtain ⟨q', hPlace', hEnd⟩ := Files.place_noFollow hPlace
  obtain rfl : q' = q := by
    rcases hEnd with hSame | ⟨t, hLink⟩
    · exact hSame
    · exact absurd hLink (hNoLink q' t hPlace')
  refine ⟨q', hPlace', ?_⟩
  rcases hOpened with ⟨hEntry, rfl⟩ | hNew
  · -- a draft that was left behind is emptied
    constructor
    · exact fun _ => rfl
    · intro p
      by_cases hp : p = q'
      · rw [if_pos hp, hp]
        exact hEntry
      · rw [if_neg hp]
        rfl
    · exact fun p hFile => hOneName q' p id hPlace' hEntry hFile
    · intro j hj
      rw [Files.body_setBody, if_neg hj]
    · rw [Files.body_setBody, if_pos rfl]
    · exact Nat.le_refl _
    · exact h.fresh hEntry
  · exact hNew

/-- Opening a draft leaves an empty one. -/
theorem drafted_of_openEmpty (h : site.Settled fs) {now : Timestamp}
    (hOpen : fs.openEmpty now (site.seen (site.uploadPath n)) = .ok (id, fs')) :
    ∃ q, fs.place (site.seen (site.uploadPath n)) false = .ok q ∧ Drafted fs q id [] fs' :=
  drafted_of_plain h (fun _ _ => h.noLinks (.upload n)) (fun _ _ _ => h.oneName) hOpen

/-- Writing to a draft makes it longer. -/
theorem Drafted.append (hDrafted : Drafted fs q id bytes fs') (now : Timestamp)
    (more : List UInt8) : Drafted fs q id (bytes ++ more) (fs'.append now id more) where
  ways := hDrafted.ways
  entry := hDrafted.entry
  own := hDrafted.own
  bodies := by
    intro j hj
    rw [Files.append, Files.body_setBody, if_neg hj, hDrafted.bodies j hj]
  bytes := by
    rw [Files.append, Files.body_setBody, if_pos rfl, hDrafted.bytes]
  next := hDrafted.next
  below := hDrafted.below

/-- A draft has no other name. -/
theorem Drafted.alone (hDrafted : Drafted fs q id bytes fs') {p : FilePlace}
    (hFile : fs'.entryAt? p = some (.file id)) : p = q := by
  rw [hDrafted.entry] at hFile
  split at hFile
  · assumption
  · exact hDrafted.own p hFile

theorem Drafted.edit (hDrafted : Drafted fs q id bytes fs') : Edit fs fs' q id where
  ways := hDrafted.ways
  files := by
    intro p j hFile
    rw [hDrafted.entry] at hFile
    split at hFile
    · next hp =>
      cases hFile
      exact Or.inl ⟨hp, rfl, hDrafted.below⟩
    · next hp =>
      refine Or.inr ⟨?_, hFile⟩
      rintro rfl
      exact hp (hDrafted.own p hFile)
  next := hDrafted.next

theorem Drafted.settled (h : site.Settled fs) (hDrafted : Drafted fs q id bytes fs') :
    site.Settled fs' := h.edit hDrafted.edit

/-- Writing files, wherever they are, leaves the directory settled. -/
theorem Settled.write (h : site.Settled fs) {now : Timestamp} {path : String}
    (hWrite : fs.write now path bytes = .ok fs') : site.Settled fs' := by
  rw [Files.write] at hWrite
  cases hOpen : fs.openEmpty now path with
  | error f => simp [hOpen, bind, Except.bind] at hWrite
  | ok opened =>
    obtain ⟨id, fs₁⟩ := opened
    simp only [hOpen, bind, Except.bind] at hWrite
    cases hWrite
    obtain ⟨q, -, ⟨hEntry, rfl⟩ | hNew⟩ := openEmpty_cases h hOpen
    · -- every name stays, and no file has the identity of the next new one
      have hEdit : Edit fs ((fs.setBody id { bytes := [], modified := now }).append now id bytes) q
          fs.nextId := ⟨fun _ => rfl,
        fun p j hFile => Or.inr ⟨Nat.ne_of_lt (h.fresh hFile), hFile⟩, Nat.le_refl _⟩
      exact h.edit hEdit
    · exact (hNew.append now bytes).settled h

/-- A draft that lies apart from a script leaves it alone. -/
theorem Drafted.shows_of_apart (h : site.Settled fs) (hDrafted : Drafted fs q id bytes fs')
    (hApart : ∀ p, fs.place (site.seen (site.scriptPath m)) false = .ok p → p ≠ q)
    {body : FileBody} : site.Shows fs' m body ↔ site.Shows fs m body := by
  refine h.shows_congr (hDrafted.settled h) hDrafted.ways ?_ ?_
  · intro p hScript
    rw [hDrafted.entry, if_neg (hApart p hScript)]
  · intro p j hScript hFile
    apply hDrafted.bodies
    rintro rfl
    exact hApart p hScript (hDrafted.own p hFile)

/-- A draft of an upload leaves every script alone. -/
theorem Drafted.shows_iff (h : site.Settled fs) (hDrafted : Drafted fs q id bytes fs')
    (hPlace : fs.place (site.seen (site.uploadPath n)) false = .ok q) {body : FileBody} :
    site.Shows fs' m body ↔ site.Shows fs m body :=
  hDrafted.shows_of_apart h fun _ hScript =>
    ne_of_getLast? (scriptPlace_getLast? hScript) (uploadPlace_getLast? hPlace)
      (m.text_ne_uploadName n)

theorem Drafted.reads_iff (h : site.Settled fs) (hDrafted : Drafted fs q id bytes fs')
    (hPlace : fs.place (site.seen (site.uploadPath n)) false = .ok q) {b : List UInt8} :
    site.Reads fs' m b ↔ site.Reads fs m b :=
  reads_congr_of_shows fun _ => hDrafted.shows_iff h hPlace

-- ---------------------------------------------------------------------------
-- Giving a draft the name of its script
-- ---------------------------------------------------------------------------

/-- A file has been given another name, where another file may have been. -/
structure Moved (fs : Files) (p q : FilePlace) (id : FileId) (fs' : Files) : Prop where
  ways : Files.SameWays fs fs'
  entry : ∀ x, fs'.entryAt? x =
    if x = q then some (.file id) else if x = p then none else fs.entryAt? x
  body : ∀ j, fs'.body j = fs.body j
  next : fs'.nextId = fs.nextId

/-- A file that gets another name, where no directory and no link is, loses the one that it had. -/
theorem rename_file {source target : String} {p : FilePlace}
    (hSource : fs.place source false = .ok p) (hFile : fs.entryAt? p = some (.file id))
    (hNoLink : ∀ q t, fs.place target false = .ok q → fs.entryAt? q ≠ some (.link t))
    (hOther : ∀ q, fs.place target false = .ok q → q ≠ p)
    (hRename : fs.rename source target = .ok fs') :
    ∃ q, fs.place target false = .ok q ∧ fs.entryAt? q ≠ some .directory ∧
      (fs.clearEntry p).setEntry q (.file id) = fs' := by
  rw [Files.rename] at hRename
  cases hTarget : fs.place target false with
  | error f => simp [hSource, hTarget, bind, Except.bind] at hRename
  | ok q =>
    have hpq : p ≠ q := (hOther q hTarget).symm
    have hNotDirectory : fs.entryAt? q ≠ some .directory := by
      intro hDirectory
      simp [hSource, hTarget, hFile, hDirectory, bind, Except.bind] at hRename
    refine ⟨q, rfl, hNotDirectory, ?_⟩
    cases hEntry : fs.entryAt? q with
    | none => simpa [hSource, hTarget, hFile, hEntry, hpq, bind, Except.bind] using hRename
    | some e =>
      cases e with
      | directory => exact absurd hEntry hNotDirectory
      | file j => simpa [hSource, hTarget, hFile, hEntry, hpq, bind, Except.bind] using hRename
      | link t => exact absurd hEntry (hNoLink q t hTarget)

/-- A file that gets the name that it has stays as it is. -/
theorem rename_same {source target : String} {p : FilePlace}
    (hSource : fs.place source false = .ok p) (hTarget : fs.place target false = .ok p)
    (hFile : fs.entryAt? p = some (.file id)) : fs.rename source target = .ok fs := by
  simp [Files.rename, hSource, hTarget, hFile, bind, Except.bind]

theorem moved_of_rename {source target : String} {p : FilePlace}
    (hSource : fs.place source false = .ok p) (hFile : fs.entryAt? p = some (.file id))
    (hNoLink : ∀ q t, fs.place target false = .ok q → fs.entryAt? q ≠ some (.link t))
    (hOther : ∀ q, fs.place target false = .ok q → q ≠ p)
    (hRename : fs.rename source target = .ok fs') :
    ∃ q, fs.place target false = .ok q ∧ Moved fs p q id fs' := by
  obtain ⟨q, hTarget, hNotDirectory, hResult⟩ := rename_file hSource hFile hNoLink hOther hRename
  refine ⟨q, hTarget, ?_⟩
  have hEntries : ∀ x, fs'.entryAt? x =
      if x = q then some (.file id) else if x = p then none else fs.entryAt? x := by
    intro x
    rw [← hResult, Files.entryAt?_setEntry _ (ne_root fs hNotDirectory),
      Files.entryAt?_clearEntry _ (ne_root fs (by simp [hFile]))]
  constructor
  · refine sameWays_of_entries fun x => ?_
    by_cases hxq : x = q
    · refine Or.inr ⟨?_, Files.wayAt?_eq_none_iff.mpr
        (Or.inr ⟨id, (hEntries x).trans (if_pos hxq)⟩)⟩
      rw [hxq, Files.wayAt?_eq_none_iff]
      cases hEntry : fs.entryAt? q with
      | none => exact Or.inl rfl
      | some e =>
        cases e with
        | directory => exact absurd hEntry hNotDirectory
        | file j => exact Or.inr ⟨j, rfl⟩
        | link t => exact absurd hEntry (hNoLink q t hTarget)
    · by_cases hxp : x = p
      · refine Or.inr ⟨Files.wayAt?_eq_none_iff.mpr (Or.inr ⟨id, hxp ▸ hFile⟩), ?_⟩
        exact Files.wayAt?_eq_none_iff.mpr
          (Or.inl ((hEntries x).trans ((if_neg hxq).trans (if_pos hxp))))
      · exact Or.inl ((hEntries x).trans ((if_neg hxq).trans (if_neg hxp)))
  · exact hEntries
  · intro j
    rw [← hResult]
    rfl
  · rw [← hResult]
    rfl

theorem Moved.edit (h : site.Settled fs) {p : FilePlace} (hMoved : Moved fs p q id fs')
    (hFile : fs.entryAt? p = some (.file id))
    (hOwn : ∀ x, fs.entryAt? x = some (.file id) → x = p) : Edit fs fs' q id where
  ways := hMoved.ways
  files := by
    intro x j hEntry
    rw [hMoved.entry] at hEntry
    split at hEntry
    · next hx =>
      cases hEntry
      exact Or.inl ⟨hx, rfl, hMoved.next ▸ h.fresh hFile⟩
    · split at hEntry
      · cases hEntry
      · next hxp =>
        refine Or.inr ⟨?_, hEntry⟩
        rintro rfl
        exact hxp (hOwn x hEntry)
  next := Nat.le_of_eq hMoved.next.symm

theorem Moved.settled (h : site.Settled fs) {p : FilePlace} (hMoved : Moved fs p q id fs')
    (hFile : fs.entryAt? p = some (.file id))
    (hOwn : ∀ x, fs.entryAt? x = some (.file id) → x = p) : site.Settled fs' :=
  h.edit (hMoved.edit h hFile hOwn)

/-- A file that is moved, both ways apart from a script, leaves it alone. -/
theorem Moved.shows_of_apart (h : site.Settled fs) (h' : site.Settled fs') {p : FilePlace}
    (hMoved : Moved fs p q id fs')
    (hApart : ∀ x, fs.place (site.seen (site.scriptPath m)) false = .ok x → x ≠ p ∧ x ≠ q)
    {body : FileBody} : site.Shows fs' m body ↔ site.Shows fs m body := by
  refine h.shows_congr h' hMoved.ways ?_ fun x j _ _ => hMoved.body j
  intro x hScript
  obtain ⟨hNotSource, hNotTarget⟩ := hApart x hScript
  rw [hMoved.entry, if_neg hNotTarget, if_neg hNotSource]

/-- A file that gets the name of a script leaves the other scripts alone. -/
theorem Moved.shows_iff (h : site.Settled fs) (h' : site.Settled fs') {p : FilePlace}
    (hMoved : Moved fs p q id fs')
    (hSource : fs.place (site.seen (site.uploadPath n)) false = .ok p)
    (hTarget : fs.place (site.seen (site.scriptPath n)) false = .ok q) (hName : m ≠ n)
    {body : FileBody} : site.Shows fs' m body ↔ site.Shows fs m body :=
  hMoved.shows_of_apart h h' fun _ hScript =>
    ⟨ne_of_getLast? (scriptPlace_getLast? hScript) (uploadPlace_getLast? hSource)
        (m.text_ne_uploadName n),
      ne_of_getLast? (scriptPlace_getLast? hScript) (scriptPlace_getLast? hTarget)
        fun hText => hName (ScriptName.eq_of_text hText)⟩

/-- A script whose name a file got has that file. -/
theorem Moved.shows_own (h' : site.Settled fs') {p : FilePlace} (hMoved : Moved fs p q id fs')
    (hTarget : fs.place (site.seen (site.scriptPath n)) false = .ok q) :
    site.Shows fs' n (fs.body id) := by
  have hPlace : fs'.place (site.seen (site.scriptPath n)) false = .ok q :=
    (Files.place_ok_iff hMoved.ways).mpr hTarget
  have hEntry : fs'.entryAt? q = some (.file id) := (hMoved.entry q).trans (if_pos rfl)
  exact h'.shows_iff.mpr ⟨q, id, hPlace, hEntry, hMoved.body id⟩

/-- A script whose name a file got holds what the file held. -/
theorem Moved.reads_own (h' : site.Settled fs') {p : FilePlace} (hMoved : Moved fs p q id fs')
    (hTarget : fs.place (site.seen (site.scriptPath n)) false = .ok q) :
    site.Reads fs' n bytes ↔ (fs.body id).bytes = bytes := by
  have hShown := hMoved.shows_own h' hTarget
  rw [reads_iff_shows]
  constructor
  · rintro ⟨body, hShows, hBytes⟩
    rwa [hShown.unique hShows]
  · exact fun hBytes => ⟨_, hShown, hBytes⟩

-- ---------------------------------------------------------------------------
-- Removing a file
-- ---------------------------------------------------------------------------

/-- A file has been removed. -/
structure Removed (fs : Files) (q : FilePlace) (fs' : Files) : Prop where
  ways : Files.SameWays fs fs'
  entry : ∀ x, fs'.entryAt? x = if x = q then none else fs.entryAt? x
  body : ∀ j, fs'.body j = fs.body j
  next : fs'.nextId = fs.nextId

theorem removed_of_remove {path : String}
    (hNoLink : ∀ q t, fs.place path false = .ok q → fs.entryAt? q ≠ some (.link t))
    (hRemove : fs.remove path = .ok fs') :
    ∃ q, fs.place path false = .ok q ∧ Removed fs q fs' := by
  rw [Files.remove] at hRemove
  cases hPlace : fs.place path false with
  | error f => simp [hPlace, bind, Except.bind] at hRemove
  | ok q =>
    refine ⟨q, rfl, ?_⟩
    simp only [hPlace, bind, Except.bind] at hRemove
    cases hEntry : fs.entryAt? q with
    | none => simp [hEntry] at hRemove
    | some e =>
      cases e with
      | directory => simp [hEntry] at hRemove
      | link t => exact absurd hEntry (hNoLink q t hPlace)
      | file j =>
        obtain rfl : fs.clearEntry q = fs' := by simpa [hEntry] using hRemove
        have hRoot : q ≠ [] := ne_root fs (by simp [hEntry])
        have hEntries := Files.entryAt?_clearEntry fs hRoot
        constructor
        · refine sameWays_of_entries fun x => ?_
          by_cases hx : x = q
          · refine Or.inr ⟨Files.wayAt?_eq_none_iff.mpr (Or.inr ⟨j, hx ▸ hEntry⟩), ?_⟩
            exact Files.wayAt?_eq_none_iff.mpr (Or.inl ((hEntries x).trans (if_pos hx)))
          · exact Or.inl ((hEntries x).trans (if_neg hx))
        · exact hEntries
        · exact fun _ => rfl
        · rfl

theorem Removed.edit (h : site.Settled fs) (hRemoved : Removed fs q fs') :
    Edit fs fs' q fs.nextId where
  ways := hRemoved.ways
  files := by
    -- no file has the identity of the next new one
    intro x j hEntry
    rw [hRemoved.entry] at hEntry
    split at hEntry
    · cases hEntry
    · exact Or.inr ⟨Nat.ne_of_lt (h.fresh hEntry), hEntry⟩
  next := Nat.le_of_eq hRemoved.next.symm

theorem Removed.settled (h : site.Settled fs) (hRemoved : Removed fs q fs') :
    site.Settled fs' := h.edit (hRemoved.edit h)

/-- Removing the file at another place leaves a script alone. -/
theorem Removed.reads_iff (h : site.Settled fs) (hRemoved : Removed fs q fs')
    (hOther : ∀ p, fs.place (site.seen (site.scriptPath m)) false = .ok p → p ≠ q)
    {b : List UInt8} : site.Reads fs' m b ↔ site.Reads fs m b := by
  refine reads_congr_of_shows fun _ =>
    h.shows_congr (hRemoved.settled h) hRemoved.ways ?_ fun p j _ _ => hRemoved.body j
  intro p hScript
  rw [hRemoved.entry, if_neg (hOther p hScript)]

/-- Removing a file gives no script another one. -/
theorem Removed.shows (h : site.Settled fs) (hRemoved : Removed fs q fs') {body : FileBody}
    (hShows : site.Shows fs' m body) : site.Shows fs m body := by
  obtain ⟨p, j, hPlace, hFile, hBody⟩ := (hRemoved.settled h).shows_iff.mp hShows
  refine h.shows_iff.mpr ⟨p, j, (Files.place_ok_iff hRemoved.ways).mp hPlace, ?_,
    (hRemoved.body j).symm.trans hBody⟩
  rw [hRemoved.entry] at hFile
  split at hFile
  · cases hFile
  · exact hFile

theorem Removed.reads (h : site.Settled fs) (hRemoved : Removed fs q fs') {b : List UInt8}
    (hReads : site.Reads fs' m b) : site.Reads fs m b := by
  obtain ⟨body, hShows, hBytes⟩ := reads_iff_shows.mp hReads
  exact reads_iff_shows.mpr ⟨body, hRemoved.shows h hShows, hBytes⟩

end Site

end ScriptWarden
