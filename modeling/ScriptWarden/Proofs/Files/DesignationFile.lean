import ScriptWarden.Proofs.Files.ScriptChanges
import ScriptWarden.Proofs.Text.LossyReading

/-!
# The file of the designation

A designation is kept when its place can be reached and shares nothing with the files of scripts and
their logs, and neither the file nor its draft is a link. Then writing it, removing it and deleting
scripts do to what it names what they are meant to do, and nothing else does anything to it.

A designation is read without the blanks at its ends. The line end that was written after the name
is lost that way, and so are blanks that the name begins with.

## Results

* `trimBlanks_designation` — what is read where a name was written.
* `designated_iff` — what a designation names, by what is at its place.
* `designate_registers`, `clearDesignationOf_registers`, `retireScript_registers` — what is named
  after each change.
-/

namespace ScriptWarden

-- ---------------------------------------------------------------------------
-- Names that are written and read
-- ---------------------------------------------------------------------------

theorem decodeUtf8?_encodeUtf8 (text : String) : decodeUtf8? (encodeUtf8 text) = some text := by
  simp [decodeUtf8?, decodeLossy_encodeUtf8]

theorem mem_trimStart {c : Char} {l : List Char} (hMem : c ∈ l) (hBlank : isBlank c = false) :
    c ∈ trimStart l := by
  unfold trimStart
  induction l with
  | nil => exact hMem
  | cons d l ih =>
    rw [List.dropWhile_cons]
    split
    · next hd =>
      rcases List.mem_cons.mp hMem with rfl | hRest
      · rw [hBlank] at hd
        cases hd
      · exact ih hRest
    · exact hMem

/-- A line end after a text is trimmed with the rest. -/
theorem trimBlanks_append_newline (text : String) : trimBlanks (text ++ "\n") = trimBlanks text := by
  have hEnd : ("\n" : String).toList = ['\n'] := rfl
  have hBlank : isBlank '\n' = true := by decide
  unfold trimBlanks
  have hFront : trimStart (text.toList ++ ['\n']) =
      if (trimStart text.toList).isEmpty then [] else trimStart text.toList ++ ['\n'] := by
    unfold trimStart
    rw [List.dropWhile_append]
    simp [hBlank]
  rw [String.toList_append, hEnd, hFront]
  split
  · next hNothing =>
    rw [List.isEmpty_iff.mp hNothing]
  · simp [trimStart, hBlank]

namespace ScriptName

variable (n : ScriptName)

/-- How a designation of a script is read. -/
def designation : String := trimBlanks n.text

/-- Whether a script's name begins with a blank. -/
def beginsBlank : Bool := n.text.toList.head?.any isBlank

theorem text_endsInPy : ∃ stem, n.text.toList = stem ++ scriptSuffix := by
  have hAccepted := n.accepted
  rw [isScriptName, Bool.and_eq_true, hasScriptSuffix, Bool.and_eq_true, beq_iff_eq] at hAccepted
  exact ⟨_, ((List.take_append_drop _ _).symm.trans (congrArg _ hAccepted.2.2))⟩

theorem designation_ne_empty : n.designation ≠ "" := by
  obtain ⟨stem, hText⟩ := n.text_endsInPy
  have hMem : 'y' ∈ n.text.toList := by simp [hText, scriptSuffix]
  have hBlank : isBlank 'y' = false := by decide
  intro hEmpty
  have hKept : 'y' ∈ (trimStart (trimStart n.text.toList).reverse).reverse := by
    rw [List.mem_reverse]
    apply mem_trimStart _ hBlank
    rw [List.mem_reverse]
    exact mem_trimStart hMem hBlank
  have hNil := congrArg String.toList hEmpty
  rw [designation, trimBlanks, String.toList_ofList] at hNil
  rw [hNil] at hKept
  cases hKept

/-- A name that begins with no blank is read as it was written. -/
theorem designation_eq_text (h : n.beginsBlank = false) : n.designation = n.text := by
  obtain ⟨stem, hText⟩ := n.text_endsInPy
  have hFront : trimStart n.text.toList = n.text.toList := by
    unfold beginsBlank at h
    unfold trimStart
    cases hList : n.text.toList with
    | nil => rfl
    | cons c rest =>
      rw [hList] at h
      rw [List.dropWhile_cons, if_neg (by simpa using h)]
  have hBack : trimStart n.text.toList.reverse = n.text.toList.reverse := by
    rw [hText, List.reverse_append]
    simp [scriptSuffix, trimStart, show isBlank 'y' = false by decide]
  rw [designation, trimBlanks, hFront, hBack, List.reverse_reverse, String.ofList_toList]

/-- What is read where a designation was written. -/
theorem trimBlanks_designation : trimBlanks (n.text ++ "\n") = n.designation :=
  trimBlanks_append_newline n.text

end ScriptName

-- ---------------------------------------------------------------------------
-- The place of the designation
-- ---------------------------------------------------------------------------

namespace Site

variable {site : Site} {fs fs' : Files} {p q : FilePlace} {id : FileId} {r : Option String}

/-- The designation is kept in a file of its own, in a directory that is there. -/
structure DesignationKept (site : Site) (fs : Files) : Prop where
  settled : site.Settled fs
  reached : ∃ q, fs.place (site.seen site.autobootFile) false = .ok q
  there : ∀ {directory : String}, site.designationDir? = some directory →
    fs.isDirectory (site.seen directory) = true
  draftNoLink : ∀ {q : FilePlace} {t : String},
    fs.place (site.seen site.designationDraft) false = .ok q → fs.entryAt? q ≠ some (.link t)
  draftOneName : ∀ {q q' : FilePlace} {id : FileId},
    fs.place (site.seen site.designationDraft) false = .ok q → fs.entryAt? q = some (.file id) →
    fs.entryAt? q' = some (.file id) → q' = q
  apartLog : ∀ {n : ScriptName} {q : FilePlace},
    fs.place (site.seen site.autobootFile) false = .ok q →
    fs.place (site.seen (site.logPath n)) false ≠ .ok q

theorem DesignationKept.edit (h : site.DesignationKept fs) (hEdit : Edit fs fs' q id) :
    site.DesignationKept fs' where
  settled := h.settled.edit hEdit
  reached := by
    obtain ⟨q, hPlace⟩ := h.reached
    exact ⟨q, (Files.place_ok_iff hEdit.ways).mpr hPlace⟩
  there hDirectory := hEdit.isDirectory (h.there hDirectory)
  draftNoLink := hEdit.noLink fun _ _ => h.draftNoLink
  draftOneName := hEdit.oneName fun _ _ _ => h.draftOneName
  apartLog := by
    intro n q hPlace hPlace'
    exact h.apartLog ((Files.place_ok_iff hEdit.ways).mp hPlace)
      ((Files.place_ok_iff hEdit.ways).mp hPlace')

/-- What the designation names: a text of which something is left without blanks, or nothing. -/
def Names (site : Site) (fs : Files) (r : Option String) : Prop :=
  ∃ q, fs.place (site.seen site.autobootFile) false = .ok q ∧
    ((fs.entryAt? q = none ∧ r = none) ∨
      ∃ id text, fs.entryAt? q = some (.file id) ∧ decodeUtf8? (fs.body id).bytes = some text ∧
        r = if (trimBlanks text).isEmpty then none else some (trimBlanks text))

/-- A designation whose place and file are left alone names what it named. -/
theorem Names.congr (h : site.Names fs r) (hWays : Files.SameWays fs fs')
    (hEntry : ∀ q, fs.place (site.seen site.autobootFile) false = .ok q →
      fs'.entryAt? q = fs.entryAt? q)
    (hBody : ∀ q id, fs.place (site.seen site.autobootFile) false = .ok q →
      fs.entryAt? q = some (.file id) → fs'.body id = fs.body id) : site.Names fs' r := by
  obtain ⟨q, hPlace, hNames⟩ := h
  refine ⟨q, (Files.place_ok_iff hWays).mpr hPlace, ?_⟩
  rcases hNames with ⟨hNone, hr⟩ | ⟨id, text, hFile, hText, hr⟩
  · exact Or.inl ⟨(hEntry q hPlace).trans hNone, hr⟩
  · refine Or.inr ⟨id, text, (hEntry q hPlace).trans hFile, ?_, hr⟩
    rw [hBody q id hPlace hFile]
    exact hText

/-- Removing something else leaves a designation alone. -/
theorem Names.removed (h : site.Names fs r) (hRemoved : Removed fs p fs')
    (hOther : fs.place (site.seen site.autobootFile) false ≠ .ok p) : site.Names fs' r := by
  refine h.congr hRemoved.ways (fun q hPlace => ?_) fun _ _ _ _ => hRemoved.body _
  have hApart : q ≠ p := by
    rintro rfl
    exact hOther hPlace
  rw [hRemoved.entry, if_neg hApart]

/-- A draft elsewhere leaves a designation alone. -/
theorem Names.drafted (h : site.Names fs r) {bytes : List UInt8}
    (hDrafted : Drafted fs p id bytes fs')
    (hOther : fs.place (site.seen site.autobootFile) false ≠ .ok p) : site.Names fs' r := by
  have hApart : ∀ q, fs.place (site.seen site.autobootFile) false = .ok q → q ≠ p := by
    rintro q hPlace rfl
    exact hOther hPlace
  refine h.congr hDrafted.ways (fun q hPlace => ?_) fun q j hPlace hFile => ?_
  · rw [hDrafted.entry, if_neg (hApart q hPlace)]
  · apply hDrafted.bodies
    rintro rfl
    exact hApart q hPlace (hDrafted.own q hFile)

end Site

-- ---------------------------------------------------------------------------
-- Changes of the designation
-- ---------------------------------------------------------------------------

namespace Store

variable {s t : Store} {r : Option String} {n : ScriptName}

/-- What a designation names, by what is at its place. -/
theorem designated_iff (h : s.site.DesignationKept s.files) :
    s.designated = .ok r ↔ s.site.Names s.files r := by
  obtain ⟨q, hPlace⟩ := h.reached
  have hFollow : s.files.place (s.site.seen s.site.autobootFile) = .ok q :=
    Files.place_follow hPlace fun t => h.settled.noLinks .designation hPlace
  have hOnly : s.site.Names s.files r ↔ ((s.files.entryAt? q = none ∧ r = none) ∨
      ∃ id text, s.files.entryAt? q = some (.file id) ∧
        decodeUtf8? (s.files.body id).bytes = some text ∧
        r = if (trimBlanks text).isEmpty then none else some (trimBlanks text)) := by
    constructor
    · rintro ⟨q', hPlace', hNames⟩
      cases hPlace.symm.trans hPlace'
      exact hNames
    · exact fun hNames => ⟨q, hPlace, hNames⟩
  rw [hOnly]
  cases hEntry : s.files.entryAt? q with
  | none =>
    have hRead : s.designated = .ok none := by
      simp [designated, Files.readText, Files.read, Files.existing, hFollow, hEntry, bind, Except.bind]
    simp [hRead, @eq_comm _ r]
  | some e =>
    cases e with
    | directory =>
      simp [designated, Files.readText, Files.read, Files.existing, hFollow, hEntry, bind, Except.bind]
    | link t => exact absurd hEntry (h.settled.noLinks .designation hPlace)
    | file id =>
      cases hText : decodeUtf8? (s.files.body id).bytes with
      | none =>
        simp [designated, Files.readText, Files.read, Files.existing, hFollow, hEntry, hText, bind,
          Except.bind]
      | some text =>
        have hRead : s.designated =
            .ok (if (trimBlanks text).isEmpty then none else some (trimBlanks text)) := by
          simp [designated, Files.readText, Files.read, Files.existing, hFollow, hEntry, hText, bind,
            Except.bind]
        simp [hRead, hText, @eq_comm _ r]

/-- A designation is kept and names this, if anything. -/
structure Registers (s : Store) (r : Option String) : Prop where
  kept : s.site.DesignationKept s.files
  names : s.site.Names s.files r

theorem Registers.designated (h : s.Registers r) : s.designated = .ok r :=
  (designated_iff h.kept).mpr h.names

/-- What a store registers does not depend on what it remembers, nor on the time. -/
theorem Registers.of_files {s' : Store} (h : s.Registers r) (hSite : s'.site = s.site)
    (hFiles : s'.files = s.files) : s'.Registers r := by
  constructor
  · rw [hSite, hFiles]
    exact h.kept
  · rw [hSite, hFiles]
    exact h.names

/-- What work on a store came to: it was done and this is registered afterwards, or it failed and
what was registered still is. -/
structure Leads (s : Store) (before after : Option String) {α : Type}
    (outcome : Except Fault α × Store) : Prop where
  site : outcome.2.site = s.site
  registers : outcome.2.Registers (if outcome.1.isOk then after else before)

/-- The directory of a designation that is kept need not be made. -/
theorem writeDesignation_apply (h : s.site.DesignationKept s.files) (n : ScriptName) :
    writeDesignation n s =
      placeFile s.site.designationDraft s.site.autobootFile (designationBytes n) (fun _ => none) s := by
  unfold writeDesignation
  rw [Work.bind_ok (Work.get_apply s)]
  cases hDirectory : s.site.designationDir? with
  | none => rfl
  | some directory =>
    have hMade : change (fun t => t.files.makeDirectories (s.site.seen directory)) none s =
        (.ok (), s) := by
      simp [change, Files.makeDirectories_eq_self (h.there hDirectory)]
    simp only
    rw [Work.bind_ok hMade]

/-- A file that holds what is written for a script names the script. -/
theorem names_of_written {site : Site} {fs : Files} {q : FilePlace} {id : FileId}
    (hPlace : fs.place (site.seen site.autobootFile) false = .ok q)
    (hEntry : fs.entryAt? q = some (.file id)) (hBytes : (fs.body id).bytes = designationBytes n) :
    site.Names fs (some n.designation) := by
  refine ⟨q, hPlace, Or.inr ⟨id, n.text ++ "\n", hEntry, ?_, ?_⟩⟩
  · rw [hBytes, designationBytes, decodeUtf8?_encodeUtf8]
  · rw [n.trimBlanks_designation, if_neg]
    simpa [String.isEmpty_iff] using n.designation_ne_empty

/-- Writing a designation is done, or fails and leaves what was designated. -/
theorem writeDesignation_registers (h : s.Registers r) (n : ScriptName) :
    s.Leads r (some n.designation) (writeDesignation n s) := by
  rw [writeDesignation_apply h.kept, placeFile_unhindered]
  cases hOpen : s.files.openEmpty s.now (s.site.seen s.site.designationDraft) with
  | error f => exact ⟨rfl, h⟩
  | ok opened =>
    obtain ⟨id, opened⟩ := opened
    obtain ⟨p, hDraft, hOpened⟩ := Site.drafted_of_plain h.kept.settled
      (fun _ _ => h.kept.draftNoLink) (fun _ _ _ => h.kept.draftOneName) hOpen
    have hWritten := hOpened.append s.now (designationBytes n)
    have hKept := h.kept.edit hWritten.edit
    have hFile : (opened.append s.now id (designationBytes n)).entryAt? p = some (.file id) :=
      (hWritten.entry p).trans (if_pos rfl)
    have hSource := (Files.place_ok_iff hWritten.ways).mpr hDraft
    simp only
    by_cases hSame : s.files.place (s.site.seen s.site.autobootFile) false = .ok p
    · -- the draft is the file of the designation itself
      have hTarget := (Files.place_ok_iff hWritten.ways).mpr hSame
      rw [Site.rename_same hSource hTarget hFile]
      exact ⟨rfl, hKept, names_of_written hTarget hFile hWritten.bytes⟩
    · cases hRename : (opened.append s.now id (designationBytes n)).rename
        (s.site.seen s.site.designationDraft) (s.site.seen s.site.autobootFile) with
      | error f => exact ⟨rfl, hKept, h.names.drafted hWritten hSame⟩
      | ok files =>
        have hOther : ∀ q, (opened.append s.now id (designationBytes n)).place
            (s.site.seen s.site.autobootFile) false = .ok q → q ≠ p := by
          rintro q hPlace rfl
          exact hSame ((Files.place_ok_iff hWritten.ways).mp hPlace)
        obtain ⟨q, hTarget, hMoved⟩ := Site.moved_of_rename hSource hFile
          (fun _ _ => hKept.settled.noLinks .designation) hOther hRename
        have hOwn : ∀ x, (opened.append s.now id (designationBytes n)).entryAt? x =
            some (.file id) → x = p := fun x hEntry => hKept.draftOneName hSource hFile hEntry
        refine ⟨rfl, hKept.edit (hMoved.edit hKept.settled hFile hOwn), ?_⟩
        refine names_of_written ((Files.place_ok_iff hMoved.ways).mpr hTarget)
          ((hMoved.entry q).trans (if_pos rfl)) ?_
        rw [hMoved.body]
        exact hWritten.bytes

theorem designate_registers (h : s.Registers r) (n : ScriptName) :
    s.Leads r (some n.designation) (designate n s) := by
  unfold designate
  have hLook : view (fun t => .ok (t.registry.hasFile t.files n)) s =
      (.ok (s.registry.hasFile s.files n), s) := rfl
  rw [Work.bind_ok hLook]
  cases s.registry.hasFile s.files n with
  | false => exact ⟨rfl, h⟩
  | true => exact writeDesignation_registers h n

/-- Removing what is designated is done, also where nothing is. -/
theorem clearDesignation_registers (h : s.Registers r) :
    (clearDesignation s).1 = .ok () ∧ s.Leads r none (clearDesignation s) := by
  obtain ⟨q, hPlace, hNames⟩ := h.names
  unfold clearDesignation
  rcases hNames with ⟨hNone, rfl⟩ | ⟨id, text, hFile, -, -⟩
  · have hNothing : s.files.remove (s.site.seen s.site.autobootFile) = .error .notFound := by
      simp [Files.remove, hPlace, hNone, bind, Except.bind]
    rw [hNothing]
    exact ⟨rfl, rfl, h⟩
  · have hRemove : s.files.remove (s.site.seen s.site.autobootFile) =
        .ok (s.files.clearEntry q) := by
      simp [Files.remove, hPlace, hFile, bind, Except.bind]
    obtain ⟨q', hPlace', hRemoved⟩ :=
      Site.removed_of_remove (fun _ _ => h.kept.settled.noLinks .designation) hRemove
    rw [hRemove]
    refine ⟨rfl, rfl, h.kept.edit (hRemoved.edit h.kept.settled), ?_⟩
    exact ⟨q', (Files.place_ok_iff hRemoved.ways).mpr hPlace',
      Or.inl ⟨(hRemoved.entry q').trans (if_pos rfl), rfl⟩⟩

/-- Removing the designation of a name is done, and tells whether it was that name's. -/
theorem clearDesignationOf_registers (h : s.Registers r) (name : String) :
    (clearDesignationOf name s).1 = .ok (r == some name) ∧
      s.Leads r (if r = some name then none else r) (clearDesignationOf name s) := by
  have hLook : view designated s = (.ok r, s) := by rw [view, h.designated]
  unfold clearDesignationOf
  rw [Work.bind_ok hLook]
  by_cases hName : r = some name
  · obtain ⟨hDone, hCleared⟩ := clearDesignation_registers h
    rcases hRun : clearDesignation s with ⟨answer, t⟩
    rw [hRun] at hDone hCleared
    obtain rfl : answer = .ok () := hDone
    rw [if_neg (by simp [hName]), if_pos hName, Work.bind_ok hRun]
    have hOwn : (r == some name) = true := by simpa using hName
    rw [hOwn]
    exact ⟨rfl, hCleared.site, hCleared.registers⟩
  · rw [if_pos (by simpa using hName), if_neg hName]
    have hOther : (r == some name) = false := by simpa using hName
    rw [hOther]
    exact ⟨rfl, rfl, h⟩

theorem Leads.discard {α : Type} {work : StoreWork α} {after : Option String}
    (h : s.Leads r after (work s)) : s.Leads r after ((discard work : StoreWork Unit) s) := by
  rw [Work.discard_apply]
  rcases hRun : work s with ⟨_ | _, t⟩ <;> rw [hRun] at h <;> exact ⟨h.site, h.registers⟩

/-- A look at the designation afterwards finds it. -/
theorem Leads.look {α : Type} {work : StoreWork α} {after : Option String}
    (h : s.Leads r after (work s)) :
    s.Leads r after ((work >>= fun _ => view Store.designated) s) := by
  rcases hRun : work s with ⟨f | a, t⟩
  · rw [hRun] at h
    rw [Work.bind_error hRun]
    exact ⟨h.site, h.registers⟩
  · rw [hRun] at h
    have hFound : t.designated = .ok after := Registers.designated h.registers
    rw [Work.bind_ok hRun, view, hFound]
    exact ⟨h.site, h.registers⟩

/-- Choosing the boot script, or letting it be chosen no longer. -/
theorem setAutoboot_registers (h : s.Registers r) (n : ScriptName) (enabled : Bool) :
    s.Leads r (if enabled then some n.designation else if r = some n.text then none else r)
      (setAutoboot n enabled s) := by
  unfold setAutoboot
  cases enabled with
  | true => exact (designate_registers h n).look
  | false => exact (clearDesignationOf_registers h n.text).2.discard.look

-- ---------------------------------------------------------------------------
-- Deletions
-- ---------------------------------------------------------------------------

/-- Work that leaves what is registered. -/
def LeavesRegister (s t : Store) : Prop := ∀ r, s.Registers r → t.site = s.site ∧ t.Registers r

theorem LeavesRegister.refl (s : Store) : LeavesRegister s s := fun _ h => ⟨rfl, h⟩

theorem LeavesRegister.trans (s t u : Store) (h : LeavesRegister s t) (h' : LeavesRegister t u) :
    LeavesRegister s u := by
  intro r hRegisters
  obtain ⟨hSite, hThen⟩ := h r hRegisters
  obtain ⟨hSite', hLast⟩ := h' r hThen
  exact ⟨hSite'.trans hSite, hLast⟩

/-- Removing a file that is not the designation leaves what is registered. -/
theorem leaves_of_remove {files : Files} {path : String}
    (hOwns : s.site.Owns path)
    (hApart : s.site.DesignationKept s.files → ∀ q,
      s.files.place (s.site.seen s.site.autobootFile) false = .ok q →
      s.files.place (s.site.seen path) false ≠ .ok q)
    (hRemove : s.files.remove (s.site.seen path) = .ok files) :
    LeavesRegister s { s with files } := by
  intro r h
  obtain ⟨q, hPlace, hRemoved⟩ :=
    Site.removed_of_remove (fun _ _ => h.kept.settled.noLinks hOwns) hRemove
  exact ⟨rfl, h.kept.edit (hRemoved.edit h.kept.settled),
    h.names.removed hRemoved fun hSame => hApart h.kept q hSame hPlace⟩

theorem removeScript_leaves (n : ScriptName) : Work.Keeps LeavesRegister (removeScript n) := by
  intro s
  unfold removeScript
  split
  · next files hRemove =>
    exact leaves_of_remove (.script n) (fun hKept _ hPlace => hKept.settled.apart hPlace) hRemove
  · exact .refl s

theorem removeLog_leaves (n : ScriptName) : Work.Keeps LeavesRegister (removeLog n) := by
  intro s
  unfold removeLog
  rw [Work.modify_apply]
  simp only
  split
  · next files hRemove =>
    exact leaves_of_remove (.log n) (fun hKept _ hPlace => hKept.apartLog hPlace) hRemove
  · exact .refl s

theorem deleteScript_leaves (n : ScriptName) : Work.Keeps LeavesRegister (deleteScript n) := by
  have hForget : Work.Keeps LeavesRegister (forget n) :=
    fun s r h => ⟨rfl, h.of_files rfl rfl⟩
  exact .bind .trans (removeScript_leaves n) fun _ =>
    .bind .trans hForget fun _ => removeLog_leaves n

/-- Removing a script lets it be designated no longer. -/
theorem retireScript_registers (h : s.Registers r) (n : ScriptName) :
    s.Leads r (if r = some n.text then none else r) (retireScript n s) := by
  unfold retireScript
  have hDeleted := deleteScript_leaves n s r h
  rcases hRun : deleteScript n s with ⟨f | a, t⟩
  · rw [hRun] at hDeleted
    rw [Work.bind_error hRun]
    exact ⟨hDeleted.1, hDeleted.2⟩
  · rw [hRun] at hDeleted
    rw [Work.bind_ok hRun]
    obtain ⟨hSite, hRegisters⟩ := (clearDesignationOf_registers hDeleted.2 n.text).2.discard
    exact ⟨hSite.trans hDeleted.1, hRegisters⟩

end Store

end ScriptWarden
