import ScriptWarden.Proofs.Files.ScriptFiles
import ScriptWarden.Proofs.Rules

/-!
# Uploads and deletions

What uploads and deletions do to the scripts in a settled directory, also when they fail half-way. An
upload writes the file of one script at most, all of it or nothing, and only what was found valid; a
deletion takes away the file of one script at most. The directory stays settled.

## Results

* `saveUpload_written` — what an upload does.
* `retireScript_withdraws` — what a deletion does.
-/

namespace ScriptWarden

namespace Site

variable {site : Site} {fs fs' fs'' : Files} {n m : ScriptName} {bytes : List UInt8}

-- ---------------------------------------------------------------------------
-- Changes of one script
-- ---------------------------------------------------------------------------

/-- Files have changed to others, and only one script can tell. -/
structure Touches (site : Site) (n : ScriptName) (fs fs' : Files) : Prop where
  settled : site.Settled fs'
  others : ∀ {m : ScriptName} {b : List UInt8}, m ≠ n → (site.Reads fs' m b ↔ site.Reads fs m b)

theorem Touches.refl (h : site.Settled fs) : site.Touches n fs fs := ⟨h, fun _ => Iff.rfl⟩

theorem Touches.trans (h : site.Touches n fs fs') (h' : site.Touches n fs' fs'') :
    site.Touches n fs fs'' :=
  ⟨h'.settled, fun hName => (h'.others hName).trans (h.others hName)⟩

/-- A script has been replaced by bytes, or left alone. -/
structure Replaces (site : Site) (n : ScriptName) (bytes : List UInt8) (fs fs' : Files) : Prop
    extends site.Touches n fs fs' where
  own : (∀ b, site.Reads fs' n b ↔ site.Reads fs n b) ∨ ∀ b, site.Reads fs' n b ↔ b = bytes

/-- A script has been taken away, or left alone. -/
structure Withdraws (site : Site) (n : ScriptName) (fs fs' : Files) : Prop
    extends site.Touches n fs fs' where
  own : ∀ {b : List UInt8}, site.Reads fs' n b → site.Reads fs n b

theorem Replaces.refl (h : site.Settled fs) : site.Replaces n bytes fs fs :=
  ⟨.refl h, Or.inl fun _ => Iff.rfl⟩

theorem Withdraws.refl (h : site.Settled fs) : site.Withdraws n fs fs := ⟨.refl h, id⟩

theorem Withdraws.trans (h : site.Withdraws n fs fs') (h' : site.Withdraws n fs' fs'') :
    site.Withdraws n fs fs'' :=
  ⟨h.toTouches.trans h'.toTouches, fun hReads => h.own (h'.own hReads)⟩

theorem Drafted.replaces (h : site.Settled fs) {q : FilePlace} {id : FileId} {draft : List UInt8}
    (hDrafted : Drafted fs q id draft fs')
    (hPlace : fs.place (site.seen (site.uploadPath n)) false = .ok q) :
    site.Replaces n bytes fs fs' where
  settled := hDrafted.settled h
  others _ := hDrafted.reads_iff h hPlace
  own := Or.inl fun _ => hDrafted.reads_iff h hPlace

/-- A draft that gets the name of its script. -/
theorem Drafted.moved (h : site.Settled fs) {q : FilePlace} {id : FileId}
    (hDrafted : Drafted fs q id bytes fs')
    (hPlace : fs.place (site.seen (site.uploadPath n)) false = .ok q)
    (hRename : fs'.rename (site.seen (site.uploadPath n)) (site.seen (site.scriptPath n)) =
      .ok fs'') :
    site.Settled fs'' ∧ ∃ p, fs'.place (site.seen (site.scriptPath n)) false = .ok p ∧
      Moved fs' q p id fs'' := by
  have h' : site.Settled fs' := hDrafted.settled h
  have hSource : fs'.place (site.seen (site.uploadPath n)) false = .ok q :=
    (Files.place_ok_iff hDrafted.ways).mpr hPlace
  have hFile : fs'.entryAt? q = some (.file id) := (hDrafted.entry q).trans (if_pos rfl)
  have hApart : ∀ p, fs'.place (site.seen (site.scriptPath n)) false = .ok p → p ≠ q :=
    fun p hScript => ne_of_getLast? (scriptPlace_getLast? hScript) (uploadPlace_getLast? hSource)
      (n.text_ne_uploadName n)
  obtain ⟨p, hTarget, hMoved⟩ :=
    moved_of_rename hSource hFile (fun _ _ => h'.noLinks (.script n)) hApart hRename
  exact ⟨hMoved.settled h' hFile fun x => hDrafted.alone, p, hTarget, hMoved⟩

/-- A draft that gets the name of its script leaves the other scripts alone. -/
theorem Drafted.shows_of_rename (h : site.Settled fs) {q : FilePlace} {id : FileId}
    (hDrafted : Drafted fs q id bytes fs')
    (hPlace : fs.place (site.seen (site.uploadPath n)) false = .ok q)
    (hRename : fs'.rename (site.seen (site.uploadPath n)) (site.seen (site.scriptPath n)) =
      .ok fs'') (hName : m ≠ n) {body : FileBody} :
    site.Shows fs'' m body ↔ site.Shows fs m body := by
  obtain ⟨h'', p, hTarget, hMoved⟩ := hDrafted.moved h hPlace hRename
  have hSource := (Files.place_ok_iff hDrafted.ways).mpr hPlace
  exact (hMoved.shows_iff (hDrafted.settled h) h'' hSource hTarget hName).trans
    (hDrafted.shows_iff h hPlace)

/-- A draft that gets the name of its script replaces it. -/
theorem Drafted.replaces_of_rename (h : site.Settled fs) {q : FilePlace} {id : FileId}
    (hDrafted : Drafted fs q id bytes fs')
    (hPlace : fs.place (site.seen (site.uploadPath n)) false = .ok q)
    (hRename : fs'.rename (site.seen (site.uploadPath n)) (site.seen (site.scriptPath n)) =
      .ok fs'') : site.Replaces n bytes fs fs'' := by
  obtain ⟨h'', p, hTarget, hMoved⟩ := hDrafted.moved h hPlace hRename
  refine ⟨⟨h'', fun hName => ?_⟩, Or.inr fun b => ?_⟩
  · exact reads_congr_of_shows fun _ => hDrafted.shows_of_rename h hPlace hRename hName
  · rw [hMoved.reads_own h'' hTarget, hDrafted.bytes]
    exact eq_comm

/-- Removing the file of a script, or one that is no script's, takes away that script at most. -/
theorem Removed.withdraws (h : site.Settled fs) {q : FilePlace} (hRemoved : Removed fs q fs')
    (hOther : ∀ m p, m ≠ n → fs.place (site.seen (site.scriptPath m)) false = .ok p → p ≠ q) :
    site.Withdraws n fs fs' where
  settled := hRemoved.settled h
  others hName := hRemoved.reads_iff h fun p => hOther _ p hName
  own := hRemoved.reads h

end Site

namespace Store

variable {site : Site} {s : Store} {n : ScriptName} {bytes : List UInt8}

-- ---------------------------------------------------------------------------
-- Uploads
-- ---------------------------------------------------------------------------

/-- Placing the file of a script replaces it, or fails and leaves it alone. -/
theorem placeFile_replaces (hSite : s.site = site) (h : site.Settled s.files)
    (obstacle : PlacingStep → Option IoFault) :
    site.Replaces n bytes s.files
      (placeFile (site.uploadPath n) (site.scriptPath n) bytes obstacle s).2.files := by
  rcases placeFile_cases (site.uploadPath n) (site.scriptPath n) bytes obstacle s with
    ⟨f, hDone⟩ | ⟨id, opened, hOpen, hRest⟩
  · rw [hDone]
    exact .refl h
  · rw [hSite] at hOpen hRest
    obtain ⟨q, hPlace, hDrafted⟩ := Site.drafted_of_openEmpty h hOpen
    rcases hRest with ⟨f, part, -, hDone⟩ | ⟨files, hRename, hDone⟩
    · rw [hDone]
      exact (hDrafted.append s.now part).replaces h hPlace
    · rw [hDone]
      exact (hDrafted.append s.now bytes).replaces_of_rename h hPlace hRename

/-- An upload, step by step: up to the placing of the file nothing is changed. -/
theorem saveUpload_eq (hThere : s.files.isDirectory (s.site.seen s.site.scriptsDir) = true)
    {fileName : String} (hName : parseName fileName = .ok n) (bytes : List UInt8)
    (obstacle : PlacingStep → Option IoFault) :
    saveUpload fileName bytes obstacle s =
      match decodeUtf8? bytes with
      | none => (.error (.notUtf8 n.text), s)
      | some text =>
        match knownModules (obstacle .readNames) s with
        | .error f => (.error f, s)
        | .ok known =>
          if (s.registry.rules.validate text n.text known).isValid then
            match obstacle .makeDirectory with
            | some fault => (.error (.io fault), s)
            | none =>
              match placeFile (s.site.uploadPath n) (s.site.scriptPath n) bytes obstacle s with
              | (.error f, t) => (.error f, t)
              | (.ok _, t) =>
                (.ok ⟨n, s.registry.rules.validate text n.text known, some (s.site.scriptPath n)⟩,
                  { t with registry := t.registry.forget n })
          else (.ok ⟨n, s.registry.rules.validate text n.text known, none⟩, s) := by
  have hParsed : view (fun _ => parseName fileName) s = (.ok n, s) := by rw [view, hName]
  unfold saveUpload
  rw [Work.bind_ok hParsed]
  cases decodeUtf8? bytes with
  | none => rfl
  | some text =>
    cases hKnown : knownModules (obstacle .readNames) s with
    | error f =>
      have hFailed : view (knownModules (obstacle .readNames)) s = (.error f, s) := by
        rw [view, hKnown]
      simp only [Work.bind_error hFailed]
    | ok known =>
      have hFound : view (knownModules (obstacle .readNames)) s = (.ok known, s) := by
        rw [view, hKnown]
      simp only [Work.bind_ok hFound, Work.bind_ok (Work.get_apply s)]
      cases (s.registry.rules.validate text n.text known).isValid with
      | false => rfl
      | true =>
        simp only [Bool.not_true, Bool.false_eq_true, if_false, if_true]
        cases hObstacle : obstacle .makeDirectory with
        | some fault => exact Work.bind_error rfl
        | none =>
          have hMade : change (fun s' => s'.files.makeDirectories
              (s.registry.site.seen s.registry.site.scriptsDir)) none s = (.ok (), s) := by
            have hSelf : s.files.makeDirectories (s.registry.site.seen s.registry.site.scriptsDir) =
                .ok s.files := Files.makeDirectories_eq_self hThere
            simp only [change, hSelf]
          have hSite : s.site = s.registry.site := rfl
          rw [Work.bind_ok hMade, Work.bind_apply, hSite]
          rcases placeFile (s.registry.site.uploadPath n) (s.registry.site.scriptPath n) bytes
            obstacle s with ⟨e | _, t'⟩
          · rfl
          · rfl

/-- An upload changes nothing and saves nothing, or it places a file that was found valid; what is
remembered of the script is forgotten when that is done. -/
theorem saveUpload_apply (hThere : s.files.isDirectory (s.site.seen s.site.scriptsDir) = true)
    {fileName : String} (hName : parseName fileName = .ok n) (bytes : List UInt8)
    (obstacle : PlacingStep → Option IoFault) :
    (∃ answer, saveUpload fileName bytes obstacle s = (answer, s) ∧
        ∀ u, answer = .ok u → u.savedTo = none) ∨
      ((s.registry.analyzeBytes n bytes).problems = [] ∧ ∃ verdict,
        saveUpload fileName bytes obstacle s =
          match placeFile (s.site.uploadPath n) (s.site.scriptPath n) bytes obstacle s with
          | (.ok _, t) => (.ok ⟨n, verdict, some (s.site.scriptPath n)⟩,
              { t with registry := t.registry.forget n })
          | (.error f, t) => (.error f, t)) := by
  have hFails : ∀ f : Fault, ∀ u, (.error f : Except Fault Upload) = .ok u → u.savedTo = none := by
    intro f u hOk
    cases hOk
  rw [saveUpload_eq hThere hName]
  cases hText : decodeUtf8? bytes with
  | none => exact Or.inl ⟨_, rfl, hFails _⟩
  | some text =>
    simp only
    cases knownModules (obstacle .readNames) s with
    | error f => exact Or.inl ⟨_, rfl, hFails f⟩
    | ok known =>
      simp only
      split
      · next hValid =>
        cases obstacle .makeDirectory with
        | some fault => exact Or.inl ⟨_, rfl, hFails _⟩
        | none =>
          have hClean : (s.registry.analyzeBytes n bytes).problems = [] := by
            simpa [Rules.validate, Analysis.resolve, Registry.analyzeBytes, hText] using hValid
          refine Or.inr ⟨hClean, s.registry.rules.validate text n.text known, ?_⟩
          simp only
          rcases placeFile (s.site.uploadPath n) (s.site.scriptPath n) bytes obstacle s with ⟨e | _, t⟩
          · rfl
          · rfl
      · refine Or.inl ⟨_, rfl, fun u hOk => ?_⟩
        cases hOk
        rfl

/-- What an upload leaves behind. -/
theorem saveUpload_cases (hThere : s.files.isDirectory (s.site.seen s.site.scriptsDir) = true)
    {fileName : String} (hName : parseName fileName = .ok n)
    (obstacle : PlacingStep → Option IoFault) :
    (saveUpload fileName bytes obstacle s).2 = s ∨
      ((s.registry.analyzeBytes n bytes).problems = [] ∧
        (saveUpload fileName bytes obstacle s).2 =
          match placeFile (s.site.uploadPath n) (s.site.scriptPath n) bytes obstacle s with
          | (.ok _, t) => { t with registry := t.registry.forget n }
          | (.error _, t) => t) := by
  rcases saveUpload_apply hThere hName bytes obstacle with
    ⟨answer, hNothing, -⟩ | ⟨hClean, verdict, hDone⟩
  · exact Or.inl (by rw [hNothing])
  · refine Or.inr ⟨hClean, ?_⟩
    rw [hDone]
    rcases placeFile (s.site.uploadPath n) (s.site.scriptPath n) bytes obstacle s with ⟨e | _, t⟩
    · rfl
    · rfl

/-- An upload changes no file, or it places one that was found valid. -/
theorem saveUpload_files (h : s.site.Settled s.files) {fileName : String}
    (hName : parseName fileName = .ok n) (obstacle : PlacingStep → Option IoFault) :
    (saveUpload fileName bytes obstacle s).2.files = s.files ∨
      ((s.registry.analyzeBytes n bytes).problems = [] ∧
        (saveUpload fileName bytes obstacle s).2.files =
          (placeFile (s.site.uploadPath n) (s.site.scriptPath n) bytes obstacle s).2.files) := by
  rcases saveUpload_cases h.there hName obstacle with hSame | ⟨hClean, hPlaced⟩
  · exact Or.inl (by rw [hSame])
  · refine Or.inr ⟨hClean, ?_⟩
    rw [hPlaced]
    split
    · next hPlace => rw [hPlace]
    · next hPlace => rw [hPlace]

/-- What an upload makes of the files: it replaces its script by what was found valid, or leaves it
alone. -/
theorem saveUpload_written (h : s.site.Settled s.files) {fileName : String}
    (hName : parseName fileName = .ok n) (obstacle : PlacingStep → Option IoFault)
    (bytes : List UInt8) :
    s.site.Replaces n bytes s.files (saveUpload fileName bytes obstacle s).2.files ∧
      ((s.registry.analyzeBytes n bytes).problems = [] ∨
        ∀ b, s.site.Reads (saveUpload fileName bytes obstacle s).2.files n b ↔
          s.site.Reads s.files n b) := by
  rcases saveUpload_files h hName obstacle with hSame | ⟨hClean, hPlaced⟩
  · rw [hSame]
    exact ⟨.refl h, Or.inr fun _ => Iff.rfl⟩
  · rw [hPlaced]
    exact ⟨placeFile_replaces rfl h obstacle, Or.inl hClean⟩

-- ---------------------------------------------------------------------------
-- Deletions
-- ---------------------------------------------------------------------------

/-- What a deletion of a script may do to a store. -/
def WithdrawsOnly (n : ScriptName) (s s' : Store) : Prop :=
  s.site.Settled s.files → s'.site = s.site ∧ s.site.Withdraws n s.files s'.files

theorem WithdrawsOnly.refl (s : Store) : WithdrawsOnly n s s := fun h => ⟨rfl, .refl h⟩

theorem WithdrawsOnly.trans (s t u : Store) (h : WithdrawsOnly n s t) (h' : WithdrawsOnly n t u) :
    WithdrawsOnly n s u := by
  intro hSettled
  obtain ⟨hSite, hFirst⟩ := h hSettled
  have hThere : t.site.Settled t.files := hSite ▸ hFirst.settled
  obtain ⟨hSite', hRest⟩ := h' hThere
  exact ⟨hSite'.trans hSite, hFirst.trans (hSite ▸ hRest)⟩

theorem removeScript_withdraws (n : ScriptName) : Work.Keeps (WithdrawsOnly n) (removeScript n) := by
  intro s h
  unfold removeScript
  split
  · next files hRemove =>
    obtain ⟨q, hPlace, hRemoved⟩ := Site.removed_of_remove (fun _ _ => h.noLinks (.script n)) hRemove
    refine ⟨rfl, hRemoved.withdraws h fun m p hName hScript => ?_⟩
    exact Site.ne_of_getLast? (Site.scriptPlace_getLast? hScript) (Site.scriptPlace_getLast? hPlace)
      fun hText => hName (ScriptName.eq_of_text hText)
  · exact ⟨rfl, .refl h⟩

theorem removeLog_withdraws (n : ScriptName) : Work.Keeps (WithdrawsOnly n) (removeLog n) := by
  intro s h
  unfold removeLog
  rw [Work.modify_apply]
  simp only
  split
  · next files hRemove =>
    obtain ⟨q, hPlace, hRemoved⟩ := Site.removed_of_remove (fun _ _ => h.noLinks (.log n)) hRemove
    refine ⟨rfl, hRemoved.withdraws h fun m p _ hScript => ?_⟩
    exact Site.ne_of_getLast? (Site.scriptPlace_getLast? hScript) (Site.logPlace_getLast? hPlace)
      (m.text_ne_logName n)
  · exact ⟨rfl, .refl h⟩

theorem clearDesignation_withdraws (n : ScriptName) :
    Work.Keeps (WithdrawsOnly n) clearDesignation := by
  intro s h
  unfold clearDesignation
  split
  · next files hRemove =>
    obtain ⟨q, hPlace, hRemoved⟩ :=
      Site.removed_of_remove (fun _ _ => h.noLinks .designation) hRemove
    refine ⟨rfl, hRemoved.withdraws h ?_⟩
    rintro m p - hScript rfl
    exact h.apart hPlace hScript
  · exact ⟨rfl, .refl h⟩
  · exact ⟨rfl, .refl h⟩

theorem clearDesignationOf_withdraws (n : ScriptName) (name : String) :
    Work.Keeps (WithdrawsOnly n) (clearDesignationOf name) := by
  have hView : Work.Keeps (WithdrawsOnly n) (view designated) := .refl
  unfold clearDesignationOf
  refine .bind .trans hView fun found => ?_
  split
  · exact .pure .refl _
  · exact .bind .trans (clearDesignation_withdraws n) fun _ => .pure .refl _

/-- A deletion takes away its script, or leaves it alone. -/
theorem retireScript_withdraws (n : ScriptName) :
    Work.Keeps (WithdrawsOnly n) (retireScript n) := by
  have hForget : Work.Keeps (WithdrawsOnly n) (forget n) := fun s h => ⟨rfl, .refl h⟩
  have hDelete : Work.Keeps (WithdrawsOnly n) (deleteScript n) :=
    .bind .trans (removeScript_withdraws n) fun _ =>
      .bind .trans hForget fun _ => removeLog_withdraws n
  exact .bind .trans hDelete fun _ =>
    .bind .trans (clearDesignationOf_withdraws n n.text) fun _ => .pure .refl _

end Store

end ScriptWarden
