import ScriptWarden.Proofs.Files.ScriptChanges
import ScriptWarden.Proofs.Remembering
import ScriptWarden.Proofs.Runs.ValidatedFiles

/-!
# Verdicts do not show what is remembered

Scripts are uploaded and deleted, readers ask for verdicts, records and lists, and others write and
remove files as they like. Through all of this a registry that began without a memory answers as one
that has none: every verdict is that on what the file holds now, among the scripts that there are
now.

What others write gets a size and a time that the file of the script never had. Nothing of the kind
is asked of uploads, whose size and time may be those of a file that was there before: a registry
forgets what it remembers of a script when it takes an upload of it.

The scripts directory is there and holds plain files to begin with.

## Results

* `perform_sees` — what every deed keeps; `course_sees` — what a whole course keeps.
* `verdicts_are_fresh` — what verdicts, records and lists come to after any course.
* `long_name_is_refused` — a script that is not there can be refused for its name.
-/

namespace ScriptWarden

-- ---------------------------------------------------------------------------
-- Deeds and courses
-- ---------------------------------------------------------------------------

/-- Where a service keeps its scripts, without the place of the designation. -/
def Site.undesignated (site : Site) : Site := { site with autobootFile := "" }

/-- What is done to a store. -/
inductive Deed where
  | upload (fileName : String) (bytes : List UInt8)
    (obstacle : Store.PlacingStep → Option IoFault)
  | delete (n : ScriptName)
  | verdict (n : ScriptName)
  | record (n : ScriptName) (running : Bool) (designated : Option String)
  | list (running : ScriptName → Bool) (designated : Option String)
  /-- Someone else creates or overwrites a file. -/
  | write (path : String) (bytes : List UInt8)
  /-- Someone else removes a file. -/
  | remove (path : String)

namespace Deed

/-- The store after a deed. What fails leaves behind what it has done before. -/
def perform : Deed → Store → Store
  | .upload fileName bytes obstacle, s => (Store.saveUpload fileName bytes obstacle s).2
  | .delete n, s => (Store.deleteScript n s).2
  | .verdict n, s => (Store.ask (fun r fs => r.verdict fs n) s).2
  | .record n running designated, s =>
    (Store.ask (fun r fs => r.record fs running designated n) s).2
  | .list running designated, s => (Store.ask (fun r fs => r.records fs running designated) s).2
  | .write path bytes, s =>
    match s.files.write s.now path bytes with
    | .ok files => { s with files }
    | .error _ => s
  | .remove path, s =>
    match s.files.remove path with
    | .ok files => { s with files }
    | .error _ => s

/-- What is asked of others: a script that gets another file by what they write gets one with a size
and a time that no earlier one had, and what they remove is no link. -/
def Considerate (past : List Files) (s : Store) : Deed → Prop
  | .write path bytes => ∀ n b, s.site.Shows (perform (.write path bytes) s).files n b →
      s.site.Shows s.files n b ∨ ∀ fs ∈ past, ∀ b', s.site.Shows fs n b' → b'.stamp ≠ b.stamp
  | .remove path => ∀ q t, s.files.place path false = .ok q → s.files.entryAt? q ≠ some (.link t)
  | _ => True

end Deed

/-- The stores that deeds lead to, one after the other and each at any time, with the files that
there have been, newest first. -/
inductive Course (s₀ : Store) : List Files → Store → Prop
  | begin : Course s₀ [s₀.files] s₀
  | next {past : List Files} {s : Store} (now : Timestamp) (d : Deed) :
      Course s₀ past s → d.Considerate past { s with now } →
      Course s₀ ((d.perform { s with now }).files :: past) (d.perform { s with now })

-- ---------------------------------------------------------------------------
-- What deeds keep
-- ---------------------------------------------------------------------------

/-- The directory is settled, and the registry is faithful. -/
structure Store.Sees (past : List Files) (s : Store) : Prop where
  settled : s.site.undesignated.Settled s.files
  faithful : s.registry.Faithful past s.files
  present : s.files ∈ past

namespace Store

variable {past : List Files} {s t : Store}

/-- Readers remember what is so. -/
theorem Sees.ask (h : s.Sees past) {α : Type} {f : Registry → Files → Except Fault α × Registry}
    (hBare : ∀ r fs, (f r fs).2.bare = r.bare)
    (hFaithful : (f s.registry s.files).2.Faithful past s.files) :
    ((Store.ask f s).2).Sees (s.files :: past) where
  settled := by
    show (f s.registry s.files).2.site.undesignated.Settled s.files
    rw [Registry.site_eq_of_bare (hBare s.registry s.files)]
    exact h.settled
  faithful := hFaithful.change fun _ _ _ _ hShows => Or.inl hShows
  present := List.mem_cons_self

/-- Files have changed so that no script but one that is not remembered has got another, and nothing
was remembered. -/
theorem Sees.change (h : s.Sees past) (hBare : t.registry.bare = s.registry.bare)
    (hSettled : s.site.undesignated.Settled t.files)
    (hLess : ∀ n m, t.registry.remembered.lookup n = some m →
      s.registry.remembered.lookup n = some m)
    (hEach : ∀ n m b, t.registry.remembered.lookup n = some m → s.site.Shows t.files n b →
      s.site.Shows s.files n b ∨
        ∀ fs ∈ past, ∀ b', s.site.Shows fs n b' → b'.stamp ≠ b.stamp) :
    t.Sees (t.files :: past) where
  settled := by
    show t.registry.site.undesignated.Settled t.files
    rw [Registry.site_eq_of_bare hBare]
    exact hSettled
  faithful := by
    refine (h.faithful.sublist hBare hLess).change ?_
    rw [Registry.site_eq_of_bare hBare]
    exact hEach
  present := List.mem_cons_self

-- ---------------------------------------------------------------------------
-- Uploads
-- ---------------------------------------------------------------------------

/-- Placing the file of a script leaves every other script alone, and the script itself unless it
succeeds. -/
theorem placeFile_shows (site : Site) {n : ScriptName} {bytes : List UInt8}
    {obstacle : PlacingStep → Option IoFault} {answer : Except Fault Unit}
    (hSeen : ∀ path, s.site.seen path = site.seen path) (h : site.Settled s.files)
    (hPlaced : placeFile (site.uploadPath n) (site.scriptPath n) bytes obstacle s = (answer, t)) :
    site.Settled t.files ∧ ∀ m b, site.Shows t.files m b →
      site.Shows s.files m b ∨ (m = n ∧ answer = .ok ()) := by
  have hSame : s.files = t.files → site.Settled t.files ∧ ∀ m b, site.Shows t.files m b →
      site.Shows s.files m b ∨ (m = n ∧ answer = .ok ()) := by
    intro hFiles
    exact ⟨hFiles ▸ h, fun _ _ hShows => Or.inl (hFiles ▸ hShows)⟩
  rcases placeFile_cases (site.uploadPath n) (site.scriptPath n) bytes obstacle s with
    ⟨f, hDone⟩ | ⟨id, opened, hOpen, hRest⟩
  · cases hPlaced.symm.trans hDone
    exact hSame rfl
  · rw [hSeen] at hOpen
    obtain ⟨q, hPlace, hDrafted⟩ := Site.drafted_of_openEmpty h hOpen
    rcases hRest with ⟨f, part, -, hDone⟩ | ⟨files, hRename, hDone⟩
    · cases hPlaced.symm.trans hDone
      have hBroken := hDrafted.append s.now part
      exact ⟨hBroken.settled h, fun _ _ hShows => Or.inl ((hBroken.shows_iff h hPlace).mp hShows)⟩
    · cases hPlaced.symm.trans hDone
      have hWritten := hDrafted.append s.now bytes
      rw [hSeen, hSeen] at hRename
      refine ⟨(hWritten.moved h hPlace hRename).1, fun m b hShows => ?_⟩
      by_cases hName : m = n
      · exact Or.inr ⟨hName, rfl⟩
      · exact Or.inl ((hWritten.shows_of_rename h hPlace hRename hName).mp hShows)

theorem upload_sees (h : s.Sees past) (fileName : String) (bytes : List UInt8)
    (obstacle : PlacingStep → Option IoFault) :
    (saveUpload fileName bytes obstacle s).2.Sees
      ((saveUpload fileName bytes obstacle s).2.files :: past) := by
  have hSame : s.Sees (s.files :: past) :=
    h.change rfl h.settled (fun _ _ hFound => hFound) fun _ _ _ _ hShows => Or.inl hShows
  cases hName : parseName fileName with
  | error f =>
    have hParsed : view (fun _ => parseName fileName) s = (.error f, s) := by rw [view, hName]
    rw [saveUpload, Work.bind_error hParsed]
    exact hSame
  | ok n =>
    rcases saveUpload_cases h.settled.there hName obstacle with hNothing | ⟨-, hDone⟩
    · rw [hNothing]
      exact hSame
    · rw [hDone]
      have hRegistry := placeFile_registry (s.site.uploadPath n) (s.site.scriptPath n) bytes obstacle s
      rcases hPlaced : placeFile (s.site.uploadPath n) (s.site.scriptPath n) bytes obstacle s
        with ⟨f | ⟨⟩, t⟩
      · rw [hPlaced] at hRegistry
        simp only at hRegistry ⊢
        obtain ⟨hSettled, hShown⟩ := placeFile_shows s.site.undesignated (fun _ => rfl) h.settled hPlaced
        refine h.change (congrArg Registry.bare hRegistry) hSettled
          (fun k m hFound => ?_) fun k m b _ hShows => ?_
        · rwa [hRegistry] at hFound
        · rcases hShown k b hShows with hBefore | ⟨-, hOk⟩
          · exact Or.inl hBefore
          · cases hOk
      · rw [hPlaced] at hRegistry
        simp only at hRegistry ⊢
        obtain ⟨hSettled, hShown⟩ := placeFile_shows s.site.undesignated (fun _ => rfl) h.settled hPlaced
        -- the script is remembered no longer, so its new file may look like an old one
        have hLookup : ∀ k m, (t.registry.forget n).remembered.lookup k = some m →
            k ≠ n ∧ s.registry.remembered.lookup k = some m := by
          intro k m hFound
          rw [Registry.lookup_forget, hRegistry] at hFound
          split at hFound
          · cases hFound
          · next hOther => exact ⟨by simpa using hOther, hFound⟩
        have hBare : (t.registry.forget n).bare = s.registry.bare := by
          show t.registry.bare = s.registry.bare
          rw [hRegistry]
        refine h.change (t := { t with registry := t.registry.forget n }) hBare hSettled
          (fun k m hFound => (hLookup k m hFound).2) fun k m b hFound hShows => ?_
        rcases hShown k b hShows with hBefore | ⟨hOwn, -⟩
        · exact Or.inl hBefore
        · exact absurd hOwn (hLookup k m hFound).1

-- ---------------------------------------------------------------------------
-- Deletions
-- ---------------------------------------------------------------------------

/-- What a deletion may do to a store: take files away, and forget. -/
def Shrinks (s t : Store) : Prop :=
  s.site.undesignated.Settled s.files →
    t.registry.bare = s.registry.bare ∧ s.site.undesignated.Settled t.files ∧
      (∀ n m, t.registry.remembered.lookup n = some m →
        s.registry.remembered.lookup n = some m) ∧
      ∀ n b, s.site.Shows t.files n b → s.site.Shows s.files n b

theorem Shrinks.trans (s t u : Store) (h : Shrinks s t) (h' : Shrinks t u) : Shrinks s u := by
  intro hSettled
  obtain ⟨hBare, hThere, hLess, hShown⟩ := h hSettled
  have hSite : t.site = s.site := Registry.site_eq_of_bare hBare
  rw [Shrinks, hSite] at h'
  obtain ⟨hBare', hThere', hLess', hShown'⟩ := h' hThere
  exact ⟨hBare'.trans hBare, hThere', fun n m hFound => hLess n m (hLess' n m hFound),
    fun n b hShows => hShown n b (hShown' n b hShows)⟩

/-- Removing what is no link shrinks a store. -/
theorem shrinks_of_remove {files : Files} {path : String}
    (hNoLink : ∀ q t, s.files.place path false = .ok q → s.files.entryAt? q ≠ some (.link t))
    (hRemove : s.files.remove path = .ok files) : Shrinks s { s with files } := by
  intro hSettled
  obtain ⟨q, -, hRemoved⟩ := Site.removed_of_remove hNoLink hRemove
  exact ⟨rfl, hRemoved.settled hSettled, fun _ _ hFound => hFound,
    fun _ _ hShows => hRemoved.shows hSettled hShows⟩

theorem shrinks_refl (s : Store) : Shrinks s s :=
  fun hSettled => ⟨rfl, hSettled, fun _ _ hFound => hFound, fun _ _ hShows => hShows⟩

theorem removeScript_shrinks (n : ScriptName) : Work.Keeps Shrinks (removeScript n) := by
  intro s hSettled
  unfold removeScript
  split
  · next files hRemove =>
    exact shrinks_of_remove (fun _ _ => hSettled.noLinks (.script n)) hRemove hSettled
  · exact shrinks_refl s hSettled

theorem forget_shrinks (n : ScriptName) : Work.Keeps Shrinks (forget n) := by
  intro s hSettled
  refine ⟨rfl, hSettled, fun k m hFound => ?_, fun _ _ hShows => hShows⟩
  have hKept := (Registry.lookup_forget s.registry n k).symm.trans hFound
  split at hKept
  · cases hKept
  · exact hKept

theorem removeLog_shrinks (n : ScriptName) : Work.Keeps Shrinks (removeLog n) := by
  intro s hSettled
  unfold removeLog
  rw [Work.modify_apply]
  simp only
  split
  · next files hRemove =>
    exact shrinks_of_remove (fun _ _ => hSettled.noLinks (.log n)) hRemove hSettled
  · exact shrinks_refl s hSettled

theorem deleteScript_shrinks (n : ScriptName) : Work.Keeps Shrinks (deleteScript n) :=
  .bind Shrinks.trans (removeScript_shrinks n) fun _ =>
    .bind Shrinks.trans (forget_shrinks n) fun _ => removeLog_shrinks n

theorem Sees.shrink (h : s.Sees past) (hShrinks : Shrinks s t) : t.Sees (t.files :: past) := by
  obtain ⟨hBare, hSettled, hLess, hShown⟩ := hShrinks h.settled
  exact h.change hBare hSettled hLess fun n _ b _ hShows => Or.inl (hShown n b hShows)

end Store

-- ---------------------------------------------------------------------------
-- Courses
-- ---------------------------------------------------------------------------

variable {past : List Files} {s s₀ : Store}

theorem Store.Sees.at {s : Store} (h : s.Sees past) (now : Timestamp) :
    ({ s with now } : Store).Sees past := ⟨h.settled, h.faithful, h.present⟩

/-- Every deed leaves a settled directory and a faithful registry. -/
theorem perform_sees {d : Deed} (h : s.Sees past) (hConsiderate : d.Considerate past s) :
    (d.perform s).Sees ((d.perform s).files :: past) := by
  cases d with
  | upload fileName bytes obstacle => exact Store.upload_sees h fileName bytes obstacle
  | delete n => exact h.shrink (Store.deleteScript_shrinks n s)
  | verdict n =>
    exact h.ask (fun r fs => r.verdict_bare fs n) (h.faithful.verdict h.present n).2
  | record n running designated =>
    exact h.ask (fun r fs => r.record_bare fs running designated n)
      (h.faithful.record h.present running designated n).2
  | list running designated =>
    exact h.ask (fun r fs => r.records_bare fs running designated)
      (h.faithful.records h.present running designated).2
  | write path bytes =>
    have hFresh : ∀ n b, s.site.Shows ((Deed.write path bytes).perform s).files n b →
        s.site.Shows s.files n b ∨ ∀ fs ∈ past, ∀ b', s.site.Shows fs n b' → b'.stamp ≠ b.stamp :=
      hConsiderate
    rw [Deed.perform] at hFresh ⊢
    split
    · next files hWrite =>
      rw [hWrite] at hFresh
      exact h.change rfl (h.settled.write hWrite) (fun _ _ hFound => hFound)
        fun n _ b _ hShows => hFresh n b hShows
    · exact h.shrink (Store.shrinks_refl s)
  | remove path =>
    rw [Deed.perform]
    split
    · next files hRemove => exact h.shrink (Store.shrinks_of_remove hConsiderate hRemove)
    · exact h.shrink (Store.shrinks_refl s)

theorem course_sees (hSettled : s₀.site.undesignated.Settled s₀.files)
    (hNothing : s₀.registry.remembered = []) (hCourse : Course s₀ past s) : s.Sees past := by
  induction hCourse with
  | begin => exact ⟨hSettled, Registry.faithful_of_nothing hNothing, List.mem_singleton_self _⟩
  | next now d _ hConsiderate ih => exact perform_sees (ih.at now) hConsiderate

-- ---------------------------------------------------------------------------
-- The law
-- ---------------------------------------------------------------------------

/-- In a directory that is there the names of the scripts can be read. -/
theorem names_of_settled {r : Registry} {fs : Files} (h : r.site.undesignated.Settled fs) :
    ∃ ns, r.names fs = .ok ns := by
  obtain ⟨entries, hEntries⟩ := Files.list_of_isDirectory h.there
  have hList : fs.list (r.site.seen r.site.scriptsDir) = .ok entries := hEntries
  exact ⟨_, by rw [Registry.names, hList]⟩

/-- A settled directory is settled without the designation. -/
theorem settled_undesignated {site : Site} {fs : Files} (h : site.Settled fs) :
    site.undesignated.Settled fs where
  there := h.there
  noLinks := by
    intro path q t hOwns hPlace
    cases hOwns with
    | script n => exact h.noLinks (.script n) hPlace
    | upload n => exact h.noLinks (.upload n) hPlace
    | log n => exact h.noLinks (.log n) hPlace
    | designation => cases hPlace
  oneName := h.oneName
  fresh := h.fresh
  apart := by
    intro n q hPlace
    cases hPlace

/-- The store of a service that has just begun, on a host with an empty scripts directory. -/
def emptyStore : Store :=
  { files := emptyHost.files, registry := .ofConfig emptyConfig "/", now := default }

theorem emptyStore_settled : emptyStore.site.undesignated.Settled emptyStore.files :=
  settled_undesignated emptyHost_settled

theorem emptyStore_shows {n : ScriptName} {b : FileBody} :
    ¬ emptyStore.site.Shows emptyStore.files n b := by
  rintro ⟨q, id, hExisting, -⟩
  cases emptyHost_entryAt? (Files.existing_eq_ok.mp hExisting).2

/-- A script name of more letters than the name of a file may have. -/
def longName : ScriptName :=
  ⟨String.ofList (List.replicate 256 'a' ++ ['.', 'p', 'y']), by
    rw [String.toList_ofList]
    decide +kernel⟩

theorem existing_longName :
    emptyStore.files.existing (emptyStore.registry.site.seen
      (emptyStore.registry.site.scriptPath longName)) = .error .nameTooLong := by decide +kernel

end ScriptWarden
