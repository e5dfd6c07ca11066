import ScriptWarden.Proofs.BootRegister
import ScriptWarden.Proofs.Files.Shrinking

/-!
# Deletions that fail

A deletion changes three things one after the other: the script, its log, and the designation. The
log may stay where it cannot be removed, but a script is not brought back when the designation turns
out to be unclear. So a deletion that fails leaves everything as it was exactly as long as it can
tell whose designation there is, and can remove its own; `UnclearDesignation` is what else there is.

Nothing is asked of the files: links may lead anywhere, and the three paths need not be apart. What
is not known of the host may fail at each step.

## Results

* `retireScriptUnder_unhindered` — without obstacles the steps are those of a deletion.
* `clearUnder_answers` — when the designation of a script can be cleared, and what then is.
* `retireScriptUnder_fails`, `retireScriptUnder_done` — what either answer of a deletion means.
* `failed_deletion_changes_nothing` — a deletion that fails, on a whole deployment.
* `unreadable_designation_loses_script` — a designation that is no text, and what is left.
-/

namespace ScriptWarden

namespace Store

variable {s t : Store} {n : ScriptName} {e : Fault}

-- ---------------------------------------------------------------------------
-- Deletions with obstacles
-- ---------------------------------------------------------------------------

/-- The steps of a deletion that the host may fail at. -/
inductive RetiringStep where
  | removeScript
  | removeLog
  | readDesignation
  | removeDesignation
deriving DecidableEq

/-- What makes a step fail, beyond what the files show. -/
abbrev Obstacles := RetiringStep → Option IoFault

variable {obstacle : Obstacles}

/-- Fail at an obstacle. -/
def hinder : Option IoFault → StoreWork Unit
  | some fault => throw (.io fault)
  | none => pure ()

/-- Remove the designation if it is that of a script, among obstacles. -/
def clearUnder (obstacle : Obstacles) (n : ScriptName) : StoreWork Unit := do
  hinder (obstacle .readDesignation)
  if (← view designated) == some n.text then
    hinder (obstacle .removeDesignation)
    clearDesignation

/-- Remove a script and its log, among obstacles. A log that cannot be removed stays. -/
def removeUnder (obstacle : Obstacles) (n : ScriptName) : StoreWork Unit := do
  hinder (obstacle .removeScript)
  removeScript n
  forget n
  if (obstacle .removeLog).isNone then removeLog n

/-- Remove a script, its log and its designation, among obstacles. -/
def retireScriptUnder (obstacle : Obstacles) (n : ScriptName) : StoreWork Unit := do
  removeUnder obstacle n
  clearUnder obstacle n

@[simp] theorem hinder_none : hinder none = pure () := rfl

theorem clearUnder_unhindered (n : ScriptName) :
    clearUnder (fun _ => none) n = (discard (clearDesignationOf n.text) : StoreWork Unit) := by
  funext s
  have hClear : ∀ t : Store, (clearDesignation >>= fun _ => pure true : StoreWork Bool) t =
      ((clearDesignation t).1.map fun _ => true, (clearDesignation t).2) := by
    intro t
    rw [Work.bind_apply]
    rcases clearDesignation t with ⟨_ | _, u⟩ <;> rfl
  rw [Work.discard_apply, clearUnder, clearDesignationOf, hinder_none, pure_bind, Work.bind_apply,
    Work.bind_apply, view]
  cases s.designated with
  | error f => rfl
  | ok r =>
    by_cases hOwn : r = some n.text
    · simp only [hOwn, bne_self_eq_false, Bool.false_eq_true, if_false, beq_self_eq_true, if_true,
        pure_bind, hClear]
      rcases clearDesignation s with ⟨_ | ⟨⟩, u⟩ <;> rfl
    · simp only [bne_iff_ne, ne_eq, hOwn, not_false_eq_true, if_true, beq_iff_eq, if_false]
      rfl

/-- Without obstacles the steps are those of a deletion. -/
theorem retireScriptUnder_unhindered (n : ScriptName) :
    retireScriptUnder (fun _ => none) n = retireScript n := by
  rw [retireScriptUnder, retireScript, clearUnder_unhindered, removeUnder, deleteScript,
    hinder_none, pure_bind, Option.isNone_none, if_pos rfl]

-- ---------------------------------------------------------------------------
-- Clearing
-- ---------------------------------------------------------------------------

/-- The designation can be cleared of a script: it can be read, and removed where it is the
script's. -/
structure DesignationClear (obstacle : Obstacles) (n : ScriptName) (s : Store) : Prop where
  read : obstacle .readDesignation = none ∧ ∃ r, s.designated = .ok r
  removed : s.designated = .ok (some n.text) → obstacle .removeDesignation = none

/-- A designation that was read lies in a file that can be removed. -/
theorem clearDesignation_of_designated {name : String} (h : s.designated = .ok (some name)) :
    ∃ files, s.files.remove (s.site.seen s.site.autobootFile) = .ok files ∧
      clearDesignation s = (.ok (), { s with files }) := by
  have hText : ∃ text, s.files.readText (s.site.seen s.site.autobootFile) = .ok text := by
    unfold designated at h
    split at h
    · exact ⟨_, ‹_›⟩
    · cases h
    · cases h
  obtain ⟨text, hText⟩ := hText
  have hBytes : ∃ bytes, s.files.read (s.site.seen s.site.autobootFile) = .ok bytes := by
    rw [Files.readText] at hText
    cases hRead : s.files.read (s.site.seen s.site.autobootFile) with
    | error f => simp [hRead, bind, Except.bind] at hText
    | ok bytes => exact ⟨bytes, rfl⟩
  obtain ⟨bytes, hBytes⟩ := hBytes
  obtain ⟨p, id, hPlace, hFile, -⟩ := Files.read_eq_ok.mp hBytes
  obtain ⟨q, hThere, hEnd⟩ := Files.place_noFollow hPlace
  -- the path ends at the file itself, or at a link to it
  have hRemovable : ∃ entry, s.files.entryAt? q = some entry ∧ entry ≠ .directory := by
    rcases hEnd with rfl | ⟨target, hLink⟩
    · exact ⟨_, hFile, by simp⟩
    · exact ⟨_, hLink, by simp⟩
  obtain ⟨entry, hEntry, hNotDirectory⟩ := hRemovable
  have hRemove : s.files.remove (s.site.seen s.site.autobootFile) = .ok (s.files.clearEntry q) := by
    cases entry with
    | directory => exact absurd rfl hNotDirectory
    | file id => simp [Files.remove, hThere, hEntry, bind, Except.bind]
    | link target => simp [Files.remove, hThere, hEntry, bind, Except.bind]
  exact ⟨_, hRemove, by simp only [clearDesignation, hRemove]⟩

/-- Where the file of the designation is gone, nothing is designated. -/
theorem designated_of_gone (h : s.files.pathExists (s.site.seen s.site.autobootFile) = false)
    (name : String) : s.designated ≠ .ok (some name) := by
  unfold designated
  split
  · next text hText => exact absurd hText (Files.readText_of_gone h text)
  · exact nofun
  · exact nofun

/-- The designation of fewer files is what it was, or there is none. -/
theorem designated_of_fewer (hSite : t.site = s.site) (h : Files.Fewer s.files t.files) :
    t.designated = s.designated ∨ t.designated = .ok none := by
  unfold designated
  rw [hSite]
  rcases h.readText_eq (s.site.seen s.site.autobootFile) with hSame | hLost
  · rw [hSame]
    exact .inl rfl
  · rw [hLost]
    exact .inr rfl

/-- What either answer of clearing means: it changes nothing and the designation was not clear, or
it leaves fewer files and no designation of the script. -/
theorem clearUnder_answers (obstacle : Obstacles) (n : ScriptName) (s : Store) :
    (∃ f, clearUnder obstacle n s = (.error (.io f), s) ∧ ¬ DesignationClear obstacle n s) ∨
      ∃ files, clearUnder obstacle n s = (.ok (), { s with files }) ∧
        Files.Fewer s.files files ∧
        ({ s with files } : Store).designated ≠ .ok (some n.text) ∧
        DesignationClear obstacle n s := by
  unfold clearUnder
  cases hReading : obstacle .readDesignation with
  | some f =>
    refine .inl ⟨f, rfl, fun hClear => ?_⟩
    cases hReading.symm.trans hClear.read.1
  | none =>
    rw [hinder_none, pure_bind, Work.bind_apply, view]
    cases hDesignated : s.designated with
    | error e =>
      have hFault : ∃ f, e = .io f := by
        unfold designated at hDesignated
        split at hDesignated
        · cases hDesignated
        · cases hDesignated
        · exact ⟨_, (Except.error.inj hDesignated).symm⟩
      obtain ⟨f, rfl⟩ := hFault
      refine .inl ⟨f, rfl, fun hClear => ?_⟩
      obtain ⟨-, r, hRead⟩ := hClear.read
      cases hDesignated.symm.trans hRead
    | ok r =>
      by_cases hOwn : r = some n.text
      · subst hOwn
        simp only [beq_self_eq_true, if_true]
        cases hRemoving : obstacle .removeDesignation with
        | some f =>
          refine .inl ⟨f, rfl, fun hClear => ?_⟩
          cases hRemoving.symm.trans (hClear.removed hDesignated)
        | none =>
          obtain ⟨files, hRemove, hRun⟩ := clearDesignation_of_designated hDesignated
          rw [hinder_none, pure_bind]
          refine .inr ⟨files, hRun, Files.remove_fewer hRemove, ?_,
            ⟨⟨hReading, _, hDesignated⟩, fun _ => hRemoving⟩⟩
          exact designated_of_gone (s := { s with files }) (Files.remove_gone hRemove) n.text
      · simp only [beq_iff_eq, hOwn, if_false]
        have hOther : s.designated ≠ .ok (some n.text) := by
          rw [hDesignated]
          exact fun hSame => hOwn (Except.ok.inj hSame)
        exact .inr ⟨s.files, rfl, .refl _, hOther,
          ⟨⟨hReading, _, hDesignated⟩, fun hSame => absurd hSame hOther⟩⟩

-- ---------------------------------------------------------------------------
-- Removing the script and its log
-- ---------------------------------------------------------------------------

/-- A script has been removed: its path leads to nothing, its analysis is forgotten, and of the
files some are left. -/
structure ScriptGone (n : ScriptName) (s t : Store) : Prop where
  gone : t.files.pathExists (s.site.seen (s.site.scriptPath n)) = false
  fewer : Files.Fewer s.files t.files
  registry : t.registry = s.registry.forget n
  now : t.now = s.now

theorem ScriptGone.site (h : ScriptGone n s t) : t.site = s.site := by
  rw [Store.site, h.registry]
  rfl

theorem ScriptGone.trans {files : Files} (h : ScriptGone n s t) (hFewer : Files.Fewer t.files files) :
    ScriptGone n s { t with files } :=
  ⟨hFewer.pathExists h.gone, h.fewer.trans hFewer, h.registry, h.now⟩

theorem removeLog_apply (n : ScriptName) (s : Store) :
    ∃ files, removeLog n s = (.ok (), { s with files }) ∧ Files.Fewer s.files files := by
  unfold removeLog
  rw [Work.modify_apply]
  split
  · next files hRemove => exact ⟨files, rfl, Files.remove_fewer hRemove⟩
  · exact ⟨s.files, rfl, .refl _⟩

/-- Removing a script and its log changes nothing, or the script is gone. -/
theorem removeUnder_answers (obstacle : Obstacles) (n : ScriptName) (s : Store) :
    (∃ e, removeUnder obstacle n s = (.error e, s)) ∨
      ∃ t, removeUnder obstacle n s = (.ok (), t) ∧ ScriptGone n s t := by
  unfold removeUnder
  cases hRemoving : obstacle .removeScript with
  | some f => exact .inl ⟨.io f, rfl⟩
  | none =>
    rw [hinder_none, pure_bind, Work.bind_apply, removeScript]
    cases hRemove : s.files.remove (s.site.seen (s.site.scriptPath n)) with
    | error f => exact .inl ⟨_, rfl⟩
    | ok files =>
      right
      let u : Store := { s with files, registry := s.registry.forget n }
      have hGone : ScriptGone n s u :=
        ⟨Files.remove_gone hRemove, Files.remove_fewer hRemove, rfl, rfl⟩
      show ∃ t, (if (obstacle .removeLog).isNone = true then removeLog n else pure ()) u =
        (.ok (), t) ∧ ScriptGone n s t
      split
      · obtain ⟨files', hRun, hFewer⟩ := removeLog_apply n u
        exact ⟨_, hRun, hGone.trans hFewer⟩
      · exact ⟨u, rfl, hGone⟩

-- ---------------------------------------------------------------------------
-- A deletion
-- ---------------------------------------------------------------------------

/-- A deletion got stuck at the designation: the script is gone, the designation was not clear, and
it is what it was, or there is none any more. -/
structure UnclearDesignation (obstacle : Obstacles) (n : ScriptName) (s t : Store) : Prop where
  unclear : ¬ DesignationClear obstacle n s
  gone : ScriptGone n s t
  designated : t.designated = s.designated ∨ t.designated = .ok none

/-- With fewer files a designation stays clear. -/
theorem DesignationClear.of_fewer (h : DesignationClear obstacle n s) (hSite : t.site = s.site)
    (hFewer : Files.Fewer s.files t.files) : DesignationClear obstacle n t := by
  obtain ⟨hReading, r, hRead⟩ := h.read
  rcases designated_of_fewer hSite hFewer with hSame | hNone
  · exact ⟨⟨hReading, r, hSame.trans hRead⟩, fun hOwn => h.removed (hSame.symm.trans hOwn)⟩
  · exact ⟨⟨hReading, none, hNone⟩, fun hOwn => nomatch hNone.symm.trans hOwn⟩

/-- A deletion that fails changes nothing, or got stuck at the designation. -/
theorem retireScriptUnder_fails (h : retireScriptUnder obstacle n s = (.error e, t)) :
    t = s ∨ (∃ f, e = .io f) ∧ UnclearDesignation obstacle n s t := by
  unfold retireScriptUnder at h
  rcases removeUnder_answers obstacle n s with ⟨f, hRemove⟩ | ⟨u, hRemove, hGone⟩
  · rw [Work.bind_error hRemove] at h
    cases h
    exact .inl rfl
  · rw [Work.bind_ok hRemove] at h
    rcases clearUnder_answers obstacle n u with ⟨f, hRun, hUnclear⟩ | ⟨files, hRun, -⟩
    · cases hRun.symm.trans h
      refine .inr ⟨⟨f, rfl⟩, fun hClear => ?_, hGone, designated_of_fewer hGone.site hGone.fewer⟩
      exact hUnclear (hClear.of_fewer hGone.site hGone.fewer)
    · cases hRun.symm.trans h

/-- A deletion that is done has removed the script, and its designation. -/
theorem retireScriptUnder_done (h : retireScriptUnder obstacle n s = (.ok (), t)) :
    ScriptGone n s t ∧ t.designated ≠ .ok (some n.text) := by
  unfold retireScriptUnder at h
  obtain ⟨⟨⟩, u, hRemove, hClear⟩ := Work.bind_eq_ok.mp h
  rcases removeUnder_answers obstacle n s with ⟨f, hRun⟩ | ⟨u', hRun, hGone⟩
  · cases hRun.symm.trans hRemove
  · cases hRun.symm.trans hRemove
    rcases clearUnder_answers obstacle n u with ⟨f, hRun, -⟩ | ⟨files, hRun, hFewer, hOther, -⟩
    · cases hRun.symm.trans hClear
    · cases hRun.symm.trans hClear
      exact ⟨hGone.trans hFewer, hOther⟩

end Store

-- ---------------------------------------------------------------------------
-- Deployments
-- ---------------------------------------------------------------------------

/-- Remove a script without a session, with its log and its designation, among obstacles. -/
def Deployment.deleteScriptUnder (obstacle : Store.Obstacles) (n : ScriptName) :
    DeploymentWork Unit :=
  whileIdle n (onStore (Store.retireScriptUnder obstacle n))

/-- Without obstacles this is the deletion that the service makes. -/
theorem deleteScriptUnder_unhindered (n : ScriptName) :
    Deployment.deleteScriptUnder (fun _ => none) n = Deployment.deleteScript n := by
  rw [Deployment.deleteScriptUnder, Deployment.deleteScript, Store.retireScriptUnder_unhindered]

variable {d d' : Deployment} {n : ScriptName} {obstacle : Store.Obstacles}

/-- A deletion is refused, or is what the store makes of it. -/
theorem deleteScriptUnder_cases (obstacle : Store.Obstacles) (n : ScriptName) (d : Deployment) :
    Deployment.deleteScriptUnder obstacle n d = (.error (.busy n.text), d) ∨
      Deployment.deleteScriptUnder obstacle n d =
        Deployment.onStore (Store.retireScriptUnder obstacle n) d := by
  unfold Deployment.deleteScriptUnder Deployment.whileIdle
  cases hSlot : d.slots.slot? n with
  | none =>
    have hGuard : Deployment.view (fun d => d.slots.guardIdle n) d = (.ok (), d) := by
      rw [Deployment.view, Slots.guardIdle, hSlot]
    exact .inr (Work.bind_ok hGuard)
  | some slot =>
    have hGuard : Deployment.view (fun d => d.slots.guardIdle n) d =
        (.error (.busy n.text), d) := by
      rw [Deployment.view, Slots.guardIdle, hSlot]
    exact .inl (Work.bind_error hGuard)

/-- What work on the store answers, and what it leaves. The clock stays as it is. -/
theorem onStore_eq {α : Type} {work : StoreWork α} {answer : Except Fault α}
    (h : Deployment.onStore work d = (answer, d')) :
    ∃ t, work d.store = (answer, t) ∧ (t.now = d.store.now → d'.store = t) ∧
      (t = d.store → d' = d) := by
  have hRun : work d.store = (answer, (work d.store).2) := by
    cases h
    rfl
  have hLeft : d' = { d with
      host := { d.host with files := (work d.store).2.files }
      service := { d.service with registry := (work d.store).2.registry } } := by
    cases h
    rfl
  refine ⟨_, hRun, fun hNow => ?_, fun hSame => ?_⟩
  · rw [hLeft]
    show ({ files := _, registry := _, now := d.store.now } : Store) = _
    rw [← hNow]
  · rw [hLeft, hSame]
    rfl

/--
**A deletion that fails leaves everything as it was,** as long as the designation is clear: it can
be read, and removed where it is the script's. In general a deletion that fails has changed nothing,
or it got stuck at the designation when the script was gone. A deletion that is done has removed
the script, and its designation. The host may fail at every step, whatever its files are; where it
fails at none beyond what they show, this is the deletion that the service makes.
-/
theorem failed_deletion_changes_nothing (obstacle : Store.Obstacles) (n : ScriptName)
    (d : Deployment) :
    (∀ e d', d.store.DesignationClear obstacle n →
      Deployment.deleteScriptUnder obstacle n d = (.error e, d') → d' = d) ∧
    (∀ e d', Deployment.deleteScriptUnder obstacle n d = (.error e, d') →
      d' = d ∨ (∃ f, e = .io f) ∧ Store.UnclearDesignation obstacle n d.store d'.store) ∧
    (∀ d', Deployment.deleteScriptUnder obstacle n d = (.ok (), d') →
      d'.store.files.pathExists (d.store.site.seen (d.store.site.scriptPath n)) = false ∧
        d'.store.designated ≠ .ok (some n.text)) ∧
    Deployment.deleteScriptUnder (fun _ => none) n = Deployment.deleteScript n := by
  have hFails : ∀ e d', Deployment.deleteScriptUnder obstacle n d = (.error e, d') →
      d' = d ∨ (∃ f, e = .io f) ∧ Store.UnclearDesignation obstacle n d.store d'.store := by
    intro e d' hRun
    rcases deleteScriptUnder_cases obstacle n d with hBusy | hStore
    · cases hBusy.symm.trans hRun
      exact .inl rfl
    · obtain ⟨t, hWork, hNow, hSame⟩ := onStore_eq (hStore.symm.trans hRun)
      rcases Store.retireScriptUnder_fails hWork with hUnchanged | ⟨hFault, hStuck⟩
      · exact .inl (hSame hUnchanged)
      · rw [hNow hStuck.gone.now]
        exact .inr ⟨hFault, hStuck⟩
  refine ⟨fun e d' hClear hRun => ?_, hFails, fun d' hRun => ?_, deleteScriptUnder_unhindered n⟩
  · rcases hFails e d' hRun with hUnchanged | ⟨-, hStuck⟩
    · exact hUnchanged
    · exact absurd hClear hStuck.unclear
  · rcases deleteScriptUnder_cases obstacle n d with hBusy | hStore
    · cases hBusy.symm.trans hRun
    · obtain ⟨t, hWork, hNow, -⟩ := onStore_eq (hStore.symm.trans hRun)
      obtain ⟨hGone, hOther⟩ := Store.retireScriptUnder_done hWork
      rw [hNow hGone.now]
      exact ⟨hGone.gone, hOther⟩

/-- A host with a script, its log, and a file of the designation that holds some bytes. -/
def loggedScript (designation : List UInt8) : Host :=
  { emptyHost with
    files :=
      { entries := [(["scripts"], .directory), (["scripts", "a.py"], .file 0),
          (["logs"], .directory), (["logs", "a.py.log"], .file 1), (["boot.txt"], .file 2)]
        bodies := [(2, { bytes := designation, modified := default })]
        nextId := 3 } }

/-- A service of that script. -/
def loggedDeployment (designation : List UInt8) : Deployment :=
  let config := { emptyConfig with logDir := "/logs", autobootFile := "/boot.txt" }
  { host := loggedScript designation
    service := .new config "/" "host" (loggedScript designation).files }

/-- The script is designated. Where its file cannot be removed, nothing changes; where all can be,
neither the script nor its designation is left. -/
theorem designated_script_deletion :
    ∃ obstacle d', (loggedDeployment (encodeUtf8 "a.py\n")).store.designated =
        .ok (some "a.py") ∧
      (loggedDeployment (encodeUtf8 "a.py\n")).store.DesignationClear obstacle default ∧
      Deployment.deleteScriptUnder obstacle default (loggedDeployment (encodeUtf8 "a.py\n")) =
        (.error (.io .permissionDenied), loggedDeployment (encodeUtf8 "a.py\n")) ∧
      Deployment.deleteScript default (loggedDeployment (encodeUtf8 "a.py\n")) = (.ok (), d') ∧
      d'.store.files.pathExists "/scripts/a.py" = false ∧
      d'.store.designated ≠ .ok (some "a.py") := by
  let d := loggedDeployment (encodeUtf8 "a.py\n")
  let obstacle : Store.Obstacles := fun step =>
    if step = .removeScript then some .permissionDenied else none
  have hDesignated : d.store.designated = .ok (some "a.py") := by decide +kernel
  have hClear : d.store.DesignationClear obstacle default :=
    ⟨⟨rfl, _, hDesignated⟩, fun _ => rfl⟩
  have hAnswer : (Deployment.deleteScriptUnder obstacle default d).1 =
      .error (.io .permissionDenied) := by decide +kernel
  have hFails : Deployment.deleteScriptUnder obstacle default d =
      (.error (.io .permissionDenied), (Deployment.deleteScriptUnder obstacle default d).2) :=
    Prod.ext hAnswer rfl
  have hSame := (failed_deletion_changes_nothing obstacle default d).1 _ _ hClear hFails
  have hDone : (Deployment.deleteScript default d).1 = .ok () := by decide +kernel
  have hRun : Deployment.deleteScriptUnder (fun _ => none) default d =
      (.ok (), (Deployment.deleteScript default d).2) := by
    rw [deleteScriptUnder_unhindered]
    exact Prod.ext hDone rfl
  obtain ⟨hGone, hOther⟩ :=
    (failed_deletion_changes_nothing (fun _ => none) default d).2.2.1 _ hRun
  have hPath : d.store.site.seen (d.store.site.scriptPath default) = "/scripts/a.py" := by
    decide +kernel
  refine ⟨obstacle, _, hDesignated, hClear, ?_, Prod.ext hDone rfl, hPath ▸ hGone, hOther⟩
  rw [hSame] at hFails
  exact hFails

/-- **A designation that is no text loses the script.** The deletion answers that the designation
cannot be read. The script and its log are gone, nothing can be told of the designation, as before,
and the deletion cannot be made good: there is no such script any more. -/
theorem unreadable_designation_loses_script :
    ∃ d', Deployment.deleteScript default (loggedDeployment [0xFF]) =
        (.error (.io .notText), d') ∧
      (loggedDeployment [0xFF]).store.files.pathExists "/scripts/a.py" = true ∧
      (loggedDeployment [0xFF]).store.files.pathExists "/logs/a.py.log" = true ∧
      d'.store.files.pathExists "/scripts/a.py" = false ∧
      d'.store.files.pathExists "/logs/a.py.log" = false ∧
      d'.store.designated = .error (.io .notText) ∧
      (Deployment.deleteScript default d').1 = .error (.notFound "a.py") := by
  refine ⟨_, Prod.ext (by decide +kernel) rfl, ?_⟩
  decide +kernel

end ScriptWarden
