import ScriptWarden.Proofs.Files.FileCalls
import ScriptWarden.Proofs.Rules
import ScriptWarden.Proofs.Runs.EndedSessions

/-!
# The files that a service manages

A site has a directory of scripts, a directory of logs and a file for the designation. Of a script it
has the script itself, the draft of an upload and the log; of the designation the file and its draft.
What a service does for some scripts asks for no other file: everything that is listed, looked at,
read, written, renamed or removed is one of these, under the path that the names of the scripts and the
configuration give it. Besides, the service asks where the interpreter lies and where the processes of
the host have their scripts; it opens nothing there.

## Results

* `Registry.verdict_asks`, `Registry.record_asks`, `Registry.records_asks` — what readers ask for.
* `Store.saveUpload_within`, `Store.retireScript_within`, `Store.setAutoboot_within` — what changes ask
  for, whatever the host fails at.
* `Deployment.start_within`, `Deployment.supervise_within` — what sessions ask for, from the check of
  their script to their log.
* `Deployment.beginTermination_within` — what ending other processes asks for.
-/

namespace ScriptWarden

-- ---------------------------------------------------------------------------
-- What may be asked for
-- ---------------------------------------------------------------------------

namespace Site

/-- The paths of the files that a site has of some scripts, and of the designation. -/
inductive Manages (site : Site) (about : ScriptName → Prop) : String → Prop
  | script {n : ScriptName} : about n → Manages site about (site.scriptPath n)
  | upload {n : ScriptName} : about n → Manages site about (site.uploadPath n)
  | log {n : ScriptName} : about n → Manages site about (site.logPath n)
  | designation : Manages site about site.autobootFile
  | designationDraft : Manages site about site.designationDraft

/-- The directories that such files lie in. -/
inductive ManagesIn (site : Site) (about : ScriptName → Prop) : String → Prop
  | scripts : ManagesIn site about site.scriptsDir
  | logs {n : ScriptName} {directory : String} : about n →
      Files.parentPath? (site.logPath n) = some directory → ManagesIn site about directory
  | designation {directory : String} : site.designationDir? = some directory →
      ManagesIn site about directory

/-- What may be asked for about some scripts. Where a path leads may be asked of any. -/
def Permits (site : Site) (about : ScriptName → Prop) : FileCall → Prop
  | .list path => path = site.seen site.scriptsDir
  | .look path | .read path | .write _ path _ | .remove path =>
    ∃ p, site.Manages about p ∧ path = site.seen p
  | .rename source target =>
    (∃ p, site.Manages about p ∧ source = site.seen p) ∧
      ∃ p, site.Manages about p ∧ target = site.seen p
  | .makeDirectories path => ∃ p, site.ManagesIn about p ∧ path = site.seen p
  | .locate _ => True

end Site

variable {about : ScriptName → Prop} {n : ScriptName}

-- ---------------------------------------------------------------------------
-- Readers
-- ---------------------------------------------------------------------------

namespace Registry

variable (r : Registry) (fs : Files)

theorem names_asks : Asks (r.site.Permits about) r.names fs :=
  (Files.list_asks fs (P := r.site.Permits about) rfl).decides fun fs' hSame => by
    unfold names
    rw [hSame]

theorem modules_asks : Asks (r.site.Permits about) r.modules fs := (names_asks r fs).map _

theorem look_asks (hn : about n) : Asks (r.site.Permits about) (r.look · n) fs :=
  (Files.info_asks fs (P := r.site.Permits about) ⟨_, .script hn, rfl⟩).decides fun fs' hSame => by
    unfold look
    rw [hSame]

theorem hasFile_asks (hn : about n) : Asks (r.site.Permits about) (r.hasFile · n) fs :=
  Files.isFile_asks fs ⟨_, .script hn, rfl⟩

theorem bytes_asks (hn : about n) : Asks (r.site.Permits about) (r.bytes · n) fs :=
  (Files.read_asks fs (P := r.site.Permits about) ⟨_, .script hn, rfl⟩).map _

theorem source_asks (hn : about n) : Asks (r.site.Permits about) (r.source · n) fs :=
  (bytes_asks r fs hn).decides fun fs' hSame => by
    unfold source
    rw [hSame]

theorem log_asks (hn : about n) : Asks (r.site.Permits about) (r.log · n) fs :=
  (Files.read_asks fs (P := r.site.Permits about) ⟨_, .log hn, rfl⟩).decides fun fs' hSame => by
    unfold log
    rw [hSame]

theorem hasLog_asks (hn : about n) : Asks (r.site.Permits about) (r.hasLog · n) fs :=
  Files.isFile_asks fs ⟨_, .log hn, rfl⟩

/-- An analysis looks at the file of the script, and reads it unless it is remembered. -/
theorem analysis_asks (hn : about n) : Asks (r.site.Permits about) (r.analysis · n) fs := by
  have hJudge : Asks (r.site.Permits about) (r.judge · n) fs := (bytes_asks r fs hn).map _
  refine (look_asks r fs hn).decide₂ hJudge fun fs' hLook hJudged => ?_
  unfold analysis
  rw [hLook, hJudged]

theorem verdict_asks (hn : about n) : Asks (r.site.Permits about) (r.verdict · n) fs := by
  have hModules : Asks (r.site.Permits about) (r.analysis fs n).2.modules fs := by
    rw [← site_eq_of_bare (analysis_bare r fs n)]
    exact modules_asks _ fs
  refine (analysis_asks r fs hn).decide₂ hModules fun fs' hAnalysis hTold => ?_
  unfold verdict
  rw [hAnalysis]
  simp only
  rw [hTold]

theorem recordAmong_asks (known : List String) (running : Bool) (designated : Option String)
    (hn : about n) : Asks (r.site.Permits about) (r.recordAmong · known running designated n) fs := by
  have hLog : Asks (r.site.Permits about) ((r.analysis fs n).2.hasLog · n) fs := by
    rw [← site_eq_of_bare (analysis_bare r fs n)]
    exact hasLog_asks _ fs hn
  refine (analysis_asks r fs hn).decide₂ hLog fun fs' hAnalysis hLogged => ?_
  unfold recordAmong
  rw [hAnalysis]
  simp only
  rw [hLogged]

theorem record_asks (running : Bool) (designated : Option String) (hn : about n) :
    Asks (r.site.Permits about) (r.record · running designated n) fs := by
  have hAsks : Asks (r.site.Permits about) r.modules fs := modules_asks r fs
  cases hModules : r.modules fs with
  | error f =>
    refine hAsks.decides fun fs' hSame => ?_
    unfold record
    rw [hSame, hModules]
  | ok known =>
    refine hAsks.decide₂ (recordAmong_asks r fs known running designated hn) fun fs' hSame hRecord => ?_
    unfold record
    rw [hSame, hModules]
    exact hRecord

/-- The records of scripts ask for the files of these scripts. -/
theorem recordsAmong_asks (known : List String) (running : ScriptName → Bool)
    (designated : Option String) {ns : List ScriptName} (hns : ∀ n ∈ ns, about n) :
    Asks (r.site.Permits about) (r.recordsAmong · known running designated ns) fs := by
  induction ns generalizing r with
  | nil => exact .const _
  | cons n rest ih =>
    have hFirst := recordAmong_asks r fs known (running n) designated (hns n List.mem_cons_self)
    have hRest : Asks (r.site.Permits about)
        ((r.recordAmong fs known (running n) designated n).2.recordsAmong · known running designated rest)
        fs := by
      rw [← site_eq_of_bare (recordAmong_bare r fs known (running n) designated n)]
      exact ih _ fun m hMem => hns m (List.mem_cons_of_mem n hMem)
    refine hFirst.decide₂ hRest fun fs' hSame hOthers => ?_
    rw [recordsAmong_cons, recordsAmong_cons, hSame]
    rcases hRecord : r.recordAmong fs known (running n) designated n with ⟨f | first, r'⟩ <;>
      rw [hRecord] at hOthers
    · -- a script that is gone is passed over, any other fault ends the list
      cases f with
      | notFound name => exact hOthers
      | _ => rfl
    · simp only [hOthers]

theorem records_asks (running : ScriptName → Bool) (designated : Option String)
    (hAll : ∀ n, about n) : Asks (r.site.Permits about) (r.records · running designated) fs := by
  have hAsks : Asks (r.site.Permits about) r.names fs := names_asks r fs
  cases hNames : r.names fs with
  | error f =>
    refine hAsks.decides fun fs' hSame => ?_
    unfold records
    rw [hSame, hNames]
  | ok ns =>
    have hRecords := recordsAmong_asks r fs (ns.map ScriptName.module) running designated
      fun n (_ : n ∈ ns) => hAll n
    refine hAsks.decide₂ hRecords fun fs' hSame hAmong => ?_
    unfold records
    rw [hSame, hNames]
    simp only
    rw [hAmong]

end Registry

-- ---------------------------------------------------------------------------
-- Changes
-- ---------------------------------------------------------------------------

namespace Store

/-- What may be asked for about some scripts, where a store is kept. -/
def permits (about : ScriptName → Prop) (s : Store) : FileCall → Prop := s.site.Permits about

variable {s : Store}

theorem view_within {α : Type} {f : Store → Except Fault α} (h : Asks (s.site.Permits about) f s) :
    Within (permits about) (view f) s := .of_asks h

theorem ask_within {α : Type} {f : Registry → Files → Except Fault α × Registry}
    (hBare : ∀ r fs, (f r fs).2.bare = r.bare)
    (h : Asks (s.site.Permits about) (f s.registry) s.files) :
    Within (permits about) (ask f) s := by
  have hAsks : Asks (s.site.Permits about) (fun t : Store => f s.registry t.files) s := .of_files h
  have hSite : (ask f s).2.site = s.site := Registry.site_eq_of_bare (hBare _ _)
  refine ⟨congrArg (Site.Permits · about) hSite, .of_asks hAsks fun fs hSame => ?_⟩
  unfold ask
  rw [show f (withFiles s fs).registry (withFiles s fs).files = f s.registry s.files from hSame]
  rfl

theorem change_site {f : Store → Except IoFault Files} {obstacle : Option IoFault} {t : Store}
    {answer : Except Fault Unit} (h : change f obstacle s = (answer, t)) : t.site = s.site := by
  have hKept := change_registry f obstacle s
  rw [h] at hKept
  exact congrArg Registry.site hKept

theorem change_within {c : FileCall} {f : Store → Except IoFault Files} (obstacle : Option IoFault)
    (hPermitted : s.site.Permits about c)
    (hCall : ∀ fs, c.run fs = FileCall.changed fs (f (withFiles s fs))) :
    Within (permits about) (change f obstacle) s := by
  cases obstacle with
  | some fault => exact ⟨rfl, .blind fun _ => rfl⟩
  | none =>
    have hKept := congrArg Registry.site (change_registry f none s)
    refine ⟨congrArg (Site.Permits · about) hKept, .of_call hPermitted fun fs hAlike => ?_⟩
    have hHere : c.run (HasFiles.files s) = FileCall.changed s.files (f s) := hCall s.files
    rw [hCall, hHere] at hAlike
    rw [hCall]
    unfold change
    cases hOther : f (withFiles s fs) <;> cases hOwn : f s <;> rw [hOther, hOwn] at hAlike <;>
      cases hAlike <;> rfl

/-- Writing to a draft, and then giving it the name of the file unless that is broken off. -/
theorem placeFile_eq (draft target : String) (bytes : List UInt8)
    {obstacle : PlacingStep → Option IoFault} (hOpened : obstacle .openDraft = none) :
    ∃ (part : List UInt8) (rest : StoreWork Unit), placeFile draft target bytes obstacle =
        ((change fun s => s.files.write s.now (s.site.seen draft) part) >>= fun _ => rest) ∧
      ((∃ f, rest = throw f) ∨ rest =
        change (fun s => s.files.rename (s.site.seen draft) (s.site.seen target)) (obstacle .rename)) := by
  have hWrite : ∀ (part : List UInt8) (rest : StoreWork Unit),
      (∀ id s, (writeBytes id bytes obstacle >>= fun _ => change
          (fun s => s.files.rename (s.site.seen draft) (s.site.seen target)) (obstacle .rename)) s =
        rest { s with files := s.files.append s.now id part }) →
      placeFile draft target bytes obstacle =
        (change fun s => s.files.write s.now (s.site.seen draft) part) >>= fun _ => rest := by
    intro part rest hRest
    funext s
    rw [placeFile_apply, hOpened]
    cases hOpen : s.files.openEmpty s.now (s.site.seen draft) with
    | error fault =>
      have hFails : change (fun s => s.files.write s.now (s.site.seen draft) part) none s =
          (.error (.io fault), s) := by
        simp [change, Files.write, hOpen, bind, Except.bind]
      rw [Work.bind_error hFails]
    | ok opened =>
      have hWritten : change (fun s => s.files.write s.now (s.site.seen draft) part) none s =
          (.ok (), { s with files := opened.2.append s.now opened.1 part }) := by
        simp [change, Files.write, hOpen, bind, Except.bind]
      rw [Work.bind_ok hWritten]
      exact hRest opened.1 { s with files := opened.2 }
  cases hStops : (List.range bytes.length).findSome? fun i =>
      (obstacle (.writeByte i)).map fun fault => (i, fault) with
  | none =>
    refine ⟨bytes, _, hWrite bytes _ fun id s => ?_, Or.inr rfl⟩
    have hDone : writeBytes id bytes obstacle s =
        (.ok (), { s with files := s.files.append s.now id bytes }) := by
      unfold writeBytes
      rw [hStops]
    exact Work.bind_ok hDone
  | some stop =>
    refine ⟨bytes.take stop.1, throw (.io stop.2), hWrite _ _ fun id s => ?_, Or.inl ⟨_, rfl⟩⟩
    have hFails : writeBytes id bytes obstacle s =
        (.error (.io stop.2), { s with files := s.files.append s.now id (bytes.take stop.1) }) := by
      unfold writeBytes
      rw [hStops]
    exact Work.bind_error hFails

theorem placeFile_within {draft target : String} (hDraft : s.site.Manages about draft)
    (hTarget : s.site.Manages about target) (bytes : List UInt8)
    (obstacle : PlacingStep → Option IoFault) :
    Within (permits about) (placeFile draft target bytes obstacle) s := by
  cases hOpened : obstacle .openDraft with
  | some fault =>
    have hSame : placeFile draft target bytes obstacle = throw (.io fault) := by
      funext s
      rw [placeFile_apply, hOpened]
      rfl
    rw [hSame]
    exact .throw _
  | none =>
    obtain ⟨part, rest, hSame, hRest⟩ := placeFile_eq draft target bytes hOpened
    rw [hSame]
    have hWrite : Within (permits about)
        (change fun s => s.files.write s.now (s.site.seen draft) part) s :=
      change_within (c := .write s.now (s.site.seen draft) part) none ⟨_, hDraft, rfl⟩ fun _ => rfl
    refine hWrite.bind fun _ t hDone => ?_
    have hSite : t.site = s.site := change_site hDone
    rcases hRest with ⟨f, rfl⟩ | rfl
    · exact .throw f
    · rw [← hSite] at hDraft hTarget
      exact change_within (c := .rename (t.site.seen draft) (t.site.seen target)) _
        ⟨⟨_, hDraft, rfl⟩, _, hTarget, rfl⟩ fun _ => rfl

theorem forget_within (n : ScriptName) : Within (permits about) (forget n) s :=
  ⟨rfl, .blind fun _ => rfl⟩

/-- **An upload asks for the script that its file name names**, for the draft and for the names of the
other scripts, whatever the host fails at. -/
theorem saveUpload_within {fileName : String} (hAbout : ∀ n, parseName fileName = .ok n → about n)
    (bytes : List UInt8) (obstacle : PlacingStep → Option IoFault) :
    Within (permits about) (saveUpload fileName bytes obstacle) s := by
  have hParse : Within (permits about) (view fun _ => parseName fileName) s := view_within (.const _)
  unfold saveUpload
  refine hParse.bind fun n t hParsed => ?_
  have hn : about n := hAbout n (congrArg Prod.fst hParsed)
  split
  · have hKnown : Within (permits about) (view (knownModules (obstacle .readNames))) t := by
      refine view_within ?_
      cases obstacle .readNames with
      | some fault => exact .const _
      | none => exact .of_files (Registry.modules_asks t.registry t.files)
    refine hKnown.bind fun known t _ => ?_
    refine .get (fun _ => rfl) ?_
    simp only
    split
    · exact .pure _
    · have hMake : Within (permits about) (change (fun s => s.files.makeDirectories
          (t.registry.site.seen t.registry.site.scriptsDir)) (obstacle .makeDirectory)) t :=
        change_within (c := .makeDirectories _) _ ⟨_, .scripts, rfl⟩ fun _ => rfl
      refine hMake.bind fun _ t' hMade => ?_
      have hSite : t'.site = t.registry.site := change_site hMade
      rw [← hSite]
      refine (placeFile_within (.upload hn) (.script hn) bytes obstacle).bind fun _ t _ => ?_
      exact (forget_within n).bind fun _ _ _ => .pure _
  · exact .throw _

/-- Removing a managed file. -/
theorem remove_within {path : String} (hPath : s.site.Manages about path) {α : Type}
    {work : Store → Except Fault α × Store} (g : Except IoFault Unit → Except Fault α)
    (hWork : ∀ fs, work (withFiles s fs) = match fs.remove (s.site.seen path) with
      | .ok files => (g (.ok ()), withFiles s files)
      | .error fault => (g (.error fault), withFiles s fs)) :
    Within (permits about) work s := by
  have hHere := hWork s.files
  rw [show withFiles s s.files = s from rfl] at hHere
  have hKept : permits about (work s).2 = permits about s := by
    rw [hHere]
    cases s.files.remove (s.site.seen path) <;> rfl
  refine ⟨hKept, .of_call (c := .remove (s.site.seen path)) ⟨_, hPath, rfl⟩ fun fs hAlike => ?_⟩
  have hAlike : (FileCall.changed fs (fs.remove (s.site.seen path))).1 =
    (FileCall.changed s.files (s.files.remove (s.site.seen path))).1 := hAlike
  rw [hWork, hHere]
  show _ = (_, withFiles _ (FileCall.changed fs (fs.remove (s.site.seen path))).2)
  cases hOther : fs.remove (s.site.seen path) <;> cases hOwn : s.files.remove (s.site.seen path) <;>
    rw [hOther, hOwn] at hAlike <;> cases hAlike <;> rfl

theorem removeScript_within (hn : about n) : Within (permits about) (removeScript n) s :=
  remove_within (.script hn) (·.mapError (Fault.ofHost n.text)) fun _ => rfl

theorem removeLog_within (hn : about n) : Within (permits about) (removeLog n) s := by
  refine remove_within (.log hn) (fun _ => .ok ()) fun fs => ?_
  unfold removeLog
  rw [Work.modify_apply]
  show (_, (match fs.remove (s.site.seen (s.site.logPath n)) with | .ok _ => _ | .error _ => _)) = _
  cases fs.remove (s.site.seen (s.site.logPath n)) <;> rfl

theorem deleteScript_within (hn : about n) : Within (permits about) (deleteScript n) s :=
  (removeScript_within hn).bind fun _ _ _ =>
    (forget_within n).bind fun _ _ _ => removeLog_within hn

theorem designated_within : Within (permits about) (view designated) s := by
  refine view_within (.of_files ?_)
  refine (Files.read_asks s.files (P := s.site.Permits about) ⟨_, .designation, rfl⟩).decides
    fun fs hSame => ?_
  show designated { s with files := fs } = designated s
  simp only [designated, Files.readText, site] at hSame ⊢
  rw [hSame]

/-- What it comes to that the file of the designation was to be removed. That there is none is no
failure. -/
def cleared : Except IoFault Unit → Except Fault Unit
  | .ok _ | .error .notFound => .ok ()
  | .error fault => .error (.io fault)

theorem clearDesignation_within : Within (permits about) clearDesignation s := by
  refine remove_within .designation cleared fun fs => ?_
  unfold clearDesignation
  rw [show (withFiles s fs).files.remove ((withFiles s fs).site.seen (withFiles s fs).site.autobootFile) =
    fs.remove (s.site.seen s.site.autobootFile) from rfl]
  cases fs.remove (s.site.seen s.site.autobootFile) with
  | ok files => rfl
  | error fault => cases fault <;> rfl

theorem clearDesignationOf_within (name : String) :
    Within (permits about) (clearDesignationOf name) s := by
  unfold clearDesignationOf
  refine designated_within.bind fun found t _ => ?_
  split
  · exact .pure _
  · exact clearDesignation_within.bind fun _ _ _ => .pure _

/-- **A deletion asks for the script and its log**, and for the designation. -/
theorem retireScript_within (hn : about n) : Within (permits about) (retireScript n) s :=
  (deleteScript_within hn).bind fun _ _ _ =>
    (clearDesignationOf_within n.text).bind fun _ _ _ => .pure _

theorem writeDesignation_within (n : ScriptName) : Within (permits about) (writeDesignation n) s := by
  unfold writeDesignation
  refine .get (fun _ => rfl) ?_
  simp only
  cases hDirectory : s.site.designationDir? with
  | none => exact placeFile_within .designationDraft .designation _ _
  | some directory =>
    have hMake : Within (permits about)
        (change fun t => t.files.makeDirectories (s.site.seen directory)) s :=
      change_within (c := .makeDirectories _) none ⟨_, .designation hDirectory, rfl⟩ fun _ => rfl
    refine hMake.bind fun _ t hMade => ?_
    have hSite : t.site = s.site := change_site hMade
    rw [← hSite]
    exact placeFile_within .designationDraft .designation _ _

/-- **A choice of the script to be run at boot asks whether the script is there**, and for the
designation. -/
theorem setAutoboot_within (hn : about n) (enabled : Bool) :
    Within (permits about) (setAutoboot n enabled) s := by
  have hThere : Within (permits about) (view fun s => .ok (s.registry.hasFile s.files n)) s :=
    view_within ((Asks.of_files (Registry.hasFile_asks s.registry s.files hn)).map Except.ok)
  have hDesignate : Within (permits about) (designate n) s := by
    unfold designate
    refine hThere.bind fun there t _ => ?_
    split
    · exact (Within.throw _).bind fun _ t _ => writeDesignation_within n
    · exact writeDesignation_within n
  unfold setAutoboot
  simp only
  split
  · exact hDesignate.bind fun _ _ _ => designated_within
  · refine Within.bind ?_ fun _ _ _ => designated_within
    exact (clearDesignationOf_within n.text).bind fun _ _ _ => .pure _

end Store

-- ---------------------------------------------------------------------------
-- Deployments
-- ---------------------------------------------------------------------------

namespace Deployment

/-- What may be asked for about some scripts, where a service runs. -/
def permits (about : ScriptName → Prop) (d : Deployment) : FileCall → Prop :=
  d.service.registry.site.Permits about

variable {d : Deployment} {α : Type}

theorem host_withFiles (d : Deployment) (fs : Files) : (withFiles d fs).host = withFiles d.host fs := rfl

theorem service_withFiles (d : Deployment) (fs : Files) : (withFiles d fs).service = d.service := rfl

/-- A deployment after something was done to its store. -/
def afterStore (d : Deployment) (outcome : Except Fault α × Store) : Except Fault α × Deployment :=
  (outcome.1, { d with
    host := { d.host with files := outcome.2.files }
    service := { d.service with registry := outcome.2.registry } })

theorem onStore_within {work : StoreWork α} (h : Within (Store.permits about) work d.store) :
    Within (permits about) (onStore work) d := by
  obtain ⟨hKept, calls, hPermitted, h⟩ := h
  refine ⟨hKept, calls, hPermitted, fun fs hAlike => ?_⟩
  have hSame : work (withFiles d.store fs) = _ := h fs hAlike
  show afterStore (withFiles d fs) (work (withFiles d.store fs)) = _
  rw [hSame]
  rfl

theorem view_within {f : Deployment → Except Fault α} (h : Asks (permits about d) f d) :
    Within (permits about) (view f) d := .of_asks h

/-- A change of the state that has nothing to do with files. -/
theorem modify_within {g : Deployment → Deployment}
    (hSite : (g d).service.registry.site = d.service.registry.site)
    (hBlind : ∀ fs, g (withFiles d fs) = withFiles (g d) fs) :
    Within (permits about) (modify g : DeploymentWork PUnit) d :=
  ⟨congrArg (Site.Permits · about) hSite, .blind fun fs => Prod.ext rfl (hBlind fs)⟩

theorem designated_within : Within (permits about) (onStore (Store.view Store.designated)) d :=
  onStore_within Store.designated_within

-- ---------------------------------------------------------------------------
-- Scripts
-- ---------------------------------------------------------------------------

theorem listScripts_within (hAll : ∀ n, about n) : Within (permits about) listScripts d := by
  refine designated_within.bind fun designated d _ => .get (fun _ => rfl) ?_
  exact onStore_within (Store.ask_within (fun r fs => Registry.records_bare r fs _ _)
    (Registry.records_asks _ _ _ _ hAll))

theorem scriptRecord_within (hn : about n) : Within (permits about) (scriptRecord n) d := by
  refine designated_within.bind fun designated d _ => .get (fun _ => rfl) ?_
  exact onStore_within (Store.ask_within (fun r fs => Registry.record_bare r fs _ _ n)
    (Registry.record_asks _ _ _ _ hn))

theorem saveUpload_within {fileName : String} (hAbout : ∀ n, parseName fileName = .ok n → about n)
    (bytes : List UInt8) : Within (permits about) (saveUpload fileName bytes) d := by
  refine (view_within (.const _)).bind fun n d _ => ?_
  refine (view_within ?_).bind fun _ d _ => onStore_within (Store.saveUpload_within hAbout bytes _)
  exact Confined.blind fun _ => rfl

theorem deleteScript_within (hn : about n) : Within (permits about) (deleteScript n) d := by
  refine (view_within ?_).bind fun _ d _ => onStore_within (Store.retireScript_within hn)
  exact Confined.blind fun _ => rfl

theorem setAutoboot_within (hn : about n) (enabled : Bool) :
    Within (permits about) (setAutoboot n enabled) d :=
  onStore_within (Store.setAutoboot_within hn enabled)

-- ---------------------------------------------------------------------------
-- Sessions
-- ---------------------------------------------------------------------------

theorem get_within (n : ScriptName) : Within (permits about) (view fun d => d.service.get n) d :=
  view_within (.blind fun _ => rfl)

theorem setSession_within (session : Session) :
    Within (permits about) (modify fun d => d.setSession session : DeploymentWork PUnit) d :=
  modify_within rfl fun _ => rfl

theorem stop_within (n : ScriptName) : Within (permits about) (stop n) d :=
  (get_within n).bind fun session _ _ => setSession_within session.requestStop

theorem queueInput_within (session : Session) (bytes : List UInt8) :
    Within (permits about) (queueInput session bytes) d :=
  (view_within (.const _)).bind fun session _ _ => setSession_within session

theorem sendInput_within (n : ScriptName) (bytes : List UInt8) :
    Within (permits about) (sendInput n bytes) d :=
  (get_within n).bind fun session _ _ => queueInput_within session bytes

theorem subscribe_within (session : Session) : Within (permits about) (subscribe session) d :=
  (setSession_within session.subscribe.2).bind fun _ _ _ => .pure _

theorem watch_within (n : ScriptName) : Within (permits about) (watch n) d :=
  (get_within n).bind fun session _ _ => (subscribe_within session).bind fun _ _ _ => .pure _

theorem check_within (hn : about n) : Within (permits about) (check n) d := by
  refine (onStore_within (Store.ask_within (fun r fs => Registry.verdict_bare r fs n)
    (Registry.verdict_asks _ _ hn))).bind fun verdict d _ => ?_
  split
  · exact .throw _
  · exact .pure _

/-- A spawn asks where the interpreter is and whether the directory of the scripts is there. -/
theorem spawn_within (n : ScriptName) : Within (permits about) (spawn n) d := by
  have hHost : Asks (permits about d) (fun fs => (withFiles d.host fs).opening
      d.service.config.interpreter (scriptArguments d.service.config d.service.registry.site n)
      (d.service.registry.site.seen d.service.registry.site.scriptsDir)) d.host.files :=
    Asks.files_iff.mpr (Host.opening_asks (fun _ => trivial) d.host _ _ _)
  have hOpening : Asks (permits about d) (fun d : Deployment => d.host.opening
      d.service.config.interpreter (scriptArguments d.service.config d.service.registry.site n)
      (d.service.registry.site.seen d.service.registry.site.scriptsDir)) d := .of_files hHost
  refine ⟨?_, .of_asks hOpening fun fs hSame => ?_⟩
  · unfold spawn
    simp only
    split <;> rfl
  · -- the pipes that are made before have nothing to do with files
    have hSame : (withFiles d.host.makePipe.2.makePipe.2.makePipe.2 fs).opening
        d.service.config.interpreter (scriptArguments d.service.config d.service.registry.site n)
        (d.service.registry.site.seen d.service.registry.site.scriptsDir) =
      d.host.makePipe.2.makePipe.2.makePipe.2.opening d.service.config.interpreter
        (scriptArguments d.service.config d.service.registry.site n)
        (d.service.registry.site.seen d.service.registry.site.scriptsDir) := hSame
    unfold spawn
    simp only [host_withFiles, service_withFiles, Host.makePipe_withFiles, Host.environment_withFiles,
      Host.spawn_withFiles hSame]
    cases d.host.makePipe.2.makePipe.2.makePipe.2.spawn d.service.config.interpreter
      (scriptArguments d.service.config d.service.registry.site n) _ _ _ <;> rfl

theorem reserve_within (n : ScriptName) : Within (permits about) (reserve n) d := by
  have hSame : ∀ fs, reserve n (withFiles d fs) = ((reserve n d).1, withFiles (reserve n d).2 fs) := by
    intro fs
    unfold reserve
    rw [show (withFiles d fs).slots = d.slots from rfl]
    cases d.slots.reserve n <;> rfl
  refine ⟨?_, .blind hSame⟩
  unfold reserve
  cases d.slots.reserve n <;> rfl

theorem start_eq (n : ScriptName) : start n = reserve n >>= fun _ => MonadExcept.tryCatch
    (check n >>= fun _ => spawn n >>= fun session => modify (publish session) >>= fun _ => pure session)
    fun fault => modify (vacate n) >>= fun _ => throw fault := by
  funext d
  rw [start_apply, Work.bind_apply]
  rcases reserve n d with ⟨f | _, d⟩
  · rfl
  · simp only [Work.tryCatch_apply, Work.bind_apply]
    rcases check n d with ⟨f | _, d⟩
    · rfl
    · simp only
      rcases spawn n d with ⟨f | session, d⟩ <;> rfl

/-- **A start asks for its script**, and for the names of the others. -/
theorem start_within (hn : about n) : Within (permits about) (start n) d := by
  rw [start_eq]
  refine (reserve_within n).bind fun _ d _ => .tryCatch ?_ fun fault d _ => ?_
  · refine (check_within hn).bind fun _ d _ => (spawn_within n).bind fun session d _ => ?_
    exact (modify_within rfl fun _ => rfl).bind fun _ _ _ => .pure _
  · exact (modify_within rfl fun _ => rfl).bind fun _ _ _ => .throw _

-- ---------------------------------------------------------------------------
-- Supervisors
-- ---------------------------------------------------------------------------

/-- The call that writes the log of a session. -/
def logCall (d : Deployment) (x : Session) (exit : Exit) : FileCall :=
  .write d.host.now.timestamp (d.service.registry.site.seen (d.service.registry.site.logPath x.name))
    (encodeUtf8 (x.logText exit))

/-- A log is written unless its directory cannot be made. -/
theorem writeLog_eq (d : Deployment) (x : Session) (exit : Exit) : d.writeLog x exit =
    match d.service.registry.site.makeLogDir d.host.files x.name with
    | .ok fs => withFiles d ((d.logCall x exit).run fs).2
    | .error _ => d := by
  rw [writeLog_apply]
  cases d.service.registry.site.makeLogDir d.host.files x.name with
  | error f => rfl
  | ok fs =>
    simp only [Except.bind, logCall, FileCall.run, FileCall.changed]
    cases fs.write _ _ _ <;> rfl

/-- A log is written where logs of its script lie, after the directory was made. -/
theorem writeLog_within {x : Session} (hx : about x.name) (exit : Exit) :
    Within (permits about) (fun d => ((), d.writeLog x exit)) d := by
  refine ⟨?_, ?_⟩
  · rw [writeLog_eq]
    split <;> rfl
  have hWrite : ∀ t : Deployment, Confined (permits about d) (fun t : Deployment =>
      ((), withFiles t ((d.logCall x exit).run (HasFiles.files t)).2)) t := fun t =>
    (Confined.make (c := d.logCall x exit) ⟨_, .log hx, rfl⟩).seq (k := fun _ t => ((), t))
      (.blind fun _ => rfl)
  have hEq : ∀ fs, (withFiles d fs).writeLog x exit =
      match d.service.registry.site.makeLogDir fs x.name with
      | .ok fs => withFiles d ((d.logCall x exit).run fs).2
      | .error _ => withFiles d fs := fun fs => writeLog_eq (withFiles d fs) x exit
  cases hParent : Files.parentPath? (d.service.registry.site.logPath x.name) with
  | none =>
    refine (hWrite d).congr fun fs => ?_
    rw [hEq, Site.makeLogDir, hParent]
    rfl
  | some directory =>
    have hMake : Confined (permits about d) _ d := Confined.make
      (c := .makeDirectories (d.service.registry.site.seen directory)) ⟨_, .logs hx hParent, rfl⟩
    have hBoth := hMake.seq (k := fun answer t =>
      if answer.isOk then ((), withFiles t ((d.logCall x exit).run (HasFiles.files t)).2)
      else ((), t)) <| by
        split
        · exact hWrite _
        · exact .blind fun _ => rfl
    refine hBoth.congr fun fs => ?_
    rw [hEq, Site.makeLogDir, hParent]
    simp only [FileCall.run, files_withFiles]
    cases fs.makeDirectories (d.service.registry.site.seen directory) <;> rfl

theorem perform_within {x : Session} (hx : about x.name) (act : SupervisorAct) :
    Within (permits about) (fun d => ((), d.perform x act)) d := by
  cases act with
  | reap =>
    refine ⟨rfl, .blind fun fs => ?_⟩
    unfold perform
    simp only [host_withFiles, Host.reap?_withFiles]
    cases d.host.reap? x.pid <;> rfl
  | signal number =>
    refine ⟨rfl, .blind fun fs => ?_⟩
    unfold perform
    simp only [host_withFiles, Host.signal_withFiles]
    cases d.host.signal x.pid number <;> rfl
  | writeLog exit => exact writeLog_within hx exit
  | abandon stream => exact ⟨rfl, .blind fun _ => rfl⟩
  | closeInput => exact ⟨rfl, .blind fun _ => rfl⟩
  | leave => exact ⟨rfl, .blind fun _ => rfl⟩
  | announce exit => exact ⟨rfl, .blind fun _ => rfl⟩
  | nothing => exact ⟨rfl, .blind fun _ => rfl⟩

/-- **A supervisor asks for the log of its script**, whatever step it takes. -/
theorem supervise_within {id : Nat} (stopFirst : Bool)
    (hAbout : ∀ x, d.service.session? id = some x → about x.name) :
    Within (permits about) (fun d => ((), (d.superviseSeeing? id stopFirst).getD d)) d := by
  -- what a supervisor does next does not depend on the files
  have hDoes : ∀ fs, (withFiles d fs).superviseSeeing? id stopFirst =
      (d.act? id stopFirst).map fun next =>
        ((withFiles d fs).setSession next.1).perform next.1 next.2 := by
    intro fs
    refine Option.ext fun d' => superviseSeeing?_eq_some.trans ?_
    simp only [Option.map_eq_some_iff, Prod.exists]
    exact exists₂_congr fun x act => and_congr_right fun _ => eq_comm
  cases hNext : d.act? id stopFirst with
  | none =>
    have hNothing : Within (permits about) (fun d : Deployment => ((), d)) d :=
      ⟨rfl, .blind fun _ => rfl⟩
    exact hNothing.congr fun fs => by rw [hDoes, hNext]; rfl
  | some next =>
    obtain ⟨x, act⟩ := next
    have hx : about x.name := by
      obtain ⟨s, -, supervision, hSession, -, -, rfl⟩ := act?_cases hNext
      exact hAbout s hSession
    have hSet : Within (permits about) (fun d : Deployment => ((), d.setSession x)) d :=
      ⟨rfl, .blind fun _ => rfl⟩
    refine (hSet.seq (k := fun _ t => ((), t.perform x act)) (perform_within hx act)).congr fun fs => ?_
    rw [hDoes, hNext]
    rfl

-- ---------------------------------------------------------------------------
-- Processes that the service did not start
-- ---------------------------------------------------------------------------

section

variable {P : FileCall → Prop} (hLocate : ∀ path, P (.locate path)) (fs : Files)

include hLocate

theorem realBytes_asks (path : List UInt8) : Asks P (Scanner.realBytes? · path) fs := by
  unfold Scanner.realBytes?
  cases decodeUtf8? path with
  | none => exact .const _
  | some text =>
    exact (Files.realPath_asks fs (hLocate text)).map fun real => real.toOption.map encodeUtf8

theorem argumentScript_asks (workingDir : Option (List UInt8)) (directory : BytePath)
    (argument : List UInt8) : Asks P
      (fun fs => argumentScript? (Scanner.realBytes? fs) workingDir directory argument) fs := by
  unfold argumentScript?
  split
  · exact .const _
  · simp only
    generalize (if BytePath.isAbsolute argument = true then some argument
      else workingDir.map (BytePath.join · argument)) = seen
    cases seen with
    | none => exact .const _
    | some path =>
      refine (realBytes_asks hLocate fs path).decides fun fs' hSame => ?_
      rw [Option.bind_some, Option.bind_some, hSame]

theorem managedScript_asks (scanner : Scanner) (p : ProcessInfo) :
    Asks P (scanner.managedScript? · p) fs := by
  have hCommand : Asks P (fun fs => commandScript? (Scanner.realBytes? fs) p.command p.workingDir
      (encodeUtf8 scanner.directory)) fs :=
    .findSome? fun argument _ => argumentScript_asks hLocate fs _ _ argument
  cases hFound : commandScript? (Scanner.realBytes? fs) p.command p.workingDir
      (encodeUtf8 scanner.directory) with
  | none =>
    refine hCommand.decides fun fs' hSame => ?_
    unfold Scanner.managedScript?
    rw [hSame, hFound]
    rfl
  | some name =>
    have hThere := Files.isFile_located fs (hLocate (joinPath scanner.directory name))
    refine hCommand.decide₂ hThere fun fs' hSame hFile => ?_
    unfold Scanner.managedScript?
    rw [hSame, hFound]
    simp only [Option.filter, hFile]

theorem scan_asks (scanner : Scanner) (self : UInt32) (owned : List UInt32) (table : List ProcessInfo) :
    Asks P (scanner.scan · self owned table) fs := by
  have hEach : Asks P (fun fs => table.filterMap (scanner.external? fs self owned)) fs := by
    refine .filterMap fun p _ => ?_
    unfold Scanner.external?
    split
    · exact .const _
    · exact (managedScript_asks hLocate fs scanner p).map _
  exact hEach.map fun told => told.mergeSort fun a b => decide (a.pid ≤ b.pid)

theorem scanner_identify_asks (scanner : Scanner) (table : List ProcessInfo) (pid : UInt32) :
    Asks P (scanner.identify · table pid) fs := by
  unfold Scanner.identify
  cases table.find? (·.pid == pid) with
  | none => exact .const _
  | some p =>
    exact (managedScript_asks hLocate fs scanner p).decides fun fs' hSame => by simp only [hSame]

end

theorem externalProcesses_asks : Asks (permits about d) externalProcesses d := by
  have hScan : Asks (permits about d) (fun fs => d.service.scanner.scan fs d.host.self
      d.service.ownedPids d.host.processTable) d.host.files := scan_asks (fun _ => trivial) _ _ _ _ _
  exact .of_files hScan

theorem sendSignal_within (pid : UInt32) (number : Nat) :
    Within (permits about) (sendSignal pid number) d := by
  refine ⟨?_, .blind fun fs => ?_⟩
  · unfold sendSignal
    split <;> rfl
  · unfold sendSignal
    simp only [host_withFiles, Host.signal_withFiles]
    cases d.host.signal pid number with
    | ok host => rfl
    | error fault => cases fault <;> rfl

theorem identify_asks (pid : UInt32) : Asks (permits about d) (·.identify pid) d := by
  have hFiles : Asks (permits about d) (fun fs => d.service.scanner.identify fs d.host.processTable pid)
      d.host.files := scanner_identify_asks (fun _ => trivial) _ _ _ _
  exact .of_files hFiles

/-- To end a process that runs a script, the service asks where its script lies, and opens nothing. -/
theorem beginTermination_within (pid : UInt32) :
    Within (permits about) (beginTermination pid) d := by
  have hBegin : Within (permits about) (view fun d => Termination.begin pid d.host.self
      d.service.ownedPids d.service.scanner.gracePeriod d.host.now (d.identify pid)) d := by
    refine view_within ((identify_asks pid).determines fun fs hSame => ?_)
    rw [hSame]
    rfl
  exact hBegin.bind fun t d _ => (sendSignal_within pid _).bind fun _ _ _ => .pure _

/-- What is done about a process that was looked at again. -/
def carryOn (t : Termination) : TerminationStep → Deployment → Option Moment × Deployment
  | .wait moment, d => (some moment, d)
  | .finished, d => (none, d)
  | .kill, d => (none, (sendSignal t.pid Signal.kill d).2)

theorem goOnTermination_eq (t : Termination) (d : Deployment) : goOnTermination t d =
    carryOn t (t.next d.host.now (d.host.isAlive t.pid) (d.identify t.pid)) d := by
  unfold goOnTermination
  cases t.next d.host.now (d.host.isAlive t.pid) (d.identify t.pid) <;> rfl

/-- The same when it looks at the process again. -/
theorem goOnTermination_within (t : Termination) :
    Within (permits about) (goOnTermination t) d := by
  have hSignal : ∀ d : Deployment, Within (permits about)
      (fun d : Deployment => ((none : Option Moment), (sendSignal t.pid Signal.kill d).2)) d := fun d =>
    (sendSignal_within t.pid Signal.kill).seq (k := fun _ d => (none, d)) ⟨rfl, .blind fun _ => rfl⟩
  have hRest : ∀ next, Within (permits about) (carryOn t next) d := by
    intro next
    cases next with
    | wait moment => exact ⟨rfl, .blind fun _ => rfl⟩
    | finished => exact ⟨rfl, .blind fun _ => rfl⟩
    | kill => exact hSignal d
  exact ((Within.of_asks (identify_asks t.pid)).seq (k := fun found =>
    carryOn t (t.next d.host.now (d.host.isAlive t.pid) found)) (hRest _)).congr fun fs =>
      goOnTermination_eq t (withFiles d fs)

end Deployment

end ScriptWarden
