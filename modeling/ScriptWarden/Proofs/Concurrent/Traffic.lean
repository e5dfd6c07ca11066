import ScriptWarden.Proofs.Files.Drafts
import ScriptWarden.Proofs.Remembering

/-!
# Readings and uploads, step by step

Readings of scripts do not wait for each other, and not for uploads. A reading looks at the file of
its script, asks what is remembered for the file as it looked, and where that is nothing reads the
file, judges it and remembers the analysis. An upload opens a draft, writes it, gives it the name of
the script, and lets what is remembered of the script be forgotten. Each of these is one step, and
the steps of any number of readings and of uploads of several scripts may come between each other;
uploads of one script wait for each other. Verdicts, records and lists are made of readings, and a
list lets what is remembered of other scripts be forgotten.

* `Traffic` — a store with the readings and uploads that are under way.
* `Traffic.Step`, `Traffic.Reaches` — single steps and runs; the clock may show any time.

## Results

* `reading_alone` — a reading that nothing comes between is an analysis.
* `verdict_alone`, `record_alone`, `records_alone` — so are verdicts, records and lists.
* `upload_alone` — the steps of an upload, in a row.
-/

namespace ScriptWarden

-- ---------------------------------------------------------------------------
-- What is under way
-- ---------------------------------------------------------------------------

/-- How far a reading has come. -/
inductive ReadingStage where
  | begun
  /-- The file has been looked at. -/
  | looked (info : FileInfo)
  /-- Nothing is remembered for the file as it was looked at. -/
  | unknown (info : FileInfo)
  /-- The file has been read and judged; the analysis is to be remembered. -/
  | judged (info : FileInfo) (a : Analysis)
  | answered (found : Except Fault (FileInfo × Analysis))

/-- A reading of a script. How many contents the script had been given, when it began, up to the
last upload that had been answered, is kept for statements only. -/
structure ScriptReading where
  script : ScriptName
  since : Nat
  stage : ReadingStage

/-- How far an upload has come. -/
inductive UploadStage where
  | opened (draft : FileId)
  | written (draft : FileId) (bytes : List UInt8)
  /-- The draft has the name of the script; what is remembered is to be forgotten. -/
  | placed

/-- A store, the readings under way, each under a number of its own, and the uploads under way. What
uploads have given each script, the oldest first, and how much of it had been given at the last
answer, is kept for statements only. -/
structure Traffic where
  store : Store
  readings : Nat → Option ScriptReading
  uploads : ScriptName → Option UploadStage
  given : ScriptName → List (List UInt8)
  answered : ScriptName → Nat

namespace Traffic

variable {w w' : Traffic} {i : Nat} {n : ScriptName} {id : FileId} {bytes : List UInt8}

def files (w : Traffic) : Files := w.store.files

def registry (w : Traffic) : Registry := w.store.registry

def site (w : Traffic) : Site := w.store.site

/-- A store on which nothing is under way. -/
def quiet (s : Store) : Traffic where
  store := s
  readings := fun _ => none
  uploads := fun _ => none
  given := fun _ => []
  answered := fun _ => 0

def withFiles (w : Traffic) (files : Files) : Traffic := { w with store := { w.store with files } }

def withRegistry (w : Traffic) (registry : Registry) : Traffic :=
  { w with store := { w.store with registry } }

/-- A reading comes to be at something else, or is no longer under way. -/
def withReading (w : Traffic) (i : Nat) (r : Option ScriptReading) : Traffic :=
  { w with readings := fun j => if j = i then r else w.readings j }

/-- An upload comes to be at something else, or is no longer under way. -/
def withUpload (w : Traffic) (n : ScriptName) (u : Option UploadStage) : Traffic :=
  { w with uploads := fun m => if m = n then u else w.uploads m }

/-- The file of a script has got new content. -/
def gives (w : Traffic) (n : ScriptName) (bytes : List UInt8) : Traffic :=
  { w with given := fun m => if m = n then w.given n ++ [bytes] else w.given m }

/-- An upload of a script has been answered. -/
def answer (w : Traffic) (n : ScriptName) : Traffic :=
  { w with answered := fun m => if m = n then (w.given n).length else w.answered m }

theorem withReading_withReading (w : Traffic) (i : Nat) (r r' : Option ScriptReading) :
    (w.withReading i r).withReading i r' = w.withReading i r' := by
  unfold withReading
  congr 1
  funext j
  by_cases hj : j = i <;> simp [hj]

theorem withReading_eq_self {r : Option ScriptReading} (h : w.readings i = r) : w.withReading i r = w := by
  obtain ⟨store, readings, uploads, given, answered⟩ := w
  unfold withReading
  congr 1
  funext j
  by_cases hj : j = i
  · simpa [hj] using h.symm
  · simp [hj]

-- ---------------------------------------------------------------------------
-- Steps
-- ---------------------------------------------------------------------------

/-- What takes a step. -/
inductive Act where
  | read (reading : Nat)
  | retain (there : List ScriptName)
  /-- An upload comes nearer to its end; the file of its script stays. -/
  | upload (n : ScriptName)
  /-- The draft of an upload gets the name of its script. -/
  | place (n : ScriptName)
  | clock

/-- One step of a reading or an upload. -/
inductive Step (w : Traffic) : Act → Traffic → Prop
  | begin {i : Nat} (n : ScriptName) : w.readings i = none →
      Step w (.read i) (w.withReading i (some ⟨n, w.answered n, .begun⟩))
  | look {i : Nat} {n : ScriptName} {since : Nat} {info : FileInfo} :
      w.readings i = some ⟨n, since, .begun⟩ → w.registry.look w.files n = .ok info →
      Step w (.read i) (w.withReading i (some ⟨n, since, .looked info⟩))
  | lookFails {i : Nat} {n : ScriptName} {since : Nat} {f : Fault} :
      w.readings i = some ⟨n, since, .begun⟩ → w.registry.look w.files n = .error f →
      Step w (.read i) (w.withReading i (some ⟨n, since, .answered (.error f)⟩))
  | hit {i : Nat} {n : ScriptName} {since : Nat} {info : FileInfo} {a : Analysis} :
      w.readings i = some ⟨n, since, .looked info⟩ → w.registry.remembered? n info = some a →
      Step w (.read i) (w.withReading i (some ⟨n, since, .answered (.ok (info, a))⟩))
  | miss {i : Nat} {n : ScriptName} {since : Nat} {info : FileInfo} :
      w.readings i = some ⟨n, since, .looked info⟩ → w.registry.remembered? n info = none →
      Step w (.read i) (w.withReading i (some ⟨n, since, .unknown info⟩))
  | judge {i : Nat} {n : ScriptName} {since : Nat} {info : FileInfo} {a : Analysis} :
      w.readings i = some ⟨n, since, .unknown info⟩ → w.registry.judge w.files n = .ok a →
      Step w (.read i) (w.withReading i (some ⟨n, since, .judged info a⟩))
  | judgeFails {i : Nat} {n : ScriptName} {since : Nat} {info : FileInfo} {f : Fault} :
      w.readings i = some ⟨n, since, .unknown info⟩ → w.registry.judge w.files n = .error f →
      Step w (.read i) (w.withReading i (some ⟨n, since, .answered (.error f)⟩))
  | remember {i : Nat} {n : ScriptName} {since : Nat} {info : FileInfo} {a : Analysis} :
      w.readings i = some ⟨n, since, .judged info a⟩ →
      Step w (.read i) ((w.withRegistry (w.registry.remember n info a)).withReading i
        (some ⟨n, since, .answered (.ok (info, a))⟩))
  | leave {i : Nat} {n : ScriptName} {since : Nat} {found : Except Fault (FileInfo × Analysis)} :
      w.readings i = some ⟨n, since, .answered found⟩ → Step w (.read i) (w.withReading i none)
  | retain (there : List ScriptName) :
      Step w (.retain there) (w.withRegistry (w.registry.retain there))
  | openDraft {n : ScriptName} {id : FileId} {files : Files} : w.uploads n = none →
      w.files.openEmpty w.store.now (w.site.seen (w.site.uploadPath n)) = .ok (id, files) →
      Step w (.upload n) ((w.withFiles files).withUpload n (some (.opened id)))
  | write {n : ScriptName} {id : FileId} (bytes : List UInt8) : w.uploads n = some (.opened id) →
      Step w (.upload n) ((w.withFiles (w.files.append w.store.now id bytes)).withUpload n
        (some (.written id bytes)))
  | place {n : ScriptName} {id : FileId} {bytes : List UInt8} {files : Files} :
      w.uploads n = some (.written id bytes) →
      w.files.rename (w.site.seen (w.site.uploadPath n)) (w.site.seen (w.site.scriptPath n)) =
        .ok files →
      Step w (.place n) (((w.withFiles files).withUpload n (some .placed)).gives n bytes)
  | settle {n : ScriptName} : w.uploads n = some .placed →
      Step w (.upload n) (((w.withRegistry (w.registry.forget n)).withUpload n none).answer n)
  /-- An upload fails before its draft got the name of the script. -/
  | abandon {n : ScriptName} : w.uploads n ≠ some .placed → Step w (.upload n) (w.withUpload n none)
  | clock (now : Timestamp) : Step w .clock { w with store := { w.store with now } }

/-- What runs lead to, when every step is one that the condition allows. -/
inductive Reaches (Allowed : Traffic → Act → Traffic → Prop) (w₀ : Traffic) : Traffic → Prop
  | refl : Reaches Allowed w₀ w₀
  | step {w w' : Traffic} {a : Act} :
      Reaches Allowed w₀ w → Step w a w' → Allowed w a w' → Reaches Allowed w₀ w'

/-- No condition on the steps of a run. -/
def AnyStep (_ : Traffic) (_ : Act) (_ : Traffic) : Prop := True

theorem Reaches.next {w₀ : Traffic} {a : Act} (hReach : Reaches AnyStep w₀ w) (hStep : Step w a w') :
    Reaches AnyStep w₀ w' := .step hReach hStep trivial

theorem Reaches.trans {Allowed : Traffic → Act → Traffic → Prop} {w₀ : Traffic}
    (hFirst : Reaches Allowed w₀ w) (hRest : Reaches Allowed w w') : Reaches Allowed w₀ w' := by
  induction hRest with
  | refl => exact hFirst
  | step _ hStep hAllowed ih => exact .step ih hStep hAllowed

-- ---------------------------------------------------------------------------
-- Readings by themselves
-- ---------------------------------------------------------------------------

/-- A reading that nothing comes between is an analysis. -/
theorem reading_alone (hFree : w.readings i = none) (n : ScriptName) :
    Reaches AnyStep w ((w.withRegistry (w.registry.analysis w.files n).2).withReading i
      (some ⟨n, w.answered n, .answered (w.registry.analysis w.files n).1⟩)) := by
  have hSame : w.withRegistry w.registry = w := rfl
  have hBegun : Reaches AnyStep w _ := Reaches.refl.next (.begin n hFree)
  unfold Registry.analysis
  cases hLook : w.registry.look w.files n with
  | error f =>
    simpa only [withReading_withReading, hSame] using hBegun.next (.lookFails (if_pos rfl) hLook)
  | ok info =>
    have hLooked := hBegun.next (.look (if_pos rfl) hLook)
    rw [withReading_withReading] at hLooked
    simp only
    cases hFound : w.registry.remembered? n info with
    | some a =>
      simpa only [withReading_withReading, hSame] using hLooked.next (.hit (if_pos rfl) hFound)
    | none =>
      have hMissed := hLooked.next (.miss (if_pos rfl) hFound)
      rw [withReading_withReading] at hMissed
      simp only
      cases hJudge : w.registry.judge w.files n with
      | error f =>
        simpa only [withReading_withReading, hSame] using
          hMissed.next (.judgeFails (if_pos rfl) hJudge)
      | ok a =>
        have hJudged := hMissed.next (.judge (if_pos rfl) hJudge)
        rw [withReading_withReading] at hJudged
        have hDone := hJudged.next (.remember (if_pos rfl))
        exact (withReading_withReading (w.withRegistry (w.registry.remember n info a)) i _ _) ▸ hDone

/-- An analysis is a reading that is over. -/
theorem analysis_alone (hFree : w.readings i = none) (n : ScriptName) :
    Reaches AnyStep w (w.withRegistry (w.registry.analysis w.files n).2) := by
  have hOver := (reading_alone hFree n).next (.leave (if_pos rfl))
  rw [withReading_withReading] at hOver
  exact (withReading_eq_self (w := w.withRegistry (w.registry.analysis w.files n).2) hFree) ▸ hOver

/-- What a verdict comes to when its reading has been answered. -/
def verdictOn (w : Traffic) (found : Except Fault (FileInfo × Analysis)) : Except Fault Verdict := do
  return (← found).2.resolve (← w.registry.modules w.files)

/-- A verdict is a reading, and what is made of its answer. -/
theorem verdict_alone (hFree : w.readings i = none) (n : ScriptName) :
    ∃ w' found, Reaches AnyStep w w' ∧
      w'.readings i = some ⟨n, w.answered n, .answered found⟩ ∧
      w'.store = { w.store with registry := (w.registry.verdict w.files n).2 } ∧
      w'.verdictOn found = (w.registry.verdict w.files n).1 :=
  ⟨_, _, reading_alone hFree n, if_pos rfl, rfl, rfl⟩

/-- A record is a reading. -/
theorem record_alone (hFree : w.readings i = none) (running : Bool) (designated : Option String)
    (n : ScriptName) :
    Reaches AnyStep w (w.withRegistry (w.registry.record w.files running designated n).2) := by
  unfold Registry.record
  cases w.registry.modules w.files with
  | error f => exact .refl
  | ok known => exact analysis_alone hFree n

theorem recordsAmong_alone (hFree : w.readings i = none) (known : List String)
    (running : ScriptName → Bool) (designated : Option String) (ns : List ScriptName) :
    Reaches AnyStep w
      (w.withRegistry (w.registry.recordsAmong w.files known running designated ns).2) := by
  induction ns generalizing w with
  | nil => exact .refl
  | cons n rest ih =>
    have hFirst : Reaches AnyStep w
        (w.withRegistry (w.registry.recordAmong w.files known (running n) designated n).2) :=
      analysis_alone hFree n
    rw [Registry.recordsAmong_cons]
    rcases hRecord : w.registry.recordAmong w.files known (running n) designated n with ⟨f | first, r⟩
    · rw [hRecord] at hFirst
      cases f with
      | notFound name => exact hFirst.trans (ih (w := w.withRegistry r) hFree)
      | _ => exact hFirst
    · rw [hRecord] at hFirst
      exact hFirst.trans (ih (w := w.withRegistry r) hFree)

/-- A list is as many readings as there are names, and what is forgotten afterwards. -/
theorem records_alone (hFree : w.readings i = none) (running : ScriptName → Bool)
    (designated : Option String) :
    Reaches AnyStep w (w.withRegistry (w.registry.records w.files running designated).2) := by
  unfold Registry.records
  cases w.registry.names w.files with
  | error f => exact .refl
  | ok ns =>
    have hEach := recordsAmong_alone hFree (ns.map ScriptName.module) running designated ns
    simp only
    rcases hRecords : w.registry.recordsAmong w.files (ns.map ScriptName.module) running designated ns
      with ⟨f | rs, r⟩
    · rw [hRecords] at hEach
      exact hEach
    · rw [hRecords] at hEach
      exact hEach.next (.retain ns)

-- ---------------------------------------------------------------------------
-- Uploads by themselves
-- ---------------------------------------------------------------------------

theorem withUpload_withUpload (w : Traffic) (n : ScriptName) (u u' : Option UploadStage) :
    (w.withUpload n u).withUpload n u' = w.withUpload n u' := by
  unfold withUpload
  congr 1
  funext m
  by_cases hm : m = n <;> simp [hm]

theorem withUpload_eq_self {u : Option UploadStage} (h : w.uploads n = u) :
    w.withUpload n u = w := by
  obtain ⟨store, readings, uploads, given, answered⟩ := w
  unfold withUpload
  congr 1
  funext m
  by_cases hm : m = n
  · simpa [hm] using h.symm
  · simp [hm]

/-- Placing a script is an upload that is to be settled, or it fails and the upload is over. -/
theorem place_alone (hFree : w.uploads n = none) (bytes : List UInt8)
    (obstacle : Store.PlacingStep → Option IoFault) :
    match Store.placeFile (w.site.uploadPath n) (w.site.scriptPath n) bytes obstacle w.store with
    | (.ok _, t) =>
      Reaches AnyStep w ((({ w with store := t }).withUpload n (some .placed)).gives n bytes)
    | (.error _, t) => Reaches AnyStep w { w with store := t } := by
  have hFinds := Store.placeFile_cases (w.site.uploadPath n) (w.site.scriptPath n) bytes obstacle
    w.store
  rcases hFinds with ⟨f, hDone⟩ | ⟨id, opened, hOpen, hRest⟩
  · rw [hDone]
    exact .refl
  · have hOpened : Reaches AnyStep w _ := Reaches.refl.next (.openDraft hFree hOpen)
    -- an upload that fails leaves what it has written
    have hFails : ∀ {v : Traffic} {u : UploadStage}, u ≠ .placed → v.uploads n = none →
        Reaches AnyStep w (v.withUpload n (some u)) → Reaches AnyStep w v := by
      intro v u hStage hUpload hReach
      have hNotPlaced : (v.withUpload n (some u)).uploads n ≠ some .placed := by
        simpa [withUpload] using hStage
      have hOver := hReach.next (.abandon hNotPlaced)
      rw [withUpload_withUpload, withUpload_eq_self hUpload] at hOver
      exact hOver
    rcases hRest with ⟨f, part, -, hDone⟩ | ⟨files, hRename, hDone⟩
    · rw [hDone]
      refine hFails (v := w.withFiles (opened.append w.store.now id part))
        (u := .written id part) (by simp) hFree ?_
      rw [← withUpload_withUpload _ n (some (.opened id))]
      exact hOpened.next (.write part (if_pos rfl))
    · rw [hDone]
      have hWritten := hOpened.next (.write bytes (if_pos rfl))
      have hPlaced := hWritten.next (.place (if_pos rfl) hRename)
      have hLast : (((w.withFiles files).withUpload n (some (.opened id))).withUpload n
          (some (.written id bytes))).withUpload n (some .placed) =
          (w.withFiles files).withUpload n (some .placed) := by
        rw [withUpload_withUpload, withUpload_withUpload]
      show Reaches AnyStep w (((w.withFiles files).withUpload n (some .placed)).gives n bytes)
      rw [← hLast]
      exact hPlaced

/-- An upload that nothing comes between. What it saved is the last that the script has been given,
and has been answered. -/
theorem upload_alone (hThere : w.files.isDirectory (w.site.seen w.site.scriptsDir) = true)
    {fileName : String} (hName : parseName fileName = .ok n) (hFree : w.uploads n = none)
    (bytes : List UInt8) (obstacle : Store.PlacingStep → Option IoFault) :
    ∃ w', Reaches AnyStep w w' ∧ w'.store = (Store.saveUpload fileName bytes obstacle w.store).2 ∧
      w'.readings = w.readings ∧ w'.uploads = w.uploads ∧
      ∀ u, (Store.saveUpload fileName bytes obstacle w.store).1 = .ok u → u.savedTo ≠ none →
        w'.given n = w.given n ++ [bytes] ∧ w'.answered n = (w'.given n).length := by
  rcases Store.saveUpload_apply hThere hName bytes obstacle with
    ⟨answer, hNothing, hUnsaved⟩ | ⟨-, verdict, hDone⟩
  · rw [hNothing]
    exact ⟨w, .refl, rfl, rfl, rfl, fun u hOk hSaved => absurd (hUnsaved u hOk) hSaved⟩
  · have hPlace := place_alone hFree bytes obstacle
    rw [hDone]
    rcases hRun : Store.placeFile (w.store.site.uploadPath n) (w.store.site.scriptPath n) bytes
      obstacle w.store with ⟨f | ⟨⟩, t⟩
    · simp only [site, hRun] at hPlace
      refine ⟨_, hPlace, rfl, rfl, rfl, fun u hOk => ?_⟩
      cases hOk
    · simp only [site, hRun] at hPlace
      have hSettled := hPlace.next (.settle (if_pos rfl))
      refine ⟨_, hSettled, rfl, rfl, ?_, fun u _ _ => ⟨?_, ?_⟩⟩
      · funext m
        by_cases hm : m = n
        · simp [answer, withUpload, hm, hFree]
        · simp [answer, withUpload, withRegistry, gives, hm]
      · simp [answer, withUpload, withRegistry, gives]
      · simp [answer, withUpload, withRegistry, gives]

end Traffic

end ScriptWarden
