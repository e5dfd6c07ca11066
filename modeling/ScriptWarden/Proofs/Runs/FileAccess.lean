import ScriptWarden.Proofs.Files.ScriptFiles
import ScriptWarden.Proofs.Runs.Board

/-!
# Who reads and changes files

Most of what is done leaves the host alone. A start reads the file of its script when it checks it.
Of everything else that is done, uploads and deletions change the files of scripts, and the slots of
the scripts keep them out; the designation and the host may change any; and nothing else changes
files at all.

## Results

* `check_ok` — a script that passed its check has a file.
* `move_host`, `move_pipes` — what moves leave of the host.
* `spawn_files`, `move_files` — what leaves files alone.
* `saveUpload_busy`, `deleteScript_busy` — slots keep uploads and deletions out.
-/

namespace ScriptWarden

-- ---------------------------------------------------------------------------
-- Checking
-- ---------------------------------------------------------------------------

/-- What is read of a script is what its file holds. -/
theorem bytes_eq_ok {r : Registry} {fs : Files} {n : ScriptName} {bytes : List UInt8} :
    r.bytes fs n = .ok bytes ↔ r.site.Reads fs n bytes := by
  rw [Registry.bytes, Site.Reads]
  cases fs.read (r.site.seen (r.site.scriptPath n)) with
  | error f =>
    constructor <;> intro h <;> cases h
  | ok b =>
    constructor <;> intro h <;> cases h <;> rfl

/-- A script that is looked at has a file that can be read. -/
theorem look_ok {r : Registry} {fs : Files} {n : ScriptName} {info : FileInfo}
    (h : r.look fs n = .ok info) : ∃ bytes, r.bytes fs n = .ok bytes := by
  unfold Registry.look Files.info at h
  cases hExisting : fs.existing (r.site.seen (r.site.scriptPath n)) with
  | error f => simp [hExisting, bind, Except.bind] at h
  | ok found =>
    obtain ⟨q, e⟩ := found
    obtain ⟨hPlace, hEntry⟩ := Files.existing_eq_ok.mp hExisting
    cases e with
    | file id => exact ⟨_, bytes_eq_ok.mpr (Files.read_eq_ok.mpr ⟨q, id, hPlace, hEntry, rfl⟩)⟩
    | directory => simp [hExisting, bind, Except.bind] at h
    | link t => simp [hExisting, bind, Except.bind] at h

theorem analysis_ok {r : Registry} {fs : Files} {n : ScriptName} {x : FileInfo × Analysis}
    (h : (r.analysis fs n).1 = .ok x) : ∃ bytes, r.bytes fs n = .ok bytes := by
  unfold Registry.analysis at h
  cases hLook : r.look fs n with
  | error f => simp [hLook] at h
  | ok info => exact look_ok hLook

/-- A script that passed its check has a file, whatever was remembered of it. -/
theorem check_ok {n : ScriptName} {d d' : Deployment} (h : Deployment.check n d = (.ok (), d')) :
    ∃ bytes, d.service.registry.bytes d.host.files n = .ok bytes := by
  have hAsked : (Deployment.onStore (Store.ask fun r fs => r.verdict fs n) d).1 =
      (d.service.registry.verdict d.host.files n).1 := rfl
  rw [Deployment.check] at h
  rcases hVerdict : Deployment.onStore (Store.ask fun r fs => r.verdict fs n) d with ⟨f | v, d₁⟩
  · rw [Work.bind_error hVerdict] at h
    cases h
  · rw [hVerdict] at hAsked
    cases hFound : (d.service.registry.analysis d.host.files n).1 with
    | ok x => exact analysis_ok hFound
    | error f =>
      unfold Registry.verdict at hAsked
      simp [hFound, bind, Except.bind] at hAsked

-- ---------------------------------------------------------------------------
-- What leaves the host alone
-- ---------------------------------------------------------------------------

/-- The store of a deployment. -/
def Deployment.store (d : Deployment) : Store :=
  { files := d.host.files, registry := d.service.registry, now := d.host.now.timestamp }

theorem onStore_files {α : Type} (work : StoreWork α) (d : Deployment) :
    (Deployment.onStore work d).2.host.files = (work d.store).2.files := rfl

theorem onStore_answer {α : Type} (work : StoreWork α) (d : Deployment) :
    (Deployment.onStore work d).1 = (work d.store).1 := rfl

/-- Work that changes nothing of the host. -/
abbrev KeepsHost {α : Type} (work : DeploymentWork α) : Prop :=
  Work.Keeps (fun d d' => d'.host = d.host) work

theorem KeepsHost.bind {α β : Type} {work : DeploymentWork α} {rest : α → DeploymentWork β}
    (hFirst : KeepsHost work) (hRest : ∀ a, KeepsHost (rest a)) : KeepsHost (work >>= rest) :=
  Work.Keeps.bind (fun _ _ _ h h' => h'.trans h) hFirst hRest

theorem view_keepsHost {α : Type} (f : Deployment → Except Fault α) :
    KeepsHost (Deployment.view f) := fun _ => rfl

theorem get_keepsHost : KeepsHost (get : DeploymentWork Deployment) := fun _ => rfl

theorem setSession_keepsHost (session : Session) :
    KeepsHost (modify fun d => d.setSession session) := fun _ => rfl

/-- Readers of the registry change no file. -/
theorem ask_keepsHost {α : Type} (f : Registry → Files → Except Fault α × Registry) :
    KeepsHost (Deployment.onStore (Store.ask f)) := fun _ => rfl

theorem designated_keepsHost : KeepsHost (Deployment.onStore (Store.view Store.designated)) :=
  fun _ => rfl

theorem queueInput_keepsHost (s : Session) (bytes : List UInt8) :
    KeepsHost (Deployment.queueInput s bytes) :=
  (view_keepsHost _).bind fun _ => setSession_keepsHost _

theorem subscribe_keepsHost (s : Session) : KeepsHost (Deployment.subscribe s) :=
  (setSession_keepsHost _).bind fun _ _ => rfl

theorem stop_keepsHost (n : ScriptName) : KeepsHost (Deployment.stop n) :=
  (view_keepsHost _).bind fun s => setSession_keepsHost s.requestStop

theorem sendInput_keepsHost (n : ScriptName) (bytes : List UInt8) :
    KeepsHost (Deployment.sendInput n bytes) :=
  (view_keepsHost _).bind fun s => queueInput_keepsHost s bytes

theorem watch_keepsHost (n : ScriptName) : KeepsHost (Deployment.watch n) :=
  (view_keepsHost _).bind fun s => (subscribe_keepsHost s).bind fun _ _ => rfl

theorem list_keepsHost : KeepsHost Deployment.listScripts :=
  designated_keepsHost.bind fun _ => get_keepsHost.bind fun _ => ask_keepsHost _

theorem record_keepsHost (n : ScriptName) : KeepsHost (Deployment.scriptRecord n) :=
  designated_keepsHost.bind fun _ => get_keepsHost.bind fun _ => ask_keepsHost _

theorem stopAll_host (d : Deployment) : d.stopAll.2.host = d.host := by
  show (d.service.liveSessions.foldl (fun d s => d.setSession s.requestStop) d).host = _
  generalize d.service.liveSessions = sessions
  induction sessions generalizing d with
  | nil => rfl
  | cons s rest ih => exact ih (d.setSession s.requestStop)

/-- The moves that may change something of the host: naming the boot script, readers and writers of
pipes, and whatever the host does. -/
def Move.MayChangeHost : Move → Prop
  | .autoboot _ _ | .readOutput _ _ | .writeInput _ | .world _ => True
  | _ => False

theorem move_host {m : Move} (hm : ¬ m.MayChangeHost) (d : Deployment) :
    (m.perform d).host = d.host := by
  cases m with
  | stop n => exact stop_keepsHost n d
  | input n bytes => exact sendInput_keepsHost n bytes d
  | watch n => exact watch_keepsHost n d
  | stopSession id =>
    rw [Move.perform]
    cases d.service.session? id <;> rfl
  | inputSession id bytes =>
    rw [Move.perform]
    cases d.service.session? id with
    | none => rfl
    | some s => exact queueInput_keepsHost s bytes d
  | watchSession id =>
    rw [Move.perform]
    cases d.service.session? id with
    | none => rfl
    | some s => exact subscribe_keepsHost s d
  | receive id receiver =>
    rw [Move.perform, Deployment.receive]
    cases d.service.session? id <;> rfl
  | unsubscribe id receiver =>
    rw [Move.perform, Deployment.unsubscribe]
    cases d.service.session? id <;> rfl
  | stopAll => exact stopAll_host d
  | list => exact list_keepsHost d
  | record n => exact record_keepsHost n d
  | remember analyses => rfl
  | autoboot | readOutput | writeInput | world => exact absurd trivial hm

-- ---------------------------------------------------------------------------
-- Pipes
-- ---------------------------------------------------------------------------

theorem Host.readPipe_eq (h : Host) (pipe count : Nat) :
    ∃ pipes, (h.readPipe pipe count).2 = { h with pipes } := by
  unfold Host.readPipe
  split <;> exact ⟨_, rfl⟩

theorem Host.writePipe_eq (h : Host) (pipe : Nat) (bytes : List UInt8) :
    ∃ pipes, (h.writePipe pipe bytes).2 = { h with pipes } := by
  fun_cases Host.writePipe h pipe bytes <;> exact ⟨_, rfl⟩

theorem readOutput?_host {d d' : Deployment} {id : Nat} {stream : Stream}
    (h : d.readOutput? id stream = some d') :
    ∃ pipes held, d'.host = { d.host with pipes, held } := by
  obtain ⟨s, -, ⟨bytes, rfl⟩ | rfl⟩ := readOutput?_cases h
  · obtain ⟨pipes, hPipe⟩ :=
      Host.readPipe_eq d.host (s.pipes.ofStream stream) Deployment.readSize
    exact ⟨pipes, d.host.held, hPipe⟩
  · exact ⟨d.host.pipes, _, rfl⟩

theorem writeInput?_host {d d' : Deployment} {id : Nat} (h : d.writeInput? id = some d') :
    ∃ pipes held, d'.host = { d.host with pipes, held } := by
  obtain ⟨x, _, input, host, -, hWrites, rfl⟩ := writeInput?_cases h
  show ∃ pipes held, host = { d.host with pipes, held }
  cases hWrites with
  | letsGo => exact ⟨d.host.pipes, _, rfl⟩
  | takes _ => exact ⟨d.host.pipes, d.host.held, rfl⟩
  | @puts message count _ _ _ hWrote =>
    obtain ⟨pipes, hPipe⟩ := Host.writePipe_eq d.host x.pipes.input message
    rw [hWrote] at hPipe
    exact ⟨pipes, d.host.held, hPipe⟩

/-- Readers and writers of pipes change nothing of the host but pipes and who holds their ends. -/
theorem move_pipes {m : Move}
    (hm : (∃ id stream, m = .readOutput id stream) ∨ ∃ id, m = .writeInput id) (d : Deployment) :
    ∃ pipes held, (m.perform d).host = { d.host with pipes, held } := by
  rcases hm with ⟨id, stream, rfl⟩ | ⟨id, rfl⟩
  · rw [Move.perform]
    cases hRead : d.readOutput? id stream with
    | none => exact ⟨d.host.pipes, d.host.held, rfl⟩
    | some d' => exact readOutput?_host hRead
  · rw [Move.perform]
    cases hWrite : d.writeInput? id with
    | none => exact ⟨d.host.pipes, d.host.held, rfl⟩
    | some d' => exact writeInput?_host hWrite

-- ---------------------------------------------------------------------------
-- What leaves files alone
-- ---------------------------------------------------------------------------

/-- A host that starts a process has it besides those that it had, with the command line and in the
directory that it was asked for. No file is changed. -/
theorem Host.spawn_process {h h' : Host} {name : String} {arguments : List String}
    {environment : Environment} {workingDir : String} {descriptors : List (Nat × Descriptor)}
    {pid : UInt32}
    (hSpawn : h.spawn name arguments environment workingDir descriptors = .ok (pid, h')) :
    h'.files = h.files ∧ ∃ p : Process, h'.processes = h.processes ++ [p] ∧ p.pid = pid ∧
      p.command = (name :: arguments).map encodeUtf8 ∧
      h.files.realPath workingDir = .ok p.workingDir := by
  unfold Host.spawn at hSpawn
  simp only [bind, Except.bind] at hSpawn
  split at hSpawn
  · cases hSpawn
  · split at hSpawn
    · cases hSpawn
    · split at hSpawn
      · cases hSpawn
      · split at hSpawn
        · cases hSpawn
        · next realDir hReal =>
          split at hSpawn
          · cases hSpawn
          · cases hSpawn
            exact ⟨rfl, _, rfl, rfl, rfl, hReal⟩

theorem spawn_files {n : ScriptName} {session : Session} {d d' : Deployment}
    (h : Deployment.spawn n d = (.ok session, d')) : d'.host.files = d.host.files := by
  obtain ⟨piped, started, hSpawned⟩ := spawned_of_spawn h
  obtain ⟨_, _, hSpawn⟩ := hSpawned.spawns
  exact hSpawned.files.trans ((Host.spawn_process hSpawn).1.trans hSpawned.pipedFiles)

/-- The moves that may change files: naming the boot script, and whatever the host does. -/
def Move.MayChangeFiles : Move → Prop
  | .autoboot _ _ | .world _ => True
  | _ => False

theorem move_files {m : Move} (hm : ¬ m.MayChangeFiles) (d : Deployment) :
    (m.perform d).host.files = d.host.files := by
  cases m with
  | readOutput id stream =>
    obtain ⟨pipes, held, hHost⟩ := move_pipes (.inl ⟨id, stream, rfl⟩) d
    rw [hHost]
  | writeInput id =>
    obtain ⟨pipes, held, hHost⟩ := move_pipes (.inr ⟨id, rfl⟩) d
    rw [hHost]
  | autoboot | world => exact absurd trivial hm
  | _ => exact congrArg Host.files (move_host id d)

-- ---------------------------------------------------------------------------
-- Uploads and deletions of scripts with slots
-- ---------------------------------------------------------------------------

/-- No upload of a script takes effect while a start holds its slot. -/
theorem saveUpload_busy {d : Deployment} {n : ScriptName} (h : d.slots.slot? n = some .starting)
    {fileName : String} (hName : parseName fileName = .ok n) (bytes : List UInt8) :
    Deployment.saveUpload fileName bytes d = (.error (.busy n.text), d) := by
  have hParsed : Deployment.view (fun _ => parseName fileName) d = (.ok n, d) := by
    rw [Deployment.view, hName]
  have hGuard : Deployment.view (fun d => d.slots.guardNotStarting n) d =
      (.error (.busy n.text), d) := by
    rw [Deployment.view, Slots.guardNotStarting, h]
  rw [Deployment.saveUpload, Work.bind_ok hParsed]
  exact Work.bind_error hGuard

/-- No deletion of a script takes effect while its slot is taken. -/
theorem deleteScript_busy {d : Deployment} {n : ScriptName} (h : d.slots.slot? n ≠ none) :
    Deployment.deleteScript n d = (.error (.busy n.text), d) := by
  obtain ⟨x, hTaken⟩ := Option.ne_none_iff_exists'.mp h
  have hGuard : Deployment.view (fun d => d.slots.guardIdle n) d = (.error (.busy n.text), d) := by
    rw [Deployment.view, Slots.guardIdle, hTaken]
  exact Work.bind_error hGuard

/-- An upload changes nothing, or is that of a script that no start holds the slot of. -/
theorem saveUpload_idle (fileName : String) (bytes : List UInt8) (d : Deployment) :
    (Deployment.saveUpload fileName bytes d).2 = d ∨
      ∃ n, parseName fileName = .ok n ∧ d.slots.slot? n ≠ some .starting ∧
        (Deployment.saveUpload fileName bytes d).2 =
          (Deployment.onStore (Store.saveUpload fileName bytes) d).2 := by
  cases hName : parseName fileName with
  | error f =>
    have hParsed : Deployment.view (fun _ => parseName fileName) d = (.error f, d) := by
      rw [Deployment.view, hName]
    exact Or.inl (by rw [Deployment.saveUpload, Work.bind_error hParsed])
  | ok n =>
    by_cases hStarting : d.slots.slot? n = some .starting
    · exact Or.inl (by rw [saveUpload_busy hStarting hName])
    · refine Or.inr ⟨n, rfl, hStarting, ?_⟩
      have hParsed : Deployment.view (fun _ => parseName fileName) d = (.ok n, d) := by
        rw [Deployment.view, hName]
      have hGuard : Deployment.view (fun d => d.slots.guardNotStarting n) d = (.ok (), d) := by
        rw [Deployment.view, Slots.guardNotStarting]
        split
        · next hTaken => exact absurd hTaken hStarting
        · rfl
      rw [Deployment.saveUpload, Work.bind_ok hParsed, Deployment.whileNotStarting,
        Work.bind_ok hGuard]

/-- A deletion of a script whose slot is free. -/
theorem deleteScript_free {d : Deployment} {n : ScriptName} (h : d.slots.slot? n = none) :
    Deployment.deleteScript n d = Deployment.onStore (Store.retireScript n) d := by
  have hGuard : Deployment.view (fun d => d.slots.guardIdle n) d = (.ok (), d) := by
    rw [Deployment.view, Slots.guardIdle, h]
  rw [Deployment.deleteScript, Deployment.whileIdle, Work.bind_ok hGuard]

/-- What goes wrong in the store is never that a script is busy. -/
theorem Store.retireScript_never_busy (n : ScriptName) (name : String) :
    Work.Never (.busy name) (Store.retireScript n) := by
  have hRemove : Work.Never (.busy name) (Store.removeScript n) := by
    intro s
    unfold Store.removeScript Fault.ofHost
    split
    · exact nofun
    · split <;> exact nofun
  have hLook : Work.Never (.busy name) (Store.view Store.designated) := by
    intro s
    unfold Store.view Store.designated
    split <;> exact nofun
  have hClear : Work.Never (.busy name) Store.clearDesignation := by
    intro s
    unfold Store.clearDesignation
    split <;> exact nofun
  have hClearOf : Work.Never (.busy name) (Store.clearDesignationOf n.text) := by
    refine hLook.bind fun found => ?_
    split
    · exact Work.Never.pure _
    · exact hClear.bind fun _ => Work.Never.pure _
  have hDelete : Work.Never (.busy name) (Store.deleteScript n) :=
    hRemove.bind fun _ => Work.Never.bind (fun _ => nofun) fun _ _ => nofun
  exact hDelete.bind fun _ => hClearOf.bind fun _ => Work.Never.pure _

/-- A deletion is refused because a script is busy only while its slot is taken. -/
theorem slot?_of_deleteScript_busy {d : Deployment} {n : ScriptName} {name : String}
    (h : (Deployment.deleteScript n d).1 = .error (.busy name)) : d.slots.slot? n ≠ none := by
  intro hFree
  rw [deleteScript_free hFree] at h
  exact Store.retireScript_never_busy n name d.store h

/-- A deletion changes nothing, or is that of a script whose slot is free. -/
theorem deleteScript_idle (n : ScriptName) (d : Deployment) :
    (Deployment.deleteScript n d).2 = d ∨
      (d.slots.slot? n = none ∧
        (Deployment.deleteScript n d).2 = (Deployment.onStore (Store.retireScript n) d).2) := by
  by_cases hFree : d.slots.slot? n = none
  · exact Or.inr ⟨hFree, by rw [deleteScript_free hFree]⟩
  · exact Or.inl (by rw [deleteScript_busy hFree])

end ScriptWarden
