import ScriptWarden.Proofs.Runs.FileAccess

/-!
# What work asks of files

Work that has files at hand can be told by the calls that it makes about them: what it lists, looks at,
reads, writes, renames and removes. A run of some work keeps within some calls if whatever it answers
and leaves behind comes from calls of these: wherever they are answered alike, the work answers alike,
and the files become what the calls make of them. So what lies elsewhere is neither read nor changed.

The calls of a run are those that are made from the state it begins in. One that depends on an earlier
answer is among them with the path that this answer leads to.

## Results

* `Confined.seq` — the calls of one thing after another.
* `Asks.bind`, `Asks.map₂` — questions made of questions.
* `Within.bind`, `Within.tryCatch` — work made of work that may fail.
* `Host.opening_asks`, `Host.signal_withFiles` — what files have to do with processes.
-/

namespace ScriptWarden

-- ---------------------------------------------------------------------------
-- Calls
-- ---------------------------------------------------------------------------

/-- A call about files. -/
inductive FileCall where
  | list (path : String)
  /-- Look at a file without opening it. -/
  | look (path : String)
  | read (path : String)
  /-- Where a path leads, and whether to a file. Nothing is opened. -/
  | locate (path : String)
  | makeDirectories (path : String)
  | write (now : Timestamp) (path : String) (bytes : List UInt8)
  | rename (source target : String)
  | remove (path : String)

/-- What a call is answered that can be done. -/
inductive FileAnswer where
  | entries (entries : List (String × Entry))
  | info (info : FileInfo)
  | bytes (bytes : List UInt8)
  | place (p : FilePlace) (isFile : Bool)
  | done

/-- Whether an entry is that of a file. -/
def Entry.isFile : Entry → Bool
  | .file _ => true
  | _ => false

namespace FileCall

/-- What comes of a change. One that fails leaves the files as they are. -/
def changed (fs : Files) : Except IoFault Files → Except IoFault FileAnswer × Files
  | .ok fs' => (.ok .done, fs')
  | .error f => (.error f, fs)

/-- The answer to a call, and the files after it. -/
def run : FileCall → Files → Except IoFault FileAnswer × Files
  | list path, fs => ((fs.list path).map .entries, fs)
  | look path, fs => ((fs.info path).map .info, fs)
  | read path, fs => ((fs.read path).map .bytes, fs)
  | locate path, fs => ((fs.existing path).map fun (p, e) => .place p e.isFile, fs)
  | makeDirectories path, fs => changed fs (fs.makeDirectories path)
  | write now path bytes, fs => changed fs (fs.write now path bytes)
  | rename source target, fs => changed fs (fs.rename source target)
  | remove path, fs => changed fs (fs.remove path)

/-- A call that changes nothing. -/
def IsQuestion (c : FileCall) : Prop := ∀ fs, (c.run fs).2 = fs

/-- The files after calls. -/
def after : List FileCall → Files → Files
  | [], fs => fs
  | c :: rest, fs => after rest (c.run fs).2

/-- Calls are answered the same from some files and from others. -/
def AnsweredAlike : List FileCall → Files → Files → Prop
  | [], _, _ => True
  | c :: rest, fs, fs' => (c.run fs').1 = (c.run fs).1 ∧ AnsweredAlike rest (c.run fs).2 (c.run fs').2

theorem AnsweredAlike.refl (calls : List FileCall) (fs : Files) : AnsweredAlike calls fs fs := by
  induction calls generalizing fs with
  | nil => trivial
  | cons c rest ih => exact ⟨rfl, ih _⟩

theorem after_append (first rest : List FileCall) (fs : Files) :
    after (first ++ rest) fs = after rest (after first fs) := by
  induction first generalizing fs with
  | nil => rfl
  | cons c first ih => exact ih _

theorem answeredAlike_append {first rest : List FileCall} {fs fs' : Files} :
    AnsweredAlike (first ++ rest) fs fs' ↔
      AnsweredAlike first fs fs' ∧ AnsweredAlike rest (after first fs) (after first fs') := by
  induction first generalizing fs fs' with
  | nil => exact (and_iff_right trivial).symm
  | cons c first ih => exact (and_congr_right fun _ => ih).trans and_assoc.symm

end FileCall

open FileCall

-- ---------------------------------------------------------------------------
-- States that have files
-- ---------------------------------------------------------------------------

/-- States that have files, among other things. -/
class HasFiles (σ : Type) where
  files : σ → Files
  withFiles : σ → Files → σ
  files_withFiles : ∀ s fs, files (withFiles s fs) = fs
  withFiles_files : ∀ s, withFiles s (files s) = s
  withFiles_withFiles : ∀ s fs fs', withFiles (withFiles s fs) fs' = withFiles s fs'

export HasFiles (files withFiles files_withFiles withFiles_files withFiles_withFiles)

instance : HasFiles Files where
  files fs := fs
  withFiles _ fs := fs
  files_withFiles _ _ := rfl
  withFiles_files _ := rfl
  withFiles_withFiles _ _ _ := rfl

instance : HasFiles Store where
  files := Store.files
  withFiles s files := { s with files }
  files_withFiles _ _ := rfl
  withFiles_files _ := rfl
  withFiles_withFiles _ _ _ := rfl

instance : HasFiles Deployment where
  files d := d.host.files
  withFiles d files := { d with host := { d.host with files } }
  files_withFiles _ _ := rfl
  withFiles_files _ := rfl
  withFiles_withFiles _ _ _ := rfl

variable {σ α β γ : Type} [HasFiles σ] {P : FileCall → Prop} {c : FileCall} {s t : σ}

-- ---------------------------------------------------------------------------
-- Work that is confined to calls
-- ---------------------------------------------------------------------------

/-- From a state, work makes permitted calls only: wherever these are answered alike, it answers alike,
and does to the files what they do. -/
def Confined (P : FileCall → Prop) (w : σ → α × σ) (s : σ) : Prop :=
  ∃ calls : List FileCall, (∀ c ∈ calls, P c) ∧ ∀ fs, AnsweredAlike calls (files s) fs →
    w (withFiles s fs) = ((w s).1, withFiles (w s).2 (after calls fs))

namespace Confined

/-- What work leaves behind is what its calls leave behind. -/
theorem files_eq {w : σ → α × σ} {calls : List FileCall} (h : ∀ fs, AnsweredAlike calls (files s) fs →
    w (withFiles s fs) = ((w s).1, withFiles (w s).2 (after calls fs))) :
    files (w s).2 = after calls (files s) := by
  have hHere := congrArg Prod.snd (h (files s) (.refl ..))
  rw [withFiles_files] at hHere
  exact (congrArg files hHere).trans (files_withFiles ..)

/-- What counts is what work does in the state, with these files or others. -/
theorem congr {w w' : σ → α × σ} (h : Confined P w s)
    (hSame : ∀ fs, w' (withFiles s fs) = w (withFiles s fs)) : Confined P w' s := by
  have hHere := hSame (files s)
  rw [withFiles_files] at hHere
  obtain ⟨calls, hPermitted, h⟩ := h
  refine ⟨calls, hPermitted, fun fs hAlike => ?_⟩
  rw [hSame, hHere]
  exact h fs hAlike

/-- Work that does not look at the files. -/
theorem blind {w : σ → α × σ} (h : ∀ fs, w (withFiles s fs) = ((w s).1, withFiles (w s).2 fs)) :
    Confined P w s := ⟨[], nofun, fun fs _ => h fs⟩

/-- Work that makes one call. -/
theorem of_call {w : σ → α × σ} (hPermitted : P c)
    (h : ∀ fs, (c.run fs).1 = (c.run (files s)).1 →
      w (withFiles s fs) = ((w s).1, withFiles (w s).2 (c.run fs).2)) : Confined P w s := by
  refine ⟨[c], fun c' hMem => ?_, fun fs hAlike => h fs hAlike.1⟩
  rw [List.mem_singleton.mp hMem]
  exact hPermitted

/-- Making one call. -/
theorem make (hPermitted : P c) :
    Confined P (fun s : σ => ((c.run (files s)).1, withFiles s (c.run (files s)).2)) s :=
  .of_call hPermitted fun fs hAlike => by
    rw [files_withFiles, withFiles_withFiles, withFiles_withFiles, hAlike]

/-- **One thing after another makes the calls of both.** -/
theorem seq {w : σ → α × σ} {k : α → σ → β × σ} (hFirst : Confined P w s)
    (hRest : Confined P (k (w s).1) (w s).2) : Confined P (fun s => k (w s).1 (w s).2) s := by
  obtain ⟨first, hPermitted, hFirst⟩ := hFirst
  obtain ⟨rest, hPermitted', hRest⟩ := hRest
  refine ⟨first ++ rest, List.forall_mem_append.mpr ⟨hPermitted, hPermitted'⟩, fun fs hAlike => ?_⟩
  obtain ⟨hAlike, hAlike'⟩ := answeredAlike_append.mp hAlike
  rw [← files_eq hFirst] at hAlike'
  show k (w (withFiles s fs)).1 (w (withFiles s fs)).2 = _
  rw [hFirst fs hAlike, after_append]
  exact hRest _ hAlike'

/-- What is known of a state without its files may decide what is done. -/
theorem known {k : σ → σ → α × σ} (hKnown : ∀ fs, k (withFiles s fs) = k s) (h : Confined P (k s) s) :
    Confined P (fun s => k s s) s := by
  obtain ⟨calls, hPermitted, h⟩ := h
  refine ⟨calls, hPermitted, fun fs hAlike => ?_⟩
  show k (withFiles s fs) (withFiles s fs) = _
  rw [hKnown]
  exact h fs hAlike

end Confined

-- ---------------------------------------------------------------------------
-- Questions
-- ---------------------------------------------------------------------------

/-- The answer to a question about a state comes from permitted calls. -/
def Asks (P : FileCall → Prop) (q : σ → α) (s : σ) : Prop := Confined P (fun s => (q s, s)) s

namespace Asks

variable {q : σ → α}

theorem const (a : α) : Asks P (fun _ : σ => a) s := Confined.blind fun _ => rfl

/-- A question that one call answers. -/
theorem of_call {q : Files → α} {fs : Files} (hPermitted : P c) (hQuestion : c.IsQuestion)
    (h : ∀ fs', (c.run fs').1 = (c.run fs).1 → q fs' = q fs) : Asks P q fs := by
  refine Confined.of_call hPermitted fun fs' hAlike => ?_
  exact Prod.ext (h fs' hAlike) (hQuestion fs').symm

/-- A second question that depends on the answer to a first. -/
theorem bind {k : α → σ → β} (hFirst : Asks P q s) (hRest : Asks P (k (q s)) s) :
    Asks P (fun s => k (q s) s) s :=
  Confined.seq (k := fun a s => (k a s, s)) hFirst hRest

theorem map (h : Asks P q s) (g : α → β) : Asks P (fun s => g (q s)) s :=
  h.bind (k := fun a _ => g a) (const _)

theorem map₂ {r : σ → β} (h : Asks P q s) (h' : Asks P r s) (g : α → β → γ) :
    Asks P (fun s => g (q s) (r s)) s :=
  h.bind (k := fun a s => g a (r s)) (h'.map _)

/-- A question about a state is one about its files. -/
theorem files_iff : Asks P (fun fs => q (withFiles s fs)) (files s) ↔ Asks P q s := by
  constructor
  · rintro ⟨calls, hPermitted, h⟩
    refine ⟨calls, hPermitted, fun fs hAlike => ?_⟩
    have hSame := h fs hAlike
    have hAnswer : q (withFiles s fs) = q (withFiles s (files s)) := congrArg Prod.fst hSame
    have hFiles : fs = after calls fs := congrArg Prod.snd hSame
    rw [withFiles_files] at hAnswer
    exact Prod.ext hAnswer (congrArg (withFiles s) hFiles)
  · rintro ⟨calls, hPermitted, h⟩
    refine ⟨calls, hPermitted, fun fs hAlike => ?_⟩
    have hSame := h fs hAlike
    have hAnswer : q (withFiles s fs) = q s := congrArg Prod.fst hSame
    have hFiles := congrArg files (congrArg Prod.snd hSame)
    rw [files_withFiles, files_withFiles] at hFiles
    exact Prod.ext (hAnswer.trans (congrArg q (withFiles_files s).symm)) hFiles

theorem of_files (h : Asks P (fun fs => q (withFiles s fs)) (files s)) : Asks P q s := files_iff.mp h

/-- A question about each of a list. -/
theorem each {f : σ → α → β} {l : List α} (h : ∀ x ∈ l, Asks P (f · x) s) :
    Asks P (fun s => l.map (f s)) s := by
  induction l with
  | nil => exact const []
  | cons x rest ih =>
    have hRest := ih fun y hMem => h y (List.mem_cons_of_mem x hMem)
    exact (h x List.mem_cons_self).map₂ hRest List.cons

theorem filterMap {f : σ → α → Option β} {l : List α} (h : ∀ x ∈ l, Asks P (f · x) s) :
    Asks P (fun s => l.filterMap (f s)) s := by
  have hSame : (fun s => l.filterMap (f s)) = fun s => (l.map (f s)).filterMap id := by
    funext s
    rw [List.filterMap_map, Function.id_comp]
  rw [hSame]
  exact (each h).map _

theorem findSome? {f : σ → α → Option β} {l : List α} (h : ∀ x ∈ l, Asks P (f · x) s) :
    Asks P (fun s => l.findSome? (f s)) s := by
  have hSame : (fun s => l.findSome? (f s)) = fun s => (l.map (f s)).findSome? id := by
    funext s
    rw [List.findSome?_map, Function.id_comp]
  rw [hSame]
  exact (each h).map _

end Asks

/-- Work that changes no file, and looks at the files only to answer a question. -/
theorem Confined.of_asks {q : σ → α} {w : σ → β × σ} (h : Asks P q s)
    (hRest : ∀ fs, q (withFiles s fs) = q s → w (withFiles s fs) = ((w s).1, withFiles (w s).2 fs)) :
    Confined P w s := by
  obtain ⟨calls, hPermitted, h⟩ := h
  refine ⟨calls, hPermitted, fun fs hAlike => ?_⟩
  have hSame := h fs hAlike
  have hFiles : withFiles s fs = withFiles s (after calls fs) := congrArg Prod.snd hSame
  have hFiles := congrArg files hFiles
  rw [files_withFiles, files_withFiles] at hFiles
  rw [hRest fs (congrArg Prod.fst hSame), ← hFiles]

/-- A question whose answer depends on the files only through the answer to another. -/
theorem Asks.determines {q : σ → α} {r : σ → β} (h : Asks P q s)
    (hSame : ∀ fs, q (withFiles s fs) = q s → r (withFiles s fs) = r s) : Asks P r s :=
  Confined.of_asks h fun fs hAlike => Prod.ext (hSame fs hAlike) rfl

theorem Asks.decides {q : Files → α} {r : Files → β} {fs : Files} (h : Asks P q fs)
    (hSame : ∀ fs', q fs' = q fs → r fs' = r fs) : Asks P r fs := h.determines hSame

/-- A question whose answer depends on the files only through the answers to two others. -/
theorem Asks.decide₂ {q : Files → α} {q' : Files → β} {r : Files → γ} {fs : Files} (h : Asks P q fs)
    (h' : Asks P q' fs) (hSame : ∀ fs', q fs' = q fs → q' fs' = q' fs → r fs' = r fs) : Asks P r fs :=
  (h.map₂ h' Prod.mk).decides fun fs' hBoth =>
    hSame fs' (congrArg Prod.fst hBoth) (congrArg Prod.snd hBoth)

-- ---------------------------------------------------------------------------
-- What the files themselves tell
-- ---------------------------------------------------------------------------

theorem map_injective {ε : Type} {f : α → β} (hf : Function.Injective f) {x y : Except ε α}
    (h : x.map f = y.map f) : x = y := by
  cases x <;> cases y <;> simp_all [Except.map, hf.eq_iff]

/-- Where a path leads, and whether to a file. -/
def Files.located (fs : Files) (path : String) : Except IoFault (FilePlace × Bool) :=
  (fs.existing path).map fun (p, e) => (p, e.isFile)

namespace Files

variable {path : String} (fs : Files)

theorem list_asks (h : P (.list path)) : Asks P (·.list path) fs :=
  .of_call h (fun _ => rfl) fun _ hAlike => map_injective (fun _ _ => FileAnswer.entries.inj) hAlike

theorem info_asks (h : P (.look path)) : Asks P (·.info path) fs :=
  .of_call h (fun _ => rfl) fun _ hAlike => map_injective (fun _ _ => FileAnswer.info.inj) hAlike

theorem read_asks (h : P (.read path)) : Asks P (·.read path) fs :=
  .of_call h (fun _ => rfl) fun _ hAlike => map_injective (fun _ _ => FileAnswer.bytes.inj) hAlike

theorem located_asks (h : P (.locate path)) : Asks P (·.located path) fs := by
  refine .of_call h (fun _ => rfl) fun fs' hAlike => ?_
  have hTold : ∀ fs : Files, ((FileCall.locate path).run fs).1 =
      (fs.located path).map fun x => .place x.1 x.2 := by
    intro fs
    rw [located]
    show (fs.existing path).map _ = _
    cases fs.existing path <;> rfl
  rw [hTold, hTold] at hAlike
  refine map_injective (fun x y hSame => ?_) hAlike
  obtain ⟨hPlace, hFile⟩ := FileAnswer.place.inj hSame
  exact Prod.ext hPlace hFile

theorem isFile_asks (h : P (.look path)) : Asks P (·.isFile path) fs :=
  (info_asks fs h).decides fun fs' hSame => by rw [isFile, isFile, hSame]

theorem realPath_eq (path : String) :
    fs.realPath path = (fs.located path).map fun x => placeText x.1 := by
  rw [realPath, located]
  cases fs.existing path <;> rfl

theorem isFile_eq (path : String) : fs.isFile path = ((fs.located path).toOption.map (·.2)).getD false := by
  rw [isFile, info, located]
  cases fs.existing path with
  | error f => rfl
  | ok found =>
    obtain ⟨p, e⟩ := found
    cases e <;> rfl

/-- That a file is there can be asked as where its path leads. -/
theorem isFile_located (h : P (.locate path)) : Asks P (·.isFile path) fs :=
  (located_asks fs h).decides fun fs' hSame => by rw [isFile_eq, isFile_eq, hSame]

theorem realPath_asks (h : P (.locate path)) : Asks P (·.realPath path) fs :=
  (located_asks fs h).decides fun fs' hSame => by rw [realPath_eq, realPath_eq, hSame]

end Files

-- ---------------------------------------------------------------------------
-- Processes
-- ---------------------------------------------------------------------------

instance : HasFiles Host where
  files := Host.files
  withFiles h files := { h with files }
  files_withFiles _ _ := rfl
  withFiles_files _ := rfl
  withFiles_withFiles _ _ _ := rfl

namespace Host

variable {h : Host}

theorem makePipe_withFiles (h : Host) (fs : Files) :
    (withFiles h fs).makePipe = (h.makePipe.1, withFiles h.makePipe.2 fs) := rfl

theorem environment_withFiles (h : Host) (fs : Files) :
    (withFiles h fs).environment = h.environment := rfl

theorem act_withFiles (h : Host) (fs : Files) (p : Process) (number : Nat) :
    (withFiles h fs).act p number = withFiles (h.act p number) fs := by
  unfold act
  split
  · rfl
  · split
    · rfl
    · split <;> rfl

theorem resume_withFiles (h : Host) (fs : Files) (p : Process) :
    (withFiles h fs).resume p = withFiles (h.resume p) fs := by
  unfold resume
  show p.delayed.foldl _ (withFiles (h.setProcess { p with halted := false, delayed := [] }) fs) = _
  generalize h.setProcess { p with halted := false, delayed := [] } = h'
  induction p.delayed generalizing h' with
  | nil => rfl
  | cons signal rest ih =>
    rw [List.foldl_cons, List.foldl_cons]
    rw [show (withFiles h' fs).process? p.pid = h'.process? p.pid from rfl]
    cases h'.process? p.pid with
    | none => exact ih h'
    | some q =>
      simp only
      split
      · rw [act_withFiles]
        exact ih _
      · exact ih h'

theorem reap?_withFiles (h : Host) (fs : Files) (pid : UInt32) :
    (withFiles h fs).reap? pid = (h.reap? pid).map fun (status, host) => (status, withFiles host fs) := by
  unfold reap?
  rw [show (withFiles h fs).process? pid = h.process? pid from rfl]
  cases h.process? pid with
  | none => rfl
  | some p => cases hStatus : p.status <;> simp only [hStatus] <;> rfl

/-- Signals have nothing to do with files. -/
theorem signal_withFiles (h : Host) (fs : Files) (pid : UInt32) (number : Nat) :
    (withFiles h fs).signal pid number = (h.signal pid number).map (withFiles · fs) := by
  unfold signal
  rw [show (withFiles h fs).process? pid = h.process? pid from rfl]
  cases h.process? pid with
  | none => rfl
  | some p =>
    simp only
    split
    · rfl
    split
    · rfl
    split
    · rw [resume_withFiles,
        show (withFiles (h.resume p) fs).process? pid = (h.resume p).process? pid from rfl]
      cases (h.resume p).process? pid with
      | none => rfl
      | some q => exact congrArg Except.ok (act_withFiles _ fs q number)
    split
    · rfl
    · exact congrArg Except.ok (act_withFiles h fs p number)

/-- What the files decide of a process that is to be started: the directory that it works in, and how
its program begins. -/
def opening (h : Host) (name : String) (arguments : List String) (workingDir : String) :
    Except IoFault (String × Launch) :=
  if (name :: arguments).any (·.toList.contains '\x00') then
    .error (.other "nul byte found in provided data")
  else (h.files.located workingDir).bind fun (p, isFile) =>
    if isFile then .error .notADirectory
    else (h.findProgram (Files.placeText p) name).map (Files.placeText p, ·)

theorem spawn_eq (h : Host) (name : String) (arguments : List String) (environment : Environment)
    (workingDir : String) (descriptors : List (Nat × Descriptor)) :
    h.spawn name arguments environment workingDir descriptors =
      (h.opening name arguments workingDir).map fun (directory, launch) =>
        (h.nextPid, { h with
          processes := h.processes ++ [{
            pid := h.nextPid, parent := h.self, command := (name :: arguments).map encodeUtf8
            workingDir := directory, descriptors, startedAt := h.now
            program := launch ((name :: arguments).map encodeUtf8) environment }]
          nextPid := h.nextPid + 1 }) := by
  unfold spawn opening Files.info Files.realPath Files.located
  simp only [bind, Except.bind, pure, Except.pure]
  split
  · rfl
  · cases h.files.existing workingDir with
    | error f => rfl
    | ok found =>
      obtain ⟨p, e⟩ := found
      cases e with
      | file id => rfl
      | directory | link target =>
        simp only [Except.map, Entry.isFile, Bool.not_true, Bool.false_eq_true, if_false]
        cases h.findProgram (Files.placeText p) name <;> rfl

/-- A process is started the same, whatever the files, as far as they say the same of its start. -/
theorem spawn_withFiles {fs : Files} {name : String} {arguments : List String}
    {environment : Environment} {workingDir : String} {descriptors : List (Nat × Descriptor)}
    (hSame : (withFiles h fs).opening name arguments workingDir = h.opening name arguments workingDir) :
    (withFiles h fs).spawn name arguments environment workingDir descriptors =
      (h.spawn name arguments environment workingDir descriptors).map fun (pid, host) =>
        (pid, withFiles host fs) := by
  rw [spawn_eq, spawn_eq, hSame]
  cases h.opening name arguments workingDir <;> rfl

theorem programAt_eq (h : Host) (path : String) :
    h.programAt path = (h.files.located path).bind fun (p, isFile) =>
      match (if isFile && programDirs.contains p.dropLast then p.getLast? else none).bind h.programs with
      | some launch => .ok launch
      | none => .error .permissionDenied := by
  rw [programAt, Files.located]
  cases h.files.existing path with
  | error f => rfl
  | ok found =>
    obtain ⟨p, e⟩ := found
    cases e with
    | file id => rfl
    | directory => rfl
    | link target => rfl

variable (hLocate : ∀ path, P (.locate path))

include hLocate

theorem located_asks (h : Host) (path : String) : Asks P (·.files.located path) h :=
  .of_files (Files.located_asks _ (hLocate path))

theorem programAt_asks (h : Host) (path : String) : Asks P (·.programAt path) h :=
  (located_asks hLocate h path).determines fun fs hSame => by
    rw [programAt_eq, programAt_eq, hSame]
    rfl

theorem findProgram_asks (h : Host) (workingDir name : String) :
    Asks P (·.findProgram workingDir name) h := by
  unfold findProgram
  split
  · exact .const _
  · split
    · exact programAt_asks hLocate h _
    · have hEach : Asks P (fun h : Host => programDirs.findSome? fun dir =>
          (h.programAt (Files.placeText (dir ++ [name]))).toOption) h :=
        .findSome? fun dir _ => (programAt_asks hLocate h _).map _
      exact hEach.determines fun fs hSame => by rw [hSame]

/-- Where a process is to work and what it is to run is asked for, and nothing is opened. -/
theorem opening_asks (h : Host) (name : String) (arguments : List String) (workingDir : String) :
    Asks P (·.opening name arguments workingDir) h := by
  have hLocated := located_asks hLocate h workingDir
  unfold opening
  split
  · exact .const _
  · cases hFound : h.files.located workingDir with
    | error f => exact hLocated.determines fun fs hSame => by rw [hSame, hFound]; rfl
    | ok found =>
      have hProgram := findProgram_asks hLocate h (Files.placeText found.1) name
      exact (hLocated.map₂ hProgram Prod.mk).determines fun fs hSame => by
        obtain ⟨hSame, hSame'⟩ := Prod.mk.inj hSame
        rw [hSame, hFound]
        exact congrArg (fun program : Except IoFault Launch =>
          if found.2 then Except.error IoFault.notADirectory
          else program.map (Files.placeText found.1, ·)) hSame'

end Host

-- ---------------------------------------------------------------------------
-- Work that may fail
-- ---------------------------------------------------------------------------

/-- From a state, work makes only calls that are permitted in that state, and the same are permitted
afterwards. -/
structure Within (permits : σ → FileCall → Prop) (w : σ → α × σ) (s : σ) : Prop where
  kept : permits (w s).2 = permits s
  confined : Confined (permits s) w s

namespace Within

variable {permits : σ → FileCall → Prop}

theorem of_asks {q : σ → α} (h : Asks (permits s) q s) : Within permits (fun s => (q s, s)) s :=
  ⟨rfl, h⟩

theorem congr {w w' : σ → α × σ} (h : Within permits w s)
    (hSame : ∀ fs, w' (withFiles s fs) = w (withFiles s fs)) : Within permits w' s := by
  have hHere := hSame (files s)
  rw [withFiles_files] at hHere
  exact ⟨hHere ▸ h.kept, h.confined.congr hSame⟩

theorem seq {w : σ → α × σ} {k : α → σ → β × σ} (hFirst : Within permits w s)
    (hRest : Within permits (k (w s).1) (w s).2) : Within permits (fun s => k (w s).1 (w s).2) s :=
  ⟨hRest.kept.trans hFirst.kept, hFirst.confined.seq (hFirst.kept ▸ hRest.confined)⟩

theorem pure (a : α) : Within permits (pure a : Work σ α) s := ⟨rfl, .blind fun _ => rfl⟩

theorem throw (f : Fault) : Within permits (throw f : Work σ α) s := ⟨rfl, .blind fun _ => rfl⟩

theorem bind {w : Work σ α} {k : α → Work σ β} (hFirst : Within permits w s)
    (hRest : ∀ a t, w s = (.ok a, t) → Within permits (k a) t) : Within permits (w >>= k) s := by
  have hThen : Within permits (fun s => match (w s).1 with
      | .ok a => k a (w s).2
      | .error e => (.error e, (w s).2)) s := by
    refine hFirst.seq (k := fun answer t => match answer with
      | .ok a => k a t
      | .error e => (.error e, t)) ?_
    rcases hRun : w s with ⟨e | a, t⟩
    · exact ⟨rfl, .blind fun _ => rfl⟩
    · exact hRest a t hRun
  have hSame : w >>= k = fun s => match (w s).1 with
      | .ok a => k a (w s).2
      | .error e => (.error e, (w s).2) := by
    funext s
    rw [Work.bind_apply]
    rcases w s with ⟨_ | _, t⟩ <;> rfl
  rw [hSame]
  exact hThen

theorem tryCatch {w : Work σ α} {k : Fault → Work σ α} (hFirst : Within permits w s)
    (hRest : ∀ e t, w s = (.error e, t) → Within permits (k e) t) :
    Within permits (tryCatch w k) s := by
  have hThen : Within permits (fun s => match (w s).1 with
      | .ok a => (.ok a, (w s).2)
      | .error e => k e (w s).2) s := by
    refine hFirst.seq (k := fun answer t => match answer with
      | .ok a => (.ok a, t)
      | .error e => k e t) ?_
    rcases hRun : w s with ⟨e | a, t⟩
    · exact hRest e t hRun
    · exact ⟨rfl, .blind fun _ => rfl⟩
  have hSame : MonadExcept.tryCatch w k = fun s => match (w s).1 with
      | .ok a => (.ok a, (w s).2)
      | .error e => k e (w s).2 := by
    funext s
    rw [Work.tryCatch_apply]
    rcases w s with ⟨_ | _, t⟩ <;> rfl
  rw [hSame]
  exact hThen

/-- Work that goes on with what is known of the state without its files. -/
theorem get {k : σ → Work σ α} (hKnown : ∀ fs, k (withFiles s fs) = k s)
    (h : Within permits (k s) s) : Within permits (MonadState.get >>= k) s :=
  ⟨h.kept, Confined.known (k := k) hKnown h.confined⟩

end Within

end ScriptWarden
