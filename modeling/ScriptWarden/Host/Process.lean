import ScriptWarden.Clock.Timestamp
import ScriptWarden.Confinement
import ScriptWarden.Host.Program
import ScriptWarden.Host.Signal

/-!
# Processes

The processes of a host, the pipes between them, and what each call of a program does. A process
that has ended keeps its number until its parent takes its status.
-/

namespace ScriptWarden

/-- What an open number of a process stands for. -/
inductive Descriptor where
  | pipeRead (pipe : Nat)
  | pipeWrite (pipe : Nat)
  | file (handle : Nat)
  /-- Holds nothing and takes everything. -/
  | null
deriving DecidableEq, Repr, Inhabited

/-- An open file. -/
structure OpenFile where
  file : FileId
  /-- Where the next byte is read or written. -/
  offset : Nat := 0
  /-- Whether everything is written at the end. -/
  appending : Bool := false
deriving DecidableEq, Repr, Inhabited

/-- A process. -/
structure Process where
  pid : UInt32
  parent : UInt32
  command : List (List UInt8)
  workingDir : String
  descriptors : List (Nat × Descriptor)
  program : Program
  startedAt : Moment
  ignored : List Nat := []
  caught : List Nat := []
  /-- The caught signals that the program has not taken yet. -/
  pending : List Nat := []
  /-- Whether a caught signal is to break off what the program waits for. -/
  interrupted : Bool := false
  /-- Whether the process is halted. -/
  halted : Bool := false
  /-- The signals that came while the process was halted. -/
  delayed : List Nat := []
  /-- The end of the program's sleep. -/
  wakeAt : Option Moment := none
  /-- How the process ended, if it did. -/
  status : Option UInt32 := none

/-- A host. -/
structure Host where
  now : Moment
  files : Files
  /-- The service's own process. -/
  self : UInt32
  /-- The programs that there are. -/
  programs : Catalog
  environment : Environment := []
  processes : List Process := []
  pipes : List (Nat × List UInt8) := []
  handles : List (Nat × OpenFile) := []
  /-- The ends of pipes that are held outside of the processes listed. -/
  held : List Descriptor := []
  nextPid : UInt32
  nextPipe : Nat := 0
  nextHandle : Nat := 0

namespace Host

-- ---------------------------------------------------------------------------
-- Processes
-- ---------------------------------------------------------------------------

/-- The first process of a host, which takes over children whose parent has ended. -/
def firstPid : UInt32 := 1

/-- The process with a number, running or not yet taken. -/
def process? (h : Host) (pid : UInt32) : Option Process := h.processes.find? (·.pid == pid)

/-- Let a process be another. -/
def setProcess (h : Host) (p : Process) : Host :=
  { h with processes := h.processes.map fun q => if q.pid == p.pid then p else q }

/-- Whether a number is that of a process. -/
def isAlive (h : Host) (pid : UInt32) : Bool := (h.process? pid).isSome

/-- The processes that have not ended. -/
def running (h : Host) : List Process := h.processes.filter (·.status.isNone)

/-- Let a process end. Its children get the first process for a parent, which takes their statuses
at once. -/
def finish (h : Host) (p : Process) (status : UInt32) : Host :=
  let ended := { p with
    status := some status, descriptors := [], program := .exit 0, command := [], wakeAt := none }
  let adopted := (h.setProcess ended).processes.map fun q =>
    if q.parent == p.pid then { q with parent := firstPid } else q
  { h with processes := adopted.filter fun q => !(q.parent == firstPid && q.status.isSome) }

/-- Take the status of a process that has ended. -/
def reap? (h : Host) (pid : UInt32) : Option (UInt32 × Host) :=
  match h.process? pid with
  | some p => p.status.map fun status =>
      (status, { h with processes := h.processes.filter (·.pid != pid) })
  | none => none

/-- The status of a process that has ended, which stays to be taken. -/
def statusOf? (h : Host) (pid : UInt32) : Option UInt32 := (h.process? pid).bind (·.status)

-- ---------------------------------------------------------------------------
-- Signals
-- ---------------------------------------------------------------------------

/-- The status word of a process that ended by itself. -/
def exitStatus (code : Nat) : UInt32 := UInt32.ofNat (code % 256 * 256)

/-- What a signal does to a process that is not halted. -/
def act (h : Host) (p : Process) (signal : Nat) : Host :=
  if p.ignored.contains signal then h
  else if p.caught.contains signal then
    h.setProcess { p with
      pending := if p.pending.contains signal then p.pending else p.pending ++ [signal]
      interrupted := true }
  else
    match Signal.effect signal with
    | .terminate => h.finish p (UInt32.ofNat signal)
    | .halt => h.setProcess { p with halted := true }
    | .nothing => h

/-- Let a process that was halted go on, with the signals that came meanwhile. -/
def resume (h : Host) (p : Process) : Host :=
  let h := h.setProcess { p with halted := false, delayed := [] }
  p.delayed.foldl (fun h signal =>
    match h.process? p.pid with
    | some q => if q.status.isNone then h.act q signal else h
    | none => h) h

/-- Send a signal to a process. Signal 0 only asks whether it is there. -/
def signal (h : Host) (pid : UInt32) (number : Nat) : Except IoFault Host :=
  match h.process? pid with
  | none => .error .noSuchProcess
  | some p =>
    if number == 0 || p.status.isSome || pid == firstPid then .ok h
    else if number == Signal.kill then .ok (h.finish p (UInt32.ofNat number))
    else if number == Signal.goOn then
      let h := h.resume p
      .ok (match h.process? pid with | some p => h.act p number | none => h)
    else if p.halted then .ok (h.setProcess { p with delayed := p.delayed ++ [number] })
    else .ok (h.act p number)

-- ---------------------------------------------------------------------------
-- Pipes and files
-- ---------------------------------------------------------------------------

/-- How many bytes a pipe holds. -/
def pipeCapacity : Nat := 65536

/-- Whether an end of a pipe is held by anyone. -/
def isHeld (h : Host) (d : Descriptor) : Bool :=
  h.held.contains d || h.processes.any fun p => p.descriptors.any (·.2 == d)

/-- Make a pipe. -/
def makePipe (h : Host) : Nat × Host :=
  (h.nextPipe, { h with pipes := (h.nextPipe, []) :: h.pipes, nextPipe := h.nextPipe + 1 })

/-- Let a pipe hold something. -/
def setPipe (h : Host) (pipe : Nat) (bytes : List UInt8) : Host :=
  { h with pipes := h.pipes.map fun e => if e.1 == pipe then (pipe, bytes) else e }

/-- What reading a pipe comes to. -/
inductive PipeRead where
  | bytes (bytes : List UInt8)
  /-- Nothing yet. -/
  | empty
  /-- Nothing any more. -/
  | ended
deriving DecidableEq, Repr, Inhabited

/-- Read from a pipe. -/
def readPipe (h : Host) (pipe count : Nat) : PipeRead × Host :=
  match h.pipes.lookup pipe with
  | none => (.ended, h)
  | some [] => (if h.isHeld (.pipeWrite pipe) then .empty else .ended, h)
  | some bytes => (.bytes (bytes.take count), h.setPipe pipe (bytes.drop count))

/-- What writing to a pipe comes to. -/
inductive PipeWrite where
  /-- So many bytes were taken. -/
  | wrote (count : Nat)
  | full
  /-- Nobody will read them. -/
  | broken
deriving DecidableEq, Repr, Inhabited

/-- Write to a pipe as much as it has room for. To write no bytes is no use of the pipe. -/
def writePipe (h : Host) (pipe : Nat) (bytes : List UInt8) : PipeWrite × Host :=
  if bytes.isEmpty then (.wrote 0, h)
  else
    match h.pipes.lookup pipe with
    | none => (.broken, h)
    | some there =>
      if !h.isHeld (.pipeRead pipe) then (.broken, h)
      else
        let room := pipeCapacity - there.length
        if room == 0 then (.full, h)
        else
          let taken := bytes.take room
          (.wrote taken.length, h.setPipe pipe (there ++ taken))

/-- Let go of an end of a pipe. -/
def release (h : Host) (d : Descriptor) : Host := { h with held := h.held.filter (· != d) }

/-- Let an open file be another. -/
def setHandle (h : Host) (handle : Nat) (f : OpenFile) : Host :=
  { h with handles := h.handles.map fun e => if e.1 == handle then (handle, f) else e }

/-- Read from an open file. -/
def readFile (h : Host) (handle count : Nat) : List UInt8 × Host :=
  match h.handles.lookup handle with
  | none => ([], h)
  | some f =>
    let bytes := ((h.files.body f.file).bytes.drop f.offset).take count
    (bytes, h.setHandle handle { f with offset := f.offset + bytes.length })

/-- Write to an open file. -/
def writeFile (h : Host) (handle : Nat) (bytes : List UInt8) : Host :=
  match h.handles.lookup handle with
  | none => h
  | some f =>
    let there := (h.files.body f.file).bytes
    let start := if f.appending then there.length else f.offset
    let before := there.take start
    let gap := List.replicate (start - before.length) 0
    let body := before ++ gap ++ bytes ++ there.drop (start + bytes.length)
    { h with files := h.files.setBody f.file { bytes := body, modified := h.now.timestamp } }
      |>.setHandle handle { f with offset := start + bytes.length }

/-- The path of the file that holds nothing and takes everything. -/
def nullPath : String := "/dev/null"

/-- Open a file. -/
def openFile (h : Host) (path : String) (mode : OpenMode) : Except IoFault (Descriptor × Host) := do
  if path == nullPath then return (.null, h)
  let opened := fun (files : Files) (file : FileId) (appending : Bool) =>
    (Descriptor.file h.nextHandle, { h with
      files
      handles := (h.nextHandle, { file, appending }) :: h.handles
      nextHandle := h.nextHandle + 1 })
  match mode with
  | .read =>
    match ← h.files.existing path with
    | (_, .file id) => return opened h.files id false
    | _ => throw .isADirectory
  | .overwrite =>
    let (id, files) ← h.files.openEmpty h.now.timestamp path
    return opened files id false
  | .append =>
    match h.files.existing path with
    | .ok (_, .file id) => return opened h.files id true
    | .ok _ => throw .isADirectory
    | .error .notFound =>
      let (id, files) ← h.files.openEmpty h.now.timestamp path
      return opened files id true
    | .error fault => throw fault

-- ---------------------------------------------------------------------------
-- Starting programs
-- ---------------------------------------------------------------------------

/-- The directories that hold programs. -/
def programDirs : List FilePlace := [["usr", "bin"], ["bin"]]

/-- The program at a path. What is no program may not be executed. -/
def programAt (h : Host) (path : String) : Except IoFault Launch := do
  let (place, entry) ← h.files.existing path
  match entry with
  | .file _ =>
    match (if programDirs.contains place.dropLast then place.getLast? else none).bind h.programs with
    | some launch => .ok launch
    | none => .error .permissionDenied
  | _ => .error .permissionDenied

/-- The program with a name or at a path, as seen from a directory. -/
def findProgram (h : Host) (workingDir name : String) : Except IoFault Launch :=
  if name.isEmpty then .error .notFound
  else if name.toList.contains '/' then h.programAt (joinPath workingDir name)
  else
    match programDirs.findSome? fun dir =>
        (h.programAt (Files.placeText (dir ++ [name]))).toOption with
    | some launch => .ok launch
    | none => .error .notFound

/-- Start a process. -/
def spawn (h : Host) (name : String) (arguments : List String) (environment : Environment)
    (workingDir : String) (descriptors : List (Nat × Descriptor)) :
    Except IoFault (UInt32 × Host) := do
  let words := name :: arguments
  if words.any (·.toList.contains '\x00') then throw (.other "nul byte found in provided data")
  let info ← h.files.info workingDir
  if !info.isDirectory then throw .notADirectory
  let workingDir ← h.files.realPath workingDir
  let launch ← h.findProgram workingDir name
  let command := words.map encodeUtf8
  let pid := h.nextPid
  let p : Process :=
    { pid, parent := h.self, command, workingDir, descriptors, startedAt := h.now
      program := launch command environment }
  return (pid, { h with processes := h.processes ++ [p], nextPid := pid + 1 })

-- ---------------------------------------------------------------------------
-- Calls
-- ---------------------------------------------------------------------------

/-- The lowest number from some on that a process has nothing open under. The fuel bounds how many
are tried. -/
def freeNumber (p : Process) : Nat → Nat → Nat
  | 0, n => n
  | fuel + 1, n => if p.descriptors.any (·.1 == n) then freeNumber p fuel (n + 1) else n

/-- The lowest number that a process has nothing open under. -/
def nextNumber (p : Process) : Nat := freeNumber p (p.descriptors.length + 1) 0

/-- A process with something open under a number. -/
def withDescriptor (p : Process) (fd : Nat) (d : Descriptor) : Process :=
  { p with descriptors := p.descriptors.filter (·.1 != fd) ++ [(fd, d)] }

/-- A process that goes on with a program. -/
def goOn (h : Host) (p : Process) (next : Program) : Host :=
  h.setProcess { p with program := next, wakeAt := none }

/-- A fault for a number that nothing is open under. -/
def badNumber : IoFault := .other "Bad file descriptor (os error 9)"

/-- The answer of a call that waits, unless a signal interrupts it. -/
def waiting (h : Host) (p : Process) (next : Reply α → Program) : Option Host :=
  if p.interrupted then some (h.goOn { p with interrupted := false } (next .interrupted)) else none

/-- Read for a process. -/
def callRead (h : Host) (p : Process) (fd count : Nat) (next : Reply (List UInt8) → Program) :
    Option Host :=
  match p.descriptors.lookup fd with
  | some (.pipeRead pipe) =>
    match h.readPipe pipe count with
    | (.bytes bytes, h) => some (h.goOn p (next (.done bytes)))
    | (.ended, h) => some (h.goOn p (next (.done [])))
    | (.empty, h) => waiting h p next
  | some (.file handle) =>
    let (bytes, h) := h.readFile handle count
    some (h.goOn p (next (.done bytes)))
  | some .null => some (h.goOn p (next (.done [])))
  | _ => some (h.goOn p (next (.failed badNumber)))

/-- Write for a process. What a pipe has no room for is written later. -/
def callWrite (h : Host) (p : Process) (fd : Nat) (bytes : List UInt8)
    (next : Reply Unit → Program) : Option Host :=
  match p.descriptors.lookup fd with
  | some (.pipeWrite pipe) =>
    match h.writePipe pipe bytes with
    | (.wrote count, h) =>
      let rest := bytes.drop count
      some (h.goOn p (if rest.isEmpty then next (.done ()) else .write fd rest next))
    | (.full, h) => waiting h p next
    | (.broken, h) =>
      let p := { p with program := next (.failed (.other "Broken pipe (os error 32)")) }
      some ((h.setProcess p).act p Signal.brokenPipe)
  | some (.file handle) => some ((h.writeFile handle bytes).goOn p (next (.done ())))
  | some .null => some (h.goOn p (next (.done ())))
  | _ => some (h.goOn p (next (.failed badNumber)))

/-- Wait for a child of a process. -/
def callWait (h : Host) (p : Process) (child : Option UInt32)
    (next : Reply (UInt32 × UInt32) → Program) : Option Host :=
  let asked := h.processes.filter fun q =>
    q.parent == p.pid && (child.isNone || child == some q.pid)
  match asked.find? (·.status.isSome) with
  | some q =>
    let h := { h with processes := h.processes.filter (·.pid != q.pid) }
    some (h.goOn p (next (.done (q.pid, q.status.getD 0))))
  | none =>
    if asked.isEmpty then some (h.goOn p (next (.failed (.other "No child processes (os error 10)"))))
    else waiting h p next

/-- Fork a process. -/
def callFork (h : Host) (p : Process) (child : Program) (next : UInt32 → Program) : Host :=
  let pid := h.nextPid
  let q := { p with
    pid, parent := p.pid, program := child, startedAt := h.now, pending := []
    interrupted := false, wakeAt := none }
  { (h.goOn p (next pid)) with nextPid := pid + 1 }
    |> fun h => { h with processes := h.processes ++ [q] }

/-- Let a process become another program. -/
def callExecute (h : Host) (p : Process) (path : String) (command : List (List UInt8))
    (environment : Environment) (next : IoFault → Program) : Host :=
  match h.programAt (joinPath p.workingDir path) with
  | .ok launch =>
    h.goOn { p with command, caught := [], pending := [], interrupted := false }
      (launch command environment)
  | .error fault => h.goOn p (next fault)

/-- Let a process do something else about a signal. -/
def withDisposition (p : Process) (signal : Nat) (d : Disposition) : Process :=
  if !Signal.isMaskable signal then p
  else
    let p := { p with
      ignored := p.ignored.filter (· != signal), caught := p.caught.filter (· != signal) }
    match d with
    | .standard => p
    | .ignored => { p with ignored := signal :: p.ignored }
    | .caught => { p with caught := signal :: p.caught }

/-- What a call may come to, as an answer. -/
def replyOf : Except IoFault α → Reply α
  | .ok a => .done a
  | .error fault => .failed fault

/-- The host after a process got an answer to its call; none if the process has to wait. -/
def call? (h : Host) (p : Process) : Option Host :=
  match p.program with
  | .exit code => some (h.finish p (exitStatus code))
  | .compute next => some (h.goOn p (next ()))
  | .read fd count next => h.callRead p fd count next
  | .write fd bytes next => h.callWrite p fd bytes next
  | .openFile path mode next =>
    match h.openFile (joinPath p.workingDir path) mode with
    | .ok (d, h) =>
      let fd := nextNumber p
      some (h.goOn (withDescriptor p fd d) (next (.done fd)))
    | .error fault => some (h.goOn p (next (.failed fault)))
  | .close fd next =>
    if p.descriptors.any (·.1 == fd) then
      some (h.goOn { p with descriptors := p.descriptors.filter (·.1 != fd) } (next (.done ())))
    else some (h.goOn p (next (.failed badNumber)))
  | .duplicate source target next =>
    match p.descriptors.lookup source with
    | some d => some (h.goOn (withDescriptor p target d) (next (.done ())))
    | none => some (h.goOn p (next (.failed badNumber)))
  | .pipe next =>
    let (pipe, h) := h.makePipe
    let readEnd := nextNumber p
    let p := withDescriptor p readEnd (.pipeRead pipe)
    let writeEnd := nextNumber p
    some (h.goOn (withDescriptor p writeEnd (.pipeWrite pipe)) (next readEnd writeEnd))
  | .fork child next => some (h.callFork p child next)
  | .wait child next => h.callWait p child next
  | .sleep span next =>
    match p.wakeAt with
    | none => some (h.setProcess { p with wakeAt := some (h.now.after span) })
    | some moment => if moment ≤ h.now then some (h.goOn p (next (.done ()))) else waiting h p next
  | .pause next => waiting h p fun (_ : Reply Unit) => next ()
  | .kill pid signal next =>
    match h.signal pid signal with
    | .error fault => some (h.goOn p (next (.failed fault)))
    | .ok _ =>
      let h := h.goOn p (next (.done ()))
      some ((h.signal pid signal).toOption.getD h)
  | .handle signal d next => some (h.goOn (withDisposition p signal d) (next ()))
  | .takeSignals next =>
    some (h.goOn { p with pending := [], interrupted := false } (next p.pending))
  | .execute path command environment next =>
    some (h.callExecute p path command environment next)
  | .changeDir path next =>
    let target := joinPath p.workingDir path
    let found := do
      if !(← h.files.info target).isDirectory then throw IoFault.notADirectory
      h.files.realPath target
    match found with
    | .ok dir => some (h.goOn { p with workingDir := dir } (next (.done ())))
    | .error fault => some (h.goOn p (next (.failed fault)))
  | .workingDir next => some (h.goOn p (next p.workingDir))
  | .processId next => some (h.goOn p (next p.pid))
  | .parentId next => some (h.goOn p (next p.parent))
  | .look path next => some (h.goOn p (next (h.files.info (joinPath p.workingDir path)).toOption))
  | .list path next =>
    let names := match h.files.list (joinPath p.workingDir path) with
      | .ok entries => (entries.map (·.1)).mergeSort fun a b => decide (a ≤ b)
      | .error _ => []
    some (h.goOn p (next names))

-- ---------------------------------------------------------------------------
-- Turns
-- ---------------------------------------------------------------------------

/-- How long a call takes. -/
def callTime : Duration := ⟨5000⟩

/-- The host after a process made as many calls as it could, up to a number of them; whether it
made any. -/
def runProcess (pid : UInt32) : Nat → Bool → Host → Bool × Host
  | 0, moved, h => (moved, h)
  | n + 1, moved, h =>
    match h.process? pid with
    | none => (moved, h)
    | some p =>
      if p.status.isSome || p.halted then (moved, h)
      else
        match h.call? p with
        | none => (moved, h)
        | some h => runProcess pid n true { h with now := h.now.after callTime }

/-- How many calls a process makes in one turn. -/
def turnLength : Nat := 100

/-- The host after every process had a turn; whether any made a call. -/
def turn (h : Host) : Bool × Host :=
  h.processes.foldl (fun (moved, h) p =>
    let (did, h) := runProcess p.pid turnLength false h
    (moved || did, h)) (false, h)

/-- The first moment that a process sleeps until. -/
def nextWaking? (h : Host) : Option Moment :=
  (h.processes.filterMap fun p => if p.halted then none else p.wakeAt).min?

end Host

end ScriptWarden
