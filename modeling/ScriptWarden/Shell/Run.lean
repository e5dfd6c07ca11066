import ScriptWarden.Shell.Builtin
import ScriptWarden.Shell.Reader

/-!
# Running shell commands

How a shell carries out commands. Commands that are programs run in children, as do parts of
pipelines and commands in the background; what a redirection replaces is kept aside while a command
of the shell itself runs, and put back afterwards.
-/

namespace ScriptWarden.Shell

/-- How a command stands among others. -/
structure Setting where
  /-- Whether the process has nothing to do after it. -/
  last : Bool := false
  /-- Whether its status decides what comes next. -/
  tested : Bool := false
deriving DecidableEq, Repr, Inhabited

namespace Task

/-- Carry out a step and see whether the shell departs in it. -/
def attempt (task : Task α) : Task (Except Departure α) := ExceptT.mk (Except.ok <$> task.run)

/-- Let the last command have ended with a status. -/
def setStatus (status : Nat) : Task Unit := modify fun s => { s with status }

/-- Let one number stand for what another does, and close that one. -/
def move (source target : Nat) : Task Unit := do
  if source != target then
    discard (ask (.duplicate source target))
    discard (ask (.close source))

/-- Wait for a child to end. The fuel bounds how many signals come meanwhile. -/
def awaitChild (child : UInt32) : Nat → Asking UInt32
  | 0 => pure 0
  | n + 1 => do
    match ← Asking.wait (some child) with
    | .done (_, word) => return word
    | .failed _ => return 127 * 256
    | .interrupted => awaitChild child n

/-- Wait for a child in the foreground, and say which signal ended it. -/
def await (child : UInt32) : Task Nat := do
  let word ← ask (awaitChild child Asking.stepLimit)
  if let some notice := signalNotice? word then discard (print 2 (notice ++ "\n"))
  return statusOfWord word

/-- Begin a life as a child: signals that were caught get their standard effect. -/
def enterChild : Task Unit := do
  for (signal, action) in (← get).traps do
    if signal != 0 && !action.isEmpty then ask (.handle signal .standard)
  modify fun s =>
    { s with traps := s.traps.filter fun t => t.1 != 0 && t.2.isEmpty, loops := 0 }

-- ---------------------------------------------------------------------------
-- Programs
-- ---------------------------------------------------------------------------

/-- What a shell writes about a fault. -/
def reason (fault : IoFault) : String := (fault.message.splitOn " (os error").headD ""

/-- The path of the program with a name. -/
def program? (name : String) : Task (Option String) := do
  if name.toList.contains '/' then
    return (← ask (.look (pathOfText name))).map fun _ => name
  let dirs := ((← valueOf? "PATH").getD "").splitOn ":"
  for dir in dirs do
    let path := if dir.isEmpty then name else dir ++ "/" ++ name
    if ((← ask (.look (pathOfText path))).map (·.isFile)).getD false then return some path
  return none

/-- Become another program. -/
def become (command path : String) (words : List String) : Task α := do
  let fault ← ask (.execute (pathOfText path) (words.map bytesOfText) (← environment))
  let name := command ++ words.headD ""
  if fault == .notFound || fault == .notADirectory then
    complain (name ++ ": not found")
    throw (.exit 127)
  else
    complain (name ++ ": " ++ reason fault)
    throw (.exit 126)

/-- What a name stands for as a command. -/
def describe (name : String) : Task (Option (String × String)) := do
  if ((← get).functions.lookup name).isSome then
    return some (name, name ++ " is a shell function")
  if Builtin.special.contains name then
    return some (name, name ++ " is a special shell builtin")
  if Builtin.isBuiltin name then return some (name, name ++ " is a shell builtin")
  return (← program? name).map fun path => (path, name ++ " is " ++ path)

-- ---------------------------------------------------------------------------
-- Redirections
-- ---------------------------------------------------------------------------

/-- What a redirection replaced: a number, and the number under which it is kept if it stood for
something. -/
abbrev Replaced := Nat × Option Nat

/-- Keep what a number stands for. -/
def keep (fd : Nat) : Task Replaced := do
  let spare := (← get).spare
  match ← ask (.duplicate fd spare) with
  | .done _ =>
    modify fun s => { s with spare := spare + 1 }
    return (fd, some spare)
  | _ => return (fd, none)

/-- Put back what redirections replaced, given last one first. -/
def putBack (replaced : List Replaced) : Task Unit := do
  for (fd, kept) in replaced do
    match kept with
    | some spare =>
      move spare fd
      modify fun s => { s with spare }
    | none => discard (ask (.close fd))

/-- Open a file under a number; whether that worked. -/
def openAt (fd : Nat) (name : String) (mode : OpenMode) : Task Bool := do
  match ← ask (.openFile (pathOfText name) mode) with
  | .done opened =>
    move opened fd
    return true
  | .failed fault =>
    let missing := fault == .notFound || fault == .notADirectory
    let message := if mode == .read then
        "cannot open " ++ name ++ ": " ++ if missing then "No such file" else reason fault
      else
        "cannot create " ++ name ++ ": " ++ if missing then "Directory nonexistent" else reason fault
    complain message
    return false
  | .interrupted => return false

/-- Lead a number to somewhere else; whether that worked. -/
def lead (fd : Nat) (direction : Direction) (target : String) : Task Bool := do
  match direction with
  | .input => openAt fd target .read
  | .output => openAt fd target .overwrite
  | .append | .both => openAt fd target .append
  | .same =>
    if target == "-" then
      discard (ask (.close fd))
      return true
    else
      match Builtin.count? target with
      | some source =>
        match ← ask (.duplicate source fd) with
        | .done _ => return true
        | _ =>
          complain (target ++ ": Bad file descriptor")
          return false
      | none => fatal "Syntax error: Bad fd number"

end Task

namespace Run

/-- How a script goes on after a departure from the body of a loop. -/
def afterBody (result : Except Departure Unit) : Task Bool := do
  match result with
  | .ok _ => return true
  | .error (.leave (n + 2)) => throw (.leave (n + 1))
  | .error (.leave _) => return false
  | .error (.again (n + 2)) => throw (.again (n + 1))
  | .error (.again _) => return true
  | .error d => throw d

/-- Whether a shell does anything of its own about signals or its end. -/
def hasTraps (s : State) : Bool := s.traps.any fun t => !t.2.isEmpty

/-- Whether a shell does anything of its own about signals. -/
def catchesSignals (s : State) : Bool := s.traps.any fun t => t.1 != 0 && !t.2.isEmpty

/-- Assign variables for a while; what they were. -/
def assignFor (values : List (String × String)) : Task (List (String × Option Variable)) :=
  values.mapM fun (name, value) => do
    let old := (← get).bindings.lookup name
    Task.putVariable name (some { value := some value, exported := true })
    return (name, old)

/-- How many loops a word says, at most those that there are. -/
def loopCount (command : String) (words : List String) : Task Nat := do
  let n ← match words with
    | word :: _ => Builtin.count command word
    | [] => pure 1
  if n == 0 then Task.fatal (command ++ ": Illegal number: 0")
  return min n (← get).loops

/-- The status that a word says, or that of the last command. -/
def statusOf (command : String) (words : List String) : Task Nat := do
  match words with
  | word :: _ => Builtin.count command word
  | [] => return (← get).status

mutual

/-- The program of a child that carries out something. -/
def child (fuel : Nat) (task : Task Unit) (s : State) : Program :=
  match fuel with
  | 0 => .exit 2
  | n + 1 => (do Task.enterChild; task : Task Unit).run.run s fun (result, s) => finish n result s

/-- End a shell, after what it does at its end. -/
def finish (fuel : Nat) (result : Except Departure Unit) (s : State) : Program :=
  match fuel with
  | 0 => .exit 2
  | n + 1 =>
    let status := match result with
      | .error (.exit status) | .error (.back status) => status
      | _ => s.status
    match s.traps.lookup 0 with
    | none => .exit status
    | some action =>
      let s := { s with status, traps := s.traps.filter (·.1 != 0) }
      (script n {} { rest := action.toList, line := s.line }).run.run s fun (result, _) =>
        match result with
        | .error (.exit status) => .exit status
        | _ => .exit status

/-- Carry out the rest of a script. -/
def script (fuel : Nat) (setting : Setting) (source : Source) : Task Unit :=
  match fuel with
  | 0 => throw (.exit 2)
  | n + 1 => do
    match readNext source with
    | .error fault =>
      modify fun s => { s with line := fault.line }
      Task.fatal fault.message
    | .ok (none, _) => return
    | .ok (some commands, rest) =>
      let last := setting.last && (Reading.dropLines rest.rest.length rest.rest).isEmpty
      command n { setting with last } (.sequence commands)
      script n setting rest

/-- Run the actions for the signals that have come in. -/
def actions (fuel : Nat) : Task Unit :=
  match fuel with
  | 0 => throw (.exit 2)
  | n + 1 => do
    if catchesSignals (← get) then
      for signal in ← Task.ask .takeSignals do
        let s ← get
        if let some action := s.traps.lookup signal then
          script n {} { rest := action.toList, line := s.line }
          Task.setStatus s.status

/-- What commands write. -/
def substitute (fuel : Nat) (commands : List Command) : Task String :=
  match fuel with
  | 0 => throw (.exit 2)
  | n + 1 => do
    let (readEnd, writeEnd) ← Task.ask .pipe
    let body : Task Unit := do
      discard (Task.ask (.close readEnd))
      Task.move writeEnd 1
      command n { last := true } (.sequence commands)
    let pid ← Task.ask (.fork (child n body (← get)))
    discard (Task.ask (.close writeEnd))
    let bytes ← Task.ask (.readAll readEnd)
    discard (Task.ask (.close readEnd))
    let word ← Task.ask (Task.awaitChild pid Asking.stepLimit)
    let status := statusOfWord word
    modify fun s => { s with substituted := some status, status }
    let text := textOfBytes (bytes.filter (· != 0))
    return String.ofList (text.toList.reverse.dropWhile (· == '\n')).reverse

/-- Lead numbers to where redirections say; whether that worked, and what it replaced. -/
def redirect (fuel : Nat) (redirections : List Redirection) (replaced : List Task.Replaced) :
    Task (Bool × List Task.Replaced) :=
  match fuel, redirections with
  | 0, _ => throw (.exit 2)
  | _, [] => return (true, replaced)
  | n + 1, .to fd direction target :: rest => do
    let target ← Expansion.text (substitute n) target
    let kept ← Task.keep fd
    if ← Task.lead fd direction target then redirect n rest (kept :: replaced)
    else return (false, kept :: replaced)

/-- Lead numbers to where redirections say for good. -/
def redirectForGood (fuel : Nat) (redirections : List Redirection) : Task Bool :=
  match fuel, redirections with
  | 0, _ => throw (.exit 2)
  | _, [] => return true
  | n + 1, .to fd direction target :: rest => do
    let target ← Expansion.text (substitute n) target
    if ← Task.lead fd direction target then redirectForGood n rest else return false

/-- Carry out something under redirections; none if one of them did not work. -/
def redirected (fuel : Nat) (redirections : List Redirection) (task : Task Unit) :
    Task (Option Unit) :=
  match fuel with
  | 0 => throw (.exit 2)
  | n + 1 => do
    if redirections.isEmpty then some <$> task
    else
      let (worked, replaced) ← redirect n redirections []
      if worked then
        let result ← Task.attempt task
        Task.putBack replaced
        match result with
        | .ok _ => return some ()
        | .error d => throw d
      else
        Task.putBack replaced
        Task.setStatus 2
        return none

/-- Carry out a command. -/
def command (fuel : Nat) (setting : Setting) (c : Command) : Task Unit :=
  match fuel with
  | 0 => throw (.exit 2)
  | n + 1 => do
    let mayEnd ← match c with
      | .simple line assignments words redirections =>
        modify fun s => { s with line, substituted := none }
        simple n setting assignments words redirections
        pure true
      | .pipeline negated [c] =>
        command n { tested := negated || setting.tested } c
        if negated then
          modify fun s => { s with status := if s.status == 0 then 1 else 0 }
        pure false
      | .pipeline negated commands =>
        let pids ← pipeline n commands none
        let statuses ← pids.mapM Task.await
        let status := statuses.getLast?.getD 0
        Task.setStatus (if negated then (if status == 0 then 1 else 0) else status)
        pure (!negated)
      | .both first second =>
        command n { tested := true } first
        if (← get).status == 0 then command n setting second
        pure false
      | .either first second =>
        command n { tested := true } first
        if (← get).status != 0 then command n setting second
        pure false
      | .sequence commands =>
        sequence n setting commands
        pure false
      | .background c =>
        let body : Task Unit := do
          Task.ask (.handle 2 .ignored)
          Task.ask (.handle 3 .ignored)
          discard (Task.openAt 0 "/dev/null" .read)
          command n { last := true } c
        let pid ← Task.ask (.fork (child n body (← get)))
        modify fun s => { s with lastJob := some pid, status := 0 }
        pure false
      | .group body redirections =>
        let last := setting.last && redirections.isEmpty
        discard (redirected n redirections (command n { setting with last } body))
        pure false
      | .subshell body redirections =>
        let inside : Task Unit := do
          if ← redirectForGood n redirections then command n { last := true } body
          else throw (.exit 2)
        let s ← get
        if setting.last && !hasTraps s then
          inside
          throw (.exit (← get).status)
        Task.setStatus (← Task.await (← Task.ask (.fork (child n inside s))))
        pure true
      | .branch condition yes no redirections =>
        let last := setting.last && redirections.isEmpty
        let body : Task Unit := do
          command n { tested := true } condition
          if (← get).status == 0 then command n { setting with last } yes
          else
            match no with
            | some no => command n { setting with last } no
            | none => Task.setStatus 0
        discard (redirected n redirections body)
        pure false
      | .loop untilTrue condition body redirections =>
        let whole : Task Unit := do
          modify fun s => { s with loops := s.loops + 1 }
          let result ← Task.attempt (loop n untilTrue condition body 0)
          modify fun s => { s with loops := s.loops - 1 }
          match result with
          | .ok status => Task.setStatus status
          | .error d => throw d
        discard (redirected n redirections whole)
        pure false
      | .each name words body redirections =>
        let whole : Task Unit := do
          let values ← match words with
            | some words =>
              List.flatten <$> words.mapM (Expansion.fields (substitute n))
            | none => pure (← get).arguments
          modify fun s => { s with loops := s.loops + 1, status := 0 }
          let result ← Task.attempt (each n name values body)
          modify fun s => { s with loops := s.loops - 1 }
          match result with
          | .ok _ => return
          | .error d => throw d
        discard (redirected n redirections whole)
        pure false
      | .choose subject clauses redirections =>
        let last := setting.last && redirections.isEmpty
        let whole : Task Unit := do
          let text ← Expansion.text (substitute n) subject
          choose n { setting with last } text.toList clauses
        discard (redirected n redirections whole)
        pure false
      | .define name body =>
        modify fun s =>
          { s with functions := (name, body) :: s.functions.filter (·.1 != name), status := 0 }
        pure false
    actions n
    let s ← get
    if mayEnd && !setting.tested && s.options.stopAtFailure && s.status != 0 then
      throw (.exit s.status)

/-- Carry out commands one after the other. -/
def sequence (fuel : Nat) (setting : Setting) (commands : List Command) : Task Unit :=
  match fuel, commands with
  | 0, _ => throw (.exit 2)
  | _, [] => return
  | n + 1, [c] => command n setting c
  | n + 1, c :: rest => do
    command n { setting with last := false } c
    sequence n setting rest

/-- Start the commands of a pipeline, each reading what the one before writes. -/
def pipeline (fuel : Nat) (commands : List Command) (input : Option Nat) : Task (List UInt32) :=
  match fuel, commands with
  | 0, _ => throw (.exit 2)
  | _, [] => return []
  | n + 1, c :: rest => do
    let ends ← if rest.isEmpty then pure none else some <$> Task.ask .pipe
    let body : Task Unit := do
      if let some readEnd := input then Task.move readEnd 0
      if let some (readEnd, writeEnd) := ends then
        discard (Task.ask (.close readEnd))
        Task.move writeEnd 1
      command n { last := true } c
    let pid ← Task.ask (.fork (child n body (← get)))
    if let some readEnd := input then discard (Task.ask (.close readEnd))
    if let some (_, writeEnd) := ends then discard (Task.ask (.close writeEnd))
    return pid :: (← pipeline n rest (ends.map (·.1)))

/-- Carry out a loop, whose body ended with a status the last time. -/
def loop (fuel : Nat) (untilTrue : Bool) (condition body : Command) (status : Nat) : Task Nat :=
  match fuel with
  | 0 => throw (.exit 2)
  | n + 1 => do
    Task.ask .compute
    let conditionGoesOn ← afterBody (← Task.attempt (command n { tested := true } condition))
    let holds := (← get).status == 0
    if !conditionGoesOn || holds == untilTrue then return status
    let goesOn ← afterBody (← Task.attempt (command n {} body))
    let status := (← get).status
    if goesOn then loop n untilTrue condition body status else return status

/-- Carry out a body for each of some values. -/
def each (fuel : Nat) (name : String) (values : List String) (body : Command) : Task Unit :=
  match fuel, values with
  | 0, _ => throw (.exit 2)
  | _, [] => return
  | n + 1, value :: rest => do
    Task.ask .compute
    Task.assign name value
    if ← afterBody (← Task.attempt (command n {} body)) then each n name rest body

/-- Carry out the first clause with a pattern for a text. -/
def choose (fuel : Nat) (setting : Setting) (text : List Char)
    (clauses : List (List (List Part) × Command)) : Task Unit :=
  match fuel, clauses with
  | 0, _ => throw (.exit 2)
  | _, [] => Task.setStatus 0
  | n + 1, (patterns, body) :: rest => do
    let mut found := false
    for pattern in patterns do
      if !found then
        found := Pattern.isMatch (← Expansion.pattern (substitute n) pattern) text
    if found then
      Task.setStatus 0
      command n setting body
    else choose n setting text rest

/-- Carry out a command that is no more than assignments, words and redirections. -/
def simple (fuel : Nat) (setting : Setting) (assignments : List (String × List Part))
    (words : List (List Part)) (redirections : List Redirection) : Task Unit :=
  match fuel with
  | 0 => throw (.exit 2)
  | n + 1 => do
    let fields ← List.flatten <$> words.mapM (Expansion.fields (substitute n))
    let values := assignments.mapM fun (name, word) => do
      return (name, ← Expansion.text (substitute n) word)
    let traced := fun (values : List (String × String)) => do
      if (← get).options.trace then
        let shown := values.map (fun (name, value) => name ++ "=" ++ value) ++ fields
        discard (Task.print 2 ("+ " ++ " ".intercalate shown ++ "\n"))
    match fields with
    | [] =>
      let body : Task Unit := do
        for (name, word) in assignments do
          let value ← Expansion.text (substitute n) word
          traced [(name, value)]
          Task.assign name value
        let s ← get
        Task.setStatus (s.substituted.getD 0)
      discard (redirected n redirections body)
    | "command" :: "-v" :: name :: _ =>
      match ← Task.describe name with
      | some (text, _) => Task.setStatus (← Builtin.output "command" (text ++ "\n"))
      | none => Task.setStatus 127
    | "command" :: name :: arguments =>
      let values ← values
      traced values
      named n setting values name arguments redirections true
    | "exec" :: arguments =>
      let values ← values
      traced values
      if !(← redirectForGood n redirections) then throw (.exit 2)
      match arguments with
      | [] =>
        for (name, value) in values do
          Task.assign name value
        Task.setStatus 0
      | name :: _ =>
        discard (assignFor values)
        match ← Task.program? name with
        | some path => Task.become "exec: " path arguments
        | none =>
          Task.complain ("exec: " ++ name ++ ": not found")
          throw (.exit 127)
    | name :: arguments =>
      let values ← values
      traced values
      named n setting values name arguments redirections false

/-- Carry out the command with a name. -/
def named (fuel : Nat) (setting : Setting) (values : List (String × String)) (name : String)
    (arguments : List String) (redirections : List Redirection) (plain : Bool) : Task Unit :=
  match fuel with
  | 0 => throw (.exit 2)
  | n + 1 => do
    let s ← get
    let function := if plain then none else s.functions.lookup name
    let isSpecial := Builtin.special.contains name && !plain
    match function with
    | some body =>
      let task : Task Unit := do
        let old ← assignFor values
        call n body arguments
        for (name, v) in old do
          Task.putVariable name v
      discard (redirected n redirections task)
    | none =>
      if Builtin.isBuiltin name then
        let task : Task Unit := do
          let old ← if isSpecial then do
              for (name, value) in values do
                Task.assign name value
              pure []
            else assignFor values
          let result ← Task.attempt (builtIn n name arguments)
          for (name, v) in old do
            Task.putVariable name v
          match result with
          | .ok status => Task.setStatus status
          | .error d => throw d
        match ← redirected n redirections task with
        | some _ => return
        | none => if isSpecial then throw (.exit 2)
      else
        match ← Task.program? name with
        | none =>
          let task : Task Unit := do
            Task.complain (name ++ ": not found")
            Task.setStatus 127
          discard (redirected n redirections task)
        | some path =>
          let body : Task Unit := do
            if !(← redirectForGood n redirections) then throw (.exit 2)
            discard (assignFor values)
            Task.become "" path (name :: arguments)
          if setting.last && !hasTraps s then body
          else
            let pid ← Task.ask (.fork (child n body s))
            Task.setStatus (← Task.await pid)

/-- Carry out a function. -/
def call (fuel : Nat) (body : Command) (arguments : List String) : Task Unit :=
  match fuel with
  | 0 => throw (.exit 2)
  | n + 1 => do
    let outer ← get
    modify fun s => { s with arguments, loops := 0, setAside := [] :: s.setAside }
    let result ← Task.attempt (command n {} body)
    for (name, v) in ((← get).setAside.headD []) do
      Task.putVariable name v
    modify fun s =>
      { s with arguments := outer.arguments, loops := outer.loops, setAside := outer.setAside }
    match result with
    | .ok _ => return
    | .error (.back status) => Task.setStatus status
    | .error d => throw d

/-- Carry out a command that is built in. -/
def builtIn (fuel : Nat) (name : String) (arguments : List String) : Task Nat :=
  match fuel with
  | 0 => throw (.exit 2)
  | n + 1 => do
    match name with
    | "exit" => throw (.exit (← statusOf name arguments))
    | "return" => throw (.back (← statusOf name arguments))
    | "break" =>
      match ← loopCount name arguments with
      | 0 => return 0
      | loops =>
        Task.setStatus 0
        throw (.leave loops)
    | "continue" =>
      match ← loopCount name arguments with
      | 0 => return 0
      | loops =>
        Task.setStatus 0
        throw (.again loops)
    | "eval" =>
      Task.setStatus 0
      script n {} { rest := (" ".intercalate arguments).toList, line := (← get).line }
      return (← get).status
    | "." =>
      match arguments with
      | [] => return 0
      | file :: _ =>
        match ← Task.ask (.openFile (pathOfText file) .read) with
        | .done fd =>
          let text := textOfBytes (← Task.ask (.readAll fd))
          discard (Task.ask (.close fd))
          Task.setStatus 0
          match ← Task.attempt (script n {} { rest := text.toList }) with
          | .ok _ => return (← get).status
          | .error (.back status) => return status
          | .error d => throw d
        | _ =>
          if file.toList.contains '/' then
            Task.fatal (".: cannot open " ++ file ++ ": No such file")
          else Task.fatal (".: " ++ file ++ ": not found")
    | "type" =>
      let mut status := 0
      for name in arguments do
        match ← Task.describe name with
        | some (_, text) => discard (Builtin.output "type" (text ++ "\n"))
        | none =>
          discard (Builtin.output "type" (name ++ ": not found\n"))
          status := 127
      return status
    | _ =>
      match Builtin.find? name with
      | some action => action arguments
      | none => return 0

end

end Run

end ScriptWarden.Shell
