import ScriptWarden.Host.Signal
import ScriptWarden.Shell.Condition
import ScriptWarden.Shell.Format

/-!
# Built-in commands

The commands that a shell carries out itself and that run no other commands. Each gives the status
that it ends with.
-/

namespace ScriptWarden.Shell

namespace Builtin

-- ---------------------------------------------------------------------------
-- Output
-- ---------------------------------------------------------------------------

/-- Write the output of a command. -/
def output (name text : String) (status : Nat := 0) : Task Nat := do
  if text.isEmpty then return status
  match ← Task.print 1 text with
  | .done _ => return status
  | _ =>
    Task.complain (name ++ ": " ++ name ++ ": I/O error")
    return 1

/-- Write by a format. -/
def printf (words : List String) : Task Nat := do
  match if words.head? == some "--" then words.drop 1 else words with
  | [] =>
    Task.complain "printf: usage: printf format [arg ...]"
    return 2
  | format :: arguments =>
    match words.head?.map String.toList with
    | some ('-' :: c :: _) =>
      if c != '-' then
        Task.complain ("printf: Illegal option -" ++ c.toString)
        return 2
    | _ => pure ()
    let filled := Format.printf format arguments
    for fault in filled.faults do
      Task.complain ("printf: " ++ match fault with
        | .notNumber text => text ++ ": expected numeric value"
        | .trailing text => text ++ ": not completely converted")
    match filled.refusal with
    | none => output "printf" filled.text (if filled.faults.isEmpty then 0 else 1)
    | some place =>
      discard (output "printf" filled.text)
      Task.complain ("printf: " ++
        if place.isEmpty then "missing format character" else "%" ++ place ++ ": invalid directive")
      return 2

/-- A text in quotes that a shell reads back as it is. -/
def quoted (text : String) : String :=
  "'" ++ String.ofList (text.toList.flatMap fun c => if c == '\'' then "'\"'\"'".toList else [c])
    ++ "'"

/-- Some of the variables as assignments, by name. -/
def assignments (bindings : List (String × Variable)) : List String :=
  let ordered := bindings.mergeSort fun a b => a.1 ≤ b.1
  ordered.map fun (name, v) => name ++ (v.value.map fun text => "=" ++ quoted text).getD ""

-- ---------------------------------------------------------------------------
-- Numbers and names
-- ---------------------------------------------------------------------------

/-- The number that digits write, if it is not too large for a status. -/
def count? (text : String) : Option Nat :=
  if text.isEmpty || !text.toList.all Char.isDigit then none
  else text.toNat?.bind fun n => if n < twoTo 31 then some n else none

/-- The number that an argument has to be. -/
def count (name text : String) : Task Nat := do
  match count? text with
  | some n => return n
  | none => Task.fatal (name ++ ": Illegal number: " ++ text)

/-- The signal that a word names; 0 stands for the end of the shell. -/
def signal? (word : String) : Option Nat :=
  match count? word with
  | some n => if n ≤ Signal.highest then some n else none
  | none =>
    let name := word.toUpper
    if name == "EXIT" then some 0 else Signal.ofName? name

/-- Whether a text is the name of a variable. -/
def isName (text : String) : Bool :=
  text.toList.all (fun c => c.isAlphanum || c == '_')
    && (text.toList.head?.map fun c => !c.isDigit).getD false

/-- A word cut at its first equals sign. -/
def assignment (word : String) : String × Option String :=
  let name := word.toList.takeWhile (· != '=')
  let rest := word.toList.drop name.length
  (String.ofList name, if rest.isEmpty then none else some (String.ofList (rest.drop 1)))

/-- Cut an assignment whose name has to be one. -/
def named (command word : String) : Task (String × Option String) := do
  let (name, value) := assignment word
  if !isName name then Task.fatal (command ++ ": " ++ name ++ ": bad variable name")
  return (name, value)

-- ---------------------------------------------------------------------------
-- Variables
-- ---------------------------------------------------------------------------

/-- Mark variables, and assign those that come with a value. -/
def mark (command : String) (change : Variable → Variable) (words : List String) : Task Nat := do
  match words.filter (· != "-p") with
  | [] =>
    let marked := (← get).bindings.filter fun v => change v.2 == v.2
    let lines := (assignments marked).map fun line => command ++ " " ++ line ++ "\n"
    output command (String.join lines)
  | words =>
    for word in words do
      let (name, value) ← named command word
      if let some text := value then Task.assign name text
      let old := ((← get).bindings.lookup name).getD { value := none }
      Task.putVariable name (some (change old))
    return 0

/-- Forget variables, or functions. -/
def unset (words : List String) : Task Nat := do
  match words with
  | "-f" :: names =>
    modify fun s => { s with functions := s.functions.filter fun f => !names.contains f.1 }
    return 0
  | words =>
    for name in words.filter (· != "-v") do
      if !isName name then Task.fatal ("unset: " ++ name ++ ": bad variable name")
      if (((← get).bindings.lookup name).map (·.constant)).getD false then
        Task.fatal ("unset: " ++ name ++ ": is read only")
      Task.putVariable name none
    return 0

/-- Set variables aside until the function ends. -/
def localNames (words : List String) : Task Nat := do
  match (← get).setAside with
  | [] => Task.fatal "local: not in a function"
  | aside :: outer =>
    let mut aside := aside
    for word in words do
      let (name, value) ← named "local" word
      let old := (← get).bindings.lookup name
      if (aside.lookup name).isNone then aside := (name, old) :: aside
      modify fun s => { s with setAside := aside :: outer }
      if let some text := value then Task.assign name text
    return 0

/-- Options with one letter's set or cleared. -/
def withOption (o : Options) (c : Char) (on : Bool) : Option Options :=
  match c with
  | 'a' => some { o with exportAll := on }
  | 'e' => some { o with stopAtFailure := on }
  | 'f' => some { o with plainPatterns := on }
  | 'u' => some { o with refuseUnset := on }
  | 'x' => some { o with trace := on }
  | 'b' | 'm' | 'n' | 'v' | 'C' | 'I' | 'h' => some o
  | _ => none

/-- The letter of an option by its name. -/
def optionLetter? (name : String) : Option Char :=
  [("allexport", 'a'), ("errexit", 'e'), ("noglob", 'f'), ("nounset", 'u'), ("xtrace", 'x'),
   ("notify", 'b'), ("monitor", 'm'), ("noexec", 'n'), ("verbose", 'v'),
   ("noclobber", 'C')].lookup name

/-- Set or clear the options of a word's letters. -/
def setLetters (on : Bool) (letters : List Char) : Task Unit := do
  for c in letters do
    match withOption (← get).options c on with
    | some options => modify fun s => { s with options }
    | none => Task.fatal ("set: Illegal option " ++ (if on then "-" else "+") ++ c.toString)

/-- Set options, and the arguments if any are given. -/
def setOptions : List String → Task Nat
  | [] => return 0
  | "--" :: arguments => do
    modify fun s => { s with arguments }
    return 0
  | "-o" :: name :: rest => do
    setLetters true (optionLetter? name).toList
    setOptions rest
  | "+o" :: name :: rest => do
    setLetters false (optionLetter? name).toList
    setOptions rest
  | word :: rest => do
    match word.toList with
    | '-' :: c :: letters =>
      setLetters true (c :: letters)
      setOptions rest
    | '+' :: c :: letters =>
      setLetters false (c :: letters)
      setOptions rest
    | _ =>
      modify fun s => { s with arguments := word :: rest }
      return 0

/-- Drop some of the arguments. -/
def shift (words : List String) : Task Nat := do
  let n ← match words with
    | word :: _ => count "shift" word
    | [] => pure 1
  if (← get).arguments.length < n then Task.fatal "shift: can't shift that many"
  modify fun s => { s with arguments := s.arguments.drop n }
  return 0

-- ---------------------------------------------------------------------------
-- Input
-- ---------------------------------------------------------------------------

/-- Read a line, last character first, and whether it was ended. A backslash takes the meaning of
what follows, unless lines are read as they are. The fuel bounds the length. -/
def readLine (plain : Bool) : Nat → Marked → Asking (Marked × Bool)
  | 0, line => pure (line, false)
  | n + 1, line => do
    match ← Asking.read 0 1 with
    | .done [b] =>
      let c := Char.ofNat b.toNat
      if c == '\n' then return (line, true)
      else if c == '\x00' then readLine plain n line
      else if c == '\\' && !plain then
        match ← Asking.read 0 1 with
        | .done [b] =>
          let c := Char.ofNat b.toNat
          readLine plain n (if c == '\n' then line else (c, true) :: line)
        | _ => return (line, false)
      else readLine plain n ((c, false) :: line)
    | _ => return (line, false)

/-- The texts that a line gives to so many variables: the last one takes what is left. -/
def shares (separators : List Char) : Nat → Marked → List String
  | 0, _ => []
  | n + 1, line =>
    let separates := fun (c : Char × Bool) => !c.2 && separators.contains c.1
    let blank := fun (c : Char × Bool) => separates c && (c.1 == ' ' || c.1 == '\t' || c.1 == '\n')
    let line := line.dropWhile blank
    if n == 0 then [Marked.text (line.reverse.dropWhile blank).reverse]
    else
      let first := line.takeWhile fun c => !separates c
      let rest := (line.drop first.length).dropWhile blank
      let rest := match rest with
        | c :: after => if separates c then after else c :: after
        | [] => []
      Marked.text first :: shares separators n rest

/-- Read a line into variables. -/
def read (words : List String) : Task Nat := do
  let plain := words.head? == some "-r"
  match if plain then words.drop 1 else words with
  | [] =>
    Task.complain "read: arg count"
    return 2
  | names =>
    let (line, ended) ← Task.ask (readLine plain Asking.stepLimit [])
    let texts := shares (← Task.separators).toList names.length line.reverse
    for (name, text) in names.zip texts do
      Task.assign name text
    return if ended then 0 else 1

-- ---------------------------------------------------------------------------
-- Directories
-- ---------------------------------------------------------------------------

/-- A path without dots and empty names; a double dot takes back the name before it. -/
def tidied (path : String) : String :=
  let names := (path.splitOn "/").foldl (fun names name =>
    if name.isEmpty || name == "." then names
    else if name == ".." then names.drop 1
    else name :: names) []
  "/" ++ "/".intercalate names.reverse

/-- The working directory by the way it was reached. -/
def directory : Task String := do
  match ← Task.valueOf? "PWD" with
  | some path => return path
  | none => return textOfPath (← Task.ask .workingDir)

/-- Change the working directory. -/
def changeDir (words : List String) : Task Nat := do
  let words := words.filter fun w => w != "-L" && w != "-P" && w != "--"
  let old ← directory
  let target ← match words with
    | [] => Task.valueOf? "HOME"
    | "-" :: _ => Task.valueOf? "OLDPWD"
    | word :: _ => pure (some word)
  match target with
  | none => return 0
  | some target =>
    let path := tidied (if target.startsWith "/" then target else old ++ "/" ++ target)
    match ← Task.ask (.changeDir (pathOfText path)) with
    | .done _ =>
      Task.assign "OLDPWD" old
      Task.assign "PWD" path
      if words.head? == some "-" then output "cd" (path ++ "\n") else return 0
    | _ =>
      Task.complain ("cd: can't cd to " ++ target)
      return 2

/-- Write the working directory. -/
def printDirectory (words : List String) : Task Nat := do
  let path ← if words.contains "-P" then textOfPath <$> Task.ask .workingDir else directory
  output "pwd" (path ++ "\n")

-- ---------------------------------------------------------------------------
-- Processes and signals
-- ---------------------------------------------------------------------------

/-- Send a signal to processes. -/
def sendTo (signal : Nat) (targets : List String) : Task Nat := do
  let mut status := 0
  for target in targets do
    match count? target with
    | none =>
      Task.complain ("kill: Illegal number: " ++ target)
      return 2
    | some pid =>
      match ← Task.ask (.kill pid.toUInt32 signal) with
      | .done _ => pure ()
      | .failed fault =>
        let reason := if fault == .noSuchProcess then "No such process" else fault.message
        Task.complain ("kill: " ++ reason ++ "\n")
        status := 1
      | .interrupted => pure ()
  return status

/-- Send a signal that a word names to processes. -/
def sendNamed (word : String) (targets : List String) : Task Nat := do
  match signal? word with
  | some signal => sendTo signal targets
  | none =>
    Task.complain ("kill: invalid signal number or name: " ++ word)
    return 2

/-- Send signals, or name them. -/
def kill (words : List String) : Task Nat := do
  match words with
  | "-l" :: [] => output "kill" (String.join (Signal.names.map (· ++ "\n")))
  | "-l" :: word :: _ =>
    let number := (count? word).getD 0 % 128
    output "kill" (((Signal.name? number).getD (toString number)) ++ "\n")
  | "-s" :: word :: targets => sendNamed word targets
  | "--" :: targets => sendTo Signal.terminate targets
  | [] =>
    Task.complain
      ("kill: Usage: kill [-s sigspec | -signum | -sigspec] [pid | job]... or\n" ++
        "kill -l [exitstatus]")
    return 2
  | word :: targets =>
    match word.toList with
    | '-' :: name => sendNamed (String.ofList name) targets
    | _ => sendTo Signal.terminate (word :: targets)

/-- Do something about signals from now on: run an action, nothing, or what is standard. -/
def setTraps (action : Option String) (words : List String) : Task Nat := do
  for word in words do
    match signal? word with
    | none =>
      discard (Task.print 2 ("trap: " ++ word ++ ": bad trap\n"))
      return 1
    | some signal =>
      modify fun s =>
        let others := s.traps.filter (·.1 != signal)
        { s with traps := match action with | some a => others ++ [(signal, a)] | none => others }
      if signal != 0 then
        Task.ask (.handle signal (match action with
          | none => .standard
          | some action => if action.isEmpty then .ignored else .caught))
  return 0

/-- Set what is done about signals, or show it. -/
def trap (words : List String) : Task Nat := do
  match if words.head? == some "--" then words.drop 1 else words with
  | [] =>
    let ordered := (← get).traps.mergeSort fun a b => a.1 ≤ b.1
    let lines := ordered.map fun (signal, action) =>
      let name := if signal == 0 then "EXIT" else (Signal.name? signal).getD (toString signal)
      "trap -- " ++ quoted action ++ " " ++ name ++ "\n"
    output "trap" (String.join lines)
  | [word] => setTraps none [word]
  | action :: signals =>
    if (count? action).isSome then setTraps none (action :: signals)
    else setTraps (if action == "-" then none else some action) signals

/-- Wait for every child. The fuel bounds how many there are. -/
def waitAll : Nat → Task Nat
  | 0 => return 0
  | n + 1 => do
    match ← Task.ask (.wait none) with
    | .done _ => waitAll n
    | .failed _ => return 0
    | .interrupted => return 128 + Signal.terminate

/-- Wait for children. -/
def wait (words : List String) : Task Nat := do
  if words.isEmpty then waitAll Asking.stepLimit
  else
    let mut status := 0
    for word in words do
      let pid ← count "wait" word
      match ← Task.ask (.wait (some pid.toUInt32)) with
      | .done (_, word) =>
        if let some notice := signalNotice? word then discard (Task.print 2 (notice ++ "\n"))
        status := statusOfWord word
      | .failed _ => status := 127
      | .interrupted => return 128 + Signal.terminate
    return status

-- ---------------------------------------------------------------------------
-- All of them
-- ---------------------------------------------------------------------------

/-- Decide a condition. -/
def test (name : String) (words : List String) : Task Nat := do
  match ← Task.ask (Condition.decide words) with
  | .ok holds => return if holds then 0 else 1
  | .error message =>
    Task.complain (name ++ ": " ++ message)
    return 2

/-- The built-in commands whose faults end the shell. -/
def special : List String :=
  [":", ".", "break", "continue", "eval", "exec", "exit", "export", "readonly", "return", "set", "shift",
   "times", "trap", "unset"]

/-- The command with a name, if it is built in and runs no other commands. -/
def find? (name : String) : Option (List String → Task Nat) :=
  match name with
  | ":" | "true" => some fun _ => return 0
  | "false" => some fun _ => return 1
  | "echo" => some fun words => output "echo" (Format.echo words)
  | "printf" => some printf
  | "test" => some (test "test")
  | "[" => some fun words =>
    if words.getLast? == some "]" then test "[" words.dropLast
    else do
      Task.complain "[: missing ]"
      return 2
  | "read" => some read
  | "cd" | "chdir" => some changeDir
  | "pwd" => some printDirectory
  | "kill" => some kill
  | "trap" => some trap
  | "wait" => some wait
  | "export" => some (mark "export" fun v => { v with exported := true })
  | "readonly" => some (mark "readonly" fun v => { v with constant := true })
  | "unset" => some unset
  | "local" => some localNames
  | "shift" => some shift
  | "set" => some fun words => do
    if words.isEmpty then
      let shown := (← get).bindings.filter fun v => v.2.value.isSome
      output "set" (String.join ((assignments shown).map (· ++ "\n")))
    else setOptions words
  | "umask" => some fun words => if words.isEmpty then output "umask" "0022\n" else return 0
  | "hash" | "jobs" | "ulimit" | "times" => some fun _ => return 0
  | _ => none

/-- Whether a command is built in. -/
def isBuiltin (name : String) : Bool :=
  (find? name).isSome || special.contains name || name == "command" || name == "type"

end Builtin

end ScriptWarden.Shell
