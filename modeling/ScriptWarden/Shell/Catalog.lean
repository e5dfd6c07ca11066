import ScriptWarden.Shell.Launch

/-!
# Standard programs

The programs that every host has besides its shell: small ones that write, copy, count and wait.
-/

namespace ScriptWarden.Shell

namespace Catalog

/-- The words of a command line as texts in which each byte is one character. -/
def wordsOf (command : List (List UInt8)) : List String := command.map textOfBytes

/-- A program by its own name, its arguments and its environment. -/
abbrev Tool := String → List String → Environment → Asking Nat

/-- A tool as a program. -/
def Tool.launch (tool : Tool) : Launch := fun command environment =>
  let words := wordsOf command
  (tool (words.headD "") (words.drop 1) environment).toProgram

/-- Write a text; whether that worked. -/
def print (fd : Nat) (text : String) : Asking Bool := do
  if text.isEmpty then return true
  match ← Asking.write fd (bytesOfText text) with
  | .done _ => return true
  | _ => return false

/-- Write a complaint and fail. -/
def fail (name message : String) (code : Nat := 1) : Asking Nat := do
  discard (print 2 (name ++ ": " ++ message ++ "\n"))
  return code

/-- What is asked of one who gave no arguments, or the wrong ones. -/
def tryHelp (name : String) : String := "\nTry '" ++ name ++ " --help' for more information."

-- ---------------------------------------------------------------------------
-- Writing
-- ---------------------------------------------------------------------------

/-- Take the options of `echo` off: whether a line ends, whether escapes are replaced. -/
def echoOptions (line escapes : Bool) : List String → Bool × Bool × List String
  | word :: rest =>
    match word.toList with
    | '-' :: c :: letters =>
      if (c :: letters).all fun c => c == 'n' || c == 'e' || c == 'E' then
        let escapes := (c :: letters).foldl (fun on c =>
          if c == 'e' then true else if c == 'E' then false else on) escapes
        echoOptions (line && !(c :: letters).contains 'n') escapes rest
      else (line, escapes, word :: rest)
    | _ => (line, escapes, word :: rest)
  | [] => (line, escapes, [])

/-- Write the arguments. -/
def echo : Tool := fun _ arguments _ => do
  let (line, escapes, words) := echoOptions true false arguments
  let joined := " ".intercalate words
  let (text, stopped) :=
    if escapes then Format.unescape (joined.length + 1) joined.toList else (joined.toList, false)
  discard (print 1 (String.ofList (if line && !stopped then text ++ ['\n'] else text)))
  return 0

/-- Write by a format. -/
def printf : Tool := fun name arguments _ => do
  match arguments with
  | [] => fail name ("missing operand" ++ tryHelp name)
  | format :: arguments =>
    let filled := Format.printf format arguments
    discard (print 1 filled.text)
    for fault in filled.faults do
      discard (fail name (match fault with
        | .notNumber text => "'" ++ text ++ "': expected a numeric value"
        | .trailing text => "'" ++ text ++ "': value not completely converted"))
    match filled.refusal with
    | none => return if filled.faults.isEmpty then 0 else 1
    | some "" => fail name "missing % conversion specifier"
    | some place => fail name ("%" ++ place ++ ": invalid conversion specification")

/-- Write the same line again and again. The fuel bounds how often. -/
def repeated (line : String) : Nat → Asking Nat
  | 0 => pure 0
  | n + 1 => do
    if ← print 1 line then repeated line n else return 1

/-- Write lines for ever. -/
def yes : Tool := fun _ arguments _ =>
  let line := (if arguments.isEmpty then "y" else " ".intercalate arguments) ++ "\n"
  repeated (String.join (List.replicate 512 line)) Asking.stepLimit

/-- Write numbers from one to another. -/
def seq : Tool := fun name arguments _ => do
  match arguments.mapM (·.toInt?) with
  | some [last] => range 1 1 last
  | some [first, last] => range first 1 last
  | some [first, step, last] => range first step last
  | _ => fail name ("invalid argument" ++ tryHelp name)
where
  /-- Write the numbers of a range. -/
  range (first step last : Int) : Asking Nat := do
    let count := if step == 0 then 0 else ((last - first) / step + 1).toNat
    let numbers := (List.range count).map fun (i : Nat) => toString (first + step * i) ++ "\n"
    discard (print 1 (String.join numbers))
    return 0

-- ---------------------------------------------------------------------------
-- Copying
-- ---------------------------------------------------------------------------

/-- Copy from one number to the output. The fuel bounds how many pieces there are. -/
def copy (fd : Nat) : Nat → Asking Bool
  | 0 => pure true
  | n + 1 => do
    match ← Asking.read fd 65536 with
    | .done [] => return true
    | .done bytes =>
      match ← Asking.write 1 bytes with
      | .done _ => copy fd n
      | _ => return false
    | .interrupted => copy fd n
    | .failed _ => return false

/-- Write what files hold, or the input. -/
def cat : Tool := fun name arguments _ => do
  let mut code := 0
  for file in if arguments.isEmpty then ["-"] else arguments do
    if file == "-" then
      if !(← copy 0 Asking.stepLimit) then code := 1
    else
      match ← Asking.openFile (pathOfText file) .read with
      | .done fd =>
        if !(← copy fd Asking.stepLimit) then code := 1
        discard (Asking.close fd)
      | .failed fault => code ← fail name (file ++ ": " ++ Task.reason fault)
      | .interrupted => code := 1
  return code

/-- Copy the beginning of the input: so many bytes, or so many lines. The fuel bounds how many
pieces are read. -/
def copyHead (lines : Bool) : Nat → Nat → Asking Nat
  | 0, _ => pure 0
  | _, 0 => pure 0
  | n + 1, count => do
    match ← Asking.read 0 (if lines then 1 else count) with
    | .done [] => return 0
    | .done bytes =>
      match ← Asking.write 1 bytes with
      | .done _ =>
        let used := if lines then (bytes.filter (· == 10)).length else bytes.length
        copyHead lines n (count - used)
      | _ => return 1
    | .interrupted => copyHead lines n count
    | .failed _ => return 1

/-- Write the beginning of the input. -/
def head : Tool := fun name arguments _ => do
  let count := fun (text : String) => text.toNat?.getD 10
  match arguments with
  | [] => copyHead true Asking.stepLimit 10
  | ["-c", n] => copyHead false Asking.stepLimit (count n)
  | ["-n", n] => copyHead true Asking.stepLimit (count n)
  | [word] =>
    match word.toList with
    | '-' :: 'c' :: n => copyHead false Asking.stepLimit (count (String.ofList n))
    | '-' :: 'n' :: n => copyHead true Asking.stepLimit (count (String.ofList n))
    | '-' :: n => copyHead true Asking.stepLimit (count (String.ofList n))
    | _ => fail name ("cannot open '" ++ word ++ "' for reading")
  | _ => fail name ("invalid option" ++ tryHelp name)

-- ---------------------------------------------------------------------------
-- Processes
-- ---------------------------------------------------------------------------

/-- The span that a word writes: a decimal number of seconds, or of another unit. -/
def span? (word : String) : Option Duration :=
  let (digits, unit) := match word.toList.reverse with
    | 's' :: rest => (rest.reverse, 1)
    | 'm' :: rest => (rest.reverse, 60)
    | 'h' :: rest => (rest.reverse, 3600)
    | 'd' :: rest => (rest.reverse, 86400)
    | rest => (rest.reverse, 1)
  let whole := digits.takeWhile Char.isDigit
  let fraction := match digits.drop whole.length with
    | [] => some []
    | '.' :: rest => if rest.all Char.isDigit then some rest else none
    | _ => none
  match fraction with
  | none => none
  | some places =>
    if whole.isEmpty && places.isEmpty then none
    else
      let billionths := (places ++ List.replicate 9 '0').take 9
      let value := fun (cs : List Char) => cs.foldl (fun n c => n * 10 + (c.toNat - 48)) 0
      some ⟨(value whole * 1000000000 + value billionths) * unit⟩

/-- Wait for a while. -/
def sleep : Tool := fun name arguments _ => do
  if arguments.isEmpty then fail name ("missing operand" ++ tryHelp name)
  else
    match arguments.find? fun word => (span? word).isNone with
    | some word => fail name ("invalid time interval '" ++ word ++ "'" ++ tryHelp name)
    | none =>
      discard (Asking.sleep ⟨total (arguments.filterMap fun word => (span? word).map (·.nanos))⟩)
      return 0

/-- Become another program with more variables, or write the variables. -/
def env : Tool := fun name arguments environment => do
  let environment := if arguments.head? == some "-i" then [] else environment
  let arguments := if arguments.head? == some "-i" then arguments.drop 1 else arguments
  let isAssignment := fun (word : String) => word.toList.contains '='
  let given := (arguments.takeWhile isAssignment).map fun word =>
    let (key, value) := Builtin.assignment word
    (key, bytesOfText (value.getD ""))
  let environment := environment.filter (fun v => (given.lookup v.1).isNone) ++ given
  match arguments.dropWhile isAssignment with
  | [] =>
    discard (print 1 (String.join (environment.map fun (key, value) =>
      key ++ "=" ++ textOfBytes value ++ "\n")))
    return 0
  | command :: rest =>
    let path := (environment.lookup "PATH").elim "/usr/bin:/bin" textOfBytes
    let places := if command.toList.contains '/' then [command]
      else (path.splitOn ":").map fun dir => dir ++ "/" ++ command
    let mut found := none
    for place in places do
      if found.isNone && (← Asking.look (pathOfText place)).isSome then found := some place
    match found with
    | none => fail name ("'" ++ command ++ "': No such file or directory") 127
    | some place =>
      let fault ← Asking.execute (pathOfText place) ((command :: rest).map bytesOfText) environment
      fail name ("'" ++ command ++ "': " ++ Task.reason fault) 126

/-- Write the working directory. -/
def pwd : Tool := fun _ _ _ => do
  discard (print 1 (textOfPath (← Asking.workingDir) ++ "\n"))
  return 0

/-- Decide a condition. -/
def test (name : String) (words : List String) : Asking Nat := do
  match ← Condition.decide words with
  | .ok holds => return if holds then 0 else 1
  | .error message => fail name message 2

/-- Carry out a command that a shell has built in. -/
def builtIn (action : List String → Task Nat) : Tool := fun name arguments _ => do
  let s : State := { name, pid := ← Asking.processId }
  let (result, _) ← (action arguments).run.run s
  match result with
  | .ok status => return status
  | .error _ => return 2

/-- The programs by their names. -/
def programs : List (String × Launch) :=
  [("sh", launch), ("dash", launch), ("echo", Tool.launch echo), ("printf", Tool.launch printf),
   ("cat", Tool.launch cat), ("head", Tool.launch head), ("sleep", Tool.launch sleep),
   ("env", Tool.launch env), ("pwd", Tool.launch pwd), ("yes", Tool.launch yes),
   ("seq", Tool.launch seq), ("kill", Tool.launch (builtIn Builtin.kill)),
   ("true", Tool.launch fun _ _ _ => pure 0), ("false", Tool.launch fun _ _ _ => pure 1),
   ("test", Tool.launch fun name words _ => test name words),
   ("[", Tool.launch fun name words _ => test name words.dropLast)]

/-- The program with a name. -/
def find : ScriptWarden.Catalog := fun name => programs.lookup name

end Catalog

end ScriptWarden.Shell
