import ScriptWarden.Shell.Run

/-!
# Starting a shell

How a shell begins: by the options and words of its command line it takes a script from there, from
a file or from its input.
-/

namespace ScriptWarden.Shell

/-- What the command line of a shell asks for. -/
structure CommandLine where
  options : Options := {}
  /-- Whether the first word is a script. -/
  isCommand : Bool := false
  /-- Whether the script comes from the input. -/
  fromInput : Bool := false
  words : List String
deriving Repr, Inhabited

namespace CommandLine

/-- Take in the letters of an option; an error names one that there is not. -/
def withLetters (on : Bool) : List Char → CommandLine → Except Char CommandLine
  | [], c => .ok c
  | 'c' :: rest, c => withLetters on rest { c with isCommand := on }
  | 's' :: rest, c => withLetters on rest { c with fromInput := on }
  | 'i' :: rest, c | 'l' :: rest, c => withLetters on rest c
  | letter :: rest, c =>
    match Builtin.withOption c.options letter on with
    | some options => withLetters on rest { c with options }
    | none => .error letter

/-- Read a command line, which follows the shell's name. -/
def read : CommandLine → List String → Except String CommandLine
  | c, "--" :: words | c, "-" :: words => .ok { c with words }
  | c, "-o" :: name :: rest => do
    let letters := (Builtin.optionLetter? name).toList
    match withLetters true letters c with
    | .ok c => read c rest
    | .error _ => .error ("Illegal option -o " ++ name)
  | c, word :: rest =>
    match word.toList with
    | '-' :: letter :: letters =>
      match withLetters true (letter :: letters) c with
      | .ok c => read c rest
      | .error bad => .error ("Illegal option -" ++ bad.toString)
    | '+' :: letter :: letters =>
      match withLetters false (letter :: letters) c with
      | .ok c => read c rest
      | .error bad => .error ("Illegal option +" ++ bad.toString)
    | _ => .ok { c with words := word :: rest }
  | c, [] => .ok { c with words := [] }

end CommandLine

/-- Whether a script cannot be read only because more of it has to come. -/
def ScriptFault.isOpen (f : ScriptFault) : Bool :=
  f.message == Reading.openQuote || f.message.startsWith "Syntax error: EOF"
    || f.message.startsWith "Syntax error: end of file"

/-- Carry out a script as it comes in. The fuel bounds how often something comes. -/
def Run.input : Nat → List Char → Bool → Nat → Task Unit
  | 0, _, _, _ => throw (.exit 2)
  | n + 1, text, ended, line => do
    let whole := ended || text.contains '\n'
    match if whole then some (readNext { rest := text, line }) else none with
    | some (.ok (some commands, source)) =>
      Run.command Asking.stepLimit {} (.sequence commands)
      input n source.rest ended source.line
    | some (.error fault) =>
      if ended || !fault.isOpen then
        modify fun s => { s with line := fault.line }
        Task.fatal fault.message
      else more n text line
    | _ => if ended then return else more n text line
where
  /-- Wait for more. -/
  more (n : Nat) (text : List Char) (line : Nat) : Task Unit := do
    match ← Task.ask (.read 0 8192) with
    | .done [] => input n text true line
    | .done bytes => input n (text ++ (textOfBytes bytes).toList) false line
    | .interrupted => input n text false line
    | .failed _ => input n text true line

/-- The variables of a shell that is started with an environment. -/
def startingVariables (environment : Environment) (workingDir : String) (parent : UInt32) :
    List (String × Variable) :=
  let given := environment.map fun (name, bytes) =>
    (name, ({ value := some (textOfBytes bytes), exported := true } : Variable))
  let standard := [("IFS", " \t\n"), ("OPTIND", "1"), ("PS1", "$ "), ("PS2", "> "), ("PS4", "+ "),
    ("PPID", toString parent.toNat),
    ("PATH", "/usr/local/sbin:/usr/local/bin:/usr/sbin:/usr/bin:/sbin:/bin")]
  let own := standard.filterMap fun (name, text) =>
    if name != "IFS" && (given.lookup name).isSome then none
    else some (name, ({ value := some text } : Variable))
  let here := ("PWD", { value := some (textOfPath workingDir)
                        exported := (given.lookup "PWD").isSome })
  here :: own ++ given.filter fun v => v.1 != "PWD" && v.1 != "IFS"

/-- Carry out what a command line asks for. -/
def Run.commandLine (c : CommandLine) : Task Unit := do
  modify fun s => { s with options := c.options }
  match c.isCommand, c.words with
  | true, [] =>
    modify fun s => { s with line := 0 }
    Task.fatal "-c requires an argument"
  | true, text :: words =>
    modify fun s => { s with name := words.headD s.name, arguments := words.drop 1 }
    Run.script Asking.stepLimit { last := true } { rest := text.toList }
  | false, file :: words =>
    if c.fromInput then
      modify fun s => { s with arguments := c.words }
      Run.input Asking.stepLimit [] false 1
    else
      match ← Task.ask (.openFile (pathOfText file) .read) with
      | .done fd =>
        let text := textOfBytes (← Task.ask (.readAll fd))
        discard (Task.ask (.close fd))
        modify fun s => { s with name := file, arguments := words }
        Run.script Asking.stepLimit {} { rest := text.toList }
      | .failed fault =>
        modify fun s => { s with line := 0 }
        let missing := fault == .notFound || fault == .notADirectory
        let reason := if missing then "No such file" else Task.reason fault
        Task.fatal ("cannot open " ++ file ++ ": " ++ reason)
      | .interrupted => throw (.exit 2)
  | false, [] => Run.input Asking.stepLimit [] false 1

/-- The shell as a program. -/
def launch : Launch := fun command environment =>
  .processId fun pid => .parentId fun parent => .workingDir fun dir =>
    let words := command.map textOfBytes
    let s : State := {
      name := words.headD "sh", pid, bindings := startingVariables environment dir parent }
    let task : Task Unit := do
      match CommandLine.read { words := [] } (words.drop 1) with
      | .ok c => Run.commandLine c
      | .error message =>
        modify fun s => { s with line := 0 }
        Task.fatal message
    task.run.run s fun (result, s) => Run.finish Asking.stepLimit result s

end ScriptWarden.Shell
