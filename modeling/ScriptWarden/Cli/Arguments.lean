/-!
# Command lines

What the words of a command line ask for. Some options belong to every command and may stand before
or behind its name; of those that take a value, the one nearest to the end of the chain of commands
counts. What cannot be read is a usage error.
-/

namespace ScriptWarden

/-- What a command line asks to be done. -/
inductive Order where
  | serve (bind : Option String)
  | validate (file : String)
  | list (long : Bool)
  | boot
  | showAutoboot
  | setAutoboot (name : String)
  | clearAutoboot
  | showConfig
  | configPath
  | initConfig (force : Bool)
deriving DecidableEq, Repr, Inhabited

/-- What reading a command line comes to. -/
inductive Reading where
  /-- Something is to be done, with a file of settings if one is named. -/
  | order (order : Order) (config : Option String)
  /-- Somebody wants to know how commands are written. -/
  | help
  | usageError
deriving DecidableEq, Repr, Inhabited

namespace Arguments

/-- The options of a command besides those of every command. -/
structure Spec where
  /-- Options without a value, by their letter and name. -/
  flags : List (Char × String) := []
  /-- Options with a value. -/
  values : List (Char × String) := []
  /-- Whether another command follows instead of words. -/
  hasCommands : Bool := false
deriving Repr, Inhabited

/-- What has been found of a command. -/
structure Found where
  flags : List String := []
  values : List (String × String) := []
  words : List String := []
deriving Repr, Inhabited

/-- The options of every command. -/
def Spec.withShared (s : Spec) : Spec :=
  { s with
    flags := s.flags ++ [('v', "verbose"), ('q', "quiet"), ('h', "help"), ('V', "version")]
    values := s.values ++ [('c', "config")] }

/-- Why reading stops. -/
inductive Stop where
  | help
  | usage
deriving DecidableEq, Repr, Inhabited

/-- Note a flag. Only the one for more messages may be repeated. -/
def Found.addFlag (f : Found) (name : String) : Except Stop Found :=
  if name == "help" || name == "version" then .error .help
  else if f.flags.contains name && name != "verbose" then .error .usage
  else .ok { f with flags := name :: f.flags }

/-- Note a value. A path is not empty. -/
def Found.addValue (f : Found) (name value : String) : Except Stop Found :=
  if (f.values.lookup name).isSome || (name == "config" && value.isEmpty) then .error .usage
  else .ok { f with values := (name, value) :: f.values }

/-- Whether a word looks like an option. -/
def isOption (word : String) : Bool := word.startsWith "-" && word != "-"

/-- Take in the letters of a word; what follows a letter with a value is the value. The name of an
option whose value is the next word is given back. -/
def letters (s : Spec) (f : Found) : List Char → Except Stop (Found × Option String)
  | [] => .ok (f, none)
  | c :: rest =>
    match s.flags.lookup c, s.values.lookup c with
    | some name, _ => do
      let f ← f.addFlag name
      letters s f rest
    | none, some name =>
      match rest with
      | [] => .ok (f, some name)
      | '=' :: value => (f.addValue name (String.ofList value)).map (·, none)
      | value => (f.addValue name (String.ofList value)).map (·, none)
    | none, none => .error .usage

/-- Take in an option that is written out. -/
def named (s : Spec) (f : Found) (word : List Char) : Except Stop (Found × Option String) := do
  let name := String.ofList (word.takeWhile (· != '='))
  let value := word.drop name.length
  if s.flags.any (·.2 == name) then
    if value.isEmpty then return (← f.addFlag name, none) else throw .usage
  else if s.values.any (·.2 == name) then
    if value.isEmpty then return (f, some name)
    else return (← f.addValue name (String.ofList (value.drop 1)), none)
  else throw .usage

/-- Read the words of one command, up to the next command if one may follow: its name and the words
behind it. A name in `waiting` is that of an option whose value comes next. -/
def scan (s : Spec) (waiting : Option String) (f : Found) :
    List String → Except Stop (Found × Option (String × List String))
  | [] => if waiting.isSome then .error .usage else .ok (f, none)
  | word :: rest =>
    match waiting with
    | some name =>
      if isOption word then .error .usage
      else do
        let f ← f.addValue name word
        scan s none f rest
    | none =>
      if word == "--" then
        if s.hasCommands && !rest.isEmpty then .error .usage
        else .ok ({ f with words := f.words ++ rest }, none)
      else
        match word.toList with
        | '-' :: '-' :: name => do
          let (f, waiting) ← named s f name
          scan s waiting f rest
        | '-' :: c :: more => do
          let (f, waiting) ← letters s f (c :: more)
          scan s waiting f rest
        | _ =>
          if s.hasCommands then .ok (f, some (word, rest))
          else scan s none { f with words := f.words ++ [word] } rest

/-- The settings that a command names, or those that were named before it. -/
def Found.config (f : Found) (before : Option String) : Option String :=
  (f.values.lookup "config").orElse fun _ => before

/-- Read the words of a command behind which no other follows. -/
def last (s : Spec) (config : Option String) (words : List String)
    (make : Found → Option Order) : Except Stop Reading := do
  let (f, _) ← scan s.withShared none {} words
  match make f with
  | some order => return .order order (f.config config)
  | none => throw .usage

/-- A command without words. -/
def bare (order : Order) (f : Found) : Option Order := if f.words.isEmpty then some order else none

/-- A command with one word. -/
def single (make : String → Order) (f : Found) : Option Order :=
  match f.words with
  | [word] => some (make word)
  | _ => none

/-- Read what follows the name of a command that has others inside. -/
def inner (config : Option String) (words : List String)
    (next : String → Option String → List String → Except Stop Reading) : Except Stop Reading := do
  let spec : Spec := { hasCommands := true }
  match ← scan spec.withShared none {} words with
  | (f, some (name, rest)) => if name == "help" then throw .help else next name (f.config config) rest
  | (_, none) => throw .usage

/-- Read what follows the name for the designation. -/
def autoboot (name : String) (config : Option String) (rest : List String) : Except Stop Reading :=
  match name with
  | "show" => last {} config rest (bare .showAutoboot)
  | "set" => last {} config rest (single .setAutoboot)
  | "clear" => last {} config rest (bare .clearAutoboot)
  | _ => .error .usage

/-- Read what follows the name for the settings. -/
def settings (name : String) (config : Option String) (rest : List String) : Except Stop Reading :=
  match name with
  | "show" => last {} config rest (bare .showConfig)
  | "path" => last {} config rest (bare .configPath)
  | "init" =>
    last { flags := [('f', "force")] } config rest fun f =>
      bare (.initConfig (f.flags.contains "force")) f
  | _ => .error .usage

/-- Read what follows the name of a command. -/
def command (name : String) (config : Option String) (rest : List String) : Except Stop Reading :=
  match name with
  | "serve" =>
    last { values := [('b', "bind")] } config rest fun f => bare (.serve (f.values.lookup "bind")) f
  | "validate" =>
    last {} config rest fun f => (single .validate f).filter (· != .validate "")
  | "list" =>
    last { flags := [('l', "long")] } config rest fun f => bare (.list (f.flags.contains "long")) f
  | "boot" => last {} config rest (bare .boot)
  | "autoboot" => inner config rest autoboot
  | "config" => inner config rest settings
  | _ => .error .usage

/-- Read a command line. -/
def read (words : List String) : Reading :=
  match inner none words command with
  | .ok reading => reading
  | .error .help => .help
  | .error .usage => .usageError

end Arguments

end ScriptWarden
