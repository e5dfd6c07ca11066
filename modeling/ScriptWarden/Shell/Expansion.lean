import ScriptWarden.Shell.Arithmetic
import ScriptWarden.Shell.Pattern
import ScriptWarden.Shell.State
import ScriptWarden.Text.Utf8

/-!
# Expansion

What a shell makes of the words of a command: parameters, arithmetic and commands are replaced by
their results, results outside of quotes are split into fields, and fields that are patterns give
way to the paths that they stand for.
-/

namespace ScriptWarden.Shell

/-- A path for the host from a text in which each byte is one character. -/
def pathOfText (text : String) : String := decodeLossy (bytesOfText text)

/-- A text in which each byte is one character from a text of the host. -/
def textOfPath (path : String) : String := textOfBytes (encodeUtf8 path)

/-- A piece of what a word is replaced by. -/
inductive Atom where
  | letter (c : Char) (quoted : Bool)
  /-- A character of a result, at which fields may be split. -/
  | result (c : Char)
  /-- Quotes, which make a field even if nothing is in them. -/
  | quotes
  /-- All arguments, of which there are none, in quotes. -/
  | nothing
  /-- The end of a field. -/
  | cut
deriving DecidableEq, Repr, Inhabited

namespace Atom

/-- The pieces of a result. -/
def ofResult (quoted : Bool) (text : String) : List Atom :=
  if quoted then .quotes :: text.toList.map fun c => .letter c true
  else text.toList.map .result

/-- Results as fields of their own. -/
def ofResults (quoted : Bool) (texts : List String) : List Atom :=
  [Atom.cut].intercalate (texts.map (ofResult quoted))

/-- Pieces as one text in which some characters are quoted. -/
def marked (atoms : List Atom) : Marked :=
  atoms.filterMap fun
    | .letter c quoted => some (c, quoted)
    | .result c => some (c, false)
    | .cut => some (' ', true)
    | _ => none

/-- Pieces as one text. -/
def text (atoms : List Atom) : String := (marked atoms).text

/-- Letters as results. -/
def asResult : Atom → Atom
  | .letter c false => .result c
  | atom => atom

/-- What has been split, last field first. -/
structure Splitting where
  fields : List Marked := []
  /-- The field at hand, last character first. -/
  current : Option Marked := none
  /-- Whether blanks ended the last field and nothing has come since. -/
  blank : Bool := false
deriving Repr, Inhabited

/-- End the field at hand, if there is one. -/
def Splitting.close (s : Splitting) : Splitting :=
  match s.current with
  | some field => { s with fields := field.reverse :: s.fields, current := none }
  | none => s

/-- Add to the field at hand. -/
def Splitting.add (s : Splitting) (m : Marked) : Splitting :=
  { s with current := some (m ++ s.current.getD []), blank := false }

/-- Go on splitting at a piece. -/
def Splitting.step (separators : List Char) (s : Splitting) : Atom → Splitting
  | .letter c quoted => s.add [(c, quoted)]
  | .quotes => s.add []
  | .nothing => s
  | .cut => { s.close with blank := false }
  | .result c =>
    if !separators.contains c then s.add [(c, false)]
    else if c == ' ' || c == '\t' || c == '\n' then
      { s.close with blank := s.blank || s.current.isSome }
    else if s.current.isNone && !s.blank then { s with fields := [] :: s.fields }
    else { s.close with blank := false }

/-- The fields of pieces. -/
def fields (separators : String) (atoms : List Atom) : List Marked :=
  if atoms.contains .nothing && atoms.all fun a => a == .nothing || a == .quotes then []
  else (atoms.foldl (Splitting.step separators.toList) {}).close.fields.reverse

end Atom

namespace Expansion

-- ---------------------------------------------------------------------------
-- Parameters
-- ---------------------------------------------------------------------------

/-- The letters of the options that are set. -/
def optionLetters (o : Options) : String :=
  String.ofList ([(o.exportAll, 'a'), (o.stopAtFailure, 'e'), (o.plainPatterns, 'f'),
    (o.refuseUnset, 'u'), (o.trace, 'x')].filterMap fun (set, c) => if set then some c else none)

/-- The value of a parameter; none if it is not set. -/
def parameter? (name : String) : Task (Option String) := do
  let s ← get
  match name with
  | "#" => return some (toString s.arguments.length)
  | "?" => return some (toString s.status)
  | "-" => return some (optionLetters s.options)
  | "$" => return some (toString s.pid.toNat)
  | "!" => return s.lastJob.map fun pid => toString pid.toNat
  | "LINENO" => return some (toString s.line)
  | "@" | "*" =>
    let separator := String.ofList ((← Task.separators).toList.take 1)
    return if s.arguments.isEmpty then none else some (separator.intercalate s.arguments)
  | _ =>
    if name.toList.all Char.isDigit then
      match name.toNat?.getD 0 with
      | 0 => return some s.name
      | n + 1 => return s.arguments[n]?
    else Task.valueOf? name

/-- The pieces of a parameter as it stands. -/
def plainParameter (name : String) (quoted : Bool) : Task (List Atom) := do
  let s ← get
  if name == "@" || (name == "*" && !quoted) then
    return if quoted && s.arguments.isEmpty then [.nothing] else Atom.ofResults quoted s.arguments
  match ← parameter? name with
  | some text => return Atom.ofResult quoted text
  | none =>
    if s.options.refuseUnset && name != "*" then Task.fatal (name ++ ": parameter not set")
    return Atom.ofResult quoted ""

/-- Work out an expression, and assign what it assigns. -/
def arithmetic (text : String) : Task String := do
  let bindings := (← get).bindings.filterMap fun (name, v) => v.value.map fun text =>
    (name, if text.isEmpty then .ok 0 else (Arithmetic.number? text).elim (.error text) .ok)
  match Arithmetic.evaluate bindings text with
  | .ok (value, changed) =>
    for (name, value) in changed.reverse do
      Task.assign name (toString value)
    return toString value
  | .error (.malformed reason) =>
    Task.fatal ("arithmetic expression: " ++ reason ++ ": \"" ++ text ++ "\"")
  | .error (.notNumber text) => Task.fatal ("Illegal number: " ++ text)

-- ---------------------------------------------------------------------------
-- Words
-- ---------------------------------------------------------------------------

/-- The pieces of a word. The fuel bounds how deep words lie in words; `substitute` runs commands
and gives what they wrote. -/
def atoms (substitute : List Command → Task String) : Nat → List Part → Task (List Atom)
  | 0, _ => Task.fatal "word nested too deep"
  | n + 1, parts => do
    let pieces ← parts.mapM fun
      | .plain t => pure (t.toList.map fun c => Atom.letter c false)
      | .quoted t => pure (Atom.ofResult true t)
      | .arithmetic expression => do
        let text := Atom.text (← atoms substitute n expression)
        return Atom.ofResult false (← arithmetic text)
      | .substitution script quoted => do
        return Atom.ofResult quoted (← substitute script)
      | .parameter name use quoted => do
        let word := fun (parts : List Part) => do
          let pieces ← atoms substitute n parts
          return if quoted then pieces else pieces.map Atom.asResult
        let present := fun (value : Option String) (orEmpty : Bool) =>
          value.isSome && !(orEmpty && value == some "")
        match use with
        | .value => plainParameter name quoted
        | .length =>
          let value ← parameter? name
          return Atom.ofResult quoted (toString (value.getD "").length)
        | .default orEmpty parts =>
          if present (← parameter? name) orEmpty then plainParameter name quoted else word parts
        | .alternative orEmpty parts =>
          if present (← parameter? name) orEmpty then word parts
          else return Atom.ofResult quoted ""
        | .assign orEmpty parts =>
          if present (← parameter? name) orEmpty then plainParameter name quoted
          else
            let value := Atom.text (← word parts)
            Task.assign name value
            return Atom.ofResult quoted value
        | .complain orEmpty parts =>
          if present (← parameter? name) orEmpty then plainParameter name quoted
          else
            let message := Atom.text (← word parts)
            let standard := if orEmpty then "parameter not set or null" else "parameter not set"
            Task.fatal (name ++ ": " ++ if message.isEmpty then standard else message)
        | .cutFront longest pattern =>
          let pattern := Atom.marked (← atoms substitute n pattern)
          let value := ((← parameter? name).getD "").toList
          return Atom.ofResult quoted (String.ofList (Pattern.cutFront longest pattern value))
        | .cutBack longest pattern =>
          let pattern := Atom.marked (← atoms substitute n pattern)
          let value := ((← parameter? name).getD "").toList
          return Atom.ofResult quoted (String.ofList (Pattern.cutBack longest pattern value))
    return pieces.flatten

/-- A word whose leading tilde is replaced by the home directory. -/
def withHome (parts : List Part) : Task (List Part) := do
  match parts with
  | .plain t :: rest =>
    let isHome := match t.toList with
      | ['~'] => rest.isEmpty
      | '~' :: '/' :: _ => true
      | _ => false
    match isHome, ← Task.valueOf? "HOME" with
    | true, some home => return .quoted home :: .plain (String.ofList (t.toList.drop 1)) :: rest
    | _, _ => return parts
  | _ => return parts

-- ---------------------------------------------------------------------------
-- Paths
-- ---------------------------------------------------------------------------

/-- A text cut at slashes. -/
def components (m : Marked) : List Marked :=
  m.foldr (fun c parts =>
    if c.1 == '/' then [] :: parts
    else match parts with | part :: rest => (c :: part) :: rest | [] => [[c]]) [[]]

/-- The paths that the components of a pattern stand for, after a beginning. -/
def matching : List Marked → String → Task (List String)
  | [], path => pure [path]
  | part :: rest, start => do
    let slash := if rest.isEmpty then "" else "/"
    if Pattern.isPattern part then
      let names ← Task.ask (.list (if start.isEmpty then "." else pathOfText start))
      let hidden := part.head?.map (·.1) == some '.'
      let found := (names.map textOfPath).filter fun name =>
        (hidden || !name.startsWith ".") && Pattern.isMatch part name.toList
      return (← found.mapM fun name => matching rest (start ++ name ++ slash)).flatten
    else if rest.isEmpty then
      let path := start ++ part.text
      return if (← Task.ask (.look (pathOfText path))).isSome then [path] else []
    else matching rest (start ++ part.text ++ slash)

/-- The paths that a field stands for, or the field itself. -/
def paths (field : Marked) : Task (List String) := do
  if !Pattern.isPattern field || (← get).options.plainPatterns then return [field.text]
  let found ← matching (components field) ""
  return if found.isEmpty then [field.text] else found

-- ---------------------------------------------------------------------------
-- Results
-- ---------------------------------------------------------------------------

/-- How deep words may lie in words. -/
def depthLimit : Nat := 1000

/-- The fields of a word. -/
def fields (substitute : List Command → Task String) (word : List Part) : Task (List String) := do
  let pieces ← atoms substitute depthLimit (← withHome word)
  let fields := Atom.fields (← Task.separators) pieces
  return (← fields.mapM paths).flatten

/-- The text of a word that is not split. -/
def text (substitute : List Command → Task String) (word : List Part) : Task String := do
  return Atom.text (← atoms substitute depthLimit (← withHome word))

/-- The text of a word that serves as a pattern. -/
def pattern (substitute : List Command → Task String) (word : List Part) : Task Marked := do
  return Atom.marked (← atoms substitute depthLimit (← withHome word))

end Expansion

end ScriptWarden.Shell
