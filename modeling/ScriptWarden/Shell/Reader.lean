import ScriptWarden.Shell.Command

/-!
# Reading shell scripts

A script is read one complete command at a time, as it is run: what stands before an error has been
run when the error is found.
-/

namespace ScriptWarden.Shell

/-- What is left of a script, and the line that it is at. -/
structure Source where
  rest : List Char
  line : Nat := 1
deriving Repr, Inhabited

/-- Why a script cannot be read. -/
structure ScriptFault where
  line : Nat
  message : String
deriving DecidableEq, Repr, Inhabited

/-- A step of reading. -/
abbrev Reading (α : Type) := StateT Source (Except ScriptFault) α

namespace Reading

/-- Fail at the line that has been reached. -/
def fail (message : String) : Reading α := do throw { line := (← get).line, message }

/-- Whether a text is next. -/
def isNext (text : String) : Reading Bool := do return text.toList.isPrefixOf (← get).rest

/-- Pass over so many characters. -/
def skip (count : Nat) : Reading Unit :=
  modify fun s =>
    { rest := s.rest.drop count, line := s.line + ((s.rest.take count).filter (· == '\n')).length }

/-- Pass over a text if it is next. -/
def take? (text : String) : Reading Bool := do
  if ← isNext text then
    skip text.length
    return true
  else return false

/-- Pass over a text if it is next and does not begin a longer operator. -/
def takeUnless? (longer text : String) : Reading Bool := do
  if ← isNext longer then return false else take? text

/-- The next character, without passing over it. -/
def peek : Reading (Option Char) := do return (← get).rest.head?

/-- The characters that are next as long as they meet a condition. -/
def takeWhile (p : Char → Bool) : Reading String := do
  let cs := (← get).rest.takeWhile p
  skip cs.length
  return String.ofList cs

-- ---------------------------------------------------------------------------
-- Blanks and words as they stand
-- ---------------------------------------------------------------------------

/-- The characters that end a word. -/
def isDelimiter (c : Char) : Bool := " \t\n;&|()<>".toList.contains c

/-- Whether a character may be in a name. -/
def isNameChar (c : Char) : Bool := c.isAlphanum || c == '_'

/-- Whether a text is a name. -/
def isName (text : String) : Bool :=
  text.toList.all isNameChar && (text.toList.head?.map fun c => !c.isDigit).getD false

/-- A text without blanks, joined lines and comments at its beginning. The fuel bounds how many there
are. -/
def dropBlanks : Nat → List Char → List Char
  | 0, cs => cs
  | n + 1, cs =>
    match cs with
    | ' ' :: rest | '\t' :: rest => dropBlanks n rest
    | '\\' :: '\n' :: rest => dropBlanks n rest
    | '#' :: rest => rest.dropWhile (· != '\n')
    | _ => cs

/-- Pass over blanks, joined lines and a comment. -/
def skipBlanks : Reading Unit := do
  let cs := (← get).rest
  skip (cs.length - (dropBlanks cs.length cs).length)

/-- A text without line ends and blanks at its beginning. The fuel bounds how many there are. -/
def dropLines : Nat → List Char → List Char
  | 0, cs => cs
  | n + 1, cs =>
    match dropBlanks cs.length cs with
    | '\n' :: rest => dropLines n rest
    | rest => rest

/-- Pass over line ends and blanks. -/
def skipLines : Reading Unit := do
  let cs := (← get).rest
  skip (cs.length - (dropLines cs.length cs).length)

/-- The word that is next if nothing in it is quoted or replaced. -/
def bareWord? : Reading (Option String) := do
  let cs := (← get).rest.takeWhile fun c => !isDelimiter c
  if cs.isEmpty || cs.any fun c => "'\"\\$".toList.contains c || c.toNat == 96 then return none
  return some (String.ofList cs)

/-- The words with a meaning of their own where a command may begin. -/
def reservedWords : List String :=
  ["if", "then", "else", "elif", "fi", "do", "done", "case", "esac", "while", "until", "for", "in",
   "\x7b", "\x7d", "!"]

/-- Pass over a word with a meaning of its own if it is next. -/
def reserved? (word : String) : Reading Bool := do
  skipBlanks
  if (← bareWord?) == some word then
    skip word.length
    return true
  else return false

/-- What is next, as an error names it. -/
def nextToken : Reading String := do
  skipBlanks
  let cs := (← get).rest
  let operators := [";;", "&&", "||", ">>", "<&", ">&", ";", "&", "|", "(", ")", "<", ">"]
  match cs with
  | [] => return "end of file"
  | '\n' :: _ => return "newline"
  | _ =>
    match operators.find? fun o => o.toList.isPrefixOf cs with
    | some o => return "\"" ++ o ++ "\""
    | none =>
      match ← bareWord? with
      | some w => if reservedWords.contains w then return "\"" ++ w ++ "\"" else return "word"
      | none => return "word"

/-- Fail at what is next. -/
def unexpected (expected : Option String := none) : Reading α := do
  let token ← nextToken
  fail ("Syntax error: " ++ token ++ " unexpected" ++
    (expected.map fun e => " (expecting \"" ++ e ++ "\")").getD "")

/-- Pass over a word with a meaning of its own, which has to be next. -/
def expect (word : String) : Reading Unit := do
  skipLines
  if !(← reserved? word) then unexpected (some word)

-- ---------------------------------------------------------------------------
-- Quoting
-- ---------------------------------------------------------------------------

/-- The text up to a character, which is passed over. -/
def takeUntil (stop : Char) (message : String) : Reading String := do
  let cs := (← get).rest
  let text := cs.takeWhile (· != stop)
  if text.length == cs.length then
    fail message
  skip (text.length + 1)
  return String.ofList text

/-- The text up to a grave accent; a backslash takes the meaning of an accent, a dollar and a
backslash. The fuel bounds its length. -/
def takeGrave : Nat → List Char → Reading String
  | 0, _ => fail "Syntax error: EOF in backquote substitution"
  | n + 1, text => do
    match (← get).rest with
    | [] => fail "Syntax error: EOF in backquote substitution"
    | '\\' :: c :: _ =>
      skip 2
      if c.toNat == 96 || c == '\\' || c == '$' then takeGrave n (c :: text)
      else takeGrave n (c :: '\\' :: text)
    | c :: _ =>
      skip 1
      if c.toNat == 96 then return String.ofList text.reverse else takeGrave n (c :: text)

/-- The parameters that are named by one character. -/
def isSpecialParameter (c : Char) : Bool := "@*#?-$!".toList.contains c || c.isDigit

/-- The fault of quotes that are left open. -/
def openQuote : String := "Syntax error: Unterminated quoted string"

/-- Add a character to the text that ends a list of parts. -/
def addChar (inQuotes : Bool) (c : Char) : List Part → List Part
  | .plain t :: rest => if inQuotes then .quoted c.toString :: .plain t :: rest
    else .plain (t.push c) :: rest
  | .quoted t :: rest => if inQuotes then .quoted (t.push c) :: rest
    else .plain c.toString :: .quoted t :: rest
  | parts => (if inQuotes then .quoted c.toString else .plain c.toString) :: parts

mutual

/-- The parts of a word up to where `stop` holds, last one first. Within double quotes, and within
braces, other characters end it. The fuel bounds the length of the script. -/
def readParts (fuel : Nat) (inQuotes : Bool) (stop : Char → Bool) (parts : List Part) :
    Reading (List Part) :=
  match fuel with
  | 0 => fail "Syntax error: script too long"
  | n + 1 => do
    match (← get).rest with
    | [] => if inQuotes then fail openQuote else return parts
    | c :: rest =>
      if stop c then return parts
      else if c == '\\' then
        match rest with
        | [] =>
          skip 1
          readParts n inQuotes stop (addChar inQuotes '\\' parts)
        | '\n' :: _ =>
          skip 2
          readParts n inQuotes stop parts
        | d :: _ =>
          skip 2
          if inQuotes && !("\\\"$\x7d".toList.contains d || d.toNat == 96) then
            readParts n inQuotes stop (addChar true d (addChar true '\\' parts))
          else readParts n inQuotes stop (addChar true d parts)
      else if c == '\'' && !inQuotes then
        skip 1
        let text ← takeUntil '\'' openQuote
        readParts n inQuotes stop (.quoted text :: parts)
      else if c == '"' && !inQuotes then
        skip 1
        let inner ← readParts n true (· == '"') [.quoted ""]
        skip 1
        readParts n inQuotes stop (inner ++ parts)
      else if c.toNat == 96 then
        skip 1
        let text ← takeGrave n []
        let line := (← get).line
        match (readScript n).run { rest := text.toList, line } with
        | .ok (commands, _) => readParts n inQuotes stop (.substitution commands inQuotes :: parts)
        | .error f => throw f
      else if c == '$' then
        skip 1
        let part ← readDollar n inQuotes
        match part with
        | some part => readParts n inQuotes stop (part :: parts)
        | none => readParts n inQuotes stop (addChar inQuotes '$' parts)
      else
        skip 1
        readParts n inQuotes stop (addChar inQuotes c parts)

/-- What follows a dollar sign; none if it stands for itself. -/
def readDollar (fuel : Nat) (inQuotes : Bool) : Reading (Option Part) :=
  match fuel with
  | 0 => fail "Syntax error: script too long"
  | n + 1 => do
    match (← get).rest with
    | '(' :: '(' :: _ =>
      skip 2
      let parts ← readArithmetic n 0 []
      return some (.arithmetic parts.reverse)
    | '(' :: _ =>
      skip 1
      let commands ← readList n true
      skipLines
      if !(← take? ")") then unexpected (some ")")
      return some (.substitution commands inQuotes)
    | '{' :: _ =>
      skip 1
      return some (← readBraced n inQuotes)
    | c :: _ =>
      if c.isAlpha || c == '_' then
        return some (.parameter (← takeWhile isNameChar) .value inQuotes)
      else if isSpecialParameter c then
        skip 1
        return some (.parameter c.toString .value inQuotes)
      else return none
    | [] => return none

/-- The parts of an arithmetic expression, last one first, inside of so many parentheses. -/
def readArithmetic (fuel depth : Nat) (parts : List Part) : Reading (List Part) :=
  match fuel with
  | 0 => fail "Syntax error: script too long"
  | n + 1 => do
    let parts ← readParts n false (fun c => c == '(' || c == ')') parts
    match (← get).rest with
    | '(' :: _ =>
      skip 1
      readArithmetic n (depth + 1) (addChar false '(' parts)
    | ')' :: ')' :: _ =>
      if depth == 0 then
        skip 2
        return parts
      else
        skip 1
        readArithmetic n (depth - 1) (addChar false ')' parts)
    | ')' :: _ =>
      if depth == 0 then fail "Syntax error: Missing '))'"
      else
        skip 1
        readArithmetic n (depth - 1) (addChar false ')' parts)
    | _ => fail "Syntax error: Missing '))'"

/-- A parameter in braces. -/
def readBraced (fuel : Nat) (inQuotes : Bool) : Reading Part :=
  match fuel with
  | 0 => fail "Syntax error: script too long"
  | n + 1 => do
    let bad : Reading Part := fail "Syntax error: Bad substitution"
    let isLength := match (← get).rest with
      | '#' :: c :: _ => c != '\x7d' && c != ':' && c != '%' && c != '-' && c != '='
      | _ => false
    if isLength then skip 1
    let name ← do
      match ← peek with
      | some c =>
        if c.isAlpha || c == '_' then takeWhile isNameChar
        else if c.isDigit then takeWhile Char.isDigit
        else if isSpecialParameter c then
          skip 1
          pure c.toString
        else pure ""
      | none => pure ""
    if name.isEmpty then bad
    else if ← take? "\x7d" then
      return .parameter name (if isLength then .length else .value) inQuotes
    else if isLength then bad
    else
      let orEmpty ← take? ":"
      let operator ← peek
      skip 1
      let doubled ← if operator == some '%' || operator == some '#' then
          take? (operator.elim "" Char.toString)
        else pure false
      let isCut := operator == some '%' || operator == some '#'
      let parts ← readParts n (inQuotes && !isCut) (· == '\x7d') []
      if !(← take? "\x7d") then fail "Syntax error: Missing '\x7d'"
      let word := parts.reverse
      match operator with
      | some '-' => return .parameter name (.default orEmpty word) inQuotes
      | some '=' => return .parameter name (.assign orEmpty word) inQuotes
      | some '?' => return .parameter name (.complain orEmpty word) inQuotes
      | some '+' => return .parameter name (.alternative orEmpty word) inQuotes
      | some '#' => return .parameter name (.cutFront doubled word) inQuotes
      | some '%' => return .parameter name (.cutBack doubled word) inQuotes
      | _ => bad

/-- A word. -/
def readWord (fuel : Nat) : Reading (List Part) :=
  match fuel with
  | 0 => fail "Syntax error: script too long"
  | n + 1 => do
    let parts ← readParts n false isDelimiter []
    return parts.reverse

-- ---------------------------------------------------------------------------
-- Commands
-- ---------------------------------------------------------------------------

/-- The redirections that are next. -/
def readRedirections (fuel : Nat) : Reading (List Redirection) :=
  match fuel with
  | 0 => fail "Syntax error: script too long"
  | n + 1 => do
    match ← readRedirection? n with
    | some r => return r :: (← readRedirections n)
    | none => return []

/-- A redirection, if one is next. -/
def readRedirection? (fuel : Nat) : Reading (Option Redirection) :=
  match fuel with
  | 0 => fail "Syntax error: script too long"
  | n + 1 => do
    skipBlanks
    let cs := (← get).rest
    let digits := cs.takeWhile Char.isDigit
    let operators : List (String × Nat × Direction) :=
      [(">>", 1, .append), (">&", 1, .same), (">|", 1, .output), (">", 1, .output),
       ("<&", 0, .same), ("<>", 0, .both), ("<", 0, .input)]
    match operators.find? fun o => o.1.toList.isPrefixOf (cs.drop digits.length) with
    | none => return none
    | some (text, standard, direction) =>
      skip (digits.length + text.length)
      skipBlanks
      let target ← readWord n
      if target.isEmpty then unexpected
      let fd := if digits.isEmpty then standard else (String.ofList digits).toNat?.getD standard
      return some (.to fd direction target)

/-- The assignments, words and redirections of a command, each last one first. -/
def readSimple (fuel line : Nat) (assignments : List (String × List Part))
    (words : List (List Part)) (redirections : List Redirection) : Reading Command :=
  match fuel with
  | 0 => fail "Syntax error: script too long"
  | n + 1 => do
    match ← readRedirection? n with
    | some r => readSimple n line assignments words (r :: redirections)
    | none =>
      let cs := (← get).rest
      match cs with
      | c :: _ =>
        if isDelimiter c then
          if c == '(' && words.length == 1 && assignments.isEmpty then
            match words with
            | [[.plain name]] =>
              skip 1
              skipBlanks
              if !(← take? ")") then unexpected (some ")")
              skipLines
              let body ← readCommand n
              if let .simple _ [] [] [] := body then unexpected
              return .define name body
            | _ => unexpected
          else return .simple line assignments.reverse words.reverse redirections.reverse
        else
          let name := String.ofList (cs.takeWhile isNameChar)
          if words.isEmpty && isName name && (cs.drop name.length).head? == some '=' then
            skip (name.length + 1)
            let value ← readWord n
            readSimple n line ((name, value) :: assignments) words redirections
          else
            let word ← readWord n
            readSimple n line assignments (word :: words) redirections
      | [] => return .simple line assignments.reverse words.reverse redirections.reverse

/-- The clauses of a choice. -/
def readClauses (fuel : Nat) : Reading (List (List (List Part) × Command)) :=
  match fuel with
  | 0 => fail "Syntax error: script too long"
  | n + 1 => do
    skipLines
    if ← reserved? "esac" then return []
    discard (take? "(")
    let patterns ← readPatterns n
    if !(← take? ")") then unexpected (some ")")
    let body ← readList n true
    skipLines
    if ← take? ";;" then return (patterns, .sequence body) :: (← readClauses n)
    else
      if !(← reserved? "esac") then unexpected (some ";;")
      return [(patterns, .sequence body)]

/-- The patterns of a clause. -/
def readPatterns (fuel : Nat) : Reading (List (List Part)) :=
  match fuel with
  | 0 => fail "Syntax error: script too long"
  | n + 1 => do
    skipBlanks
    let pattern ← readWord n
    if pattern.isEmpty then unexpected (if (← peek).isNone then some ")" else none)
    skipBlanks
    if ← take? "|" then return pattern :: (← readPatterns n) else return [pattern]

/-- The words that a loop goes through. -/
def readWords (fuel : Nat) : Reading (List (List Part)) :=
  match fuel with
  | 0 => fail "Syntax error: script too long"
  | n + 1 => do
    skipBlanks
    match ← peek with
    | some c => if isDelimiter c then return [] else return (← readWord n) :: (← readWords n)
    | none => return []

/-- What follows the condition of a branch. -/
def readBranch (fuel : Nat) : Reading (Command × Command × Option Command) :=
  match fuel with
  | 0 => fail "Syntax error: script too long"
  | n + 1 => do
    let condition ← readBody n
    expect "then"
    let yes ← readBody n
    skipLines
    if ← reserved? "elif" then
      let (condition', yes', no') ← readBranch n
      return (condition, yes, some (.branch condition' yes' no' []))
    else if ← reserved? "else" then
      let no ← readBody n
      expect "fi"
      return (condition, yes, some no)
    else
      expect "fi"
      return (condition, yes, none)

/-- Commands in a place where there has to be one. -/
def readBody (fuel : Nat) : Reading Command :=
  match fuel with
  | 0 => fail "Syntax error: script too long"
  | n + 1 => do
    let commands ← readList n true
    if commands.isEmpty && (← peek).isSome then unexpected
    return .sequence commands

/-- A command that is not combined with others. -/
def readCommand (fuel : Nat) : Reading Command :=
  match fuel with
  | 0 => fail "Syntax error: script too long"
  | n + 1 => do
    skipBlanks
    let line := (← get).line
    if ← take? "(" then
      let body ← readBody n
      skipLines
      if !(← take? ")") then unexpected (some ")")
      return .subshell body (← readRedirections n)
    else if ← reserved? "\x7b" then
      let body ← readBody n
      expect "\x7d"
      return .group body (← readRedirections n)
    else if ← reserved? "if" then
      let (condition, yes, no) ← readBranch n
      return .branch condition yes no (← readRedirections n)
    else if ← reserved? "while" then
      let (condition, body) ← readLoop n
      return .loop false condition body (← readRedirections n)
    else if ← reserved? "until" then
      let (condition, body) ← readLoop n
      return .loop true condition body (← readRedirections n)
    else if ← reserved? "for" then
      skipBlanks
      let name ← takeWhile isNameChar
      if !isName name then fail "Syntax error: Bad for loop variable"
      skipLines
      let words ← if ← reserved? "in" then
          let words ← readWords n
          skipBlanks
          if !((← isNext ";") || (← isNext "\n")) then unexpected
          pure (some words)
        else pure none
      skipBlanks
      discard (take? ";")
      expect "do"
      let body ← readBody n
      expect "done"
      return .each name words body (← readRedirections n)
    else if ← reserved? "case" then
      skipBlanks
      let subject ← readWord n
      skipLines
      if !(← reserved? "in") then unexpected (some "in")
      let clauses ← readClauses n
      return .choose subject clauses (← readRedirections n)
    else
      match ← bareWord? with
      | some w =>
        if reservedWords.contains w && w != "in" then unexpected
        else readSimple n line [] [] []
      | none => readSimple n line [] [] []

/-- The condition and the body of a loop. -/
def readLoop (fuel : Nat) : Reading (Command × Command) :=
  match fuel with
  | 0 => fail "Syntax error: script too long"
  | n + 1 => do
    let condition ← readBody n
    expect "do"
    let body ← readBody n
    expect "done"
    return (condition, body)

/-- The commands of a pipeline. -/
def readPipeline (fuel : Nat) : Reading (List Command) :=
  match fuel with
  | 0 => fail "Syntax error: script too long"
  | n + 1 => do
    let command ← readCommand n
    if let .simple _ [] [] [] := command then unexpected
    skipBlanks
    if ← takeUnless? "||" "|" then
      skipLines
      return command :: (← readPipeline n)
    else return [command]

/-- A pipeline, negated or not. -/
def readNegated (fuel : Nat) : Reading Command :=
  match fuel with
  | 0 => fail "Syntax error: script too long"
  | n + 1 => do
    let negated ← reserved? "!"
    match ← readPipeline n with
    | [command] => if negated then return .pipeline true [command] else return command
    | commands => return .pipeline negated commands

/-- Pipelines that run by how the one before ended. -/
def readAndOr (fuel : Nat) (left : Command) : Reading Command :=
  match fuel with
  | 0 => fail "Syntax error: script too long"
  | n + 1 => do
    skipBlanks
    if ← take? "&&" then
      skipLines
      let right ← readNegated n
      readAndOr n (.both left right)
    else if ← take? "||" then
      skipLines
      let right ← readNegated n
      readAndOr n (.either left right)
    else return left

/-- Whether no command can be next: at the end, or before something that ends a list. -/
def atListEnd : Reading Bool := do
  skipBlanks
  if (← isNext ")") || (← isNext ";;") || (← peek).isNone then return true
  match ← bareWord? with
  | some w => return ["then", "else", "elif", "fi", "do", "done", "esac", "\x7d"].contains w
  | none => return false

/-- Commands one after the other, over lines or only to the end of one. -/
def readList (fuel : Nat) (lines : Bool) : Reading (List Command) :=
  match fuel with
  | 0 => fail "Syntax error: script too long"
  | n + 1 => do
    if lines then skipLines else skipBlanks
    if ← atListEnd then return []
    if !lines && (← isNext "\n") then return []
    let first ← readNegated n
    let command ← readAndOr n first
    skipBlanks
    if ← takeUnless? "&&" "&" then return .background command :: (← readList n lines)
    else if ← takeUnless? ";;" ";" then return command :: (← readList n lines)
    else if lines && (← isNext "\n") then return command :: (← readList n lines)
    else return [command]

/-- A whole script. -/
def readScript (fuel : Nat) : Reading (List Command) :=
  match fuel with
  | 0 => fail "Syntax error: script too long"
  | n + 1 => do
    let commands ← readList n true
    skipLines
    if (← peek).isSome then unexpected
    return commands

end

end Reading

/-- The next line's commands of a script, none at its end, and what is left. -/
def readNext (s : Source) : Except ScriptFault (Option (List Command) × Source) :=
  let fuel := s.rest.length * 8 + 64
  (do
    Reading.skipLines
    if (← Reading.peek).isNone then return none
    let commands ← Reading.readList fuel false
    Reading.skipBlanks
    if !(← Reading.take? "\n") && (← Reading.peek).isSome then Reading.unexpected
    return some commands : Reading _).run s

end ScriptWarden.Shell
