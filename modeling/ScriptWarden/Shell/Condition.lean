import ScriptWarden.Shell.Arithmetic
import ScriptWarden.Shell.Expansion

/-!
# Conditions

What `test` and `[` decide: conditions on texts, numbers and files, combined by "not", "and" and
"or".
-/

namespace ScriptWarden.Shell

namespace Condition

/-- A step through the words of a condition; a text says what is wrong with them. -/
abbrev Step (α : Type) := StateT (List String) (ExceptT String Asking) α

/-- The operators before one operand. -/
def unary : List String :=
  ["-n", "-z", "-e", "-f", "-d", "-s", "-r", "-w", "-x", "-h", "-L", "-p", "-S", "-b", "-c", "-t", "-u",
   "-g", "-k", "-O", "-G"]

/-- The operators between two operands. -/
def binary : List String :=
  ["=", "==", "!=", "<", ">", "-eq", "-ne", "-lt", "-le", "-gt", "-ge", "-nt", "-ot", "-ef"]

/-- Whether a word that could be an operator is an operand, by what follows it. -/
def isOperand : List String → Bool
  | [] => true
  | [_] => false
  | next :: word :: _ => binary.contains next && word != ")" || next == "-a" || next == "-o"

/-- Whether the first word is an operator before one operand. -/
def isUnary : List String → Bool
  | word :: rest => unary.contains word && !isOperand rest
  | [] => false

/-- The number that a word writes. -/
def number (word : String) : Step Int := do
  let digits := word.trimAscii.toString.toList
  let unsigned := match digits with
    | '-' :: rest | '+' :: rest => rest
    | rest => rest
  if unsigned.isEmpty || !unsigned.all Char.isDigit then throw ("Illegal number: " ++ word)
  let n := ((String.ofList unsigned).toNat?.getD 0 : Int)
  return if digits.head? == some '-' then -n else n

/-- What a path leads to. -/
def look (path : String) : Step (Option FileInfo) :=
  StateT.lift (ExceptT.lift (Asking.look (pathOfText path)))

/-- Decide by one operand. -/
def decideUnary (operator word : String) : Step Bool := do
  match operator with
  | "-n" => return !word.isEmpty
  | "-z" => return word.isEmpty
  | "-f" => return ((← look word).map (·.isFile)).getD false
  | "-d" => return ((← look word).map (·.isDirectory)).getD false
  | "-s" => return ((← look word).map fun i => i.size != 0).getD false
  | "-e" | "-r" | "-w" => return (← look word).isSome
  | "-x" =>
    let isProgram := word.startsWith "/bin/" || word.startsWith "/usr/bin/"
    return ((← look word).map fun i => i.isDirectory || isProgram).getD false
  | _ => return false

/-- Decide by two operands. -/
def decideBinary (left operator right : String) : Step Bool := do
  match operator with
  | "=" | "==" => return left == right
  | "!=" => return left != right
  | "<" => return left < right
  | ">" => return right < left
  | "-nt" | "-ot" | "-ef" => return false
  | _ =>
    let a ← number left
    let b ← number right
    match operator with
    | "-eq" => return a == b
    | "-ne" => return a != b
    | "-lt" => return a < b
    | "-le" => return a ≤ b
    | "-gt" => return b < a
    | _ => return b ≤ a

mutual

/-- Conditions of which one has to hold. -/
def any : Nat → Step Bool
  | 0 => throw "condition too long"
  | n + 1 => do
    let first ← all n
    match ← get with
    | "-o" :: rest =>
      set rest
      let others ← any n
      return first || others
    | _ => return first

/-- Conditions which all have to hold. -/
def all : Nat → Step Bool
  | 0 => throw "condition too long"
  | n + 1 => do
    let first ← single n
    match ← get with
    | "-a" :: rest =>
      set rest
      let others ← all n
      return first && others
    | _ => return first

/-- A condition that is not combined with others. -/
def single : Nat → Step Bool
  | 0 => throw "condition too long"
  | n + 1 => do
    match ← get with
    | [] => return false
    | "!" :: rest =>
      set rest
      return !(← single n)
    | "(" :: first :: rest =>
      set (first :: rest)
      let inner ← any n
      match ← get with
      | ")" :: rest =>
        set rest
        return inner
      | _ => throw "closing paren expected"
    | word :: rest =>
      if isUnary (word :: rest) then
        match rest with
        | operand :: rest =>
          set rest
          decideUnary word operand
        | [] => throw (word ++ ": argument expected")
      else
        match rest with
        | operator :: rest =>
          if binary.contains operator then
            match rest with
            | right :: rest =>
              set rest
              decideBinary word operator right
            | [] => throw (operator ++ ": argument expected")
          else
            set (operator :: rest)
            return !word.isEmpty
        | [] =>
          set rest
          return !word.isEmpty

end

/-- Whether words state something that holds; a text says what is wrong with them. -/
def decide (words : List String) : Asking (Except String Bool) := do
  let fuel := words.length * 4 + 8
  let whole : Step Bool := do
    let holds ← match words with
      | [left, operator, right] =>
        if binary.contains operator then
          set ([] : List String)
          decideBinary left operator right
        else any fuel
      | ["!", left, operator, right] =>
        set [left, operator, right]
        return !(← any fuel)
      | _ => any fuel
    match ← get with
    | word :: _ => throw (word ++ ": unexpected operator")
    | [] => return holds
  match ← (whole.run words).run with
  | .ok (holds, _) => return .ok holds
  | .error message => return .error message

end Condition

end ScriptWarden.Shell
