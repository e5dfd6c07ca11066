import ScriptWarden.Numeric.Power

/-!
# Shell arithmetic

Expressions over 64-bit integers that may name and assign variables. Both sides of every operator
are worked out.
-/

namespace ScriptWarden.Shell

/-- A token of an expression. -/
inductive ArithToken where
  | number (value : Int)
  | name (name : String)
  | operator (text : String)
deriving DecidableEq, Repr, Inhabited

namespace Arithmetic

/-- An integer kept within 64 bits. -/
def wrap (i : Int) : Int := Int.bmod i (twoTo 64)

/-- The operators, longer ones before those that they begin with. -/
def operators : List String :=
  ["<<=", ">>=", "&&", "||", "==", "!=", "<=", ">=", "<<", ">>", "+=", "-=", "*=", "/=", "%=", "&=",
   "|=", "^=", "+", "-", "*", "/", "%", "<", ">", "=", "!", "~", "&", "|", "^", "?", ":", "(", ")"]

/-- The value of a digit in bases up to sixteen. -/
def digit? (c : Char) : Option Nat :=
  if c.isDigit then some (c.toNat - 48)
  else if 'a' ≤ c && c ≤ 'f' then some (c.toNat - 87)
  else if 'A' ≤ c && c ≤ 'F' then some (c.toNat - 55)
  else none

/-- The number that digits in a base write. -/
def ofDigits? (base : Nat) (cs : List Char) : Option Nat :=
  cs.foldl (fun n c => do
    let n ← n
    let d ← digit? c
    if d < base then some (n * base + d) else none) (some 0)

/-- The number that a text writes: decimal, octal after a zero, or hexadecimal. -/
def number? (text : String) : Option Int :=
  match text.toList with
  | [] => none
  | '-' :: cs => (unsigned? cs).map fun n => wrap (-(n : Int))
  | '+' :: cs => (unsigned? cs).map fun n => wrap n
  | cs => (unsigned? cs).map fun n => wrap n
where
  /-- The number that a text without a sign writes. -/
  unsigned? : List Char → Option Nat
    | [] => none
    | '0' :: 'x' :: cs | '0' :: 'X' :: cs => if cs.isEmpty then none else ofDigits? 16 cs
    | '0' :: cs => ofDigits? 8 cs
    | cs => ofDigits? 10 cs

/-- The tokens of an expression. The fuel bounds its length. -/
def tokens : Nat → List Char → Option (List ArithToken)
  | 0, _ => none
  | _ + 1, [] => some []
  | n + 1, c :: cs =>
    if c == ' ' || c == '\t' || c == '\n' then tokens n cs
    else if c.isDigit then
      let text := (c :: cs).takeWhile Char.isAlphanum
      match number? (String.ofList text) with
      | some i => (tokens n ((c :: cs).drop text.length)).map (.number i :: ·)
      | none => none
    else if c.isAlpha || c == '_' then
      let text := (c :: cs).takeWhile fun c => c.isAlphanum || c == '_'
      (tokens n ((c :: cs).drop text.length)).map (.name (String.ofList text) :: ·)
    else
      match operators.find? fun o => o.toList.isPrefixOf (c :: cs) with
      | some o => (tokens n ((c :: cs).drop o.length)).map (.operator o :: ·)
      | none => none

/-- The variables that an expression sees, changed ones first, each with its number or the text
that is none. -/
abbrev Variables := List (String × Except String Int)

/-- What is left of an expression and the variables. -/
structure State where
  rest : List ArithToken
  bindings : Variables
deriving Repr, Inhabited

/-- Why an expression has no value. -/
inductive ArithFault where
  | malformed (reason : String)
  /-- A variable is set to a text that is no number. -/
  | notNumber (text : String)
deriving DecidableEq, Repr, Inhabited

/-- A step of working out an expression. -/
abbrev Step (α : Type) := StateT State (Except ArithFault) α

/-- The value of a variable. -/
def valueOf (name : String) : Step Int := do
  match (← get).bindings.lookup name with
  | some (.ok i) => return i
  | some (.error text) => throw (.notNumber text)
  | none => return 0

/-- Let a variable have a value. -/
def assign (name : String) (value : Int) : Step Int := do
  modify fun s => { s with bindings := (name, .ok value) :: s.bindings }
  return value

/-- Pass over one of some operators, if one is next. -/
def operator? (texts : List String) : Step (Option String) := do
  match (← get).rest with
  | .operator o :: rest =>
    if texts.contains o then
      modify fun s => { s with rest }
      return some o
    else return none
  | _ => return none

/-- The truth of a statement as a number. -/
def truth (b : Bool) : Int := if b then 1 else 0

/-- What an operator makes of two numbers. -/
def apply (operator : String) (a b : Int) : Except ArithFault Int :=
  match operator with
  | "+" => .ok (wrap (a + b))
  | "-" => .ok (wrap (a - b))
  | "*" => .ok (wrap (a * b))
  | "/" => if b == 0 then .error (.malformed "division by zero") else .ok (wrap (Int.tdiv a b))
  | "%" => if b == 0 then .error (.malformed "division by zero") else .ok (wrap (Int.tmod a b))
  | "<" => .ok (truth (a < b))
  | ">" => .ok (truth (b < a))
  | "<=" => .ok (truth (a ≤ b))
  | ">=" => .ok (truth (b ≤ a))
  | "==" => .ok (truth (a == b))
  | "!=" => .ok (truth (a != b))
  | "&&" => .ok (truth (a != 0 && b != 0))
  | "||" => .ok (truth (a != 0 || b != 0))
  | "<<" => .ok (wrap (a * twoTo (b % 64).toNat))
  | ">>" => .ok (a.fdiv (twoTo (b % 64).toNat))
  | "&" => .ok (bits (· &&& ·) a b)
  | "|" => .ok (bits (· ||| ·) a b)
  | "^" => .ok (bits (· ^^^ ·) a b)
  | _ => .error (.malformed "expecting primary")
where
  /-- An operator on the bits of two numbers. -/
  bits (f : UInt64 → UInt64 → UInt64) (a b : Int) : Int :=
    wrap (f (UInt64.ofInt a) (UInt64.ofInt b)).toNat

/-- The operators between two numbers, those that bind least first. -/
def levels : List (List String) :=
  [["||"], ["&&"], ["|"], ["^"], ["&"], ["==", "!="], ["<=", ">=", "<", ">"], ["<<", ">>"],
   ["+", "-"], ["*", "/", "%"]]

mutual

/-- A whole expression: an assignment, a choice or a combination. -/
def whole : Nat → Step Int
  | 0 => throw (.malformed "expression too long")
  | n + 1 => do
    match (← get).rest with
    | .name x :: .operator o :: rest =>
      if o == "=" then
        modify fun s => { s with rest }
        assign x (← whole n)
      else if o.length == 2 && o.endsWith "=" && !(["==", "!=", "<=", ">="].contains o) then
        modify fun s => { s with rest }
        let old ← valueOf x
        let value ← apply (String.ofList (o.toList.take 1)) old (← whole n)
        assign x value
      else choice n
    | _ => choice n

/-- A choice between two expressions by a third, or a combination. -/
def choice : Nat → Step Int
  | 0 => throw (.malformed "expression too long")
  | n + 1 => do
    let condition ← combination n levels
    match ← operator? ["?"] with
    | none => return condition
    | some _ =>
      let yes ← whole n
      if (← operator? [":"]).isNone then throw (.malformed "expecting ':'")
      let no ← choice n
      return if condition != 0 then yes else no

/-- A combination by operators that bind at least as much as some. -/
def combination : Nat → List (List String) → Step Int
  | 0, _ => throw (.malformed "expression too long")
  | n + 1, [] => single n
  | n + 1, level :: tighter => do
    let first ← combination n tighter
    combined n level tighter first

/-- The combination of a number with those that follow by the operators of a level. -/
def combined : Nat → List String → List (List String) → Int → Step Int
  | 0, _, _, _ => throw (.malformed "expression too long")
  | n + 1, level, tighter, left => do
    match ← operator? level with
    | none => return left
    | some o =>
      let right ← combination n tighter
      combined n level tighter (← apply o left right)

/-- A number, a variable, or an expression in parentheses, with signs before it. -/
def single : Nat → Step Int
  | 0 => throw (.malformed "expression too long")
  | n + 1 => do
    match (← get).rest with
    | .number i :: rest =>
      modify fun s => { s with rest }
      return i
    | .name x :: rest =>
      modify fun s => { s with rest }
      valueOf x
    | .operator o :: rest =>
      modify fun s => { s with rest }
      match o with
      | "-" => return wrap (-(← single n))
      | "+" => single n
      | "!" => return truth ((← single n) == 0)
      | "~" => return -(← single n) - 1
      | "(" =>
        let value ← whole n
        if (← operator? [")"]).isNone then throw (.malformed "expecting ')'")
        return value
      | _ => throw (.malformed "expecting primary")
    | [] => throw (.malformed "expecting primary")

end

/-- The value of an expression among variables, and the variables that it changed, last change
first. -/
def evaluate (bindings : Variables) (text : String) :
    Except ArithFault (Int × List (String × Int)) := do
  let some ts := tokens (text.length + 1) text.toList | throw (.malformed "expecting EOF")
  if ts.isEmpty then return (0, [])
  let (value, s) ← (whole (ts.length * 16 + 32)).run { rest := ts, bindings }
  if !s.rest.isEmpty then throw (.malformed "expecting EOF")
  let changed := s.bindings.take (s.bindings.length - bindings.length)
  return (value, changed.filterMap fun (name, v) => v.toOption.map fun i => (name, i))

end Arithmetic

end ScriptWarden.Shell
