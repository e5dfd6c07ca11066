import ScriptWarden.Shell.Arithmetic

/-!
# Formats

What `printf` and `echo` write: texts with escapes, and places in them that arguments fill.
-/

namespace ScriptWarden.Shell

namespace Format

/-- What the escape of one letter stands for. -/
def letter? : Char → Option Char
  | 'a' => some '\x07'
  | 'b' => some '\x08'
  | 'f' => some '\x0c'
  | 'n' => some '\n'
  | 'r' => some '\r'
  | 't' => some '\t'
  | 'v' => some '\x0b'
  | '\\' => some '\\'
  | _ => none

/-- Whether a character is an octal digit. -/
def isOctal (c : Char) : Bool := '0' ≤ c && c ≤ '7'

/-- The byte that octal digits write. -/
def octal (cs : List Char) : Char :=
  Char.ofNat (cs.foldl (fun n c => n * 8 + (c.toNat - 48)) 0 % 256)

/-- The character that follows a backslash with what it stands for, and what follows that. In an
argument, digits come after a zero. -/
def escape (argument : Bool) : List Char → List Char × List Char
  | [] => (['\\'], [])
  | c :: rest =>
    if isOctal c && (!argument || c == '0') then
      let digitsFrom := if argument then rest else c :: rest
      let digits := (digitsFrom.take 3).takeWhile isOctal
      ([octal digits], digitsFrom.drop digits.length)
    else
      match letter? c with
      | some d => ([d], rest)
      | none => (['\\', c], rest)

/-- A text with its escapes replaced, and whether one asked to end all output there. The fuel bounds
its length. -/
def unescape : Nat → List Char → List Char × Bool
  | 0, _ => ([], false)
  | _ + 1, [] => ([], false)
  | _ + 1, '\\' :: 'c' :: _ => ([], true)
  | n + 1, '\\' :: rest =>
    let (out, rest) := escape true rest
    let (more, stop) := unescape n rest
    (out ++ more, stop)
  | n + 1, c :: rest =>
    let (more, stop) := unescape n rest
    (c :: more, stop)

-- ---------------------------------------------------------------------------
-- Places
-- ---------------------------------------------------------------------------

/-- A place that an argument fills. -/
structure Spot where
  left : Bool := false
  plus : Bool := false
  blank : Bool := false
  zero : Bool := false
  alternate : Bool := false
  width : Nat := 0
  precision : Option Nat := none
deriving DecidableEq, Repr, Inhabited

/-- Text filled up to a width. -/
def pad (s : Spot) (text : List Char) : List Char :=
  let gap := List.replicate (s.width - text.length) ' '
  if s.left then text ++ gap else gap ++ text

/-- A number filled up to a width, with a sign or mark in front. -/
def padNumber (s : Spot) (mark digits : List Char) : List Char :=
  let digits := match s.precision with
    | some p =>
      if p == 0 && digits == ['0'] then [] else List.replicate (p - digits.length) '0' ++ digits
    | none => digits
  if s.zero && !s.left && s.precision.isNone then
    mark ++ List.replicate (s.width - mark.length - digits.length) '0' ++ digits
  else pad s (mark ++ digits)

/-- The digits of a number in a base. -/
def digits (base n : Nat) (upper : Bool) : List Char :=
  (Nat.toDigits base n).map fun c => if upper then c.toUpper else c

/-- The text of a number for a kind of place. -/
def numberText (s : Spot) (kind : Char) (i : Int) : List Char :=
  let unsigned := (i % twoTo 64).toNat
  match kind with
  | 'u' => padNumber s [] (digits 10 unsigned false)
  | 'o' => padNumber s (if s.alternate then ['0'] else []) (digits 8 unsigned false)
  | 'x' => padNumber s (if s.alternate && unsigned != 0 then ['0', 'x'] else [])
      (digits 16 unsigned false)
  | 'X' => padNumber s (if s.alternate && unsigned != 0 then ['0', 'X'] else [])
      (digits 16 unsigned true)
  | _ =>
    let sign := if i < 0 then ['-'] else if s.plus then ['+'] else if s.blank then [' '] else []
    padNumber s sign (digits 10 i.natAbs false)

/-- What is wrong with an argument that has to be a number. -/
inductive NumberFault where
  /-- It does not begin with a number. -/
  | notNumber (text : String)
  /-- Something stands behind its number. -/
  | trailing (text : String)
deriving DecidableEq, Repr, Inhabited

/-- The number that an argument stands for, and what is wrong with it. -/
def argumentNumber (text : String) : Int × Option NumberFault :=
  match text.toList with
  | [] => (0, none)
  | '\'' :: c :: _ | '"' :: c :: _ => (c.toNat, none)
  | cs =>
    let cs := cs.dropWhile fun c => c == ' ' || c == '\t' || c == '\n'
    match Arithmetic.number? (String.ofList cs) with
    | some i => (i, none)
    | none =>
      let sign := cs.takeWhile fun c => c == '-' || c == '+'
      let head := (cs.drop sign.length).takeWhile Char.isDigit
      let value := (Arithmetic.number? (String.ofList (sign.take 1 ++ head))).getD 0
      (value, some (if head.isEmpty then .notNumber text else .trailing text))

/-- What has been written, and what is left of the arguments. -/
structure Filling where
  /-- The output, last character first. -/
  out : List Char := []
  arguments : List String
  /-- What is wrong with the arguments that should have been numbers. -/
  faults : List NumberFault := []
  /-- The place that cannot be filled, without its percent sign; nothing if the format ends there. -/
  refusal : Option String := none
  /-- Whether an argument was asked for. -/
  used : Bool := false
  stopped : Bool := false
deriving Repr, Inhabited

/-- The next argument; nothing stands for one that is missing. -/
def Filling.next (f : Filling) : String × Filling :=
  match f.arguments with
  | a :: rest => (a, { f with arguments := rest, used := true })
  | [] => ("", { f with used := true })

/-- The next argument as a number. -/
def Filling.nextNumber (f : Filling) : Int × Filling :=
  let (text, f) := f.next
  let (i, fault) := argumentNumber text
  (i, { f with faults := f.faults ++ fault.toList })

/-- Write more. -/
def Filling.write (f : Filling) (text : List Char) : Filling :=
  { f with out := text.reverse ++ f.out }

/-- The flags of a place. -/
def flags (s : Spot) : List Char → Spot × List Char
  | '-' :: rest => flags { s with left := true } rest
  | '+' :: rest => flags { s with plus := true } rest
  | ' ' :: rest => flags { s with blank := true } rest
  | '0' :: rest => flags { s with zero := true } rest
  | '#' :: rest => flags { s with alternate := true } rest
  | rest => (s, rest)

/-- A count in a place: digits, or a star for an argument. -/
def count (f : Filling) : List Char → Int × Filling × List Char
  | '*' :: rest =>
    let (i, f) := f.nextNumber
    (i, f, rest)
  | cs =>
    let text := cs.takeWhile Char.isDigit
    (((String.ofList text).toNat?.getD 0 : Nat), f, cs.drop text.length)

/-- Fill a place, which follows a percent sign; what follows it. -/
def fill (f : Filling) (place : List Char) : Filling × List Char :=
  let (s, cs) := flags {} place
  let (width, f, cs) := count f cs
  let s := { s with width := width.natAbs, left := s.left || width < 0 }
  let (s, f, cs) := match cs with
    | '.' :: rest =>
      let (precision, f, rest) := count f rest
      ({ s with precision := if precision < 0 then none else some precision.toNat }, f, rest)
    | _ => (s, f, cs)
  match cs with
  | 's' :: rest =>
    let (text, f) := f.next
    let text := match s.precision with
      | some p => text.toList.take p
      | none => text.toList
    (f.write (pad s text), rest)
  | 'b' :: rest =>
    let (text, f) := f.next
    let (text, stop) := unescape (text.length + 1) text.toList
    ({ f.write (pad s text) with stopped := stop }, rest)
  | 'c' :: rest =>
    let (text, f) := f.next
    (f.write (pad s (text.toList.take 1)), rest)
  | kind :: rest =>
    if "diouxX".toList.contains kind then
      let (i, f) := f.nextNumber
      (f.write (numberText s kind i), rest)
    else
      let read := place.take (place.length - rest.length)
      ({ f with stopped := true, refusal := some (String.ofList read) }, [])
  | [] => ({ f with stopped := true, refusal := some "" }, [])

/-- Go through a format once. The fuel bounds its length. -/
def once : Nat → Filling → List Char → Filling
  | 0, f, _ => f
  | n + 1, f, cs =>
    if f.stopped then f
    else
      match cs with
      | [] => f
      | '%' :: '%' :: rest => once n (f.write ['%']) rest
      | '%' :: rest =>
        let (f, rest) := fill f rest
        once n f rest
      | '\\' :: rest =>
        let (text, rest) := escape false rest
        once n (f.write text) rest
      | c :: rest => once n (f.write [c]) rest

/-- Go through a format as often as there are arguments for it. The fuel bounds how often. -/
def again : Nat → Filling → List Char → Filling
  | 0, f, _ => f
  | n + 1, f, cs =>
    let f := once (cs.length + 1) { f with used := false } cs
    if f.stopped || f.arguments.isEmpty || !f.used then f else again n f cs

/-- Fill a format with arguments. -/
def printf (format : String) (arguments : List String) : Filling :=
  again (arguments.length + 1) { arguments } format.toList

/-- What has been written. -/
def Filling.text (f : Filling) : String := String.ofList f.out.reverse

/-- What `echo` writes: its arguments with blanks between them, escapes replaced, and a line end
unless it is asked to leave that out. -/
def echo (arguments : List String) : String :=
  let (line, words) := match arguments with
    | "-n" :: rest => (false, rest)
    | words => (true, words)
  let joined := " ".intercalate words
  let (text, stop) := unescape (joined.length + 1) joined.toList
  String.ofList (if line && !stop then text ++ ['\n'] else text)

end Format

end ScriptWarden.Shell
