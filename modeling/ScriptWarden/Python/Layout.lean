import ScriptWarden.Text.Position

/-!
# Layout

The tokens that depend on more than their own characters: line ends, indentation and its end, and
the delimiters and contents of strings. The scanner carries the indentation of the open blocks and
the open string delimiters from token to token.
-/

namespace ScriptWarden.Python

open ScriptWarden.Text

-- ---------------------------------------------------------------------------
-- What the scanner carries
-- ---------------------------------------------------------------------------

/-- The delimiter of an open string and what its letters say about its contents. -/
structure Delimiter where
  quote : Option Char := none
  raw : Bool := false
  format : Bool := false
  bytes : Bool := false
  triple : Bool := false
deriving DecidableEq, Inhabited, Repr

/-- What the scanner carries from one token to the next. -/
structure LayoutState where
  /-- The indentation of the open blocks, innermost first; the whole text is at 0 and is not
  listed. -/
  indents : List Nat := []
  /-- The delimiters of the open strings, innermost first. -/
  delimiters : List Delimiter := []
  /-- Whether the string opened or closed last leaves a format string open. -/
  insideFormat : Bool := false
deriving DecidableEq, Inhabited, Repr

/-- The tokens that the scanner produces, and those it only asks about. -/
inductive LayoutToken where
  | newline | indent | dedent | stringStart | stringContent | escapeInterpolation | stringEnd
  | closeBracket | closeParen | closeBrace | except
deriving DecidableEq, Inhabited, Repr

/-- The tokens in the order in which a grammar lists them. -/
def LayoutToken.all : List LayoutToken :=
  [.newline, .indent, .dedent, .stringStart, .stringContent, .escapeInterpolation, .stringEnd,
   .closeBracket, .closeParen, .closeBrace, .except]

/-- A token with its place and what the scanner carries after it. -/
structure LayoutScan where
  token : LayoutToken
  start : Position
  stop : Position
  state : LayoutState
deriving Inhabited

-- ---------------------------------------------------------------------------
-- String contents
-- ---------------------------------------------------------------------------

/-- How a scan of the inside of a string ends. -/
inductive Inside where
  /-- Contents up to a place. -/
  | content (stop : Position)
  /-- The closing delimiter up to a place. -/
  | closing (stop : Position)
  /-- Nothing of a string is here. -/
  | nothing
  /-- The text stops; layout is looked for from a place on. -/
  | exhausted (at_ : Position)
deriving Inhabited

/-- Whether a character is there and is not NUL. -/
private def live (c : Option Char) : Bool := c.isSome && c != some '\x00'

/-- The place after a backslash in a raw string and the quote or line end that it covers. -/
private def afterRawBackslash (text : Array Char) (d : Delimiter) (p : Position) : Position :=
  let p := advance text p
  let p := if peek text p == d.quote || peek text p == some '\\' then advance text p else p
  match peek text p with
  | some '\r' =>
    let p := advance text p
    if peek text p == some '\n' then advance text p else p
  | some '\n' => advance text p
  | _ => p

/-- The inside of a string from a place on. The fuel bounds the number of characters. -/
private def scanInside (text : Array Char) (d : Delimiter) :
    Nat → Position → Bool → Inside
  | 0, p, _ => .exhausted p
  | fuel + 1, p, hasContent =>
    let c := peek text p
    let content := if hasContent then Inside.content p else .nothing
    if !live c then .exhausted p
    else if d.format && (c == some '\x7b' || c == some '\x7d') then content
    else if c == some '\\' then
      if d.raw then scanInside text d fuel (afterRawBackslash text d p) hasContent
      else if d.bytes then
        let q := advance text p
        match peek text q with
        | some 'N' | some 'u' | some 'U' =>
          let q := advance text q
          scanInside text d fuel (advance text q) true
        | _ => content
      else content
    else if c == d.quote then
      let q := advance text p
      if d.triple then
        if peek text q == d.quote then
          let r := advance text q
          if peek text r == d.quote then
            if hasContent then .content p else .closing (advance text r)
          else .content r
        else .content q
      else if hasContent then .content p
      else .closing q
    else if c == some '\n' && hasContent && !d.triple then .nothing
    else scanInside text d fuel (advance text p) true

-- ---------------------------------------------------------------------------
-- Line ends and indentation
-- ---------------------------------------------------------------------------

/-- White space and comments before a token: where they end, whether a line ended, the
indentation of the last line, and that of the first comment on a line of its own. -/
structure Margin where
  place : Position
  lineEnded : Bool := false
  indent : Nat := 0
  firstComment : Option Nat := none
deriving Inhabited

/-- The place of the next line feed, NUL or end. -/
private def commentEnd (text : Array Char) : Nat → Position → Position
  | 0, p => p
  | fuel + 1, p =>
    if live (peek text p) && peek text p != some '\n' then
      commentEnd text fuel (advance text p)
    else p

/-- The margin from a place on; none where a comment or a backslash after an expression ends the
search. The fuel bounds the number of characters. -/
private def scanMargin (text : Array Char) (comments : Bool) : Nat → Margin → Option Margin
  | 0, m => some m
  | fuel + 1, m =>
    let next := advance text m.place
    match peek text m.place with
    | none => some { m with lineEnded := true, indent := 0 }
    | some '\n' => scanMargin text comments fuel
        { m with place := next, lineEnded := true, indent := 0 }
    | some ' ' => scanMargin text comments fuel { m with place := next, indent := m.indent + 1 }
    | some '\t' => scanMargin text comments fuel { m with place := next, indent := m.indent + 8 }
    | some '\r' | some '\x0c' => scanMargin text comments fuel
        { m with place := next, indent := 0 }
    | some '#' =>
      if !comments then some m
      else if !m.lineEnded then none
      else
        let stop := commentEnd text text.size m.place
        scanMargin text comments fuel
          { m with
            place := advance text stop
            indent := 0
            firstComment := m.firstComment <|> some m.indent }
    | some '\\' =>
      let p := if peek text next == some '\r' then advance text next else next
      if peek text p == some '\n' || (peek text p).isNone then
        scanMargin text comments fuel { m with place := advance text p }
      else none
    | some _ => some m

-- ---------------------------------------------------------------------------
-- String delimiters
-- ---------------------------------------------------------------------------

/-- The letters before a quote. The fuel bounds their number. -/
private def scanFlags (text : Array Char) : Nat → Position → Delimiter → Position × Delimiter
  | 0, p, d => (p, d)
  | fuel + 1, p, d =>
    let next := advance text p
    match peek text p with
    | some 'f' | some 'F' | some 't' | some 'T' =>
      scanFlags text fuel next { d with format := true }
    | some 'r' | some 'R' => scanFlags text fuel next { d with raw := true }
    | some 'b' | some 'B' => scanFlags text fuel next { d with bytes := true }
    | some 'u' | some 'U' => scanFlags text fuel next d
    | _ => (p, d)

/-- The opening delimiter of a string, with the place after it. -/
private def scanOpening? (text : Array Char) (p : Position) : Option (Position × Delimiter) :=
  let (q, d) := scanFlags text text.size p {}
  match peek text q with
  | some c =>
    let one := advance text q
    if c == (Char.ofNat 96) then some (one, { d with quote := some c })
    else if c == '\'' || c == '"' then
      let two := advance text one
      if peek text one == some c && peek text two == some c then
        some (advance text two, { d with quote := some c, triple := true })
      else some (one, { d with quote := some c })
    else none
  | none => none

-- ---------------------------------------------------------------------------
-- The scanner
-- ---------------------------------------------------------------------------

/-- A doubled brace in a format string. -/
private def scanEscape? (text : Array Char) (p : Position) : Option Position :=
  let q := advance text p
  if peek text q == peek text p then some (advance text q) else none

/-- The line-end, indentation or string-opening token at a place. Tokens of layout are empty and
stand where the search began. -/
private def scanLayout (text : Array Char) (valid : LayoutToken → Bool) (recovering : Bool)
    (s : LayoutState) (start : Position) : Option LayoutScan :=
  let withinBrackets := valid .closeBrace || valid .closeParen || valid .closeBracket
  let comments := valid .indent || valid .dedent || valid .newline || valid .except
  match scanMargin text comments (2 * text.size + 2) { place := start } with
  | none => none
  | some m =>
    let current := s.indents.headD 0
    let c := peek text m.place
    let quoteNext := c == some '"' || c == some '\'' || c == some (Char.ofNat 96)
    let fewerThan : Bool := match m.firstComment with
      | none => true
      | some k => k < current
    if m.lineEnded && valid .indent && current < m.indent then
      some ⟨.indent, start, start, { s with indents := m.indent :: s.indents }⟩
    else if m.lineEnded &&
        (valid .dedent ||
          (!valid .newline && !(valid .stringStart && quoteNext) && !withinBrackets)) &&
        m.indent < current && !s.insideFormat && fewerThan then
      some ⟨.dedent, start, start, { s with indents := s.indents.drop 1 }⟩
    else if m.lineEnded && valid .newline && !recovering then
      some ⟨.newline, start, start, s⟩
    else if m.firstComment.isNone && valid .stringStart then
      match scanOpening? text m.place with
      | some (stop, d) =>
        some ⟨.stringStart, m.place, stop,
          { s with delimiters := d :: s.delimiters, insideFormat := d.format }⟩
      | none => none
    else none

/-- The layout token at a place, if one of the valid tokens is there. While everything is valid,
after an error, the inside of strings is not looked for. -/
def scanLayoutToken (text : Array Char) (valid : LayoutToken → Bool) (s : LayoutState)
    (p : Position) : Option LayoutScan :=
  let recovering := valid .stringContent && valid .indent
  match s.delimiters with
  | [] => scanLayout text valid recovering s p
  | d :: outer =>
    let c := peek text p
    if valid .escapeInterpolation && (c == some '\x7b' || c == some '\x7d') && !recovering &&
        d.format then
      (scanEscape? text p).map fun stop => ⟨.escapeInterpolation, p, stop, s⟩
    else if valid .stringContent && !recovering then
      match scanInside text d (text.size + 1) p false with
      | .content stop => some ⟨.stringContent, p, stop, s⟩
      | .closing stop =>
        some ⟨.stringEnd, p, stop, { s with delimiters := outer, insideFormat := false }⟩
      | .nothing => none
      | .exhausted q =>
        (scanLayout text valid recovering s q).map fun found => { found with start := p }
    else scanLayout text valid recovering s p

end ScriptWarden.Python
