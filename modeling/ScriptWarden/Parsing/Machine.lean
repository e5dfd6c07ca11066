import ScriptWarden.Parsing.Stack
import ScriptWarden.Python.Lexeme

/-!
# The parsing machine

One step at a time over all readings: taking the next token of a reading, putting it on the
stack, replacing the children of a production by its node, and accepting a whole text.
-/

namespace ScriptWarden.Parsing

open ScriptWarden.Grammar ScriptWarden.Text ScriptWarden.Python
open Stack (Slice)

-- ---------------------------------------------------------------------------
-- What is parsed, and how far
-- ---------------------------------------------------------------------------

/-- What the machine knows of a language. -/
structure Language where
  lexer : Lexer
  start : State
  /-- The terminals that may be skipped after an error: all but free text in a string. -/
  skippable : TermSet
deriving Inhabited

/-- The grammar of a language. -/
def Language.grammar (l : Language) : Grammar := l.lexer.grammar

/-- The language of a grammar. -/
def Language.ofGrammar (g : Grammar) : Language :=
  { lexer := Lexer.ofGrammar g
    start := State.start g
    skippable := g.spelling.toList.zipIdx.foldl (fun s (m, i) =>
      if m == .lexeme "format_text" then s else TermSet.union s (TermSet.singleton i)) 0 }

/-- The readings under way and the best whole text so far. -/
structure Machine where
  stack : Stack
  finished : Option Subtree := none
  accepted : Nat := 0
deriving Inhabited

/-- The machine at the beginning of a text. -/
def Machine.start (l : Language) : Machine := { stack := Stack.start l.start }

/-- Change the stack of a machine. -/
def Machine.onStack (m : Machine) (f : Stack → Stack) : Machine := { m with stack := f m.stack }

/-- The actions of a point on a terminal; lost readings have none. -/
def Point.actions (g : Grammar) (p : Point) (symbol : Nat) : List Action :=
  match p with
  | .lost => []
  | .at_ s => if symbol = errorSymbol then [] else s.actions g symbol

/-- The terminals that may come next at a point, those that may stand anywhere included. -/
def Point.valid (l : Language) : Point → TermSet
  | .lost => l.skippable
  | .at_ s => TermSet.union s.valid l.grammar.extras

/-- The point after a symbol: the target of the last action for a terminal, that of the
production for a nonterminal. -/
def Point.after (g : Grammar) (p : Point) (symbol : Nat) : Option Point :=
  match p with
  | .lost => none
  | .at_ s =>
    if symbol < g.terminalCount then
      match (s.actions g symbol).getLast? with
      | some (.shift target _) => some (.at_ target)
      | some .skip => some p
      | _ => none
    else (s.goto g symbol).map .at_

-- ---------------------------------------------------------------------------
-- Tokens
-- ---------------------------------------------------------------------------

/-- The layout tokens among valid terminals. -/
def layoutValid (g : Grammar) (valid : TermSet) (t : LayoutToken) : Bool :=
  match (LayoutToken.all.zip g.scanned.toList).find? (·.1 == t) with
  | some (_, n) => TermSet.contains valid n
  | none => false

/-- The terminal of a layout token. -/
def layoutTerminal (g : Grammar) (t : LayoutToken) : Nat :=
  match (LayoutToken.all.zip g.scanned.toList).find? (·.1 == t) with
  | some (_, n) => n
  | none => 0

/-- The byte order mark. -/
def byteOrderMark : Char := '\ufeff'

/-- The terminal of a word: itself where it fits or is reserved, otherwise an identifier. -/
def wordTerminal (l : Language) (point : Point) (spelled : String) : Nat × Bool :=
  let g := l.grammar
  match l.lexer.words[spelled]? with
  | none => (g.word, false)
  | some k =>
    let valid := point.valid l
    let reserved := match point with
      | .lost => false
      | .at_ s => TermSet.contains g.reserved k && TermSet.contains s.valid g.word
    if TermSet.contains valid k || reserved then (k, true) else (g.word, true)

/-- Look for a token from a place on. Where none of the valid tokens is found every token counts
as valid, and where still none is found characters are passed over and make up an error token.
The fuel bounds the number of attempts. -/
def lexFrom (l : Language) (text : Array Char) (point : Point) (layout : Option LayoutState)
    (advanced : Bool) (origin : Position) :
    Nat → Position → Bool → Option (Position × Position) → Leaf
  | 0, p, _, skipped =>
    let (a, b) := skipped.getD (p, p)
    { symbol := errorSymbol, pad := origin, start := a, stop := b }
  | fuel + 1, p, anything, skipped =>
    let g := l.grammar
    let valid := if anything then l.skippable else point.valid l
    let begin_ :=
      if p.char = 0 && peek text p == some byteOrderMark then advance text p else p
    let state := layout.getD {}
    let scanned := (scanLayoutToken text (layoutValid g valid) state begin_).filter fun found =>
      !(found.stop.byte ≤ p.byte && layout == some found.state && (anything || !advanced))
    let errorLeaf := fun (a b : Position) =>
      ({ symbol := errorSymbol, pad := origin, start := a, stop := b } : Leaf)
    match scanned with
    | some found =>
      match skipped with
      | some (a, b) => errorLeaf a b
      | none =>
        { symbol := layoutTerminal g found.token
          pad := origin
          start := found.start
          stop := found.stop
          layout := some found.state
          layoutChanged := layout != some found.state }
    | none =>
      match l.lexer.scan text (l.lexer.scannable valid) false begin_ with
      | .found n start stop =>
        match skipped with
        | some (a, b) => errorLeaf a b
        | none =>
          let (symbol, keyword) :=
            if n = g.word then wordTerminal l point (slice text start stop) else (n, false)
          { symbol := symbol, pad := origin, start := start, stop := stop,
            extra := symbol = 0, keyword := keyword }
      | .nothing start reached =>
        if !anything then lexFrom l text point layout advanced origin fuel origin true skipped
        else
          let (a, b) := skipped.getD (start, start)
          let next := if reached.byte = b.byte then advance text reached else reached
          lexFrom l text point layout advanced origin fuel next true (some (a, next))

/-- The next token of a reading. -/
def lex (l : Language) (text : Array Char) (s : Stack) (v : Nat) : Subtree :=
  let point := s.point v
  let p := s.position v
  .leaf (lexFrom l text point (s.version v).layout (s.hasAdvanced v) p (text.size + 3) p
    (point == .lost) none)

-- ---------------------------------------------------------------------------
-- Shift, reduce, accept
-- ---------------------------------------------------------------------------

/-- Put a token on a reading. -/
def shift (g : Grammar) (s : Stack) (v : Nat) (point : Point) (token : Subtree)
    (extra : Bool) : Stack :=
  let pushed := s.push g v (some (token.withExtra extra)) point
  match token.layout with
  | some layout => pushed.modifyVersion v fun h => { h with layout := some layout }
  | none => pushed

/-- The subtrees before the extras at the end, and those extras. -/
def splitExtras (ts : List Subtree) : List Subtree × List Subtree :=
  let extras := (ts.reverse.takeWhile (·.isExtra)).reverse
  (ts.take (ts.length - extras.length), extras)

/-- Merge a reading into the first earlier one, other than the one it came from, that has reached
the same point. -/
def mergeEarlier (g : Grammar) (s : Stack) (origin v : Nat) : Stack × Bool :=
  match (List.range v).find? fun j => j != origin && s.canMerge j v with
  | some j => s.merge g j v
  | none => (s, false)

/-- Put nodes in the place of slices. Slices of one reading are readings of one passage, of which
the best becomes the node. The fuel is the number of slices. -/
def reduceSlices (g : Grammar) (v : Nat) (r : Reduction) :
    Nat → List Slice → Nat → Stack → Stack
  | 0, _, _, s => s
  | _, [], _, s => s
  | fuel + 1, slice :: rest, removed, s =>
    let siblings := rest.takeWhile (·.version == slice.version)
    let others := rest.dropWhile (·.version == slice.version)
    let target := slice.version - removed
    let halted := (s.versions.filter fun h =>
      match h.activity with
      | .halted => true
      | _ => false).size
    if limits.versions + limits.overflow + halted < target then
      reduceSlices g v r fuel others (removed + 1) (s.remove target)
    else
      let symbol := g.terminalCount + r.lhs
      let build := fun (children : List Subtree) =>
        Subtree.ofChildren g symbol (some r.production) (s.position target) children
      let (children, extras) := splitExtras slice.subtrees
      let (parent, extras) := siblings.foldl (fun (acc : Subtree × List Subtree) sibling =>
        let (children, extras) := splitExtras sibling.subtrees
        let other := build children
        if prefersSecond acc.1 other then (other, extras) else acc) (build children, extras)
      let parent := parent.addDynamic r.dynamic
      let point := ((s.point target).after g symbol).getD .lost
      let s := s.push g target (some parent) point
      let s := extras.foldl (fun s e => s.push g target (some e) point) s
      let (s, merged) := mergeEarlier g s v target
      reduceSlices g v r fuel others (if merged then removed + 1 else removed) s

/-- Replace the children of a production by its node, on every way back. The first new reading is
answered, if there is one. -/
def reduce (g : Grammar) (s : Stack) (v : Nat) (r : Reduction) : Stack × Option Nat :=
  let before := s.count
  let (s, slices) := s.pop v r.count
  let s := reduceSlices g v r slices.length slices 0 s
  (s, if before < s.count then some before else none)

/-- The whole text of a list of subtrees: the last one that is no extra, with the others added to
its children. -/
def wholeText (g : Grammar) (ts : List Subtree) : Option Subtree :=
  match (ts.zipIdx.reverse).find? fun (t, _) => !t.isExtra with
  | some (.node info children, i) =>
    some (Subtree.ofChildren g info.symbol info.production info.start
      (ts.take i ++ children ++ ts.drop (i + 1)))
  | _ => none

/-- End a reading at the end of the text, and keep the better of its whole texts and the one
there is. -/
def accept (l : Language) (m : Machine) (v : Nat) (end_ : Subtree) : Machine :=
  let g := l.grammar
  let s := m.stack.push g v (some end_) (.at_ l.start)
  let (s, slices) := s.popAll v
  let m := slices.foldl (fun (m : Machine) slice =>
    match wholeText g slice.subtrees with
    | none => m
    | some root =>
      let keep := match m.finished with
        | none => root
        | some old => if prefersSecond old root then root else old
      { m with finished := some keep, accepted := m.accepted + 1 }) { m with stack := s }
  m.onStack fun s =>
    let s := match slices with
      | first :: _ => s.remove first.version
      | [] => s
    s.halt v

end ScriptWarden.Parsing
