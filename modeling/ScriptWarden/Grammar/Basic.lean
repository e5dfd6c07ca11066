import ScriptWarden.Grammar.Rule
import Std.Data.HashMap

/-!
# Grammars

A grammar as it is written (`Source`) and as the automaton reads it (`Grammar`): numbered
symbols, flat productions, first sets, and the items of its productions. Two items count as the
same item when nothing that can still happen tells them apart, so that states meet as early as
they can.
-/

namespace ScriptWarden.Grammar

-- ---------------------------------------------------------------------------
-- Sets of terminals
-- ---------------------------------------------------------------------------

/-- A set of terminals: the number whose bits name its members, so that union is one operation and
equal sets are equal numbers. -/
abbrev TermSet := Nat

namespace TermSet

/-- The set with one member. -/
def singleton (t : Nat) : TermSet := 1 <<< t

/-- The members of either set. -/
def union (a b : TermSet) : TermSet := a ||| b

/-- The members of both sets. -/
def inter (a b : TermSet) : TermSet := a &&& b

/-- Membership. -/
def contains (s : TermSet) (t : Nat) : Bool := Nat.testBit s t

/-- The set of the members of a list. -/
def ofList (ts : List Nat) : TermSet := ts.foldl (fun s t => union s (singleton t)) 0

@[simp] theorem contains_union (a b : TermSet) (t : Nat) :
    contains (union a b) t = (contains a t || contains b t) := by
  simp [contains, union]

@[simp] theorem contains_inter (a b : TermSet) (t : Nat) :
    contains (inter a b) t = (contains a t && contains b t) := by
  simp [contains, inter]

theorem contains_singleton (a t : Nat) : contains (singleton a) t = decide (t = a) := by
  simp [contains, singleton, Nat.one_shiftLeft, Nat.testBit_two_pow, eq_comm]

end TermSet

-- ---------------------------------------------------------------------------
-- A grammar as written
-- ---------------------------------------------------------------------------

/-- A grammar as it is written down. -/
structure Source where
  /-- The rule of a whole text. -/
  start : String
  /-- The rule of words, from which keywords are taken. -/
  word : String
  rules : List (String × Rule)
  /-- Tokens that only the layout scanner produces, in its order. -/
  scanned : List String
  /-- Literals whose validity the layout scanner asks about. -/
  watched : List String
  /-- Tokens that may stand anywhere. -/
  extras : List String
  /-- Rules that leave no node of their own although their names do not begin with `_`. -/
  transparent : List String
  /-- Rules that are replaced by their alternatives wherever they are mentioned. -/
  inlined : List String
  /-- Words that are never read as identifiers. -/
  reserved : List String
deriving Inhabited

-- ---------------------------------------------------------------------------
-- A grammar as read
-- ---------------------------------------------------------------------------

/-- A terminal or nonterminal, as it shows in a tree. -/
structure Label where
  kind : Kind
  visible : Bool
deriving Repr, Inhabited

/-- A numbered production. Symbols below the number of terminals are terminals. -/
structure Production where
  lhs : Nat
  steps : Array (Step Nat)
  dynamic : Int
deriving Inhabited

/-- An item: a production read up to some step, as far as the rest of a parse can tell. -/
structure Item where
  /-- The nonterminal whose production this is. -/
  lhs : Nat
  /-- How many steps are read. -/
  read : Nat
  /-- The symbol that comes next, if the production is not complete. -/
  next : Option Nat
  /-- The item after the next symbol. -/
  succ : Nat
  /-- What can follow the next symbol inside the production; empty if the production ends there. -/
  afterNext : TermSet
  /-- A production of this class. -/
  production : Nat
  /-- The precedence and associativity of the last step read. -/
  prec : Option Int
  assoc : Option Assoc
  dynamic : Int
deriving Inhabited

/-- What predicting a nonterminal predicts in turn: a nonterminal, the terminals that follow it
whatever the context, and whether the context's own follow terminals apply too. -/
structure Prediction where
  lhs : Nat
  fixed : TermSet
  inherits : Bool
deriving Inhabited

/-- A grammar ready for its automaton. -/
structure Grammar where
  /-- How every terminal shows in a tree; terminal 0 is the end of the text. -/
  terminals : Array Label
  /-- The literal or lexeme of every terminal. -/
  spelling : Array Mention
  /-- How every nonterminal shows in a tree. -/
  nonterminals : Array Label
  /-- Nonterminals that stand for a repetition. -/
  auxiliary : Array Bool
  productions : Array Production
  /-- The first terminals of every symbol. -/
  first : Array TermSet
  items : Array Item
  /-- For every nonterminal, what it predicts. -/
  predictions : Array (Array Prediction)
  /-- For every symbol, the productions that begin with it, as predicted nonterminal and item
  after that first step. -/
  beginning : Array (Array (Nat × Nat))
  /-- The nonterminal of a whole text, which has one production. -/
  start : Nat
  /-- The unread items of the start nonterminal. -/
  startItems : Array Nat
  /-- The nonterminals that may be empty, each with its empty item. -/
  emptyItems : Array (Nat × Nat)
  word : Nat
  extras : TermSet
  keywords : TermSet
  reserved : TermSet
  /-- Terminals that the layout scanner produces. -/
  scanned : Array Nat
deriving Inhabited

namespace Grammar

/-- The number of terminals. -/
def terminalCount (g : Grammar) : Nat := g.terminals.size

/-- The first terminals of a symbol. -/
def firstOf (g : Grammar) (s : Nat) : TermSet := g.first.getD s 0

/-- The item with a number. -/
def item (g : Grammar) (i : Nat) : Item := g.items.getD i default

end Grammar

-- ---------------------------------------------------------------------------
-- Numbering
-- ---------------------------------------------------------------------------

mutual

/-- The tokens that a rule mentions, in order. -/
def Rule.tokens : Rule → List Mention
  | .token t => [.token t]
  | .lexeme n => [.lexeme n]
  | .ref _ => []
  | .empty => []
  | .seq parts => Rule.tokensAll parts
  | .oneOf parts => Rule.tokensAll parts
  | .many1 body => Rule.tokens body
  | .prec _ _ body => Rule.tokens body
  | .dynamic _ body => Rule.tokens body
  | .field _ body => Rule.tokens body
  | .relabel _ body => Rule.tokens body

/-- The tokens that the rules of a list mention, in order. -/
def Rule.tokensAll : List Rule → List Mention
  | [] => []
  | r :: rest => Rule.tokens r ++ Rule.tokensAll rest

end

/-- The token that a rule gives its name to: a lexeme, or a literal that no other rule mentions. -/
def Rule.namedToken? (mentioned : List Mention) : Rule → Option Mention
  | .lexeme n => some (.lexeme n)
  | .token t => if mentioned.count (.token t) == 1 then some (.token t) else none
  | _ => none

/-- The rules after repetition is moved into auxiliary rules, and the auxiliary rules. Each
auxiliary rule is one body or two of itself. -/
def Source.hoisted (s : Source) : List (String × Rule) × List (String × Rule) :=
  let step := fun (acc : List (String × Rule) × Hoisted) (entry : String × Rule) =>
    let h := { acc.2 with owner := entry.1, count := 0 }
    let (r, h) := (Rule.hoist entry.2).run h
    (acc.1 ++ [(entry.1, r)], h)
  let (rules, h) := s.rules.foldl step ([], {})
  (rules, h.rules.toList.map fun (name, body) =>
    (name, .oneOf [.seq [.ref name, .ref name], body]))

/-- The tokens that the rules mention, in order. -/
def Source.mentioned (s : Source) : List Mention := s.rules.flatMap fun (_, r) => r.tokens

/-- The tokens in order of first mention, the word token first. -/
def Source.tokenOrder (s : Source) : List Mention :=
  ((Mention.lexeme s.word) :: s.mentioned).foldl (fun acc m => if acc.contains m then acc else acc ++ [m]) []

/-- Replace the first step that stands for an inlined rule by each body of that rule. The fuel is
the number of steps that may be replaced one after another. -/
def inlineBodies (bodies : Std.HashMap String (List (Body Mention))) :
    Nat → List (Step Mention) → Body Mention → List (Body Mention)
  | 0, before, b => [{ b with steps := before.reverse ++ b.steps }]
  | fuel + 1, before, b =>
    match b.steps with
    | [] => [{ b with steps := before.reverse }]
    | s :: rest =>
      let named : Option (List (Body Mention)) := match s.symbol with
        | .ref name => bodies[name]?
        | _ => none
      match named with
      | none => inlineBodies bodies fuel (s :: before) { b with steps := rest }
      | some inner => inner.flatMap fun i =>
        let relabelled := i.steps.map fun t =>
          { t with kind := s.kind <|> t.kind, field := s.field <|> t.field }
        let steps := modifyLast (fun t =>
          { t with prec := t.prec <|> s.prec, assoc := t.assoc <|> s.assoc }) relabelled
        inlineBodies bodies fuel before ⟨steps ++ rest, strongerDynamic b.dynamic i.dynamic⟩

-- ---------------------------------------------------------------------------
-- First sets, predictions, items
-- ---------------------------------------------------------------------------

/-- Apply a step up to a number of times, until it changes nothing. -/
def untilStable {α : Type} [BEq α] (f : α → α) : Nat → α → α
  | 0, x => x
  | fuel + 1, x =>
    let y := f x
    if y == x then x else untilStable f fuel y

/-- The first terminals of all symbols: a terminal begins with itself, a nonterminal with what its
productions begin with. -/
def firstSets (terminalCount nonterminalCount : Nat) (productions : Array Production) :
    Array TermSet :=
  let base := (Array.range (terminalCount + nonterminalCount)).map fun s =>
    if s < terminalCount then TermSet.singleton s else 0
  let step := fun (sets : Array TermSet) =>
    productions.foldl (fun sets p =>
      match p.steps[0]? with
      | none => sets
      | some s => sets.modify (terminalCount + p.lhs) (TermSet.union · (sets.getD s.symbol 0)))
      sets
  untilStable step (nonterminalCount + 1) base

/-- What each nonterminal predicts, itself included, closed under prediction. -/
def predictionsOf (terminalCount nonterminalCount : Nat) (productions : Array Production)
    (first : Array TermSet) : Array (Array Prediction) :=
  -- the direct predictions of each nonterminal
  let direct := productions.foldl (fun (acc : Array (List (Nat × Option TermSet))) p =>
    match p.steps[0]? with
    | none => acc
    | some s =>
      if s.symbol < terminalCount then acc
      else acc.modify p.lhs fun l =>
        let e := (s.symbol - terminalCount, (p.steps[1]?).map fun t => first.getD t.symbol 0)
        if l.contains e then l else e :: l) (Array.replicate nonterminalCount [])
  (Array.range nonterminalCount).map fun b =>
    let start : Array (TermSet × Bool × Bool) :=
      (Array.replicate nonterminalCount (0, false, false)).set! b (0, true, true)
    let step := fun (state : Array (TermSet × Bool × Bool)) =>
      (Array.range nonterminalCount).foldl (fun state m =>
        let (fixed, inherits, present) := state.getD m default
        if present then
          (direct.getD m []).foldl (fun state (x, after) =>
            state.modify x fun (f, i, _) =>
              match after with
              | some follow => (TermSet.union f follow, i, true)
              | none => (TermSet.union f fixed, i || inherits, true)) state
        else state) state
    let final := untilStable step (nonterminalCount + 1) start
    (Array.range nonterminalCount).foldl (fun acc m =>
      let (fixed, inherits, present) := final.getD m default
      if present then acc.push ⟨m, fixed, inherits⟩ else acc) #[]

/-- What tells two items apart: the nonterminal, the number of steps read with their kinds and
fields, the precedence reached, and all that is still to come. -/
structure ItemKey where
  read : Nat
  lhs : Nat
  dynamic : Int
  size : Nat
  prec : Option Int
  assoc : Option Assoc
  past : List (Option Kind × Option String)
  future : List (Step Nat)
deriving BEq, Hashable, Inhabited

/-- The key of a production read up to a step. -/
def Production.key (p : Production) (read : Nat) : ItemKey :=
  let last := if read = 0 then none else p.steps[read - 1]?
  { read := read
    lhs := p.lhs
    dynamic := p.dynamic
    size := p.steps.size
    prec := last.bind (·.prec)
    assoc := last.bind (·.assoc)
    past := (p.steps.toList.take read).map fun s => (s.kind, s.field)
    future := p.steps.toList.drop read }

/-- An absent precedence comes before every number, and left before right. -/
def ItemKey.rank (k : ItemKey) : List Int :=
  let precRank : List Int := match k.prec with
    | none => [0, 0]
    | some n => [1, n]
  let assocRank : Int := match k.assoc with
    | none => 0
    | some .left => 1
    | some .right => 2
  [(k.read : Int), (k.lhs : Int), k.dynamic, (k.size : Int)] ++ precRank ++ [assocRank]

/-- Lexicographic order on ranks. -/
def rankLE : List Int → List Int → Bool
  | [], _ => true
  | _ :: _, [] => false
  | a :: as, b :: bs => if a < b then true else if b < a then false else rankLE as bs

/-- The items of a list of productions, and the number of each. -/
def itemsOf (productions : Array Production) (first : Array TermSet) :
    Array Item × Std.HashMap ItemKey Nat :=
  let keys : List (ItemKey × Nat) := (productions.toList.zipIdx).flatMap fun (p, i) =>
    (List.range (p.steps.size + 1)).map fun d => (p.key d, i)
  let distinct := keys.foldl (fun (acc : Std.HashMap ItemKey Nat × Array (ItemKey × Nat)) e =>
    if acc.1.contains e.1 then acc else (acc.1.insert e.1 0, acc.2.push e)) ({}, #[])
  let sorted := (distinct.2.toList.map fun e => (e.1.rank, e)).mergeSort
    (fun a b => rankLE a.1 b.1)
  let number : Std.HashMap ItemKey Nat := (sorted.zipIdx).foldl
    (fun m (e, i) => m.insert e.2.1 i) {}
  let items := sorted.toArray.map fun (_, key, i) =>
    let p := productions.getD i default
    let next := (p.steps[key.read]?).map (·.symbol)
    { lhs := key.lhs
      read := key.read
      next := next
      succ := if next.isSome then number.getD (p.key (key.read + 1)) 0 else 0
      afterNext := ((p.steps[key.read + 1]?).map fun s => first.getD s.symbol 0).getD 0
      production := i
      prec := key.prec
      assoc := key.assoc
      dynamic := key.dynamic : Item }
  (items, number)

-- ---------------------------------------------------------------------------
-- Building
-- ---------------------------------------------------------------------------

/-- A name that leaves no node. -/
def isHiddenName (name : String) : Bool := name.startsWith "_"

/-- Whether a literal is spelled like a word. -/
def isWordLike (text : String) : Bool :=
  match text.toList with
  | [] => false
  | c :: rest => (c.isAlpha || c == '_') && rest.all fun c => c.isAlphanum || c == '_'

/-- The grammar of a source. -/
def Source.build (s : Source) : Grammar :=
  let (rules, auxiliary) := s.hoisted
  let mentioned := s.mentioned
  let namedTokens := rules.filterMap fun (name, r) =>
    (r.namedToken? mentioned).map fun m => (m, name)
  let tokens := s.tokenOrder
  -- terminals: the end, the lexer's tokens, the scanner's tokens
  let terminalOf : Mention → Label := fun m =>
    match namedTokens.find? (·.1 == m) with
    | some (_, name) => ⟨⟨name, true⟩, !isHiddenName name⟩
    | none =>
      match m with
      | .token t => ⟨⟨t, false⟩, true⟩
      | .lexeme l => ⟨⟨l, false⟩, false⟩
      | .ref n => ⟨⟨n, true⟩, !isHiddenName n⟩
  let scannedMentions := s.scanned.map Mention.ref
  let spelling : Array Mention := #[.ref "end"] ++ tokens.toArray ++ scannedMentions.toArray
  let terminals : Array Label := #[⟨⟨"end", false⟩, false⟩] ++
    (tokens ++ scannedMentions).toArray.map terminalOf
  let tc := terminals.size
  let terminalNumber : Std.HashMap Mention Nat :=
    spelling.toList.zipIdx.foldl (fun m (x, i) => m.insert x i) {}
  -- nonterminals: the rules that are no lexemes and not inlined, then the auxiliary ones
  let kept := rules.filter fun (name, _) =>
    !(namedTokens.any fun e => e.2 == name) && !s.inlined.contains name
  let whole : String × Rule := ("_whole", .ref s.start)
  let names := (kept ++ auxiliary ++ [whole]).map (·.1)
  let nonterminalNumber : Std.HashMap String Nat :=
    names.zipIdx.foldl (fun m (x, i) => m.insert x i) {}
  let nc := names.length
  let nonterminals : Array Label := names.toArray.map fun n =>
    ⟨⟨n, true⟩, !isHiddenName n && !s.transparent.contains n &&
      !(auxiliary.any fun a => a.1 == n)⟩
  let numberOf : Mention → Nat := fun m => match m with
    | .ref n =>
      match nonterminalNumber[n]? with
      | some i => tc + i
      | none =>
        match namedTokens.find? (·.2 == n) with
        | some (m, _) => terminalNumber.getD m 0
        | none => terminalNumber.getD (.ref n) 0
    | other => terminalNumber.getD other 0
  -- productions
  let inlineTable : Std.HashMap String (List (Body Mention)) :=
    (rules.filter fun (name, _) => s.inlined.contains name).foldl
      (fun m (name, r) => m.insert name r.bodies) {}
  let productions : Array Production := ((kept ++ auxiliary ++ [whole]).zipIdx).foldl (fun acc ((_, r), i) =>
    let bodies := r.bodies.flatMap (inlineBodies inlineTable 64 [])
    bodies.foldl (fun acc b => acc.push
      { lhs := i
        dynamic := b.dynamic
        steps := b.steps.toArray.map fun t =>
          { symbol := numberOf t.symbol, prec := t.prec, assoc := t.assoc, kind := t.kind,
            field := t.field } }) acc) #[]
  let first := firstSets tc nc productions
  let (items, itemNumber) := itemsOf productions first
  let beginning := productions.foldl (fun (acc : Array (Array (Nat × Nat))) p =>
    match p.steps[0]? with
    | none => acc
    | some s =>
      let e := (p.lhs, itemNumber.getD (p.key 1) 0)
      acc.modify s.symbol fun l => if l.contains e then l else l.push e)
    (Array.replicate (tc + nc) #[])
  let start := nonterminalNumber.getD whole.1 0
  let literal := fun t => terminalNumber.getD (.token t) 0
  let keywords := tokens.filterMap fun m => match m with
    | .token t => if isWordLike t then some (literal t) else none
    | _ => none
  { terminals := terminals
    spelling := spelling
    nonterminals := nonterminals
    auxiliary := names.toArray.map fun n => auxiliary.any fun a => a.1 == n
    productions := productions
    first := first
    items := items
    predictions := predictionsOf tc nc productions first
    beginning := beginning
    start := start
    startItems := productions.foldl
      (fun acc p => if p.lhs == start then acc.push (itemNumber.getD (p.key 0) 0) else acc) #[]
    emptyItems := productions.foldl
      (fun acc p =>
        if p.steps.isEmpty then acc.push (p.lhs, itemNumber.getD (p.key 0) 0) else acc) #[]
    word := numberOf (.ref s.word)
    extras := TermSet.ofList (s.extras.map fun e => numberOf (.ref e))
    keywords := TermSet.ofList keywords
    reserved := TermSet.ofList (s.reserved.map literal)
    scanned := (s.scanned.map fun n => terminalNumber.getD (.ref n) 0).toArray ++
      (s.watched.map fun t => literal t).toArray }

end ScriptWarden.Grammar
