/-!
# Grammar rules

The combinators in which a grammar is written down, and the passes that turn a rule into flat
productions: repetition becomes an auxiliary symbol, alternatives are multiplied out, and
precedence, labels and fields settle on the steps they cover.
-/

namespace ScriptWarden.Grammar

/-- Which way a sequence of equal operators groups. -/
inductive Assoc where
  | left
  | right
deriving DecidableEq, Hashable, Repr, Inhabited

/-- The kind under which a child appears when it is not its own, and whether that kind is named. -/
structure Kind where
  name : String
  named : Bool
deriving DecidableEq, Hashable, Repr, Inhabited

/-- A rule of the grammar. -/
inductive Rule where
  /-- A literal token. -/
  | token (text : String)
  /-- A token class that the lexer knows by name. -/
  | lexeme (name : String)
  /-- Another rule. -/
  | ref (name : String)
  | seq (parts : List Rule)
  | oneOf (alternatives : List Rule)
  | many1 (body : Rule)
  | empty
  | prec (level : Option Int) (assoc : Option Assoc) (body : Rule)
  | dynamic (level : Int) (body : Rule)
  | field (name : String) (body : Rule)
  | relabel (kind : Kind) (body : Rule)
deriving BEq, Repr, Inhabited

namespace Rule

/-- A rule that may be absent. -/
def opt (r : Rule) : Rule := .oneOf [r, .empty]

/-- Any number of a rule. -/
def many (r : Rule) : Rule := .oneOf [.many1 r, .empty]

/-- One or more of a rule with a separator between them. -/
def sepBy1 (separator : String) (r : Rule) : Rule :=
  .seq [r, many (.seq [.token separator, r])]

/-- One or more of a rule with commas between them. -/
def commas1 (r : Rule) : Rule := sepBy1 "," r

/-- Show a child under a named kind that is not its own. -/
def shownAs (kind : String) (r : Rule) : Rule := .relabel ⟨kind, true⟩ r

/-- Precedence without associativity. -/
def level (n : Int) (r : Rule) : Rule := .prec (some n) none r

/-- Left-associative precedence. -/
def leftAssoc (n : Int) (r : Rule) : Rule := .prec (some n) (some .left) r

/-- Right-associative precedence. -/
def rightAssoc (n : Int) (r : Rule) : Rule := .prec (some n) (some .right) r

end Rule

-- ---------------------------------------------------------------------------
-- Repetition
-- ---------------------------------------------------------------------------

/-- The auxiliary rules met so far, each with the body that it repeats; equal bodies share one. -/
structure Hoisted where
  owner : String := ""
  count : Nat := 0
  rules : Array (String × Rule) := #[]
deriving Inhabited

/-- The name of the auxiliary rule for a repeated body, introduced if it is new. -/
def Hoisted.intern (body : Rule) : StateM Hoisted String := do
  let h ← get
  match h.rules.find? (fun e => e.2 == body) with
  | some (name, _) => pure name
  | none =>
    let name := h.owner ++ "_repeat" ++ toString (h.count + 1)
    set { h with count := h.count + 1, rules := h.rules.push (name, body) }
    pure name

mutual

/-- Replace every repetition inside a rule by a reference to its auxiliary rule. -/
def Rule.hoist : Rule → StateM Hoisted Rule
  | .token t => pure (.token t)
  | .lexeme n => pure (.lexeme n)
  | .ref n => pure (.ref n)
  | .empty => pure .empty
  | .seq parts => do pure (.seq (← Rule.hoistAll parts))
  | .oneOf parts => do pure (.oneOf (← Rule.hoistAll parts))
  | .many1 body => do
    let inner ← Rule.hoist body
    pure (.ref (← Hoisted.intern inner))
  | .prec n a body => do pure (.prec n a (← Rule.hoist body))
  | .dynamic n body => do pure (.dynamic n (← Rule.hoist body))
  | .field n body => do pure (.field n (← Rule.hoist body))
  | .relabel k body => do pure (.relabel k (← Rule.hoist body))

/-- `Rule.hoist` over a list, from left to right. -/
def Rule.hoistAll : List Rule → StateM Hoisted (List Rule)
  | [] => pure []
  | r :: rest => do
    let r' ← Rule.hoist r
    pure (r' :: (← Rule.hoistAll rest))

end

-- ---------------------------------------------------------------------------
-- Alternatives
-- ---------------------------------------------------------------------------

mutual

/-- The choice-free readings of a rule. -/
def Rule.readings : Rule → List Rule
  | .token t => [.token t]
  | .lexeme n => [.lexeme n]
  | .ref n => [.ref n]
  | .empty => [.empty]
  | .seq parts => (Rule.readingsSeq parts).map .seq
  | .oneOf parts => Rule.readingsAll parts
  | .many1 body => (Rule.readings body).map .many1
  | .prec n a body => (Rule.readings body).map (.prec n a)
  | .dynamic n body => (Rule.readings body).map (.dynamic n)
  | .field n body => (Rule.readings body).map (.field n)
  | .relabel k body => (Rule.readings body).map (.relabel k)

/-- The readings of a sequence: one reading of every part. -/
def Rule.readingsSeq : List Rule → List (List Rule)
  | [] => [[]]
  | r :: rest =>
    (Rule.readings r).flatMap fun first => (Rule.readingsSeq rest).map (first :: ·)

/-- The readings of all alternatives, in order. -/
def Rule.readingsAll : List Rule → List Rule
  | [] => []
  | r :: rest => Rule.readings r ++ Rule.readingsAll rest

end

-- ---------------------------------------------------------------------------
-- Flat productions
-- ---------------------------------------------------------------------------

/-- What a step of a production stands for before symbols are numbered. -/
inductive Mention where
  | token (text : String)
  | lexeme (name : String)
  | ref (name : String)
deriving BEq, DecidableEq, Hashable, Repr, Inhabited

/-- One step of a production: a symbol with the precedence that applies once it is read, and
the kind and field it has in its parent. -/
structure Step (σ : Type) where
  symbol : σ
  prec : Option Int := none
  assoc : Option Assoc := none
  kind : Option Kind := none
  field : Option String := none
deriving BEq, DecidableEq, Hashable, Repr, Inhabited

/-- A flat right-hand side. -/
structure Body (σ : Type) where
  steps : List (Step σ)
  dynamic : Int := 0
deriving BEq, DecidableEq, Repr, Inhabited

/-- The metadata in force at a point of a rule: the innermost of each kind. -/
structure Scope where
  prec : Option Int := none
  assoc : Option Assoc := none
  kind : Option Kind := none
  field : Option String := none
deriving Inhabited

/-- Of two dynamic precedences the one further from zero, the first one on a tie. -/
def strongerDynamic (a b : Int) : Int := if b.natAbs > a.natAbs then b else a

/-- Change the last element of a list. -/
def modifyLast {α : Type} (f : α → α) : List α → List α
  | [] => []
  | [x] => [f x]
  | x :: rest => x :: modifyLast f rest

mutual

/-- The steps of a choice-free rule. A precedence that ends before the production does hands
its last step back to the surrounding one. -/
def Rule.flatten (scope : Scope) (atEnd : Bool) : Rule → Body Mention
  | .token t => ⟨[⟨.token t, scope.prec, scope.assoc, scope.kind, scope.field⟩], 0⟩
  | .lexeme n => ⟨[⟨.lexeme n, scope.prec, scope.assoc, scope.kind, scope.field⟩], 0⟩
  | .ref n => ⟨[⟨.ref n, scope.prec, scope.assoc, scope.kind, scope.field⟩], 0⟩
  | .empty => ⟨[], 0⟩
  | .oneOf _ => ⟨[], 0⟩
  | .many1 _ => ⟨[], 0⟩
  | .seq parts => Rule.flattenSeq scope atEnd parts
  | .prec n a body =>
    let inner := Rule.flatten
      { scope with prec := n <|> scope.prec, assoc := a <|> scope.assoc } atEnd body
    if atEnd then inner
    else
      { inner with steps := inner.steps |> modifyLast fun s =>
          { s with
            prec := if n.isSome then scope.prec else s.prec
            assoc := if a.isSome then scope.assoc else s.assoc } }
  | .dynamic n body =>
    let inner := Rule.flatten scope atEnd body
    { inner with dynamic := strongerDynamic n inner.dynamic }
  | .field n body => Rule.flatten { scope with field := some n } atEnd body
  | .relabel k body => Rule.flatten { scope with kind := some k } atEnd body

/-- `Rule.flatten` over a sequence; only its last part can be at the end. -/
def Rule.flattenSeq (scope : Scope) (atEnd : Bool) : List Rule → Body Mention
  | [] => ⟨[], 0⟩
  | [r] => Rule.flatten scope atEnd r
  | r :: rest =>
    let first := Rule.flatten scope false r
    let others := Rule.flattenSeq scope atEnd rest
    ⟨first.steps ++ others.steps, strongerDynamic first.dynamic others.dynamic⟩

end

/-- The productions of a rule without repetition, without repeats. -/
def Rule.bodies (r : Rule) : List (Body Mention) :=
  (r.readings.map (Rule.flatten {} true)).foldl
    (fun acc b => if acc.contains b then acc else acc ++ [b]) []

end ScriptWarden.Grammar
