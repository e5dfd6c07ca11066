import ScriptWarden.Grammar.Basic

/-!
# The automaton of a grammar

A state is what has been read of the productions that may be under way, each with the terminals
that may follow it. States are not numbered: a state is computed from the one before it, so the
automaton is as large as the text at hand needs. `State.actions` says what may be done on a
terminal once precedence and associativity have been applied; more than one action remains where
the grammar is ambiguous on purpose.
-/

namespace ScriptWarden.Grammar

/-- A state of the automaton. -/
structure State where
  /-- The items under way with what may follow them, in increasing order of item. -/
  kernel : List (Nat × TermSet)
  /-- What may follow each nonterminal that may begin here; 0 for those that may not. -/
  predicted : Array TermSet
  /-- The terminals that may come next. -/
  valid : TermSet
  /-- A digest of the kernel. -/
  digest : UInt64
deriving Inhabited

/-- States are equal when their kernels are: the rest is computed from the kernel. -/
instance : BEq State where
  beq a b := a.digest == b.digest && a.kernel == b.kernel

/-- Put an item into a kernel, joining what may follow if it is there already. -/
def insertItem (i : Nat) (follow : TermSet) : List (Nat × TermSet) → List (Nat × TermSet)
  | [] => [(i, follow)]
  | (j, f) :: rest =>
    if i < j then (i, follow) :: (j, f) :: rest
    else if i = j then (j, TermSet.union f follow) :: rest
    else (j, f) :: insertItem i follow rest

/-- A digest of a kernel. -/
def digestOf (kernel : List (Nat × TermSet)) : UInt64 :=
  kernel.foldl (fun h (i, f) => mixHash h (mixHash (hash i) (hash f))) 7

/-- The state with a given kernel. -/
def State.ofKernel (g : Grammar) (kernel : List (Nat × TermSet)) : State :=
  let tc := g.terminalCount
  let start : Array TermSet × TermSet := (Array.replicate g.nonterminals.size 0, 0)
  let (predicted, valid) := kernel.foldl (fun (acc : Array TermSet × TermSet) (i, follow) =>
    let item := g.item i
    match item.next with
    | none => (acc.1, TermSet.union acc.2 follow)
    | some s =>
      let valid := TermSet.union acc.2 (g.firstOf s)
      if s < tc then (acc.1, valid)
      else
        let context := if item.afterNext = 0 then follow else item.afterNext
        let predicted := (g.predictions.getD (s - tc) #[]).foldl (fun predicted p =>
          predicted.modify p.lhs fun f =>
            TermSet.union (TermSet.union f p.fixed) (if p.inherits then context else 0)) acc.1
        (predicted, valid)) start
  let valid := g.emptyItems.foldl
    (fun valid (m, _) => TermSet.union valid (predicted.getD m 0)) valid
  { kernel := kernel, predicted := predicted, valid := valid, digest := digestOf kernel }

/-- The state at the beginning of a text. -/
def State.start (g : Grammar) : State :=
  State.ofKernel g (g.startItems.foldl (fun k i => insertItem i (TermSet.singleton 0) k) [])

/-- The kernel after a symbol. -/
def State.kernelAfter (g : Grammar) (s : State) (symbol : Nat) : List (Nat × TermSet) :=
  let fromKernel := s.kernel.foldl (fun k (i, follow) =>
    let item := g.item i
    if item.next == some symbol then insertItem item.succ follow k else k) []
  (g.beginning.getD symbol #[]).foldl (fun k (m, i) =>
    let follow := s.predicted.getD m 0
    if follow = 0 then k else insertItem i follow k) fromKernel

/-- The state after a symbol, if the symbol may come next. -/
def State.goto (g : Grammar) (s : State) (symbol : Nat) : Option State :=
  match s.kernelAfter g symbol with
  | [] => none
  | kernel => some (State.ofKernel g kernel)

-- ---------------------------------------------------------------------------
-- Actions
-- ---------------------------------------------------------------------------

/-- Replacing the last steps of a production by its nonterminal. -/
structure Reduction where
  lhs : Nat
  count : Nat
  dynamic : Int
  production : Nat
deriving DecidableEq, Inhabited

/-- What may be done on a terminal. -/
inductive Action where
  /-- Read the terminal. A repeated shift is one that a reduction of a repetition makes
  superfluous: it says that the terminal fits, and is never carried out. -/
  | shift (target : State) (repeated : Bool)
  /-- Read the terminal without leaving the state. -/
  | skip
  | reduce (r : Reduction)
  | accept
deriving Inhabited

/-- Precedence levels compare as numbers, and no level is level 0. -/
def compareLevels (a b : Option Int) : Ordering := compare (a.getD 0) (b.getD 0)

/-- The completed items that a terminal may follow, in order. -/
def State.completed (g : Grammar) (s : State) (t : Nat) : List Item :=
  let fromKernel := s.kernel.filterMap fun (i, follow) =>
    let item := g.item i
    if item.next.isNone && TermSet.contains follow t then some item else none
  let empty := g.emptyItems.toList.filterMap fun (m, i) =>
    if TermSet.contains (s.predicted.getD m 0) t then some (g.item i) else none
  empty ++ fromKernel

/-- Of several completed items those of the highest precedence. -/
def strongest : List Item → List Item
  | items => items.foldl (fun kept item =>
    match kept with
    | [] => [item]
    | first :: _ =>
      match compareLevels item.prec first.prec with
      | .gt => [item]
      | .eq => kept ++ [item]
      | .lt => kept) []

/-- The items under way that a terminal carries on. -/
def State.carriedOn (g : Grammar) (s : State) (t : Nat) : List Item :=
  s.kernel.filterMap fun (i, _) =>
    let item := g.item i
    match item.next with
    | some symbol =>
      if 0 < item.read && TermSet.contains (g.firstOf symbol) t then some item else none
    | none => none

/-- The action of a completed item. -/
def Grammar.reduceAction (g : Grammar) (item : Item) : Action :=
  if item.lhs == g.start then .accept
  else .reduce ⟨item.lhs, item.read, item.dynamic, item.production⟩

/-- What the automaton does between reading a terminal and completing an item. -/
inductive Preference where
  | shift
  | reduce
  | both
deriving DecidableEq

/-- Which of reading on and completing an item binds more tightly. Equal levels are decided by
associativity, if all completed items agree on it. -/
def preference (carried completed : List Item) : Preference :=
  let level := (completed.head?.bind (·.prec))
  let compared := carried.map fun item => compareLevels item.prec level
  let more := compared.contains .gt
  let less := compared.contains .lt
  if more && !less then .shift
  else if less && !more then .reduce
  else if more && less then .both
  else if completed.all (·.assoc == some .left) then .reduce
  else if completed.all (·.assoc == some .right) then .shift
  else .both

/-- The actions on a terminal: completions first, in order, then reading it. -/
def State.actions (g : Grammar) (s : State) (t : Nat) : List Action :=
  let completed := s.completed g t
  let best := strongest completed
  match best, s.goto g t with
  | [], none => if TermSet.contains g.extras t then [.skip] else []
  | _, none => best.map g.reduceAction
  | [], some target => [.shift target false]
  | _, some target =>
    let carried := s.carriedOn g t
    let involved := carried ++ completed
    let owner := (involved.head?.map (·.lhs)).getD 0
    if g.auxiliary.getD owner false && involved.all (·.lhs == owner) then
      best.map g.reduceAction ++ [.shift target true]
    else
      match preference carried best with
      | .shift => [.shift target false]
      | .reduce => best.map g.reduceAction
      | .both => best.map g.reduceAction ++ [.shift target false]

end ScriptWarden.Grammar
