import ScriptWarden.Proofs.Grammar.ShownKinds
import ScriptWarden.Proofs.Occurrence

/-!
# Shown names

The walk of the checks passes over unnamed nodes, which are punctuation and keywords. It misses no
name by that: the kinds under which a tree shows its nodes come from the rules, literals and
lexemes of the grammar, and of these only rules and named kinds are called as a name is.

## Results

* `expose_showsNames` — what is shown of a subtree, when the grammar keeps names apart.
* `ofSource_showsNames` — in the tree of a text every name is a named node.
-/

namespace ScriptWarden

open ScriptWarden.Grammar ScriptWarden.Parsing

-- ---------------------------------------------------------------------------
-- Trees whose names are named nodes
-- ---------------------------------------------------------------------------

/-- Whether a kind that is that of a name is a named one. -/
def Grammar.Kind.keepsNames (k : Kind) : Bool := !isNameKind k.name || k.named

mutual

/-- Whether every name in a tree is a named node. -/
def Tree.showsNames : Tree → Bool
  | .node l cs => (⟨l.kind, l.named⟩ : Kind).keepsNames && Tree.showsNamesOfAll cs

/-- `Tree.showsNames` over a list. -/
def Tree.showsNamesOfAll : List Tree → Bool
  | [] => true
  | c :: rest => Tree.showsNames c && Tree.showsNamesOfAll rest

end

theorem showsNamesOfAll_iff {cs : List Tree} :
    Tree.showsNamesOfAll cs = true ↔ ∀ c ∈ cs, c.showsNames = true := by
  induction cs with
  | nil => simp [Tree.showsNamesOfAll]
  | cons c rest ih => rw [Tree.showsNamesOfAll, Bool.and_eq_true, ih, List.forall_mem_cons]

theorem showsNames_node_iff {l : NodeLabel} {cs : List Tree} :
    (Tree.node l cs).showsNames = true ↔
      (⟨l.kind, l.named⟩ : Kind).keepsNames = true ∧ ∀ c ∈ cs, c.showsNames = true := by
  rw [Tree.showsNames, Bool.and_eq_true, showsNamesOfAll_iff]

theorem showsNames_child {t c : Tree} (h : t.showsNames = true) (hMem : c ∈ t.children) :
    c.showsNames = true := by
  obtain ⟨l, cs⟩ := t
  exact (showsNames_node_iff.mp h).2 c hMem

theorem showsNames_of_occurs {t : Tree} (h : t.showsNames = true) {p : Place}
    (hOccurs : t.Occurs p) : p.node.showsNames = true := by
  induction hOccurs with
  | root => exact h
  | child _ hAt _ ih => exact showsNames_child ih (List.mem_of_getElem? hAt)

theorem named_of_showsNames {t : Tree} (h : t.showsNames = true)
    (hName : isNameKind t.kind = true) : t.label.named = true := by
  obtain ⟨l, cs⟩ := t
  have hKind : isNameKind l.kind = true := hName
  have hKeeps := (showsNames_node_iff.mp h).1
  rwa [Kind.keepsNames, hKind, Bool.not_true, Bool.false_or] at hKeeps

-- ---------------------------------------------------------------------------
-- What is shown of a subtree
-- ---------------------------------------------------------------------------

/-- A grammar keeps names apart: whatever is called as a name is shows as a named node. -/
structure KeepsNames (g : Grammar) : Prop where
  terminals : ∀ l ∈ g.terminals, l.kind.keepsNames = true
  nonterminals : ∀ l ∈ g.nonterminals, l.kind.keepsNames = true
  steps : ∀ p ∈ g.productions, StepsShow (·.keepsNames = true) p.steps.toList

theorem labelOf_keepsNames {g : Grammar} (h : KeepsNames g) (symbol : Nat) :
    (labelOf g symbol).kind.keepsNames = true := by
  have hEntry : ∀ (labels : Array Label) (i : Nat), (∀ l ∈ labels, l.kind.keepsNames = true) →
      (labels.getD i default).kind.keepsNames = true := by
    intro labels i hLabels
    rw [Array.getD_eq_getD_getElem?]
    cases hAt : labels[i]? with
    | none => decide
    | some l => exact hLabels l (Array.mem_of_getElem? hAt)
  rw [labelOf]
  split
  · decide
  split
  · decide
  split
  · exact hEntry g.terminals symbol h.terminals
  · exact hEntry g.nonterminals _ h.nonterminals

theorem stepsOf_keepsNames {g : Grammar} (h : KeepsNames g) (production : Option Nat) :
    StepsShow (·.keepsNames = true) (stepsOf g production) := by
  have hNone : StepsShow (·.keepsNames = true) ([] : List (Step Nat)) := List.forall_mem_nil _
  cases production with
  | none => exact hNone
  | some n =>
    rw [stepsOf]
    cases hAt : g.productions[n]? with
    | none => exact hNone
    | some p => exact h.steps p (Array.mem_of_getElem? hAt)

theorem fillField_showsNames {field : Option String} {t : Tree} (h : t.showsNames = true) :
    (t.fillField field).showsNames = true := by
  obtain ⟨l, cs⟩ := t
  exact h

/-- The kind that a node is shown under keeps names apart, be it its own or given by the parent. -/
theorem shownKind_keepsNames {kind : Option Kind} {own : Kind} (hOwn : own.keepsNames = true)
    (hKind : ∀ k, kind = some k → k.keepsNames = true) :
    (kind.getD own).keepsNames = true := by
  cases kind with
  | none => exact hOwn
  | some k => exact hKind k rfl

mutual

theorem expose_showsNames {g : Grammar} (h : KeepsNames g) (text : Array Char) :
    ∀ (t : Subtree) (kind : Option Kind) (field : Option String),
      (∀ k, kind = some k → k.keepsNames = true) →
      ∀ n ∈ expose g text kind field t, n.showsNames = true
  | .leaf l, kind, field, hKind => by
    rw [expose]
    simp only
    split
    · rw [List.forall_mem_singleton, showsNames_node_iff]
      exact ⟨shownKind_keepsNames (labelOf_keepsNames h l.symbol) hKind, List.forall_mem_nil _⟩
    · exact List.forall_mem_nil _
  | .node info children, kind, field, hKind => by
    have hBelow := exposeAll_showsNames h text children (stepsOf g info.production)
      (stepsOf_keepsNames h info.production)
    rw [expose]
    simp only
    split
    · rw [List.forall_mem_singleton, showsNames_node_iff]
      exact ⟨shownKind_keepsNames (labelOf_keepsNames h info.symbol) hKind, hBelow⟩
    · -- a node that leaves nothing of its own passes its field on
      rw [List.forall_mem_map]
      exact fun n hMem => fillField_showsNames (hBelow n hMem)

theorem exposeAll_showsNames {g : Grammar} (h : KeepsNames g) (text : Array Char) :
    ∀ (cs : List Subtree) (steps : List (Step Nat)), StepsShow (·.keepsNames = true) steps →
      ∀ n ∈ exposeAll g text steps cs, n.showsNames = true
  | [], _, _ => by simp [exposeAll]
  | c :: rest, steps, hSteps => by
    rw [exposeAll]
    split
    · rw [List.forall_mem_append]
      exact ⟨expose_showsNames h text c none none (by simp),
        exposeAll_showsNames h text rest steps hSteps⟩
    · have hKind : ∀ k, steps.head?.bind (·.kind) = some k → k.keepsNames = true := by
        intro k hShown
        obtain ⟨s, hFirst, hHere⟩ := Option.bind_eq_some_iff.mp hShown
        exact hSteps s (List.mem_of_head? hFirst) k hHere
      rw [List.forall_mem_append]
      exact ⟨expose_showsNames h text c _ _ hKind,
        exposeAll_showsNames h text rest (steps.drop 1)
          fun s hMem => hSteps s (List.mem_of_mem_drop hMem)⟩

end

-- ---------------------------------------------------------------------------
-- The grammar of guest scripts
-- ---------------------------------------------------------------------------

/-- Whether a literal or lexeme of a source is called as a name only if a rule gives it that name. -/
def keepsMention (rules : List (String × Rule)) : Mention → Bool
  | .token t => !isNameKind t
  | .lexeme n => !isNameKind n || rules.any fun e =>
      match e.2 with
      | .lexeme n' => n' == n
      | _ => false
  | .ref _ => true

theorem build_keepsNames {s : Source} (hKinds : s.Shows (·.keepsNames = true))
    (hMentions : ∀ m ∈ .lexeme s.word :: s.mentioned, keepsMention s.rules m = true) :
    KeepsNames s.build where
  terminals := by
    intro l hMem
    rw [Kind.keepsNames, Bool.or_eq_true, Bool.not_eq_true']
    rcases build_terminals_named s l hMem with hNamed | hEnd | hToken | ⟨hLexeme, hRules⟩
    · exact Or.inr hNamed
    · exact Or.inl (by rw [hEnd]; decide)
    · have hKeeps := hMentions _ (List.mem_cons_of_mem _ hToken)
      exact Or.inl (by simpa [keepsMention] using hKeeps)
    · have hKeeps := hMentions _ hLexeme
      rw [keepsMention, Bool.or_eq_true, Bool.not_eq_true', List.any_eq_true] at hKeeps
      rcases hKeeps with hOther | ⟨⟨name, rule⟩, hRule, hSame⟩
      · exact Or.inl hOther
      · split at hSame
        · next n' hHere =>
          obtain rfl : n' = l.kind.name := by simpa using hSame
          obtain rfl : rule = .lexeme l.kind.name := hHere
          exact absurd hRule (hRules name)
        · cases hSame
  nonterminals := by
    intro l hMem
    rw [Kind.keepsNames, build_nonterminals_named s l hMem, Bool.or_true]
  steps := build_productions_show hKinds

theorem python_keepsNames : KeepsNames Python.grammar := by
  apply build_keepsNames
  · show ∀ e ∈ Python.source.rules, ∀ k ∈ e.2.kinds, k.keepsNames = true
    decide +kernel
  · decide +kernel

/-- **Names in texts are named nodes.** -/
theorem ofSource_showsNames {source : String} {t : Tree} (hTree : Tree.ofSource source = some t) :
    t.showsNames = true := by
  delta Tree.ofSource at hTree
  obtain ⟨subtree, -, hShown⟩ := Option.bind_eq_some_iff.mp hTree
  have hKeeps : KeepsNames python.grammar := python_keepsNames
  exact expose_showsNames hKeeps _ subtree none none (by simp) t (List.mem_of_head? hShown)

end ScriptWarden
