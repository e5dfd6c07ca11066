import ScriptWarden.Proofs.Occurrence

/-!
# The first error of a tree

A text with an error in it is judged by that error alone. A node is broken if it is a missing token
or a passage that the grammar has no place for, and every node says whether something at or below it
is broken. The search for the first broken node goes by that: it passes over what is said to be
whole, and keeps what it has still to look at on a stack.

If what the nodes say is so, nothing that is passed over is broken. The search then finds the first
broken node of all in document order, be it a keyword or a piece of punctuation, and the message
that stands ready in case nothing is found is not used.

## Results

* `searchOn_eq` — the search with a stack is the search by recursion.
* `firstProblem?_eq` — passing over what is whole makes no difference.
* `parsing_fails_closed` — how a tree is judged, with a broken node in it and without.
-/

namespace ScriptWarden

-- ---------------------------------------------------------------------------
-- Broken nodes
-- ---------------------------------------------------------------------------

mutual

/-- All nodes of a tree in document order, a node before its children. -/
def Tree.preorder : Tree → List Tree
  | .node l cs => .node l cs :: Tree.preorderOf cs

/-- All nodes of a list of siblings in document order. -/
def Tree.preorderOf : List Tree → List Tree
  | [] => []
  | c :: rest => Tree.preorder c ++ Tree.preorderOf rest

end

/-- Whether a node is a missing token or a passage without a place. -/
def Tree.isBroken (t : Tree) : Bool := t.label.isMissing || t.label.isError

/-- What is wrong with a broken node; that a token is missing comes first. -/
def Tree.defect (t : Tree) : Problem :=
  if t.label.isMissing then .missing t.line t.kind else .invalidSyntax t.line

/-- Every node of a tree says rightly whether something at or below it is broken. -/
def Tree.MarksErrors (t : Tree) : Prop :=
  ∀ s ∈ t.preorder, s.label.hasError = true ↔ ∃ n ∈ s.preorder, n.isBroken = true

instance (t : Tree) : Decidable t.MarksErrors :=
  inferInstanceAs (Decidable (∀ s ∈ t.preorder, _))

variable {t : Tree}

theorem preorder_eq (t : Tree) : t.preorder = t :: Tree.preorderOf t.children := by
  obtain ⟨l, cs⟩ := t
  rw [Tree.preorder]
  rfl

theorem preorderOf_append (cs ds : List Tree) :
    Tree.preorderOf (cs ++ ds) = Tree.preorderOf cs ++ Tree.preorderOf ds := by
  induction cs with
  | nil => rfl
  | cons c rest ih => rw [List.cons_append, Tree.preorderOf, Tree.preorderOf, ih, List.append_assoc]

theorem preorder_subset_of_mem {c : Tree} {cs : List Tree} (h : c ∈ cs) :
    c.preorder ⊆ Tree.preorderOf cs := by
  induction cs with
  | nil => cases h
  | cons d rest ih =>
    rw [Tree.preorderOf]
    rcases List.mem_cons.mp h with rfl | hLater
    · exact List.subset_append_left _ _
    · exact List.Subset.trans (ih hLater) (List.subset_append_right _ _)

/-- What the nodes of a tree say rightly, those below a child do. -/
theorem Tree.MarksErrors.child {c : Tree} (h : t.MarksErrors) (hChild : c ∈ t.children) :
    c.MarksErrors := by
  intro s hs
  refine h s ?_
  rw [preorder_eq]
  exact List.mem_cons_of_mem _ (preorder_subset_of_mem hChild hs)

theorem Tree.MarksErrors.root (h : t.MarksErrors) :
    t.label.hasError = true ↔ ∃ n ∈ t.preorder, n.isBroken = true :=
  h t (by rw [preorder_eq]; exact List.mem_cons_self)

-- ---------------------------------------------------------------------------
-- The search
-- ---------------------------------------------------------------------------

/-- Search the nodes on a stack, the one on top first: a broken node ends the search, and one that
is said to be whole is passed over with everything below it. -/
def searchOn : List Tree → Option Problem
  | [] => none
  | t :: rest =>
    if t.isBroken then some t.defect
    else if t.label.hasError then searchOn (t.children ++ rest)
    else searchOn rest
termination_by stack => (Tree.preorderOf stack).length
decreasing_by
  all_goals
    rw [Tree.preorderOf, preorder_eq]
    simp only [preorderOf_append, List.length_append, List.length_cons]
    omega

theorem firstProblem?_cases (t : Tree) :
    t.firstProblem? = if t.isBroken then some t.defect
      else if t.label.hasError then Tree.firstProblemOf? t.children else none := by
  obtain ⟨l, cs⟩ := t
  have hBroken : (Tree.node l cs).isBroken = (l.isMissing || l.isError) := rfl
  have hDefect : (Tree.node l cs).defect =
      if l.isMissing then .missing (l.row + 1) l.kind else .invalidSyntax (l.row + 1) := rfl
  rw [Tree.firstProblem?, hBroken, hDefect]
  by_cases hMissing : l.isMissing = true
  · rw [if_pos hMissing, if_pos hMissing, if_pos (by simp [hMissing])]
  by_cases hError : l.isError = true
  · rw [if_neg hMissing, if_neg hMissing, if_pos hError, if_pos (by simp [hError])]
  · have hWhole : ¬ (l.isMissing || l.isError) = true := by simp [hMissing, hError]
    rw [if_neg hMissing, if_neg hError, if_neg hWhole]
    rfl

theorem firstProblemOf?_cons (c : Tree) (rest : List Tree) :
    Tree.firstProblemOf? (c :: rest) = c.firstProblem?.or (Tree.firstProblemOf? rest) := by
  rw [Tree.firstProblemOf?]
  cases c.firstProblem? <;> rfl

theorem firstProblemOf?_append (cs ds : List Tree) :
    Tree.firstProblemOf? (cs ++ ds) =
      (Tree.firstProblemOf? cs).or (Tree.firstProblemOf? ds) := by
  induction cs with
  | nil => rfl
  | cons c rest ih =>
    rw [List.cons_append, firstProblemOf?_cons, firstProblemOf?_cons, ih, Option.or_assoc]

/-- The search with a stack finds what the search by recursion finds. -/
theorem searchOn_eq (stack : List Tree) : searchOn stack = Tree.firstProblemOf? stack := by
  induction stack using searchOn.induct with
  | case1 => rw [searchOn, Tree.firstProblemOf?]
  | case2 t rest hBroken =>
    rw [searchOn, if_pos hBroken, firstProblemOf?_cons, firstProblem?_cases, if_pos hBroken]
    rfl
  | case3 t rest hWhole hError ih =>
    rw [searchOn, if_neg hWhole, if_pos hError, ih, firstProblemOf?_append, firstProblemOf?_cons,
      firstProblem?_cases, if_neg hWhole, if_pos hError]
  | case4 t rest hWhole hClean ih =>
    rw [searchOn, if_neg hWhole, if_neg hClean, ih, firstProblemOf?_cons, firstProblem?_cases,
      if_neg hWhole, if_neg hClean]
    rfl

theorem firstProblemOf?_eq {cs : List Tree} (h : ∀ c ∈ cs,
    c.firstProblem? = (c.preorder.find? Tree.isBroken).map Tree.defect) :
    Tree.firstProblemOf? cs = ((Tree.preorderOf cs).find? Tree.isBroken).map Tree.defect := by
  induction cs with
  | nil => rfl
  | cons c rest ih =>
    rw [firstProblemOf?_cons, Tree.preorderOf, List.find?_append, h c List.mem_cons_self,
      ih fun d hd => h d (List.mem_cons_of_mem _ hd), Option.map_or]

/-- **Passing over what is whole makes no difference.** Where every node says rightly whether
something is broken, the search finds the first broken node of all. -/
theorem firstProblem?_eq (h : t.MarksErrors) :
    t.firstProblem? = (t.preorder.find? Tree.isBroken).map Tree.defect := by
  induction t using Tree.inductionOn with
  | node l cs ih =>
    have hBelow := firstProblemOf?_eq fun c hc => ih c hc (h.child hc)
    rw [firstProblem?_cases]
    by_cases hBroken : (Tree.node l cs).isBroken = true
    · rw [if_pos hBroken, preorder_eq, List.find?_cons_of_pos hBroken]
      rfl
    rw [if_neg hBroken]
    by_cases hError : (Tree.node l cs).label.hasError = true
    · rw [if_pos hError, preorder_eq, List.find?_cons_of_neg hBroken]
      exact hBelow
    · -- nothing below is broken, or the node would say so
      have hNone : (Tree.node l cs).preorder.find? Tree.isBroken = none := by
        rw [List.find?_eq_none]
        exact fun n hn hFound => hError (h.root.mpr ⟨n, hn, hFound⟩)
      rw [if_neg hError, hNone]
      rfl

-- ---------------------------------------------------------------------------
-- Judgement
-- ---------------------------------------------------------------------------

/-- The wording of what is wrong with a node. -/
theorem message_defect (n : Tree) : n.defect.message =
    "Syntax error at line " ++ toString n.line ++
      (if n.label.isMissing then ": missing '" ++ n.kind ++ "'" else ": invalid syntax") := by
  by_cases hMissing : n.label.isMissing = true
  · have hWording : (Problem.missing n.line n.kind).message =
        "Syntax error at line " ++ toString n.line ++ ": missing '" ++ n.kind ++ "'" := rfl
    simp only [Tree.defect, if_pos hMissing, hWording, String.append_assoc]
  · have hWording : (Problem.invalidSyntax n.line).message =
        "Syntax error at line " ++ toString n.line ++ ": invalid syntax" := rfl
    simp only [Tree.defect, if_neg hMissing, hWording]

/-- A tree whose first broken node is known is judged by that node. -/
theorem analyzeTree_of_broken (r : Rules) (h : t.MarksErrors) {n : Tree}
    (hFirst : t.preorder.find? Tree.isBroken = some n) :
    r.analyzeTree t = { problems := [n.defect] } := by
  have hError : t.label.hasError = true :=
    h.root.mpr ⟨n, List.mem_of_find?_eq_some hFirst, List.find?_some hFirst⟩
  rw [Rules.analyzeTree, if_pos hError, firstProblem?_eq h, hFirst]
  rfl

/--
**Parsing fails closed, and with the right position.** Let every node of a tree say rightly whether
something at or below it is broken. If any node is broken, the search with a stack finds the first
broken one in document order, and the analysis is what is wrong with that: one message with its
line, and its kind if it is missing. No sibling is noted, and among whatever scripts the verdict is
invalid, not executable and without missing siblings, for the tree and for every text that it is the
tree of. If no node is broken, no error of syntax is reported.
-/
theorem parsing_fails_closed (r : Rules) (h : t.MarksErrors) :
    ((∃ n ∈ t.preorder, n.isBroken = true) → ∃ before n after,
      t.preorder = before ++ n :: after ∧ (∀ m ∈ before, m.isBroken = false) ∧
        n.isBroken = true ∧ searchOn [t] = some n.defect ∧
        r.analyzeTree t = { problems := [n.defect], siblings := [] } ∧
        n.defect.message = "Syntax error at line " ++ toString n.line ++
          (if n.label.isMissing then ": missing '" ++ n.kind ++ "'" else ": invalid syntax") ∧
        ∀ known,
          (r.analyzeTree t).resolve known =
              { isValid := false, errors := [n.defect.message], missing := [] } ∧
            ((r.analyzeTree t).resolve known).isExecutable = false ∧
            ∀ source scriptName, Tree.ofSource source = some t →
              r.validate source scriptName known = (r.analyzeTree t).resolve known) ∧
    ((∀ n ∈ t.preorder, n.isBroken = false) →
      ∀ problem ∈ (r.analyzeTree t).problems, ∃ f, problem = .violation f) := by
  constructor
  · intro hBroken
    obtain ⟨n, hFirst⟩ := Option.isSome_iff_exists.mp (List.find?_isSome.mpr hBroken)
    obtain ⟨hFound, before, after, hSplit, hBefore⟩ := List.find?_eq_some_iff_append.mp hFirst
    have hAnalysis := analyzeTree_of_broken r h hFirst
    refine ⟨before, n, after, hSplit, by simpa using hBefore, hFound, ?_, hAnalysis,
      message_defect n, fun known => ⟨?_, ?_, fun source scriptName hTree => ?_⟩⟩
    · rw [searchOn_eq, firstProblemOf?_cons, firstProblem?_eq h, hFirst]
      rfl
    · rw [hAnalysis]
      rfl
    · rw [hAnalysis]
      rfl
    · -- a script is no sibling of its own, and here none is noted
      rw [Rules.validate, Rules.analyzeScript, analyze_ofSource hTree, hAnalysis]
      rfl
  · intro hWhole problem hProblem
    have hClean : t.label.hasError = false := by
      rw [← Bool.not_eq_true, h.root]
      rintro ⟨n, hn, hBroken⟩
      simp [hWhole n hn] at hBroken
    rw [analyzeTree_problems hClean] at hProblem
    obtain ⟨f, -, rfl⟩ := List.mem_map.mp hProblem
    exact ⟨f, rfl⟩

/-- `a`, then `f(` with its bracket never closed, then a passage without a place. -/
def unclosedCall : Tree :=
  .node { kind := "module", text := "a\nf(\n!", hasError := true }
    [.node { kind := "expression_statement", text := "a" } [.word "a"],
      .node { kind := "expression_statement", row := 1, text := "f(", hasError := true }
        [.node { kind := "call", row := 1, text := "f(", hasError := true }
          [.node { kind := "identifier", field := some "function", row := 1, text := "f" } [],
            .node
              { kind := "argument_list", field := some "arguments", row := 1, text := "("
                hasError := true }
              [.mark "(",
                .node { kind := ")", named := false, row := 1, isMissing := true, hasError := true }
                  []]]],
      .node { kind := "ERROR", row := 2, text := "!", isError := true, hasError := true } []]

/-- The bracket is reported, though it is no named node and an error comes after it. -/
theorem missing_bracket_reported :
    let r : Rules := ⟨.standard, "/scripts"⟩
    unclosedCall.MarksErrors ∧ (∃ n ∈ unclosedCall.preorder, n.isBroken = true) ∧
      searchOn [unclosedCall] = some (.missing 2 ")") ∧
      r.analyzeTree unclosedCall = { problems := [.missing 2 ")"], siblings := [] } := by
  intro r
  have hMarks : unclosedCall.MarksErrors := by decide +kernel
  have hBroken : ∃ n ∈ unclosedCall.preorder, n.isBroken = true := by decide +kernel
  obtain ⟨before, n, after, -, -, -, hSearch, hAnalysis, -⟩ :=
    (parsing_fails_closed r hMarks).1 hBroken
  have hProblems : (r.analyzeTree unclosedCall).problems = [.missing 2 ")"] := by decide +kernel
  have hDefect : n.defect = .missing 2 ")" := by
    rw [hAnalysis] at hProblems
    simpa using hProblems
  rw [hDefect] at hSearch hAnalysis
  exact ⟨hMarks, hBroken, hSearch, hAnalysis⟩

end ScriptWarden
