import ScriptWarden.Proofs.Occurrence

/-!
# Stricter rules

Rules are stricter than others when they block at least as much, make at most the same exceptions
for modules, and let file operations touch at most the same paths. Blocking more can change what is
reported: a module that is blocked as a whole is reported once, and no longer name by name. It
never takes a report away without making another at the same node, because no check passes a node
over on account of what was found elsewhere. So the law is proved node by node, and the walk, which
is the same under all rules, carries it to trees and texts.

## Results

* `Rules.Stricter.of_entries` — lists of entries that include others make rules stricter.
* `Rules.Stricter.finding_stays` — a line that is reported stays reported.
* `stricter_rules_accept_less` — whatever stricter rules accept, the others accept too.
-/

namespace ScriptWarden

/-- Rules that block at least what others block, allow at most the modules that those allow, and
let file operations touch no path that those do not. -/
structure Rules.Stricter (strict lax : Rules) : Prop where
  blocked : ∀ m, lax.policy.blockedModules.any (isAtOrBelow m) = true →
    strict.policy.blockedModules.any (isAtOrBelow m) = true
  allowed : ∀ m, strict.policy.allowedModules.any (isAtOrBelow m) = true →
    lax.policy.allowedModules.any (isAtOrBelow m) = true
  builtins : lax.policy.blockedBuiltins ⊆ strict.policy.blockedBuiltins
  functions : lax.policy.blockedFunctions ⊆ strict.policy.blockedFunctions
  attributes : lax.policy.suspiciousAttributes ⊆ strict.policy.suspiciousAttributes
  paths : ∀ path, strict.allowsPath path = true → lax.allowsPath path = true

-- ---------------------------------------------------------------------------
-- Rules by their entries
-- ---------------------------------------------------------------------------

/-- Lying at or below a directory is transitive. The root that says nothing, which everything lies
below, is below no other. -/
theorem ResolvedPath.isWithin_trans {path middle root : ResolvedPath}
    (hMiddle : path.isWithin middle = true) (hRoot : middle.isWithin root = true) :
    path.isWithin root = true := by
  simp only [ResolvedPath.isWithin, Bool.and_eq_true, Bool.or_eq_true, beq_iff_eq,
    Bool.not_eq_true', List.isEmpty_iff, List.isPrefixOf_iff_prefix] at *
  obtain ⟨hSide, hBelow⟩ := hMiddle
  obtain ⟨hSide', hAbove⟩ := hRoot
  refine ⟨?_, hAbove.trans hBelow⟩
  rcases hSide' with hSame | hNothing
  · rcases hSide with hSide | ⟨hRelative, hEmpty⟩
    · exact Or.inl (hSame.trans hSide)
    · rw [hEmpty] at hAbove
      exact Or.inr ⟨hSame.trans hRelative, List.prefix_nil.mp hAbove⟩
  · exact Or.inr hNothing

private theorem any_of_subset {few many : List String} (hSubset : few ⊆ many) (test : String → Bool)
    (hAny : few.any test = true) : many.any test = true := by
  obtain ⟨entry, hMem, hTest⟩ := List.any_eq_true.mp hAny
  exact List.any_eq_true.mpr ⟨entry, hSubset hMem, hTest⟩

/-- Rules are stricter when their lists of what is blocked include the others', their list of
exceptions is included in the others', and each directory that file operations may touch lies at or
below one that they may touch under the others. -/
theorem Rules.Stricter.of_entries {strict lax : Rules}
    (hModules : lax.policy.blockedModules ⊆ strict.policy.blockedModules)
    (hAllowed : strict.policy.allowedModules ⊆ lax.policy.allowedModules)
    (hBuiltins : lax.policy.blockedBuiltins ⊆ strict.policy.blockedBuiltins)
    (hFunctions : lax.policy.blockedFunctions ⊆ strict.policy.blockedFunctions)
    (hAttributes : lax.policy.suspiciousAttributes ⊆ strict.policy.suspiciousAttributes)
    (hDirectory : strict.scriptsDir = lax.scriptsDir)
    (hRoots : ∀ root ∈ strict.roots, ∃ above ∈ lax.roots,
      (resolvePath root).isWithin (resolvePath above) = true) : strict.Stricter lax where
  blocked _ := any_of_subset hModules _
  allowed _ := any_of_subset hAllowed _
  builtins := hBuiltins
  functions := hFunctions
  attributes := hAttributes
  paths := by
    intro path hAllows
    obtain ⟨root, hMem, hWithin⟩ := List.any_eq_true.mp hAllows
    obtain ⟨above, hAbove, hBelow⟩ := hRoots root hMem
    rw [hDirectory] at hWithin
    exact List.any_eq_true.mpr ⟨above, hAbove, ResolvedPath.isWithin_trans hWithin hBelow⟩

-- ---------------------------------------------------------------------------
-- Names
-- ---------------------------------------------------------------------------

namespace Rules.Stricter

variable {strict lax : Rules}

/-- A module blocked for the others is blocked: it is listed, and no exception covers it. -/
theorem blockedModule (h : strict.Stricter lax) {m : String}
    (hBlocked : lax.policy.isBlockedModule m = true) :
    strict.policy.isBlockedModule m = true := by
  simp only [Policy.isBlockedModule, Bool.and_eq_true, Bool.not_eq_true'] at hBlocked ⊢
  obtain ⟨⟨hName, hAllowed⟩, hListed⟩ := hBlocked
  refine ⟨⟨hName, ?_⟩, h.blocked m hListed⟩
  rw [Bool.eq_false_iff] at hAllowed ⊢
  exact fun hExcepted => hAllowed (h.allowed m hExcepted)

theorem blockedBuiltin (h : strict.Stricter lax) {name : String}
    (hBlocked : lax.policy.isBlockedBuiltin name = true) :
    strict.policy.isBlockedBuiltin name = true := by
  simp only [Policy.isBlockedBuiltin, List.contains_iff_mem] at hBlocked ⊢
  exact h.builtins hBlocked

theorem blockedFunction (h : strict.Stricter lax) {name : String}
    (hBlocked : lax.policy.isBlockedFunction name = true) :
    strict.policy.isBlockedFunction name = true := by
  simp only [Policy.isBlockedFunction, List.contains_iff_mem] at hBlocked ⊢
  exact h.functions hBlocked

theorem suspiciousAttribute (h : strict.Stricter lax) {name : String}
    (hBlocked : lax.policy.isSuspiciousAttribute name = true) :
    strict.policy.isSuspiciousAttribute name = true := by
  simp only [Policy.isSuspiciousAttribute, List.contains_iff_mem] at hBlocked ⊢
  exact h.attributes hBlocked

-- ---------------------------------------------------------------------------
-- One check at a time
-- ---------------------------------------------------------------------------

/-! Each check is compared by its silence: where it has nothing to report under the stricter rules,
it has nothing to report under the others. -/

/-- A report made when a test holds is silent when a test that holds at least as often is. -/
private theorem guarded_silent {a b : Bool} {v w : Violation} (hTest : b = true → a = true)
    (hSilent : (if a = true then [v] else []) = []) : (if b = true then [w] else []) = [] := by
  have hNot : ¬ a = true := by
    intro hHolds
    simp [hHolds] at hSilent
  rw [if_neg (fun hHolds => hNot (hTest hHolds))]

private theorem filter_silent {α : Type} {a b : α → Bool} {names : List α} {f : α → Violation}
    (hTest : ∀ x, b x = true → a x = true) (hSilent : (names.filter a).map f = []) :
    (names.filter b).map f = [] := by
  rw [List.map_eq_nil_iff, List.filter_eq_nil_iff] at hSilent ⊢
  exact fun x hMem hHolds => hSilent x hMem (hTest x hHolds)

theorem checkImport_silent (h : strict.Stricter lax) {node : Tree}
    (hSilent : (strict.policy.checkImport node).violations = []) :
    (lax.policy.checkImport node).violations = [] :=
  filter_silent (fun _ => h.blockedModule) hSilent

/-- The stricter rules may report the module where the others report names from it. -/
theorem checkFromImport_silent (h : strict.Stricter lax) {node : Tree}
    (hSilent : (strict.policy.checkFromImport node).violations = []) :
    (lax.policy.checkFromImport node).violations = [] := by
  unfold Policy.checkFromImport at hSilent ⊢
  cases hModule : node.child? "module_name" with
  | none => rfl
  | some module =>
    simp only [hModule] at hSilent ⊢
    by_cases hRelative : (module.kind == "relative_import") = true
    · rw [if_pos hRelative]
      split <;> rfl
    · rw [if_neg hRelative] at hSilent ⊢
      have hFree : ¬ strict.policy.isBlockedModule module.text = true := by
        intro hBlocked
        simp [hBlocked] at hSilent
      rw [if_neg hFree] at hSilent
      rw [if_neg (fun hBlocked => hFree (h.blockedModule hBlocked))]
      refine filter_silent (fun q hQualified => ?_) hSilent
      rw [Bool.or_eq_true] at hQualified ⊢
      exact hQualified.imp h.blockedModule h.blockedFunction

theorem checkPath_silent (h : strict.Stricter lax) {operation path : String}
    (hSilent : strict.checkPath operation path = []) : lax.checkPath operation path = [] := by
  cases hAllows : strict.allowsPath path with
  | false => simp [Rules.checkPath, hAllows] at hSilent
  | true => rw [Rules.checkPath, if_pos (h.paths path hAllows)]

/-- Whether a computed path is written to is seen from the call alone. -/
theorem checkOpen_silent (h : strict.Stricter lax) {call : Tree}
    (hSilent : strict.checkOpen call = []) : lax.checkOpen call = [] := by
  unfold Rules.checkOpen at hSilent ⊢
  cases hPath : call.arguments.positional.head? <|> call.arguments.keyword? "file" with
  | none => simp only [hPath]
  | some path =>
    simp only [hPath] at hSilent ⊢
    cases hLiteral : path.stringLiteral? with
    | some literal =>
      simp only [hLiteral] at hSilent ⊢
      exact h.checkPath_silent hSilent
    | none =>
      simp only [hLiteral] at hSilent ⊢
      exact guarded_silent id hSilent

theorem checkDestructive_silent (h : strict.Stricter lax) {call : Tree} {function : String}
    (hSilent : strict.checkDestructive call function = []) :
    lax.checkDestructive call function = [] := by
  rw [Rules.checkDestructive, List.flatMap_eq_nil_iff] at hSilent ⊢
  intro a hMem
  have hArgument := hSilent a hMem
  cases hLiteral : a.stringLiteral? with
  | none => rfl
  | some literal =>
    simp only [hLiteral] at hArgument ⊢
    exact h.checkPath_silent hArgument

theorem checkPathWrite_silent (h : strict.Stricter lax) {function : Tree}
    (hSilent : strict.checkPathWrite function = []) : lax.checkPathWrite function = [] := by
  unfold Rules.checkPathWrite at hSilent ⊢
  split
  · next method receiver hMethod hReceiver =>
    simp only [hMethod, hReceiver] at hSilent
    split
    · next hWrites =>
      rw [if_pos hWrites] at hSilent
      cases hLiteral : receiver.arguments.positional.head?.bind Tree.stringLiteral? with
      | none => rfl
      | some literal =>
        simp only [hLiteral] at hSilent ⊢
        exact h.checkPath_silent hSilent
    · rfl
  · rfl

theorem checkCall_silent (h : strict.Stricter lax) {call : Tree}
    (hSilent : strict.checkCall call = []) : lax.checkCall call = [] := by
  unfold Rules.checkCall at hSilent ⊢
  cases hFunction : call.child? "function" with
  | none => rfl
  | some function =>
    simp only [hFunction] at hSilent ⊢
    by_cases hName : isNameKind function.kind = true
    · -- a plain name: a builtin, and perhaps `open`
      rw [if_pos hName, List.append_eq_nil_iff] at hSilent ⊢
      refine ⟨guarded_silent h.blockedBuiltin hSilent.1, ?_⟩
      by_cases hOpen : (function.text == "open") = true
      · rw [if_pos hOpen] at hSilent ⊢
        exact h.checkOpen_silent hSilent.2
      · rw [if_neg hOpen]
    · rw [if_neg hName] at hSilent ⊢
      by_cases hAttribute : (function.kind == "attribute") = true
      · -- a method: what its chain names, and what it writes to
        rw [if_pos hAttribute, List.append_eq_nil_iff] at hSilent ⊢
        refine ⟨?_, h.checkPathWrite_silent hSilent.2⟩
        have hChain := hSilent.1
        cases hDotted : function.dotted? with
        | none => rfl
        | some chain =>
          simp only [hDotted] at hChain ⊢
          rw [List.append_eq_nil_iff] at hChain ⊢
          refine ⟨guarded_silent h.blockedFunction hChain.1, ?_⟩
          by_cases hDestructive : destructiveFunctions.contains chain = true
          · rw [if_pos hDestructive] at hChain ⊢
            exact h.checkDestructive_silent hChain.2
          · rw [if_neg hDestructive]
      · rw [if_neg hAttribute]

/-- Whether a chain is left to a call or to a longer chain is seen from the place alone. -/
theorem checkAttribute_silent (h : strict.Stricter lax) {p : Place}
    (hSilent : strict.checkAttribute p = []) : lax.checkAttribute p = [] := by
  unfold Rules.checkAttribute at hSilent ⊢
  rw [List.append_eq_nil_iff] at hSilent ⊢
  obtain ⟨hDunder, hChain⟩ := hSilent
  constructor
  · cases hAttr : p.node.child? "attribute" with
    | none => rfl
    | some attr =>
      simp only [hAttr] at hDunder ⊢
      exact guarded_silent h.suspiciousAttribute hDunder
  · by_cases hLeft : (p.isCallee || p.parentKind == some "attribute") = true
    · rw [if_pos hLeft]
    · rw [if_neg hLeft] at hChain ⊢
      cases hDotted : p.node.dotted? with
      | none => rfl
      | some chain =>
        simp only [hDotted] at hChain ⊢
        exact guarded_silent h.blockedFunction hChain

theorem checkName_silent (h : strict.Stricter lax) {p : Place}
    (hSilent : strict.checkName p = []) : lax.checkName p = [] := by
  refine guarded_silent (fun hNamed => ?_) hSilent
  rw [Bool.and_eq_true, Bool.or_eq_true] at hNamed ⊢
  exact ⟨hNamed.1.imp h.blockedBuiltin h.suspiciousAttribute, hNamed.2⟩

/-- **A node that passes stricter rules passes.** -/
theorem check_silent (h : strict.Stricter lax) {p : Place}
    (hSilent : (strict.check p).violations = []) : (lax.check p).violations = [] := by
  unfold Rules.check at hSilent ⊢
  dsimp only at hSilent ⊢
  split at hSilent
  · next hKind => rw [if_pos hKind]; exact h.checkImport_silent hSilent
  next hImport =>
  rw [if_neg hImport]
  split at hSilent
  · next hKind => rw [if_pos hKind]; exact h.checkFromImport_silent hSilent
  next hFrom =>
  rw [if_neg hFrom]
  split at hSilent
  · next hKind => rw [if_pos hKind]; exact h.checkCall_silent hSilent
  next hCall =>
  rw [if_neg hCall]
  split at hSilent
  · next hKind => rw [if_pos hKind]; exact h.checkAttribute_silent hSilent
  next hAttribute =>
  rw [if_neg hAttribute]
  split at hSilent
  · next hKind => rw [if_pos hKind]; exact h.checkName_silent hSilent
  next hName =>
  rw [if_neg hName]
  -- an `exec` statement is reported under all rules, and nothing else is looked at
  exact hSilent

-- ---------------------------------------------------------------------------
-- Trees and texts
-- ---------------------------------------------------------------------------

/-- **A reported line stays reported.** Stricter rules find something at every node at which the
others do, though perhaps something else. -/
theorem finding_stays (h : strict.Stricter lax) {t : Tree} {f : Finding}
    (hFound : f ∈ lax.findings t) : ∃ g ∈ strict.findings t, g.line = f.line := by
  rw [Rules.findings, List.mem_flatMap] at hFound
  obtain ⟨p, hPlace, hHere⟩ := hFound
  obtain ⟨v, hViolation, rfl⟩ := List.mem_map.mp hHere
  have hSome : (strict.check p).violations ≠ [] := by
    intro hSilent
    rw [h.check_silent hSilent] at hViolation
    exact absurd hViolation (List.not_mem_nil)
  obtain ⟨w, hReport⟩ := List.exists_mem_of_ne_nil _ hSome
  exact ⟨⟨p.node.line, w⟩, mem_findings (mem_places_iff.mp hPlace) hReport, rfl⟩

theorem analyzeTree_silent (h : strict.Stricter lax) {t : Tree}
    (hSilent : (strict.analyzeTree t).problems = []) : (lax.analyzeTree t).problems = [] := by
  cases hClean : t.label.hasError with
  | true => simp [Rules.analyzeTree, hClean] at hSilent
  | false =>
    rw [analyzeTree_problems hClean, List.map_eq_nil_iff] at hSilent ⊢
    refine List.eq_nil_iff_forall_not_mem.mpr fun f hFound => ?_
    obtain ⟨g, hStill, -⟩ := h.finding_stays hFound
    rw [hSilent] at hStill
    exact absurd hStill (List.not_mem_nil)

theorem analyze_silent (h : strict.Stricter lax) {source : String}
    (hSilent : (strict.analyze source).problems = []) : (lax.analyze source).problems = [] := by
  -- the parser stays closed: only what it answers is looked at
  delta Rules.analyze at hSilent ⊢
  cases hTree : Tree.ofSource source with
  | none => simp [hTree] at hSilent
  | some t =>
    simp only [hTree] at hSilent ⊢
    exact h.analyzeTree_silent hSilent

end Rules.Stricter

/-- Whatever rules accept, other rules accept too: trees in which nothing is found, and texts that
are valid, under whatever names and beside whatever siblings. -/
structure Rules.AcceptsLess (strict lax : Rules) : Prop where
  problems : ∀ t : Tree, (strict.analyzeTree t).problems = [] → (lax.analyzeTree t).problems = []
  verdict : ∀ (source scriptName scriptName' : String) (known known' : List String),
    (strict.validate source scriptName known).isValid = true →
      (lax.validate source scriptName' known').isValid = true

/--
**Stricter rules accept less.** Rules that block at least the modules, builtins, functions and
attributes that others block, allow at most the modules that those allow, and let file operations
touch at most the paths that those do, accept no tree and no text that those refuse.
-/
theorem stricter_rules_accept_less {strict lax : Rules} (h : strict.Stricter lax) :
    strict.AcceptsLess lax where
  problems _ hSilent := h.analyzeTree_silent hSilent
  verdict source scriptName scriptName' known known' hValid := by
    rw [validate_isValid, List.isEmpty_iff] at hValid ⊢
    exact h.analyze_silent hValid

/-- Rules for scripts that only read and write notes: more is blocked than by the standard policy,
no module is excepted, and files lie in one directory below the scripts. -/
def noteRules : Rules where
  policy :=
    { Policy.standard with
      blockedModules := Policy.standard.blockedModules ++ ["random"]
      blockedBuiltins := Policy.standard.blockedBuiltins ++ ["print"]
      blockedFunctions := Policy.standard.blockedFunctions ++ ["time.sleep"]
      suspiciousAttributes := Policy.standard.suspiciousAttributes ++ ["__dict__"]
      allowedModules := []
      allowedPaths := ["notes"] }
  scriptsDir := "/scripts"

/-- A script of one call of `open` with a path. -/
def openScript (path : String) : Tree :=
  .script (.node { kind := "expression_statement", text := "open('" ++ path ++ "')" }
    [.node { kind := "call", text := "open('" ++ path ++ "')" }
      [.word "open" (some "function"),
        .node { kind := "argument_list", field := some "arguments", text := "('" ++ path ++ "')" }
          [.mark "(",
            .node { kind := "string", text := "'" ++ path ++ "'" }
              [.node { kind := "string_start", text := "'" } [],
                .node { kind := "string_content", text := path } [],
                .node { kind := "string_end", text := "'" } []],
            .mark ")"]]])

/-- A script that opens one of the notes passes the rules for notes, and so the standard ones; one
that opens another file passes the standard rules only. -/
theorem note_script_passes :
    noteRules.Stricter ⟨.standard, "/scripts"⟩ ∧
      (noteRules.analyzeTree (openScript "notes/a.txt")).problems = [] ∧
      ((⟨.standard, "/scripts"⟩ : Rules).analyzeTree (openScript "notes/a.txt")).problems = [] ∧
      (noteRules.analyzeTree (openScript "a.txt")).problems ≠ [] ∧
      ((⟨.standard, "/scripts"⟩ : Rules).analyzeTree (openScript "a.txt")).problems = [] := by
  have hStricter : noteRules.Stricter ⟨.standard, "/scripts"⟩ := by
    apply Rules.Stricter.of_entries
    · exact List.subset_append_left _ _
    · exact List.nil_subset _
    · exact List.subset_append_left _ _
    · exact List.subset_append_left _ _
    · exact List.subset_append_left _ _
    · rfl
    · decide +kernel
  have hSilent : (noteRules.analyzeTree (openScript "notes/a.txt")).problems = [] := by
    decide +kernel
  exact ⟨hStricter, hSilent, (stricter_rules_accept_less hStricter).problems _ hSilent,
    by decide +kernel, by decide +kernel⟩

end ScriptWarden
