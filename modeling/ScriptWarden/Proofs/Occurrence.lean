import ScriptWarden.Verdict

/-!
# Occurrences

Where nodes occur in a tree, said without the walk that the checks make: the root occurs, and so
does every named child of a node that occurs, each at its place.

## Results

* `mem_places_iff` — the walk lists exactly the places that occur.
* `rejects_of_violation` — one violation at one place that occurs is enough for the tree, and
  every text that it is the tree of, to be refused.
-/

namespace ScriptWarden

-- ---------------------------------------------------------------------------
-- Occurrences and the walk
-- ---------------------------------------------------------------------------

/-- The places that occur in a tree: that of the root, and those of the named children of nodes
that occur. -/
inductive Tree.Occurs (t : Tree) : Place → Prop
  | root : t.Occurs ⟨t, none⟩
  | child {p : Place} {i : Nat} {c : Tree} :
      t.Occurs p → p.node.children[i]? = some c → c.label.named = true →
      t.Occurs ⟨c, some (p.node, i)⟩

/-- The walk over siblings is the walk over each named one of them, at its position. -/
theorem mem_placesOfAll_iff {parent : Tree} {p : Place} (cs : List Tree) (i : Nat) :
    p ∈ Tree.placesOfAll parent i cs ↔
      ∃ j c, cs[j]? = some c ∧ c.label.named = true ∧
        p ∈ Tree.placesBelow (some (parent, i + j)) c := by
  induction cs generalizing i with
  | nil => simp [Tree.placesOfAll]
  | cons c rest ih =>
    rw [Tree.placesOfAll, List.mem_append, ih]
    constructor
    · rintro (hHere | ⟨j, d, hAt, hNamed, hMem⟩)
      · split at hHere
        · next hNamed => exact ⟨0, c, rfl, hNamed, hHere⟩
        · simp at hHere
      · refine ⟨j + 1, d, hAt, hNamed, ?_⟩
        rwa [show i + (j + 1) = i + 1 + j by omega]
    · rintro ⟨j, d, hAt, hNamed, hMem⟩
      cases j with
      | zero =>
        obtain rfl : c = d := by simpa using hAt
        exact Or.inl (by rwa [if_pos hNamed])
      | succ j =>
        refine Or.inr ⟨j, d, by simpa using hAt, hNamed, ?_⟩
        rwa [show i + 1 + j = i + (j + 1) by omega]

theorem mem_placesBelow_iff {parent : Option (Tree × Nat)} {p : Place} (t : Tree) :
    p ∈ Tree.placesBelow parent t ↔
      p = ⟨t, parent⟩ ∨ ∃ j c, t.children[j]? = some c ∧ c.label.named = true ∧
        p ∈ Tree.placesBelow (some (t, j)) c := by
  obtain ⟨l, cs⟩ := t
  rw [Tree.placesBelow, List.mem_cons, mem_placesOfAll_iff]
  simp [Tree.children]

/-- Induction over trees: a property that a node has when its children have it. -/
@[elab_as_elim]
theorem Tree.inductionOn {motive : Tree → Prop} (t : Tree)
    (node : ∀ l cs, (∀ c ∈ cs, motive c) → motive (.node l cs)) : motive t :=
  match t with
  | .node l cs => node l cs fun c _ => Tree.inductionOn c node
termination_by sizeOf t

/-- With a place the walk lists those of its named children. -/
theorem placesBelow_child {p : Place} {i : Nat} {c : Tree}
    (hAt : p.node.children[i]? = some c) (hNamed : c.label.named = true) (t : Tree) :
    ∀ parent : Option (Tree × Nat), p ∈ Tree.placesBelow parent t →
      (⟨c, some (p.node, i)⟩ : Place) ∈ Tree.placesBelow parent t := by
  induction t using Tree.inductionOn with
  | node l cs ih =>
    intro parent hMem
    rw [mem_placesBelow_iff] at hMem ⊢
    right
    rcases hMem with rfl | ⟨j, d, hChild, hShown, hBelow⟩
    · exact ⟨i, c, hAt, hNamed, by rw [mem_placesBelow_iff]; exact Or.inl rfl⟩
    · exact ⟨j, d, hChild, hShown, ih d (List.mem_of_getElem? hChild) _ hBelow⟩

/-- What the walk lists below a node that occurs, occurs. -/
theorem occurs_of_mem_placesBelow {root : Tree} {p : Place} (t : Tree) :
    ∀ parent : Option (Tree × Nat), root.Occurs ⟨t, parent⟩ →
      p ∈ Tree.placesBelow parent t → root.Occurs p := by
  induction t using Tree.inductionOn with
  | node l cs ih =>
    intro parent hHere hMem
    rw [mem_placesBelow_iff] at hMem
    rcases hMem with rfl | ⟨j, d, hChild, hShown, hBelow⟩
    · exact hHere
    · exact ih d (List.mem_of_getElem? hChild) _ (.child hHere hChild hShown) hBelow

/-- **The walk is complete and adds nothing.** It lists exactly the places that occur. -/
theorem mem_places_iff {t : Tree} {p : Place} : p ∈ t.places ↔ t.Occurs p := by
  constructor
  · exact occurs_of_mem_placesBelow t none .root
  · intro hOccurs
    induction hOccurs with
    | root => rw [Tree.places, mem_placesBelow_iff]; exact Or.inl rfl
    | child _ hAt hNamed ih => exact placesBelow_child hAt hNamed t none ih

-- ---------------------------------------------------------------------------
-- Fields
-- ---------------------------------------------------------------------------

theorem child?_eq_bind (t : Tree) (field : String) :
    t.child? field = (t.childIndex? field).bind fun i => t.children[i]? :=
  List.find?_eq_bind_findIdx?_getElem?

theorem isField_iff {p : Place} {parent : Tree} {i : Nat} (hParent : p.parent = some (parent, i))
    (field : String) : p.isField field = true ↔ parent.childIndex? field = some i := by
  rw [Place.isField, hParent]
  exact beq_iff_eq

theorem isCallee_iff {p : Place} {parent : Tree} {i : Nat} (hParent : p.parent = some (parent, i)) :
    p.isCallee = true ↔ parent.kind = "call" ∧ parent.childIndex? "function" = some i := by
  rw [Place.isCallee, Bool.and_eq_true, isField_iff hParent, Place.parentKind, hParent]
  simp

-- ---------------------------------------------------------------------------
-- Trees written out
-- ---------------------------------------------------------------------------

/-- A plain name, possibly as a field of its parent. -/
def Tree.word (text : String) (field : Option String := none) : Tree :=
  .node { kind := "identifier", text, field } []

/-- A keyword or a piece of punctuation: a token that is its own kind. -/
def Tree.mark (text : String) : Tree := .node { kind := text, text, named := false } []

/-- A script of one statement. -/
def Tree.script (statement : Tree) : Tree :=
  .node { kind := "module", text := statement.text ++ "\n" } [statement]

/-- The one statement of a script, at its place. -/
def Tree.onlyStatement (statement : Tree) : Place := ⟨statement, some (.script statement, 0)⟩

theorem occurs_onlyStatement (statement : Tree) (hNamed : statement.label.named = true) :
    (Tree.script statement).Occurs statement.onlyStatement :=
  .child .root rfl hNamed

-- ---------------------------------------------------------------------------
-- Refusal
-- ---------------------------------------------------------------------------

/-- A script is valid when nothing was found in it: neither its name nor its siblings count. -/
theorem validate_isValid (r : Rules) (source scriptName : String) (known : List String) :
    (r.validate source scriptName known).isValid = (r.analyze source).problems.isEmpty := by
  simp only [Rules.validate, Rules.analyzeScript, Analysis.resolve]

theorem analyze_ofSource {r : Rules} {source : String} {t : Tree}
    (hTree : Tree.ofSource source = some t) : r.analyze source = r.analyzeTree t := by
  -- the parser stays closed: only what it answers is looked at
  delta Rules.analyze
  rw [hTree]

theorem analyzeTree_problems {r : Rules} {t : Tree} (hClean : t.label.hasError = false) :
    (r.analyzeTree t).problems = (r.findings t).map .violation := by
  simp only [Rules.analyzeTree, hClean, Bool.false_eq_true, if_false]

mutual

theorem Tree.firstProblem?_ne_notText : ∀ t : Tree, t.firstProblem? ≠ some .notText
  | .node l cs => by
    unfold Tree.firstProblem?
    split
    · simp
    · split
      · simp
      · split
        · exact Tree.firstProblemOf?_ne_notText cs
        · simp

theorem Tree.firstProblemOf?_ne_notText : ∀ cs : List Tree, Tree.firstProblemOf? cs ≠ some .notText
  | [] => by simp [Tree.firstProblemOf?]
  | c :: rest => by
    unfold Tree.firstProblemOf?
    have hFirst := Tree.firstProblem?_ne_notText c
    split
    · next p hp =>
      rw [hp] at hFirst
      exact hFirst
    · exact Tree.firstProblemOf?_ne_notText rest

end

/-- The problems of a text do not say that it is none. -/
theorem Rules.analyzeScript_ne_notText (r : Rules) (source scriptName : String) :
    r.analyzeScript source scriptName ≠ { problems := [.notText] } := by
  intro hSame
  -- the parser stays closed: only what it answers is looked at
  rw [Rules.analyzeScript] at hSame
  have hProblems : (r.analyze source).problems = [.notText] := (Analysis.mk.inj hSame).1
  delta Rules.analyze at hProblems
  cases hTree : Tree.ofSource source with
  | none => simp [hTree] at hProblems
  | some t =>
    simp only [hTree, Rules.analyzeTree] at hProblems
    split at hProblems
    · have hFirst := t.firstProblem?_ne_notText
      cases hFound : t.firstProblem? with
      | none => simp [hFound] at hProblems
      | some p =>
        rw [hFound] at hFirst
        simp [hFound] at hProblems
        exact hFirst (congrArg some hProblems)
    · have hList : (r.findings t).map Problem.violation = [.notText] := hProblems
      have hMem : Problem.notText ∈ (r.findings t).map Problem.violation := by simp [hList]
      simp at hMem

/-- A tree is refused when something is found in it; then no text that it is the tree of is
valid, under whatever name and beside whatever siblings. -/
structure Rules.Rejects (r : Rules) (t : Tree) : Prop where
  problems : (r.analyzeTree t).problems ≠ []
  verdict : ∀ (source scriptName : String) (known : List String),
    Tree.ofSource source = some t → (r.validate source scriptName known).isValid = false

theorem rejects_of_problems {r : Rules} {t : Tree} (hSome : (r.analyzeTree t).problems ≠ []) :
    r.Rejects t := by
  refine ⟨hSome, fun source scriptName known hTree => ?_⟩
  rw [validate_isValid, analyze_ofSource hTree]
  simpa using hSome

/-- A violation at a place that occurs is a finding, at the line of its node. -/
theorem mem_findings {r : Rules} {t : Tree} {p : Place} {v : Violation} (hOccurs : t.Occurs p)
    (hViolation : v ∈ (r.check p).violations) : ⟨p.node.line, v⟩ ∈ r.findings t := by
  rw [Rules.findings, List.mem_flatMap]
  exact ⟨p, mem_places_iff.mpr hOccurs, List.mem_map.mpr ⟨v, hViolation, rfl⟩⟩

theorem rejects_of_violation {r : Rules} {t : Tree} {p : Place} {v : Violation}
    (hClean : t.label.hasError = false) (hOccurs : t.Occurs p)
    (hViolation : v ∈ (r.check p).violations) : r.Rejects t := by
  apply rejects_of_problems
  rw [analyzeTree_problems hClean]
  exact List.ne_nil_of_mem (List.mem_map_of_mem (mem_findings hOccurs hViolation))

/-- In a tree that is not refused nothing is found anywhere. -/
theorem violations_of_not_rejects {r : Rules} {t : Tree} {p : Place} (hAccepted : ¬ r.Rejects t)
    (hOccurs : t.Occurs p) : (r.check p).violations = [] := by
  have hClean : t.label.hasError = false := by
    cases hError : t.label.hasError with
    | false => rfl
    | true => exact absurd (rejects_of_problems (by simp [Rules.analyzeTree, hError])) hAccepted
  rw [List.eq_nil_iff_forall_not_mem]
  exact fun v hViolation => hAccepted (rejects_of_violation hClean hOccurs hViolation)

end ScriptWarden
