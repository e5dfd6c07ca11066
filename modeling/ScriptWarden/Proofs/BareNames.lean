import Mathlib.Data.List.Perm.Basic
import ScriptWarden.Proofs.Addresses
import ScriptWarden.Proofs.ShownNames

/-!
# Bare names

A blocked builtin can be called, and it can be used without being called: bound to another name,
put into a list, passed on, given as a default. Two checks share the reporting. The check of a call
speaks for the plain name that the call calls, the check of a name for every other use; a name that
only labels something of its parent, such as the attribute of an object or the keyword of an
argument, is no use at all. No use falls between the two checks, and none is reported by both.

Reports are compared with uses as multisets: the report of a call stands where the call does, before
the reports of what the call is made of. As two uses may be alike in all that is kept of them, it
is nodes that are counted, not places.

## Results

* `isDeclared_iff` — which names the check of a name leaves alone.
* `builtin_findings` — what is found about blocked builtins is one report for each bare use, and
  one for each `exec` statement.
* `dunder_findings` — what is found about dunder access is one report for each such attribute.
* `bare_names_reported_once` — both, of the problems of a tree without errors.
-/

namespace ScriptWarden

-- ---------------------------------------------------------------------------
-- Uses and their reports
-- ---------------------------------------------------------------------------

/-- A child only labels something of its parent: the attribute of an object, the keyword of an
argument, a parameter with or without a default or a type. -/
inductive Tree.Declares (parent : Tree) (i : Nat) : Prop
  | member : parent.kind = "attribute" → parent.childIndex? "attribute" = some i →
      parent.Declares i
  | keyword : parent.kind = "keyword_argument" → parent.childIndex? "name" = some i →
      parent.Declares i
  | parameter : parent.kind = "parameters" ∨ parent.kind = "lambda_parameters" →
      parent.Declares i
  | declaration :
      parent.kind ∈ ["default_parameter", "typed_parameter", "typed_default_parameter"] →
      parent.childIndex? "name" = some i ∨
        parent.children.findIdx? (·.label.named) = some i →
      parent.Declares i

/-- A name below the root that is a blocked builtin and not a mere label. -/
structure Rules.IsBareUse (r : Rules) (p : Place) : Prop where
  name : isNameKind p.node.kind = true
  blocked : p.node.text ∈ r.policy.blockedBuiltins
  used : ∃ parent i, p.parent = some (parent, i) ∧ ¬ parent.Declares i

/-- The report of a bare use: a name that is called is reported at the line of its call. -/
def Place.useReport (p : Place) : Finding :=
  if p.isCallee then
    ⟨(p.parent.map (·.1.line)).getD p.node.line, .blockedBuiltin p.node.text⟩
  else ⟨p.node.line, .blockedReference p.node.text⟩

/-- The report of an `exec` statement. -/
def Place.execReport (p : Place) : Finding := ⟨p.node.line, .blockedBuiltin "exec"⟩

/-- The name that an attribute takes of its object. -/
def Place.attributeName (p : Place) : String := ((p.node.child? "attribute").map (·.text)).getD ""

/-- An attribute whose name is one of the suspicious ones. -/
structure Rules.IsDunderAccess (r : Rules) (p : Place) : Prop where
  kind : p.node.kind = "attribute"
  suspicious : ∃ attr, p.node.child? "attribute" = some attr ∧
    attr.text ∈ r.policy.suspiciousAttributes

/-- The report of a dunder access. -/
def Place.dunderReport (p : Place) : Finding := ⟨p.node.line, .blockedDunder p.attributeName⟩

/-- Whether a violation is about a blocked builtin. -/
def Rules.isOnBuiltin (r : Rules) : Violation → Bool
  | .blockedBuiltin _ => true
  | .blockedReference name => r.policy.isBlockedBuiltin name
  | _ => false

/-- Whether a violation is about dunder access. -/
def Violation.isOnDunder : Violation → Bool
  | .blockedDunder _ => true
  | _ => false

/-- Whether a problem is a violation of some sort. -/
def Problem.isViolation (sort : Violation → Bool) : Problem → Bool
  | .violation f => sort f.violation
  | _ => false

-- ---------------------------------------------------------------------------
-- Names that are left alone
-- ---------------------------------------------------------------------------

/-- The check of a name leaves alone what a call speaks for and what is a mere label. -/
theorem isDeclared_iff {p : Place} {parent : Tree} {i : Nat}
    (hParent : p.parent = some (parent, i)) :
    p.isDeclared = true ↔ p.isCallee = true ∨ parent.Declares i := by
  have hDeclared : p.isDeclared = true ↔
      (if parent.kind == "call" then p.isField "function"
        else if parent.kind == "attribute" then p.isField "attribute"
        else if parent.kind == "keyword_argument" then p.isField "name"
        else if parent.kind == "parameters" || parent.kind == "lambda_parameters" then true
        else if ["default_parameter", "typed_parameter", "typed_default_parameter"].contains
            parent.kind then
          p.isField "name" || parent.children.findIdx? (·.label.named) == some i
        else false) = true := by rw [Place.isDeclared, hParent]
  rw [hDeclared, isCallee_iff hParent]
  constructor
  · intro hLeft
    split at hLeft
    · next hCall => exact Or.inl ⟨by simpa using hCall, (isField_iff hParent _).mp hLeft⟩
    right
    split at hLeft
    · next hAttribute => exact .member (by simpa using hAttribute) ((isField_iff hParent _).mp hLeft)
    split at hLeft
    · next hKeyword => exact .keyword (by simpa using hKeyword) ((isField_iff hParent _).mp hLeft)
    split at hLeft
    · next hParameter => exact .parameter (by simpa using hParameter)
    split at hLeft
    · next hDeclaration =>
      refine .declaration (by simpa using hDeclaration) ?_
      rwa [Bool.or_eq_true, isField_iff hParent, beq_iff_eq] at hLeft
    · cases hLeft
  · rintro (⟨hKind, hField⟩ | hDeclares)
    · rw [if_pos (by simpa using hKind)]
      exact (isField_iff hParent _).mpr hField
    cases hDeclares with
    | member hKind hField => simpa [hKind] using (isField_iff hParent _).mpr hField
    | keyword hKind hField => simpa [hKind] using (isField_iff hParent _).mpr hField
    | parameter hKind => rcases hKind with hKind | hKind <;> simp [hKind]
    | declaration hKind hFirst =>
      rw [← isField_iff hParent, ← beq_iff_eq (a := parent.children.findIdx? _),
        ← Bool.or_eq_true] at hFirst
      simp only [List.mem_cons, List.not_mem_nil, or_false] at hKind
      rcases hKind with hKind | hKind | hKind <;> simpa [hKind] using hFirst

/-- Whether a place is an attribute with a suspicious name. -/
def Rules.isDunder (r : Rules) (p : Place) : Bool :=
  p.node.kind == "attribute" &&
    (p.node.child? "attribute").any fun attr => r.policy.isSuspiciousAttribute attr.text

theorem isDunder_iff {r : Rules} {p : Place} : r.isDunder p = true ↔ r.IsDunderAccess p := by
  rw [Rules.isDunder, Bool.and_eq_true, Option.any_eq_true, beq_iff_eq]
  simp only [Policy.isSuspiciousAttribute, List.contains_iff_mem]
  exact ⟨fun ⟨hKind, hName⟩ => ⟨hKind, hName⟩, fun ⟨hKind, hName⟩ => ⟨hKind, hName⟩⟩

/-- Whether a place is a plain name that is a blocked builtin. -/
def Rules.isBlockedName (r : Rules) (p : Place) : Bool :=
  isNameKind p.node.kind && r.policy.isBlockedBuiltin p.node.text

/-- A use is a callee, or something that the check of a name does not leave alone. -/
theorem isBareUse_iff {r : Rules} {p : Place} :
    r.IsBareUse p ↔
      (r.isBlockedName p = true ∧ p.isDeclared = false) ∨
        (r.isBlockedName p = true ∧ p.isCallee = true) := by
  have hBlocked : r.isBlockedName p = true ↔
      isNameKind p.node.kind = true ∧ p.node.text ∈ r.policy.blockedBuiltins := by
    simp [Rules.isBlockedName, Policy.isBlockedBuiltin]
  rw [← and_or_left, hBlocked]
  cases hParent : p.parent with
  | none =>
    have hDeclared : p.isDeclared = true := by rw [Place.isDeclared, hParent]
    have hCallee : p.isCallee = false := by simp [Place.isCallee, Place.parentKind, hParent]
    constructor
    · rintro ⟨-, -, parent, i, hSome, -⟩
      rw [hParent] at hSome
      cases hSome
    · rintro ⟨-, hUse⟩
      simp [hDeclared, hCallee] at hUse
  | some above =>
    obtain ⟨parent, i⟩ := above
    rw [← Bool.not_eq_true, isDeclared_iff hParent]
    constructor
    · rintro ⟨hName, hText, parent', i', hSome, hUsed⟩
      obtain ⟨rfl, rfl⟩ : parent = parent' ∧ i = i' := by simpa [hParent] using hSome
      refine ⟨⟨hName, hText⟩, ?_⟩
      by_cases hCallee : p.isCallee = true
      · exact Or.inr hCallee
      · exact Or.inl fun hLeft => hLeft.elim hCallee hUsed
    · rintro ⟨⟨hName, hText⟩, hUse⟩
      refine ⟨hName, hText, parent, i, hParent, fun hDeclares => ?_⟩
      rcases hUse with hAlone | hCallee
      · exact hAlone (Or.inr hDeclares)
      · -- a call labels nothing
        obtain ⟨hCall, -⟩ := (isCallee_iff hParent).mp hCallee
        cases hDeclares <;> simp_all

-- ---------------------------------------------------------------------------
-- The nodes that are used
-- ---------------------------------------------------------------------------

/-- What a call calls. -/
def Node.callee? (u : Node) : Option Node :=
  if u.2.node.kind == "call" then
    (u.2.node.childIndex? "function").bind fun i => (u.2.child? i).map (u.1 ++ [i], ·)
  else none

theorem callee?_eq_some_iff {u v : Node} :
    u.callee? = some v ↔ u.2.node.kind = "call" ∧ ∃ i,
      u.2.node.childIndex? "function" = some i ∧ u.2.child? i = some v.2 ∧
        v.1 = u.1 ++ [i] := by
  obtain ⟨b, q⟩ := v
  rw [Node.callee?]
  constructor
  · intro hSome
    split at hSome
    · next hKind =>
      obtain ⟨i, hIndex, hChild⟩ := Option.bind_eq_some_iff.mp hSome
      obtain ⟨p, hThere, hSame⟩ := Option.map_eq_some_iff.mp hChild
      obtain ⟨rfl, rfl⟩ : u.1 ++ [i] = b ∧ p = q := by simpa using hSame
      exact ⟨by simpa using hKind, i, hIndex, hThere, rfl⟩
    · cases hSome
  · rintro ⟨hKind, i, hIndex, hChild, hSame⟩
    obtain rfl : b = u.1 ++ [i] := hSame
    simp only at hChild
    simp [hKind, hIndex, hChild]

theorem isCallee_of_callee? {u v : Node} (h : u.callee? = some v) : v.2.isCallee = true := by
  obtain ⟨hKind, i, hIndex, hChild, -⟩ := callee?_eq_some_iff.mp h
  obtain ⟨c, -, -, hSame⟩ := child?_eq_some_iff.mp hChild
  have hParent : v.2.parent = some (u.2.node, i) := by rw [hSame]
  exact (isCallee_iff hParent).mpr ⟨hKind, hIndex⟩

/-- The callees of a tree, each found from its call. -/
theorem lists_callees (t : Tree) :
    t.Lists (fun p => p.isCallee = true) (t.nodes.filterMap Node.callee?) where
  distinct := by
    -- callees of two calls lie below different addresses
    have hApart : t.nodes.Pairwise fun u u' => u.1 ≠ u'.1 :=
      List.pairwise_map.mp (nodup_map_fst_nodes t)
    rw [List.Nodup, List.pairwise_map]
    refine hApart.filterMap _ fun u u' hDiffer v hCallee v' hCallee' hSame => hDiffer ?_
    obtain ⟨-, i, -, -, hHere⟩ := callee?_eq_some_iff.mp hCallee
    obtain ⟨-, i', -, -, hThere⟩ := callee?_eq_some_iff.mp hCallee'
    rw [hHere, hThere] at hSame
    exact (List.append_inj' hSame rfl).1
  mem := by
    intro a p
    rw [List.mem_filterMap]
    constructor
    · rintro ⟨⟨b, q⟩, hMem, hCallee⟩
      obtain ⟨-, i, -, hChild, rfl⟩ := callee?_eq_some_iff.mp hCallee
      refine ⟨?_, isCallee_of_callee? hCallee⟩
      rw [at?_concat (mem_nodes_iff.mp hMem)]
      exact hChild
    · rintro ⟨hAt, hCallee⟩
      cases hParent : p.parent with
      | none => simp [Place.isCallee, Place.parentKind, hParent] at hCallee
      | some above =>
        obtain ⟨parent, i⟩ := above
        obtain ⟨b, q, rfl, hAbove, rfl, hChild⟩ := at?_parent hAt hParent
        obtain ⟨hKind, hIndex⟩ := (isCallee_iff hParent).mp hCallee
        exact ⟨(b, q), mem_nodes_iff.mpr hAbove,
          callee?_eq_some_iff.mpr ⟨hKind, i, hIndex, hChild, rfl⟩⟩

theorem isDeclared_of_isCallee {p : Place} (h : p.isCallee = true) : p.isDeclared = true := by
  cases hParent : p.parent with
  | none => simp [Place.isCallee, Place.parentKind, hParent] at h
  | some above => exact (isDeclared_iff hParent).mpr (Or.inl h)

/-- The bare uses of a tree: those that speak for themselves, and those that a call speaks for. -/
def Rules.bareUses (r : Rules) (t : Tree) : List Node :=
  (t.nodes.filter fun u => r.isBlockedName u.2 && !u.2.isDeclared) ++
    (t.nodes.filterMap Node.callee?).filter fun u => r.isBlockedName u.2

theorem lists_bareUses (r : Rules) (t : Tree) : t.Lists r.IsBareUse (r.bareUses t) := by
  have hAlone := (Tree.Lists.nodes t).filter fun p => r.isBlockedName p && !p.isDeclared
  have hCalled := (lists_callees t).filter r.isBlockedName
  refine (hAlone.append hCalled ?_).congr ?_
  · rintro p ⟨-, hSpeaks⟩ ⟨hCallee, -⟩
    simp [isDeclared_of_isCallee hCallee] at hSpeaks
  · intro p _
    rw [isBareUse_iff]
    simp [and_comm]

-- ---------------------------------------------------------------------------
-- What is reported at a place
-- ---------------------------------------------------------------------------

/-- Whether a violation is about a single name, rather than a module, a function or a path. -/
def Violation.isOnName : Violation → Bool
  | .blockedBuiltin _ => true
  | .blockedDunder _ => true
  | .blockedReference _ => true
  | _ => false

theorem checkPath_not_onName (r : Rules) (operation path : String) :
    ∀ v ∈ r.checkPath operation path, v.isOnName = false := by
  rw [Rules.checkPath]
  split <;> simp [Violation.isOnName]

theorem checkOpen_not_onName (r : Rules) (call : Tree) :
    ∀ v ∈ r.checkOpen call, v.isOnName = false := by
  rw [Rules.checkOpen]
  split
  · simp
  split
  · exact checkPath_not_onName r _ _
  · split <;> simp [Violation.isOnName]

theorem checkDestructive_not_onName (r : Rules) (call : Tree) (function : String) :
    ∀ v ∈ r.checkDestructive call function, v.isOnName = false := by
  intro v hMem
  obtain ⟨a, -, hPath⟩ := List.mem_flatMap.mp hMem
  split at hPath
  · exact checkPath_not_onName r _ _ v hPath
  · cases hPath

theorem checkPathWrite_not_onName (r : Rules) (function : Tree) :
    ∀ v ∈ r.checkPathWrite function, v.isOnName = false := by
  rw [Rules.checkPathWrite]
  split
  · split
    · split
      · exact checkPath_not_onName r _ _
      · simp
    · simp
  · simp

theorem checkImport_not_onName (policy : Policy) (node : Tree) :
    ∀ v ∈ (policy.checkImport node).violations, v.isOnName = false := by
  intro v hMem
  obtain ⟨m, -, rfl⟩ := List.mem_map.mp hMem
  rfl

theorem checkFromImport_not_onName (policy : Policy) (node : Tree) :
    ∀ v ∈ (policy.checkFromImport node).violations, v.isOnName = false := by
  rw [Policy.checkFromImport]
  split
  · simp
  split
  · split <;> simp
  split
  · simp [Violation.isOnName]
  · intro v hMem
    obtain ⟨m, -, rfl⟩ := List.mem_map.mp hMem
    rfl

/-- The violations at a place that are about single names. -/
def Rules.onNames (r : Rules) (p : Place) : List Violation :=
  (r.check p).violations.filter Violation.isOnName

theorem filter_onName_eq_nil {vs : List Violation} (h : ∀ v ∈ vs, v.isOnName = false) :
    vs.filter Violation.isOnName = [] :=
  List.filter_eq_nil_iff.mpr fun v hMem => by simp [h v hMem]

/-- A call of anything but a plain name is reported as a function, or for the paths it is given. -/
theorem checkCall_not_onName {r : Rules} {call f : Tree}
    (hFunction : call.child? "function" = some f) (hName : isNameKind f.kind = false) :
    ∀ v ∈ r.checkCall call, v.isOnName = false := by
  intro v hMem
  rw [Rules.checkCall, hFunction] at hMem
  simp only [hName, Bool.false_eq_true, if_false] at hMem
  split at hMem
  · rcases List.mem_append.mp hMem with hChain | hWrite
    · split at hChain
      · rcases List.mem_append.mp hChain with hBlocked | hPath
        · split at hBlocked
          · rw [List.mem_singleton.mp hBlocked]
            rfl
          · cases hBlocked
        · split at hPath
          · exact checkDestructive_not_onName r _ _ v hPath
          · cases hPath
      · cases hChain
    · exact checkPathWrite_not_onName r f v hWrite
  · cases hMem

theorem onNames_call {r : Rules} {p : Place} (hKind : p.node.kind = "call") :
    r.onNames p = match p.node.child? "function" with
      | some f =>
        if isNameKind f.kind && r.policy.isBlockedBuiltin f.text then [.blockedBuiltin f.text]
        else []
      | none => [] := by
  have hCheck : (r.check p).violations = r.checkCall p.node := by simp [Rules.check, hKind]
  rw [Rules.onNames, hCheck]
  cases hFunction : p.node.child? "function" with
  | none => rw [Rules.checkCall, hFunction]; rfl
  | some f =>
    cases hName : isNameKind f.kind with
    | false =>
      rw [filter_onName_eq_nil (checkCall_not_onName hFunction hName)]
      simp [hName]
    | true =>
      have hOpen : (if f.text == "open" then r.checkOpen p.node else []).filter
          Violation.isOnName = [] := by
        split
        · exact filter_onName_eq_nil (checkOpen_not_onName r p.node)
        · rfl
      rw [Rules.checkCall, hFunction]
      simp only [hName, if_true, Bool.true_and]
      rw [List.filter_append, hOpen, List.append_nil]
      split <;> rfl

theorem onNames_attribute {r : Rules} {p : Place} (hKind : p.node.kind = "attribute") :
    r.onNames p = match p.node.child? "attribute" with
      | some attr =>
        if r.policy.isSuspiciousAttribute attr.text then [.blockedDunder attr.text] else []
      | none => [] := by
  have hCheck : (r.check p).violations = r.checkAttribute p := by simp [Rules.check, hKind]
  rw [Rules.onNames, hCheck, Rules.checkAttribute, List.filter_append]
  refine (congrArg₂ (· ++ ·) ?_ (?_ : _ = [])).trans (List.append_nil _)
  · cases p.node.child? "attribute" with
    | none => rfl
    | some attr => simp only; split <;> rfl
  · -- the chain is reported as a function
    split
    · rfl
    split
    · split <;> rfl
    · rfl

theorem onNames_name {r : Rules} {p : Place} (hKind : isNameKind p.node.kind = true) :
    r.onNames p =
      if (r.policy.isBlockedBuiltin p.node.text || r.policy.isSuspiciousAttribute p.node.text) &&
          !p.isDeclared then
        [.blockedReference p.node.text]
      else [] := by
  have hCheck : (r.check p).violations = r.checkName p := by
    have hNames : p.node.kind = "identifier" ∨ p.node.kind = "keyword_identifier" := by
      simpa [isNameKind] using hKind
    rcases hNames with hName | hName <;> simp [Rules.check, hName, isNameKind]
  rw [Rules.onNames, hCheck, Rules.checkName]
  split <;> rfl

theorem onNames_exec {r : Rules} {p : Place} (hKind : p.node.kind = "exec_statement") :
    r.onNames p = [.blockedBuiltin "exec"] := by
  simp [Rules.onNames, Rules.check, hKind, isNameKind, Violation.isOnName]

theorem onNames_other {r : Rules} {p : Place} (hCall : p.node.kind ≠ "call")
    (hAttribute : p.node.kind ≠ "attribute") (hName : isNameKind p.node.kind = false)
    (hExec : p.node.kind ≠ "exec_statement") : r.onNames p = [] := by
  apply filter_onName_eq_nil
  simp only [Rules.check, beq_iff_eq, hCall, hAttribute, hName, hExec, if_false,
    Bool.false_eq_true]
  split
  · exact checkImport_not_onName r.policy p.node
  split
  · exact checkFromImport_not_onName r.policy p.node
  · simp

/-- What is found at a place and is about single names, each with the line of the node. -/
theorem filter_findingsAt {r : Rules} {sort : Violation → Bool}
    (hSort : ∀ v, sort v = true → v.isOnName = true) (p : Place) :
    (r.findingsAt p).filter (fun f => sort f.violation) =
      ((r.onNames p).filter sort).map fun v => ⟨p.node.line, v⟩ := by
  rw [Rules.findingsAt, List.filter_map, Rules.onNames, List.filter_filter]
  congr 1
  refine List.filter_congr fun v _ => ?_
  show sort v = (sort v && v.isOnName)
  cases hHere : sort v with
  | false => rfl
  | true => rw [hSort v hHere]; rfl

theorem isOnBuiltin_onName (r : Rules) (v : Violation) (h : r.isOnBuiltin v = true) :
    v.isOnName = true := by
  cases v <;> first | rfl | cases h

theorem isOnDunder_onName (v : Violation) (h : v.isOnDunder = true) : v.isOnName = true := by
  cases v <;> first | rfl | cases h

-- ---------------------------------------------------------------------------
-- Reports and uses
-- ---------------------------------------------------------------------------

theorem callee?_eq_none {u : Node} (hKind : u.2.node.kind ≠ "call") : u.callee? = none := by
  simp [Node.callee?, hKind]

theorem isBlockedName_eq_false {r : Rules} {p : Place} (hName : isNameKind p.node.kind = false) :
    r.isBlockedName p = false := by
  rw [Rules.isBlockedName, hName, Bool.false_and]

/-- The report that a call makes is that of its callee. -/
theorem builtin_onNames_call {r : Rules} {u : Node} (hKind : u.2.node.kind = "call")
    (hNames : u.2.node.showsNames = true) :
    ((r.onNames u.2).filter r.isOnBuiltin).map (fun v => (⟨u.2.node.line, v⟩ : Finding)) =
      (u.callee?.toList.filter fun v => r.isBlockedName v.2).map (·.2.useReport) := by
  rw [onNames_call hKind, child?_eq_bind]
  cases hIndex : u.2.node.childIndex? "function" with
  | none => simp [Node.callee?, hIndex]
  | some i =>
    cases hAt : u.2.node.children[i]? with
    | none => simp [Node.callee?, Place.child?, hIndex, hAt]
    | some f =>
      have hShown := showsNames_child hNames (List.mem_of_getElem? hAt)
      cases hNamed : f.label.named with
      | false =>
        have hName : isNameKind f.kind = false := by
          rw [← Bool.not_eq_true]
          exact fun hKind => by simp [named_of_showsNames hShown hKind] at hNamed
        simp [Node.callee?, Place.child?, hKind, hIndex, hAt, hNamed, hName]
      | true =>
        have hChild : u.2.child? i = some ⟨f, some (u.2.node, i)⟩ :=
          child?_eq_some_iff.mpr ⟨f, hAt, hNamed, rfl⟩
        have hCallee : u.callee? = some (u.1 ++ [i], ⟨f, some (u.2.node, i)⟩) :=
          callee?_eq_some_iff.mpr ⟨hKind, i, hIndex, hChild, rfl⟩
        have hReport : (⟨f, some (u.2.node, i)⟩ : Place).useReport =
            ⟨u.2.node.line, .blockedBuiltin f.text⟩ := by
          rw [Place.useReport, if_pos (isCallee_of_callee? hCallee)]
          rfl
        have hBlocked : r.isBlockedName ⟨f, some (u.2.node, i)⟩ =
            (isNameKind f.kind && r.policy.isBlockedBuiltin f.text) := rfl
        rw [hCallee, Option.toList_some, List.filter_singleton, hBlocked, Option.bind_some, hAt]
        simp only
        cases isNameKind f.kind && r.policy.isBlockedBuiltin f.text with
        | false => rfl
        | true => simp [Rules.isOnBuiltin, hReport]

/-- The report that a name makes is its own. -/
theorem builtin_onNames_name {r : Rules} {u : Node} (hKind : isNameKind u.2.node.kind = true) :
    ((r.onNames u.2).filter r.isOnBuiltin).map (fun v => (⟨u.2.node.line, v⟩ : Finding)) =
      ([u].filter fun v => r.isBlockedName v.2 && !v.2.isDeclared).map (·.2.useReport) := by
  rw [onNames_name hKind, List.filter_singleton, Rules.isBlockedName, hKind, Bool.true_and]
  cases hBlocked : r.policy.isBlockedBuiltin u.2.node.text with
  | false =>
    -- a dunder that is no builtin is reported as well, for what it is
    simp only [Bool.false_or, Bool.false_and]
    split <;> simp [Rules.isOnBuiltin, hBlocked]
  | true =>
    cases hDeclared : u.2.isDeclared with
    | true => simp
    | false =>
      have hCallee : u.2.isCallee = false := by
        rw [← Bool.not_eq_true]
        exact fun hCallee => by simp [isDeclared_of_isCallee hCallee] at hDeclared
      simp [Rules.isOnBuiltin, hBlocked, Place.useReport, hCallee]

/-- What a node adds to what is found about builtins: its own report, or that of its callee, or
that of an `exec` statement. -/
theorem builtin_findingsAt {r : Rules} {u : Node} (hNames : u.2.node.showsNames = true) :
    (r.findingsAt u.2).filter (fun f => r.isOnBuiltin f.violation) =
      ([u].filter fun v => r.isBlockedName v.2 && !v.2.isDeclared).map (·.2.useReport) ++
        (u.callee?.toList.filter fun v => r.isBlockedName v.2).map (·.2.useReport) ++
        ([u].filter fun v => v.2.node.kind == "exec_statement").map (·.2.execReport) := by
  rw [filter_findingsAt (isOnBuiltin_onName r)]
  by_cases hCall : u.2.node.kind = "call"
  · have hOwn : r.isBlockedName u.2 = false := isBlockedName_eq_false (by simp [hCall, isNameKind])
    rw [builtin_onNames_call hCall hNames]
    simp [hOwn, hCall]
  by_cases hName : isNameKind u.2.node.kind = true
  · have hExec : u.2.node.kind ≠ "exec_statement" := fun hExec => by simp [hExec, isNameKind] at hName
    rw [builtin_onNames_name hName, callee?_eq_none hCall]
    simp [hExec]
  rw [Bool.not_eq_true] at hName
  rw [callee?_eq_none hCall]
  by_cases hExec : u.2.node.kind = "exec_statement"
  · rw [onNames_exec hExec]
    simp [isBlockedName_eq_false hName, hExec, Rules.isOnBuiltin, Place.execReport]
  by_cases hAttribute : u.2.node.kind = "attribute"
  · rw [onNames_attribute hAttribute]
    cases u.2.node.child? "attribute" with
    | none => simp [isBlockedName_eq_false hName, hExec]
    | some attr =>
      simp only
      split <;> simp [isBlockedName_eq_false hName, hExec, Rules.isOnBuiltin]
  · rw [onNames_other hCall hAttribute hName hExec]
    simp [isBlockedName_eq_false hName, hExec]

/-- What a node adds to what is found about dunder access: its own report. -/
theorem dunder_findingsAt (r : Rules) (u : Node) :
    (r.findingsAt u.2).filter (fun f => f.violation.isOnDunder) =
      ([u].filter fun v => r.isDunder v.2).map (·.2.dunderReport) := by
  rw [filter_findingsAt isOnDunder_onName, List.filter_singleton, Rules.isDunder]
  by_cases hAttribute : u.2.node.kind = "attribute"
  · rw [onNames_attribute hAttribute]
    cases hAttr : u.2.node.child? "attribute" with
    | none => simp
    | some attr =>
      have hReport : u.2.dunderReport = ⟨u.2.node.line, .blockedDunder attr.text⟩ := by
        rw [Place.dunderReport, Place.attributeName, hAttr]
        rfl
      cases hSuspicious : r.policy.isSuspiciousAttribute attr.text with
      | false => simp [hSuspicious]
      | true => simp [hSuspicious, hAttribute, Violation.isOnDunder, hReport]
  have hNone : (r.onNames u.2).filter Violation.isOnDunder = [] := by
    by_cases hCall : u.2.node.kind = "call"
    · rw [onNames_call hCall]
      split
      · split <;> rfl
      · rfl
    by_cases hName : isNameKind u.2.node.kind = true
    · rw [onNames_name hName]
      split <;> rfl
    by_cases hExec : u.2.node.kind = "exec_statement"
    · rw [onNames_exec hExec]
      rfl
    · rw [onNames_other hCall hAttribute (by simpa using hName) hExec]
      rfl
  have hKind : (u.2.node.kind == "attribute") = false := by simpa using hAttribute
  simp [hNone, hKind]

theorem findings_eq_flatMap (r : Rules) (t : Tree) :
    r.findings t = t.nodes.flatMap fun u => r.findingsAt u.2 := by
  rw [Rules.findings, ← map_snd_nodes, List.flatMap_map]

/-- Choosing among what each of a list gives, and mapping, is done one by one. -/
theorem flatMap_map_filter {α β γ : Type} (l : List α) (give : α → List β) (keep : β → Bool)
    (f : β → γ) :
    (l.flatMap fun x => ((give x).filter keep).map f) = ((l.flatMap give).filter keep).map f := by
  rw [List.filter_flatMap, List.map_flatMap]

/-- **Blocked builtins.** What is found about them is one report for each bare use, and one for
each `exec` statement. -/
theorem builtin_findings (r : Rules) {t : Tree} (hNames : t.showsNames = true) :
    ((r.findings t).filter fun f => r.isOnBuiltin f.violation).Perm
      ((r.bareUses t).map (·.2.useReport) ++
        (t.nodes.filter fun u => u.2.node.kind == "exec_statement").map (·.2.execReport)) := by
  have hEach : ∀ u ∈ t.nodes, (r.findingsAt u.2).filter (fun f => r.isOnBuiltin f.violation) = _ :=
    fun u hMem => builtin_findingsAt
      (showsNames_of_occurs hNames (occurs_of_at? (mem_nodes_iff.mp hMem)))
  rw [findings_eq_flatMap, List.filter_flatMap, List.flatMap_congr hEach]
  refine (List.flatMap_append_perm _ _ _).symm.trans (List.Perm.append ?_ ?_)
  · refine (List.flatMap_append_perm _ _ _).symm.trans ?_
    rw [flatMap_map_filter, flatMap_map_filter, List.flatMap_singleton',
      ← List.filterMap_eq_flatMap_toList, Rules.bareUses, List.map_append]
  · rw [flatMap_map_filter, List.flatMap_singleton']

/-- **Dunder access.** What is found about it is one report for each such attribute, in their
order. -/
theorem dunder_findings (r : Rules) (t : Tree) :
    ((r.findings t).filter fun f => f.violation.isOnDunder) =
      (t.nodes.filter fun u => r.isDunder u.2).map (·.2.dunderReport) := by
  rw [findings_eq_flatMap, List.filter_flatMap, List.flatMap_congr fun u _ => dunder_findingsAt r u,
    flatMap_map_filter, List.flatMap_singleton']

-- ---------------------------------------------------------------------------
-- Problems
-- ---------------------------------------------------------------------------

theorem filter_problems {r : Rules} {t : Tree} (hClean : t.label.hasError = false)
    (sort : Violation → Bool) :
    (r.analyzeTree t).problems.filter (·.isViolation sort) =
      ((r.findings t).filter fun f => sort f.violation).map .violation := by
  rw [analyzeTree_problems hClean, List.filter_map]
  rfl

/--
**Every bare use is reported once.** In a tree without errors, what is found about blocked builtins
is one report for each bare use of one, at the line of the name or of the call that it is called by,
apart from one report for each `exec` statement; and what is found about dunder access is one
report for each attribute with a suspicious name.
-/
theorem bare_names_reported_once (r : Rules) {t : Tree} (hClean : t.label.hasError = false)
    (hNames : t.showsNames = true) :
    ∃ uses execs accesses : List Node,
      t.Lists r.IsBareUse uses ∧
      t.Lists (fun p => p.node.kind = "exec_statement") execs ∧
      t.Lists r.IsDunderAccess accesses ∧
      ((r.analyzeTree t).problems.filter (·.isViolation r.isOnBuiltin)).Perm
        (uses.map (fun u => .violation u.2.useReport) ++
          execs.map (fun u => .violation u.2.execReport)) ∧
      (r.analyzeTree t).problems.filter (·.isViolation Violation.isOnDunder) =
        accesses.map fun u => .violation u.2.dunderReport := by
  have hExecs : t.Lists (fun p => p.node.kind = "exec_statement")
      (t.nodes.filter fun u => u.2.node.kind == "exec_statement") :=
    ((Tree.Lists.nodes t).filter fun p => p.node.kind == "exec_statement").congr
      fun p _ => by rw [true_and, beq_iff_eq]
  have hAccesses : t.Lists r.IsDunderAccess (t.nodes.filter fun u => r.isDunder u.2) :=
    ((Tree.Lists.nodes t).filter r.isDunder).congr fun p _ => by rw [true_and, isDunder_iff]
  refine ⟨_, _, _, lists_bareUses r t, hExecs, hAccesses, ?_, ?_⟩
  · have hReports := (builtin_findings r hNames).map Problem.violation
    rw [List.map_append, List.map_map, List.map_map] at hReports
    rw [filter_problems hClean]
    exact hReports
  · rw [filter_problems hClean, dunder_findings, List.map_map]
    rfl

/-- `eval(getattr, x.__class__)`: a builtin is called, another passed on beside a dunder. -/
def evalCall : Tree :=
  .node { kind := "call", text := "eval(getattr, x.__class__)" }
    [.word "eval" (some "function"),
      .node { kind := "argument_list", field := some "arguments", text := "(getattr, x.__class__)" }
        [.mark "(", .word "getattr", .mark ",",
          .node { kind := "attribute", text := "x.__class__" }
            [.word "x" (some "object"), .mark ".", .word "__class__" (some "attribute")],
          .mark ")"]]

/-- A script whose one statement is that call. -/
def evalScript : Tree :=
  .script (.node { kind := "expression_statement", text := evalCall.text } [evalCall])

/-- The script under the standard policy. -/
theorem eval_script_reported_once :
    evalScript.label.hasError = false ∧ evalScript.showsNames = true ∧
      ∃ uses execs accesses : List Node,
        evalScript.Lists (⟨.standard, "/scripts"⟩ : Rules).IsBareUse uses ∧
        evalScript.Lists (fun p => p.node.kind = "exec_statement") execs ∧
        evalScript.Lists (⟨.standard, "/scripts"⟩ : Rules).IsDunderAccess accesses ∧
        (((⟨.standard, "/scripts"⟩ : Rules).analyzeTree evalScript).problems.filter
            (·.isViolation (⟨.standard, "/scripts"⟩ : Rules).isOnBuiltin)).Perm
          (uses.map (fun u => .violation u.2.useReport) ++
            execs.map (fun u => .violation u.2.execReport)) ∧
        ((⟨.standard, "/scripts"⟩ : Rules).analyzeTree evalScript).problems.filter
            (·.isViolation Violation.isOnDunder) =
          accesses.map fun u => .violation u.2.dunderReport :=
  ⟨rfl, by decide, bare_names_reported_once ⟨.standard, "/scripts"⟩ rfl (by decide)⟩

example : ((⟨.standard, "/scripts"⟩ : Rules).analyzeTree evalScript).problems =
    [.violation ⟨1, .blockedBuiltin "eval"⟩, .violation ⟨1, .blockedReference "getattr"⟩,
      .violation ⟨1, .blockedDunder "__class__"⟩] := by decide +kernel

end ScriptWarden
