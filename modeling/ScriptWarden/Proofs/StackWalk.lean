import Mathlib.Data.String.Basic
import ScriptWarden.Proofs.Addresses

/-!
# The walk with a stack

A tree may be deeper than calls can be nested, so it is walked with a stack of nodes. In each pass
the node on top is taken off and visited, and its named children take its place, the first one on
top. What is found and which siblings are noted add up along the way.

Nothing that was found earlier has a say in a later pass. So the walk comes to every named node
once, in document order, and what it has in the end is what the nodes give on their own, one after
the other. Document order is the order of addresses: a node comes before what lies below it, and
what lies below a child before what lies below a later one.

## Results

* `below_eq` — a node and what lies below it, by the children.
* `pass?_eq_some`, `Walk.Records.pass` — what a pass does, and what it keeps.
* `walkOn_records` — what holds when the walk is over.
* `walk_misses_nothing` — what it has come to and found, and that lines do not decrease.
-/

namespace ScriptWarden

-- ---------------------------------------------------------------------------
-- Document order
-- ---------------------------------------------------------------------------

theorem addressesOfAll_pairwise {cs : List Tree}
    (h : ∀ c ∈ cs, c.addresses.Pairwise (· < ·)) (i : Nat) :
    (Tree.addressesOfAll i cs).Pairwise (· < ·) := by
  induction cs generalizing i with
  | nil => exact List.Pairwise.nil
  | cons c rest ih =>
    rw [Tree.addressesOfAll, List.pairwise_append]
    refine ⟨?_, ih (fun d hd => h d (List.mem_cons_of_mem _ hd)) (i + 1), ?_⟩
    · split
      · exact (h c List.mem_cons_self).map _ fun _ _ hLess =>
          List.cons_lt_cons_iff.mpr (Or.inr ⟨rfl, hLess⟩)
      · exact List.Pairwise.nil
    · -- the later siblings have later positions
      intro a hHere b hLater
      obtain ⟨j, d, b', -, -, -, rfl⟩ := (mem_addressesOfAll_iff rest (i + 1)).mp hLater
      split at hHere
      · obtain ⟨a', -, rfl⟩ := List.mem_map.mp hHere
        exact List.cons_lt_cons_iff.mpr (Or.inl (by omega))
      · cases hHere

/-- Addresses are listed in document order. -/
theorem addresses_pairwise (t : Tree) : t.addresses.Pairwise (· < ·) := by
  induction t using Tree.inductionOn with
  | node l cs ih =>
    rw [Tree.addresses, List.pairwise_cons]
    refine ⟨fun a hMem => ?_, addressesOfAll_pairwise ih 0⟩
    obtain ⟨j, c, b, -, -, -, rfl⟩ := (mem_addressesOfAll_iff cs 0).mp hMem
    exact List.nil_lt_cons _ _

theorem nodes_pairwise (t : Tree) : t.nodes.Pairwise fun u v => u.1 < v.1 := by
  refine (addresses_pairwise t).filterMap _ fun a b hLess u hHere v hThere => ?_
  obtain ⟨p, -, rfl⟩ := Option.map_eq_some_iff.mp hHere
  obtain ⟨q, -, rfl⟩ := Option.map_eq_some_iff.mp hThere
  exact hLess

/-- No named node begins in a row above that of an earlier one. -/
def Tree.RowsAscend (t : Tree) : Prop :=
  ∀ a b p q, t.at? a = some p → t.at? b = some q → a < b → p.node.label.row ≤ q.node.label.row

theorem rowsAscend_iff {t : Tree} :
    t.RowsAscend ↔ t.nodes.Pairwise fun u v => u.2.node.label.row ≤ v.2.node.label.row := by
  constructor
  · intro h
    refine (nodes_pairwise t).imp_of_mem fun {u v} hu hv hLess => ?_
    exact h u.1 v.1 u.2 v.2 (mem_nodes_iff.mp hu) (mem_nodes_iff.mp hv) hLess
  · intro h a b p q hAt hAt' hLess
    have hMem := mem_nodes_iff.mpr hAt
    have hMem' := mem_nodes_iff.mpr hAt'
    obtain ⟨i, hi, hAtI⟩ := List.getElem_of_mem hMem
    obtain ⟨j, hj, hAtJ⟩ := List.getElem_of_mem hMem'
    have hOrder := List.pairwise_iff_getElem.mp (nodes_pairwise t)
    have hRows := List.pairwise_iff_getElem.mp h
    rcases Nat.lt_trichotomy i j with hBefore | rfl | hAfter
    · have hRow := hRows i j hi hj hBefore
      rwa [hAtI, hAtJ] at hRow
    · rw [hAtI] at hAtJ
      obtain ⟨rfl, rfl⟩ : a = b ∧ p = q := by simpa using hAtJ
      exact Nat.le_refl _
    · have hBack := hOrder j i hj hi hAfter
      rw [hAtI, hAtJ] at hBack
      exact absurd hLess (List.lt_asymm hBack)

-- ---------------------------------------------------------------------------
-- Nodes ahead
-- ---------------------------------------------------------------------------

/-- The named children of a node, in order. -/
def Node.namedChildren (u : Node) : List Node :=
  u.2.node.children.zipIdx.filterMap fun (c, i) =>
    if c.label.named then some (u.1 ++ [i], ⟨c, some (u.2.node, i)⟩) else none

/-- A node and the named nodes below it, in document order. -/
def Node.below (u : Node) : List Node :=
  u.2.node.addresses.filterMap fun b => (u.2.at? b).map (u.1 ++ b, ·)

/-- What lies below a node lies below its children, from some position on. -/
theorem below_children {u : Node} (cs : List Tree) (i : Nat)
    (hAll : ∀ j c, cs[j]? = some c → u.2.node.children[i + j]? = some c) :
    (Tree.addressesOfAll i cs).filterMap (fun b => (u.2.at? b).map (u.1 ++ b, ·)) =
      ((cs.zipIdx i).filterMap fun (c, i) =>
        if c.label.named then some (u.1 ++ [i], ⟨c, some (u.2.node, i)⟩) else none).flatMap
          Node.below := by
  induction cs generalizing i with
  | nil => rfl
  | cons c rest ih =>
    have hRest := ih (i + 1) fun j d hd => by
      rw [show i + 1 + j = i + (j + 1) by omega]
      exact hAll (j + 1) d (by simpa using hd)
    rw [Tree.addressesOfAll, List.filterMap_append, List.zipIdx_cons, hRest]
    cases hNamed : c.label.named with
    | false => simp [hNamed]
    | true =>
      have hHere : u.2.node.children[i]? = some c := by simpa using hAll 0 c rfl
      have hChild : u.2.child? i = some ⟨c, some (u.2.node, i)⟩ :=
        child?_eq_some_iff.mpr ⟨c, hHere, hNamed, rfl⟩
      have hBelow : (c.addresses.map (i :: ·)).filterMap (fun b => (u.2.at? b).map (u.1 ++ b, ·)) =
          Node.below (u.1 ++ [i], ⟨c, some (u.2.node, i)⟩) := by
        rw [List.filterMap_map, Node.below]
        refine List.filterMap_congr fun b _ => ?_
        simp [Place.at?, hChild]
      simp only [hNamed, if_true, List.filterMap_cons, List.flatMap_cons, hBelow]

theorem below_eq (u : Node) : u.below = u :: u.namedChildren.flatMap Node.below := by
  obtain ⟨a, ⟨l, cs⟩, parent⟩ := u
  have hChildren := below_children (u := (a, ⟨.node l cs, parent⟩)) cs 0
    fun j c hc => by rwa [Nat.zero_add]
  rw [Node.below, Tree.addresses, List.filterMap_cons_some (by rfl), hChildren]
  simp [Node.namedChildren, Tree.children]

/-- Below the root lie the nodes of the tree. -/
theorem below_root (t : Tree) : Node.below ([], ⟨t, none⟩) = t.nodes := by
  simp only [Node.below, List.nil_append, Tree.nodes, Tree.at?]

-- ---------------------------------------------------------------------------
-- The walk
-- ---------------------------------------------------------------------------

/-- A walk under way. -/
structure Walk where
  /-- The nodes that are still to be visited, the one on top first. -/
  stack : List Node
  visited : List Node := []
  findings : List Finding := []
  /-- The modules noted so far, in increasing order. -/
  siblings : List String := []

/-- A walk that begins at the root. -/
def Walk.start (t : Tree) : Walk := { stack := [([], ⟨t, none⟩)] }

/-- The nodes that a walk has still to come to, in document order. -/
def Walk.ahead (w : Walk) : List Node := w.stack.flatMap Node.below

/-- Visit a node: report what its check finds, and note what may be a sibling. -/
def Rules.visit (r : Rules) (w : Walk) (u : Node) : Walk :=
  { w with
    visited := w.visited ++ [u]
    findings := w.findings ++ r.findingsAt u.2
    siblings := (r.check u.2).siblings.foldl (fun names n => insertName n names) w.siblings }

/-- A pass of the walk, unless nothing is left on the stack. -/
def Rules.pass? (r : Rules) (w : Walk) : Option Walk :=
  match w.stack with
  | [] => none
  | u :: rest => some { r.visit w u with stack := u.namedChildren ++ rest }

variable {r : Rules} {t : Tree} {w w' : Walk}

/-- A pass visits the first of the nodes ahead and leaves the others. -/
theorem pass?_eq_some (h : r.pass? w = some w') :
    ∃ u, w.ahead = u :: w'.ahead ∧ w' = { r.visit w u with stack := w'.stack } := by
  rw [Rules.pass?] at h
  split at h
  · cases h
  · next u rest hStack =>
    obtain rfl := Option.some.inj h
    refine ⟨u, ?_, rfl⟩
    rw [Walk.ahead, hStack, List.flatMap_cons, below_eq, Walk.ahead, List.flatMap_append]
    rfl

theorem pass?_eq_none_iff : r.pass? w = none ↔ w.stack = [] := by
  rw [Rules.pass?]
  split
  · next hStack => simp [hStack]
  · next hStack => simp [hStack]

/-- Walk on until nothing is left. -/
def Rules.walkOn (r : Rules) (w : Walk) : Walk :=
  match _hPass : r.pass? w with
  | none => w
  | some w' => r.walkOn w'
termination_by w.ahead.length
decreasing_by
  obtain ⟨u, hAhead, -⟩ := pass?_eq_some _hPass
  rw [hAhead]
  exact Nat.lt_succ_self _

/-- The walk over a tree. -/
def Rules.walk (r : Rules) (t : Tree) : Walk := r.walkOn (.start t)

/-- What a walk over a tree has come to is the beginning of its nodes, and what it has recorded is
what those give on their own. -/
structure Walk.Records (r : Rules) (t : Tree) (w : Walk) : Prop where
  nodes : w.visited ++ w.ahead = t.nodes
  findings : w.findings = w.visited.flatMap fun u => r.findingsAt u.2
  siblings : w.siblings = sortedNames (w.visited.flatMap fun u => (r.check u.2).siblings)

theorem Walk.records_start (r : Rules) (t : Tree) : (Walk.start t).Records r t where
  nodes := by
    rw [Walk.ahead, Walk.start, List.nil_append, List.flatMap_singleton, below_root]
  findings := rfl
  siblings := rfl

theorem Walk.Records.pass (hRecords : w.Records r t) (h : r.pass? w = some w') :
    w'.Records r t := by
  obtain ⟨u, hAhead, hVisit⟩ := pass?_eq_some h
  have hVisited : w'.visited = w.visited ++ [u] := by rw [hVisit]; rfl
  refine ⟨?_, ?_, ?_⟩
  · rw [hVisited, List.append_assoc, List.singleton_append, ← hAhead, hRecords.nodes]
  · have hFindings : w'.findings = w.findings ++ r.findingsAt u.2 := by rw [hVisit]; rfl
    rw [hVisited, hFindings, hRecords.findings, List.flatMap_append, List.flatMap_singleton]
  · have hSiblings : w'.siblings =
        (r.check u.2).siblings.foldl (fun names n => insertName n names) w.siblings := by
      rw [hVisit]; rfl
    rw [hVisited, hSiblings, hRecords.siblings, List.flatMap_append, List.flatMap_singleton,
      sortedNames, sortedNames, List.foldl_append]

/-- The walk ends with nothing left on the stack. -/
theorem walkOn_records (hRecords : w.Records r t) :
    (r.walkOn w).Records r t ∧ (r.walkOn w).stack = [] := by
  induction w using Rules.walkOn.induct (r := r) with
  | case1 w hPass =>
    have hOver : r.walkOn w = w := by rw [Rules.walkOn]; split <;> simp_all
    rw [hOver]
    exact ⟨hRecords, pass?_eq_none_iff.mp hPass⟩
  | case2 w w' hPass ih =>
    have hOn : r.walkOn w = r.walkOn w' := by rw [Rules.walkOn]; split <;> simp_all
    rw [hOn]
    exact ih (hRecords.pass hPass)

-- ---------------------------------------------------------------------------
-- Names in increasing order
-- ---------------------------------------------------------------------------

theorem mem_insertName_iff {m name : String} (names : List String) :
    m ∈ insertName name names ↔ m = name ∨ m ∈ names := by
  induction names with
  | nil => simp [insertName]
  | cons x rest ih =>
    rw [insertName]
    split
    · simp
    split
    · next hSame => simp [hSame]
    · rw [List.mem_cons, ih, List.mem_cons, or_left_comm]

theorem insertName_pairwise (name : String) {names : List String}
    (h : names.Pairwise (· < ·)) : (insertName name names).Pairwise (· < ·) := by
  induction names with
  | nil => simp [insertName]
  | cons x rest ih =>
    obtain ⟨hFirst, hRest⟩ := List.pairwise_cons.mp h
    rw [insertName]
    split
    · next hBefore =>
      refine List.pairwise_cons.mpr ⟨fun m hMem => ?_, h⟩
      rcases List.mem_cons.mp hMem with rfl | hLater
      · exact hBefore
      · exact hBefore.trans (hFirst m hLater)
    next hNotBefore =>
    split
    · exact h
    · next hOther =>
      have hAfter : x < name := lt_of_le_of_ne (not_lt.mp hNotBefore) (Ne.symm hOther)
      refine List.pairwise_cons.mpr ⟨fun m hMem => ?_, ih hRest⟩
      rcases (mem_insertName_iff rest).mp hMem with rfl | hLater
      · exact hAfter
      · exact hFirst m hLater

/-- Names are put in one by one, each once and in increasing order. -/
theorem foldl_insertName (names : List String) {kept : List String}
    (h : kept.Pairwise (· < ·)) :
    (names.foldl (fun s n => insertName n s) kept).Pairwise (· < ·) ∧
      ∀ m, m ∈ names.foldl (fun s n => insertName n s) kept ↔ m ∈ kept ∨ m ∈ names := by
  induction names generalizing kept with
  | nil => exact ⟨h, by simp⟩
  | cons n rest ih =>
    obtain ⟨hOrder, hMem⟩ := ih (insertName_pairwise n h)
    refine ⟨hOrder, fun m => ?_⟩
    rw [List.foldl_cons, hMem, mem_insertName_iff, List.mem_cons, or_assoc, or_left_comm]

-- ---------------------------------------------------------------------------
-- What the walk comes to
-- ---------------------------------------------------------------------------

/-- When the walk over a tree is over, its record is that of the whole tree. -/
theorem walk_records (r : Rules) (t : Tree) : (r.walk t).Records r t ∧ (r.walk t).stack = [] :=
  walkOn_records (Walk.records_start r t)

theorem walk_visited (r : Rules) (t : Tree) : (r.walk t).visited = t.nodes := by
  obtain ⟨hRecords, hOver⟩ := walk_records r t
  have hNodes := hRecords.nodes
  rwa [Walk.ahead, hOver, List.flatMap_nil, List.append_nil] at hNodes

/-- The analysis of a tree without errors is what the walk with a stack ends with. -/
theorem analyzeTree_eq_walk (hClean : t.label.hasError = false) :
    r.analyzeTree t =
      { problems := (r.walk t).findings.map .violation, siblings := (r.walk t).siblings } := by
  obtain ⟨hRecords, -⟩ := walk_records r t
  have hFindings : (r.walk t).findings = r.findings t := by
    rw [hRecords.findings, walk_visited, Rules.findings, ← map_snd_nodes, List.flatMap_map]
  have hSiblings : (r.walk t).siblings = sortedNames (r.siblings t) := by
    rw [hRecords.siblings, walk_visited, Rules.siblings, ← map_snd_nodes, List.flatMap_map]
  simp only [Rules.analyzeTree, hClean, Bool.false_eq_true, if_false, hFindings, hSiblings]

/-- The siblings are those that some node notes, each once. -/
theorem walk_siblings (r : Rules) (t : Tree) :
    (r.walk t).siblings.Pairwise (· < ·) ∧ ∀ m, m ∈ (r.walk t).siblings ↔
      ∃ u ∈ (r.walk t).visited, m ∈ (r.check u.2).siblings := by
  obtain ⟨hOrder, hMem⟩ := foldl_insertName
    ((r.walk t).visited.flatMap fun u => (r.check u.2).siblings) List.Pairwise.nil
  rw [(walk_records r t).1.siblings, sortedNames]
  exact ⟨hOrder, fun m => by rw [hMem]; simp⟩

/-- If rows do not decrease in document order, neither do the lines of what is found. -/
theorem lines_ascend (hRows : t.RowsAscend) :
    ((r.walk t).findings.map Finding.line).Pairwise (· ≤ ·) := by
  have hLine : ∀ p, ∀ f ∈ r.findingsAt p, f.line = p.node.label.row + 1 := by
    intro p f hMem
    obtain ⟨v, -, rfl⟩ := List.mem_map.mp hMem
    rfl
  rw [(walk_records r t).1.findings, walk_visited, List.pairwise_map, List.pairwise_flatMap]
  constructor
  · -- what is found at one node is found in one line
    refine fun u _ => List.pairwise_of_forall_mem_list fun f hf g hg => ?_
    rw [hLine u.2 f hf, hLine u.2 g hg]
  · refine (rowsAscend_iff.mp hRows).imp fun {u v} hRow f hf g hg => ?_
    rw [hLine u.2 f hf, hLine v.2 g hg]
    exact Nat.succ_le_succ hRow

/--
**The walk misses nothing and reports in source order.** On a tree without errors the walk with a
stack ends. It has then visited what lies at the addresses of the tree and nothing else, in document
order and so each node once; what it has found is what these nodes give on their own, one after the
other; the siblings are those that any of them notes, each once. This is the analysis of the tree,
and its errors are the findings with their lines, which do not decrease if the rows of the tree do
not.
-/
theorem walk_misses_nothing (r : Rules) {t : Tree} (hClean : t.label.hasError = false) :
    (r.walk t).stack = [] ∧
      (∀ a p, (a, p) ∈ (r.walk t).visited ↔ t.at? a = some p) ∧
      ((r.walk t).visited.map Prod.fst).Pairwise (· < ·) ∧
      (r.walk t).findings = (r.walk t).visited.flatMap (fun u => r.findingsAt u.2) ∧
      ((r.walk t).siblings.Pairwise (· < ·) ∧ ∀ m, m ∈ (r.walk t).siblings ↔
        ∃ u ∈ (r.walk t).visited, m ∈ (r.check u.2).siblings) ∧
      r.analyzeTree t =
        { problems := (r.walk t).findings.map .violation, siblings := (r.walk t).siblings } ∧
      (∀ known, ((r.analyzeTree t).resolve known).errors =
        (r.walk t).findings.map fun f =>
          "Line " ++ toString f.line ++ ": " ++ f.violation.message) ∧
      (t.RowsAscend → ((r.walk t).findings.map Finding.line).Pairwise (· ≤ ·)) := by
  obtain ⟨hRecords, hOver⟩ := walk_records r t
  have hAnalysis := analyzeTree_eq_walk (r := r) hClean
  refine ⟨hOver, fun a p => ?_, ?_, hRecords.findings, walk_siblings r t, hAnalysis,
    fun known => ?_, lines_ascend⟩
  · rw [walk_visited, mem_nodes_iff]
  · rw [walk_visited, List.pairwise_map]
    exact nodes_pairwise t
  · rw [hAnalysis, Analysis.resolve, List.map_map]
    rfl

/-- `import socket`, and `eval(x)` in the second line. -/
def twoLines : Tree :=
  .node { kind := "module", text := "import socket\neval(x)\n" }
    [.node { kind := "import_statement", text := "import socket" }
        [.mark "import",
          .node { kind := "dotted_name", field := some "name", text := "socket" }
            [.word "socket"]],
      .node { kind := "expression_statement", row := 1, text := "eval(x)" }
        [.node { kind := "call", row := 1, text := "eval(x)" }
          [.node { kind := "identifier", field := some "function", row := 1, text := "eval" } [],
            .node { kind := "argument_list", field := some "arguments", row := 1, text := "(x)" }
              [.node { kind := "identifier", row := 1, text := "x" } []]]]]

/-- Both lines are reported, the first one first. -/
theorem two_lines_reported :
    let r : Rules := ⟨.standard, "/scripts"⟩
    twoLines.label.hasError = false ∧ twoLines.RowsAscend ∧
      (r.walk twoLines).findings.map Problem.violation =
        [.violation ⟨1, .blockedImport "socket"⟩, .violation ⟨2, .blockedBuiltin "eval"⟩] ∧
      ((r.walk twoLines).findings.map Finding.line).Pairwise (· ≤ ·) := by
  intro r
  obtain ⟨-, -, -, -, -, hAnalysis, -, hLines⟩ := walk_misses_nothing r (t := twoLines) rfl
  have hRows : twoLines.RowsAscend := rowsAscend_iff.mpr (by decide +kernel)
  have hProblems : (r.analyzeTree twoLines).problems =
      [.violation ⟨1, .blockedImport "socket"⟩, .violation ⟨2, .blockedBuiltin "eval"⟩] := by
    decide +kernel
  rw [hAnalysis] at hProblems
  exact ⟨rfl, hRows, hProblems, hLines hRows⟩

end ScriptWarden
