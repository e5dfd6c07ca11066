import Mathlib.Data.List.Nodup
import ScriptWarden.Proofs.StringLiterals

/-!
# Arguments

A call lists values, keywords with values, and splats, with comments anywhere between them. The
checks sort this list once: what is no keyword, splat or comment is an argument by position, so that
an argument keeps its position only where no splat stands before it.

What reaches the function is another matter. A splat of a list brings any number of values at its
place, a splat of a dictionary any keywords, and a parameter takes the value at its position or the
one with its keyword. `Passes` lists the ways in which this may come out.

## Results

* `stringLiteral?_eq_some_iff` — which nodes the checks read as literals, and as which text.
* `positional_eq`, `keywords_eq` — the checks' arguments, from what is listed.
* `Passes.take_positional`, `Passes.mem_keywords_iff` — which values that reach the function are
  listed in the call.
* `parameter?_of_takes` — what a parameter takes is the argument that the checks take for it, unless
  a splat has brought it or a value before it.
-/

namespace ScriptWarden

-- ---------------------------------------------------------------------------
-- Literals
-- ---------------------------------------------------------------------------

/-- A node is a plain literal with some text between its quotes: it has no part to be filled in, its
opening announces none, and its contents come to the text. -/
structure Tree.PlainLiteral (t : Tree) (text : String) : Prop where
  kind : t.kind = "string"
  whole : ∀ c ∈ t.children, c.kind ≠ "interpolation"
  opening : ∀ c ∈ t.children, c.kind = "string_start" → ∀ letter ∈ c.text.toList,
    letter ≠ 'f' ∧ letter ≠ 'F'
  text : String.join ((t.children.filter (·.kind == "string_content")).map Tree.text) = text

theorem stringLiteral?_eq_some_iff {t : Tree} {text : String} :
    t.stringLiteral? = some text ↔ t.PlainLiteral text := by
  have hParts : (t.children.any fun c => c.kind == "interpolation" ||
      (c.kind == "string_start" && c.text.toList.any fun ch => ch == 'f' || ch == 'F')) = false ↔
        (∀ c ∈ t.children, c.kind ≠ "interpolation") ∧ ∀ c ∈ t.children,
          c.kind = "string_start" → ∀ letter ∈ c.text.toList, letter ≠ 'f' ∧ letter ≠ 'F' := by
    rw [List.any_eq_false, ← forall₂_and]
    refine forall₂_congr fun c _ => ?_
    simp
  rw [Tree.stringLiteral?]
  constructor
  · intro h
    split at h
    · next hPlain =>
      rw [Bool.and_eq_true, beq_iff_eq, Bool.not_eq_true'] at hPlain
      obtain ⟨hWhole, hOpening⟩ := hParts.mp hPlain.2
      exact ⟨hPlain.1, hWhole, hOpening, Option.some.inj h⟩
    · cases h
  · rintro ⟨hKind, hWhole, hOpening, hText⟩
    rw [if_pos, hText]
    rw [Bool.and_eq_true, beq_iff_eq, Bool.not_eq_true']
    exact ⟨hKind, hParts.mpr ⟨hWhole, hOpening⟩⟩

-- ---------------------------------------------------------------------------
-- What a call lists
-- ---------------------------------------------------------------------------

/-- What stands between the brackets of a call, in order and without comments. -/
def Tree.items (call : Tree) : List Tree :=
  match call.child? "arguments" with
  | some list =>
    if list.kind == "argument_list" then list.namedChildren.filter (·.kind != "comment") else []
  | none => []

/-- Whether an item is a splat, of a list or of a dictionary. -/
def Tree.isSplat (item : Tree) : Bool :=
  item.kind == "list_splat" || item.kind == "dictionary_splat"

/-- Whether an item is a value without a keyword. -/
def Tree.isValue (item : Tree) : Bool := item.kind != "keyword_argument" && !item.isSplat

/-- The keyword of an item and its value. -/
def Tree.keyword? (item : Tree) : Option (String × Tree) :=
  if item.kind == "keyword_argument" then
    match item.child? "name", item.child? "value" with
    | some name, some value => some (name.text, value)
    | _, _ => none
  else none

/-- The arguments by position are the values without a keyword. -/
theorem positional_eq (call : Tree) :
    call.arguments.positional = call.items.filter Tree.isValue := by
  cases hList : call.child? "arguments" with
  | none => simp only [Tree.arguments, Tree.items, hList, List.filter_nil]
  | some list =>
    by_cases hKind : (list.kind == "argument_list") = true
    · simp only [Tree.arguments, Tree.items, hList, if_pos hKind, List.filter_filter]
      refine List.filter_congr fun item _ => ?_
      simp only [Tree.isValue, Tree.isSplat, List.contains_cons, List.contains_nil, Bool.or_false,
        Bool.not_or, bne]
      ac_rfl
    · simp only [Tree.arguments, Tree.items, hList, if_neg hKind, List.filter_nil]

/-- The arguments by keyword are the items that have one. -/
theorem keywords_eq (call : Tree) :
    call.arguments.keywords = call.items.filterMap Tree.keyword? := by
  cases hList : call.child? "arguments" with
  | none => simp only [Tree.arguments, Tree.items, hList, List.filterMap_nil]
  | some list =>
    by_cases hKind : (list.kind == "argument_list") = true
    · simp only [Tree.arguments, Tree.items, hList, if_pos hKind, List.filterMap_filter]
      refine List.filterMap_congr fun item _ => ?_
      by_cases hKeyword : item.kind = "keyword_argument"
      · simp only [Tree.keyword?, hKeyword]
        rfl
      · simp [Tree.keyword?, hKeyword]
    · simp only [Tree.arguments, Tree.items, hList, if_neg hKind, List.filterMap_nil]

/-- A call lists a value without a keyword. -/
def Tree.ListsValue (call value : Tree) : Prop := value ∈ call.items ∧ value.isValue = true

/-- A value is the first that a call lists without a keyword. -/
def Tree.ListsFirst (call value : Tree) : Prop :=
  ∃ before after, call.items = before ++ value :: after ∧ value.isValue = true ∧
    ∀ item ∈ before, item.isValue = false

theorem mem_positional_iff {call value : Tree} :
    value ∈ call.arguments.positional ↔ call.ListsValue value := by
  rw [positional_eq, List.mem_filter, Tree.ListsValue]

theorem head?_positional_iff {call value : Tree} :
    call.arguments.positional.head? = some value ↔ call.ListsFirst value := by
  rw [positional_eq, List.head?_filter, List.find?_eq_some_iff_append, Tree.ListsFirst]
  simp only [Bool.not_eq_true']
  constructor
  · rintro ⟨hValue, before, after, hItems, hBefore⟩
    exact ⟨before, after, hItems, hValue, hBefore⟩
  · rintro ⟨before, after, hItems, hValue, hBefore⟩
    exact ⟨hValue, before, after, hItems, hBefore⟩

-- ---------------------------------------------------------------------------
-- What reaches the function
-- ---------------------------------------------------------------------------

/-- A value that reaches a function: one that is written in the call, or one that a splat brings and
that is not seen there. -/
inductive Passed where
  | written (value : Tree)
  | unseen

/-- The ways in which what a call lists may reach the function, as values by position and by
keyword. -/
inductive Passes : List Tree → List Passed → List (String × Passed) → Prop
  | nothing : Passes [] [] []
  | value {item : Tree} {items : List Tree} {ps : List Passed} {ks : List (String × Passed)} :
      item.isValue = true → Passes items ps ks → Passes (item :: items) (.written item :: ps) ks
  | keyword {item value : Tree} {name : String} {items : List Tree} {ps : List Passed}
      {ks : List (String × Passed)} : item.keyword? = some (name, value) → Passes items ps ks →
      Passes (item :: items) ps ((name, .written value) :: ks)
  | list {item : Tree} {items : List Tree} {ps : List Passed} {ks : List (String × Passed)}
      (count : Nat) : item.kind = "list_splat" → Passes items ps ks →
      Passes (item :: items) (List.replicate count .unseen ++ ps) ks
  | dictionary {item : Tree} {items : List Tree} {ps : List Passed} {ks : List (String × Passed)}
      (names : List String) : item.kind = "dictionary_splat" → Passes items ps ks →
      Passes (item :: items) ps (names.map (·, .unseen) ++ ks)

/-- What a parameter takes: the value at its position, or else the one with its keyword. A call that
gives it both ways is refused. -/
inductive Takes (ps : List Passed) (ks : List (String × Passed)) (position : Nat)
    (keyword : String) : Option Passed → Prop
  | position {v : Passed} : ps[position]? = some v → keyword ∉ ks.map Prod.fst →
      Takes ps ks position keyword (some v)
  | keyword {v : Passed} : ps[position]? = none → (keyword, v) ∈ ks →
      Takes ps ks position keyword (some v)
  | nothing : ps[position]? = none → keyword ∉ ks.map Prod.fst →
      Takes ps ks position keyword none

variable {items : List Tree} {ps : List Passed} {ks : List (String × Passed)}

theorem isValue_of_keyword? {item : Tree} {entry : String × Tree}
    (h : item.keyword? = some entry) : item.isValue = false := by
  rw [Tree.keyword?] at h
  split at h
  · next hKind => simp_all [Tree.isValue]
  · cases h

theorem isValue_of_isSplat {item : Tree} (h : item.isSplat = true) : item.isValue = false := by
  simp [Tree.isValue, h]

theorem keyword?_of_isValue {item : Tree} (h : item.isValue = true) : item.keyword? = none := by
  rw [← Option.not_isSome_iff_eq_none, Option.isSome_iff_exists]
  rintro ⟨entry, hEntry⟩
  simp [isValue_of_keyword? hEntry] at h

theorem keyword?_of_isSplat {item : Tree} (h : item.isSplat = true) : item.keyword? = none := by
  rw [Tree.isSplat, Bool.or_eq_true, beq_iff_eq, beq_iff_eq] at h
  rcases h with h | h <;> simp [Tree.keyword?, h]

theorem isSplat_of_list {item : Tree} (h : item.kind = "list_splat") : item.isSplat = true := by
  simp [Tree.isSplat, h]

theorem isSplat_of_dictionary {item : Tree} (h : item.kind = "dictionary_splat") :
    item.isSplat = true := by
  simp [Tree.isSplat, h]

/-- A splat is no value by position. -/
theorem filter_isValue_splat {item : Tree} (h : item.isSplat = true) (items : List Tree) :
    (item :: items).filter Tree.isValue = items.filter Tree.isValue :=
  List.filter_cons_of_neg (by simp [isValue_of_isSplat h])

/-- A splat has no keyword that is seen. -/
theorem filterMap_keyword?_splat {item : Tree} (h : item.isSplat = true) (items : List Tree) :
    (item :: items).filterMap Tree.keyword? = items.filterMap Tree.keyword? :=
  List.filterMap_cons_none (keyword?_of_isSplat h)

/-- What has a keyword is no value by position. -/
theorem filter_isValue_keyword {item : Tree} {entry : String × Tree}
    (h : item.keyword? = some entry) (items : List Tree) :
    (item :: items).filter Tree.isValue = items.filter Tree.isValue :=
  List.filter_cons_of_neg (by simp [isValue_of_keyword? h])

/-- The values by position up to the first one that is not seen are those that are listed. -/
theorem Passes.take_positional (h : Passes items ps ks) (n : Nat)
    (hSeen : .unseen ∉ ps.take n) :
    ps.take n = ((items.filter Tree.isValue).take n).map .written := by
  induction h generalizing n with
  | nothing => simp
  | value hValue _ ih =>
    cases n with
    | zero => simp
    | succ n =>
      rw [List.take_succ_cons, List.mem_cons, not_or] at hSeen
      rw [List.filter_cons_of_pos hValue, List.take_succ_cons, List.take_succ_cons, List.map_cons,
        ih n hSeen.2]
  | keyword hKeyword _ ih =>
    rw [filter_isValue_keyword hKeyword]
    exact ih n hSeen
  | list count hSplat _ ih =>
    rw [filter_isValue_splat (isSplat_of_list hSplat)]
    cases count with
    | zero => exact ih n hSeen
    | succ count =>
      -- a value that the splat brings would be among the first ones
      cases n with
      | zero => simp
      | succ n => simp [List.replicate_succ] at hSeen
  | dictionary names hSplat _ ih =>
    rw [filter_isValue_splat (isSplat_of_dictionary hSplat)]
    exact ih n hSeen

/-- Every value that is listed reaches the function. -/
theorem Passes.length_positional_le (h : Passes items ps ks) :
    (items.filter Tree.isValue).length ≤ ps.length := by
  induction h with
  | nothing => simp
  | value hValue _ ih =>
    rw [List.filter_cons_of_pos hValue]
    exact Nat.succ_le_succ ih
  | keyword hKeyword _ ih =>
    rw [filter_isValue_keyword hKeyword]
    exact ih
  | list count hSplat _ ih =>
    rw [filter_isValue_splat (isSplat_of_list hSplat), List.length_append]
    omega
  | dictionary names hSplat _ ih =>
    rw [filter_isValue_splat (isSplat_of_dictionary hSplat)]
    exact ih

/-- The values by keyword that are seen are those that are listed. -/
theorem Passes.mem_keywords_iff (h : Passes items ps ks) {name : String} {v : Tree} :
    (name, .written v) ∈ ks ↔ (name, v) ∈ items.filterMap Tree.keyword? := by
  induction h with
  | nothing => simp
  | value hValue _ ih => rw [List.filterMap_cons_none (keyword?_of_isValue hValue), ih]
  | keyword hKeyword _ ih =>
    rw [List.filterMap_cons_some hKeyword, List.mem_cons, List.mem_cons, ih]
    simp
  | list count hSplat _ ih =>
    rw [filterMap_keyword?_splat (isSplat_of_list hSplat), ih]
  | dictionary names hSplat _ ih =>
    rw [filterMap_keyword?_splat (isSplat_of_dictionary hSplat), List.mem_append, ih]
    simp

/-- Without splats everything that reaches the function is seen. -/
theorem Passes.seen_of_no_splat (h : Passes items ps ks)
    (hNone : ∀ item ∈ items, item.isSplat = false) :
    .unseen ∉ ps ∧ ∀ name, (name, .unseen) ∉ ks := by
  induction h with
  | nothing => simp
  | value _ _ ih =>
    obtain ⟨hPositional, hKeywords⟩ := ih fun item hMem => hNone item (List.mem_cons_of_mem _ hMem)
    exact ⟨by simpa using hPositional, hKeywords⟩
  | keyword _ _ ih =>
    obtain ⟨hPositional, hKeywords⟩ := ih fun item hMem => hNone item (List.mem_cons_of_mem _ hMem)
    exact ⟨hPositional, fun name => by simpa using hKeywords name⟩
  | list _ hSplat _ _ | dictionary _ hSplat _ _ =>
    have hOther := hNone _ List.mem_cons_self
    simp [Tree.isSplat, hSplat] at hOther

/-- A parameter takes a value that is not seen only where a splat is listed. -/
theorem exists_splat_of_takes_unseen (h : Passes items ps ks) {position : Nat} {name : String}
    (hTakes : Takes ps ks position name (some .unseen)) : ∃ item ∈ items, item.isSplat = true := by
  by_contra hNone
  obtain ⟨hPositional, hKeywords⟩ := h.seen_of_no_splat (by simpa using hNone)
  cases hTakes with
  | position hAt _ => exact hPositional (List.mem_of_getElem? hAt)
  | keyword _ hMem => exact hKeywords name hMem

/-- The argument that the checks take for a parameter: the one at a position, or else the first
with a keyword. -/
def Arguments.parameter? (a : Arguments) (position : Nat) (keyword : String) : Option Tree :=
  a.positional[position]? <|> a.keyword? keyword

/-- With no keyword given twice, the first argument with a keyword is the only one. -/
theorem keyword?_of_passes {call : Tree} (h : Passes call.items ps ks)
    (hOnce : (ks.map Prod.fst).Nodup) {name : String} {v : Tree}
    (hMem : (name, .written v) ∈ ks) : call.arguments.keyword? name = some v := by
  have hListed := h.mem_keywords_iff.mp hMem
  rw [Arguments.keyword?, keywords_eq]
  cases hFound : (call.items.filterMap Tree.keyword?).find? (·.1 == name) with
  | none =>
    have hOther := List.find?_eq_none.mp hFound _ hListed
    simp at hOther
  | some entry =>
    obtain ⟨name', v'⟩ := entry
    obtain rfl : name' = name := by simpa using List.find?_some hFound
    have hMem' := h.mem_keywords_iff.mpr (List.mem_of_find?_eq_some hFound)
    have hSame := List.inj_on_of_nodup_map hOnce hMem' hMem rfl
    simpa using hSame

/-- What a parameter takes is what the checks take for it, if it is written in the call and no splat
brings a value by position before it. -/
theorem parameter?_of_takes {call : Tree} (h : Passes call.items ps ks)
    (hOnce : (ks.map Prod.fst).Nodup) {position : Nat} {name : String} {v : Tree}
    (hTakes : Takes ps ks position name (some (.written v))) (hSeen : .unseen ∉ ps.take position) :
    call.arguments.parameter? position name = some v := by
  rw [Arguments.parameter?]
  cases hTakes with
  | position hAt _ =>
    have hFirst : .unseen ∉ ps.take (position + 1) := by
      rw [List.take_add_one, hAt, List.mem_append, not_or]
      exact ⟨hSeen, by simp⟩
    have hSame := congrArg (·[position]?) (h.take_positional _ hFirst)
    simp only [List.getElem?_map, List.getElem?_take_of_lt (Nat.lt_succ_self position),
      hAt] at hSame
    obtain ⟨v', hListed, hValue⟩ := Option.map_eq_some_iff.mp hSame.symm
    obtain rfl : v' = v := by simpa using hValue
    rw [positional_eq, hListed]
    rfl
  | keyword hNone hMem =>
    have hShort : call.arguments.positional[position]? = none := by
      rw [List.getElem?_eq_none_iff, positional_eq]
      exact h.length_positional_le.trans (List.getElem?_eq_none_iff.mp hNone)
    rw [hShort, keyword?_of_passes h hOnce hMem]
    rfl

-- ---------------------------------------------------------------------------
-- Calls written out
-- ---------------------------------------------------------------------------

/-- A literal in single quotes. -/
def quoted (body : String) : Tree := (⟨"", "'", body⟩ : StringLiteral).node

theorem quoted_plain (body : String) : (quoted body).PlainLiteral body :=
  stringLiteral?_eq_some_iff.mp
    (stringLiteral?_of_spells (StringLiteral.node_spells (by simp) (by simp)))

/-- An attribute of an object. -/
def Tree.member (object : Tree) (name : String) : Tree :=
  .node { kind := "attribute", text := object.text ++ "." ++ name }
    [object.fillField (some "object"), .mark ".", .word name (some "attribute")]

/-- A keyword with its value. -/
def Tree.keywordItem (name : String) (value : Tree) : Tree :=
  .node { kind := "keyword_argument", text := name ++ "=" ++ value.text }
    [.word name (some "name"), .mark "=", value.fillField (some "value")]

/-- A splat of a list. -/
def Tree.listSplat (list : Tree) : Tree :=
  .node { kind := "list_splat", text := "*" ++ list.text } [.mark "*", list]

/-- A splat of a dictionary. -/
def Tree.dictionarySplat (dictionary : Tree) : Tree :=
  .node { kind := "dictionary_splat", text := "**" ++ dictionary.text } [.mark "**", dictionary]

/-- A call of a function with what it lists. -/
def Tree.callOf (function : Tree) (items : List Tree) : Tree :=
  let listed := "(" ++ ", ".intercalate (items.map Tree.text) ++ ")"
  .node { kind := "call", text := function.text ++ listed }
    [function.fillField (some "function"),
      .node { kind := "argument_list", field := some "arguments", text := listed }
        (.mark "(" :: items.intersperse (.mark ",") ++ [.mark ")"])]

/-- An expression as a statement. -/
def Tree.statement (expression : Tree) : Tree :=
  .node { kind := "expression_statement", text := expression.text } [expression]

/-- The expression that is the one statement of a script, at its place. -/
def Tree.onlyExpression (expression : Tree) : Place := ⟨expression, some (expression.statement, 0)⟩

theorem occurs_onlyExpression {expression : Tree} (hNamed : expression.label.named = true) :
    (Tree.script expression.statement).Occurs expression.onlyExpression :=
  .child (occurs_onlyStatement expression.statement rfl) rfl hNamed

end ScriptWarden
