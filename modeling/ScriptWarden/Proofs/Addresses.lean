import Mathlib.Data.List.Nodup
import ScriptWarden.Proofs.Occurrence

/-!
# Addresses

Two nodes of a tree may be the same in everything that is kept of them: the same name written twice
in one line has the same text, the same row, and a parent that is the same as well. What tells nodes
apart is where they are. The address of a node is the way to it from the root, as positions among
children.

The walk that the checks make comes to every address of a named node once.

## Results

* `mem_addresses_iff`, `nodup_addresses` — the addresses of a tree, each once.
* `places_eq` — the walk is the list of what lies at them, in their order.
* `Tree.Lists` — a list names the nodes with a property, each once.
-/

namespace ScriptWarden

/-- The way to a node from another: positions among children. -/
abbrev Address := List Nat

-- ---------------------------------------------------------------------------
-- Going to an address
-- ---------------------------------------------------------------------------

/-- The place of a named child. -/
def Place.child? (p : Place) (i : Nat) : Option Place :=
  (p.node.children[i]?).bind fun c =>
    if c.label.named then some ⟨c, some (p.node, i)⟩ else none

/-- Where an address leads from a place. -/
def Place.at? : Place → Address → Option Place
  | p, [] => some p
  | p, i :: rest => (p.child? i).bind fun q => q.at? rest

/-- The place at an address of a tree. -/
def Tree.at? (t : Tree) (a : Address) : Option Place := (⟨t, none⟩ : Place).at? a

theorem child?_eq_some_iff {p q : Place} {i : Nat} :
    p.child? i = some q ↔ ∃ c, p.node.children[i]? = some c ∧ c.label.named = true ∧
      q = ⟨c, some (p.node, i)⟩ := by
  rw [Place.child?, Option.bind_eq_some_iff]
  constructor
  · rintro ⟨c, hAt, hChild⟩
    split at hChild
    · next hNamed => exact ⟨c, hAt, hNamed, (Option.some.inj hChild).symm⟩
    · cases hChild
  · rintro ⟨c, hAt, hNamed, rfl⟩
    exact ⟨c, hAt, if_pos hNamed⟩

theorem at?_append (p : Place) (a b : Address) : p.at? (a ++ b) = (p.at? a).bind (·.at? b) := by
  induction a generalizing p with
  | nil => rfl
  | cons i rest ih =>
    rw [List.cons_append, Place.at?, Place.at?]
    cases p.child? i with
    | none => rfl
    | some q => exact ih q

/-- The place of a child is one step further. -/
theorem at?_concat {t : Tree} {a : Address} {p : Place} (h : t.at? a = some p) (i : Nat) :
    t.at? (a ++ [i]) = p.child? i := by
  have hRoot : (⟨t, none⟩ : Place).at? a = some p := h
  rw [Tree.at?, at?_append, hRoot]
  show (p.child? i).bind some = p.child? i
  cases p.child? i <;> rfl

/-- What lies at an address occurs. -/
theorem occurs_of_at? {t : Tree} {p : Place} {a : Address} (h : t.at? a = some p) :
    t.Occurs p := by
  have hFrom : ∀ (a : Address) (q : Place), t.Occurs q → q.at? a = some p → t.Occurs p := by
    intro a
    induction a with
    | nil =>
      rintro q hOccurs ⟨⟩
      exact hOccurs
    | cons i rest ih =>
      intro q hOccurs hAt
      obtain ⟨q', hChild, hRest⟩ := Option.bind_eq_some_iff.mp hAt
      obtain ⟨c, hHere, hNamed, rfl⟩ := child?_eq_some_iff.mp hChild
      exact ih _ (.child hOccurs hHere hNamed) hRest
  exact hFrom a ⟨t, none⟩ .root h

-- ---------------------------------------------------------------------------
-- The addresses of a tree
-- ---------------------------------------------------------------------------

mutual

/-- The addresses of the root and of the named nodes below it, in document order. -/
def Tree.addresses : Tree → List Address
  | .node _ cs => [] :: Tree.addressesOfAll 0 cs

/-- The addresses in a list of siblings, whose first one has a given position. -/
def Tree.addressesOfAll (i : Nat) : List Tree → List Address
  | [] => []
  | c :: rest =>
    (if c.label.named then (Tree.addresses c).map (i :: ·) else []) ++
      Tree.addressesOfAll (i + 1) rest

end

theorem mem_addressesOfAll_iff {a : Address} (cs : List Tree) (i : Nat) :
    a ∈ Tree.addressesOfAll i cs ↔ ∃ j c b, cs[j]? = some c ∧ c.label.named = true ∧
      b ∈ c.addresses ∧ a = (i + j) :: b := by
  induction cs generalizing i with
  | nil => simp [Tree.addressesOfAll]
  | cons c rest ih =>
    rw [Tree.addressesOfAll, List.mem_append, ih]
    constructor
    · rintro (hHere | ⟨j, d, b, hAt, hNamed, hMem, rfl⟩)
      · split at hHere
        · next hNamed =>
          obtain ⟨b, hMem, rfl⟩ := List.mem_map.mp hHere
          exact ⟨0, c, b, rfl, hNamed, hMem, rfl⟩
        · cases hHere
      · exact ⟨j + 1, d, b, hAt, hNamed, hMem, by rw [show i + 1 + j = i + (j + 1) by omega]⟩
    · rintro ⟨j, d, b, hAt, hNamed, hMem, rfl⟩
      cases j with
      | zero =>
        obtain rfl : c = d := by simpa using hAt
        rw [if_pos hNamed]
        exact Or.inl (List.mem_map_of_mem hMem)
      | succ j =>
        refine Or.inr ⟨j, d, b, by simpa using hAt, hNamed, hMem, ?_⟩
        rw [show i + (j + 1) = i + 1 + j by omega]

/-- The addresses are those that lead to something. -/
theorem mem_addresses_iff (t : Tree) : ∀ (parent : Option (Tree × Nat)) (a : Address),
    a ∈ t.addresses ↔ ((⟨t, parent⟩ : Place).at? a).isSome = true := by
  induction t using Tree.inductionOn with
  | node l cs ih =>
    intro parent a
    rw [Tree.addresses, List.mem_cons, mem_addressesOfAll_iff]
    cases a with
    | nil => simp [Place.at?]
    | cons i rest =>
      rw [Place.at?]
      constructor
      · rintro (hEmpty | ⟨j, c, b, hAt, hNamed, hMem, hSame⟩)
        · cases hEmpty
        · obtain ⟨rfl, rfl⟩ : i = j ∧ rest = b := by simpa using hSame
          have hChild := child?_eq_some_iff (p := ⟨.node l cs, parent⟩).mpr ⟨c, hAt, hNamed, rfl⟩
          rw [hChild]
          exact (ih c (List.mem_of_getElem? hAt) _ rest).mp hMem
      · intro hSome
        obtain ⟨p, hAt⟩ := Option.isSome_iff_exists.mp hSome
        obtain ⟨q, hChild, hRest⟩ := Option.bind_eq_some_iff.mp hAt
        obtain ⟨c, hHere, hNamed, rfl⟩ := child?_eq_some_iff.mp hChild
        refine Or.inr ⟨i, c, rest, hHere, hNamed, ?_, by rw [Nat.zero_add]⟩
        exact (ih c (List.mem_of_getElem? hHere) _ rest).mpr (by rw [hRest]; rfl)

theorem nodup_addressesOfAll {cs : List Tree} (h : ∀ c ∈ cs, c.addresses.Nodup) (i : Nat) :
    (Tree.addressesOfAll i cs).Nodup := by
  induction cs generalizing i with
  | nil => exact List.nodup_nil
  | cons c rest ih =>
    rw [Tree.addressesOfAll]
    refine List.Nodup.append ?_ (ih (fun d hd => h d (List.mem_cons_of_mem _ hd)) (i + 1)) ?_
    · split
      · exact (h c List.mem_cons_self).map fun _ _ hSame => List.tail_eq_of_cons_eq hSame
      · exact List.nodup_nil
    · -- the later siblings have later positions
      intro a hHere hLater
      obtain ⟨j, d, b, -, -, -, rfl⟩ := (mem_addressesOfAll_iff rest (i + 1)).mp hLater
      split at hHere
      · obtain ⟨b', -, hSame⟩ := List.mem_map.mp hHere
        have hIndex := List.head_eq_of_cons_eq hSame
        omega
      · cases hHere

theorem nodup_addresses (t : Tree) : t.addresses.Nodup := by
  induction t using Tree.inductionOn with
  | node l cs ih =>
    rw [Tree.addresses, List.nodup_cons]
    refine ⟨fun hMem => ?_, nodup_addressesOfAll ih 0⟩
    obtain ⟨j, c, b, -, -, -, hSame⟩ := (mem_addressesOfAll_iff cs 0).mp hMem
    cases hSame

-- ---------------------------------------------------------------------------
-- The walk
-- ---------------------------------------------------------------------------

theorem placesOfAll_eq {t : Tree} {parent : Option (Tree × Nat)} (cs : List Tree) (i : Nat)
    (hAll : ∀ j c, cs[j]? = some c → t.children[i + j]? = some c)
    (hEach : ∀ c ∈ cs, ∀ above, (Tree.placesBelow above c).map some =
      c.addresses.map (⟨c, above⟩ : Place).at?) :
    (Tree.placesOfAll t i cs).map some =
      (Tree.addressesOfAll i cs).map (⟨t, parent⟩ : Place).at? := by
  induction cs generalizing i with
  | nil => rfl
  | cons c rest ih =>
    have hHere : t.children[i]? = some c := by simpa using hAll 0 c rfl
    rw [Tree.placesOfAll, Tree.addressesOfAll, List.map_append, List.map_append]
    congr 1
    · split
      · next hNamed =>
        have hChild : (⟨t, parent⟩ : Place).child? i = some ⟨c, some (t, i)⟩ :=
          child?_eq_some_iff.mpr ⟨c, hHere, hNamed, rfl⟩
        rw [hEach c List.mem_cons_self, List.map_map]
        refine List.map_congr_left fun b _ => ?_
        rw [Function.comp_apply, Place.at?, hChild]
        rfl
      · rfl
    · refine ih (i + 1) (fun j d hd => ?_) fun d hd => hEach d (List.mem_cons_of_mem _ hd)
      rw [show i + 1 + j = i + (j + 1) by omega]
      exact hAll (j + 1) d (by simpa using hd)

theorem placesBelow_eq (t : Tree) : ∀ parent : Option (Tree × Nat),
    (Tree.placesBelow parent t).map some = t.addresses.map (⟨t, parent⟩ : Place).at? := by
  induction t using Tree.inductionOn with
  | node l cs ih =>
    intro parent
    rw [Tree.placesBelow, Tree.addresses, List.map_cons, List.map_cons]
    congr 1
    refine placesOfAll_eq cs 0 (fun j c hc => ?_) ih
    rwa [Nat.zero_add]

/-- The walk lists what lies at the addresses of the tree, in their order. -/
theorem places_eq (t : Tree) : t.places.map some = t.addresses.map t.at? := placesBelow_eq t none

-- ---------------------------------------------------------------------------
-- Nodes
-- ---------------------------------------------------------------------------

/-- A node of a tree: an address, and what lies there. -/
abbrev Node := Address × Place

/-- The nodes of a tree, in document order. -/
def Tree.nodes (t : Tree) : List Node := t.addresses.filterMap fun a => (t.at? a).map (a, ·)

/-- The nodes of a tree with a property are listed, each once. -/
structure Tree.Lists (t : Tree) (Has : Place → Prop) (nodes : List Node) : Prop where
  distinct : (nodes.map Prod.fst).Nodup
  mem : ∀ {a : Address} {p : Place}, (a, p) ∈ nodes ↔ t.at? a = some p ∧ Has p

/-- What lies at an address below the root is a child of what lies one step above. -/
theorem at?_parent {t parent : Tree} {p : Place} {a : Address} {i : Nat} (h : t.at? a = some p)
    (hParent : p.parent = some (parent, i)) :
    ∃ b q, a = b ++ [i] ∧ t.at? b = some q ∧ q.node = parent ∧ q.child? i = some p := by
  obtain rfl | ⟨b, j, rfl⟩ := List.eq_nil_or_concat a
  · -- the root has no parent
    obtain rfl : ⟨t, none⟩ = p := Option.some.inj h
    cases hParent
  · rw [List.concat_eq_append, Tree.at?, at?_append] at h
    obtain ⟨q, hAbove, hLast⟩ := Option.bind_eq_some_iff.mp h
    obtain ⟨p', hChild, hHere⟩ := Option.bind_eq_some_iff.mp hLast
    obtain rfl : p' = p := Option.some.inj hHere
    obtain ⟨c, -, -, rfl⟩ := child?_eq_some_iff.mp hChild
    obtain ⟨rfl, rfl⟩ : q.node = parent ∧ j = i := by simpa using hParent
    exact ⟨b, q, List.concat_eq_append, hAbove, rfl, hChild⟩

theorem mem_nodes_iff {t : Tree} {a : Address} {p : Place} :
    (a, p) ∈ t.nodes ↔ t.at? a = some p := by
  rw [Tree.nodes, List.mem_filterMap]
  constructor
  · rintro ⟨b, -, hAt⟩
    obtain ⟨q, hThere, hSame⟩ := Option.map_eq_some_iff.mp hAt
    obtain ⟨rfl, rfl⟩ : b = a ∧ q = p := by simpa using hSame
    exact hThere
  · intro hAt
    refine ⟨a, (mem_addresses_iff t none a).mpr ?_, by rw [hAt]; rfl⟩
    exact Option.isSome_iff_exists.mpr ⟨p, hAt⟩

/-- No address is listed twice. -/
theorem nodup_map_fst_nodes (t : Tree) : (t.nodes.map Prod.fst).Nodup := by
  rw [Tree.nodes, List.map_filterMap]
  refine (nodup_addresses t).filterMap fun a a' b hHere hThere => ?_
  simp only [Option.mem_def, Option.map_eq_some_iff] at hHere hThere
  obtain ⟨-, ⟨p, -, rfl⟩, rfl⟩ := hHere
  obtain ⟨-, ⟨q, -, rfl⟩, hSame⟩ := hThere
  exact hSame.symm

/-- The nodes are what the walk lists, with their addresses. -/
theorem map_snd_nodes (t : Tree) : t.nodes.map Prod.snd = t.places := by
  have hSome : t.nodes.map Prod.snd = (t.addresses.map t.at?).filterMap id := by
    rw [Tree.nodes, List.map_filterMap, List.filterMap_map]
    congr 1
    funext a
    simp only [Function.comp_apply, id_eq, Option.map_map]
    cases t.at? a <;> rfl
  rw [hSome, ← places_eq, List.filterMap_map]
  exact List.filterMap_some

-- ---------------------------------------------------------------------------
-- Lists of nodes
-- ---------------------------------------------------------------------------

namespace Tree.Lists

variable {t : Tree} {Has Has' : Place → Prop} {ns ms : List Node}

theorem nodes (t : Tree) : t.Lists (fun _ => True) t.nodes where
  distinct := nodup_map_fst_nodes t
  mem := by
    intro a p
    rw [mem_nodes_iff, and_true]

theorem filter (h : t.Lists Has ns) (check : Place → Bool) :
    t.Lists (fun p => Has p ∧ check p = true) (ns.filter fun u => check u.2) where
  distinct := h.distinct.sublist (List.filter_sublist.map Prod.fst)
  mem := by
    intro a p
    rw [List.mem_filter, h.mem, and_assoc]

/-- Two lists of nodes that have nothing in common. -/
theorem append (h : t.Lists Has ns) (h' : t.Lists Has' ms) (hApart : ∀ p, Has p → ¬ Has' p) :
    t.Lists (fun p => Has p ∨ Has' p) (ns ++ ms) where
  distinct := by
    rw [List.map_append]
    refine h.distinct.append h'.distinct fun a hHere hThere => ?_
    obtain ⟨⟨b, p⟩, hLeft, rfl⟩ := List.mem_map.mp hHere
    obtain ⟨⟨b', q⟩, hRight, hSame⟩ := List.mem_map.mp hThere
    obtain rfl : b' = b := hSame
    obtain ⟨hAt, hHas⟩ := h.mem.mp hLeft
    obtain ⟨hAt', hHas'⟩ := h'.mem.mp hRight
    obtain rfl : p = q := Option.some.inj (hAt.symm.trans hAt')
    exact hApart p hHas hHas'
  mem := by
    intro a p
    rw [List.mem_append, h.mem, h'.mem, and_or_left]

theorem congr (h : t.Lists Has ns) (hSame : ∀ p, t.Occurs p → (Has p ↔ Has' p)) :
    t.Lists Has' ns where
  distinct := h.distinct
  mem := by
    intro a p
    rw [h.mem]
    exact and_congr_right fun hAt => hSame p (occurs_of_at? hAt)

end Tree.Lists

end ScriptWarden
