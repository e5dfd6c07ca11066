import ScriptWarden.Proofs.Files.Listings
import ScriptWarden.Proofs.Rules

/-!
# Directories of regular files

A scripts directory in which everything is a regular file: no directory in it and no link. Nothing
else is asked of it; there may be files that are no scripts, drafts that were left behind, files with
several names and empty ones. Of the host it is asked that it lists no name twice, finds each listed
script by its path, and gives a new file an identity of its own.

In such a directory the scripts that are listed are those whose files can be looked at, and an upload
that is saved adds its script to them.

## Results

* `Regular.mem_scriptsIn`, `Regular.shows` — what is listed can be looked at, and nothing else.
* `Regular.scriptsIn_nodup` — no script is listed twice.
* `Regular.placed` — what a saved upload makes of the directory.
-/

namespace ScriptWarden

namespace Files

variable {fs : Files}

-- ---------------------------------------------------------------------------
-- Entries that are listed once
-- ---------------------------------------------------------------------------

/-- Every place has one entry at most. -/
def OnePerPlace (fs : Files) : Prop := (fs.entries.map Prod.fst).Nodup

theorem onePerPlace_clearEntry (h : fs.OnePerPlace) (p : FilePlace) :
    (fs.clearEntry p).OnePerPlace :=
  h.sublist (List.filter_sublist.map Prod.fst)

theorem onePerPlace_setEntry (h : fs.OnePerPlace) (p : FilePlace) (e : Entry) :
    (fs.setEntry p e).OnePerPlace := by
  refine List.nodup_cons.mpr ⟨?_, onePerPlace_clearEntry h p⟩
  rintro hMem
  obtain ⟨x, hFiltered, hPlace⟩ := List.mem_map.mp hMem
  exact absurd hPlace (by simpa using (List.mem_filter.mp hFiltered).2)

/-- Where every place has one entry, the entry of a place is the one that is found there. -/
theorem OnePerPlace.mem_entries (h : fs.OnePerPlace) {p : FilePlace} (hp : p ≠ []) {e : Entry} :
    (p, e) ∈ fs.entries ↔ fs.entryAt? p = some e := by
  rw [entryAt?, if_neg (by simpa using hp)]
  constructor
  · intro hMem
    obtain ⟨front, back, hSplit⟩ := List.append_of_mem hMem
    have hOther : p ∉ front.map Prod.fst := by
      rw [OnePerPlace, hSplit, List.map_append, List.map_cons] at h
      intro hFront
      exact (List.nodup_append.mp h).2.2 p hFront p (by simp) rfl
    refine List.lookup_eq_some_iff.mpr ⟨front, back, hSplit, fun x hx => ?_⟩
    rw [bne_iff_ne]
    rintro rfl
    exact hOther (List.mem_map_of_mem hx)
  · intro hFound
    obtain ⟨front, back, hSplit, -⟩ := List.lookup_eq_some_iff.mp hFound
    rw [hSplit]
    simp

end Files

namespace Site

variable {site : Site} {fs fs' : Files} {n : ScriptName} {p q : FilePlace} {id : FileId}

-- ---------------------------------------------------------------------------
-- What a plain directory lists
-- ---------------------------------------------------------------------------

/-- The directory of the scripts is there, at a place, and holds regular files. -/
structure Regular (site : Site) (fs : Files) (p : FilePlace) : Prop where
  place : fs.place (site.seen site.scriptsDir) = .ok p
  there : fs.entryAt? p = some .directory
  /-- What is in the directory is a file. -/
  files : ∀ {name : String} {e : Entry}, fs.entryAt? (p ++ [name]) = some e → ∃ id, e = .file id
  /-- The host finds each of the scripts by its path, which may be too long for that. -/
  found : ∀ {n : ScriptName} {id : FileId}, fs.entryAt? (p ++ [n.text]) = some (.file id) →
    fs.place (site.seen (site.scriptPath n)) false = .ok (p ++ [n.text])
  /-- The host lists no name twice. -/
  once : fs.OnePerPlace
  /-- A new file gets an identity that no file has. -/
  fresh : ∀ {q : FilePlace} {id : FileId}, fs.entryAt? q = some (.file id) → id < fs.nextId

namespace Regular

/-- What is in the directory is no link. -/
theorem not_link (h : site.Regular fs p) (name : String) (target : String) :
    fs.entryAt? (p ++ [name]) ≠ some (.link target) := by
  intro hLink
  obtain ⟨id, hFile⟩ := h.files hLink
  cases hFile

theorem mem_scriptsIn (h : site.Regular fs p) :
    n ∈ fs.scriptsIn p ↔ ∃ id, fs.entryAt? (p ++ [n.text]) = some (.file id) := by
  rw [Files.mem_scriptsIn]
  simp only [h.once.mem_entries (List.append_ne_nil_of_right_ne_nil p (List.cons_ne_nil _ _))]

theorem scriptsIn_nodup (h : site.Regular fs p) : (fs.scriptsIn p).Nodup := by
  have hPlaces : fs.entries.Pairwise fun x y => x.1 ≠ y.1 := List.pairwise_map.mp h.once
  refine hPlaces.filterMap (Files.scriptAt? p) fun x y hOther n hn m hm => ?_
  obtain ⟨id, rfl⟩ := Files.scriptAt?_eq_some.mp hn
  obtain ⟨id', rfl⟩ := Files.scriptAt?_eq_some.mp hm
  rintro rfl
  exact hOther rfl

/-- The file of a script, as its path leads to it. -/
theorem existing (h : site.Regular fs p) :
    fs.existing (site.seen (site.scriptPath n)) = .ok (q, .file id) ↔
      q = p ++ [n.text] ∧ fs.entryAt? q = some (.file id) := by
  rw [Files.existing_eq_ok]
  constructor
  · rintro ⟨hPlace, hEntry⟩
    obtain ⟨q', hPlace', hEnd⟩ := Files.place_noFollow hPlace
    have hOwn := scriptPlace_eq h.place hPlace'
    rcases hEnd with rfl | ⟨target, hLink⟩
    · exact ⟨hOwn, hEntry⟩
    · exact absurd (hOwn ▸ hLink) (h.not_link n.text target)
  · rintro ⟨rfl, hEntry⟩
    exact ⟨Files.place_follow (h.found hEntry) (by simp [hEntry]), hEntry⟩

/-- The scripts that are listed are those whose files can be looked at. -/
theorem shows (h : site.Regular fs p) :
    n ∈ fs.scriptsIn p ↔ ∃ body, site.Shows fs n body := by
  rw [h.mem_scriptsIn]
  constructor
  · rintro ⟨id, hEntry⟩
    exact ⟨fs.body id, _, id, h.existing.mpr ⟨rfl, hEntry⟩, rfl⟩
  · rintro ⟨body, q, id, hExisting, -⟩
    obtain ⟨rfl, hEntry⟩ := h.existing.mp hExisting
    exact ⟨id, hEntry⟩

-- ---------------------------------------------------------------------------
-- What an upload makes of it
-- ---------------------------------------------------------------------------

/-- The place of a draft. -/
theorem draftPlace (h : site.Regular fs p)
    (hPlace : fs.place (site.seen (site.uploadPath n)) = .ok q) :
    fs.place (site.seen (site.uploadPath n)) false = .ok q ∧ q = p ++ [n.uploadName] := by
  have hSome : site.scriptsDir ≠ "" := by
    intro hNone
    have hDirectory := h.place
    rw [seen, hNone, Files.place_eq_ok] at hDirectory
    exact hDirectory.1 rfl
  obtain ⟨q', hPlace', hEnd⟩ := Files.place_noFollow hPlace
  have hOwn : q' = p ++ [n.uploadName] := by
    have hDraft := hPlace'
    rw [uploadPath, seen_joinPath hSome n.uploadName_isFileName] at hDraft
    exact Files.place_joinPath n.uploadName_isFileName h.place hDraft
  rcases hEnd with rfl | ⟨target, hLink⟩
  · exact ⟨hPlace', hOwn⟩
  · exact absurd (hOwn ▸ hLink) (h.not_link n.uploadName target)

/-- A draft that is open: its place holds a file, and every other place what it held. -/
theorem opened (h : site.Regular fs p) {now : Timestamp}
    (hOpen : fs.openEmpty now (site.seen (site.uploadPath n)) = .ok (id, fs')) :
    Files.SameWays fs fs' ∧ (fs'.body id).bytes = [] ∧ fs'.OnePerPlace ∧
      fs.nextId ≤ fs'.nextId ∧ id < fs'.nextId ∧
      fs.place (site.seen (site.uploadPath n)) false = .ok (p ++ [n.uploadName]) ∧
      ∀ x, fs'.entryAt? x =
        if x = p ++ [n.uploadName] then some (.file id) else fs.entryAt? x := by
  have hOnce : fs'.OnePerPlace := by
    have hOpen' := hOpen
    rw [Files.openEmpty] at hOpen'
    cases hPlace : fs.place (site.seen (site.uploadPath n)) with
    | error f => simp [hPlace, bind, Except.bind] at hOpen'
    | ok q =>
      simp only [hPlace, bind, Except.bind] at hOpen'
      split at hOpen'
      · cases hOpen'
        exact h.once
      · cases hOpen'
      · cases hOpen'
        have hNumbered : { fs with nextId := fs.nextId + 1 }.OnePerPlace := h.once
        exact Files.onePerPlace_setEntry hNumbered q _
  obtain ⟨q, hPlace, hOpened⟩ := openEmpty_of_fresh (fun _ _ => h.fresh) hOpen
  obtain ⟨hPlace', rfl⟩ := h.draftPlace hPlace
  rcases hOpened with ⟨hEntry, rfl⟩ | hNew
  · refine ⟨fun _ => rfl, ?_, hOnce, Nat.le_refl _, h.fresh hEntry, hPlace', fun x => ?_⟩
    · rw [Files.body_setBody, if_pos rfl]
    · split
      · next hx => exact hx ▸ hEntry
      · rfl
  · exact ⟨hNew.ways, hNew.bytes, hOnce, hNew.next, hNew.below, hPlace', hNew.entry⟩

theorem textPlace_ne (k : ScriptName) : p ++ [k.text] ≠ p ++ [n.uploadName] := by
  intro hSame
  exact k.text_ne_uploadName n (by simpa using hSame)

theorem textPlace_inj {k : ScriptName} (hSame : p ++ [k.text] = p ++ [n.text]) : k = n :=
  ScriptName.eq_of_text (by simpa using hSame)

/-- A directory of regular files in which a draft has been given the name of its script. -/
structure Replaced (site : Site) (fs : Files) (p : FilePlace) (n : ScriptName) (id : FileId)
    (fs' : Files) : Prop where
  ways : Files.SameWays fs fs'
  entry : ∀ x, fs'.entryAt? x = if x = p ++ [n.text] then some (.file id)
    else if x = p ++ [n.uploadName] then none else fs.entryAt? x
  script : fs'.place (site.seen (site.scriptPath n)) false = .ok (p ++ [n.text])
  once : fs'.OnePerPlace
  next : fs.nextId ≤ fs'.nextId
  below : id < fs'.nextId

theorem Replaced.regular (h : site.Regular fs p) (hNew : Replaced site fs p n id fs') :
    site.Regular fs' p where
  place := (Files.place_ok_iff hNew.ways).mpr h.place
  there := by
    rw [← Files.wayAt?_directory_iff, hNew.ways p]
    exact Files.wayAt?_directory_iff.mpr h.there
  files := by
    intro name e hHeld
    rw [hNew.entry] at hHeld
    split at hHeld
    · exact ⟨id, (Option.some.inj hHeld).symm⟩
    · split at hHeld
      · cases hHeld
      · exact h.files hHeld
  found := by
    intro k j hHeld
    rw [hNew.entry] at hHeld
    split at hHeld
    · next hSame => exact textPlace_inj hSame ▸ hNew.script
    · rw [if_neg (textPlace_ne k)] at hHeld
      exact (Files.place_ok_iff hNew.ways).mpr (h.found hHeld)
  once := hNew.once
  fresh := by
    intro x j hHeld
    rw [hNew.entry] at hHeld
    split at hHeld
    · cases hHeld
      exact hNew.below
    · split at hHeld
      · cases hHeld
      · exact Nat.lt_of_lt_of_le (h.fresh hHeld) hNew.next

theorem Replaced.mem_scriptsIn (h : site.Regular fs p) (hNew : Replaced site fs p n id fs')
    (k : ScriptName) : k ∈ fs'.scriptsIn p ↔ k = n ∨ k ∈ fs.scriptsIn p := by
  rw [(hNew.regular h).mem_scriptsIn, h.mem_scriptsIn]
  by_cases hName : k = n
  · subst hName
    simp [hNew.entry]
  · rw [hNew.entry, if_neg fun hSame => hName (textPlace_inj hSame), if_neg (textPlace_ne k)]
    simp [hName]

/-- **What a saved upload makes of the directory.** A draft that has been opened, written and given
the name of its script leaves a directory of regular files, in which that script is listed beside the
others and shows what was written. -/
theorem placed (h : site.Regular fs p) {now : Timestamp} {bytes : List UInt8} {opened : Files}
    (hOpen : fs.openEmpty now (site.seen (site.uploadPath n)) = .ok (id, opened))
    (hRename : (opened.append now id bytes).rename (site.seen (site.uploadPath n))
      (site.seen (site.scriptPath n)) = .ok fs') :
    site.Regular fs' p ∧ (∃ body, site.Shows fs' n body ∧ body.bytes = bytes) ∧
      ∀ k, k ∈ fs'.scriptsIn p ↔ k = n ∨ k ∈ fs.scriptsIn p := by
  obtain ⟨hWays, hEmpty, hOnce, hNext, hBelow, hDraft, hEntries⟩ := h.opened hOpen
  let written := opened.append now id bytes
  have hWays₁ : Files.SameWays fs written := hWays
  have hEntries₁ : ∀ x, written.entryAt? x =
      if x = p ++ [n.uploadName] then some (.file id) else fs.entryAt? x := hEntries
  have hBytes : (written.body id).bytes = bytes := by
    show ((opened.append now id bytes).body id).bytes = bytes
    rw [Files.append, Files.body_setBody, if_pos rfl, hEmpty, List.nil_append]
  -- the name of the script is that of a file or free
  have hSource := (Files.place_ok_iff hWays₁).mpr hDraft
  have hFile : written.entryAt? (p ++ [n.uploadName]) = some (.file id) :=
    (hEntries₁ _).trans (if_pos rfl)
  have hTargetPlace : ∀ q, written.place (site.seen (site.scriptPath n)) false = .ok q →
      q = p ++ [n.text] :=
    fun q hPlace => scriptPlace_eq h.place ((Files.place_ok_iff hWays₁).mp hPlace)
  have hNoLink : ∀ q t, written.place (site.seen (site.scriptPath n)) false = .ok q →
      written.entryAt? q ≠ some (.link t) := by
    intro q t hPlace
    rw [hTargetPlace q hPlace, hEntries₁, if_neg (textPlace_ne n)]
    exact h.not_link n.text t
  have hOther : ∀ q, written.place (site.seen (site.scriptPath n)) false = .ok q →
      q ≠ p ++ [n.uploadName] :=
    fun q hPlace => hTargetPlace q hPlace ▸ textPlace_ne n
  obtain ⟨q, hTarget, -, hResult⟩ := rename_file hSource hFile hNoLink hOther hRename
  obtain ⟨q', hTarget', hMoved⟩ := moved_of_rename hSource hFile hNoLink hOther hRename
  obtain rfl := hTargetPlace q hTarget
  obtain rfl := hTargetPlace q' hTarget'
  have hNew : Replaced site fs p n id fs' := by
    refine ⟨hWays₁.trans hMoved.ways, fun x => ?_, (Files.place_ok_iff hMoved.ways).mpr hTarget,
      ?_, hMoved.next ▸ hNext, hMoved.next ▸ hBelow⟩
    · rw [hMoved.entry, hEntries₁]
      split
      · rfl
      · split <;> rfl
    · rw [← hResult]
      exact Files.onePerPlace_setEntry (Files.onePerPlace_clearEntry hOnce _) _ _
  refine ⟨hNew.regular h, ⟨fs'.body id, ⟨_, id, (hNew.regular h).existing.mpr ⟨rfl, ?_⟩, rfl⟩, ?_⟩,
    hNew.mem_scriptsIn h⟩
  · rw [hNew.entry, if_pos rfl]
  · rw [hMoved.body, hBytes]

end Regular

end Site

end ScriptWarden
