import ScriptWarden.Proofs.Files.Walking

/-!
# Files that become fewer

What is left when files and links are taken away, one by one: every path leads to what it led to, or
to nothing. Nothing is asked of the files. A path may go through the link that is taken away, and
then it leads nowhere, although it led somewhere before; it never comes to lead to something else.

## Results

* `Fewer` — files are left over from others; `remove_fewer` — a removal leaves fewer.
* `remove_gone` — what was removed is not there, by its own path.
* `Fewer.readText_eq` — a text that is read is the one that was read before.
-/

namespace ScriptWarden

namespace Files

variable {fs fs' fs'' : Files} {q : FilePlace} {path : String}

-- ---------------------------------------------------------------------------
-- Taking an entry away
-- ---------------------------------------------------------------------------

/-- Without what lay at a place, a walk goes as before, fails to find its way, or ends at the
place. -/
theorem walk_clearEntry (hNotDirectory : fs.entryAt? q ≠ some .directory) (follow : Bool) (n : Nat)
    (p : FilePlace) (l : List String) :
    (fs.clearEntry q).walk follow n p l = fs.walk follow n p l ∨
      (fs.clearEntry q).walk follow n p l = .error .notFound ∨
      (fs.clearEntry q).walk follow n p l = .ok q := by
  have hRoot : q ≠ [] := by
    rintro rfl
    exact hNotDirectory rfl
  have hEntries := entryAt?_clearEntry fs hRoot
  induction n generalizing p l with
  | zero => exact .inl rfl
  | succ n ih =>
    cases l with
    | nil => exact .inl rfl
    | cons s rest =>
      have hHere : (fs.clearEntry q).entryAt? p = some .directory ↔
          fs.entryAt? p = some .directory := by
        rw [hEntries]
        split
        · next hSame => simp [hSame, hNotDirectory]
        · exact Iff.rfl
      rw [walk, walk]
      by_cases hDirectory : fs.entryAt? p = some .directory
      · simp only [bne_iff_ne, ne_eq, hHere, hDirectory, not_true_eq_false, if_false]
        split
        · exact ih p rest
        split
        · exact ih p.dropLast rest
        split
        · exact .inl rfl
        by_cases hNext : p ++ [s] = q
        · -- the walk comes to the place itself
          rw [hEntries, if_pos hNext]
          cases rest with
          | nil => exact .inr (.inr (by simp [hNext]))
          | cons => exact .inr (.inl (by simp))
        · rw [hEntries, if_neg hNext]
          split
          · split
            · exact .inl rfl
            · exact ih _ _
          · exact ih _ _
          · exact .inl rfl
          · exact .inl rfl
      · simp [hHere, hDirectory]

theorem place_clearEntry (path : String) (hNotDirectory : fs.entryAt? q ≠ some .directory)
    (follow : Bool) :
    (fs.clearEntry q).place path follow = fs.place path follow ∨
      (fs.clearEntry q).place path follow = .error .notFound ∨
      (fs.clearEntry q).place path follow = .ok q := by
  rw [place, place]
  split
  · exact .inl rfl
  split
  · exact .inl rfl
  exact walk_clearEntry hNotDirectory follow _ _ _

/-- Without what lay at a place, a path leads to what it led to, or to nothing. -/
theorem existing_clearEntry (hNotDirectory : fs.entryAt? q ≠ some .directory) :
    (fs.clearEntry q).existing path = fs.existing path ∨
      (fs.clearEntry q).existing path = .error .notFound := by
  have hRoot : q ≠ [] := by
    rintro rfl
    exact hNotDirectory rfl
  have hEntries := entryAt?_clearEntry fs hRoot
  rw [existing, existing]
  rcases place_clearEntry path hNotDirectory true with hSame | hLost | hThere
  · rw [hSame]
    cases fs.place path with
    | error f => exact .inl rfl
    | ok r =>
      simp only [bind, Except.bind, hEntries]
      by_cases hThere : r = q
      · exact .inr (by rw [if_pos hThere])
      · exact .inl (by rw [if_neg hThere])
  · rw [hLost]
    exact .inr rfl
  · rw [hThere]
    simp [bind, Except.bind, hEntries]

-- ---------------------------------------------------------------------------
-- Fewer files
-- ---------------------------------------------------------------------------

/-- Files are left over from others: every path leads to what it led to, or to nothing. -/
structure Fewer (fs fs' : Files) : Prop where
  existing : ∀ path, fs'.existing path = fs.existing path ∨ fs'.existing path = .error .notFound
  body : ∀ id, fs'.body id = fs.body id

theorem Fewer.refl (fs : Files) : Fewer fs fs := ⟨fun _ => .inl rfl, fun _ => rfl⟩

theorem Fewer.trans (h : Fewer fs fs') (h' : Fewer fs' fs'') : Fewer fs fs'' where
  existing path := by
    rcases h'.existing path with hSame | hLost
    · rw [hSame]
      exact h.existing path
    · exact .inr hLost
  body id := (h'.body id).trans (h.body id)

/-- What leads to nothing still does. -/
theorem Fewer.pathExists (h : Fewer fs fs') (hGone : fs.pathExists path = false) :
    fs'.pathExists path = false := by
  rw [Files.pathExists] at hGone ⊢
  rcases h.existing path with hSame | hLost
  · rwa [hSame]
  · rw [hLost]
    rfl

/-- A text that is read is the one that was read before. -/
theorem Fewer.readText_eq (h : Fewer fs fs') (path : String) :
    fs'.readText path = fs.readText path ∨ fs'.readText path = .error .notFound := by
  rw [readText, readText, read, read]
  rcases h.existing path with hSame | hLost
  · rw [hSame]
    refine .inl ?_
    cases fs.existing path with
    | error f => rfl
    | ok found =>
      obtain ⟨p, e⟩ := found
      cases e with
      | file id => simp only [bind, Except.bind, h.body]
      | directory => rfl
      | link t => rfl
  · rw [hLost]
    exact .inr rfl

-- ---------------------------------------------------------------------------
-- Removing
-- ---------------------------------------------------------------------------

/-- What is removed is what lies at the path itself, and no directory. -/
theorem remove_eq_ok (h : fs.remove path = .ok fs') :
    ∃ q, fs.place path false = .ok q ∧ fs.entryAt? q ≠ some .directory ∧
      fs' = fs.clearEntry q := by
  rw [remove] at h
  cases hPlace : fs.place path false with
  | error f => simp [hPlace, bind, Except.bind] at h
  | ok q =>
    simp only [hPlace, bind, Except.bind] at h
    split at h
    · cases h
    · next e hNotDirectory hEntry =>
      cases h
      exact ⟨q, rfl, fun hDirectory => hNotDirectory (Option.some.inj (hEntry.symm.trans hDirectory)),
        rfl⟩
    · cases h

theorem remove_fewer (h : fs.remove path = .ok fs') : Fewer fs fs' := by
  obtain ⟨q, -, hNotDirectory, rfl⟩ := remove_eq_ok h
  exact ⟨fun _ => existing_clearEntry hNotDirectory, fun _ => rfl⟩

/-- What was removed is not there any more. -/
theorem remove_gone (h : fs.remove path = .ok fs') : fs'.pathExists path = false := by
  obtain ⟨q, hPlace, hNotDirectory, rfl⟩ := remove_eq_ok h
  have hNothing : (fs.clearEntry q).entryAt? q = none := by
    have hRoot : q ≠ [] := by
      rintro rfl
      exact hNotDirectory rfl
    rw [entryAt?_clearEntry fs hRoot, if_pos rfl]
  rw [pathExists]
  cases hExisting : (fs.clearEntry q).existing path with
  | error f => rfl
  | ok found =>
    obtain ⟨r, e⟩ := found
    obtain ⟨hFollowed, hEntry⟩ := existing_eq_ok.mp hExisting
    obtain ⟨q', hThere, hEnd⟩ := place_noFollow hFollowed
    -- without following a link at its end the path leads to the place, if anywhere
    have hOwn : q' = q := by
      rcases place_clearEntry path hNotDirectory false with hSame | hLost | hAt
      · exact Except.ok.inj (hThere.symm.trans (hSame.trans hPlace))
      · cases hThere.symm.trans hLost
      · exact Except.ok.inj (hThere.symm.trans hAt)
    rw [hOwn] at hEnd
    rcases hEnd with rfl | ⟨t, hLink⟩
    · cases hEntry.symm.trans hNothing
    · cases hLink.symm.trans hNothing

/-- A path that leads to nothing has no text. -/
theorem readText_of_gone (h : fs.pathExists path = false) (text : String) :
    fs.readText path ≠ .ok text := by
  rw [readText, read]
  rw [pathExists] at h
  cases hExisting : fs.existing path with
  | error f => simp [bind, Except.bind]
  | ok found =>
    rw [hExisting] at h
    cases h

end Files

end ScriptWarden
