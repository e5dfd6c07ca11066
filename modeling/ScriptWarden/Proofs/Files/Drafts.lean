import ScriptWarden.Proofs.Files.ScriptChanges

/-!
# Drafts side by side

Uploads of several scripts may be under way at once, each with a draft of its own. A draft keeps
what has been written to it while other drafts are opened, written and given the names of their
scripts, because no two scripts share the place of a draft and no draft has another name.

## Results

* `HasDraft.drafted` — a draft, seen as one that has just been written.
* `HasDraft.beside_draft`, `HasDraft.beside_move` — what uploads of other scripts do to a draft.
* `HasDraft.moved` — giving a draft the name of its script.
-/

namespace ScriptWarden

/-- Scripts whose drafts have the same name are one. -/
theorem ScriptName.eq_of_uploadName {n m : ScriptName} (h : n.uploadName = m.uploadName) :
    n = m := by
  have hList := congrArg String.toList h
  rw [n.uploadName_toList, m.uploadName_toList, List.cons.injEq] at hList
  exact ScriptName.eq_of_text (String.toList_inj.mp (List.append_cancel_right hList.2))

namespace Site

variable {site : Site} {fs fs' : Files} {n m : ScriptName} {q : FilePlace} {id id' : FileId}
  {bytes more : List UInt8}

/-- The draft of a script is there, and holds bytes. -/
def HasDraft (site : Site) (fs : Files) (n : ScriptName) (id : FileId) (bytes : List UInt8) :
    Prop :=
  ∃ q, fs.place (site.seen (site.uploadPath n)) false = .ok q ∧
    fs.entryAt? q = some (.file id) ∧ (fs.body id).bytes = bytes

theorem Drafted.hasDraft (h : Drafted fs q id bytes fs')
    (hPlace : fs.place (site.seen (site.uploadPath n)) false = .ok q) :
    site.HasDraft fs' n id bytes :=
  ⟨q, (Files.place_ok_iff h.ways).mpr hPlace, (h.entry q).trans (if_pos rfl), h.bytes⟩

/-- A draft that is there is one that has been written, with nothing changed since. -/
theorem HasDraft.drafted (h : site.HasDraft fs n id bytes) (hSettled : site.Settled fs) :
    ∃ q, fs.place (site.seen (site.uploadPath n)) false = .ok q ∧ Drafted fs q id bytes fs := by
  obtain ⟨q, hPlace, hEntry, hBytes⟩ := h
  refine ⟨q, hPlace, fun _ => rfl, fun p => ?_, fun p hFile => ?_, fun _ _ => rfl, hBytes,
    Nat.le_refl _, hSettled.fresh hEntry⟩
  · by_cases hp : p = q
    · rw [if_pos hp, hp]
      exact hEntry
    · rw [if_neg hp]
  · exact hSettled.oneName hPlace hEntry hFile

/-- Writing to a draft. -/
theorem HasDraft.append (h : site.HasDraft fs n id bytes) (hSettled : site.Settled fs)
    (now : Timestamp) (more : List UInt8) :
    ∃ q, fs.place (site.seen (site.uploadPath n)) false = .ok q ∧
      Drafted fs q id (bytes ++ more) (fs.append now id more) := by
  obtain ⟨q, hPlace, hDrafted⟩ := h.drafted hSettled
  exact ⟨q, hPlace, hDrafted.append now more⟩

/-- The draft of another script leaves a draft alone. -/
theorem HasDraft.beside_draft (h : site.HasDraft fs n id bytes) (hName : n ≠ m)
    (hDrafted : Drafted fs q id' more fs')
    (hPlace : fs.place (site.seen (site.uploadPath m)) false = .ok q) :
    site.HasDraft fs' n id bytes := by
  obtain ⟨p, hOwn, hEntry, hBytes⟩ := h
  have hApart : p ≠ q := ne_of_getLast? (uploadPlace_getLast? hOwn) (uploadPlace_getLast? hPlace)
    fun hSame => hName (ScriptName.eq_of_uploadName hSame)
  refine ⟨p, (Files.place_ok_iff hDrafted.ways).mpr hOwn, ?_, ?_⟩
  · rw [hDrafted.entry, if_neg hApart]
    exact hEntry
  · rw [hDrafted.bodies id]
    · exact hBytes
    · rintro rfl
      exact hApart (hDrafted.own p hEntry)

/-- A draft that gets the name of another script leaves a draft alone. -/
theorem HasDraft.beside_move (h : site.HasDraft fs n id bytes) (hName : n ≠ m) {p : FilePlace}
    (hMoved : Moved fs p q id' fs')
    (hSource : fs.place (site.seen (site.uploadPath m)) false = .ok p)
    (hTarget : fs.place (site.seen (site.scriptPath m)) false = .ok q) :
    site.HasDraft fs' n id bytes := by
  obtain ⟨x, hOwn, hEntry, hBytes⟩ := h
  have hNotSource : x ≠ p :=
    ne_of_getLast? (uploadPlace_getLast? hOwn) (uploadPlace_getLast? hSource)
      fun hSame => hName (ScriptName.eq_of_uploadName hSame)
  have hNotTarget : x ≠ q :=
    ne_of_getLast? (uploadPlace_getLast? hOwn) (scriptPlace_getLast? hTarget)
      (m.text_ne_uploadName n).symm
  refine ⟨x, (Files.place_ok_iff hMoved.ways).mpr hOwn, ?_, ?_⟩
  · rw [hMoved.entry, if_neg hNotTarget, if_neg hNotSource]
    exact hEntry
  · rw [hMoved.body]
    exact hBytes

/-- A draft gets the name of its script: the script has what was written, and the other scripts
have what they had. -/
theorem HasDraft.moved (h : site.HasDraft fs n id bytes) (hSettled : site.Settled fs)
    (hRename : fs.rename (site.seen (site.uploadPath n)) (site.seen (site.scriptPath n)) =
      .ok fs') :
    ∃ p q, fs.place (site.seen (site.uploadPath n)) false = .ok p ∧
      fs.place (site.seen (site.scriptPath n)) false = .ok q ∧ Moved fs p q id fs' ∧
      site.Settled fs' ∧ site.Shows fs' n (fs.body id) ∧ (fs.body id).bytes = bytes ∧
      ∀ {k : ScriptName} {b : FileBody}, k ≠ n → (site.Shows fs' k b ↔ site.Shows fs k b) := by
  obtain ⟨p, hPlace, hDrafted⟩ := h.drafted hSettled
  obtain ⟨hSettled', q, hTarget, hMoved⟩ := hDrafted.moved hSettled hPlace hRename
  exact ⟨p, q, hPlace, hTarget, hMoved, hSettled', hMoved.shows_own hSettled' hTarget,
    hDrafted.bytes, fun hName => hDrafted.shows_of_rename hSettled hPlace hRename hName⟩

end Site

end ScriptWarden
