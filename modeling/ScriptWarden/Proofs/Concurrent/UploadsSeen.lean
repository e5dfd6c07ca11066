import ScriptWarden.Proofs.Concurrent.Traffic
import ScriptWarden.Proofs.Occurrence
import ScriptWarden.Proofs.RememberedVerdicts

/-!
# Readers see uploads

Whoever asks for a verdict after an upload of a script has been answered should be told of that
upload, or of a later one. What could be told instead is what a registry remembers, and that is
found by the size and the time of the file: so an upload matters to what is *offered*, to what is
remembered under a stamp or held by a reading that has read the file and is to remember it.

An upload forgets what is remembered of its script, but it cannot take away what a reading holds. A
reading that has read the old file and remembers it only after that masks the upload, if the new
file has the stamp of the old one: later readings find the old analysis. The stamp of a new file is
*unclaimed* when no reading holds an analysis under it and nothing is remembered under it, unless
the file that is replaced has the same stamp. As long as uploads give scripts files with unclaimed
stamps, whatever the clock shows and however readings and uploads come between each other, no upload
is masked.

## Results

* `step_current` — what every step keeps; `reaches_current` — what a whole run keeps.
* `verdicts_see_uploads` — what a verdict is made from that was begun after an upload's answer.
* `slow_reading_masks_upload` — a reading between whose steps a whole upload comes.
-/

namespace ScriptWarden

/-- The size and the time of a file that has been looked at. -/
def FileInfo.stamp (i : FileInfo) : Nat × Timestamp := (i.size, i.modified)

namespace Traffic

variable {w w' w₀ : Traffic} {i since : Nat} {n m : ScriptName} {a : Analysis} {b : FileBody}
  {info : FileInfo} {act : Act}

-- ---------------------------------------------------------------------------
-- Recent analyses
-- ---------------------------------------------------------------------------

/-- An analysis is of one of the contents that a script has been given, and of none before the last
of the first so many. Where there are none it may be anything. -/
def RecentSince (w : Traffic) (n : ScriptName) (since : Nat) (a : Analysis) : Prop :=
  0 < since → ∃ bytes ∈ (w.given n).drop (since - 1), a = w.registry.analyzeBytes n bytes

theorem RecentSince.of_le {k : Nat} (h : w.RecentSince n k a) (hLe : since ≤ k) :
    w.RecentSince n since a := by
  intro hPositive
  obtain ⟨bytes, hMem, hAnalysis⟩ := h (by omega)
  refine ⟨bytes, ?_, hAnalysis⟩
  have hDrop : (w.given n).drop (k - 1) = ((w.given n).drop (since - 1)).drop (k - since) := by
    rw [List.drop_drop]
    congr 1
    omega
  rw [hDrop] at hMem
  exact List.mem_of_mem_drop hMem

/-- The rules stay, and scripts are given more. -/
structure Grows (w w' : Traffic) : Prop where
  bare : w'.registry.bare = w.registry.bare
  given : ∀ n, ∃ more, w'.given n = w.given n ++ more

theorem RecentSince.grow (h : w.RecentSince n since a) (hGrows : w.Grows w') :
    w'.RecentSince n since a := by
  intro hPositive
  obtain ⟨bytes, hMem, hAnalysis⟩ := h hPositive
  obtain ⟨more, hMore⟩ := hGrows.given n
  refine ⟨bytes, ?_, ?_⟩
  · rw [hMore, List.drop_append]
    exact List.mem_append_left _ hMem
  · rw [Registry.analyzeBytes_eq_of_bare hGrows.bare]
    exact hAnalysis

-- ---------------------------------------------------------------------------
-- What is offered
-- ---------------------------------------------------------------------------

/-- An analysis is remembered under a stamp, or a reading holds it and is to remember it. -/
def Offers (w : Traffic) (n : ScriptName) (stamp : Nat × Timestamp) (a : Analysis) : Prop :=
  (∃ m, w.registry.remembered.lookup n = some m ∧ m.stamp = stamp ∧ m.analysis = a) ∨
    ∃ i since info, w.readings i = some ⟨n, since, .judged info a⟩ ∧ info.stamp = stamp

/-- What a reading has come to is no older than what had been answered when it began. -/
def Fits (w : Traffic) (r : ScriptReading) : Prop :=
  r.since ≤ w.answered r.script ∧
    match r.stage with
    | .begun => True
    | .looked info => ∀ a, w.Offers r.script info.stamp a → w.RecentSince r.script r.since a
    | .unknown _ => True
    | .judged _ a => w.RecentSince r.script r.since a
    | .answered found => 0 < r.since →
        ∃ info a, found = .ok (info, a) ∧ w.RecentSince r.script r.since a

/-- Nothing that is offered for a file as it is now is older than the last answer. -/
structure Current (w : Traffic) : Prop where
  settled : w.site.undesignated.Settled w.files
  opened : ∀ {n : ScriptName} {id : FileId}, w.uploads n = some (.opened id) →
    w.site.undesignated.HasDraft w.files n id []
  written : ∀ {n : ScriptName} {id : FileId} {bytes : List UInt8},
    w.uploads n = some (.written id bytes) → w.site.undesignated.HasDraft w.files n id bytes
  shown : ∀ {n : ScriptName} {bytes : List UInt8}, (w.given n).getLast? = some bytes →
    ∃ b, w.site.Shows w.files n b ∧ b.bytes = bytes
  answered : ∀ n, w.answered n ≤ (w.given n).length
  offered : ∀ {n : ScriptName} {a : Analysis} {b : FileBody}, w.site.Shows w.files n b →
    w.Offers n b.stamp a → w.RecentSince n (w.answered n) a
  /-- What a reading holds under the stamp of the file is the analysis of that file. -/
  held : ∀ {i : Nat} {n : ScriptName} {since : Nat} {info : FileInfo} {a : Analysis} {b : FileBody},
    w.readings i = some ⟨n, since, .judged info a⟩ → w.site.Shows w.files n b →
    info.stamp = b.stamp → a = w.registry.analyzeBytes n b.bytes
  reading : ∀ {i : Nat} {r : ScriptReading}, w.readings i = some r → w.Fits r

/-- The last of a list is among those behind any place in it. -/
theorem mem_drop_of_getLast? {α : Type} {l : List α} {x : α} {k : Nat} (h : l.getLast? = some x)
    (hk : k < l.length) : x ∈ l.drop k := by
  apply List.mem_of_getLast?
  rw [List.getLast?_drop, if_neg (by omega)]
  exact h

/-- The analysis of a file as it is now is recent for every reading. -/
theorem Current.recent_of_shows (h : w.Current) (hShows : w.site.Shows w.files n b)
    (hSince : since ≤ (w.given n).length) :
    w.RecentSince n since (w.registry.analyzeBytes n b.bytes) := by
  intro hPositive
  have hNonempty : w.given n ≠ [] := by
    intro hNil
    simp [hNil] at hSince
    omega
  have hLast := List.getLast?_eq_some_getLast hNonempty
  obtain ⟨b', hShown, hBytes⟩ := h.shown hLast
  obtain rfl := hShows.unique hShown
  exact ⟨_, mem_drop_of_getLast? hLast (by omega), by rw [hBytes]⟩

/-- A script of which an upload has been answered has a file. -/
theorem Current.exists_shows (h : w.Current) {r : ScriptReading} (hFits : w.Fits r)
    (hSince : 0 < r.since) : ∃ b, w.site.Shows w.files r.script b := by
  have hLength : 0 < (w.given r.script).length := by
    have hAnswered := h.answered r.script
    have hBefore := hFits.1
    omega
  have hLast := List.getLast?_eq_some_getLast (List.ne_nil_of_length_pos hLength)
  obtain ⟨b, hShows, -⟩ := h.shown hLast
  exact ⟨b, hShows⟩

/-- A reading that stays at what it is at, while no more is offered than before, or what is recent
for it. -/
theorem Fits.stay {r : ScriptReading} (h : w.Fits r) (hGrows : w.Grows w')
    (hAnswered : w.answered r.script ≤ w'.answered r.script)
    (hOffers : ∀ info a, r.stage = .looked info → w'.Offers r.script info.stamp a →
      w.Offers r.script info.stamp a ∨ w.RecentSince r.script r.since a) : w'.Fits r := by
  obtain ⟨n, since, stage⟩ := r
  obtain ⟨hSince, hStage⟩ := h
  refine ⟨Nat.le_trans hSince hAnswered, ?_⟩
  cases stage with
  | begun => trivial
  | looked info =>
    intro a hOffered
    rcases hOffers info a rfl hOffered with hBefore | hRecent
    · exact (hStage a hBefore).grow hGrows
    · exact hRecent.grow hGrows
  | unknown info => trivial
  | judged info a => exact RecentSince.grow hStage hGrows
  | answered found =>
    intro hPositive
    obtain ⟨info, a, hFound, hRecent⟩ := hStage hPositive
    exact ⟨info, a, hFound, hRecent.grow hGrows⟩

-- ---------------------------------------------------------------------------
-- Readings
-- ---------------------------------------------------------------------------

/-- A reading comes to something that fits. What it holds then is the analysis of the file. -/
theorem Current.withReading (h : w.Current) {r : Option ScriptReading}
    (hFits : ∀ x, r = some x → w.Fits x)
    (hJudged : ∀ n since info a, r = some ⟨n, since, .judged info a⟩ →
      ∃ b, w.site.Shows w.files n b ∧ a = w.registry.analyzeBytes n b.bytes) :
    (w.withReading i r).Current := by
  have hGrows : w.Grows (w.withReading i r) := ⟨rfl, fun n => ⟨[], (List.append_nil _).symm⟩⟩
  have hOffers : ∀ {n stamp a}, (w.withReading i r).Offers n stamp a →
      w.Offers n stamp a ∨ w.RecentSince n (w.answered n) a := by
    rintro n stamp a (hMemory | ⟨j, since, info, hReading, hStamp⟩)
    · exact Or.inl (Or.inl hMemory)
    · by_cases hj : j = i
      · have hOwn : r = some ⟨n, since, .judged info a⟩ := by simpa [Traffic.withReading, hj] using hReading
        obtain ⟨b, hShows, rfl⟩ := hJudged n since info a hOwn
        exact Or.inr (h.recent_of_shows hShows (h.answered n))
      · have hOther : w.readings j = some ⟨n, since, .judged info a⟩ := by
          simpa [Traffic.withReading, hj] using hReading
        exact Or.inl (Or.inr ⟨j, since, info, hOther, hStamp⟩)
  constructor
  · exact h.settled
  · exact h.opened
  · exact h.written
  · exact h.shown
  · exact h.answered
  · intro n a b hShows hOffered
    rcases hOffers hOffered with hBefore | hRecent
    · exact h.offered hShows hBefore
    · exact hRecent
  · intro j n since info a b hReading hShows hStamp
    by_cases hj : j = i
    · have hOwn : r = some ⟨n, since, .judged info a⟩ := by
        simpa [Traffic.withReading, hj] using hReading
      obtain ⟨b', hShown, rfl⟩ := hJudged n since info a hOwn
      rw [hShown.unique hShows]
      rfl
    · exact h.held (i := j) (by simpa [Traffic.withReading, hj] using hReading) hShows hStamp
  · intro j x hReading
    have hBefore : w.Fits x := by
      by_cases hj : j = i
      · exact hFits x (by simpa [Traffic.withReading, hj] using hReading)
      · exact h.reading (i := j) (by simpa [Traffic.withReading, hj] using hReading)
    refine hBefore.stay hGrows (Nat.le_refl _) fun info a _ hOffered => ?_
    rcases hOffers hOffered with hStill | hRecent
    · exact Or.inl hStill
    · exact Or.inr (hRecent.of_le hBefore.1)

-- ---------------------------------------------------------------------------
-- Memory
-- ---------------------------------------------------------------------------

/-- A registry comes to remember only what was offered. -/
theorem Current.withRegistry (h : w.Current) {r : Registry} (hBare : r.bare = w.registry.bare)
    (hOffered : ∀ n m, r.remembered.lookup n = some m → w.Offers n m.stamp m.analysis) :
    (w.withRegistry r).Current := by
  have hSite : r.site = w.registry.site := Registry.site_eq_of_bare hBare
  have hGrows : w.Grows (w.withRegistry r) := ⟨hBare, fun n => ⟨[], (List.append_nil _).symm⟩⟩
  have hOffers : ∀ {n stamp a}, (w.withRegistry r).Offers n stamp a → w.Offers n stamp a := by
    rintro n stamp a (⟨m, hFound, rfl, rfl⟩ | hHeld)
    · exact hOffered n m hFound
    · exact Or.inr hHeld
  have hSame : (w.withRegistry r).site = w.site := hSite
  constructor
  · rw [hSame]
    exact h.settled
  · intro n id hOpened
    rw [hSame]
    exact h.opened hOpened
  · intro n id bytes hWritten
    rw [hSame]
    exact h.written hWritten
  · intro n bytes hLast
    rw [hSame]
    exact h.shown hLast
  · exact h.answered
  · intro n a b hShows hOffered'
    rw [hSame] at hShows
    exact (h.offered hShows (hOffers hOffered')).grow hGrows
  · intro i n since info a b hReading hShows hStamp
    rw [hSame] at hShows
    exact (h.held hReading hShows hStamp).trans (Registry.analyzeBytes_eq_of_bare hBare n _).symm
  · intro i x hReading
    exact (h.reading hReading).stay hGrows (Nat.le_refl _) fun _ _ _ hOffered' =>
      Or.inl (hOffers hOffered')

-- ---------------------------------------------------------------------------
-- Drafts
-- ---------------------------------------------------------------------------

/-- The draft of an upload changes, and no file of a script. -/
theorem Current.withDraft (h : w.Current) {files : Files} {u : Option UploadStage}
    (hSettled : w.site.undesignated.Settled files)
    (hShows : ∀ {m b}, w.site.Shows files m b ↔ w.site.Shows w.files m b)
    (hOthers : ∀ {m id bytes}, m ≠ n → w.site.undesignated.HasDraft w.files m id bytes →
      w.site.undesignated.HasDraft files m id bytes)
    (hOpened : ∀ id, u = some (.opened id) → w.site.undesignated.HasDraft files n id [])
    (hWritten : ∀ id bytes, u = some (.written id bytes) →
      w.site.undesignated.HasDraft files n id bytes) :
    ((w.withFiles files).withUpload n u).Current := by
  have hGrows : w.Grows ((w.withFiles files).withUpload n u) :=
    ⟨rfl, fun n => ⟨[], (List.append_nil _).symm⟩⟩
  constructor
  · exact hSettled
  · intro m id hUpload
    by_cases hm : m = n
    · rw [hm]
      exact hOpened id (by simpa [withUpload, withFiles, hm] using hUpload)
    · exact hOthers hm (h.opened (by simpa [withUpload, withFiles, hm] using hUpload))
  · intro m id bytes hUpload
    by_cases hm : m = n
    · rw [hm]
      exact hWritten id bytes (by simpa [withUpload, withFiles, hm] using hUpload)
    · exact hOthers hm (h.written (by simpa [withUpload, withFiles, hm] using hUpload))
  · intro m bytes hLast
    obtain ⟨b, hShown, hBytes⟩ := h.shown hLast
    exact ⟨b, hShows.mpr hShown, hBytes⟩
  · exact h.answered
  · intro m a b hShown hOffered
    exact h.offered (hShows.mp hShown) hOffered
  · intro i m since info a b hReading hShown hStamp
    exact h.held hReading (hShows.mp hShown) hStamp
  · intro i x hReading
    exact (h.reading hReading).stay hGrows (Nat.le_refl _) fun _ _ _ hOffered => Or.inl hOffered

/-- An upload that has been answered, of a script of which nothing is remembered. -/
theorem Current.answer (h : w.Current) (hForgotten : w.registry.remembered.lookup n = none) :
    (w.answer n).Current := by
  have hGrows : w.Grows (w.answer n) := ⟨rfl, fun n => ⟨[], (List.append_nil _).symm⟩⟩
  have hLater : ∀ m, w.answered m ≤ (w.answer n).answered m := by
    intro m
    by_cases hm : m = n
    · simpa [Traffic.answer, hm] using h.answered n
    · simp [Traffic.answer, hm]
  constructor
  · exact h.settled
  · exact h.opened
  · exact h.written
  · exact h.shown
  · intro m
    by_cases hm : m = n
    · simp [Traffic.answer, hm]
    · simpa [Traffic.answer, hm] using h.answered m
  · intro m a b hShows hOffered
    by_cases hm : m = n
    · subst hm
      -- what a reading holds under the stamp of the file is of the file as it is now
      rcases hOffered with ⟨x, hFound, -, -⟩ | ⟨i, since, info, hReading, hStamp⟩
      · cases hForgotten.symm.trans hFound
      · rw [h.held hReading hShows hStamp]
        exact (h.recent_of_shows hShows (by simp [Traffic.answer])).grow hGrows
    · have hSame : (w.answer n).answered m = w.answered m := by simp [Traffic.answer, hm]
      rw [hSame]
      exact (h.offered hShows hOffered).grow hGrows
  · exact h.held
  · intro i x hReading
    exact (h.reading hReading).stay hGrows (hLater _) fun _ _ _ hOffered => Or.inl hOffered

-- ---------------------------------------------------------------------------
-- Placing
-- ---------------------------------------------------------------------------

/-- The file that a draft becomes has an unclaimed stamp: no reading holds an analysis under it, and
nothing is remembered under it unless the file that it replaces has that stamp, too. -/
def Unclaimed (w : Traffic) (act : Act) (w' : Traffic) : Prop :=
  ∀ n, act = .place n → ∀ b, w'.site.Shows w'.files n b →
    (∀ i since info a, w.readings i = some ⟨n, since, .judged info a⟩ → info.stamp ≠ b.stamp) ∧
      ∀ x, w.registry.remembered.lookup n = some x → x.stamp = b.stamp →
        ∃ b', w.site.Shows w.files n b' ∧ b'.stamp = b.stamp

/-- A draft gets the name of its script, with an unclaimed stamp. -/
theorem Current.place (h : w.Current) {id : FileId} {bytes : List UInt8} {files : Files}
    (hUpload : w.uploads n = some (.written id bytes))
    (hRename : w.files.rename (w.site.seen (w.site.uploadPath n))
      (w.site.seen (w.site.scriptPath n)) = .ok files)
    (hUnclaimed : w.Unclaimed (.place n)
      (((w.withFiles files).withUpload n (some .placed)).gives n bytes)) :
    (((w.withFiles files).withUpload n (some .placed)).gives n bytes).Current := by
  obtain ⟨p, q, hSource, hTarget, hMoved, hSettled, hOwn, hBytes, hRest⟩ :=
    (h.written hUpload).moved h.settled hRename
  have hOther : ∀ {m b}, m ≠ n → (w.site.Shows files m b ↔ w.site.Shows w.files m b) := hRest
  have hGrows : w.Grows (((w.withFiles files).withUpload n (some .placed)).gives n bytes) := by
    refine ⟨rfl, fun m => ?_⟩
    by_cases hm : m = n
    · exact ⟨[bytes], by simp [gives, withUpload, withFiles, hm]⟩
    · exact ⟨[], by simp [gives, withUpload, withFiles, hm]⟩
  have hDrafts : ∀ {m id bytes}, m ≠ n → w.site.undesignated.HasDraft w.files m id bytes →
      w.site.undesignated.HasDraft files m id bytes :=
    fun hm hDraft => hDraft.beside_move hm hMoved hSource hTarget
  obtain ⟨hNotHeld, hMemory⟩ := hUnclaimed n rfl _ hOwn
  constructor
  · exact hSettled
  · intro m k hOpened
    have hm : m ≠ n := by
      rintro rfl
      simp [gives, withUpload] at hOpened
    exact hDrafts hm (h.opened (by simpa [gives, withUpload, withFiles, hm] using hOpened))
  · intro m k x hWritten
    have hm : m ≠ n := by
      rintro rfl
      simp [gives, withUpload] at hWritten
    exact hDrafts hm (h.written (by simpa [gives, withUpload, withFiles, hm] using hWritten))
  · intro m x hLast
    by_cases hm : m = n
    · subst hm
      obtain rfl : bytes = x := by simpa [gives] using hLast
      exact ⟨_, hOwn, hBytes⟩
    · have hBefore : (w.given m).getLast? = some x := by
        simpa [gives, withUpload, withFiles, hm] using hLast
      obtain ⟨b, hShows, hHolds⟩ := h.shown hBefore
      exact ⟨b, (hOther hm).mpr hShows, hHolds⟩
  · intro m
    obtain ⟨more, hMore⟩ := hGrows.given m
    rw [hMore, List.length_append]
    exact Nat.le_trans (h.answered m) (Nat.le_add_right _ _)
  · intro m a b hShows hOffered
    by_cases hm : m = n
    · subst hm
      obtain rfl := Site.Shows.unique hShows hOwn
      rcases hOffered with ⟨x, hFound, hStamp, rfl⟩ | ⟨i, since, info, hReading, hStamp⟩
      · obtain ⟨b', hShown, hSame⟩ := hMemory x hFound hStamp
        exact (h.offered hShown (Or.inl ⟨x, hFound, hStamp.trans hSame.symm, rfl⟩)).grow hGrows
      · exact absurd hStamp (hNotHeld i since info a hReading)
    · exact (h.offered ((hOther hm).mp hShows) hOffered).grow hGrows
  · intro i m since info a b hReading hShows hStamp
    by_cases hm : m = n
    · subst hm
      obtain rfl := Site.Shows.unique hShows hOwn
      exact absurd hStamp (hNotHeld i since info a hReading)
    · exact h.held hReading ((hOther hm).mp hShows) hStamp
  · intro i x hReading
    exact (h.reading hReading).stay hGrows (Nat.le_refl _) fun _ _ _ hOffered => Or.inl hOffered

-- ---------------------------------------------------------------------------
-- Steps and runs
-- ---------------------------------------------------------------------------

/-- Reading and judging a script's file finds what it holds. -/
theorem judge_ok {a : Analysis} (h : w.registry.judge w.files n = .ok a) :
    ∃ b, w.site.Shows w.files n b ∧ a = w.registry.analyzeBytes n b.bytes := by
  unfold Registry.judge Registry.bytes at h
  cases hRead : w.files.read (w.registry.site.seen (w.registry.site.scriptPath n)) with
  | error f =>
    rw [hRead] at h
    cases h
  | ok bytes =>
    rw [hRead] at h
    obtain ⟨b, hShows, rfl⟩ := Site.reads_iff_shows.mp hRead
    exact ⟨b, hShows, (Except.ok.inj h).symm⟩

/-- Where there is something to be seen, looking and judging succeed. -/
theorem Current.finds (h : w.Current) {stage : ReadingStage} (hFits : w.Fits ⟨n, since, stage⟩)
    (hSince : 0 < since) :
    (∃ info, w.registry.look w.files n = .ok info) ∧ ∃ a, w.registry.judge w.files n = .ok a := by
  obtain ⟨b, hShows⟩ := h.exists_shows hFits hSince
  refine ⟨?_, _, Registry.judge_of_shows hShows⟩
  rcases Registry.look_cases w.registry w.files n with ⟨b', -, hLook⟩ | ⟨f, -, hFails⟩
  · exact ⟨_, hLook⟩
  · cases hFails.symm.trans (Registry.afresh_of_shows hShows)

/-- A reading finds the file as it is. -/
theorem look_eq_ok (h : w.registry.look w.files n = .ok info) :
    ∃ b, w.site.Shows w.files n b ∧ info = b.info := by
  rcases Registry.look_cases w.registry w.files n with ⟨b, hShows, hLook⟩ | ⟨f, hLook, -⟩
  · exact ⟨b, hShows, Except.ok.inj (h.symm.trans hLook)⟩
  · cases h.symm.trans hLook

/-- A step of a reading other than remembering comes to no judgement but one of the file. -/
theorem Current.readingStep (h : w.Current) {stage : ReadingStage}
    (hFits : w.Fits ⟨n, since, stage⟩) (hNew : ∀ info a, stage ≠ .judged info a) :
    (w.withReading i (some ⟨n, since, stage⟩)).Current := by
  refine h.withReading (fun x hx => ?_) fun m k info a hReading => ?_
  · cases hx
    exact hFits
  · cases hReading
    exact absurd rfl (hNew info a)

theorem lookup_remember (r : Registry) (n k : ScriptName) (info : FileInfo) (a : Analysis) :
    (r.remember n info a).remembered.lookup k =
      if k == n then some ⟨info.size, info.modified, a⟩ else r.remembered.lookup k := by
  show List.lookup k ((n, _) :: (r.forget n).remembered) = _
  rw [lookup_cons_eq, Registry.lookup_forget]
  cases k == n <;> rfl

/-- Remembering a judgement offers none that its reading did not hold. -/
theorem Current.remember (h : w.Current)
    (hReading : w.readings i = some ⟨n, since, .judged info a⟩) :
    (w.withRegistry (w.registry.remember n info a)).Current := by
  refine h.withRegistry rfl fun k x hFound => ?_
  rw [lookup_remember] at hFound
  split at hFound
  · next hName =>
    obtain rfl : k = n := by simpa using hName
    cases hFound
    exact Or.inr ⟨i, since, info, hReading, rfl⟩
  · exact Or.inl ⟨x, hFound, rfl, rfl⟩

/-- Forgetting a judgement leaves those of the other scripts. -/
theorem Current.forget (h : w.Current) (n : ScriptName) :
    (w.withRegistry (w.registry.forget n)).Current := by
  refine h.withRegistry rfl fun k x hFound => ?_
  rw [Registry.lookup_forget] at hFound
  split at hFound
  · cases hFound
  · exact Or.inl ⟨x, hFound, rfl, rfl⟩

/-- What every step keeps, when files get unclaimed stamps only. -/
theorem step_current (h : w.Current) (hStep : Step w act w') (hUnclaimed : w.Unclaimed act w') :
    w'.Current := by
  cases hStep with
  | begin n hFree =>
    exact h.readingStep ⟨Nat.le_refl _, trivial⟩ (by simp)
  | look hReading hLook =>
    obtain ⟨hSince, -⟩ := h.reading hReading
    obtain ⟨b, hShows, rfl⟩ := look_eq_ok hLook
    refine h.readingStep ⟨hSince, fun a hOffered => ?_⟩ (by simp)
    exact (h.offered hShows hOffered).of_le hSince
  | lookFails hReading hLook =>
    have hFits := h.reading hReading
    refine h.readingStep ⟨hFits.1, fun hPositive => ?_⟩ (by simp)
    obtain ⟨⟨info, hFound⟩, -⟩ := h.finds hFits hPositive
    cases hLook.symm.trans hFound
  | hit hReading hFound =>
    obtain ⟨hSince, hAwaited⟩ := h.reading hReading
    obtain ⟨x, hLookup, hStamp, rfl⟩ := Registry.remembered?_eq_some.mp hFound
    refine h.readingStep ⟨hSince, fun _ => ⟨_, _, rfl, ?_⟩⟩ (by simp)
    exact hAwaited _ (Or.inl ⟨x, hLookup, hStamp, rfl⟩)
  | miss hReading hNothing =>
    exact h.readingStep ⟨(h.reading hReading).1, trivial⟩ (by simp)
  | judge hReading hJudge =>
    obtain ⟨hSince, -⟩ := h.reading hReading
    obtain ⟨b, hShows, rfl⟩ := judge_ok hJudge
    refine h.withReading (fun x hx => ?_) fun m k info a hJudged => ?_
    · cases hx
      exact ⟨hSince, h.recent_of_shows hShows (Nat.le_trans hSince (h.answered _))⟩
    · cases hJudged
      exact ⟨b, hShows, rfl⟩
  | judgeFails hReading hJudge =>
    have hFits := h.reading hReading
    refine h.readingStep ⟨hFits.1, fun hPositive => ?_⟩ (by simp)
    obtain ⟨-, a, hFound⟩ := h.finds hFits hPositive
    cases hJudge.symm.trans hFound
  | @remember i n since info a hReading =>
    obtain ⟨hSince, hRecent⟩ := h.reading hReading
    exact (h.remember hReading).readingStep ⟨hSince, fun _ => ⟨info, a, rfl, hRecent⟩⟩ (by simp)
  | leave hReading =>
    exact h.withReading (fun x hx => by cases hx) fun _ _ _ _ hx => by cases hx
  | retain there =>
    exact h.withRegistry (r := w.registry.retain there) rfl fun k x hFound =>
      Or.inl ⟨x, Registry.lookup_of_lookup_filter _ there.contains hFound, rfl, rfl⟩
  | openDraft hUpload hOpen =>
    obtain ⟨q, hPlace, hDrafted⟩ := Site.drafted_of_openEmpty h.settled hOpen
    refine h.withDraft (hDrafted.settled h.settled) (hDrafted.shows_iff h.settled hPlace)
      (fun hm hDraft => hDraft.beside_draft hm hDrafted hPlace) (fun k hk => ?_) (by simp)
    cases hk
    exact hDrafted.hasDraft hPlace
  | write bytes hUpload =>
    obtain ⟨q, hPlace, hDrafted⟩ := (h.opened hUpload).append h.settled w.store.now bytes
    refine h.withDraft (hDrafted.settled h.settled) (hDrafted.shows_iff h.settled hPlace)
      (fun hm hDraft => hDraft.beside_draft hm hDrafted hPlace) (by simp) (fun k x hk => ?_)
    cases hk
    exact hDrafted.hasDraft hPlace
  | place hUpload hRename => exact h.place hUpload hRename hUnclaimed
  | @settle n hUpload =>
    have hForgotten : (w.registry.forget n).remembered.lookup n = none := by
      rw [Registry.lookup_forget, if_pos (by simp)]
    have hLess := h.forget n
    exact Current.answer (hLess.withDraft hLess.settled Iff.rfl (fun _ hDraft => hDraft) (by simp)
      (by simp)) hForgotten
  | abandon hUpload =>
    exact h.withDraft h.settled Iff.rfl (fun _ hDraft => hDraft) (by simp) (by simp)
  | clock now => exact ⟨h.settled, h.opened, h.written, h.shown, h.answered, h.offered, h.held, h.reading⟩

/-- Before anything is under way, whatever is remembered. -/
theorem quiet_current {s : Store} (h : s.site.undesignated.Settled s.files) : (quiet s).Current where
  settled := h
  opened hUpload := by cases hUpload
  written hUpload := by cases hUpload
  shown hLast := by cases hLast
  answered _ := Nat.le_refl _
  offered _ _ hPositive := absurd hPositive (Nat.lt_irrefl 0)
  held hReading := by cases hReading
  reading hReading := by cases hReading

theorem reaches_current {s : Store} (hSettled : s.site.undesignated.Settled s.files)
    (hReach : Reaches Unclaimed (quiet s) w) : w.Current := by
  induction hReach with
  | refl => exact quiet_current hSettled
  | step _ hStep hUnclaimed ih => exact step_current ih hStep hUnclaimed

-- ---------------------------------------------------------------------------
-- A slow reading
-- ---------------------------------------------------------------------------

/-- A reading reads the file of a script, a whole upload of the script comes, and then the reading
remembers what it has read. -/
theorem slow_reading {Allowed : Traffic → Act → Traffic → Prop} {s : Store} {id : FileId}
    {bytes : List UInt8} {opened placed : Files}
    (hLook : s.registry.look s.files n = .ok info) (hNothing : s.registry.remembered = [])
    (hJudge : s.registry.judge s.files n = .ok a)
    (hOpen : s.files.openEmpty s.now (s.site.seen (s.site.uploadPath n)) = .ok (id, opened))
    (hRename : (opened.append s.now id bytes).rename (s.site.seen (s.site.uploadPath n))
      (s.site.seen (s.site.scriptPath n)) = .ok placed)
    (hFree : ∀ w act w', (∀ m, act ≠ .place m) → Allowed w act w')
    (hPlace : ∀ w w', w.registry = s.registry →
      (∀ i since info' a', w.readings i = some ⟨n, since, .judged info' a'⟩ → info' = info) →
      w'.files = placed → w'.site = s.site → Allowed w (.place n) w') :
    ∃ w, Reaches Allowed (quiet s) w ∧ w.files = placed ∧
      w.registry = (s.registry.forget n).remember n info a ∧ w.store.now = s.now ∧
      w.given n = [bytes] ∧ w.answered n = 1 ∧ w.readings 1 = none := by
  have hUnknown : s.registry.remembered? n info = none := by
    simp [Registry.remembered?, hNothing]
  have hBegun : Reaches Allowed (quiet s) _ :=
    Reaches.refl.step (.begin n rfl) (hFree _ (.read 0) _ (by simp))
  have hLooked := hBegun.step (.look (if_pos rfl) hLook) (hFree _ _ _ (by simp))
  have hMissed := hLooked.step (.miss (if_pos rfl) hUnknown) (hFree _ _ _ (by simp))
  have hJudged := hMissed.step (.judge (if_pos rfl) hJudge) (hFree _ _ _ (by simp))
  have hOpened := hJudged.step (.openDraft rfl hOpen) (hFree _ _ _ (by simp))
  have hWritten := hOpened.step (.write bytes (if_pos rfl)) (hFree _ _ _ (by simp))
  have hPlaced := hWritten.step (.place (if_pos rfl) hRename) (by
    refine hPlace _ _ rfl (fun i since info' a' hReading => ?_) rfl rfl
    by_cases hi : i = 0
    · simp [withUpload, withFiles, withReading, hi] at hReading
      exact hReading.2.1.symm
    · simp [withUpload, withFiles, withReading, quiet, hi] at hReading)
  have hSettled := hPlaced.step (.settle (if_pos rfl)) (hFree _ _ _ (by simp))
  obtain ⟨v, hReach, hHeld, hStore, hGiven, hAnswered, hOther⟩ : ∃ v, Reaches Allowed (quiet s) v ∧
      v.readings 0 = some ⟨n, 0, .judged info a⟩ ∧
      v.store = { s with files := placed, registry := s.registry.forget n } ∧
      v.given n = [bytes] ∧ v.answered n = 1 ∧ v.readings 1 = none := by
    refine ⟨_, hSettled, rfl, rfl, ?_, ?_, rfl⟩
    · simp [answer, gives, withUpload, withFiles, withReading, withRegistry, quiet]
    · simp [answer, gives, withUpload, withFiles, withReading, withRegistry, quiet]
  refine ⟨_, hReach.step (.remember hHeld) (hFree _ _ _ (by simp)), ?_, ?_, ?_, hGiven, hAnswered, ?_⟩
  · show v.store.files = placed
    rw [hStore]
  · show v.store.registry.remember n info a = _
    rw [hStore]
  · show v.store.now = s.now
    rw [hStore]
  · exact hOther

/-- A store in whose scripts directory someone has put a file of one byte, which is no text. -/
def copiedStore : Store := (Deed.write "/scripts/a.py" [0xFF]).perform emptyStore

theorem copiedStore_registry : copiedStore.registry = emptyStore.registry := by
  rw [copiedStore, Deed.perform]
  split <;> rfl

theorem copiedStore_settled : copiedStore.site.undesignated.Settled copiedStore.files := by
  have hDone : emptyStore.files.write emptyStore.now "/scripts/a.py" [0xFF] =
      .ok copiedStore.files := by decide +kernel
  rw [Store.site, copiedStore_registry]
  exact Site.Settled.write emptyStore_settled hDone

theorem copiedStore_nothing : copiedStore.registry.remembered = [] := by
  rw [copiedStore_registry]
  rfl

/-- What the file is seen to be, before and after an upload of one byte at the same time. -/
def byteInfo : FileInfo := { isFile := true, isDirectory := false, size := 1, modified := default }

theorem copiedStore_look : copiedStore.registry.look copiedStore.files default = .ok byteInfo := by
  decide +kernel

theorem copiedStore_judge :
    copiedStore.registry.judge copiedStore.files default = .ok { problems := [.notText] } := by
  decide +kernel

/-- The files when the draft of an upload has been opened. -/
def draftedFiles : Files :=
  ((copiedStore.files.openEmpty copiedStore.now "/scripts/.a.py.upload").toOption.map (·.2)).getD
    copiedStore.files

theorem draftedFiles_opened :
    copiedStore.files.openEmpty copiedStore.now
      (copiedStore.site.seen (copiedStore.site.uploadPath default)) = .ok (1, draftedFiles) := by
  decide +kernel

/-- The files when a draft of these bytes has got the name of its script. -/
def placedFiles (bytes : List UInt8) : Files :=
  ((draftedFiles.append copiedStore.now 1 bytes).rename "/scripts/.a.py.upload"
    "/scripts/a.py").toOption.getD draftedFiles

-- ---------------------------------------------------------------------------
-- The law
-- ---------------------------------------------------------------------------

/--
**No upload is masked by a file that looks like it.** Let readings and uploads be under way on a
scripts directory that is there and holds plain files, their steps in any order and at any time,
where no file gets its script's name with a stamp that is claimed. Then a verdict that was begun
after an upload of its script had been answered is made from what that upload or a later one gave
the script, and is never refused: of the `since` contents that the script had been given up to that
answer it is made from none but the last, or from one that was given afterwards.
-/
theorem verdicts_see_uploads {s : Store} (hSettled : s.site.undesignated.Settled s.files)
    (hReach : Reaches Unclaimed (quiet s) w) {found : Except Fault (FileInfo × Analysis)}
    (hReading : w.readings i = some ⟨n, since, .answered found⟩) (hSince : 0 < since) :
    since ≤ (w.given n).length ∧ ∃ bytes ∈ (w.given n).drop (since - 1), ∃ known,
      w.registry.modules w.files = .ok known ∧
      w.verdictOn found = .ok ((w.registry.analyzeBytes n bytes).resolve known) := by
  have hCurrent := reaches_current hSettled hReach
  obtain ⟨hBefore, hAnswer⟩ := hCurrent.reading hReading
  obtain ⟨info, a, rfl, hRecent⟩ := hAnswer hSince
  obtain ⟨bytes, hMem, hAnalysis⟩ := hRecent hSince
  obtain ⟨ns, hNames⟩ := names_of_settled (r := w.registry) hCurrent.settled
  have hModules : w.registry.modules w.files = .ok (ns.map ScriptName.module) := by
    rw [Registry.modules, hNames]
    rfl
  refine ⟨Nat.le_trans hBefore (hCurrent.answered n), bytes, hMem, _, hModules, ?_⟩
  rw [verdictOn, hModules, hAnalysis]
  rfl

/-- An upload of two bytes, taken while a reading holds the analysis of one byte of the same time: a
verdict that is begun after the upload has been answered is made from the two bytes. -/
theorem longer_upload_seen :
    ∃ w found known, Reaches Unclaimed (quiet copiedStore) w ∧
      w.readings 1 = some ⟨default, 1, .answered found⟩ ∧
      w.verdictOn found = .ok ((w.registry.analyzeBytes default [0x0A, 0x0A]).resolve known) := by
  have hRename : (draftedFiles.append copiedStore.now 1 [0x0A, 0x0A]).rename
      (copiedStore.site.seen (copiedStore.site.uploadPath default))
      (copiedStore.site.seen (copiedStore.site.scriptPath default)) =
      .ok (placedFiles [0x0A, 0x0A]) := by decide +kernel
  have hLook : copiedStore.registry.look (placedFiles [0x0A, 0x0A]) default =
      .ok { byteInfo with size := 2 } := by decide +kernel
  have hFree : ∀ w act w', (∀ m, act ≠ .place m) → Unclaimed w act w' :=
    fun _ _ _ hOther m hPlace => absurd hPlace (hOther m)
  have hLonger : ∀ b, copiedStore.site.Shows (placedFiles [0x0A, 0x0A]) default b →
      byteInfo.stamp ≠ b.stamp := by
    intro b hShows hStamp
    rcases Registry.look_cases copiedStore.registry (placedFiles [0x0A, 0x0A]) default with
      ⟨b', hShown, hInfo⟩ | ⟨f, hFails, -⟩
    · obtain rfl := hShows.unique hShown
      have hSize := congrArg FileInfo.size (Except.ok.inj (hLook.symm.trans hInfo))
      exact absurd ((congrArg Prod.fst hStamp).trans hSize.symm) (by decide)
    · cases hLook.symm.trans hFails
  obtain ⟨w, hReach, hFiles, hRegistry, -, hGiven, hAnswered, hNone⟩ :=
    slow_reading copiedStore_look copiedStore_nothing copiedStore_judge draftedFiles_opened
      hRename hFree (by
        intro w w' hRules hReadings hFiles hSite n hPlace b hShows
        cases hPlace
        rw [hSite, hFiles] at hShows
        refine ⟨fun i since info a hReading => ?_, fun x hFound => ?_⟩
        · rw [hReadings i since info a hReading]
          exact hLonger b hShows
        · rw [hRules, copiedStore_nothing] at hFound
          cases hFound)
  have hSeen : w.registry.look w.files default = .ok { byteInfo with size := 2 } := by
    rw [hRegistry, hFiles]
    exact hLook
  have hBegun := hReach.step (.begin (i := 1) default hNone) (hFree _ _ _ (by simp))
  have hLooked := hBegun.step (.look (if_pos rfl) hSeen) (hFree _ _ _ (by simp))
  have hUnknown : w.registry.remembered? default { byteInfo with size := 2 } = none := by
    rw [hRegistry, Registry.remembered?, lookup_remember, if_pos (by simp)]
    decide
  have hMissed := hLooked.step (.miss (if_pos rfl) hUnknown) (hFree _ _ _ (by simp))
  obtain ⟨b, hShows, -⟩ := look_eq_ok hSeen
  have hJudged := hMissed.step (.judge (if_pos rfl) (Registry.judge_of_shows hShows))
    (hFree _ _ _ (by simp))
  have hDone := hJudged.step (.remember (if_pos rfl)) (hFree _ _ _ (by simp))
  have hOwn := verdicts_see_uploads copiedStore_settled hDone (if_pos rfl) (by
    rw [hAnswered]
    exact Nat.one_pos)
  obtain ⟨-, bytes, hMem, known, -, hVerdict⟩ := hOwn
  change bytes ∈ (w.given default).drop (w.answered default - 1) at hMem
  rw [hGiven, hAnswered] at hMem
  obtain rfl : bytes = [0x0A, 0x0A] := by simpa using hMem
  refine ⟨_, _, known, hDone, ?_, hVerdict⟩
  rw [← hAnswered]
  exact if_pos rfl

/-- An upload of one byte, taken while a reading holds the analysis of another byte of the same
time: a verdict that is begun after the upload has been answered is made from the old byte. -/
theorem slow_reading_masks_upload :
    ∃ w, Reaches AnyStep (quiet copiedStore) w ∧ w.store.now = copiedStore.now ∧
      w.given default = [[0x0A]] ∧ w.answered default = 1 ∧
      w.readings 1 =
        some ⟨default, 1, .answered (.ok (byteInfo, { problems := [.notText] }))⟩ ∧
      w.registry.analyzeBytes default [0x0A] ≠ { problems := [.notText] } := by
  have hRename : (draftedFiles.append copiedStore.now 1 [0x0A]).rename
      (copiedStore.site.seen (copiedStore.site.uploadPath default))
      (copiedStore.site.seen (copiedStore.site.scriptPath default)) =
      .ok (placedFiles [0x0A]) := by decide +kernel
  have hLook : copiedStore.registry.look (placedFiles [0x0A]) default = .ok byteInfo := by
    decide +kernel
  obtain ⟨w, hReach, hFiles, hRegistry, hNow, hGiven, hAnswered, hFree⟩ :=
    slow_reading copiedStore_look copiedStore_nothing copiedStore_judge draftedFiles_opened
      hRename (fun w a w' _ => (trivial : AnyStep w a w')) (fun w w' _ _ _ _ => trivial)
  have hBegun := hReach.next (.begin (i := 1) default hFree)
  have hSeen : w.registry.look w.files default = .ok byteInfo := by
    rw [hRegistry, hFiles]
    exact hLook
  have hLooked := hBegun.next (.look (if_pos rfl) hSeen)
  have hFound : w.registry.remembered? default byteInfo = some { problems := [.notText] } := by
    rw [hRegistry, Registry.remembered?, lookup_remember, if_pos (by simp)]
    decide
  have hAnswer := hLooked.next (.hit (if_pos rfl) hFound)
  refine ⟨_, hAnswer, hNow, hGiven, hAnswered, ?_, ?_⟩
  · rw [← hAnswered]
    exact if_pos rfl
  · show w.registry.analyzeBytes default [0x0A] ≠ _
    have hText : decodeUtf8? [0x0A] = some "\n" := by decide +kernel
    rw [hRegistry, Registry.analyzeBytes, hText]
    exact Rules.analyzeScript_ne_notText _ _ _

end Traffic

end ScriptWarden
