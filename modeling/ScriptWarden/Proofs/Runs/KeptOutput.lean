import ScriptWarden.Proofs.Runs.EndedSessions

/-!
# The output that is kept

Whatever the readers of a session find is published, and as long as all of it is within the limit,
all of it is kept. A supervisor has the log written when no output is read any more: each has come
to its end, or was given up. So the log of a session holds all the output that there ever is.

## Results

* `Chronicle.keepsOutput` — what is kept of each session, in every run.
* `Chronicle.logged_output` — what was kept when the log was written is all there is.
* `Session.logText_of_whole` — the text of such a log.
* `last_log` — whose log is there.
-/

namespace ScriptWarden

variable {Allowed : Scene → Action → Scene → Prop} {s₀ s s' : Scene} {past : List Happening}
  {told : Option Happening} {a : Action} {id limit : Nat} {x y : Session}

-- ---------------------------------------------------------------------------
-- Output
-- ---------------------------------------------------------------------------

/-- What is read of a session in what happens. -/
def Happening.outputOf (id : Nat) : Happening → List UInt8
  | .read i _ (.bytes bytes) => if i = id then bytes else []
  | _ => []

/-- All that the readers of a session have read and published, in the order in which they did. -/
def outputOf (id : Nat) : List Happening → List UInt8
  | [] => []
  | happening :: earlier => outputOf id earlier ++ happening.outputOf id

theorem Happening.outputOf_of_ne {i : Nat} {stream : Stream} {got : Host.PipeRead} (h : i ≠ id) :
    (Happening.read i stream got).outputOf id = [] := by
  cases got with
  | bytes bytes => exact if_neg h
  | _ => rfl

/-- Nothing was read of sessions that there are not yet. -/
theorem Chronicle.outputOf_new (hSound : s₀.Sound) (h : Chronicle Allowed s₀ past s)
    (hNew : s.deployment.service.nextSession ≤ id) : outputOf id past = [] := by
  induction h with
  | begin => rfl
  | @next past s s' a told hPast hHappens _ ih =>
    have hNext := (hHappens.advances (hPast.sound hSound)).next
    have hBefore := ih (Nat.le_trans hNext hNew)
    cases hHappens with
    | @read i stream x got hRead =>
      have hBelow := (hPast.sound hSound).idsBelow x.life (life_mem (read?_cases hRead).1)
      have hId : x.life.id = i := session?_id (read?_cases hRead).1
      have hOther : i ≠ id := by omega
      show outputOf id past ++ (Happening.read i stream got).outputOf id = []
      rw [hBefore, Happening.outputOf_of_ne hOther]
      rfl
    | other => exact hBefore
    | _ =>
      show outputOf id past ++ [] = []
      rw [hBefore]
      rfl

-- ---------------------------------------------------------------------------
-- Readers and supervisors
-- ---------------------------------------------------------------------------

/-- Whether an output may be read while a supervisor is at this. -/
def Supervision.MayRead (stream : Stream) : Supervision → Prop
  | .watching | .asked _ | .killed => True
  | .draining _ left _ => stream ∈ left
  | .recording _ | .leaving _ | .announcing _ | .finished => False

theorem Supervision.not_mayRead {stream : Stream} {v : Supervision} (h : 4 ≤ v.rank) :
    ¬ v.MayRead stream := by
  cases v <;> simp_all [rank, MayRead]

/-- An output that is read on, and not given up, may be read on. -/
theorem Supervision.mayRead_of_step? {v v' : Supervision} {o : Outlook} {act : SupervisorAct}
    (h : v.step? o = some (v', act)) {stream : Stream} (hReading : stream ∈ o.reading)
    (hKept : act ≠ .abandon stream) (hMay : v.MayRead stream) : v'.MayRead stream := by
  have hBoth : stream ∈ [Stream.out, Stream.err] := by
    cases stream <;> decide
  cases v with
  | watching =>
    simp only [step?] at h
    split at h
    · split at h <;> cases h
      · trivial
      · exact hBoth
    · split at h <;> cases h
      trivial
  | asked deadline =>
    simp only [step?] at h
    split at h
    · cases h
      exact hBoth
    · split at h <;> cases h
      trivial
  | killed =>
    obtain ⟨status, -, hEnded⟩ := Option.map_eq_some_iff.mp h
    cases hEnded
    exact hBoth
  | draining status left deadline =>
    cases left with
    | nil => cases hMay
    | cons first rest =>
      have hAmong : stream ∈ first :: rest := hMay
      simp only [step?] at h
      split at h
      · next hGone =>
        cases h
        rcases List.mem_cons.mp hAmong with rfl | hRest
        · exact absurd (List.contains_iff_mem.mpr hReading) (by simpa using hGone)
        · exact hRest
      · split at h <;> cases h
        rcases List.mem_cons.mp hAmong with rfl | hRest
        · exact absurd rfl hKept
        · exact hRest
  | recording exit => cases hMay
  | leaving exit => cases hMay
  | announcing exit => cases hMay
  | finished => cases hMay

/-- What a supervisor does lets no output be read that was not. -/
theorem Session.mem_reading_of_does {act : SupervisorAct} {stream : Stream}
    (h : stream ∈ (x.does act).reading) : stream ∈ x.reading ∧ act ≠ .abandon stream := by
  cases act with
  | abandon other =>
    obtain ⟨hMem, hOther⟩ := List.mem_filter.mp h
    refine ⟨hMem, fun hSame => ?_⟩
    cases hSame
    simp at hOther
  | _ => exact ⟨h, nofun⟩

-- ---------------------------------------------------------------------------
-- What is kept
-- ---------------------------------------------------------------------------

/-- What a hub keeps of the output. -/
def Hub.stored (h : Hub) : Nat × List (List UInt8) × Nat × Bool :=
  (h.limit, h.history, h.historyBytes, h.truncated)

theorem Session.does_stored (x : Session) (act : SupervisorAct) :
    (x.does act).hub.stored = x.hub.stored := by
  cases act with
  | announce exit =>
    show (x.hub.finish exit).stored = x.hub.stored
    unfold Hub.finish
    split <;> rfl
  | _ => rfl

/-- A piece that is within the limit is kept, with all that was. -/
theorem Hub.publish_stored {h : Hub} (chunk : List UInt8) (hOpen : h.ended = none)
    (hFits : h.historyBytes + chunk.length ≤ h.limit) :
    (h.publish chunk).history.flatten = h.history.flatten ++ chunk ∧
      (h.publish chunk).historyBytes = h.historyBytes + chunk.length ∧
      (h.publish chunk).truncated = h.truncated := by
  cases hChunk : chunk.isEmpty with
  | true =>
    rw [publish_of_isEmpty hChunk, List.isEmpty_iff.mp hChunk]
    exact ⟨(List.append_nil _).symm, rfl, rfl⟩
  | false =>
    rw [publish_of_open hChunk hOpen, trim_of_le hFits]
    simp

/-- What is kept of a session is all that was read of it, as long as that is within the limit, and
only outputs that its supervisor waits for are read. -/
structure KeptOutput (limit : Nat) (past : List Happening) (x : Session) : Prop where
  limited : x.hub.limit = limit
  whole : (outputOf x.id past).length ≤ limit → x.hub.history.flatten = outputOf x.id past ∧
    x.hub.historyBytes = (outputOf x.id past).length ∧ x.hub.truncated = false
  reading : ∀ stream ∈ x.reading, x.supervision.MayRead stream

/-- What keeps the output, and is read as it may be, is kept as it was. -/
theorem KeptOutput.of_stored (h : KeptOutput limit past x) (hId : y.id = x.id)
    (hStored : y.hub.stored = x.hub.stored)
    (hReading : ∀ stream ∈ y.reading, y.supervision.MayRead stream) : KeptOutput limit past y := by
  obtain ⟨hLimit, hHistory, hBytes, hTruncated⟩ :
      y.hub.limit = x.hub.limit ∧ y.hub.history = x.hub.history ∧
        y.hub.historyBytes = x.hub.historyBytes ∧ y.hub.truncated = x.hub.truncated := by
    simpa [Hub.stored] using hStored
  refine ⟨hLimit.trans h.limited, ?_, hReading⟩
  rw [hId, hHistory, hBytes, hTruncated]
  exact h.whole

theorem KeptOutput.turn {mine : Nat → Prop} (h : KeptOutput limit past x) (hTurn : x.Turn mine y) :
    KeptOutput limit past y := by
  have hLife := hTurn.life
  refine h.of_stored (congrArg Life.id hLife) ?_ ?_
  · rw [hTurn.hub]
    rfl
  · rw [hTurn.reading, show y.supervision = x.supervision from congrArg Life.supervision hLife]
    exact h.reading

/-- What is kept is left alone by supervisors, who give outputs up but take none up again. -/
theorem KeptOutput.act (h : KeptOutput limit past x) {o : Outlook} {supervision : Supervision}
    {act : SupervisorAct} (hOutlook : o.reading = x.reading)
    (hStep : x.supervision.step? o = some (supervision, act)) :
    KeptOutput limit past (({ x with supervision } : Session).does act) := by
  have hLife := Session.does_life { x with supervision } act
  refine h.of_stored (congrArg Life.id hLife) (Session.does_stored _ act) fun stream hMem => ?_
  obtain ⟨hBefore, hNot⟩ := Session.mem_reading_of_does hMem
  have hReading : stream ∈ o.reading := by
    rw [hOutlook]
    exact hBefore
  rw [Session.does_supervision]
  exact Supervision.mayRead_of_step? hStep hReading hNot (h.reading stream hBefore)

/-- What reads nothing of a session leaves what is kept of it. -/
theorem KeptOutput.mono (h : KeptOutput limit past x) {happening : Happening}
    (hNothing : happening.outputOf x.id = []) : KeptOutput limit (happening :: past) x := by
  have hSame : outputOf x.id (happening :: past) = outputOf x.id past := by
    show outputOf x.id past ++ happening.outputOf x.id = outputOf x.id past
    rw [hNothing, List.append_nil]
  refine ⟨h.limited, ?_, h.reading⟩
  rw [hSame]
  exact h.whole

/-- What a reader finds is kept. -/
theorem KeptOutput.reads (h : KeptOutput limit past x) (hOpen : x.hub.ended = none)
    (stream : Stream) (got : Host.PipeRead) :
    KeptOutput limit (.read x.id stream got :: past) (x.reads stream got) := by
  cases got with
  | bytes bytes =>
    have hAll : outputOf x.id (.read x.id stream (.bytes bytes) :: past) =
        outputOf x.id past ++ bytes := congrArg (outputOf x.id past ++ ·) (if_pos rfl)
    refine ⟨(Hub.limit_act x.hub (.publish bytes)).trans h.limited, ?_, h.reading⟩
    show (outputOf x.id _).length ≤ limit →
      (x.hub.publish bytes).history.flatten = outputOf x.id _ ∧
      (x.hub.publish bytes).historyBytes = (outputOf x.id _).length ∧
      (x.hub.publish bytes).truncated = false
    rw [hAll, List.length_append]
    intro hFits
    obtain ⟨hHistory, hBytes, hTruncated⟩ := h.whole (by omega)
    obtain ⟨hHistory', hBytes', hTruncated'⟩ :=
      Hub.publish_stored bytes hOpen (by rw [hBytes, h.limited]; exact hFits)
    rw [hHistory', hHistory, hBytes', hBytes, hTruncated', hTruncated]
    exact ⟨rfl, rfl, rfl⟩
  | empty => exact h.mono rfl
  | ended =>
    have hSame : KeptOutput limit past (x.stopReading stream) :=
      h.of_stored rfl rfl fun other hMem => h.reading other (List.mem_filter.mp hMem).1
    exact hSame.mono rfl

/-- Of every session, as much is kept as the configuration says. -/
theorem Chronicle.keepsOutput {config : Config} {workingDir hostname : String} {host : Host}
    (h : Chronicle Allowed (Scene.initial config workingDir hostname host) past s)
    (hSession : s.deployment.service.session? id = some x) :
    KeptOutput config.replayLimit past x := by
  have hSound := initial_sound config workingDir hostname host
  induction h generalizing id x with
  | begin => exact absurd hSession Scene.initial_session?
  | @next past s s' a told hPast hHappens _ ih =>
    have hTurns : ∀ {touched}, Turns touched s.deployment s'.deployment →
        KeptOutput config.replayLimit past x := by
      intro touched hTurns
      rcases hTurns.before hSession with ⟨y, hBefore, hTurn⟩ | ⟨-, hNew, n, pid, pipes, now, rfl⟩
      · exact (ih hBefore).turn hTurn
      · have hConfig : s.deployment.service.config = config := (hPast.advances hSound).config
        have hNothing : outputOf id past = [] := hPast.outputOf_new hSound hNew
        refine ⟨congrArg Config.replayLimit hConfig, fun _ => ?_, fun _ _ => trivial⟩
        show _ = outputOf id past ∧ _ = (outputOf id past).length ∧ _
        rw [hNothing]
        exact ⟨rfl, rfl, rfl⟩
    cases hHappens with
    | @supervise i _ y act _ hAct =>
      have hNow := (act_session? hAct id).symm.trans hSession
      split at hNow
      · obtain rfl := Option.some.inj hNow
        obtain ⟨z, o, supervision, hBefore, hOutlook, hStep, rfl⟩ := act?_cases hAct
        exact ((ih hBefore).act hOutlook hStep).mono rfl
      · exact (ih hNow).mono rfl
    | @read i stream y got hRead =>
      obtain ⟨hBefore, hReading, -⟩ := read?_cases hRead
      have hNow := ((read_session? hRead).2 id).symm.trans hSession
      split at hNow
      · obtain rfl := Option.some.inj hNow
        have hId : y.id = i := session?_id hBefore
        -- an output is not read when the end is announced
        have hOpen : y.hub.ended = none := by
          by_contra hEnded
          have hFinished := (hPast.accounted hBefore).announced
            (Option.isSome_iff_ne_none.mpr hEnded)
          have hMay := (ih hBefore).reading stream (List.contains_iff_mem.mp hReading)
          rw [hFinished] at hMay
          exact hMay
        rw [← hId]
        exact (ih hBefore).reads hOpen stream got
      · next hOther =>
        refine (ih hNow).mono (Happening.outputOf_of_ne ?_)
        rw [session?_id hNow]
        exact Ne.symm hOther
    | delete n => exact (hTurns (step_turns (hPast.sound hSound) (.delete n) trivial)).mono rfl
    | other hStep hOthers _ => exact hTurns (step_turns (hPast.sound hSound) hStep hOthers)

-- ---------------------------------------------------------------------------
-- What is logged
-- ---------------------------------------------------------------------------

/-- What was kept of a session when its log was to be written is all that is ever read of it, as
long as that is within the limit. -/
theorem Chronicle.logged_output {config : Config} {workingDir hostname : String} {host : Host}
    (h : Chronicle Allowed (Scene.initial config workingDir hostname host) past s) :
    ∀ y ∈ past.filterMap Happening.logged?, (outputOf y.id past).length ≤ config.replayLimit →
      y.hub.contents = outputOf y.id past ∧ y.hub.truncated = false := by
  have hSound := initial_sound config workingDir hostname host
  induction h with
  | begin => simp
  | @next past s s' a told hPast hHappens hAllowed ih =>
    intro y hMem
    rw [List.filterMap_append, List.mem_append] at hMem
    have hSame : outputOf y.id (told.toList ++ past) = outputOf y.id past := by
      cases hHappens with
      | @read i stream x got hRead =>
        -- a session whose log is written is not read any more
        have hOther : i ≠ y.id := by
          rintro rfl
          obtain ⟨hSession, hReading, -⟩ := read?_cases hRead
          obtain ⟨z, hThere, -, hRank⟩ := hPast.logged_stays hSound y
            (hMem.resolve_left (by simp [Happening.logged?]))
          obtain rfl := Option.some.inj (hThere.symm.trans hSession)
          exact Supervision.not_mayRead (by omega)
            ((hPast.keepsOutput hSession).reading stream (List.contains_iff_mem.mp hReading))
        show outputOf y.id past ++ (Happening.read i stream got).outputOf y.id = _
        rw [Happening.outputOf_of_ne hOther, List.append_nil]
      | other => rfl
      | _ => exact List.append_nil _
    rw [hSame]
    rcases hMem with hNow | hEarlier
    · obtain ⟨z, supervision, hSession, rfl, -, -, -⟩ := hHappens.logged hNow
      intro hFits
      obtain ⟨hHistory, -, hTruncated⟩ := (hPast.keepsOutput hSession).whole hFits
      exact ⟨hHistory, hTruncated⟩
    · exact ih y hEarlier

/-- A log that is there is that of the session that was the last to write it. -/
theorem last_log {n : ScriptName} {first : Option (List UInt8)} {bytes : List UInt8}
    (hOrder : (past.filterMap Happening.logged?).Pairwise fun x y => x.name = y.name → y.id < x.id)
    (hLog : logAfter first n past = some bytes) {exit : Exit}
    (hMem : .supervised y (.writeLog exit) true ∈ past) (hName : y.name = n)
    (hLast : ∀ z exit', .supervised z (.writeLog exit') true ∈ past → z.name = n → z.id ≤ y.id) :
    bytes = encodeUtf8 (y.logText exit) := by
  induction past with
  | nil => cases hMem
  | cons happening earlier ih =>
    have hNow : happening.logOf n (logAfter first n earlier) = some bytes := hLog
    rcases List.mem_cons.mp hMem with rfl | hEarlier
    · exact (Option.some.inj ((if_pos hName.symm).symm.trans hNow)).symm
    have hBefore : logAfter first n earlier = some bytes →
        bytes = encodeUtf8 (y.logText exit) := fun hSame =>
      ih (hOrder.sublist ((List.sublist_cons_self happening earlier).filterMap _)) hSame hEarlier
        fun z exit' hThere => hLast z exit' (List.mem_cons_of_mem _ hThere)
    unfold Happening.logOf at hNow
    split at hNow
    · next x exit' =>
      split at hNow
      · next hSame =>
        -- the session that wrote it later would be a later one
        have hLater := hLast x exit' List.mem_cons_self hSame.symm
        have hLogged : y ∈ earlier.filterMap Happening.logged? :=
          List.mem_filterMap.mpr ⟨_, hEarlier, rfl⟩
        have hLess := (List.pairwise_cons.mp hOrder).1 y hLogged (hSame.symm.trans hName.symm)
        omega
      · exact hBefore hNow
    · split at hNow
      · cases hNow
      · exact hBefore hNow
    · exact hBefore hNow

/-- The line break that a log adds to a text of output. -/
def Log.lineBreak (output : String) : String :=
  if output = "" ∨ output.endsWith "\n" = true then "" else "\n"

/-- Output that is kept as a whole stands in the log between the header and the footer. -/
theorem Session.logText_of_whole {output : List UInt8} (hOutput : x.hub.contents = output)
    (hWhole : x.hub.truncated = false) (exit : Exit) :
    x.logText exit = Log.header x.name x.startedAt.timestamp ++
      (decodeLossy output ++ Log.lineBreak (decodeLossy output)) ++ Log.footer exit := by
  have hEnds : ∀ front output : String, front.toList.getLast? = some '\n' →
      Log.lineEnded (front ++ output) = front ++ (output ++ Log.lineBreak output) := by
    intro front output hFront
    have hIff : (front ++ output).endsWith "\n" = true ↔
        output = "" ∨ output.endsWith "\n" = true := by
      rw [endsWith_iff, endsWith_iff, String.toList_append]
      have hBreak : "\n".toList = ['\n'] := rfl
      rw [hBreak, List.singleton_suffix_iff_getLast?_eq_some,
        List.singleton_suffix_iff_getLast?_eq_some, List.getLast?_append]
      constructor
      · intro hLast
        cases hOutput : output.toList.getLast? with
        | none =>
          refine Or.inl (String.toList_inj.mp ?_)
          exact List.getLast?_eq_none_iff.mp hOutput
        | some c =>
          rw [hOutput] at hLast
          exact Or.inr hLast
      · rintro (rfl | hLast)
        · exact hFront
        · rw [hLast]
          rfl
    unfold Log.lineEnded Log.lineBreak
    by_cases hLast : (front ++ output).endsWith "\n" = true
    · rw [if_pos hLast, if_pos (hIff.mp hLast), String.append_empty]
    · rw [if_neg hLast, if_neg fun h => hLast (hIff.mpr h), String.append_assoc]
  have hHeader : (Log.header x.name x.startedAt.timestamp).toList.getLast? = some '\n' := by
    unfold Log.header
    rw [String.toList_append]
    generalize String.toList _ = front
    exact List.getLast?_append_of_ne_nil front (by decide)
  rw [Session.logText, Log.text, hOutput, hWhole]
  show Log.lineEnded (Log.header x.name x.startedAt.timestamp ++ "" ++ decodeLossy output) ++ _ = _
  rw [String.append_empty, hEnds _ _ hHeader]

end ScriptWarden
