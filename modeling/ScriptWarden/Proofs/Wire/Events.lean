import ScriptWarden.Proofs.Wire.Fields

/-!
# Events as text

An event is written as an object whose first field is its kind. What may be missing from it is
written, null or left out, and its lists may be left out where they are empty. Moments have to be of
the calendar, as those that are read are, and runtimes have to be read back from their texts.

## Results

* `RunningScript.shape_toJson` — a session in reports is read as it was written.
* `Event.parse_of_spells` — every way to write an event is read as that event.
* `Event.times_of_parse` — the moments of an event that is read are of the calendar.
-/

namespace ScriptWarden

open Json (Holds Readable WellFormed FieldValues present readAll_tagged)

-- ---------------------------------------------------------------------------
-- Running scripts
-- ---------------------------------------------------------------------------

namespace RunningScript

variable {r : RunningScript}

/-- A session in reports is read as it was written. -/
theorem shape_toJson (hTime : r.startTime.Representable) (hRuntime : r.runtime.RoundTrips) :
    shape r.toJson = .ok r := by
  have hScript : Holds Shape.string none _ _ := .text r.script
  have hPid : Holds Shape.pid none _ _ := .pid r.pid
  have hStart : Holds Shape.timestamp none _ _ := .time hTime
  have hSpan : Holds Shape.real none _ _ := .real hRuntime
  have hJson : r.toJson = .obj (present [("script", some (.str r.script)),
      ("pid", some (.nat r.pid.toNat)), ("start_time", some (.str r.startTime.text)),
      ("runtime", some (.real r.runtime))]) := rfl
  have hFields : WellFormed [.of "script" Shape.string, .of "pid" Shape.pid,
      .of "start_time" Shape.timestamp, .of "runtime" Shape.real]
      [("script", some (.str r.script)), ("pid", some (.nat r.pid.toNat)),
        ("start_time", some (.str r.startTime.text)), ("runtime", some (.real r.runtime))] :=
    ⟨by decide, .cons ⟨rfl, hScript.fits _⟩ (.cons ⟨rfl, hPid.fits _⟩
      (.cons ⟨rfl, hStart.fits _⟩ (.cons ⟨rfl, hSpan.fits _⟩ .nil)))⟩
  simp only [hJson, shape, hFields.ofJson, bind, Except.bind, hFields.get_eq 0 hScript rfl,
    hFields.get_eq 1 hPid rfl, hFields.get_eq 2 hStart rfl, hFields.get_eq 3 hSpan rfl]

theorem readable_toJson (hRuntime : r.runtime.RoundTrips) (depth : Nat) :
    Readable (depth + 1) r.toJson := by
  have hPid : r.pid.toNat ≤ Json.maxU64 :=
    Nat.le_trans (Nat.le_of_lt r.pid.toNat_lt) (by decide)
  refine .obj fun f hMem => ?_
  simp only [List.mem_cons, List.not_mem_nil, or_false] at hMem
  rcases hMem with rfl | rfl | rfl | rfl
  · exact .str _
  · exact .nat hPid
  · exact .str _
  · exact .real hRuntime

end RunningScript

/-- The beginning of a session that is read is a moment of the calendar. -/
theorem RunningScript.ensures_shape :
    RunningScript.shape.Ensures fun r => r.startTime.Representable := by
  intro j s h
  obtain ⟨r, -, h⟩ := bind_eq_ok_iff.mp h
  obtain ⟨script, -, h⟩ := bind_eq_ok_iff.mp h
  obtain ⟨pid, -, h⟩ := bind_eq_ok_iff.mp h
  obtain ⟨time, hTime, h⟩ := bind_eq_ok_iff.mp h
  obtain ⟨runtime, -, h⟩ := bind_eq_ok_iff.mp h
  rw [← Except.ok.inj h]
  exact Shape.ensures_timestamp.get hTime

-- ---------------------------------------------------------------------------
-- Events
-- ---------------------------------------------------------------------------

namespace Event

/-- The moments in an event. -/
def times : Event → List Timestamp
  | .started _ _ time | .watching _ _ time => [time]
  | .status _ _ _ time _ => time.toList
  | .allStatus running => running.map (·.startTime)
  | _ => []

/-- The runtimes in an event. -/
def runtimes : Event → List Binary64
  | .processEnded _ _ _ runtime => [runtime]
  | .status _ _ _ _ runtime => runtime.toList
  | .allStatus running => running.map (·.runtime)
  | _ => []

/-- How an event is written: as it is sent, or with what may be missing as null or left out, and
empty lists written. -/
inductive Spells : Event → Json → Prop
  | plain (e : Event) : Spells e e.toJson
  | processEnded {script : String} {exitCode signal : Option Int32} {runtime : Binary64}
      {code mark : Option Json} : OptionalField (.int ·.toInt) exitCode code →
      OptionalField (.int ·.toInt) signal mark →
      Spells (.processEnded script exitCode signal runtime)
        (tagged "process_ended" (present [("script", some (.str script)), ("exit_code", code),
          ("signal", mark), ("runtime", some (.real runtime))]))
  | status {script : String} {running : Bool} {pid : Option UInt32} {time : Option Timestamp}
      {runtime : Option Binary64} {number start span : Option Json} :
      OptionalField (.nat ·.toNat) pid number → OptionalField (.str ·.text) time start →
      OptionalField .real runtime span →
      Spells (.status script running pid time runtime)
        (tagged "status" (present [("script", some (.str script)),
          ("running", some (.bool running)), ("pid", number), ("start_time", start),
          ("runtime", span)]))
  | error {message : String} {errors missing : List String} {found absent : Option Json} :
      ListField errors found → ListField missing absent →
      Spells (.error message errors missing)
        (tagged "error" (present [("message", some (.str message)), ("errors", found),
          ("missing", absent)]))

variable {kind : String} {shapes : List FieldShape} {values : FieldValues} {e : Event}

-- The equations of `ofTagged` are made here once, not by every proof below that opens it.
attribute [local simp] ofTagged

/-- An event of some kind is read, if its fields are. -/
theorem parse_tagged (hFields : WellFormed shapes values) (hKind : kind ∈ kinds)
    (hTag : "type" ∉ shapes.map (·.name))
    (hRead : ofTagged (kind, .obj (present values)) = .ok e) :
    parse (tagged kind (present values)).write = .ok e :=
  readAll_tagged hFields hKind hTag hRead

theorem parse_connected (hostname : String) :
    parse (toJson (.connected hostname)).write = .ok (.connected hostname) := by
  have hJson : toJson (.connected hostname) =
      tagged "connected" (present [("hostname", some (.str hostname))]) := rfl
  have hFields : WellFormed [.of "hostname" Shape.string] [("hostname", some (.str hostname))] :=
    ⟨by decide, .cons ⟨rfl, (Holds.text hostname).fits _⟩ .nil⟩
  rw [hJson]
  refine parse_tagged hFields (by decide) (by decide) ?_
  simp only [ofTagged, hFields.ofJson, bind, Except.bind, hFields.get_eq 0 (.text hostname) rfl]

theorem parse_output (script data : String) :
    parse (toJson (.output script data)).write = .ok (.output script data) := by
  have hJson : toJson (.output script data) =
      tagged "output" (present [("script", some (.str script)), ("data", some (.str data))]) := rfl
  have hFields : WellFormed [.of "script" Shape.string, .of "data" Shape.string]
      [("script", some (.str script)), ("data", some (.str data))] :=
    ⟨by decide, .cons ⟨rfl, (Holds.text script).fits _⟩
      (.cons ⟨rfl, (Holds.text data).fits _⟩ .nil)⟩
  rw [hJson]
  refine parse_tagged hFields (by decide) (by decide) ?_
  simp only [ofTagged, hFields.ofJson, bind, Except.bind, hFields.get_eq 0 (.text script) rfl,
    hFields.get_eq 1 (.text data) rfl]

theorem parse_outputDropped (script : String) (chunks : UInt64) :
    parse (toJson (.outputDropped script chunks)).write = .ok (.outputDropped script chunks) := by
  have hJson : toJson (.outputDropped script chunks) = tagged "output_dropped"
      (present [("script", some (.str script)), ("chunks", some (.nat chunks.toNat))]) := rfl
  have hFields : WellFormed [.of "script" Shape.string, .of "chunks" Shape.u64]
      [("script", some (.str script)), ("chunks", some (.nat chunks.toNat))] :=
    ⟨by decide, .cons ⟨rfl, (Holds.text script).fits _⟩
      (.cons ⟨rfl, (Holds.count chunks).fits _⟩ .nil)⟩
  rw [hJson]
  refine parse_tagged hFields (by decide) (by decide) ?_
  simp only [ofTagged, hFields.ofJson, bind, Except.bind, hFields.get_eq 0 (.text script) rfl,
    hFields.get_eq 1 (.count chunks) rfl, Nat.toUInt64, UInt64.ofNat_toNat]

theorem parse_externalStopped (pid : UInt32) :
    parse (toJson (.externalStopped pid)).write = .ok (.externalStopped pid) := by
  have hJson : toJson (.externalStopped pid) =
      tagged "external_stopped" (present [("pid", some (.nat pid.toNat))]) := rfl
  have hFields : WellFormed [.of "pid" Shape.pid] [("pid", some (.nat pid.toNat))] :=
    ⟨by decide, .cons ⟨rfl, (Holds.pid pid).fits _⟩ .nil⟩
  rw [hJson]
  refine parse_tagged hFields (by decide) (by decide) ?_
  simp only [ofTagged, hFields.ofJson, bind, Except.bind, hFields.get_eq 0 (.pid pid) rfl]

/-- The beginning of a session is read as it was written. -/
theorem parse_beginning {script : String} {pid : UInt32} {time : Timestamp}
    (hTime : time.Representable) {name : String} {make : String → UInt32 → Timestamp → Event}
    (hKind : kind ∈ kinds) (hRead : ∀ body, ofTagged (kind, body) = ofBeginning name make body) :
    parse (tagged kind (present [("script", some (.str script)), ("pid", some (.nat pid.toNat)),
      ("start_time", some (.str time.text))])).write = .ok (make script pid time) := by
  have hScript : Holds Shape.string none _ _ := .text script
  have hPid : Holds Shape.pid none _ _ := .pid pid
  have hStart : Holds Shape.timestamp none _ _ := .time hTime
  have hFields : WellFormed beginningFields [("script", some (.str script)),
      ("pid", some (.nat pid.toNat)), ("start_time", some (.str time.text))] :=
    ⟨by decide, .cons ⟨rfl, hScript.fits _⟩ (.cons ⟨rfl, hPid.fits _⟩
      (.cons ⟨rfl, hStart.fits _⟩ .nil))⟩
  refine parse_tagged hFields hKind (by decide) ?_
  simp only [hRead, ofBeginning, hFields.ofJson, bind, Except.bind, hFields.get_eq 0 hScript rfl,
    hFields.get_eq 1 hPid rfl, hFields.get_eq 2 hStart rfl]

/-- Every way to write the end of a session is read. -/
theorem parse_processEnded {script : String} {exitCode signal : Option Int32} {runtime : Binary64}
    {code mark : Option Json} (hCode : OptionalField (.int ·.toInt) exitCode code)
    (hSignal : OptionalField (.int ·.toInt) signal mark) (hRuntime : runtime.RoundTrips) :
    parse (tagged "process_ended" (present [("script", some (.str script)), ("exit_code", code),
      ("signal", mark), ("runtime", some (.real runtime))])).write =
      .ok (.processEnded script exitCode signal runtime) := by
  have hScript : Holds Shape.string none _ _ := .text script
  have hExit : Holds codeShape (some none) code exitCode :=
    hCode.holds fun i _ => ⟨Json.int_ne_null _, .integer i⟩
  have hEnd : Holds codeShape (some none) mark signal :=
    hSignal.holds fun i _ => ⟨Json.int_ne_null _, .integer i⟩
  have hSpan : Holds Shape.real none _ _ := .real hRuntime
  have hFields : WellFormed [.of "script" Shape.string, .optional "exit_code" codeShape,
      .optional "signal" codeShape, .of "runtime" Shape.real] [("script", some (.str script)),
      ("exit_code", code), ("signal", mark), ("runtime", some (.real runtime))] :=
    ⟨by decide, .cons ⟨rfl, hScript.fits _⟩ (.cons ⟨rfl, hExit.fits_optional _⟩
      (.cons ⟨rfl, hEnd.fits_optional _⟩ (.cons ⟨rfl, hSpan.fits _⟩ .nil)))⟩
  refine parse_tagged hFields (by decide) (by decide) ?_
  simp only [ofTagged, ofEnding, hFields.ofJson, bind, Except.bind, hFields.get_eq 0 hScript rfl,
    hFields.getD_eq 1 hExit rfl, hFields.getD_eq 2 hEnd rfl, hFields.get_eq 3 hSpan rfl]

/-- Every way to write a status is read. -/
theorem parse_status {script : String} {running : Bool} {pid : Option UInt32}
    {time : Option Timestamp} {runtime : Option Binary64} {number start span : Option Json}
    (hPid : OptionalField (.nat ·.toNat) pid number)
    (hTime : OptionalField (.str ·.text) time start) (hRuntime : OptionalField .real runtime span)
    (hTimes : ∀ t ∈ time, t.Representable) (hRuntimes : ∀ x ∈ runtime, x.RoundTrips) :
    parse (tagged "status" (present [("script", some (.str script)),
      ("running", some (.bool running)), ("pid", number), ("start_time", start),
      ("runtime", span)])).write = .ok (.status script running pid time runtime) := by
  have hScript : Holds Shape.string none _ _ := .text script
  have hRunning : Holds Shape.bool none _ _ := .truth running
  have hNumber : Holds (Shape.nullable Shape.pid) (some none) number pid :=
    hPid.holds fun p _ => ⟨nofun, .pid p⟩
  have hStart : Holds (Shape.nullable Shape.timestamp) (some none) start time :=
    hTime.holds fun t hMem => ⟨nofun, .time (hTimes t hMem)⟩
  have hSpan : Holds (Shape.nullable Shape.real) (some none) span runtime :=
    hRuntime.holds fun x hMem => ⟨nofun, .real (hRuntimes x hMem)⟩
  have hFields : WellFormed [.of "script" Shape.string, .of "running" Shape.bool,
      .optional "pid" (Shape.nullable Shape.pid),
      .optional "start_time" (Shape.nullable Shape.timestamp),
      .optional "runtime" (Shape.nullable Shape.real)] [("script", some (.str script)),
      ("running", some (.bool running)), ("pid", number), ("start_time", start),
      ("runtime", span)] :=
    ⟨by decide, .cons ⟨rfl, hScript.fits _⟩ (.cons ⟨rfl, hRunning.fits _⟩
      (.cons ⟨rfl, hNumber.fits_optional _⟩ (.cons ⟨rfl, hStart.fits_optional _⟩
        (.cons ⟨rfl, hSpan.fits_optional _⟩ .nil))))⟩
  refine parse_tagged hFields (by decide) (by decide) ?_
  simp only [ofTagged, ofStatus, hFields.ofJson, bind, Except.bind, hFields.get_eq 0 hScript rfl,
    hFields.get_eq 1 hRunning rfl, hFields.getD_eq 2 hNumber rfl, hFields.getD_eq 3 hStart rfl,
    hFields.getD_eq 4 hSpan rfl]

/-- Every way to write a failed request is read. -/
theorem parse_error {message : String} {errors missing : List String} {found absent : Option Json}
    (hErrors : ListField errors found) (hMissing : ListField missing absent) :
    parse (tagged "error" (present [("message", some (.str message)), ("errors", found),
      ("missing", absent)])).write = .ok (.error message errors missing) := by
  have hMessage : Holds Shape.string none _ _ := .text message
  have hFields : WellFormed [.of "message" Shape.string,
      .optional "errors" (Shape.list Shape.string), .optional "missing" (Shape.list Shape.string)]
      [("message", some (.str message)), ("errors", found), ("missing", absent)] :=
    ⟨by decide, .cons ⟨rfl, hMessage.fits _⟩ (.cons ⟨rfl, hErrors.holds.fits_optional _⟩
      (.cons ⟨rfl, hMissing.holds.fits_optional _⟩ .nil))⟩
  refine parse_tagged hFields (by decide) (by decide) ?_
  simp only [ofTagged, ofError, hFields.ofJson, bind, Except.bind, hFields.get_eq 0 hMessage rfl,
    hFields.getD_eq 1 hErrors.holds rfl, hFields.getD_eq 2 hMissing.holds rfl]

theorem parse_allStatus {running : List RunningScript}
    (hTimes : ∀ r ∈ running, r.startTime.Representable)
    (hRuntimes : ∀ r ∈ running, r.runtime.RoundTrips) :
    parse (toJson (.allStatus running)).write = .ok (.allStatus running) := by
  have hJson : toJson (.allStatus running) = tagged "all_status"
      (present [("running", some (.arr (running.map (·.toJson))))]) := rfl
  have hRunning : Holds (Shape.list RunningScript.shape) none
      (some (.arr (running.map (·.toJson)))) running := .list fun r hMem =>
    ⟨RunningScript.shape_toJson (hTimes r hMem) (hRuntimes r hMem),
      RunningScript.readable_toJson (hRuntimes r hMem) _⟩
  have hFields : WellFormed [.of "running" (Shape.list RunningScript.shape)]
      [("running", some (.arr (running.map (·.toJson))))] :=
    ⟨by decide, .cons ⟨rfl, hRunning.fits _⟩ .nil⟩
  rw [hJson]
  refine parse_tagged hFields (by decide) (by decide) ?_
  simp only [ofTagged, hFields.ofJson, bind, Except.bind, hFields.get_eq 0 hRunning rfl]

/-- **Every way to write an event** is read as that event, if its moments are of the calendar and
its numbers are read back. -/
theorem parse_of_spells {j : Json} (h : e.Spells j) (hTimes : ∀ t ∈ e.times, t.Representable)
    (hRuntimes : ∀ x ∈ e.runtimes, x.RoundTrips) : parse j.write = .ok e := by
  cases h with
  | processEnded hCode hSignal =>
    exact parse_processEnded hCode hSignal (hRuntimes _ (List.mem_singleton_self _))
  | status hPid hTime hRuntime =>
    exact parse_status hPid hTime hRuntime (fun t hMem => hTimes t (Option.mem_toList.mpr hMem))
      fun x hMem => hRuntimes x (Option.mem_toList.mpr hMem)
  | error hErrors hMissing => exact parse_error hErrors hMissing
  | plain =>
    cases e with
    | connected hostname => exact parse_connected hostname
    | output script data => exact parse_output script data
    | outputDropped script chunks => exact parse_outputDropped script chunks
    | externalStopped pid => exact parse_externalStopped pid
    | started script pid time =>
      exact parse_beginning (hTimes time (List.mem_singleton_self _)) (by decide) fun _ => rfl
    | watching script pid time =>
      exact parse_beginning (hTimes time (List.mem_singleton_self _)) (by decide) fun _ => rfl
    | allStatus running =>
      exact parse_allStatus (fun r hMem => hTimes _ (List.mem_map_of_mem hMem))
        fun r hMem => hRuntimes _ (List.mem_map_of_mem hMem)
    | processEnded script exitCode signal runtime =>
      have hJson : toJson (.processEnded script exitCode signal runtime) =
          tagged "process_ended" (present [("script", some (.str script)),
            ("exit_code", some (intOrNull exitCode)), ("signal", some (intOrNull signal)),
            ("runtime", some (.real runtime))]) := rfl
      rw [hJson]
      have hNull : ∀ i, OptionalField (.int ·.toInt) i (some (intOrNull i)) := by
        intro i
        cases i with
        | none => exact .null
        | some i => exact .written i
      exact parse_processEnded (hNull exitCode) (hNull signal)
        (hRuntimes _ (List.mem_singleton_self _))
    | status script running pid time runtime =>
      have hJson : toJson (.status script running pid time runtime) =
          tagged "status" (present [("script", some (.str script)),
            ("running", some (.bool running)), ("pid", pid.map (.nat ·.toNat)),
            ("start_time", time.map (.str ·.text)), ("runtime", runtime.map .real)]) := by
        cases pid <;> cases time <;> cases runtime <;> rfl
      rw [hJson]
      exact parse_status (.ofOption pid) (.ofOption time) (.ofOption runtime)
        (fun t hMem => hTimes t (Option.mem_toList.mpr hMem))
        fun x hMem => hRuntimes x (Option.mem_toList.mpr hMem)
    | error message errors missing =>
      have hJson : toJson (.error message errors missing) =
          tagged "error" (present [("message", some (.str message)),
            ("errors", ListField.shown errors), ("missing", ListField.shown missing)]) := by
        cases errors <;> cases missing <;> rfl
      rw [hJson]
      exact parse_error (.ofList errors) (.ofList missing)

-- ---------------------------------------------------------------------------
-- Events that are read
-- ---------------------------------------------------------------------------

theorem times_of_beginning {name : String} {make : String → UInt32 → Timestamp → Event}
    (hMake : ∀ script pid time, (make script pid time).times = [time]) {body : Json}
    (h : ofBeginning name make body = .ok e) : ∀ t ∈ e.times, t.Representable := by
  obtain ⟨r, -, h⟩ := bind_eq_ok_iff.mp h
  obtain ⟨script, -, h⟩ := bind_eq_ok_iff.mp h
  obtain ⟨pid, -, h⟩ := bind_eq_ok_iff.mp h
  obtain ⟨time, hTime, h⟩ := bind_eq_ok_iff.mp h
  rw [← Except.ok.inj h, hMake]
  exact List.forall_mem_singleton.mpr (Shape.ensures_timestamp.get hTime)

theorem times_of_status {body : Json} (h : ofStatus body = .ok e) :
    ∀ t ∈ e.times, t.Representable := by
  obtain ⟨r, -, h⟩ := bind_eq_ok_iff.mp h
  obtain ⟨script, -, h⟩ := bind_eq_ok_iff.mp h
  obtain ⟨running, -, h⟩ := bind_eq_ok_iff.mp h
  obtain ⟨pid, -, h⟩ := bind_eq_ok_iff.mp h
  obtain ⟨time, hTime, h⟩ := bind_eq_ok_iff.mp h
  obtain ⟨runtime, -, h⟩ := bind_eq_ok_iff.mp h
  rw [← Except.ok.inj h]
  intro t hMem
  exact Shape.ensures_timestamp.nullable.getD (by simp) hTime t (Option.mem_toList.mp hMem)

theorem times_of_allStatus {body : Json} (h : ofTagged ("all_status", body) = .ok e) :
    ∀ t ∈ e.times, t.Representable := by
  obtain ⟨r, -, h⟩ := bind_eq_ok_iff.mp h
  obtain ⟨running, hRunning, h⟩ := bind_eq_ok_iff.mp h
  rw [← Except.ok.inj h]
  intro t hMem
  obtain ⟨s, hItem, rfl⟩ := List.mem_map.mp hMem
  exact RunningScript.ensures_shape.list.get hRunning s hItem

theorem times_of_ofTagged {kind : String} {body : Json} (h : ofTagged (kind, body) = .ok e) :
    ∀ t ∈ e.times, t.Representable := by
  unfold ofTagged at h
  split at h
  · simp only [bind_eq_ok_iff, Except.ok.injEq] at h
    obtain ⟨r, -, hostname, -, rfl⟩ := h
    simp [times]
  · exact times_of_beginning (fun _ _ _ => rfl) h
  · exact times_of_beginning (fun _ _ _ => rfl) h
  · simp only [bind_eq_ok_iff, Except.ok.injEq] at h
    obtain ⟨r, -, script, -, data, -, rfl⟩ := h
    simp [times]
  · simp only [bind_eq_ok_iff, Except.ok.injEq] at h
    obtain ⟨r, -, script, -, chunks, -, rfl⟩ := h
    simp [times]
  · simp only [ofEnding, bind_eq_ok_iff, Except.ok.injEq] at h
    obtain ⟨r, -, script, -, exitCode, -, signal, -, runtime, -, rfl⟩ := h
    simp [times]
  · exact times_of_status h
  · exact times_of_allStatus h
  · simp only [ofError, bind_eq_ok_iff, Except.ok.injEq] at h
    obtain ⟨r, -, message, -, errors, -, missing, -, rfl⟩ := h
    simp [times]
  · simp only [bind_eq_ok_iff, Except.ok.injEq] at h
    obtain ⟨r, -, pid, -, rfl⟩ := h
    simp [times]
  · cases h

/-- The moments of an event that is read are of the calendar. -/
theorem times_of_parse {text : String} (h : parse text = .ok e) :
    ∀ t ∈ e.times, t.Representable := by
  obtain ⟨⟨e', c⟩, hReader, h⟩ := bind_eq_ok_iff.mp h
  obtain ⟨_, -, h⟩ := bind_eq_ok_iff.mp h
  obtain rfl := Except.ok.inj h
  obtain ⟨⟨⟨kind, body⟩, c'⟩, -, hReader⟩ := bind_eq_ok_iff.mp hReader
  obtain ⟨e, hRead, hReader⟩ := bind_eq_ok_iff.mp hReader
  obtain ⟨rfl, -⟩ := Prod.mk.inj (Except.ok.inj hReader)
  exact times_of_ofTagged (Json.unplaced_eq_ok_iff.mp hRead)

end Event

end ScriptWarden
