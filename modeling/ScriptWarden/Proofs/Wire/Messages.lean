import ScriptWarden.Proofs.Wire.Events

/-!
# Messages as text

Requests, events and records of scripts are written as JSON and read again. What is read is what was
written, for every kind of message and every way in which its fields can stand there, and what was
read of some text is read again from what is written for it.

## Results

* `Request.parse_of_spells` — every way to write a request is read as that request. The script of a
  status may be a text, null or left out.
* `ScriptRecord.readFrom_write` — a record is read from what is written for it.
* `messages_survive_writing` — so is every message.
-/

namespace ScriptWarden

open Json (Holds WellFormed FieldValues present readAll_tagged)

-- ---------------------------------------------------------------------------
-- Requests
-- ---------------------------------------------------------------------------

namespace Request

/-- How a request is written: as it is sent, or with the script of a status as null or left out. -/
inductive Spells : Request → Json → Prop
  | plain (r : Request) : Spells r r.toJson
  | status {script : Option String} {v : Option Json} : OptionalField .str script v →
      Spells (.status script) (tagged "status" (present [("script", v)]))

variable {kind : String} {shapes : List FieldShape} {values : FieldValues} {r : Request}

/-- A request of some kind is read, if its fields are. -/
theorem parse_tagged (hFields : WellFormed shapes values) (hKind : kind ∈ kinds)
    (hTag : "type" ∉ shapes.map (·.name))
    (hRead : ofTagged (kind, .obj (present values)) = .ok r) :
    parse (tagged kind (present values)).write = .ok r :=
  readAll_tagged hFields hKind hTag hRead

/-- The fields of a request that names a script. -/
theorem wellFormed_script (script : String) :
    WellFormed [scriptField] [("script", some (.str script))] :=
  ⟨by decide, .cons ⟨rfl, (Holds.text script).fits _⟩ .nil⟩

theorem ofScript_eq (kind script : String) (make : String → Request) :
    ofScript kind make (.obj (present [("script", some (.str script))])) = .ok (make script) := by
  have hFields := wellFormed_script script
  simp only [ofScript, hFields.ofJson, bind, Except.bind, hFields.get_eq 0 (.text script) rfl]

/-- Every way to write a status is read. -/
theorem parse_status {script : Option String} {v : Option Json} (h : OptionalField .str script v) :
    parse (tagged "status" (present [("script", v)])).write = .ok (.status script) := by
  have hScript : Holds (Shape.nullable Shape.string) (some none) v script :=
    h.holds fun s _ => ⟨nofun, .text s⟩
  have hFields : WellFormed [.optional "script" (Shape.nullable Shape.string)] [("script", v)] :=
    ⟨by decide, .cons ⟨rfl, hScript.fits_optional _⟩ .nil⟩
  refine parse_tagged hFields (by decide) (by decide) ?_
  simp only [ofTagged, hFields.ofJson, bind, Except.bind, hFields.getD_eq 0 hScript rfl]

theorem parse_input (script data : String) :
    parse (toJson (.input script data)).write = .ok (.input script data) := by
  have hJson : toJson (.input script data) =
      tagged "input" (present [("script", some (.str script)), ("data", some (.str data))]) := rfl
  have hFields : WellFormed [scriptField, .of "data" Shape.string]
      [("script", some (.str script)), ("data", some (.str data))] :=
    ⟨by decide, .cons ⟨rfl, (Holds.text script).fits _⟩
      (.cons ⟨rfl, (Holds.text data).fits _⟩ .nil)⟩
  rw [hJson]
  refine parse_tagged hFields (by decide) (by decide) ?_
  simp only [ofTagged, hFields.ofJson, bind, Except.bind, hFields.get_eq 0 (.text script) rfl,
    hFields.get_eq 1 (.text data) rfl]

theorem parse_stopExternal (pid : UInt32) :
    parse (toJson (.stopExternal pid)).write = .ok (.stopExternal pid) := by
  have hJson : toJson (.stopExternal pid) =
      tagged "stop_external" (present [("pid", some (.nat pid.toNat))]) := rfl
  have hFields : WellFormed [.of "pid" Shape.pid] [("pid", some (.nat pid.toNat))] :=
    ⟨by decide, .cons ⟨rfl, (Holds.pid pid).fits _⟩ .nil⟩
  rw [hJson]
  refine parse_tagged hFields (by decide) (by decide) ?_
  simp only [ofTagged, hFields.ofJson, bind, Except.bind, hFields.get_eq 0 (.pid pid) rfl]

/-- **Every way to write a request** is read as that request. -/
theorem parse_of_spells {j : Json} (h : r.Spells j) : parse j.write = .ok r := by
  have hScript : ∀ kind script, kind ∈ kinds →
      ofTagged (kind, .obj (present [("script", some (.str script))])) = .ok r →
      parse (tagged kind (present [("script", some (.str script))])).write = .ok r :=
    fun _ script hKind hRead => parse_tagged (wellFormed_script script) hKind (by decide) hRead
  cases h with
  | status hField => exact parse_status hField
  | plain =>
    cases r with
    | start script => exact hScript "start" script (by decide) (ofScript_eq _ script _)
    | stop script => exact hScript "stop" script (by decide) (ofScript_eq _ script _)
    | watch script => exact hScript "watch" script (by decide) (ofScript_eq _ script _)
    | unwatch script => exact hScript "unwatch" script (by decide) (ofScript_eq _ script _)
    | input script data => exact parse_input script data
    | stopExternal pid => exact parse_stopExternal pid
    | status script =>
      have hJson : toJson (.status script) =
          tagged "status" (present [("script", some (.strOrNull script))]) := rfl
      rw [hJson]
      cases script with
      | none => exact parse_status .null
      | some script => exact parse_status (.written script)

end Request

-- ---------------------------------------------------------------------------
-- Records of scripts
-- ---------------------------------------------------------------------------

namespace ScriptRecord

variable {r : ScriptRecord}

/-- A text is the value of a record. -/
def ReadFrom (r : ScriptRecord) (text : String) : Prop :=
  ∃ j, Json.parse text = .ok j ∧ shape j = .ok r

theorem readFrom_write (hTime : r.modified.Representable) : r.ReadFrom r.toJson.write := by
  have hName : Holds Shape.string none _ _ := .text r.name
  have hSize : Holds Shape.u64 none _ _ := .count r.size
  have hModified : Holds Shape.timestamp none _ _ := .time hTime
  have hValid : Holds Shape.bool none _ _ := .truth r.isValid
  have hExecutable : Holds Shape.bool none _ _ := .truth r.isExecutable
  have hRunning : Holds Shape.bool none _ _ := .truth r.isRunning
  have hLog : Holds Shape.bool none _ _ := .truth r.hasLog
  have hAutoboot : Holds Shape.bool none _ _ := .truth r.isAutoboot
  have hErrors : Holds textsShape none _ _ := .texts r.errors
  have hMissing : Holds textsShape none _ _ := .texts r.missing
  have hValidity : Holds validityShape none (some (.str r.validity.word)) r.validity :=
    .written (by cases r.validity <;> rfl) (.str _)
  have hDependencies : Holds dependenciesShape none (some (.str r.dependencies.word))
      r.dependencies := .written (by cases r.dependencies <;> rfl) (.str _)
  have hState : Holds stateShape none (some (.str r.state.word)) r.state :=
    .written (by cases r.state <;> rfl) (.str _)
  have hFields : WellFormed [.of "name" Shape.string, .of "size" Shape.u64,
      .of "modified" Shape.timestamp, .of "is_valid" Shape.bool, .of "is_executable" Shape.bool,
      .of "is_running" Shape.bool, .of "has_log" Shape.bool, .of "is_autoboot" Shape.bool,
      .of "errors" textsShape, .of "missing_deps" textsShape, .of "validity" validityShape,
      .of "dependencies" dependenciesShape, .of "state" stateShape]
      (r.fields.map fun f => (f.1, some f.2)) :=
    ⟨by decide, .cons ⟨rfl, hName.fits _⟩ <| .cons ⟨rfl, hSize.fits _⟩ <|
      .cons ⟨rfl, hModified.fits _⟩ <| .cons ⟨rfl, hValid.fits _⟩ <|
      .cons ⟨rfl, hExecutable.fits _⟩ <| .cons ⟨rfl, hRunning.fits _⟩ <|
      .cons ⟨rfl, hLog.fits _⟩ <| .cons ⟨rfl, hAutoboot.fits _⟩ <|
      .cons ⟨rfl, hErrors.fits _⟩ <| .cons ⟨rfl, hMissing.fits _⟩ <|
      .cons ⟨rfl, hValidity.fits _⟩ <| .cons ⟨rfl, hDependencies.fits _⟩ <|
      .cons ⟨rfl, hState.fits _⟩ .nil⟩
  have hJson : r.toJson = .obj (present (r.fields.map fun f => (f.1, some f.2))) := rfl
  refine ⟨r.toJson, ?_, ?_⟩
  · rw [hJson]
    exact Json.parse_write (.obj fun f hMem => (hFields.readable f hMem).2)
  · simp only [hJson, shape, hFields.ofJson, bind, Except.bind, hFields.get_eq 0 hName rfl,
      hFields.get_eq 1 hSize rfl, hFields.get_eq 2 hModified rfl, hFields.get_eq 3 hValid rfl,
      hFields.get_eq 4 hExecutable rfl, hFields.get_eq 5 hRunning rfl, hFields.get_eq 6 hLog rfl,
      hFields.get_eq 7 hAutoboot rfl, hFields.get_eq 8 hErrors rfl, hFields.get_eq 9 hMissing rfl,
      hFields.get_eq 10 hValidity rfl, hFields.get_eq 11 hDependencies rfl,
      hFields.get_eq 12 hState rfl, Nat.toUInt64, UInt64.ofNat_toNat]

/-- The moment in a record that is read is of the calendar. -/
theorem modified_of_shape {j : Json} (h : shape j = .ok r) : r.modified.Representable := by
  simp only [shape, bind_eq_ok_iff, Except.ok.injEq] at h
  obtain ⟨s, -, name, -, size, -, modified, hModified, valid, -, executable, -, running, -, log, -,
    autoboot, -, errors, -, missing, -, validity, -, dependencies, -, state, -, rfl⟩ := h
  exact Shape.ensures_timestamp.get hModified

end ScriptRecord

-- ---------------------------------------------------------------------------
-- All messages
-- ---------------------------------------------------------------------------

/--
**Messages survive being written.** Every way to write a request is read as that request, whether a
value that is missing is null or left out. So is every way to write an event, and what is written
for a record, if their moments are of the calendar and the runtimes are read back from their texts.
What is read of any text is read again from what is written for it.
-/
theorem messages_survive_writing :
    (∀ r : Request, r.Spells r.toJson ∧ ∀ j, r.Spells j → Request.parse j.write = .ok r) ∧
    (∀ e : Event, (∀ t ∈ e.times, t.Representable) → (∀ x ∈ e.runtimes, x.RoundTrips) →
      e.Spells e.toJson ∧ ∀ j, e.Spells j → Event.parse j.write = .ok e) ∧
    (∀ s : ScriptRecord, s.modified.Representable → s.ReadFrom s.toJson.write) ∧
    (∀ text r, Request.parse text = .ok r → Request.parse r.toJson.write = .ok r) ∧
    (∀ text e, Event.parse text = .ok e → (∀ x ∈ e.runtimes, x.RoundTrips) →
      Event.parse e.toJson.write = .ok e) ∧
    (∀ text s, ScriptRecord.ReadFrom s text → s.ReadFrom s.toJson.write) := by
  refine ⟨fun r => ⟨.plain r, fun j => Request.parse_of_spells⟩,
    fun e hTimes hRuntimes => ⟨.plain e, fun j hSpells =>
      Event.parse_of_spells hSpells hTimes hRuntimes⟩,
    fun s => ScriptRecord.readFrom_write, fun _ r _ => Request.parse_of_spells (.plain r), ?_, ?_⟩
  · intro text e hRead hRuntimes
    exact Event.parse_of_spells (.plain e) (Event.times_of_parse hRead) hRuntimes
  · rintro text s ⟨j, -, hShape⟩
    exact ScriptRecord.readFrom_write (ScriptRecord.modified_of_shape hShape)

/-- A status of a leap second, with null for its process or as a list without it, a request with its
kind behind its field, and a record of that moment are read, and so is what is written for them. -/
theorem leap_second_survives :
    let time : Timestamp := ⟨1483228799, 1500000000⟩
    let runtime : Binary64 := { mantissa := 6755399441055744, exponent := -52 }
    let status : Event := .status "a.py" true none (some time) (some runtime)
    let record : ScriptRecord := { (default : ScriptRecord) with modified := time }
    Event.parse (Event.tagged "status" (present [("script", some (.str "a.py")),
      ("running", some (.bool true)), ("pid", some .null), ("start_time", some (.str time.text)),
      ("runtime", some (.real runtime))])).write = .ok status ∧
    Event.parse "[\"status\",\"a.py\",true,null,\"2016-12-31T23:59:60.5Z\",1.5]" = .ok status ∧
    Event.parse status.toJson.write = .ok status ∧
    Request.parse "\x7b\"script\":null,\"type\":\"status\"\x7d" = .ok (.status none) ∧
    Request.parse (Request.status none).toJson.write = .ok (.status none) ∧
    record.ReadFrom record.toJson.write := by
  intro time runtime status record
  obtain ⟨hRequests, hEvents, hRecords, hRequestTexts, hEventTexts, hRecordTexts⟩ :=
    messages_survive_writing
  have hTimes : ∀ t ∈ status.times, t.Representable :=
    List.forall_mem_singleton.mpr (by decide +kernel)
  have hRuntimes : ∀ x ∈ status.runtimes, x.RoundTrips :=
    List.forall_mem_singleton.mpr (by decide +kernel)
  have hNull : status.Spells _ := .status .null (.written time) (.written runtime)
  have hList : Event.parse "[\"status\",\"a.py\",true,null,\"2016-12-31T23:59:60.5Z\",1.5]" =
      .ok status := by decide +kernel
  have hBehind : Request.parse "\x7b\"script\":null,\"type\":\"status\"\x7d" =
      .ok (.status none) := by decide +kernel
  have hRecord := hRecords record (by decide +kernel)
  exact ⟨(hEvents status hTimes hRuntimes).2 _ hNull, hList,
    hEventTexts _ status hList hRuntimes, hBehind, hRequestTexts _ _ hBehind,
    hRecordTexts _ record hRecord⟩

end ScriptWarden
