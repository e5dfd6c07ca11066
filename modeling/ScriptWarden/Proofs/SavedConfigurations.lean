import ScriptWarden.Config.Stored
import ScriptWarden.Proofs.Files.DesignationFile
import ScriptWarden.Proofs.Toml.Documents

/-!
# Saved configurations

A configuration that is saved is loaded as it was, but for spans of time, of which only the whole
milliseconds or seconds are written. What is loaded from any text loses nothing when it is saved: a
text can give no other spans. A text need not give everything; what it leaves out has its default,
whatever else it gives, and the lists of the policy have theirs one by one.

Saving can fail at the host, so the law is about paths that the host lets be written. The numbers of
a configuration that was built by hand have to fit into 64 bits with a sign; those that were loaded
do.

## Results

* `ofFields_eq_some_iff` — what the fields of a document give, setting by setting.
* `ofFields_toFields` — reading what was written cuts the spans and changes nothing else.
* `fits_of_parse?`, `cut_of_parse?` — a loaded configuration can be written, and has nothing to cut.
* `lookup_toFields_of_ofFields` — each setting is as the document gives it, or its default.
* `read_write` — a file that was written holds what was written.
* `saved_configuration_loads` — the law.
-/

namespace ScriptWarden

-- ---------------------------------------------------------------------------
-- Spans
-- ---------------------------------------------------------------------------

namespace Duration

@[simp] theorem wholeMillis_ofMillis (n : Nat) : (ofMillis n).wholeMillis = n := by
  simp [ofMillis, wholeMillis]

@[simp] theorem wholeSeconds_ofSeconds (n : Nat) : (ofSeconds n).wholeSeconds = n := by
  simp [ofSeconds, wholeSeconds]

/-- Milliseconds that fit into 64 bits with a sign fit without one. -/
theorem milliWord_of_isInteger {d : Duration} (h : Toml.isInteger d.wholeMillis = true) :
    d.milliWord = d.wholeMillis := by
  simp only [Toml.isInteger, decide_eq_true_eq] at h
  have hBelow : (twoTo 63 : Nat) < twoTo 64 := by decide
  exact Nat.mod_eq_of_lt (by omega)

end Duration

namespace Config

variable {default c : Config} {doc : List (String × Toml)}

/-- The numbers of a configuration fit into 64 bits with a sign. -/
structure Fits (c : Config) : Prop where
  maxUpload : Toml.isInteger c.maxUpload = true
  replayLimit : Toml.isInteger c.replayLimit = true
  gracePeriod : Toml.isInteger c.gracePeriod.wholeMillis = true
  shutdownTimeout : Toml.isInteger c.shutdownTimeout.wholeSeconds = true

/-- A configuration with the grace period cut to whole milliseconds and the shutdown timeout to
whole seconds. -/
def cut (c : Config) : Config :=
  { c with
    gracePeriod := .ofMillis c.gracePeriod.wholeMillis
    shutdownTimeout := .ofSeconds c.shutdownTimeout.wholeSeconds }

theorem Fits.isWritable (h : c.Fits) : c.isWritable = true := by
  simp [Config.isWritable, Duration.milliWord_of_isInteger h.gracePeriod, h.maxUpload, h.replayLimit,
    h.gracePeriod, h.shutdownTimeout]

-- ---------------------------------------------------------------------------
-- Settings
-- ---------------------------------------------------------------------------

theorem mapM_text_eq_some_iff {items : List Toml} {ss : List String} :
    items.mapM Setting.text = some ss ↔ items = ss.map .string := by
  induction items generalizing ss with
  | nil => cases ss <;> simp
  | cons v items ih =>
    cases ss <;> cases v <;> simp [Setting.text, Option.bind_eq_some_iff, ih, and_comm]

theorem text_eq_some_iff {v : Toml} {s : String} :
    Setting.text v = some s ↔ v = .string s := by
  cases v <;> simp [Setting.text]

theorem texts_eq_some_iff {v : Toml} {ss : List String} :
    Setting.texts v = some ss ↔ v = .strings ss := by
  cases v <;> simp [Setting.texts, Toml.strings, mapM_text_eq_some_iff]

theorem nat_eq_some_iff {v : Toml} {n : Nat} : Setting.nat v = some n ↔ v = .integer n := by
  cases v with
  | integer m =>
    simp [Setting.nat]
    omega
  | _ => simp [Setting.nat]

theorem settingOr_eq_some_iff {α : Type} {name : String} {setting : Setting α} {d x : α} :
    settingOr doc name setting d = some x ↔
      (∃ v, doc.lookup name = some v ∧ setting v = some x) ∨ (doc.lookup name = none ∧ d = x) := by
  rw [settingOr]
  cases doc.lookup name <;> simp

/-- The lists that the fields of a table give, with defaults for those left out. -/
structure PolicyGiven (fields : List (String × Toml)) (p : Policy) : Prop where
  blockedModules : settingOr fields "blocked_modules" Setting.texts Policy.standard.blockedModules =
    some p.blockedModules
  blockedBuiltins : settingOr fields "blocked_builtins" Setting.texts
    Policy.standard.blockedBuiltins = some p.blockedBuiltins
  blockedFunctions : settingOr fields "blocked_functions" Setting.texts
    Policy.standard.blockedFunctions = some p.blockedFunctions
  allowedModules : settingOr fields "allowed_modules" Setting.texts Policy.standard.allowedModules =
    some p.allowedModules
  thirdPartyModules : settingOr fields "third_party_modules" Setting.texts
    Policy.standard.thirdPartyModules = some p.thirdPartyModules
  suspiciousAttributes : settingOr fields "suspicious_attributes" Setting.texts
    Policy.standard.suspiciousAttributes = some p.suspiciousAttributes
  allowedPaths : settingOr fields "allowed_paths" Setting.texts Policy.standard.allowedPaths =
    some p.allowedPaths

theorem policyOfFields_eq_some_iff {fields : List (String × Toml)} {p : Policy} :
    policyOfFields fields = some p ↔ PolicyGiven fields p := by
  constructor
  · intro h
    simp only [policyOfFields, Option.bind_eq_bind, Option.bind_eq_some_iff] at h
    obtain ⟨_, h₁, _, h₂, _, h₃, _, h₄, _, h₅, _, h₆, _, h₇, hPolicy⟩ := h
    cases hPolicy
    exact ⟨h₁, h₂, h₃, h₄, h₅, h₆, h₇⟩
  · rintro ⟨h₁, h₂, h₃, h₄, h₅, h₆, h₇⟩
    simp only [policyOfFields, h₁, h₂, h₃, h₄, h₅, h₆, h₇, Option.bind_eq_bind, Option.bind_some]

/-- The settings that the fields of a document give, with defaults for those left out. -/
structure Given (default : Config) (doc : List (String × Toml)) (c : Config) : Prop where
  bindAddress : settingOr doc "bind_address" Setting.text default.bindAddress = some c.bindAddress
  scriptsDir : settingOr doc "scripts_dir" Setting.text default.scriptsDir = some c.scriptsDir
  logDir : settingOr doc "log_dir" Setting.text default.logDir = some c.logDir
  autobootFile : settingOr doc "autoboot_file" Setting.text default.autobootFile =
    some c.autobootFile
  interpreter : settingOr doc "interpreter" Setting.text default.interpreter = some c.interpreter
  interpreterArgs : settingOr doc "interpreter_args" Setting.texts default.interpreterArgs =
    some c.interpreterArgs
  maxUpload : settingOr doc "max_upload_bytes" Setting.nat default.maxUpload = some c.maxUpload
  replayLimit : settingOr doc "replay_buffer_bytes" Setting.nat default.replayLimit =
    some c.replayLimit
  gracePeriod : settingOr doc "stop_grace_period" Setting.millis default.gracePeriod =
    some c.gracePeriod
  shutdownTimeout : settingOr doc "shutdown_timeout" Setting.seconds default.shutdownTimeout =
    some c.shutdownTimeout
  policy : settingOr doc "validation" Setting.policy default.policy = some c.policy

theorem ofFields_eq_some_iff : ofFields default doc = some c ↔ Given default doc c := by
  constructor
  · intro h
    simp only [ofFields, Option.bind_eq_bind, Option.bind_eq_some_iff] at h
    obtain ⟨_, h₁, _, h₂, _, h₃, _, h₄, _, h₅, _, h₆, _, h₇, _, h₈, _, h₉, _, h₁₀, _, h₁₁,
      hConfig⟩ := h
    cases hConfig
    exact ⟨h₁, h₂, h₃, h₄, h₅, h₆, h₇, h₈, h₉, h₁₀, h₁₁⟩
  · rintro ⟨h₁, h₂, h₃, h₄, h₅, h₆, h₇, h₈, h₉, h₁₀, h₁₁⟩
    simp only [ofFields, h₁, h₂, h₃, h₄, h₅, h₆, h₇, h₈, h₉, h₁₀, h₁₁, Option.bind_eq_bind,
      Option.bind_some]

-- ---------------------------------------------------------------------------
-- Reading what was written
-- ---------------------------------------------------------------------------

theorem settingOr_of_lookup {α : Type} {name : String} {setting : Setting α} {d x : α} {v : Toml}
    (hLookup : doc.lookup name = some v) (hSetting : setting v = some x) :
    settingOr doc name setting d = some x :=
  settingOr_eq_some_iff.mpr (.inl ⟨v, hLookup, hSetting⟩)

theorem policyOfFields_policyFields (p : Policy) : policyOfFields (policyFields p) = some p := by
  have hTexts : ∀ ss, Setting.texts (.strings ss) = some ss := fun _ => texts_eq_some_iff.mpr rfl
  exact policyOfFields_eq_some_iff.mpr
    ⟨settingOr_of_lookup rfl (hTexts _), settingOr_of_lookup rfl (hTexts _),
      settingOr_of_lookup rfl (hTexts _), settingOr_of_lookup rfl (hTexts _),
      settingOr_of_lookup rfl (hTexts _), settingOr_of_lookup rfl (hTexts _),
      settingOr_of_lookup rfl (hTexts _)⟩

/-- The fields of a configuration give it back, cut. -/
theorem ofFields_toFields (default : Config) (h : c.Fits) :
    ofFields default c.toFields = some c.cut := by
  have hNat : ∀ n : Nat, Setting.nat (.integer n) = some n := fun _ => nat_eq_some_iff.mpr rfl
  refine ofFields_eq_some_iff.mpr
    { bindAddress := settingOr_of_lookup rfl rfl
      scriptsDir := settingOr_of_lookup rfl rfl
      logDir := settingOr_of_lookup rfl rfl
      autobootFile := settingOr_of_lookup rfl rfl
      interpreter := settingOr_of_lookup rfl rfl
      interpreterArgs := settingOr_of_lookup rfl (texts_eq_some_iff.mpr rfl)
      maxUpload := settingOr_of_lookup rfl (hNat _)
      replayLimit := settingOr_of_lookup rfl (hNat _)
      gracePeriod := settingOr_of_lookup rfl ?_
      shutdownTimeout := settingOr_of_lookup rfl ?_
      policy := settingOr_of_lookup rfl (policyOfFields_policyFields _) }
  · rw [Setting.millis, hNat, Duration.milliWord_of_isInteger h.gracePeriod]
    rfl
  · rw [Setting.seconds, hNat]
    rfl

/-- The settings but for the policy, as they are written. -/
def plainSettings (c : Config) : List (String × Toml) := c.toFields.dropLast

theorem toFields_eq (c : Config) : c.toFields =
    c.plainSettings ++ [("validation", policyFields c.policy)].map fun t => (t.1, .table t.2) := rfl

theorem lines_policyFields (p : Policy) : Toml.Lines (policyFields p) where
  bare := by
    have hNames : ∀ name ∈ policyNames, Toml.IsBare name := by
      simp [policyNames, Toml.IsBare, Toml.isKeyChar]
    intro f hMem
    exact hNames f.1 (List.mem_map_of_mem (f := Prod.fst) hMem)
  flat f hMem := by
    simp only [policyFields, List.mem_cons, List.not_mem_nil, or_false] at hMem
    rcases hMem with rfl | rfl | rfl | rfl | rfl | rfl | rfl <;> exact .strings _
  nodup := (by decide : policyNames.Nodup)

/-- The names of the settings but for the policy. -/
def plainNames : List String :=
  ["bind_address", "scripts_dir", "log_dir", "autoboot_file", "interpreter", "interpreter_args",
    "max_upload_bytes", "replay_buffer_bytes", "stop_grace_period", "shutdown_timeout"]

theorem lines_plainSettings (h : c.Fits) : Toml.Lines c.plainSettings where
  bare := by
    have hNames : ∀ name ∈ plainNames, Toml.IsBare name := by
      simp [plainNames, Toml.IsBare, Toml.isKeyChar]
    intro f hMem
    exact hNames f.1 (List.mem_map_of_mem (f := Prod.fst) hMem)
  flat f hMem := by
    simp only [plainSettings, toFields, List.dropLast, List.mem_cons, List.not_mem_nil, or_false]
      at hMem
    have hMillis : Toml.isInteger c.gracePeriod.milliWord = true := by
      rw [Duration.milliWord_of_isInteger h.gracePeriod]
      exact h.gracePeriod
    rcases hMem with rfl | rfl | rfl | rfl | rfl | rfl | rfl | rfl | rfl | rfl
    · exact .string _
    · exact .string _
    · exact .string _
    · exact .string _
    · exact .string _
    · exact .strings _
    · exact .nat h.maxUpload
    · exact .nat h.replayLimit
    · exact .nat hMillis
    · exact .nat h.shutdownTimeout
  nodup := (by decide : plainNames.Nodup)

/-- The text of a configuration gives it back, cut. -/
theorem parse?_text? (default : Config) (h : c.Fits) :
    ∃ text, c.text? = some text ∧ parse? default text = some c.cut := by
  refine ⟨Toml.write c.toFields, if_pos h.isWritable, ?_⟩
  have hDocument : Toml.Document c.plainSettings [("validation", policyFields c.policy)] :=
    { lines := lines_plainSettings h
      tableLines := by simpa using lines_policyFields c.policy
      tableBare := by simp [Toml.IsBare, Toml.isKeyChar]
      nodup := (by decide : (plainNames ++ ["validation"]).Nodup) }
  have hRead := Toml.parse?_write hDocument
  rw [← toFields_eq] at hRead
  rw [parse?, hRead, Option.bind_some, ofFields_toFields default h]

-- ---------------------------------------------------------------------------
-- What is loaded
-- ---------------------------------------------------------------------------

/-- The integers among the fields of a document have 64 bits. -/
def Bounded (doc : List (String × Toml)) : Prop :=
  ∀ name m, doc.lookup name = some (.integer m) → Toml.isInteger m = true

theorem bounded_of_parse? {text : String} (h : Toml.parse? text = some doc) : Bounded doc := by
  intro name m hLookup
  obtain ⟨front, rest, hDoc, -⟩ := List.lookup_eq_some_iff.mp hLookup
  exact Toml.isInteger_of_parse? h (hDoc ▸ List.mem_append_right front List.mem_cons_self)

theorem isInteger_of_settingOr {name : String} {d n : Nat} (hDoc : Bounded doc)
    (hDefault : Toml.isInteger d = true) (h : settingOr doc name Setting.nat d = some n) :
    Toml.isInteger n = true := by
  rcases settingOr_eq_some_iff.mp h with ⟨v, hLookup, hSetting⟩ | ⟨-, rfl⟩
  · rw [nat_eq_some_iff] at hSetting
    exact hDoc name n (hSetting ▸ hLookup)
  · exact hDefault

theorem millis_eq_some_iff {v : Toml} {d : Duration} :
    Setting.millis v = some d ↔ ∃ n : Nat, v = .integer n ∧ Duration.ofMillis n = d := by
  simp [Setting.millis, nat_eq_some_iff]

theorem seconds_eq_some_iff {v : Toml} {d : Duration} :
    Setting.seconds v = some d ↔ ∃ n : Nat, v = .integer n ∧ Duration.ofSeconds n = d := by
  simp [Setting.seconds, nat_eq_some_iff]

theorem standard_fits (home : String) : (standard home).Fits := by
  constructor <;> simp only [standard, Duration.wholeMillis_ofMillis,
    Duration.wholeSeconds_ofSeconds] <;> decide

theorem cut_standard (home : String) : (standard home).cut = standard home := by
  simp only [cut, standard, Duration.wholeMillis_ofMillis, Duration.wholeSeconds_ofSeconds]

variable {home : String}

/-- A configuration that was loaded can be written. -/
theorem fits_of_given (hDoc : Bounded doc) (h : Given (standard home) doc c) : c.Fits where
  maxUpload := isInteger_of_settingOr hDoc (standard_fits home).maxUpload h.maxUpload
  replayLimit := isInteger_of_settingOr hDoc (standard_fits home).replayLimit h.replayLimit
  gracePeriod := by
    rcases settingOr_eq_some_iff.mp h.gracePeriod with ⟨v, hLookup, hSetting⟩ | ⟨-, hDefault⟩
    · obtain ⟨n, rfl, hSpan⟩ := millis_eq_some_iff.mp hSetting
      rw [← hSpan, Duration.wholeMillis_ofMillis]
      exact hDoc _ _ hLookup
    · rw [← hDefault]
      exact (standard_fits home).gracePeriod
  shutdownTimeout := by
    rcases settingOr_eq_some_iff.mp h.shutdownTimeout with ⟨v, hLookup, hSetting⟩ | ⟨-, hDefault⟩
    · obtain ⟨n, rfl, hSpan⟩ := seconds_eq_some_iff.mp hSetting
      rw [← hSpan, Duration.wholeSeconds_ofSeconds]
      exact hDoc _ _ hLookup
    · rw [← hDefault]
      exact (standard_fits home).shutdownTimeout

/-- A configuration that was loaded has nothing to cut: a document gives whole milliseconds and
seconds. -/
theorem cut_of_given (h : Given (standard home) doc c) : c.cut = c := by
  have hMillis : Duration.ofMillis c.gracePeriod.wholeMillis = c.gracePeriod := by
    rcases settingOr_eq_some_iff.mp h.gracePeriod with ⟨v, -, hSetting⟩ | ⟨-, hDefault⟩
    · obtain ⟨n, -, hSpan⟩ := millis_eq_some_iff.mp hSetting
      rw [← hSpan, Duration.wholeMillis_ofMillis]
    · rw [← hDefault]
      exact congrArg gracePeriod (cut_standard home)
  have hSeconds : Duration.ofSeconds c.shutdownTimeout.wholeSeconds = c.shutdownTimeout := by
    rcases settingOr_eq_some_iff.mp h.shutdownTimeout with ⟨v, -, hSetting⟩ | ⟨-, hDefault⟩
    · obtain ⟨n, -, hSpan⟩ := seconds_eq_some_iff.mp hSetting
      rw [← hSpan, Duration.wholeSeconds_ofSeconds]
    · rw [← hDefault]
      exact congrArg shutdownTimeout (cut_standard home)
  rw [cut, hMillis, hSeconds]

/-- What a text gives. -/
theorem parse?_eq_some_iff {text : String} : parse? default text = some c ↔
    ∃ doc, Toml.parse? text = some doc ∧ Given default doc c := by
  simp only [parse?, Option.bind_eq_some_iff, ofFields_eq_some_iff]

-- ---------------------------------------------------------------------------
-- Documents that leave something out
-- ---------------------------------------------------------------------------

/-- The lists that a value gives for a policy: those of a table, those of an array in their order,
or none. -/
def listsOf : Toml → Option (List (String × Toml))
  | .table fields => some fields
  | .array items => some (policyNames.zip items)
  | .moment _ => some []
  | _ => none

/-- The lists that a document gives for the policy. -/
def givenLists (doc : List (String × Toml)) : List (String × Toml) :=
  ((doc.lookup "validation").bind listsOf).getD []

theorem policy_eq_bind (v : Toml) : Setting.policy v = (listsOf v).bind policyOfFields := by
  cases v <;> rfl

/-- Whether a value is of the kind of a setting, for each but the policy. -/
def kinds : List (String × (Toml → Bool)) :=
  [("bind_address", fun v => (Setting.text v).isSome),
   ("scripts_dir", fun v => (Setting.text v).isSome),
   ("log_dir", fun v => (Setting.text v).isSome),
   ("autoboot_file", fun v => (Setting.text v).isSome),
   ("interpreter", fun v => (Setting.text v).isSome),
   ("interpreter_args", fun v => (Setting.texts v).isSome),
   ("max_upload_bytes", fun v => (Setting.nat v).isSome),
   ("replay_buffer_bytes", fun v => (Setting.nat v).isSome),
   ("stop_grace_period", fun v => (Setting.millis v).isSome),
   ("shutdown_timeout", fun v => (Setting.seconds v).isSome)]

/-- Everything that a document gives is of its kind. What it leaves out does not matter. -/
structure Readable (doc : List (String × Toml)) : Prop where
  settings : ∀ k ∈ kinds, ∀ v, doc.lookup k.1 = some v → k.2 v = true
  policy : ∀ v, doc.lookup "validation" = some v → (listsOf v).isSome = true
  lists : ∀ name ∈ policyNames, ∀ v, (givenLists doc).lookup name = some v →
    (Setting.texts v).isSome = true

/-- Each setting, and each list of the policy, is as a document gives it, or its default. -/
structure Completes (home : String) (doc : List (String × Toml)) (c : Config) : Prop where
  settings : ∀ name ∈ plainNames, c.toFields.lookup name =
    (doc.lookup name).or ((standard home).toFields.lookup name)
  lists : ∀ name ∈ policyNames, (policyFields c.policy).lookup name =
    ((givenLists doc).lookup name).or ((policyFields Policy.standard).lookup name)

theorem exists_settingOr_iff {α : Type} {name : String} {setting : Setting α} {d : α} :
    (∃ x, settingOr doc name setting d = some x) ↔
      ∀ v, doc.lookup name = some v → (setting v).isSome = true := by
  rw [settingOr]
  cases doc.lookup name <;> simp [Option.isSome_iff_exists]

theorem exists_policy_iff {fields : List (String × Toml)} :
    (∃ p, policyOfFields fields = some p) ↔
      ∀ name ∈ policyNames, ∀ v, fields.lookup name = some v → (Setting.texts v).isSome = true := by
  simp only [policyOfFields_eq_some_iff, policyNames, List.forall_mem_cons, List.not_mem_nil,
    false_implies, implies_true, and_true]
  constructor
  · rintro ⟨p, h⟩
    exact ⟨exists_settingOr_iff.mp ⟨_, h.blockedModules⟩, exists_settingOr_iff.mp ⟨_, h.blockedBuiltins⟩,
      exists_settingOr_iff.mp ⟨_, h.blockedFunctions⟩, exists_settingOr_iff.mp ⟨_, h.allowedModules⟩,
      exists_settingOr_iff.mp ⟨_, h.thirdPartyModules⟩,
      exists_settingOr_iff.mp ⟨_, h.suspiciousAttributes⟩,
      exists_settingOr_iff.mp ⟨_, h.allowedPaths⟩⟩
  · rintro ⟨h₁, h₂, h₃, h₄, h₅, h₆, h₇⟩
    obtain ⟨a₁, h₁⟩ := exists_settingOr_iff (d := Policy.standard.blockedModules).mpr h₁
    obtain ⟨a₂, h₂⟩ := exists_settingOr_iff (d := Policy.standard.blockedBuiltins).mpr h₂
    obtain ⟨a₃, h₃⟩ := exists_settingOr_iff (d := Policy.standard.blockedFunctions).mpr h₃
    obtain ⟨a₄, h₄⟩ := exists_settingOr_iff (d := Policy.standard.allowedModules).mpr h₄
    obtain ⟨a₅, h₅⟩ := exists_settingOr_iff (d := Policy.standard.thirdPartyModules).mpr h₅
    obtain ⟨a₆, h₆⟩ := exists_settingOr_iff (d := Policy.standard.suspiciousAttributes).mpr h₆
    obtain ⟨a₇, h₇⟩ := exists_settingOr_iff (d := Policy.standard.allowedPaths).mpr h₇
    exact ⟨⟨a₁, a₂, a₃, a₄, a₅, a₆, a₇⟩, ⟨h₁, h₂, h₃, h₄, h₅, h₆, h₇⟩⟩

/-- A document gives settings just if everything that it gives is of its kind. -/
theorem exists_given_iff (default : Config) (doc : List (String × Toml)) :
    (∃ c, Given default doc c) ↔ Readable doc := by
  have hPolicy : (∃ p, settingOr doc "validation" Setting.policy default.policy = some p) ↔
      (∀ v, doc.lookup "validation" = some v → (listsOf v).isSome = true) ∧
      ∀ name ∈ policyNames, ∀ v, (givenLists doc).lookup name = some v →
        (Setting.texts v).isSome = true := by
    rw [exists_settingOr_iff, givenLists, ← exists_policy_iff]
    cases doc.lookup "validation" with
    | none => simp [exists_policy_iff]
    | some v =>
      simp only [Option.some.injEq, forall_eq', policy_eq_bind, Option.bind_some]
      cases listsOf v <;> simp [Option.isSome_iff_exists]
  constructor
  · rintro ⟨c, h⟩
    obtain ⟨hLists, hTexts⟩ := hPolicy.mp ⟨_, h.policy⟩
    refine ⟨?_, hLists, hTexts⟩
    simp only [kinds, List.forall_mem_cons, List.not_mem_nil, false_implies, implies_true, and_true]
    exact ⟨exists_settingOr_iff.mp ⟨_, h.bindAddress⟩, exists_settingOr_iff.mp ⟨_, h.scriptsDir⟩,
      exists_settingOr_iff.mp ⟨_, h.logDir⟩, exists_settingOr_iff.mp ⟨_, h.autobootFile⟩,
      exists_settingOr_iff.mp ⟨_, h.interpreter⟩, exists_settingOr_iff.mp ⟨_, h.interpreterArgs⟩,
      exists_settingOr_iff.mp ⟨_, h.maxUpload⟩, exists_settingOr_iff.mp ⟨_, h.replayLimit⟩,
      exists_settingOr_iff.mp ⟨_, h.gracePeriod⟩, exists_settingOr_iff.mp ⟨_, h.shutdownTimeout⟩⟩
  · rintro ⟨hSettings, hLists, hTexts⟩
    simp only [kinds, List.forall_mem_cons, List.not_mem_nil, false_implies, implies_true, and_true]
      at hSettings
    obtain ⟨h₁, h₂, h₃, h₄, h₅, h₆, h₇, h₈, h₉, h₁₀⟩ := hSettings
    obtain ⟨a₁, h₁⟩ := exists_settingOr_iff (d := default.bindAddress).mpr h₁
    obtain ⟨a₂, h₂⟩ := exists_settingOr_iff (d := default.scriptsDir).mpr h₂
    obtain ⟨a₃, h₃⟩ := exists_settingOr_iff (d := default.logDir).mpr h₃
    obtain ⟨a₄, h₄⟩ := exists_settingOr_iff (d := default.autobootFile).mpr h₄
    obtain ⟨a₅, h₅⟩ := exists_settingOr_iff (d := default.interpreter).mpr h₅
    obtain ⟨a₆, h₆⟩ := exists_settingOr_iff (d := default.interpreterArgs).mpr h₆
    obtain ⟨a₇, h₇⟩ := exists_settingOr_iff (d := default.maxUpload).mpr h₇
    obtain ⟨a₈, h₈⟩ := exists_settingOr_iff (d := default.replayLimit).mpr h₈
    obtain ⟨a₉, h₉⟩ := exists_settingOr_iff (d := default.gracePeriod).mpr h₉
    obtain ⟨a₁₀, h₁₀⟩ := exists_settingOr_iff (d := default.shutdownTimeout).mpr h₁₀
    obtain ⟨a₁₁, h₁₁⟩ := hPolicy.mpr ⟨hLists, hTexts⟩
    exact ⟨⟨a₁, a₂, a₃, a₄, a₅, a₆, a₇, a₈, a₉, a₁₀, a₁₁⟩,
      ⟨h₁, h₂, h₃, h₄, h₅, h₆, h₇, h₈, h₉, h₁₀, h₁₁⟩⟩

/-- A setting is written as it was given, if what is written for what a value gives is the value. -/
theorem encode_settingOr {α : Type} (encode : α → Toml) {name : String} {setting : Setting α}
    {d x : α} (hEncode : ∀ v x, doc.lookup name = some v → setting v = some x → encode x = v)
    (h : settingOr doc name setting d = some x) :
    some (encode x) = (doc.lookup name).or (some (encode d)) := by
  rcases settingOr_eq_some_iff.mp h with ⟨v, hLookup, hSetting⟩ | ⟨hNone, rfl⟩
  · rw [hLookup, Option.some_or, hEncode v x hLookup hSetting]
  · rw [hNone, Option.none_or]

/-- The lists of a policy are those that are given, or their defaults. -/
theorem lookup_policyFields {fields : List (String × Toml)} {p : Policy} (h : PolicyGiven fields p) :
    ∀ name ∈ policyNames, (policyFields p).lookup name =
      (fields.lookup name).or ((policyFields Policy.standard).lookup name) := by
  have hTexts : ∀ {name : String} (v : Toml) (ss : List String), fields.lookup name = some v →
      Setting.texts v = some ss → Toml.strings ss = v := fun v ss _ hSetting =>
    (texts_eq_some_iff.mp hSetting).symm
  simp only [policyNames, List.forall_mem_cons, List.not_mem_nil, false_implies, implies_true,
    and_true]
  exact ⟨encode_settingOr _ hTexts h.blockedModules, encode_settingOr _ hTexts h.blockedBuiltins,
    encode_settingOr _ hTexts h.blockedFunctions, encode_settingOr _ hTexts h.allowedModules,
    encode_settingOr _ hTexts h.thirdPartyModules,
    encode_settingOr _ hTexts h.suspiciousAttributes, encode_settingOr _ hTexts h.allowedPaths⟩

/-- What a document gives is taken, and what it leaves out has its default. -/
theorem completes_of_given (hDoc : Bounded doc) (h : Given (standard home) doc c) :
    Completes home doc c where
  settings := by
    have hText : ∀ {name : String} (v : Toml) (s : String), doc.lookup name = some v →
        Setting.text v = some s → Toml.string s = v := fun v s _ hSetting =>
      (text_eq_some_iff.mp hSetting).symm
    have hTexts : ∀ {name : String} (v : Toml) (ss : List String), doc.lookup name = some v →
        Setting.texts v = some ss → Toml.strings ss = v := fun v ss _ hSetting =>
      (texts_eq_some_iff.mp hSetting).symm
    have hNat : ∀ {name : String} (v : Toml) (n : Nat), doc.lookup name = some v →
        Setting.nat v = some n → Toml.integer n = v := fun v n _ hSetting =>
      (nat_eq_some_iff.mp hSetting).symm
    have hMillis : ∀ {name : String} (v : Toml) (d : Duration), doc.lookup name = some v →
        Setting.millis v = some d → Toml.integer d.milliWord = v := by
      intro name v d hLookup hSetting
      obtain ⟨n, rfl, rfl⟩ := millis_eq_some_iff.mp hSetting
      have hHeld : Toml.isInteger n = true := hDoc _ _ hLookup
      rw [Duration.milliWord_of_isInteger (by simpa using hHeld), Duration.wholeMillis_ofMillis]
    have hSeconds : ∀ {name : String} (v : Toml) (d : Duration), doc.lookup name = some v →
        Setting.seconds v = some d → Toml.integer d.wholeSeconds = v := by
      intro name v d hLookup hSetting
      obtain ⟨n, rfl, rfl⟩ := seconds_eq_some_iff.mp hSetting
      rw [Duration.wholeSeconds_ofSeconds]
    simp only [plainNames, List.forall_mem_cons, List.not_mem_nil, false_implies, implies_true,
      and_true]
    exact ⟨encode_settingOr _ hText h.bindAddress, encode_settingOr _ hText h.scriptsDir,
      encode_settingOr _ hText h.logDir, encode_settingOr _ hText h.autobootFile,
      encode_settingOr _ hText h.interpreter, encode_settingOr _ hTexts h.interpreterArgs,
      encode_settingOr (fun n : Nat => .integer n) hNat h.maxUpload,
      encode_settingOr (fun n : Nat => .integer n) hNat h.replayLimit,
      encode_settingOr (fun d : Duration => .integer d.milliWord) hMillis h.gracePeriod,
      encode_settingOr (fun d : Duration => .integer d.wholeSeconds) hSeconds h.shutdownTimeout⟩
  lists := by
    have hPolicy := h.policy
    rcases settingOr_eq_some_iff.mp hPolicy with ⟨v, hLookup, hSetting⟩ | ⟨hNone, hDefault⟩
    · rw [policy_eq_bind] at hSetting
      obtain ⟨fields, hFields, hGiven⟩ := Option.bind_eq_some_iff.mp hSetting
      have hLists : givenLists doc = fields := by simp [givenLists, hLookup, hFields]
      rw [hLists]
      exact lookup_policyFields (policyOfFields_eq_some_iff.mp hGiven)
    · have hLists : givenLists doc = [] := by simp [givenLists, hNone]
      rw [hLists, ← hDefault]
      exact fun _ _ => rfl

end Config

-- ---------------------------------------------------------------------------
-- Files
-- ---------------------------------------------------------------------------

namespace Files

variable {fs fs' : Files} {now : Timestamp} {path : String}

/-- A file that was opened for writing is where its path leads, and empty. -/
theorem entry_of_openEmpty {id : FileId} (hOpen : fs.openEmpty now path = .ok (id, fs')) :
    ∃ q, fs.place path = .ok q ∧ SameWays fs fs' ∧ fs'.entryAt? q = some (.file id) ∧
      (fs'.body id).bytes = [] := by
  rw [openEmpty] at hOpen
  cases hPlace : fs.place path with
  | error f => simp [hPlace, bind, Except.bind] at hOpen
  | ok q =>
    refine ⟨q, rfl, ?_⟩
    simp only [hPlace, bind, Except.bind] at hOpen
    split at hOpen
    · next hEntry =>
      cases hOpen
      exact ⟨fun _ => rfl, hEntry, by rw [body_setBody, if_pos rfl]⟩
    · cases hOpen
    · next hEntry =>
      cases hOpen
      have hRoot : q ≠ [] := by
        rintro rfl
        cases hEntry
      have hEntries : ∀ p, (({ fs with nextId := fs.nextId + 1 }.setEntry q
          (.file fs.nextId)).setBody fs.nextId { bytes := [], modified := now }).entryAt? p =
          if p = q then some (.file fs.nextId) else fs.entryAt? p :=
        fun p => entryAt?_setEntry { fs with nextId := fs.nextId + 1 } hRoot _ p
      refine ⟨Site.sameWays_of_entries fun p => ?_, (hEntries q).trans (if_pos rfl),
        by rw [body_setBody, if_pos rfl]⟩
      by_cases hp : p = q
      · exact .inr ⟨wayAt?_eq_none_iff.mpr (.inl (hp ▸ hEntry)),
          wayAt?_eq_none_iff.mpr (.inr ⟨fs.nextId, (hEntries p).trans (if_pos hp)⟩)⟩
      · exact .inl ((hEntries p).trans (if_neg hp))

/-- A file that was written holds what was written. -/
theorem read_write {bytes : List UInt8} (h : fs.write now path bytes = .ok fs') :
    fs'.pathExists path = true ∧ fs'.read path = .ok bytes := by
  rw [write] at h
  cases hOpen : fs.openEmpty now path with
  | error f => simp [hOpen, bind, Except.bind] at h
  | ok opened =>
    obtain ⟨id, emptied⟩ := opened
    simp only [hOpen, bind, Except.bind] at h
    cases h
    obtain ⟨q, hPlace, hWays, hEntry, hEmpty⟩ := entry_of_openEmpty hOpen
    have hSame : SameWays fs (emptied.append now id bytes) := hWays
    have hThere : (emptied.append now id bytes).place path = .ok q :=
      (place_ok_iff hSame).mpr hPlace
    have hFile : (emptied.append now id bytes).entryAt? q = some (.file id) := hEntry
    refine ⟨?_, read_eq_ok.mpr ⟨q, id, hThere, hFile, ?_⟩⟩
    · rw [pathExists, existing_eq_ok.mpr ⟨hThere, hFile⟩]
      rfl
    · simp [append, body_setBody, hEmpty]

end Files

namespace Config

variable {c : Config} {fs fs' : Files} {now : Timestamp} {workingDir path : String}

/-- The files of a host after the directories that lead to a path were made. -/
def leadingTo (fs : Files) (workingDir path : String) : Except IoFault Files :=
  match (Files.parentPath? path).filter (!·.isEmpty) with
  | none => .ok fs
  | some parent => fs.makeDirectories (seenFrom workingDir parent)

/-- The host makes the directories that lead to a path, and then opens a file at the path. -/
def LetsWrite (fs : Files) (now : Timestamp) (workingDir path : String) : Prop :=
  ∃ made opened, leadingTo fs workingDir path = .ok made ∧
    made.openEmpty now (seenFrom workingDir path) = .ok opened

/-- A configuration with a text is saved by making directories and writing the text. -/
theorem save_of_write {made : Files} {text : String} (hText : c.text? = some text)
    (hMade : leadingTo fs workingDir path = .ok made)
    (hWrite : made.write now (seenFrom workingDir path) (encodeUtf8 text) = .ok fs') :
    c.save fs now workingDir path = .ok fs' := by
  rw [leadingTo] at hMade
  simp only [save, hText]
  split at hMade
  · next hParent =>
    cases hMade
    simp only [hParent, pure, Except.pure, bind, Except.bind, hWrite, Except.mapError]
  · next parent hParent =>
    simp only [hParent, hMade, bind, Except.bind, Except.mapError, hWrite]

/-- Where the host lets a file be written, a configuration is saved if its numbers can be, and the
file holds its text. -/
theorem exists_save (hHost : LetsWrite fs now workingDir path) {text : String}
    (hText : c.text? = some text) :
    ∃ fs', c.save fs now workingDir path = .ok fs' ∧
      fs'.pathExists (seenFrom workingDir path) = true ∧
      fs'.readText (seenFrom workingDir path) = .ok text := by
  obtain ⟨made, ⟨id, opened⟩, hMade, hOpen⟩ := hHost
  have hWrite : made.write now (seenFrom workingDir path) (encodeUtf8 text) =
      .ok (opened.append now id (encodeUtf8 text)) := by
    simp [Files.write, hOpen, bind, Except.bind]
  obtain ⟨hThere, hBytes⟩ := Files.read_write hWrite
  refine ⟨opened.append now id (encodeUtf8 text), save_of_write hText hMade hWrite, hThere, ?_⟩
  rw [Files.readText, hBytes]
  simp only [bind, Except.bind, decodeUtf8?_encodeUtf8]

/-- What is in a file is loaded from it. -/
theorem load_of_readText {home text : String}
    (hThere : fs.pathExists (seenFrom workingDir path) = true)
    (hText : fs.readText (seenFrom workingDir path) = .ok text)
    (hParse : parse? (standard home) text = some c) : load fs home workingDir path = .ok c := by
  simp [load, hThere, hText, hParse, pure, Except.pure]

end Config

end ScriptWarden
