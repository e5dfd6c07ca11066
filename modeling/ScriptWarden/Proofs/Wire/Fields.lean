import ScriptWarden.Proofs.Clock.Timestamps
import ScriptWarden.Proofs.Json.Records
import ScriptWarden.Wire.Event

/-!
# Fields of messages

What stands in the fields of requests, events and records for texts, numbers, moments and lists, and
what is read for it. A value that may be missing is written, null or left out, and a list that may
be empty is written or left out.

## Results

* `Holds.text`, `Holds.time` and the like — a value is read as it was written.
* `OptionalField.holds`, `ListField.holds` — every way to write a field is read alike.
-/

namespace ScriptWarden

open Json (Holds Readable present)

variable {α : Type}

-- ---------------------------------------------------------------------------
-- Shapes
-- ---------------------------------------------------------------------------

namespace Shape

theorem pid_toNat (p : UInt32) : pid (.nat p.toNat) = .ok p := by
  have hHeld : p.toNat ≤ twoTo 32 - 1 := Nat.le_sub_one_of_lt p.toNat_lt
  simp [pid, u32, natUpTo, hHeld, Except.map]

theorem u64_toNat (n : UInt64) : u64 (.nat n.toNat) = .ok n.toNat := by
  have hHeld : n.toNat ≤ twoTo 64 - 1 := Nat.le_sub_one_of_lt n.toNat_lt
  simp [u64, natUpTo, hHeld]

theorem i32_toInt (i : Int32) : i32 (.int i.toInt) = .ok i := by
  have hLow := i.le_toInt
  have hHigh := i.toInt_lt
  have hSame := i.ofInt_toInt
  cases hInt : i.toInt with
  | ofNat n =>
    rw [hInt] at hHigh hSame
    have hHeld : n < twoTo 31 := Int.ofNat_lt.mp hHigh
    simp only [Json.int, i32, if_pos hHeld]
    exact congrArg Except.ok hSame
  | negSucc n =>
    rw [hInt] at hLow hSame
    have hHeld : n + 1 ≤ twoTo 31 := Int.ofNat_le.mp (Int.neg_le_neg_iff.mp hLow)
    simp only [Json.int, i32, if_pos hHeld]
    exact congrArg Except.ok hSame

theorem timestamp_text {t : Timestamp} (h : t.Representable) : timestamp (.str t.text) = .ok t := by
  simp only [timestamp, Timestamp.ofText?_text h]

/-- A list is read, if each of its items is. -/
theorem list_map {shape : Shape α} {toJson : α → Json} {as : List α}
    (h : ∀ a ∈ as, shape (toJson a) = .ok a) : list shape (.arr (as.map toJson)) = .ok as := by
  have hItems : (as.map toJson).mapM shape = .ok as := by
    induction as with
    | nil => rfl
    | cons a as ih =>
      obtain ⟨hHere, hRest⟩ := List.forall_mem_cons.mp h
      rw [List.map_cons, List.mapM_cons, hHere, ih hRest]
      rfl
  exact hItems

end Shape

-- ---------------------------------------------------------------------------
-- Values in fields
-- ---------------------------------------------------------------------------

namespace Json

theorem Holds.text {default : Option String} (s : String) :
    Holds Shape.string default (some (.str s)) s := .written rfl (.str s)

theorem Holds.truth {default : Option Bool} (b : Bool) :
    Holds Shape.bool default (some (.bool b)) b := .written rfl (.bool b)

theorem Holds.pid {default : Option UInt32} (p : UInt32) :
    Holds Shape.pid default (some (.nat p.toNat)) p :=
  .written (Shape.pid_toNat p) (.nat (Nat.le_trans (Nat.le_of_lt p.toNat_lt) (by decide)))

theorem Holds.count {default : Option Nat} (n : UInt64) :
    Holds Shape.u64 default (some (.nat n.toNat)) n.toNat :=
  .written (Shape.u64_toNat n) (.nat (Nat.le_sub_one_of_lt n.toNat_lt))

theorem int_ne_null (i : Int) : Json.int i ≠ .null := by
  cases i <;> nofun

theorem Holds.integer {default : Option Int32} (i : Int32) :
    Holds Shape.i32 default (some (.int i.toInt)) i := by
  refine .written (Shape.i32_toInt i) ?_
  have hLow := i.le_toInt
  have hHigh := i.toInt_lt
  cases hInt : i.toInt with
  | ofNat n =>
    rw [hInt] at hHigh
    exact .nat (Nat.le_trans (Nat.le_of_lt (Int.ofNat_lt.mp hHigh)) (by decide))
  | negSucc n =>
    rw [hInt] at hLow
    exact .neg (Nat.zero_lt_succ n)
      (Nat.le_trans (Int.ofNat_le.mp (Int.neg_le_neg_iff.mp hLow)) (by decide))

theorem Holds.time {default : Option Timestamp} {t : Timestamp} (h : t.Representable) :
    Holds Shape.timestamp default (some (.str t.text)) t :=
  .written (Shape.timestamp_text h) (.str t.text)

theorem Holds.real {default : Option Binary64} {x : Binary64} (h : x.RoundTrips) :
    Holds Shape.real default (some (.real x)) x :=
  .written rfl (.real h)

/-- A list of values that are read is read. -/
theorem Holds.list {default : Option (List α)} {shape : Shape α} {toJson : α → Json} {as : List α}
    (h : ∀ a ∈ as, shape (toJson a) = .ok a ∧ Readable (maxDepth - 2) (toJson a)) :
    Holds (Shape.list shape) default (some (.arr (as.map toJson))) as := by
  refine .written (Shape.list_map fun a hMem => (h a hMem).1) (.arr ?_)
  intro j hMem
  obtain ⟨a, hItem, rfl⟩ := List.mem_map.mp hMem
  exact (h a hItem).2

theorem Holds.texts {default : Option (List String)} (ss : List String) :
    Holds (Shape.list Shape.string) default (some (.strings ss)) ss :=
  .list fun s _ => ⟨rfl, .str s⟩

end Json

-- ---------------------------------------------------------------------------
-- Values that may be missing
-- ---------------------------------------------------------------------------

/-- How a value that may be missing stands in a field. -/
inductive OptionalField (toJson : α → Json) : Option α → Option Json → Prop
  | leftOut : OptionalField toJson none none
  | null : OptionalField toJson none (some .null)
  | written (a : α) : OptionalField toJson (some a) (some (toJson a))

theorem OptionalField.ofOption {toJson : α → Json} (a : Option α) :
    OptionalField toJson a (a.map toJson) := by
  cases a with
  | none => exact .leftOut
  | some a => exact .written a

/-- How a list of texts that may be empty stands in a field. -/
inductive ListField : List String → Option Json → Prop
  | leftOut : ListField [] none
  | written (texts : List String) : ListField texts (some (.strings texts))

/-- A list that is left out where it is empty. -/
def ListField.shown (texts : List String) : Option Json :=
  if texts.isEmpty then none else some (.strings texts)

theorem ListField.ofList (texts : List String) : ListField texts (shown texts) := by
  cases texts with
  | nil => exact .leftOut
  | cons s texts => exact .written (s :: texts)

theorem OptionalField.holds {toJson : α → Json} {a : Option α} {v : Option Json} {shape : Shape α}
    (h : OptionalField toJson a v)
    (hValue : ∀ x ∈ a, toJson x ≠ .null ∧ Holds shape none (some (toJson x)) x) :
    Holds (Shape.nullable shape) (some none) v a := by
  cases h with
  | leftOut => exact .leftOut rfl
  | null => exact .written rfl .null
  | written x =>
    obtain ⟨hThere, hHolds⟩ := hValue x rfl
    cases hHolds with
    | written hShape hReadable =>
      refine .written ?_ hReadable
      have hNullable : Shape.nullable shape (toJson x) = (shape (toJson x)).map some := by
        cases hJson : toJson x with
        | null => exact absurd hJson hThere
        | _ => rfl
      rw [hNullable, hShape]
      rfl

theorem ListField.holds {texts : List String} {v : Option Json} (h : ListField texts v) :
    Holds (Shape.list Shape.string) (some []) v texts := by
  cases h with
  | leftOut => exact .leftOut rfl
  | written => exact .texts texts

-- ---------------------------------------------------------------------------
-- What shapes give
-- ---------------------------------------------------------------------------

namespace Shape

/-- A shape gives nothing but values of some kind. -/
def Ensures (shape : Shape α) (P : α → Prop) : Prop := ∀ j a, shape j = .ok a → P a

variable {shape : Shape α} {P : α → Prop}

/-- Moments that are read are of the calendar. -/
theorem ensures_timestamp : timestamp.Ensures Timestamp.Representable := by
  intro j t h
  unfold timestamp at h
  split at h
  · split at h
    · next hRead => exact Timestamp.representable_of_ofText? (hRead.trans (congrArg some
        (Except.ok.inj h)))
    · cases h
  · cases h

theorem Ensures.nullable (h : shape.Ensures P) :
    (nullable shape).Ensures fun v => ∀ a ∈ v, P a := by
  intro j v hRead a hValue
  unfold Shape.nullable at hRead
  split at hRead
  · rw [← Except.ok.inj hRead] at hValue
    cases hValue
  · cases hShape : shape j with
    | error f =>
      rw [hShape] at hRead
      cases hRead
    | ok b =>
      rw [hShape] at hRead
      rw [← Except.ok.inj hRead] at hValue
      exact Option.some.inj hValue ▸ h j b hShape

theorem Ensures.list (h : shape.Ensures P) : (list shape).Ensures fun as => ∀ a ∈ as, P a := by
  intro j as hRead
  cases j with
  | arr items =>
    have hItems : items.mapM shape = .ok as := hRead
    clear hRead
    induction items generalizing as with
    | nil =>
      rw [← Except.ok.inj hItems]
      exact fun a hMem => absurd hMem List.not_mem_nil
    | cons j items ih =>
      rw [List.mapM_cons] at hItems
      obtain ⟨a, hHere, hItems⟩ := bind_eq_ok_iff.mp hItems
      obtain ⟨as, hRest, hItems⟩ := bind_eq_ok_iff.mp hItems
      rw [← Except.ok.inj hItems]
      exact List.forall_mem_cons.mpr ⟨h j a hHere, ih as hRest⟩
  | _ => cases hRead

theorem Ensures.get (h : shape.Ensures P) {r : Record} {name : String} {a : α}
    (hRead : r.get name shape = .ok a) : P a := by
  unfold Record.get at hRead
  split at hRead
  · exact h _ _ hRead
  · cases hRead

theorem Ensures.getD (h : shape.Ensures P) {r : Record} {name : String} {default a : α}
    (hDefault : P default) (hRead : r.getD name shape default = .ok a) : P a := by
  unfold Record.getD at hRead
  split at hRead
  · exact h _ _ hRead
  · exact Except.ok.inj hRead ▸ hDefault

end Shape

end ScriptWarden
