import Mathlib.Data.List.Forall2
import ScriptWarden.Proofs.Json.Values

/-!
# Records of JSON

A record is written by its fields, some of which may be left out. It is read when its fields have
different names and each holds what its shape asks for, and then every field has the value that was
written for it, or the one that stands for its absence.

## Results

* `WellFormed.ofJson` — a record is read whose fields are there or may be left out.
* `WellFormed.get_eq`, `WellFormed.getD_eq` — what is read for a field.
* `readAll_tagged` — a message is read that begins with its kind.
-/

namespace ScriptWarden

namespace Json

variable {α : Type}

-- ---------------------------------------------------------------------------
-- Fields that may be left out
-- ---------------------------------------------------------------------------

/-- Names with the values of their fields, or without one where a field is left out. -/
abbrev FieldValues := List (String × Option Json)

/-- The fields that are there. -/
def present (values : FieldValues) : List (String × Json) :=
  values.filterMap fun field => field.2.map (field.1, ·)

theorem mem_present {values : FieldValues} {f : String × Json} :
    f ∈ present values ↔ (f.1, some f.2) ∈ values := by
  simp only [present, List.mem_filterMap, Option.map_eq_some_iff, Prod.exists]
  constructor
  · rintro ⟨k, v, hMem, j, rfl, rfl⟩
    exact hMem
  · exact fun hMem => ⟨f.1, some f.2, hMem, f.2, rfl, rfl⟩

theorem names_present_sublist (values : FieldValues) :
    ((present values).map Prod.fst).Sublist (values.map Prod.fst) := by
  induction values with
  | nil => exact List.Sublist.slnil
  | cons field values ih =>
    obtain ⟨k, v⟩ := field
    cases v with
    | none => exact ih.cons k
    | some j => exact ih.cons_cons k

/-- Under a name that is given once stands what is written for it. -/
theorem lookup_present {values : FieldValues} (hNames : (values.map Prod.fst).Nodup)
    {name : String} {v : Option Json} (hField : (name, v) ∈ values) :
    (present values).lookup name = v := by
  induction values with
  | nil => cases hField
  | cons field values ih =>
    obtain ⟨k, w⟩ := field
    obtain ⟨hNew, hRest⟩ := List.nodup_cons.mp hNames
    have hPresent : present ((k, w) :: values) = (w.map (k, ·)).toList ++ present values := by
      cases w <;> rfl
    rw [hPresent]
    rcases List.mem_cons.mp hField with hHere | hLater
    · obtain ⟨rfl, rfl⟩ := Prod.mk.inj hHere
      cases v with
      | some j => simp
      | none =>
        have hAbsent : (present values).lookup name = none := by
          refine List.lookup_eq_none_iff.mpr fun f hMem => ?_
          have hName := (names_present_sublist values).subset (List.mem_map_of_mem hMem)
          exact bne_iff_ne.mpr fun hSame => hNew (hSame ▸ hName)
        simpa using hAbsent
    · have hOther : (name == k) = false :=
        beq_false_of_ne fun hSame => hNew (List.mem_map.mpr ⟨_, hLater, hSame⟩)
      cases w <;> simpa [List.lookup_cons, hOther] using ih hRest hLater

/-- What stands in a field for a value of a shape: the value as it is written, or nothing, where
there is a value that is meant by that. -/
inductive Holds (shape : Shape α) (default : Option α) : Option Json → α → Prop
  | written {j : Json} {a : α} : shape j = .ok a → Readable (maxDepth - 1) j →
      Holds shape default (some j) a
  | leftOut {a : α} : default = some a → Holds shape default none a

/-- A field has what its shape asks for. -/
def Fits (field : FieldShape) : Option Json → Prop
  | none => field.required = false
  | some j => field.check j = .ok () ∧ Readable (maxDepth - 1) j

variable {values : FieldValues} {shape : Shape α} {a : α} {v : Option Json}

/-- A field fits that is checked by the shape of its value and may be left out where a value is
meant by that. -/
theorem Holds.fits_of_check {default : Option α} (h : Holds shape default v a) {field : FieldShape}
    (hCheck : ∀ j, field.check j = (shape j).map fun _ => ())
    (hLeftOut : default ≠ none → field.required = false) : Fits field v := by
  cases h with
  | @written j a hShape hReadable =>
    refine ⟨?_, hReadable⟩
    rw [hCheck, hShape]
    rfl
  | leftOut hMeant => exact hLeftOut (hMeant ▸ Option.some_ne_none a)

theorem Holds.fits (h : Holds shape none v a) (name : String) : Fits (.of name shape) v :=
  h.fits_of_check (fun _ => rfl) fun hMeant => absurd rfl hMeant

theorem Holds.fits_optional {default : α} (h : Holds shape (some default) v a) (name : String) :
    Fits (.optional name shape) v :=
  h.fits_of_check (fun _ => rfl) fun _ => rfl

-- ---------------------------------------------------------------------------
-- Records
-- ---------------------------------------------------------------------------

/-- Fields that pass their shapes and have different names are all found. -/
theorem checkFields_eq {shapes : List FieldShape} {fields passed : List (String × Json)}
    (hPass : ∀ f ∈ fields, ∃ s, shapes.find? (·.name == f.1) = some s ∧ s.check f.2 = .ok ())
    (hNames : ((passed.reverse ++ fields).map Prod.fst).Nodup) :
    Record.checkFields shapes passed fields = .ok (passed.reverse ++ fields) := by
  induction fields generalizing passed with
  | nil => rw [Record.checkFields, List.append_nil]
  | cons f fields ih =>
    obtain ⟨k, j⟩ := f
    obtain ⟨⟨s, hFound, hCheck⟩, hRest⟩ := List.forall_mem_cons.mp hPass
    have hNew : passed.any (·.1 == k) = false := by
      rw [List.map_append, List.nodup_append] at hNames
      refine List.any_eq_false.mpr fun g hMem hSame => ?_
      exact hNames.2.2 g.1 (List.mem_map_of_mem (List.mem_reverse.mpr hMem)) k List.mem_cons_self
        (eq_of_beq hSame)
    rw [Record.checkFields]
    simp only [hFound, hNew, hCheck, Bool.false_eq_true, if_false, bind, Except.bind]
    rw [ih hRest (by simpa using hNames)]
    simp

theorem find?_of_nodup {shapes : List FieldShape} (hNames : (shapes.map (·.name)).Nodup)
    {s : FieldShape} (hMem : s ∈ shapes) : shapes.find? (·.name == s.name) = some s := by
  induction shapes with
  | nil => cases hMem
  | cons r shapes ih =>
    obtain ⟨hNew, hRest⟩ := List.nodup_cons.mp hNames
    rw [List.find?_cons]
    rcases List.mem_cons.mp hMem with rfl | hLater
    · simp
    · have hOther : (r.name == s.name) = false :=
        beq_false_of_ne fun hSame => hNew (List.mem_map.mpr ⟨s, hLater, hSame.symm⟩)
      rw [hOther]
      exact ih hRest hLater

/-- Fields of different names, each of which has what its shape asks for. -/
structure WellFormed (shapes : List FieldShape) (values : FieldValues) : Prop where
  names : (shapes.map (·.name)).Nodup
  fits : List.Forall₂ (fun s field => field.1 = s.name ∧ Fits s field.2) shapes values

namespace WellFormed

variable {shapes : List FieldShape}

theorem names_eq (h : WellFormed shapes values) : values.map Prod.fst = shapes.map (·.name) := by
  have hFits := h.fits
  clear h
  induction hFits with
  | nil => rfl
  | cons hHere _ ih => rw [List.map_cons, List.map_cons, hHere.1, ih]

/-- Every field has a shape. -/
theorem exists_shape (h : WellFormed shapes values) {field : String × Option Json}
    (hMem : field ∈ values) : ∃ s ∈ shapes, field.1 = s.name ∧ Fits s field.2 := by
  have hFits := h.fits
  clear h
  induction hFits with
  | nil => cases hMem
  | cons hHere _ ih =>
    rcases List.mem_cons.mp hMem with rfl | hLater
    · exact ⟨_, List.mem_cons_self, hHere⟩
    · obtain ⟨s, hShape, hField⟩ := ih hLater
      exact ⟨s, List.mem_cons_of_mem _ hShape, hField⟩

/-- Every shape has a field. -/
theorem exists_value (h : WellFormed shapes values) {s : FieldShape} (hMem : s ∈ shapes) :
    ∃ v, (s.name, v) ∈ values ∧ Fits s v := by
  have hFits := h.fits
  clear h
  induction hFits with
  | nil => cases hMem
  | @cons _ field _ _ hHere _ ih =>
    rcases List.mem_cons.mp hMem with rfl | hLater
    · exact ⟨field.2, by rw [← hHere.1]; exact List.mem_cons_self, hHere.2⟩
    · obtain ⟨v, hField, hFit⟩ := ih hLater
      exact ⟨v, List.mem_cons_of_mem _ hField, hFit⟩

/-- **A record is read** whose fields have different names, and each of them has what its shape asks
for, or may be left out. -/
theorem ofJson (h : WellFormed shapes values) (what : String) :
    Record.ofJson what shapes (.obj (present values)) = .ok ⟨present values⟩ := by
  have hPass : ∀ f ∈ present values, ∃ s,
      shapes.find? (·.name == f.1) = some s ∧ s.check f.2 = .ok () := by
    intro f hMem
    obtain ⟨s, hShape, hName, hFit⟩ := h.exists_shape (mem_present.mp hMem)
    exact ⟨s, by rw [hName]; exact find?_of_nodup h.names hShape, hFit.1⟩
  have hDifferent : ((([] : List (String × Json)).reverse ++ present values).map
      Prod.fst).Nodup := by
    rw [List.reverse_nil, List.nil_append]
    exact (names_present_sublist values).nodup (h.names_eq ▸ h.names)
  have hThere : shapes.find? (fun s =>
      s.required && !(present values).any (·.1 == s.name)) = none := by
    refine List.find?_eq_none.mpr fun s hMem hMissing => ?_
    obtain ⟨v, hField, hFit⟩ := h.exists_value hMem
    obtain ⟨hRequired, hAbsent⟩ := Bool.and_eq_true_iff.mp hMissing
    cases v with
    | none => exact Bool.false_ne_true (hFit.symm.trans hRequired)
    | some j =>
      have hFound : (present values).any (·.1 == s.name) = true :=
        List.any_eq_true.mpr ⟨(s.name, j), mem_present.mpr hField, beq_self_eq_true _⟩
      rw [hFound] at hAbsent
      cases hAbsent
  rw [Record.ofJson, checkFields_eq hPass hDifferent]
  simp only [bind, Except.bind, List.reverse_nil, List.nil_append, hThere]

/-- Under the name of a field stands what is written for it. -/
theorem lookup_eq (h : WellFormed shapes values) {i : Nat} {name : String}
    (hField : values[i]? = some (name, v)) : (present values).lookup name = v :=
  lookup_present (h.names_eq ▸ h.names) (List.mem_of_getElem? hField)

/-- What is read for a field that has to be there. -/
theorem get_eq (h : WellFormed shapes values) (i : Nat) {name : String}
    (hHolds : Holds shape none v a) (hField : values[i]? = some (name, v)) :
    Record.get ⟨present values⟩ name shape = .ok a := by
  rw [Record.get, h.lookup_eq hField]
  cases hHolds with
  | written hShape _ => exact hShape
  | leftOut hNone => cases hNone

/-- What is read for a field that may be left out. -/
theorem getD_eq (h : WellFormed shapes values) (i : Nat) {name : String} {default : α}
    (hHolds : Holds shape (some default) v a) (hField : values[i]? = some (name, v)) :
    Record.getD ⟨present values⟩ name shape default = .ok a := by
  rw [Record.getD, h.lookup_eq hField]
  cases hHolds with
  | written hShape _ => exact hShape
  | leftOut hDefault => rw [Option.some.inj hDefault]

/-- The fields have names of the shapes, and what they hold is read as it was written. -/
theorem readable (h : WellFormed shapes values) :
    ∀ f ∈ present values, f.1 ∈ shapes.map (·.name) ∧ Readable (maxDepth - 1) f.2 := by
  intro f hMem
  obtain ⟨s, hShape, hName, hFit⟩ := h.exists_shape (mem_present.mp hMem)
  exact ⟨List.mem_map.mpr ⟨s, hShape, hName.symm⟩, hFit.2⟩

end WellFormed

/-- A message is read whose first field is a kind that is known, if its other fields are. -/
theorem readAll_tagged {shapes : List FieldShape} (hFields : WellFormed shapes values)
    {kind : String} {kinds : List String} (hKind : kind ∈ kinds)
    (hTag : "type" ∉ shapes.map (·.name)) {ofTagged : Tagged → Except ShapeFault α}
    (hRead : ofTagged (kind, .obj (present values)) = .ok a) {what : String} :
    readAll (fun c => do
        let (tagged, c) ← readTagged "type" what kinds c
        let a ← unplaced (ofTagged tagged)
        .ok (a, c))
      (encodeUtf8 (write (.obj (("type", .str kind) :: present values)))) = .ok a := by
  have hOthers : ∀ f ∈ present values, f.1 ≠ "type" ∧ Readable (maxDepth - 1) f.2 :=
    fun f hMem => ⟨fun hSame => hTag (hSame ▸ (hFields.readable f hMem).1),
      (hFields.readable f hMem).2⟩
  refine readAll_of_reads fun p rest hStops => ?_
  obtain ⟨q, hTagged⟩ := reads_tagged hKind hOthers what p rest hStops
  refine ⟨q, ?_⟩
  simp only [hTagged, bind, Except.bind, hRead, unplaced, Except.mapError]

end Json

end ScriptWarden
