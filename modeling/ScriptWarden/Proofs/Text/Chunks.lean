import Mathlib.Data.List.Induction
import ScriptWarden.Proofs.Text.LossyReading

/-!
# Chunks

A decoder that takes its bytes in chunks writes what reading all of them at once would write,
wherever they are cut. It looks at the last three bytes only: it holds back a first byte that
promises more bytes than have come, with those that continue it. What it lets go ends where the
reading machine has nothing left open, or is followed by a first byte, which closes whatever is
open; at such a cut the text of the whole is the texts of the parts (`Cut.decodeChars_append`).

## Results

* `exists_cut` — what the decoder holds back, and `Cut.unique` — there is one such cut.
* `Cut.push` — the next chunk is cut as the whole would be.
* `chunking_keeps_text` — the text of the chunks, and what is held after them.
-/

namespace ScriptWarden

open String (utf8EncodeChar)

-- ---------------------------------------------------------------------------
-- Runs
-- ---------------------------------------------------------------------------

/-- A byte that continues nothing, and bytes that continue it. -/
structure IsRun (lead : UInt8) (rest : List UInt8) : Prop where
  leads : isContinuation lead = false
  continues : ∀ b ∈ rest, isContinuation b = true

/-- Bytes that promise more than have come. -/
def IsOpen (t : List UInt8) : Prop :=
  ∃ lead rest, t = lead :: rest ∧ IsRun lead rest ∧ rest.length + 1 < leadLength lead

theorem leadLength_le (b : UInt8) : leadLength b ≤ 4 := by
  rw [leadLength_eq]
  grind

/-- A run that bytes end with has nothing but continuations behind its first byte, so it holds every
run that they end with. -/
theorem IsRun.suffix_of_length_le {lead lead' : UInt8} {rest rest' : List UInt8}
    (h : IsRun lead rest) (h' : IsRun lead' rest') {l : List UInt8} (hEnd : lead :: rest <:+ l)
    (hEnd' : lead' :: rest' <:+ l) (hLength : rest.length ≤ rest'.length) :
    lead :: rest = lead' :: rest' := by
  have hWithin : lead :: rest <:+ lead' :: rest' :=
    List.suffix_of_suffix_length_le hEnd hEnd' (by simpa using hLength)
  rcases List.suffix_cons_iff.mp hWithin with hEq | hBehind
  · exact hEq
  · have hContinues := h'.continues lead (hBehind.subset List.mem_cons_self)
    rw [h.leads] at hContinues
    exact absurd hContinues Bool.false_ne_true

/-- Bytes end with one run at most. -/
theorem IsRun.unique {lead lead' : UInt8} {rest rest' : List UInt8} (h : IsRun lead rest)
    (h' : IsRun lead' rest') {l : List UInt8} (hEnd : lead :: rest <:+ l)
    (hEnd' : lead' :: rest' <:+ l) : lead :: rest = lead' :: rest' := by
  rcases Nat.le_total rest.length rest'.length with hShort | hLong
  · exact h.suffix_of_length_le h' hEnd hEnd' hShort
  · exact (h'.suffix_of_length_le h hEnd' hEnd hLong).symm

/-- A character is a run that keeps what it promises. -/
theorem isRun_utf8EncodeChar (c : Char) : ∃ lead rest, utf8EncodeChar c = lead :: rest ∧
    IsRun lead rest ∧ leadLength lead = rest.length + 1 := by
  obtain ⟨lead, rest, hEncoding, hLead, hRest, hLength⟩ := utf8EncodeChar_shape c
  exact ⟨lead, rest, hEncoding, ⟨hLead, hRest⟩, hLength⟩

/-- The beginning of a character is open. -/
theorem isOpen_of_beginning {p : List UInt8} {c : Char} (hSome : p ≠ [])
    (hBegins : p <+: utf8EncodeChar c) (hPart : p ≠ utf8EncodeChar c) : IsOpen p := by
  obtain ⟨b, part, rfl⟩ := List.exists_cons_of_ne_nil hSome
  obtain ⟨lead, rest, hEncoding, hRun, hLength⟩ := isRun_utf8EncodeChar c
  rw [hEncoding] at hBegins hPart
  obtain ⟨rfl, hRest⟩ := List.cons_prefix_cons.mp hBegins
  refine ⟨b, part, rfl, ⟨hRun.leads, fun x hx => hRun.continues x (hRest.subset hx)⟩, ?_⟩
  have hShort : part.length < rest.length :=
    Nat.lt_of_le_of_ne hRest.length_le fun hSame => hPart (by rw [hRest.eq_of_length hSame])
  omega

namespace IsOpen

variable {t : List UInt8}

theorem ne_nil (h : IsOpen t) : t ≠ [] := by
  obtain ⟨lead, rest, rfl, -⟩ := h
  exact List.cons_ne_nil lead rest

theorem length_le (h : IsOpen t) : t.length ≤ 3 := by
  obtain ⟨lead, rest, rfl, -, hShort⟩ := h
  have hMost := leadLength_le lead
  rw [List.length_cons]
  omega

theorem unique {t' l : List UInt8} (h : IsOpen t) (h' : IsOpen t') (hEnd : t <:+ l)
    (hEnd' : t' <:+ l) : t = t' := by
  obtain ⟨lead, rest, rfl, hRun, -⟩ := h
  obtain ⟨lead', rest', rfl, hRun', -⟩ := h'
  exact hRun.unique hRun' hEnd hEnd'

/-- What is open has been so from its first byte on. -/
theorem of_append {more : List UInt8} (h : IsOpen (t ++ more)) (hSome : t ≠ []) : IsOpen t := by
  obtain ⟨b, part, rfl⟩ := List.exists_cons_of_ne_nil hSome
  obtain ⟨lead, rest, hEq, hRun, hShort⟩ := h
  obtain ⟨rfl, rfl⟩ : b = lead ∧ part ++ more = rest := by simpa using hEq
  refine ⟨b, part, rfl, ⟨hRun.leads, fun x hx => hRun.continues x (by simp [hx])⟩, ?_⟩
  rw [List.length_append] at hShort
  omega

/-- Bytes that end with whole characters are not open at their end. -/
theorem not_suffix_char (h : IsOpen t) {front : List UInt8} {c : Char} :
    ¬ t <:+ front ++ utf8EncodeChar c := by
  intro hEnd
  obtain ⟨lead, rest, rfl, hRun, hShort⟩ := h
  obtain ⟨lead', rest', hEncoding, hRun', hLength⟩ := isRun_utf8EncodeChar c
  have hSame := hRun.unique hRun' hEnd (hEncoding ▸ List.suffix_append front _)
  obtain ⟨rfl, rfl⟩ : lead = lead' ∧ rest = rest' := by simpa using hSame
  omega

end IsOpen

-- ---------------------------------------------------------------------------
-- Cuts
-- ---------------------------------------------------------------------------

/-- Bytes cut in front of what they end with that promises more, if they do. -/
def Cut (front held : List UInt8) : Prop :=
  IsOpen held ∨ held = [] ∧ ∀ t, t <:+ front → ¬ IsOpen t

theorem openTail_append {conts : List UInt8} (h : ∀ b ∈ conts, isContinuation b = true)
    (passed : Nat) (rest : List UInt8) :
    openTail passed (conts ++ rest) = openTail (passed + conts.length) rest := by
  induction conts generalizing passed with
  | nil => rfl
  | cons b conts ih =>
    rw [List.cons_append, openTail, if_pos (h b List.mem_cons_self),
      ih fun x hx => h x (List.mem_cons_of_mem b hx), List.length_cons, Nat.add_assoc,
      Nat.add_comm 1]

theorem openTail_of_continuations {conts : List UInt8} (h : ∀ b ∈ conts, isContinuation b = true)
    (passed : Nat) : openTail passed conts = 0 := by
  rw [← List.append_nil conts, openTail_append h, openTail]

/-- The last run of bytes decides how many of them are held back. -/
theorem incompleteTail_append {lead : UInt8} {rest : List UInt8} (h : IsRun lead rest)
    (front : List UInt8) : incompleteTail (front ++ lead :: rest) =
      if rest.length + 1 < leadLength lead then rest.length + 1 else 0 := by
  have hReverse : (front ++ lead :: rest).reverse = rest.reverse ++ lead :: front.reverse := by simp
  have hContinues : ∀ b ∈ rest.reverse, isContinuation b = true := by simpa using h.continues
  rw [incompleteTail, hReverse]
  by_cases hFew : rest.length < 3
  · rw [List.take_append, List.take_of_length_le (by rw [List.length_reverse]; omega),
      List.length_reverse, show 3 - rest.length = (2 - rest.length) + 1 by omega, List.take_succ_cons,
      openTail_append hContinues, openTail, if_neg (by simp [h.leads]), List.length_reverse,
      Nat.zero_add]
  · have hMost := leadLength_le lead
    rw [List.take_append_of_le_length (by rw [List.length_reverse]; omega),
      openTail_of_continuations fun b hb => hContinues b (List.mem_of_mem_take hb),
      if_neg (by omega)]

/-- Bytes end with a run, or all of them are continuations. -/
theorem exists_run (bytes : List UInt8) : (∀ b ∈ bytes, isContinuation b = true) ∨
    ∃ front lead rest, bytes = front ++ lead :: rest ∧ IsRun lead rest := by
  induction bytes with
  | nil => exact Or.inl (by simp)
  | cons b bytes ih =>
    rcases ih with hAll | ⟨front, lead, rest, rfl, hRun⟩
    · cases hLead : isContinuation b with
      | true => exact Or.inl (List.forall_mem_cons.mpr ⟨hLead, hAll⟩)
      | false => exact Or.inr ⟨[], b, bytes, rfl, hLead, hAll⟩
    · exact Or.inr ⟨b :: front, lead, rest, rfl, hRun⟩

/-- What is held back is the end that promises more. -/
theorem exists_cut (bytes : List UInt8) : ∃ front held,
    bytes = front ++ held ∧ incompleteTail bytes = held.length ∧ Cut front held := by
  rcases exists_run bytes with hAll | ⟨front, lead, rest, rfl, hRun⟩
  · refine ⟨bytes, [], by simp, ?_, Or.inr ⟨rfl, ?_⟩⟩
    · rw [incompleteTail, List.length_nil]
      exact openTail_of_continuations (fun b hb => hAll b (by
        simpa using List.mem_of_mem_take hb)) 0
    · rintro t hEnd ⟨lead, rest, rfl, hRun, -⟩
      have hContinues := hAll lead (hEnd.subset List.mem_cons_self)
      rw [hRun.leads] at hContinues
      exact Bool.false_ne_true hContinues
  · by_cases hShort : rest.length + 1 < leadLength lead
    · refine ⟨front, lead :: rest, rfl, ?_, Or.inl ⟨lead, rest, rfl, hRun, hShort⟩⟩
      rw [incompleteTail_append hRun, if_pos hShort, List.length_cons]
    · refine ⟨front ++ lead :: rest, [], by simp, ?_, Or.inr ⟨rfl, ?_⟩⟩
      · rw [incompleteTail_append hRun, if_neg hShort, List.length_nil]
      · rintro t hEnd ⟨lead', rest', rfl, hRun', hShort'⟩
        have hSame := hRun'.unique hRun hEnd (List.suffix_append front _)
        obtain ⟨rfl, rfl⟩ : lead' = lead ∧ rest' = rest := by simpa using hSame
        exact hShort hShort'

namespace Cut

variable {front held : List UInt8}

theorem nil : Cut [] [] := by
  refine Or.inr ⟨rfl, fun t hEnd hOpen => hOpen.ne_nil (List.suffix_nil.mp hEnd)⟩

theorem length_le (h : Cut front held) : held.length ≤ 3 := by
  rcases h with hOpen | ⟨rfl, -⟩
  · exact hOpen.length_le
  · exact Nat.zero_le 3

/-- Bytes are cut in one place. -/
theorem unique {front' held' : List UInt8} (h : Cut front held) (h' : Cut front' held')
    (hBytes : front ++ held = front' ++ held') : held = held' := by
  rcases h with hOpen | ⟨rfl, hNone⟩ <;> rcases h' with hOpen' | ⟨rfl, hNone'⟩
  · exact hOpen.unique hOpen' (hBytes ▸ List.suffix_append front held)
      (List.suffix_append front' held')
  · rw [List.append_nil] at hBytes
    exact absurd hOpen (hNone' held (hBytes ▸ List.suffix_append front held))
  · rw [List.append_nil] at hBytes
    exact absurd hOpen' (hNone held' (hBytes ▸ List.suffix_append front' held'))
  · rfl

/-- The next chunk is cut as all the bytes are. -/
theorem push {front' held' chunk : List UInt8} (h : Cut front held) (h' : Cut front' held')
    (hBytes : held ++ chunk = front' ++ held') : Cut (front ++ front') held' := by
  rcases h' with hOpen' | ⟨rfl, hNone'⟩
  · exact Or.inl hOpen'
  refine Or.inr ⟨rfl, fun t hEnd hOpen => ?_⟩
  rw [List.append_nil] at hBytes
  obtain rfl := hBytes
  -- what is open at the end is so within the last bytes, or reaches over what had been held
  rcases List.suffix_or_suffix_of_suffix hEnd (List.suffix_append front (held ++ chunk)) with
    hWithin | ⟨reach, rfl⟩
  · exact hNone' t hWithin hOpen
  rcases reach with _ | ⟨b, reach⟩
  · exact hNone' _ (List.suffix_refl _) hOpen
  rcases h with hHeld | ⟨rfl, hNone⟩
  · obtain ⟨lead, rest, hEq, hRun, -⟩ := hOpen
    obtain ⟨lead', rest', rfl, hRun', -⟩ := hHeld
    obtain ⟨-, rfl⟩ : b = lead ∧ reach ++ (lead' :: rest' ++ chunk) = rest := by simpa using hEq
    have hContinues := hRun.continues lead' (by simp)
    rw [hRun'.leads] at hContinues
    exact Bool.false_ne_true hContinues
  · have hFront : b :: reach <:+ front := by
      obtain ⟨start, hStart⟩ := hEnd
      have hJoined : start ++ b :: reach ++ chunk = front ++ chunk := by simpa using hStart
      exact ⟨start, List.append_cancel_right hJoined⟩
    exact hNone _ hFront (hOpen.of_append (List.cons_ne_nil b reach))

end Cut

-- ---------------------------------------------------------------------------
-- Reading across a cut
-- ---------------------------------------------------------------------------

theorem Begins.isOpen {p : List UInt8} {lacking bits : Nat} {low high : UInt8}
    (h : Begins p lacking low high bits) : IsOpen p := by
  obtain ⟨c, hBegins⟩ := h.exists_char
  exact isOpen_of_beginning h.nonempty hBegins fun hWhole => h.not_char c (hWhole ▸ List.prefix_refl _)

namespace Utf8State

theorem Follows.first (b : UInt8) : ∃ p, p <:+ [b] ∧ (first b).2.Follows p := by
  rcases first_cases b with ⟨-, hEq⟩ | ⟨-, hEq⟩ | ⟨lacking, low, high, bits, hBegins, hEq⟩
  · exact ⟨[], List.nil_suffix, by rw [hEq]; rfl⟩
  · exact ⟨[], List.nil_suffix, by rw [hEq]; rfl⟩
  · exact ⟨[b], List.suffix_refl _, by rw [hEq]; exact hBegins⟩

/-- What a state says of the last bytes, one byte later. -/
theorem Follows.step {s : Utf8State} {p : List UInt8} (h : s.Follows p) (b : UInt8) :
    ∃ p', p' <:+ p ++ [b] ∧ (s.step b).2.Follows p' := by
  have hFirst : ∃ p', p' <:+ p ++ [b] ∧ (Utf8State.first b).2.Follows p' := by
    obtain ⟨p', hEnd, hFollows⟩ := Follows.first b
    exact ⟨p', hEnd.trans (List.suffix_append p [b]), hFollows⟩
  cases s with
  | start => exact hFirst
  | within lacking low high bits =>
    have hBegins : Begins p lacking low high bits := h
    by_cases hRange : low ≤ b ∧ b ≤ high
    · rw [step_within_of_range hRange]
      by_cases hLast : lacking ≤ 1
      · exact ⟨[], List.nil_suffix, by rw [if_pos hLast]; rfl⟩
      · exact ⟨p ++ [b], List.suffix_refl _, by
          rw [if_neg hLast]; exact hBegins.concat (Nat.lt_of_not_le hLast) hRange⟩
    · rw [step_within_of_not hRange]
      exact hFirst

/-- A byte that continues nothing closes whatever is open. -/
theorem readFrom_of_not_continuation {s : Utf8State} {p : List UInt8} (h : s.Follows p) {b : UInt8}
    (hLead : isContinuation b = false) (rest : List UInt8) :
    s.readFrom (b :: rest) = s.finish ++ start.readFrom (b :: rest) := by
  cases s with
  | start => rfl
  | within lacking low high bits =>
    have hBegins : Begins p lacking low high bits := h
    obtain ⟨hLow, -, hHigh⟩ := hBegins.continues
    have hOut : ¬ (low ≤ b ∧ b ≤ high) := by
      rintro ⟨hFrom, hTo⟩
      rw [Bool.eq_false_iff, Ne, isContinuation_iff] at hLead
      rw [UInt8.le_iff_toNat_le] at hFrom hTo
      omega
    rw [readFrom, step_within_of_not hOut]
    rfl

end Utf8State

/-- What is open after bytes is something that they end with. -/
theorem exists_follows (bytes : List UInt8) : ∃ p, p <:+ bytes ∧
    (Utf8Progress.pushAll {} bytes).state.Follows p := by
  induction bytes using List.reverseRecOn with
  | nil => exact ⟨[], List.suffix_refl _, rfl⟩
  | append_singleton bytes b ih =>
    obtain ⟨p, hEnd, hFollows⟩ := ih
    obtain ⟨p', hEnd', hFollows'⟩ := hFollows.step b
    refine ⟨p', hEnd'.trans ?_, ?_⟩
    · obtain ⟨before, rfl⟩ := hEnd
      exact ⟨before, by simp⟩
    · rw [Utf8Progress.pushAll, List.foldl_append]
      exact hFollows'

/-- Bytes read after others that leave nothing open. -/
theorem decodeChars_append_of_readFrom {front x : List UInt8}
    (h : (Utf8Progress.pushAll {} front).state.readFrom x =
      (Utf8Progress.pushAll {} front).state.finish ++ decodeChars x) :
    decodeChars (front ++ x) = decodeChars front ++ decodeChars x := by
  have hPush : Utf8Progress.pushAll {} (front ++ x) =
      (Utf8Progress.pushAll {} front).pushAll x := List.foldl_append
  rw [decodeChars, hPush, text_pushAll, h, ← List.append_assoc]
  rfl

namespace Cut

variable {front held x chunk : List UInt8}

/-- The text of bytes that go on where they are cut is the texts of the parts. -/
theorem decodeChars_append (h : Cut front held) (hGoesOn : x <+: held ++ chunk) :
    decodeChars (front ++ x) = decodeChars front ++ decodeChars x := by
  refine decodeChars_append_of_readFrom ?_
  obtain ⟨p, hEnd, hFollows⟩ := exists_follows front
  rw [decodeChars_eq_readFrom x]
  rcases h with hHeld | ⟨rfl, hNone⟩
  · obtain ⟨lead, rest, rfl, hRun, -⟩ := hHeld
    cases x with
    | nil => exact (List.append_nil _).symm
    | cons b rest =>
      obtain rfl := (List.cons_prefix_cons.mp hGoesOn).1
      exact Utf8State.readFrom_of_not_continuation hFollows hRun.leads rest
  · -- a beginning would be open
    cases hState : (Utf8Progress.pushAll {} front).state with
    | start => rfl
    | within lacking low high bits =>
      rw [hState] at hFollows
      exact absurd (Begins.isOpen hFollows) (hNone p hEnd)

end Cut

-- ---------------------------------------------------------------------------
-- Chunks
-- ---------------------------------------------------------------------------

namespace Utf8Decoder

/-- What a decoder writes for chunks, and the decoder after them. -/
def pushAll (d : Utf8Decoder) : List (List UInt8) → String × Utf8Decoder
  | [] => ("", d)
  | chunk :: rest =>
    let (text, d) := d.push chunk
    let (more, d) := d.pushAll rest
    (text ++ more, d)

/-- A push writes up to the cut of the bytes held and the chunk, and holds what is behind. -/
theorem push_eq (d : Utf8Decoder) (chunk : List UInt8) : ∃ front held,
    d.held ++ chunk = front ++ held ∧ Cut front held ∧
      d.push chunk = (decodeLossy front, { held }) := by
  obtain ⟨front, held, hBytes, hTail, hCut⟩ := exists_cut (d.held ++ chunk)
  refine ⟨front, held, hBytes, hCut, ?_⟩
  simp only [push, hTail]
  rw [hBytes, List.length_append, Nat.add_sub_cancel, List.take_left, List.drop_left]

/-- Chunk after chunk the bytes are written up to the cut of all of them. -/
theorem pushAll_cut (chunks : List (List UInt8)) (front : List UInt8) (d : Utf8Decoder)
    (h : Cut front d.held) : ∃ front', front ++ d.held ++ chunks.flatten =
        front' ++ (d.pushAll chunks).2.held ∧ Cut front' (d.pushAll chunks).2.held ∧
      decodeLossy front ++ (d.pushAll chunks).1 = decodeLossy front' := by
  induction chunks generalizing front d with
  | nil => exact ⟨front, by simp [pushAll], h, by simp [pushAll]⟩
  | cons chunk rest ih =>
    obtain ⟨written, held, hBytes, hCut, hPush⟩ := d.push_eq chunk
    have hText : decodeLossy (front ++ written) = decodeLossy front ++ decodeLossy written := by
      rw [decodeLossy, h.decodeChars_append (hBytes ▸ List.prefix_append written held),
        String.ofList_append]
      rfl
    obtain ⟨front', hWhole, hCut', hTexts⟩ := ih (front ++ written) { held } (h.push hCut hBytes)
    simp only [pushAll, hPush]
    refine ⟨front', ?_, hCut', ?_⟩
    · rw [← hWhole, List.flatten_cons, List.append_assoc front, ← List.append_assoc d.held, hBytes]
      simp
    · rw [← hTexts, hText, String.append_assoc]

/-- What is written of chunks and of what is held after them is what all of them are read as. -/
theorem pushAll_finish (chunks : List (List UInt8)) :
    (pushAll {} chunks).1 ++ (pushAll {} chunks).2.finish.1 = decodeLossy chunks.flatten := by
  obtain ⟨front, hBytes, hCut, hText⟩ := pushAll_cut chunks [] {} Cut.nil
  have hWhole : chunks.flatten = front ++ (pushAll {} chunks).2.held := by
    simpa using hBytes
  have hEnd := hCut.decodeChars_append (List.prefix_append _ [])
  rw [hWhole, decodeLossy, hEnd, String.ofList_append]
  exact congrArg (· ++ _) ((String.empty_append).symm.trans hText)

end Utf8Decoder

-- ---------------------------------------------------------------------------
-- Texts in chunks
-- ---------------------------------------------------------------------------

/-- The bytes of a text up to somewhere end with those of its next character, unless that is
complete. -/
def EndsWithin (text : List Char) (bytes held : List UInt8) : Prop :=
  ∃ done : List Char, bytes = done.flatMap utf8EncodeChar ++ held ∧
    (done <+: text ∧ held = [] ∨ ∃ c, done ++ [c] <+: text ∧
      held ≠ [] ∧ held <+: utf8EncodeChar c ∧ held ≠ utf8EncodeChar c)

theorem exists_endsWithin (text : List Char) (bytes : List UInt8)
    (h : bytes <+: text.flatMap utf8EncodeChar) : ∃ held, EndsWithin text bytes held := by
  induction text generalizing bytes with
  | nil => exact ⟨[], [], List.prefix_nil.mp h, Or.inl ⟨List.nil_prefix, rfl⟩⟩
  | cons c text ih =>
    rw [List.flatMap_cons] at h
    by_cases hSome : bytes = []
    · exact ⟨[], [], hSome, Or.inl ⟨List.nil_prefix, rfl⟩⟩
    by_cases hWhole : utf8EncodeChar c <+: bytes
    · obtain ⟨more, rfl⟩ := hWhole
      obtain ⟨held, done, rfl, hEnd⟩ := ih more ((List.prefix_append_right_inj _).mp h)
      refine ⟨held, c :: done, by simp, ?_⟩
      simpa [List.cons_prefix_cons] using hEnd
    · have hBegins : bytes <+: utf8EncodeChar c :=
        (List.prefix_or_prefix_of_prefix h (List.prefix_append _ _)).resolve_right hWhole
      exact ⟨bytes, [], rfl, Or.inr ⟨c, by simp, hSome, hBegins,
        fun hEq => hWhole (hEq ▸ List.prefix_refl _)⟩⟩

theorem EndsWithin.exists_cut {text : List Char} {bytes held : List UInt8}
    (h : EndsWithin text bytes held) : ∃ front, bytes = front ++ held ∧ Cut front held := by
  obtain ⟨done, hBytes, ⟨-, rfl⟩ | ⟨c, -, hSome, hBegins, hPart⟩⟩ := h
  · refine ⟨_, hBytes, Or.inr ⟨rfl, fun t hEnd hOpen => ?_⟩⟩
    rcases List.eq_nil_or_concat done with rfl | ⟨before, c, rfl⟩
    · exact hOpen.ne_nil (List.suffix_nil.mp hEnd)
    · exact hOpen.not_suffix_char (by simpa using hEnd)
  · exact ⟨_, hBytes, Or.inl (isOpen_of_beginning hSome hBegins hPart)⟩

/-- Bytes in chunks, however they are cut, are written as all of them are read. At most three bytes
are held back, and of a text no more than the character that the bytes so far end within. -/
theorem chunking_keeps_text (chunks : List (List UInt8)) :
    let (text, d) := Utf8Decoder.pushAll {} chunks
    text ++ d.finish.1 = decodeLossy chunks.flatten ∧
      ReadsLossily chunks.flatten (text ++ d.finish.1).toList ∧
      d.held.length ≤ 3 ∧
      ∀ whole : String, chunks.flatten <+: encodeUtf8 whole →
        EndsWithin whole.toList chunks.flatten d.held := by
  obtain ⟨front, hBytes, hCut, -⟩ := Utf8Decoder.pushAll_cut chunks [] {} Cut.nil
  have hBytes : chunks.flatten = front ++ (Utf8Decoder.pushAll {} chunks).2.held := by
    simpa using hBytes
  have hRead := Utf8Decoder.pushAll_finish chunks
  refine ⟨hRead, ?_, hCut.length_le, fun whole hWhole => ?_⟩
  · rw [hRead, decodeLossy, String.toList_ofList]
    exact readsLossily_decodeChars _
  · rw [encodeUtf8_eq] at hWhole
    obtain ⟨held, hEnd⟩ := exists_endsWithin whole.toList _ hWhole
    obtain ⟨front', hBytes', hCut'⟩ := hEnd.exists_cut
    rwa [hCut.unique hCut' (hBytes ▸ hBytes')]

theorem half_emoji_held :
    [0xC3, 0xA9, 0xF0, 0x9F, 0x98] <+: encodeUtf8 "é😀" ∧
      EndsWithin "é😀".toList [0xC3, 0xA9, 0xF0, 0x9F, 0x98] [0xF0, 0x9F, 0x98] := by
  have hWhole : [0xC3, 0xA9, 0xF0, 0x9F, 0x98] <+: encodeUtf8 "é😀" := by
    rw [encodeUtf8_eq]
    decide
  exact ⟨hWhole, (chunking_keeps_text [[0xC3], [0xA9, 0xF0, 0x9F], [], [0x98]]).2.2.2 "é😀" hWhole⟩

end ScriptWarden
