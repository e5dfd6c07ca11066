import Mathlib.Algebra.Group.Nat.Defs
import Mathlib.Data.List.Basic
import ScriptWarden.Text.Utf8

/-!
# Lossy reading

What the machine that reads bytes makes of them, said by characters and their encodings alone. Where
the bytes begin with a character, it is read. Where they do not, the longest beginning of a
character is lost, or one byte if there is none, and one replacement character is read for it.

The machine keeps, for the bytes of a character that lacks some, how many it lacks, the range of the
next one, and the leading bits of its code. The invariant is that these three say exactly which
characters begin with the bytes (`Begins`).

## Results

* `utf8EncodeChar_shape` — a first byte that tells the length, and continuations.
* `Begins.concat`, `Begins.complete`, `Begins.not_next` — the next byte.
* `readsLossily_decodeChars` — the machine reads lossily, and `ReadsLossily.unique` — so does
  nothing else.
* `decodeLossy_encodeUtf8` — a text is read as it was written.
-/

namespace ScriptWarden

open String (utf8EncodeChar)

-- ---------------------------------------------------------------------------
-- Encodings
-- ---------------------------------------------------------------------------

theorem isContinuation_iff {b : UInt8} :
    isContinuation b = true ↔ 0x80 ≤ b.toNat ∧ b.toNat < 0xC0 := by
  simp [isContinuation, UInt8.le_iff_toNat_le, UInt8.lt_iff_toNat_lt]

theorem leadLength_eq (b : UInt8) :
    leadLength b = if b.toNat < 0xC0 then 1 else if b.toNat < 0xE0 then 2
      else if b.toNat < 0xF0 then 3 else if b.toNat < 0xF8 then 4 else 1 := by
  have hByte := b.toNat_lt
  simp only [leadLength, UInt8.le_iff_toNat_le, Bool.and_eq_true, decide_eq_true_eq,
    UInt8.reduceToNat]
  grind

theorem ofNat_eq_iff {n : Nat} (h : n < 256) {b : UInt8} : UInt8.ofNat n = b ↔ n = b.toNat := by
  rw [← UInt8.toNat_inj, UInt8.toNat_ofNat', Nat.mod_eq_of_lt h]

variable (c : Char)

theorem toNat_lt_of_char : c.toNat < 0x110000 := by
  rcases c.valid with hLow | hHigh
  · exact Nat.lt_trans hLow (by decide)
  · exact hHigh.2

/-- The encoding of a character: six bits of its code in every byte but the first. -/
theorem utf8EncodeChar_cases :
    (c.toNat < 0x80 ∧ utf8EncodeChar c = [UInt8.ofNat c.toNat]) ∨
    (0x80 ≤ c.toNat ∧ c.toNat < 0x800 ∧ utf8EncodeChar c =
      [UInt8.ofNat (c.toNat / 64 + 0xC0), UInt8.ofNat (c.toNat % 64 + 0x80)]) ∨
    (0x800 ≤ c.toNat ∧ c.toNat < 0x10000 ∧ utf8EncodeChar c =
      [UInt8.ofNat (c.toNat / 64 ^ 2 + 0xE0), UInt8.ofNat (c.toNat / 64 % 64 + 0x80),
        UInt8.ofNat (c.toNat % 64 + 0x80)]) ∨
    (0x10000 ≤ c.toNat ∧ c.toNat < 0x110000 ∧ utf8EncodeChar c =
      [UInt8.ofNat (c.toNat / 64 ^ 3 + 0xF0), UInt8.ofNat (c.toNat / 64 ^ 2 % 64 + 0x80),
        UInt8.ofNat (c.toNat / 64 % 64 + 0x80), UInt8.ofNat (c.toNat % 64 + 0x80)]) := by
  have hCode := toNat_lt_of_char c
  have hVal : c.val.toNat = c.toNat := rfl
  rw [utf8EncodeChar]
  simp only [hVal]
  split
  · exact Or.inl ⟨by omega, rfl⟩
  · split
    · refine Or.inr (Or.inl ⟨by omega, by omega, ?_⟩)
      rw [Nat.mod_eq_of_lt (by omega)]
    · split
      · refine Or.inr (Or.inr (Or.inl ⟨by omega, by omega, ?_⟩))
        rw [Nat.mod_eq_of_lt (by omega)]
        rfl
      · refine Or.inr (Or.inr (Or.inr ⟨by omega, hCode, ?_⟩))
        rw [Nat.mod_eq_of_lt (by omega)]
        rfl

theorem length_utf8EncodeChar_eq :
    (utf8EncodeChar c).length = if c.toNat < 0x80 then 1 else if c.toNat < 0x800 then 2
      else if c.toNat < 0x10000 then 3 else 4 := by
  rcases utf8EncodeChar_cases c with ⟨h, hc⟩ | ⟨h, h', hc⟩ | ⟨h, h', hc⟩ | ⟨h, h', hc⟩
  · simp [hc, h]
  · simp [hc, h', Nat.not_lt.mpr h]
  · rw [hc, if_neg (by omega), if_neg (by omega), if_pos h']
    rfl
  · rw [hc, if_neg (by omega), if_neg (by omega), if_neg (by omega)]
    rfl

/-- The first byte of a character tells how many bytes it has, and the others continue it. -/
theorem utf8EncodeChar_shape :
    ∃ lead rest, utf8EncodeChar c = lead :: rest ∧ isContinuation lead = false ∧
      (∀ b ∈ rest, isContinuation b = true) ∧ leadLength lead = rest.length + 1 := by
  have hContinues : ∀ n, isContinuation (UInt8.ofNat (n % 64 + 0x80)) = true := by
    intro n
    rw [isContinuation_iff, UInt8.toNat_ofNat']
    omega
  have hAll : ∀ (l : List Nat), ∀ b ∈ l.map fun n => UInt8.ofNat (n % 64 + 0x80),
      isContinuation b = true := by
    intro l b hb
    obtain ⟨n, -, rfl⟩ := List.mem_map.mp hb
    exact hContinues n
  have hLead : ∀ n, n < 256 → ¬ (0x80 ≤ n ∧ n < 0xC0) → isContinuation (UInt8.ofNat n) = false := by
    intro n hByte hOut
    rw [Bool.eq_false_iff, Ne, isContinuation_iff, UInt8.toNat_ofNat', Nat.mod_eq_of_lt hByte]
    exact hOut
  rcases utf8EncodeChar_cases c with ⟨h, hc⟩ | ⟨h, h', hc⟩ | ⟨h, h', hc⟩ | ⟨h, h', hc⟩
  · refine ⟨_, _, hc, hLead _ (by omega) (by omega), by simp, ?_⟩
    rw [leadLength_eq, UInt8.toNat_ofNat', if_pos (by omega)]
    rfl
  · refine ⟨_, _, hc, hLead _ (by omega) (by omega), hAll [c.toNat], ?_⟩
    rw [leadLength_eq, UInt8.toNat_ofNat', if_neg (by omega), if_pos (by omega)]
    rfl
  · refine ⟨_, _, hc, hLead _ (by omega) (by omega), hAll [c.toNat / 64, c.toNat], ?_⟩
    rw [leadLength_eq, UInt8.toNat_ofNat', if_neg (by omega), if_neg (by omega), if_pos (by omega)]
    rfl
  · refine ⟨_, _, hc, hLead _ (by omega) (by omega),
      hAll [c.toNat / 64 ^ 2, c.toNat / 64, c.toNat], ?_⟩
    rw [leadLength_eq, UInt8.toNat_ofNat', if_neg (by omega), if_neg (by omega), if_neg (by omega),
      if_pos (by omega)]
    rfl

/-- The first byte of a character, by its code. -/
theorem singleton_prefix_iff (b : UInt8) :
    [b] <+: utf8EncodeChar c ↔ b.toNat = (if c.toNat < 0x80 then c.toNat
      else if c.toNat < 0x800 then c.toNat / 64 + 0xC0
      else if c.toNat < 0x10000 then c.toNat / 64 ^ 2 + 0xE0 else c.toNat / 64 ^ 3 + 0xF0) := by
  have hCode := toNat_lt_of_char c
  rcases utf8EncodeChar_cases c with ⟨h, hc⟩ | ⟨h, h', hc⟩ | ⟨h, h', hc⟩ | ⟨h, h', hc⟩ <;>
    rw [hc, List.cons_prefix_cons, and_iff_left List.nil_prefix, eq_comm, ofNat_eq_iff (by omega)]
  · rw [if_pos h, eq_comm]
  · rw [if_neg (by omega), if_pos h', eq_comm]
  · rw [if_neg (by omega), if_neg (by omega), if_pos h', eq_comm]
  · rw [if_neg (by omega), if_neg (by omega), if_neg (by omega), eq_comm]

/-- The bytes after the first one, the last one first: six bits of the code each. -/
theorem getElem?_utf8EncodeChar {i : Nat} (hi : i + 1 < (utf8EncodeChar c).length) :
    (utf8EncodeChar c)[(utf8EncodeChar c).length - 1 - i]? =
      some (UInt8.ofNat (c.toNat / 64 ^ i % 64 + 0x80)) := by
  rcases utf8EncodeChar_cases c with ⟨-, h⟩ | ⟨-, -, h⟩ | ⟨-, -, h⟩ | ⟨-, -, h⟩ <;>
    rw [h] at hi ⊢ <;> simp only [List.length_cons, List.length_nil] at hi ⊢
  · omega
  · obtain rfl : i = 0 := by omega
    simp
  · obtain rfl | rfl : i = 0 ∨ i = 1 := by omega
    all_goals simp
  · obtain rfl | rfl | rfl : i = 0 ∨ i = 1 ∨ i = 2 := by omega
    all_goals simp

/-- The codes of the characters that have so many bytes. -/
theorem exists_char_iff {v n : Nat} :
    (∃ c : Char, c.toNat = v ∧ (utf8EncodeChar c).length = n) ↔
      (v < 0xD800 ∨ 0xDFFF < v ∧ v < 0x110000) ∧
        n = if v < 0x80 then 1 else if v < 0x800 then 2 else if v < 0x10000 then 3 else 4 := by
  constructor
  · rintro ⟨c, rfl, rfl⟩
    exact ⟨c.valid, length_utf8EncodeChar_eq c⟩
  · rintro ⟨hValid, rfl⟩
    have hWord : v < UInt32.size := by
      rw [UInt32.size]
      omega
    exact ⟨⟨UInt32.ofNatLT v hWord, hValid⟩, rfl, length_utf8EncodeChar_eq _⟩

theorem utf8EncodeChar_ofNat {b : UInt8} (h : b.toNat < 0x80) :
    utf8EncodeChar (Char.ofNat b.toNat) = [b] := by
  obtain ⟨c, hCode, hLength⟩ := exists_char_iff.mpr ⟨Or.inl (by omega), (if_pos h).symm⟩
  have hByte : [b] <+: utf8EncodeChar c := by
    rw [singleton_prefix_iff, hCode, if_pos h]
  rw [← hCode, Char.ofNat_toNat]
  exact (hByte.eq_of_length hLength.symm).symm

/-- Bytes begin with one character at most. -/
theorem eq_of_utf8EncodeChar_prefix {c c' : Char} {l : List UInt8} (h : utf8EncodeChar c <+: l)
    (h' : utf8EncodeChar c' <+: l) : c = c' := by
  have hDecoded : ∀ {d : Char}, utf8EncodeChar d <+: l →
      l.toByteArray.utf8DecodeChar? 0 = some d := by
    rintro d ⟨rest, rfl⟩
    rw [List.toByteArray_append, ByteArray.utf8DecodeChar?_utf8EncodeChar_append]
  exact Option.some.inj ((hDecoded h).symm.trans (hDecoded h'))

-- ---------------------------------------------------------------------------
-- Beginnings of characters
-- ---------------------------------------------------------------------------

theorem concat_prefix_iff {α : Type} {p l : List α} {a : α} :
    p ++ [a] <+: l ↔ p <+: l ∧ l[p.length]? = some a := by
  constructor
  · rintro ⟨rest, rfl⟩
    exact ⟨⟨a :: rest, by simp⟩, by simp⟩
  · rintro ⟨⟨rest, rfl⟩, hNext⟩
    rw [List.getElem?_append_right (Nat.le_refl _), Nat.sub_self] at hNext
    obtain ⟨rest', rfl⟩ := List.head?_eq_some_iff.mp (List.head?_eq_getElem? ▸ hNext)
    exact ⟨rest', by simp⟩

/-- What the bytes of a character that lacks some leave open: how many it lacks, the range of the
next one, and the leading bits of the code. -/
structure Begins (p : List UInt8) (lacking : Nat) (low high : UInt8) (bits : Nat) : Prop where
  nonempty : p ≠ []
  lacks : 0 < lacking
  continues : 0x80 ≤ low.toNat ∧ low.toNat ≤ high.toNat ∧ high.toNat < 0xC0
  /-- The characters that begin with the bytes. -/
  begin_iff : ∀ c, p <+: utf8EncodeChar c ↔
    (utf8EncodeChar c).length = p.length + lacking ∧ c.toNat / 64 ^ lacking = bits
  /-- A code with these bits is that of such a character when its next byte is in the range. -/
  range_iff : ∀ v, v / 64 ^ lacking = bits →
    (low.toNat ≤ v / 64 ^ (lacking - 1) % 64 + 0x80 ∧
        v / 64 ^ (lacking - 1) % 64 + 0x80 ≤ high.toNat ↔
      ∃ c : Char, c.toNat = v ∧ (utf8EncodeChar c).length = p.length + lacking)

namespace Begins

variable {p : List UInt8} {lacking bits : Nat} {low high b : UInt8}

theorem pow_lacking (h : Begins p lacking low high bits) :
    64 ^ lacking = 64 ^ (lacking - 1) * 64 := by
  rw [← Nat.pow_succ, Nat.succ_eq_add_one, Nat.sub_add_cancel h.lacks]

/-- Some character begins with the bytes. -/
theorem exists_char (h : Begins p lacking low high bits) : ∃ c, p <+: utf8EncodeChar c := by
  obtain ⟨hLow, hOrder, hHigh⟩ := h.continues
  -- the code that goes on with the lowest byte there may be
  let v := (bits * 64 + (low.toNat - 0x80)) * 64 ^ (lacking - 1)
  have hNext : v / 64 ^ (lacking - 1) = bits * 64 + (low.toNat - 0x80) :=
    Nat.mul_div_cancel _ (Nat.pow_pos (by decide))
  have hBits : v / 64 ^ lacking = bits := by
    rw [h.pow_lacking, ← Nat.div_div_eq_div_mul, hNext]
    omega
  obtain ⟨c, hCode, hLength⟩ := (h.range_iff v hBits).mp (by omega)
  exact ⟨c, (h.begin_iff c).mpr ⟨hLength, hCode ▸ hBits⟩⟩

theorem length_lt (h : Begins p lacking low high bits) {c : Char} (hBegins : p <+: utf8EncodeChar c) :
    p.length < (utf8EncodeChar c).length := by
  have hLength := ((h.begin_iff c).mp hBegins).1
  have hLacks := h.lacks
  omega

/-- The bytes are not those of a character. -/
theorem not_char (h : Begins p lacking low high bits) (c : Char) : ¬ utf8EncodeChar c <+: p := by
  intro hWhole
  obtain ⟨c', hBegins⟩ := h.exists_char
  obtain rfl := eq_of_utf8EncodeChar_prefix (hWhole.trans hBegins) (List.prefix_refl _)
  exact absurd hWhole.length_le (Nat.not_le.mpr (h.length_lt hBegins))

theorem next_iff (h : Begins p lacking low high bits) (c : Char) :
    p ++ [b] <+: utf8EncodeChar c ↔ p <+: utf8EncodeChar c ∧
      c.toNat / 64 ^ (lacking - 1) % 64 + 0x80 = b.toNat := by
  rw [concat_prefix_iff]
  refine and_congr_right fun hBegins => ?_
  have hLength := ((h.begin_iff c).mp hBegins).1
  have hSome : 0 < p.length := List.length_pos_iff.mpr h.nonempty
  have hLacks := h.lacks
  have hByte := getElem?_utf8EncodeChar c (i := lacking - 1) (by omega)
  rw [show (utf8EncodeChar c).length - 1 - (lacking - 1) = p.length by omega] at hByte
  rw [hByte, Option.some.injEq, ofNat_eq_iff (by omega)]

/-- A byte out of the range begins no character with the bytes. -/
theorem not_next (h : Begins p lacking low high bits) (hOut : ¬ (low ≤ b ∧ b ≤ high)) (c : Char) :
    ¬ p ++ [b] <+: utf8EncodeChar c := by
  intro hNext
  obtain ⟨hBegins, hByte⟩ := (h.next_iff c).mp hNext
  obtain ⟨hLength, hBits⟩ := (h.begin_iff c).mp hBegins
  have hRange := (h.range_iff c.toNat hBits).mpr ⟨c, rfl, hLength⟩
  rw [hByte] at hRange
  exact hOut hRange

/-- The characters that begin with the bytes and one more, which gives the next bits. -/
theorem next_iff_of_range (h : Begins p lacking low high bits) (hRange : low ≤ b ∧ b ≤ high)
    (c : Char) : p ++ [b] <+: utf8EncodeChar c ↔
      (utf8EncodeChar c).length = p.length + lacking ∧
        c.toNat / 64 ^ (lacking - 1) = bits * 64 + (b.toNat - 0x80) := by
  obtain ⟨hLow, -, hHigh⟩ := h.continues
  have hByte : low.toNat ≤ b.toNat ∧ b.toNat ≤ high.toNat := hRange
  rw [h.next_iff, h.begin_iff, and_assoc, h.pow_lacking, ← Nat.div_div_eq_div_mul]
  refine and_congr_right fun _ => ?_
  omega

/-- The last byte of a character. -/
theorem complete (h : Begins p 1 low high bits) (hRange : low ≤ b ∧ b ≤ high) :
    utf8EncodeChar (Char.ofNat (bits * 64 + (b.toNat - 0x80))) = p ++ [b] := by
  obtain ⟨hLow, -, hHigh⟩ := h.continues
  have hByte : low.toNat ≤ b.toNat ∧ b.toNat ≤ high.toNat := hRange
  obtain ⟨c, hCode, hLength⟩ := (h.range_iff (bits * 64 + (b.toNat - 0x80)) (by omega)).mp
    (by simp only [Nat.sub_self, Nat.pow_zero, Nat.div_one]; omega)
  have hBegins : p ++ [b] <+: utf8EncodeChar c :=
    (h.next_iff_of_range hRange c).mpr ⟨hLength, by simpa using hCode⟩
  rw [← hCode, Char.ofNat_toNat]
  exact (hBegins.eq_of_length (by rw [hLength, List.length_append, List.length_singleton])).symm

/-- A byte of a character that lacks more. -/
theorem concat (h : Begins p lacking low high bits) (hMore : 1 < lacking)
    (hRange : low ≤ b ∧ b ≤ high) :
    Begins (p ++ [b]) (lacking - 1) 0x80 0xBF (bits * 64 + (b.toNat - 0x80)) := by
  obtain ⟨hLow, -, hHigh⟩ := h.continues
  have hByte : low.toNat ≤ b.toNat ∧ b.toNat ≤ high.toNat := hRange
  have hLength : (p ++ [b]).length + (lacking - 1) = p.length + lacking := by
    rw [List.length_append, List.length_singleton]
    omega
  refine ⟨by simp, by omega, by decide, fun c => ?_, fun v hBits => ?_⟩
  · rw [h.next_iff_of_range hRange, hLength]
  · have hBefore : v / 64 ^ lacking = bits := by
      rw [h.pow_lacking, ← Nat.div_div_eq_div_mul, hBits]
      omega
    -- after a byte in the range every continuation will do
    refine iff_of_true ?_ (hLength ▸ (h.range_iff v hBefore).mp (by omega))
    simp only [UInt8.reduceToNat]
    omega

end Begins

-- ---------------------------------------------------------------------------
-- First bytes
-- ---------------------------------------------------------------------------

theorem begins_two {b : UInt8} (h : 0xC2 ≤ b.toNat) (h' : b.toNat < 0xE0) :
    Begins [b] 1 0x80 0xBF (b.toNat - 0xC0) where
  nonempty := List.cons_ne_nil b []
  lacks := by decide
  continues := by decide
  begin_iff c := by
    have hCode := toNat_lt_of_char c
    rw [singleton_prefix_iff, length_utf8EncodeChar_eq, List.length_singleton]
    grind
  range_iff v hBits := by
    rw [exists_char_iff, List.length_singleton]
    simp only [UInt8.reduceToNat, Nat.pow_one, Nat.sub_self, Nat.pow_zero, Nat.div_one] at hBits ⊢
    grind

theorem begins_three {b low high : UInt8} {l u : Nat} (hLow : low.toNat = l) (hHigh : high.toNat = u)
    (hContinues : 0x80 ≤ l ∧ l ≤ u ∧ u < 0xC0) (h : 0xE0 ≤ b.toNat) (h' : b.toNat < 0xF0)
    (hRange : ∀ v, v / 64 ^ 2 = b.toNat - 0xE0 →
      (l ≤ v / 64 % 64 + 0x80 ∧ v / 64 % 64 + 0x80 ≤ u ↔ 0x800 ≤ v ∧ (v < 0xD800 ∨ 0xDFFF < v))) :
    Begins [b] 2 low high (b.toNat - 0xE0) where
  nonempty := List.cons_ne_nil b []
  lacks := by decide
  continues := by rw [hLow, hHigh]; exact hContinues
  begin_iff c := by
    have hCode := toNat_lt_of_char c
    rw [singleton_prefix_iff, length_utf8EncodeChar_eq, List.length_singleton]
    grind
  range_iff v hBits := by
    rw [exists_char_iff, List.length_singleton, Nat.pow_one, hLow, hHigh, hRange v hBits]
    grind

theorem begins_four {b low high : UInt8} {l u : Nat} (hLow : low.toNat = l) (hHigh : high.toNat = u)
    (hContinues : 0x80 ≤ l ∧ l ≤ u ∧ u < 0xC0) (h : 0xF0 ≤ b.toNat)
    (hRange : ∀ v, v / 64 ^ 3 = b.toNat - 0xF0 →
      (l ≤ v / 64 ^ 2 % 64 + 0x80 ∧ v / 64 ^ 2 % 64 + 0x80 ≤ u ↔ 0x10000 ≤ v ∧ v < 0x110000)) :
    Begins [b] 3 low high (b.toNat - 0xF0) where
  nonempty := List.cons_ne_nil b []
  lacks := by decide
  continues := by rw [hLow, hHigh]; exact hContinues
  begin_iff c := by
    have hCode := toNat_lt_of_char c
    rw [singleton_prefix_iff, length_utf8EncodeChar_eq, List.length_singleton]
    grind
  range_iff v hBits := by
    rw [exists_char_iff, List.length_singleton, hLow, hHigh, hRange v hBits]
    grind

namespace Utf8State

theorem first_eq (b : UInt8) : first b =
    if b.toNat < 0x80 then ([Char.ofNat b.toNat], .start)
    else if b.toNat < 0xC2 then ([replacementChar], .start)
    else if b.toNat < 0xE0 then ([], .within 1 0x80 0xBF (b.toNat - 0xC0))
    else if b.toNat = 0xE0 then ([], .within 2 0xA0 0xBF (b.toNat - 0xE0))
    else if b.toNat = 0xED then ([], .within 2 0x80 0x9F (b.toNat - 0xE0))
    else if b.toNat < 0xF0 then ([], .within 2 0x80 0xBF (b.toNat - 0xE0))
    else if b.toNat = 0xF0 then ([], .within 3 0x90 0xBF (b.toNat - 0xF0))
    else if b.toNat < 0xF4 then ([], .within 3 0x80 0xBF (b.toNat - 0xF0))
    else if b.toNat = 0xF4 then ([], .within 3 0x80 0x8F (b.toNat - 0xF0))
    else ([replacementChar], .start) := by
  simp only [first, UInt8.lt_iff_toNat_lt, beq_iff_eq, ← UInt8.toNat_inj, UInt8.reduceToNat]
  grind

/-- A byte between characters is a character, begins none, or begins some. -/
theorem first_cases (b : UInt8) :
    (b.toNat < 0x80 ∧ first b = ([Char.ofNat b.toNat], .start)) ∨
    ((∀ c, ¬ [b] <+: utf8EncodeChar c) ∧ first b = ([replacementChar], .start)) ∨
    ∃ lacking low high bits, Begins [b] lacking low high bits ∧
      first b = ([], .within lacking low high bits) := by
  have hByte := b.toNat_lt
  rw [first_eq]
  by_cases hAscii : b.toNat < 0x80
  · exact Or.inl ⟨hAscii, if_pos hAscii⟩
  by_cases hNone : b.toNat < 0xC2 ∨ 0xF4 < b.toNat
  · refine Or.inr (Or.inl ⟨fun c => ?_, by grind⟩)
    have hCode := toNat_lt_of_char c
    rw [singleton_prefix_iff]
    grind
  refine Or.inr (Or.inr ?_)
  rw [if_neg hAscii, if_neg (by omega)]
  split
  · exact ⟨_, _, _, _, begins_two (by omega) (by omega), rfl⟩
  split
  · exact ⟨_, _, _, _, begins_three (l := 0xA0) (u := 0xBF) rfl rfl (by decide) (by omega) (by omega)
      (by omega), rfl⟩
  split
  · exact ⟨_, _, _, _, begins_three (l := 0x80) (u := 0x9F) rfl rfl (by decide) (by omega) (by omega)
      (by omega), rfl⟩
  split
  · exact ⟨_, _, _, _, begins_three (l := 0x80) (u := 0xBF) rfl rfl (by decide) (by omega) (by omega)
      (by omega), rfl⟩
  split
  · exact ⟨_, _, _, _, begins_four (l := 0x90) (u := 0xBF) rfl rfl (by decide) (by omega)
      (by omega), rfl⟩
  split
  · exact ⟨_, _, _, _, begins_four (l := 0x80) (u := 0xBF) rfl rfl (by decide) (by omega)
      (by omega), rfl⟩
  rw [if_pos (by omega)]
  exact ⟨_, _, _, _, begins_four (l := 0x80) (u := 0x8F) rfl rfl (by decide) (by omega)
    (by omega), rfl⟩

/-- What a state says of the bytes read since the last character. -/
def Follows : Utf8State → List UInt8 → Prop
  | .start, p => p = []
  | .within lacking low high bits, p => Begins p lacking low high bits

/-- The text of bytes that come after those that left a state. -/
def readFrom : Utf8State → List UInt8 → List Char
  | s, [] => s.finish
  | s, b :: rest => (s.step b).1 ++ (s.step b).2.readFrom rest

/-- A byte out of the range ends what was begun and is read like any first byte. -/
theorem step_within_of_not {lacking bits : Nat} {low high b : UInt8}
    (hOut : ¬ (low ≤ b ∧ b ≤ high)) :
    (within lacking low high bits).step b = (replacementChar :: (first b).1, (first b).2) := by
  rw [step, if_neg (by simpa using hOut)]

theorem step_within_of_range {lacking bits : Nat} {low high b : UInt8}
    (hRange : low ≤ b ∧ b ≤ high) : (within lacking low high bits).step b =
      if lacking ≤ 1 then ([Char.ofNat (bits * 64 + (b.toNat - 0x80))], start)
      else ([], .within (lacking - 1) 0x80 0xBF (bits * 64 + (b.toNat - 0x80))) := by
  rw [step, if_pos (by simpa using hRange)]

end Utf8State

theorem text_pushAll (bytes : List UInt8) (p : Utf8Progress) :
    (p.pushAll bytes).written.reverse ++ (p.pushAll bytes).state.finish =
      p.written.reverse ++ p.state.readFrom bytes := by
  induction bytes generalizing p with
  | nil => rfl
  | cons b rest ih =>
    rw [show p.pushAll (b :: rest) = (p.push b).pushAll rest from rfl, ih]
    simp [Utf8Progress.push, Utf8State.readFrom]

theorem decodeChars_eq_readFrom (bytes : List UInt8) :
    decodeChars bytes = Utf8State.start.readFrom bytes :=
  text_pushAll bytes {}

-- ---------------------------------------------------------------------------
-- Lossy reading
-- ---------------------------------------------------------------------------

/-- The bytes that are lost where no character begins: as many as begin one, at least one byte. -/
structure IsLost (lost rest : List UInt8) : Prop where
  nonempty : lost ≠ []
  no_char : ∀ c, ¬ utf8EncodeChar c <+: lost ++ rest
  begun : lost.length = 1 ∨ ∃ c, lost <+: utf8EncodeChar c
  longest : ∀ more, more ≠ [] → more <+: rest → ∀ c, ¬ lost ++ more <+: utf8EncodeChar c

/-- The text that bytes are read as: their characters, with one replacement character for each
maximal run of bytes that is lost. -/
inductive ReadsLossily : List UInt8 → List Char → Prop where
  | nil : ReadsLossily [] []
  | char (c : Char) {rest : List UInt8} {text : List Char} :
    ReadsLossily rest text → ReadsLossily (utf8EncodeChar c ++ rest) (c :: text)
  | lost {lost rest : List UInt8} {text : List Char} :
    IsLost lost rest → ReadsLossily rest text →
      ReadsLossily (lost ++ rest) (replacementChar :: text)

namespace IsLost

/-- A byte that begins no character. -/
theorem byte {b : UInt8} (h : ∀ c, ¬ [b] <+: utf8EncodeChar c) (rest : List UInt8) :
    IsLost [b] rest where
  nonempty := List.cons_ne_nil b []
  no_char c hChar := by
    obtain ⟨lead, continuing, hEncoding, -⟩ := utf8EncodeChar_shape c
    rw [hEncoding, List.singleton_append, List.cons_prefix_cons] at hChar
    exact h c (by simp [hEncoding, hChar.1])
  begun := Or.inl rfl
  longest more _ _ c hBegins := h c ((List.prefix_append [b] more).trans hBegins)

variable {p : List UInt8} {lacking bits : Nat} {low high : UInt8}

/-- A character that is not completed before the end. -/
theorem last (h : Begins p lacking low high bits) : IsLost p [] where
  nonempty := h.nonempty
  no_char c := by
    rw [List.append_nil]
    exact h.not_char c
  begun := Or.inr h.exists_char
  longest more hMore hEnd := absurd (List.prefix_nil.mp hEnd) hMore

/-- A character that the next byte does not continue. -/
theorem next (h : Begins p lacking low high bits) {b : UInt8} (hOut : ¬ (low ≤ b ∧ b ≤ high))
    (rest : List UInt8) : IsLost p (b :: rest) where
  nonempty := h.nonempty
  no_char c hChar := by
    have hNext : p ++ [b] <+: p ++ b :: rest := ⟨rest, by simp⟩
    rcases List.prefix_or_prefix_of_prefix hChar hNext with hWithin | hBeyond
    · rcases List.prefix_concat_iff.mp hWithin with hWhole | hBefore
      · exact h.not_next hOut c (hWhole ▸ List.prefix_refl _)
      · exact h.not_char c hBefore
    · exact h.not_next hOut c hBeyond
  begun := Or.inr h.exists_char
  longest more hMore hRest c hBegins := by
    obtain ⟨b', more, rfl⟩ := List.exists_cons_of_ne_nil hMore
    obtain ⟨rfl, -⟩ := List.cons_prefix_cons.mp hRest
    exact h.not_next hOut c (List.IsPrefix.trans ⟨more, by simp⟩ hBegins)

/-- Where no character begins it is settled which bytes are lost. -/
theorem eq_of_shorter {lost rest lost' rest' : List UInt8} (h : IsLost lost rest)
    (h' : IsLost lost' rest') (hBytes : lost ++ rest = lost' ++ rest') (hPrefix : lost <+: lost') :
    lost = lost' := by
  obtain ⟨more, rfl⟩ := hPrefix
  have hRest : rest = more ++ rest' := by simpa using hBytes
  by_contra hMore
  have hMore : more ≠ [] := by simpa using hMore
  rcases h'.begun with hOne | ⟨c, hBegins⟩
  · have hFirst : 0 < lost.length := List.length_pos_iff.mpr h.nonempty
    have hSecond : 0 < more.length := List.length_pos_iff.mpr hMore
    rw [List.length_append] at hOne
    omega
  · exact h.longest more hMore (hRest ▸ List.prefix_append more rest') c hBegins

theorem unique {lost rest lost' rest' : List UInt8} (h : IsLost lost rest)
    (h' : IsLost lost' rest') (hBytes : lost ++ rest = lost' ++ rest') : lost = lost' := by
  rcases List.prefix_or_prefix_of_prefix (hBytes ▸ List.prefix_append lost rest)
    (List.prefix_append lost' rest') with hShort | hLong
  · exact eq_of_shorter h h' hBytes hShort
  · exact (eq_of_shorter h' h hBytes.symm hLong).symm

end IsLost

/-- The machine reads lossily, from whatever it has been left with. -/
theorem readsLossily_readFrom (bytes : List UInt8) (s : Utf8State) (p : List UInt8)
    (h : s.Follows p) : ReadsLossily (p ++ bytes) (s.readFrom bytes) := by
  induction bytes generalizing s p with
  | nil =>
    cases s with
    | start =>
      obtain rfl := h
      exact .nil
    | within lacking low high bits => exact .lost (.last h) .nil
  | cons b rest ih =>
    -- a first byte, which also is what follows a character that was not completed
    have hFirst : ReadsLossily (b :: rest) ((Utf8State.first b).1 ++
        (Utf8State.first b).2.readFrom rest) := by
      rcases Utf8State.first_cases b with ⟨hAscii, hEq⟩ | ⟨hNone, hEq⟩ | ⟨_, _, _, _, hBegins, hEq⟩
      · rw [hEq, ← List.singleton_append, ← utf8EncodeChar_ofNat hAscii]
        exact .char _ (ih .start [] rfl)
      · rw [hEq, ← List.singleton_append]
        exact .lost (.byte hNone rest) (ih .start [] rfl)
      · rw [hEq]
        exact ih _ [b] hBegins
    cases s with
    | start =>
      obtain rfl := h
      exact hFirst
    | within lacking low high bits =>
      have hBegins : Begins p lacking low high bits := h
      rw [Utf8State.readFrom]
      by_cases hRange : low ≤ b ∧ b ≤ high
      · rw [Utf8State.step_within_of_range hRange, List.append_cons]
        by_cases hLast : lacking ≤ 1
        · obtain rfl : lacking = 1 := Nat.le_antisymm hLast hBegins.lacks
          rw [if_pos hLast, ← hBegins.complete hRange]
          exact .char _ (ih .start [] rfl)
        · rw [if_neg hLast]
          exact ih _ _ (hBegins.concat (Nat.lt_of_not_le hLast) hRange)
      · rw [Utf8State.step_within_of_not hRange]
        exact .lost (.next hBegins hRange rest) hFirst

theorem readsLossily_decodeChars (bytes : List UInt8) : ReadsLossily bytes (decodeChars bytes) := by
  rw [decodeChars_eq_readFrom]
  exact readsLossily_readFrom bytes .start [] rfl

/-- Bytes are read as one text only. -/
theorem ReadsLossily.unique {bytes : List UInt8} {text text' : List Char}
    (h : ReadsLossily bytes text) (h' : ReadsLossily bytes text') : text = text' := by
  induction h generalizing text' with
  | nil =>
    generalize hBytes : ([] : List UInt8) = bytes at h'
    cases h' with
    | nil => rfl
    | char c _ => simp [String.utf8EncodeChar_ne_nil] at hBytes
    | lost hLost _ => simp [hLost.nonempty] at hBytes
  | char c hRest ih =>
    generalize hBytes : utf8EncodeChar c ++ _ = bytes at h'
    cases h' with
    | nil => simp [String.utf8EncodeChar_ne_nil] at hBytes
    | char c' hRest' =>
      obtain rfl := eq_of_utf8EncodeChar_prefix (hBytes ▸ List.prefix_append _ _)
        (List.prefix_append (utf8EncodeChar c') _)
      rw [ih (List.append_cancel_left hBytes ▸ hRest')]
    | lost hLost _ => exact absurd (hBytes ▸ List.prefix_append _ _) (hLost.no_char c)
  | @lost lost rest text hLost hRest ih =>
    generalize hBytes : lost ++ rest = bytes at h'
    cases h' with
    | nil => simp [hLost.nonempty] at hBytes
    | char c' _ => exact absurd (hBytes ▸ List.prefix_append _ _) (hLost.no_char c')
    | lost hLost' hRest' =>
      obtain rfl := hLost.unique hLost' hBytes
      rw [ih (List.append_cancel_left hBytes ▸ hRest')]

-- ---------------------------------------------------------------------------
-- Texts
-- ---------------------------------------------------------------------------

theorem byteArray_loop_eq (bytes : ByteArray) (i : Nat) (l : List UInt8) :
    ByteArray.toList.loop bytes i l = l.reverse ++ bytes.data.toList.drop i := by
  rw [ByteArray.toList.loop]
  have hSize : bytes.data.toList.length = bytes.size := rfl
  split
  · rename_i hMore
    have hGet : bytes.get! i = bytes.data.toList[i] := by
      rw [Array.getElem_toList]
      exact getElem!_pos bytes.data i hMore
    rw [byteArray_loop_eq, List.drop_eq_getElem_cons (i := i) (by omega), hGet]
    simp
  · rw [List.drop_eq_nil_of_le (by omega), List.append_nil]
termination_by bytes.size - i

/-- A text is written character by character. -/
theorem encodeUtf8_eq (text : String) : encodeUtf8 text = text.toList.flatMap utf8EncodeChar := by
  rw [encodeUtf8, String.toUTF8_eq_toByteArray, ByteArray.toList, byteArray_loop_eq,
    ← String.utf8Encode_toList, List.utf8Encode, List.toList_data_toByteArray]
  rfl

theorem readsLossily_flatMap (text : List Char) : ReadsLossily (text.flatMap utf8EncodeChar) text := by
  induction text with
  | nil => exact .nil
  | cons c text ih => exact .char c ih

/-- A text is read as it was written. -/
theorem decodeLossy_encodeUtf8 (text : String) : decodeLossy (encodeUtf8 text) = text := by
  rw [decodeLossy, (readsLossily_decodeChars _).unique
    (encodeUtf8_eq text ▸ readsLossily_flatMap text.toList), String.ofList_toList]

end ScriptWarden
