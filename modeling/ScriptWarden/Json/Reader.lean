import ScriptWarden.Json.Error
import ScriptWarden.Text.Utf8

/-!
# Reading JSON

A reader takes a place in a text and gives a value and the place after it, or the first fault. A
value is read with a reader for the values inside it, so nesting is bounded by the readers at hand;
loops are bounded by the bytes that are left.
-/

namespace ScriptWarden

/-- A place in a text, and the bytes from there on. -/
structure Cursor where
  rest : List UInt8
  place : LinePlace := {}
deriving Inhabited, Repr

/-- What reads a value. -/
abbrev Reader (α : Type) := Cursor → Except ReadFault (α × Cursor)

namespace Cursor

/-- The place after a byte. -/
def placeAfter (p : LinePlace) (b : UInt8) : LinePlace :=
  if b == 10 then { line := p.line + 1, column := 0 } else { p with column := p.column + 1 }

/-- The place after the next byte, if there is one. -/
def nextPlace (c : Cursor) : LinePlace :=
  match c.rest with
  | [] => c.place
  | b :: _ => placeAfter c.place b

/-- Go past the next byte. -/
def skip (c : Cursor) : Cursor :=
  match c.rest with
  | [] => c
  | b :: rest => { rest, place := placeAfter c.place b }

/-- A fault at the place. -/
def fail (c : Cursor) (f : JsonFault) : Except ReadFault α := .error (.text f c.place)

/-- A fault at the byte that comes next. -/
def failNext (c : Cursor) (f : JsonFault) : Except ReadFault α := .error (.text f c.nextPlace)

/-- Go past blanks. -/
def skipBlanks (c : Cursor) : Cursor := go c.rest c.place
where
  /-- Go past blanks, byte by byte. -/
  go : List UInt8 → LinePlace → Cursor
    | [], p => { rest := [], place := p }
    | b :: rest, p =>
      if b == 32 || b == 10 || b == 9 || b == 13 then go rest (placeAfter p b)
      else { rest := b :: rest, place := p }

/-- The next byte. -/
def peek (c : Cursor) : Option UInt8 := c.rest.head?

end Cursor

/-- The byte of an ASCII character. -/
def ascii (c : Char) : UInt8 := c.toNat.toUInt8

namespace Json

-- ---------------------------------------------------------------------------
-- Words
-- ---------------------------------------------------------------------------

/-- Read the rest of a word that has begun. -/
def readWord : List Char → Cursor → Except ReadFault Cursor
  | [], c => .ok c
  | x :: xs, c =>
    match c.peek with
    | none => c.fail .eofInValue
    | some b => if b == ascii x then readWord xs c.skip else c.skip.fail .expectedIdent

-- ---------------------------------------------------------------------------
-- Numbers
-- ---------------------------------------------------------------------------

/-- Whether a byte is a digit. -/
def isDigitByte (b : UInt8) : Bool := 48 ≤ b && b ≤ 57

/-- The value of a digit. -/
def digitOf (b : UInt8) : Nat := b.toNat - 48

/-- The largest whole number of 64 bits. -/
def maxU64 : Nat := twoTo 64 - 1

/-- Whether the next byte is one of some characters. -/
def nextIs (c : Cursor) (cs : List Char) : Bool := (c.peek).any fun b => cs.any fun x => b == ascii x

/-- Go past digits. -/
def skipDigits : Nat → Cursor → Cursor
  | 0, c => c
  | n + 1, c => if (c.peek).any isDigitByte then skipDigits n c.skip else c

/-- The number `significand * 10 ^ exponent`, made of a rounded significand and one rounded
product or quotient by a power of ten. -/
def realOf (negative : Bool) (significand : Nat) (exponent : Int) (c : Cursor) :
    Except ReadFault Json :=
  go (Binary64.ofNat significand) exponent 4
where
  /-- A power of ten as a number. -/
  powerOfTen (n : Nat) : Binary64 := Binary64.nearest false (tenTo n) 1
  /-- The number with its sign. -/
  signed (x : Binary64) : Json := .real { x with negative }
  /-- Multiply or divide; a small number is divided in steps. -/
  go (x : Binary64) (e : Int) : Nat → Except ReadFault Json
    | 0 => .ok (signed x)
    | n + 1 =>
      if e.natAbs ≤ 308 then
        if 0 ≤ e then
          let y := x.mul (powerOfTen e.toNat)
          if y.isFinite then .ok (signed y) else c.fail .numberOutOfRange
        else .ok (signed (x.div (powerOfTen e.natAbs)))
      else if x.isZero then .ok (signed x)
      else if 0 ≤ e then c.fail .numberOutOfRange
      else go (x.div (powerOfTen 308)) (e + 308) n

/-- The largest exponent that is counted. -/
def maxExponent : Nat := twoTo 31 - 1

/-- Read the digits of an exponent after the first one. -/
def readExponentDigits (negative : Bool) (significand : Nat) (start : Int) (positive : Bool) :
    Nat → Nat → Reader Json
  | 0, _, c => .ok (.null, c)
  | n + 1, e, c =>
    match c.peek with
    | some b =>
      if isDigitByte b then
        let e' := e * 10 + digitOf b
        if maxExponent < e' then
          if significand != 0 && positive then c.skip.fail .numberOutOfRange
          else .ok (.real { negative }, skipDigits c.rest.length c.skip)
        else readExponentDigits negative significand start positive n e' c.skip
      else (realOf negative significand (if positive then start + e else start - e) c).map (·, c)
    | none => (realOf negative significand (if positive then start + e else start - e) c).map (·, c)

/-- Read an exponent, from the letter on. -/
def readExponent (negative : Bool) (significand : Nat) (start : Int) : Reader Json := fun c =>
  let c := c.skip
  let positive := !nextIs c ['-']
  let c := if nextIs c ['+', '-'] then c.skip else c
  match c.peek with
  | none => c.fail .eofInValue
  | some b =>
    if isDigitByte b then
      readExponentDigits negative significand start positive (c.rest.length + 1) (digitOf b) c.skip
    else c.skip.fail .invalidNumber

/-- What follows the digits of a number that has a point. -/
def readAfterPlaces (negative : Bool) (significand : Nat) (exponent : Int) : Reader Json := fun c =>
  if nextIs c ['e', 'E'] then readExponent negative significand exponent c
  else (realOf negative significand exponent c).map (·, c)

/-- Read places after a point, so many having been read. Places beyond 64 bits are passed over. -/
def readPlaces (negative : Bool) (start : Int) : Nat → Nat → Nat → Reader Json
  | 0, _, _, c => .ok (.null, c)
  | n + 1, significand, places, c =>
    match c.peek with
    | some b =>
      if isDigitByte b then
        let s' := significand * 10 + digitOf b
        if maxU64 < s' then
          readAfterPlaces negative significand (start - places) (skipDigits c.rest.length c)
        else readPlaces negative start n s' (places + 1) c.skip
      else if places == 0 then c.failNext .invalidNumber
      else readAfterPlaces negative significand (start - places) c
    | none =>
      if places == 0 then c.failNext .eofInValue
      else readAfterPlaces negative significand (start - places) c

/-- What follows the digits of a whole number, whose last so many are not in the significand. -/
def readAfterDigits (negative : Bool) (significand : Nat) (exponent : Int) : Reader Json := fun c =>
  if nextIs c ['.'] then readPlaces negative exponent (c.rest.length + 1) significand 0 c.skip
  else if nextIs c ['e', 'E'] then readExponent negative significand exponent c
  else (realOf negative significand exponent c).map (·, c)

/-- The whole number with a sign. What 64 bits cannot hold, and `-0`, become reals. -/
def wholeOf (negative : Bool) (significand : Nat) : Json :=
  if !negative then .nat significand
  else if significand == 0 || twoTo 63 < significand then
    .real { Binary64.ofNat significand with negative := true }
  else .neg significand

/-- Read the digits of a whole number after the first one. -/
def readDigits (negative : Bool) : Nat → Nat → Reader Json
  | 0, _, c => .ok (.null, c)
  | n + 1, significand, c =>
    match c.peek with
    | some b =>
      if isDigitByte b then
        let s' := significand * 10 + digitOf b
        if maxU64 < s' then
          let c' := skipDigits c.rest.length c
          readAfterDigits negative significand (c.rest.length - c'.rest.length : Nat) c'
        else readDigits negative n s' c.skip
      else if nextIs c ['.', 'e', 'E'] then readAfterDigits negative significand 0 c
      else .ok (wholeOf negative significand, c)
    | none => .ok (wholeOf negative significand, c)

/-- Read a number after its sign. -/
def readNumber (negative : Bool) : Reader Json := fun c =>
  match c.peek with
  | none => c.fail .eofInValue
  | some b =>
    if b == 48 then
      if (c.skip.peek).any isDigitByte then c.skip.failNext .invalidNumber
      else readDigits negative (c.rest.length + 1) 0 c.skip
    else if isDigitByte b then readDigits negative (c.rest.length + 1) (digitOf b) c.skip
    else c.skip.fail .invalidNumber

-- ---------------------------------------------------------------------------
-- Strings
-- ---------------------------------------------------------------------------

/-- The value of a hexadecimal digit. -/
def hexValue? (b : UInt8) : Option Nat :=
  if isDigitByte b then some (b.toNat - 48)
  else if 97 ≤ b && b ≤ 102 then some (b.toNat - 87)
  else if 65 ≤ b && b ≤ 70 then some (b.toNat - 55)
  else none

/-- Go past so many bytes. -/
def skipBytes : Nat → Cursor → Cursor
  | 0, c => c
  | n + 1, c => skipBytes n c.skip

/-- Read four hexadecimal digits. -/
def readHex4 : Reader Nat := fun c =>
  match c.rest with
  | a :: b :: d :: e :: _ =>
    let c' := skipBytes 4 c
    match hexValue? a, hexValue? b, hexValue? d, hexValue? e with
    | some a, some b, some d, some e => .ok (((a * 16 + b) * 16 + d) * 16 + e, c')
    | _, _, _, _ => c'.fail .invalidEscape
  | rest => (skipBytes rest.length c).fail .eofInString

/-- Read a byte that has to be there, inside a string. -/
def readStringByte : Reader UInt8 := fun c =>
  match c.rest with
  | [] => c.fail .eofInString
  | b :: _ => .ok (b, c.skip)

/-- Read the character of a `\u` escape, after the letter. -/
def readUnicodeEscape : Reader Char := fun c => do
  let (n, c) ← readHex4 c
  if 0xDC00 ≤ n && n ≤ 0xDFFF then c.fail .loneSurrogate
  else if n < 0xD800 || 0xDBFF < n then .ok (Char.ofNat n, c)
  else
    let (b, c') ← readStringByte c
    if b != ascii '\\' then c'.fail .endOfHexEscape
    else
      let (b, c') ← readStringByte c'
      if b != ascii 'u' then c'.fail .endOfHexEscape
      else
        let (m, c') ← readHex4 c'
        if m < 0xDC00 || 0xDFFF < m then c'.fail .loneSurrogate
        else .ok (Char.ofNat (0x10000 + (n - 0xD800) * 0x400 + (m - 0xDC00)), c')

/-- Read an escape after its backslash. -/
def readEscape : Reader Char := fun c => do
  let (b, c) ← readStringByte c
  if b == ascii '"' then .ok ('"', c)
  else if b == ascii '\\' then .ok ('\\', c)
  else if b == ascii '/' then .ok ('/', c)
  else if b == ascii 'b' then .ok ('\x08', c)
  else if b == ascii 'f' then .ok ('\x0c', c)
  else if b == ascii 'n' then .ok ('\n', c)
  else if b == ascii 'r' then .ok ('\r', c)
  else if b == ascii 't' then .ok ('\t', c)
  else if b == ascii 'u' then readUnicodeEscape c
  else c.fail .invalidEscape

/-- Read a string after its opening quote. The bytes read so far are given last one first. -/
def readStringBytes : Nat → List UInt8 → Reader (List UInt8)
  | 0, acc, c => .ok (acc, c)
  | n + 1, acc, c =>
    match c.rest with
    | [] => c.fail .eofInString
    | b :: _ =>
      if b == ascii '"' then .ok (acc, c.skip)
      else if b == ascii '\\' then do
        let (ch, c') ← readEscape c.skip
        readStringBytes n ((encodeUtf8 ch.toString).reverse ++ acc) c'
      else if b < 32 then c.skip.fail .controlCharacter
      else readStringBytes n (b :: acc) c.skip

/-- Read a string after its opening quote. -/
def readString : Reader String := fun c => do
  let (bytes, c') ← readStringBytes (c.rest.length + 1) [] c
  match decodeUtf8? bytes.reverse with
  | some s => .ok (s, c')
  | none => c'.fail .invalidCodePoint

-- ---------------------------------------------------------------------------
-- Lists and objects
-- ---------------------------------------------------------------------------

/-- Go to the next item of a list: whether there is one. -/
def nextItem (first : Bool) : Reader Bool := fun c =>
  let c := c.skipBlanks
  match c.peek with
  | none => c.failNext .eofInList
  | some b =>
    if b == ascii ']' then .ok (false, c)
    else if first then .ok (true, c)
    else if b == ascii ',' then
      let c := c.skip.skipBlanks
      match c.peek with
      | none => c.failNext .eofInValue
      | some b => if b == ascii ']' then c.failNext .trailingComma else .ok (true, c)
    else c.failNext .expectedListCommaOrEnd

/-- Go past the end of a list. -/
def endList : Reader Unit := fun c =>
  let c := c.skipBlanks
  match c.peek with
  | none => c.failNext .eofInList
  | some b =>
    if b == ascii ']' then .ok ((), c.skip)
    else if b == ascii ',' then
      let c := c.skip.skipBlanks
      if nextIs c [']'] then c.failNext .trailingComma else c.failNext .trailingCharacters
    else c.failNext .trailingCharacters

/-- Go to the next key of an object, past its opening quote: whether there is one. -/
def nextKey (first : Bool) : Reader Bool := fun c =>
  let c := c.skipBlanks
  match c.peek with
  | none => c.failNext .eofInObject
  | some b =>
    if b == ascii '\x7d' then .ok (false, c)
    else if first then
      if b == ascii '"' then .ok (true, c.skip) else c.failNext .keyNotString
    else if b == ascii ',' then
      let c := c.skip.skipBlanks
      match c.peek with
      | none => c.failNext .eofInValue
      | some b =>
        if b == ascii '"' then .ok (true, c.skip)
        else if b == ascii '\x7d' then c.failNext .trailingComma
        else c.failNext .keyNotString
    else c.failNext .expectedObjectCommaOrEnd

/-- Go past the colon after a key. -/
def readColon : Reader Unit := fun c =>
  let c := c.skipBlanks
  match c.peek with
  | none => c.failNext .eofInObject
  | some b => if b == ascii ':' then .ok ((), c.skip) else c.failNext .expectedColon

/-- Go past the end of an object. -/
def endObject : Reader Unit := fun c =>
  let c := c.skipBlanks
  match c.peek with
  | none => c.failNext .eofInObject
  | some b =>
    if b == ascii '\x7d' then .ok ((), c.skip)
    else if b == ascii ',' then c.failNext .trailingComma
    else c.failNext .trailingCharacters

/-- Read the items of a list; those read so far are given last one first. -/
def readItems (inner : Reader Json) : Nat → Bool → List Json → Reader (List Json)
  | 0, _, acc, c => .ok (acc.reverse, c)
  | n + 1, first, acc, c => do
    let (more, c) ← nextItem first c
    if more then
      let (j, c) ← inner c
      readItems inner n false (j :: acc) c
    else .ok (acc.reverse, c)

/-- Read the fields of an object; those read so far are given last one first. -/
def readFields (inner : Reader Json) :
    Nat → Bool → List (String × Json) → Reader (List (String × Json))
  | 0, _, acc, c => .ok (acc.reverse, c)
  | n + 1, first, acc, c => do
    let (more, c) ← nextKey first c
    if more then
      let (k, c) ← readString c
      let (_, c) ← readColon c
      let (j, c) ← inner c
      readFields inner n false ((k, j) :: acc) c
    else .ok (acc.reverse, c)

-- ---------------------------------------------------------------------------
-- Values
-- ---------------------------------------------------------------------------

/-- Read a value that has no values inside it, from its first byte on. -/
def readScalar (b : UInt8) : Reader Json := fun c =>
  if b == ascii 'n' then (readWord "ull".toList c.skip).map (.null, ·)
  else if b == ascii 't' then (readWord "rue".toList c.skip).map (.bool true, ·)
  else if b == ascii 'f' then (readWord "alse".toList c.skip).map (.bool false, ·)
  else if b == ascii '-' then readNumber true c.skip
  else if isDigitByte b then readNumber false c
  else if b == ascii '"' then (readString c.skip).map fun (s, c) => (.str s, c)
  else c.failNext .expectedValue

/-- Read a value, with a reader for the values inside it unless they would lie too deep. -/
def readWith (inner : Option (Reader Json)) : Reader Json := fun c =>
  let c := c.skipBlanks
  match c.peek with
  | none => c.failNext .eofInValue
  | some b =>
    if b == ascii '[' then
      match inner with
      | none => c.failNext .tooDeep
      | some inner => do
        let (items, c) ← readItems inner (c.rest.length + 1) true [] c.skip
        let (_, c) ← endList c
        .ok (.arr items, c)
    else if b == ascii '\x7b' then
      match inner with
      | none => c.failNext .tooDeep
      | some inner => do
        let (fields, c) ← readFields inner (c.rest.length + 1) true [] c.skip
        let (_, c) ← endObject c
        .ok (.obj fields, c)
    else readScalar b c

/-- Read a value below so many levels of lists and objects. -/
def readBelow : Nat → Reader Json
  | 0 => readWith none
  | n + 1 => readWith (some (readBelow n))

/-- How many lists and objects may lie inside one another. -/
def maxDepth : Nat := 127

/-- Read a value. -/
def readValue : Reader Json := readBelow maxDepth

/-- Whether nothing but blanks is left. -/
def readEnd : Cursor → Except ReadFault Unit := fun c =>
  let c := c.skipBlanks
  match c.peek with
  | none => .ok ()
  | some _ => c.failNext .trailingCharacters

/-- Read a whole text with a reader. -/
def readAll (reader : Reader α) (bytes : List UInt8) : Except ReadFault α := do
  let (a, c) ← reader { rest := bytes }
  let _ ← readEnd c
  .ok a

/-- The value of a text. -/
def parse (s : String) : Except ReadFault Json := readAll readValue (encodeUtf8 s)

end Json

end ScriptWarden
