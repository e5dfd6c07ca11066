/-!
# UTF-8

Bytes to text. The whole of a byte string is read by a machine that takes one byte at a time; where
the bytes are no character, each longest run that could still have become one, or else a single
byte, gives one replacement character. A decoder for chunks holds back the end of a chunk that
looks like the beginning of a character.
-/

namespace ScriptWarden

/-- The character in place of bytes that are none. -/
def replacementChar : Char := '\uFFFD'

/-- What the bytes so far leave open: nothing, or a character that lacks some bytes. -/
inductive Utf8State where
  | start
  /-- So many bytes are lacking, the next of them lies in a range, and the bytes so far give
  leading bits. -/
  | within (lacking : Nat) (low high : UInt8) (bits : Nat)
deriving DecidableEq, Repr, Inhabited

namespace Utf8State

/-- What a byte gives between characters: a character, a beginning, or nothing of either kind. -/
def first (b : UInt8) : List Char × Utf8State :=
  if b < 0x80 then ([Char.ofNat b.toNat], .start)
  else if b < 0xC2 then ([replacementChar], .start)
  else if b < 0xE0 then ([], .within 1 0x80 0xBF (b.toNat - 0xC0))
  else if b == 0xE0 then ([], .within 2 0xA0 0xBF 0)
  else if b == 0xED then ([], .within 2 0x80 0x9F 0xD)
  else if b < 0xF0 then ([], .within 2 0x80 0xBF (b.toNat - 0xE0))
  else if b == 0xF0 then ([], .within 3 0x90 0xBF 0)
  else if b < 0xF4 then ([], .within 3 0x80 0xBF (b.toNat - 0xF0))
  else if b == 0xF4 then ([], .within 3 0x80 0x8F 4)
  else ([replacementChar], .start)

/-- The characters that a byte completes, and what it leaves open. -/
def step (s : Utf8State) (b : UInt8) : List Char × Utf8State :=
  match s with
  | .start => first b
  | .within lacking low high bits =>
    if low ≤ b && b ≤ high then
      let bits := bits * 64 + (b.toNat - 0x80)
      if lacking ≤ 1 then ([Char.ofNat bits], .start) else ([], .within (lacking - 1) 0x80 0xBF bits)
    else
      let (out, next) := first b
      (replacementChar :: out, next)

/-- What is written for a character that never was completed. -/
def finish : Utf8State → List Char
  | .start => []
  | .within .. => [replacementChar]

end Utf8State

/-- Text written so far, last character first, and what is left open. -/
structure Utf8Progress where
  written : List Char := []
  state : Utf8State := .start
deriving DecidableEq, Repr, Inhabited

/-- Take in one byte. -/
def Utf8Progress.push (p : Utf8Progress) (b : UInt8) : Utf8Progress :=
  let (out, next) := p.state.step b
  { written := out.reverse ++ p.written, state := next }

/-- Take in bytes. -/
def Utf8Progress.pushAll (p : Utf8Progress) (bytes : List UInt8) : Utf8Progress :=
  bytes.foldl Utf8Progress.push p

/-- The characters of bytes, with replacement characters where they are none. -/
def decodeChars (bytes : List UInt8) : List Char :=
  let p := Utf8Progress.pushAll {} bytes
  p.written.reverse ++ p.state.finish

/-- The text of bytes, with replacement characters where they are none. -/
def decodeLossy (bytes : List UInt8) : String := String.ofList (decodeChars bytes)

/-- The bytes of a text. -/
def encodeUtf8 (s : String) : List UInt8 := s.toUTF8.toList

/-- The text of bytes, if they are UTF-8 throughout. -/
def decodeUtf8? (bytes : List UInt8) : Option String :=
  let text := decodeLossy bytes
  if encodeUtf8 text == bytes then some text else none

-- ---------------------------------------------------------------------------
-- Chunks
-- ---------------------------------------------------------------------------

/-- How many bytes a character has that begins with a byte, as far as the byte tells. -/
def leadLength (b : UInt8) : Nat :=
  if 0xC0 ≤ b && b ≤ 0xDF then 2
  else if 0xE0 ≤ b && b ≤ 0xEF then 3
  else if 0xF0 ≤ b && b ≤ 0xF7 then 4
  else 1

/-- Whether a byte continues a character. -/
def isContinuation (b : UInt8) : Bool := 0x80 ≤ b && b < 0xC0

/-- How many of the last bytes begin a character that lacks bytes. The bytes are given from the
last one on, and so many of them have been passed. -/
def openTail (passed : Nat) : List UInt8 → Nat
  | [] => 0
  | b :: rest =>
    if isContinuation b then openTail (passed + 1) rest
    else if passed + 1 < leadLength b then passed + 1
    else 0

/-- How many bytes at the end begin a character that lacks bytes; only the last three are asked. -/
def incompleteTail (bytes : List UInt8) : Nat := openTail 0 (bytes.reverse.take 3)

/-- A decoder for chunks: the bytes that it holds back. -/
structure Utf8Decoder where
  held : List UInt8 := []
deriving DecidableEq, Repr, Inhabited

namespace Utf8Decoder

/-- Decode what is complete of the bytes held and a chunk. -/
def push (d : Utf8Decoder) (chunk : List UInt8) : String × Utf8Decoder :=
  let bytes := d.held ++ chunk
  let split := bytes.length - incompleteTail bytes
  (decodeLossy (bytes.take split), { held := bytes.drop split })

/-- Decode what is held. -/
def finish (d : Utf8Decoder) : String × Utf8Decoder := (decodeLossy d.held, {})

end Utf8Decoder

end ScriptWarden
