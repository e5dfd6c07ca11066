/-!
# Texts in pieces

A text is cut at every occurrence of a character; the pieces may be empty. Blanks, the characters with
the Unicode property White_Space, can be taken off its ends.
-/

namespace ScriptWarden

/-- What stands between the occurrences of a character in a text. -/
def cutAt (c : Char) (text : String) : List String :=
  (text.toList.splitOn c).map String.ofList

/-- Whether a character has the property White_Space. -/
def isBlank (c : Char) : Bool :=
  let n := c.toNat
  (9 ≤ n && n ≤ 13) || n == 0x20 || n == 0x85 || n == 0xA0 || n == 0x1680 ||
    (0x2000 ≤ n && n ≤ 0x200A) || n == 0x2028 || n == 0x2029 || n == 0x202F || n == 0x205F ||
    n == 0x3000

/-- A list of characters without blanks at its beginning. -/
def trimStart (cs : List Char) : List Char := cs.dropWhile isBlank

/-- A text without blanks at its ends. -/
def trimBlanks (s : String) : String :=
  String.ofList (trimStart (trimStart s.toList).reverse).reverse

/-- Whether a character is a control character: of general category Cc. -/
def isControl (c : Char) : Bool := c.toNat < 0x20 || (0x7F ≤ c.toNat && c.toNat ≤ 0x9F)

end ScriptWarden
