/-!
# Powers and sums

Powers of two and of ten, and the sum of a list of numbers.
-/

namespace ScriptWarden

/-- A power of two. -/
def twoTo (n : Nat) : Nat := Nat.pow 2 n

/-- A power of ten. -/
def tenTo (n : Nat) : Nat := Nat.pow 10 n

/-- The sum of numbers. -/
def total (ns : List Nat) : Nat := ns.foldl (fun sum n => sum + n) 0

end ScriptWarden
