import ScriptWarden.Clock.Duration

/-!
# Exits

How a process ended, from the status word that the host reports for it, and the code that a
program which ran it ends with in turn.
-/

namespace ScriptWarden

/-- How the process of a session ended. -/
structure Exit where
  /-- The code of a process that ended by itself. -/
  code : Option Int32 := none
  /-- The signal that ended a process. -/
  signal : Option Int32 := none
  /-- From the start of the process to its end. -/
  runtime : Duration := {}
deriving DecidableEq, Repr, Inhabited

namespace Exit

/-- The signal number in a status word: its low seven bits. -/
def signalBits (status : UInt32) : Nat := status.toNat % 128

/-- The code that a status word reports, if the process ended by itself. -/
def codeOf (status : UInt32) : Option Int32 :=
  if signalBits status == 0 then some (Int32.ofNat (status.toNat / 256 % 256)) else none

/-- The signal that a status word reports, if one ended the process. A process that was merely
stopped has all seven bits set. -/
def signalOf (status : UInt32) : Option Int32 :=
  if 1 ≤ signalBits status && signalBits status ≤ 126 then
    some (Int32.ofNat (signalBits status))
  else none

/-- The exit that a status word reports; without one, nothing is known. -/
def ofStatus (status : Option UInt32) (runtime : Duration) : Exit :=
  { code := status.bind codeOf, signal := status.bind signalOf, runtime }

/-- The code to end with after an exit: its own, 128 more than the signal, or 1. -/
def shellCode (e : Exit) : Int32 :=
  match e.code, e.signal with
  | some code, _ => code
  | none, some signal => 128 + signal
  | none, none => 1

end Exit

end ScriptWarden
