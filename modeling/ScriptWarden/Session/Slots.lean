import ScriptWarden.Fault

/-!
# Slots

Which scripts have a session. A start takes the slot of its script before it looks at the file and
keeps it until the process runs, so a script has at most one session and its file is not replaced
between the check and the start.
-/

namespace ScriptWarden

/-- What a script's slot holds. -/
inductive Slot where
  /-- A start is checking the script. -/
  | starting
  /-- The session with an identity. -/
  | live (session : Nat)
deriving DecidableEq, Repr, Inhabited

/-- The slots that are taken. -/
abbrev Slots := List (ScriptName × Slot)

namespace Slots

/-- What the slot of a script holds. -/
def slot? (s : Slots) (n : ScriptName) : Option Slot := s.lookup n

/-- The session of a script. -/
def live? (s : Slots) (n : ScriptName) : Option Nat :=
  match s.slot? n with
  | some (.live id) => some id
  | _ => none

/-- The sessions there are. -/
def sessions (s : Slots) : List Nat :=
  s.filterMap fun e => match e.2 with | .live id => some id | .starting => none

/-- The slots without that of a script. -/
def clear (s : Slots) (n : ScriptName) : Slots := s.filter (·.1 != n)

/-- Take the slot of a script for a start. -/
def reserve (s : Slots) (n : ScriptName) : Except Fault Slots :=
  match s.slot? n with
  | some _ => .error (.alreadyRunning n.text)
  | none => .ok ((n, .starting) :: s)

/-- Give back the slot of a start that failed. -/
def vacate (s : Slots) (n : ScriptName) : Slots :=
  if s.slot? n == some .starting then s.clear n else s

/-- Let the slot of a start hold its session. -/
def publish (s : Slots) (n : ScriptName) (session : Nat) : Slots := (n, .live session) :: s.clear n

/-- Give back the slot of a session that has ended. The slot of another session stays. -/
def release (s : Slots) (n : ScriptName) (session : Nat) : Slots :=
  if s.slot? n == some (.live session) then s.clear n else s

/-- Refuse what may only be done to a script without a session. -/
def guardIdle (s : Slots) (n : ScriptName) : Except Fault Unit :=
  match s.slot? n with
  | some _ => .error (.busy n.text)
  | none => .ok ()

/-- Refuse what may not be done to a script while it is being checked. -/
def guardNotStarting (s : Slots) (n : ScriptName) : Except Fault Unit :=
  match s.slot? n with
  | some .starting => .error (.busy n.text)
  | _ => .ok ()

end Slots

end ScriptWarden
