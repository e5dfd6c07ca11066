/-!
# Signals

The signals of a host by number and name, and what each does to a process that neither ignores nor
catches it.
-/

namespace ScriptWarden

namespace Signal

/-- The names of the signals from 1 on. -/
def names : List String :=
  ["HUP", "INT", "QUIT", "ILL", "TRAP", "ABRT", "BUS", "FPE", "KILL", "USR1", "SEGV", "USR2", "PIPE",
   "ALRM", "TERM", "STKFLT", "CHLD", "CONT", "STOP", "TSTP", "TTIN", "TTOU", "URG", "XCPU", "XFSZ",
   "VTALRM", "PROF", "WINCH", "IO", "PWR", "SYS"]

/-- The signal that ends a process at once. -/
def kill : Nat := 9

/-- The signal for a write that nobody will read. -/
def brokenPipe : Nat := 13

/-- The signal that asks a process to end. -/
def terminate : Nat := 15

/-- The signal that lets a process go on. -/
def goOn : Nat := 18

/-- The signal that halts a process. -/
def halt : Nat := 19

/-- The highest number of a signal. -/
def highest : Nat := 64

/-- The signal with a name. -/
def ofName? (name : String) : Option Nat := (names.idxOf? name).map (· + 1)

/-- The name of a signal. -/
def name? (number : Nat) : Option String := if number == 0 then none else names[number - 1]?

/-- What a signal does to a process that has no say in it. -/
inductive Effect where
  | terminate
  | halt
  | nothing
deriving DecidableEq, Repr, Inhabited

/-- What a signal does to a process that neither ignores nor catches it. -/
def effect (number : Nat) : Effect :=
  if [17, 18, 23, 28].contains number then .nothing
  else if [19, 20, 21, 22].contains number then .halt
  else .terminate

/-- Whether a process may ignore or catch a signal. -/
def isMaskable (number : Nat) : Bool := number != kill && number != halt

end Signal

end ScriptWarden
