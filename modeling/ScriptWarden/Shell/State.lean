import ScriptWarden.Host.Asking
import ScriptWarden.Shell.Command

/-!
# The state of a shell

What a shell knows while it runs a script, and the steps by which it reads and changes that. A step
may ask the host and may make the shell depart from the commands that would come next.
-/

namespace ScriptWarden.Shell

/-- A variable. One without a value is only marked for later. -/
structure Variable where
  value : Option String
  exported : Bool := false
  constant : Bool := false
deriving DecidableEq, Repr, Inhabited

/-- What a shell is set to do. -/
structure Options where
  /-- End when a command fails. -/
  stopAtFailure : Bool := false
  /-- Refuse parameters that are not set. -/
  refuseUnset : Bool := false
  /-- Show commands before they run. -/
  trace : Bool := false
  /-- Leave patterns as they are. -/
  plainPatterns : Bool := false
  /-- Export what is assigned. -/
  exportAll : Bool := false
deriving DecidableEq, Repr, Inhabited

/-- The state of a shell. -/
structure State where
  name : String
  arguments : List String := []
  bindings : List (String × Variable) := []
  /-- How the last command ended. -/
  status : Nat := 0
  pid : UInt32
  /-- The last command in the background. -/
  lastJob : Option UInt32 := none
  /-- What to do about signals; 0 stands for the end of the shell. -/
  traps : List (Nat × String) := []
  functions : List (String × Command) := []
  options : Options := {}
  line : Nat := 1
  /-- How many loops surround the command. -/
  loops : Nat := 0
  /-- The variables that each function in progress has set aside. -/
  setAside : List (List (String × Option Variable)) := []
  /-- How the last substitution of a command ended, if there was one. -/
  substituted : Option Nat := none
  /-- The next number to keep what a redirection replaces. -/
  spare : Nat := 10
deriving Inhabited

/-- Why a shell does not go on with the next command. -/
inductive Departure where
  /-- The shell ends. -/
  | exit (status : Nat)
  /-- So many loops end. -/
  | leave (loops : Nat)
  /-- All loops but so many end, and the last one begins anew. -/
  | again (loops : Nat)
  /-- A function ends. -/
  | back (status : Nat)
deriving DecidableEq, Repr, Inhabited

/-- A step of a shell. -/
abbrev Task (α : Type) := ExceptT Departure (StateT State Asking) α

namespace Task

/-- Ask the host. -/
def ask (asking : Asking α) : Task α := ExceptT.lift (StateT.lift asking)

-- ---------------------------------------------------------------------------
-- Messages
-- ---------------------------------------------------------------------------

/-- Write a text. -/
def print (fd : Nat) (text : String) : Task (Reply Unit) := ask (.write fd (bytesOfText text))

/-- Write a message with the shell's name and the line before it. -/
def complain (message : String) : Task Unit := do
  let s ← get
  discard (print 2 (s.name ++ ": " ++ toString s.line ++ ": " ++ message ++ "\n"))

/-- Complain, and end the shell. -/
def fatal (message : String) : Task α := do
  complain message
  throw (.exit 2)

-- ---------------------------------------------------------------------------
-- Variables
-- ---------------------------------------------------------------------------

/-- The value of a variable. -/
def valueOf? (name : String) : Task (Option String) := do
  return ((← get).bindings.lookup name).bind (·.value)

/-- Let a variable be something, or nothing. -/
def putVariable (name : String) (v : Option Variable) : Task Unit :=
  modify fun s =>
    let others := s.bindings.filter (·.1 != name)
    { s with bindings := match v with | some v => (name, v) :: others | none => others }

/-- Assign a variable. -/
def assign (name value : String) : Task Unit := do
  let s ← get
  let old := (s.bindings.lookup name).getD { value := none, exported := s.options.exportAll }
  if old.constant then fatal (name ++ ": is read only")
  putVariable name (some { old with value := some value })

/-- The variables that programs are started with. -/
def environment : Task Environment := do
  return (← get).bindings.filterMap fun (name, v) =>
    if v.exported then v.value.map fun text => (name, bytesOfText text) else none

/-- The characters at which results are split. -/
def separators : Task String := do return (← valueOf? "IFS").getD " \t\n"

end Task

-- ---------------------------------------------------------------------------
-- Statuses
-- ---------------------------------------------------------------------------

/-- The status that a shell gives to a child's status word. -/
def statusOfWord (word : UInt32) : Nat :=
  let signal := word.toNat % 128
  if signal == 0 then word.toNat / 256 % 256 else 128 + signal

/-- What a shell writes about a signal that ended a child. -/
def signalNotice? (word : UInt32) : Option String :=
  let signal := word.toNat % 128
  let notices := ["Hangup", "Interrupt", "Quit", "Illegal instruction", "Trace/breakpoint trap",
    "Aborted", "Bus error", "Floating point exception", "Killed", "User defined signal 1",
    "Segmentation fault", "User defined signal 2", "Broken pipe", "Alarm clock", "Terminated",
    "Stack fault", "Child exited", "Continued", "Stopped (signal)", "Stopped", "Stopped (tty input)",
    "Stopped (tty output)", "Urgent I/O condition", "CPU time limit exceeded",
    "File size limit exceeded", "Virtual timer expired", "Profiling timer expired", "Window changed",
    "I/O possible", "Power failure", "Bad system call"]
  if signal == 0 || signal == 2 || signal == 13 then none else notices[signal - 1]?

end ScriptWarden.Shell
