import ScriptWarden.Clock.Duration
import ScriptWarden.Host.Files

/-!
# Programs

A program is what it asks of its host next, together with how it goes on with each answer. So a
process can be stopped at every call and taken up again, and a program that runs for ever is a
value like any other: nothing after a call is worked out before the answer is there.
-/

namespace ScriptWarden

/-- The variables that a program is started with. -/
abbrev Environment := List (String × List UInt8)

/-- The answer to a call that may fail or be interrupted by a signal. -/
inductive Reply (α : Type) where
  | done (a : α)
  | failed (fault : IoFault)
  | interrupted

/-- What a file is opened for. -/
inductive OpenMode where
  | read
  | overwrite
  | append
deriving DecidableEq, Repr, Inhabited

/-- What a process does about a signal. -/
inductive Disposition where
  | standard
  | ignored
  | caught
deriving DecidableEq, Repr, Inhabited

/-- What a program asks of its host next. Files that are open are known by small numbers. -/
inductive Program where
  | exit (code : Nat)
  /-- Use the processor for a while. -/
  | compute (next : Unit → Program)
  | read (fd count : Nat) (next : Reply (List UInt8) → Program)
  | write (fd : Nat) (bytes : List UInt8) (next : Reply Unit → Program)
  | openFile (path : String) (mode : OpenMode) (next : Reply Nat → Program)
  | close (fd : Nat) (next : Reply Unit → Program)
  /-- Let one number stand for what another stands for. -/
  | duplicate (source target : Nat) (next : Reply Unit → Program)
  /-- Make a pipe, with an end to read and an end to write. -/
  | pipe (next : Nat → Nat → Program)
  | fork (child : Program) (next : UInt32 → Program)
  /-- Wait for a child, or for any child, to end: its number and its status. -/
  | wait (child : Option UInt32) (next : Reply (UInt32 × UInt32) → Program)
  | sleep (span : Duration) (next : Reply Unit → Program)
  /-- Wait for a signal. -/
  | pause (next : Unit → Program)
  | kill (pid : UInt32) (signal : Nat) (next : Reply Unit → Program)
  | handle (signal : Nat) (disposition : Disposition) (next : Unit → Program)
  /-- The caught signals that have come in. -/
  | takeSignals (next : List Nat → Program)
  /-- Become another program; the call returns only if that fails. -/
  | execute (path : String) (command : List (List UInt8)) (environment : Environment)
      (next : IoFault → Program)
  | changeDir (path : String) (next : Reply Unit → Program)
  | workingDir (next : String → Program)
  | processId (next : UInt32 → Program)
  | parentId (next : UInt32 → Program)
  | look (path : String) (next : Option FileInfo → Program)
  | list (path : String) (next : List String → Program)

namespace Program

/-- A program that writes and ends. -/
def say (fd : Nat) (bytes : List UInt8) (code : Nat) : Program := .write fd bytes fun _ => .exit code

/-- A program that waits for ever. The fuel bounds how many signals it outlasts. -/
def idle : Nat → Program
  | 0 => .exit 0
  | n + 1 => .pause fun _ => idle n

end Program

/-- How a program begins with a command line and an environment. -/
abbrev Launch := List (List UInt8) → Environment → Program

/-- The programs of a host by their names. -/
abbrev Catalog := String → Option Launch

end ScriptWarden
