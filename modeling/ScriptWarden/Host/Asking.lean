import ScriptWarden.Host.Program

/-!
# Asking the host

Something that is worked out by asking the host, step after step. It becomes a program once it is
said what is done with the result.
-/

namespace ScriptWarden

/-- Something that is worked out by asking the host. -/
def Asking (α : Type) : Type := (α → Program) → Program

namespace Asking

instance : Monad Asking where
  pure a next := next a
  bind asking rest next := asking fun a => rest a next

/-- End the process; nothing follows. -/
def exit (code : Nat) : Asking α := fun _ => .exit code

/-- The program that works something out and ends with it as its code. -/
def toProgram (asking : Asking Nat) : Program := asking .exit

/-- Use the processor for a while. -/
def compute : Asking Unit := fun next => .compute next

/-- Read up to so many bytes. -/
def read (fd count : Nat) : Asking (Reply (List UInt8)) := fun next => .read fd count next

/-- Write bytes. -/
def write (fd : Nat) (bytes : List UInt8) : Asking (Reply Unit) := fun next => .write fd bytes next

/-- Open a file. -/
def openFile (path : String) (mode : OpenMode) : Asking (Reply Nat) :=
  fun next => .openFile path mode next

/-- Close what is open under a number. -/
def close (fd : Nat) : Asking (Reply Unit) := fun next => .close fd next

/-- Let one number stand for what another stands for. -/
def duplicate (source target : Nat) : Asking (Reply Unit) :=
  fun next => .duplicate source target next

/-- Make a pipe: the end to read and the end to write. -/
def pipe : Asking (Nat × Nat) := fun next => .pipe fun readEnd writeEnd => next (readEnd, writeEnd)

/-- Start a child that runs a program. -/
def fork (child : Program) : Asking UInt32 := fun next => .fork child next

/-- Wait for a child, or for any child, to end. -/
def wait (child : Option UInt32) : Asking (Reply (UInt32 × UInt32)) := fun next => .wait child next

/-- Sleep. -/
def sleep (span : Duration) : Asking (Reply Unit) := fun next => .sleep span next

/-- Send a signal. -/
def kill (pid : UInt32) (signal : Nat) : Asking (Reply Unit) := fun next => .kill pid signal next

/-- Do something else about a signal from now on. -/
def handle (signal : Nat) (disposition : Disposition) : Asking Unit :=
  fun next => .handle signal disposition next

/-- The caught signals that have come in. -/
def takeSignals : Asking (List Nat) := fun next => .takeSignals next

/-- Become another program; what follows happens only if that fails. -/
def execute (path : String) (command : List (List UInt8)) (environment : Environment) :
    Asking IoFault :=
  fun next => .execute path command environment next

/-- Change the working directory. -/
def changeDir (path : String) : Asking (Reply Unit) := fun next => .changeDir path next

/-- The working directory. -/
def workingDir : Asking String := fun next => .workingDir next

/-- The process's own number. -/
def processId : Asking UInt32 := fun next => .processId next

/-- The number of the process's parent. -/
def parentId : Asking UInt32 := fun next => .parentId next

/-- What a path leads to. -/
def look (path : String) : Asking (Option FileInfo) := fun next => .look path next

/-- The names in a directory. -/
def list (path : String) : Asking (List String) := fun next => .list path next

/-- Everything up to the end, read in pieces that are given last piece first. The fuel bounds how
many there are. -/
def readPieces (fd : Nat) : Nat → List (List UInt8) → Asking (List (List UInt8))
  | 0, pieces => pure pieces
  | n + 1, pieces => do
    match ← read fd 4096 with
    | .done [] => return pieces
    | .done bytes => readPieces fd n (bytes :: pieces)
    | .interrupted => readPieces fd n pieces
    | .failed _ => return pieces

/-- How many steps a program makes at most before it is taken to go on for ever. -/
def stepLimit : Nat := 10000000

/-- Everything up to the end. -/
def readAll (fd : Nat) : Asking (List UInt8) := do
  return (← readPieces fd stepLimit []).reverse.flatten

end Asking

end ScriptWarden
