import ScriptWarden.Listing.Table
import ScriptWarden.Numeric.Binary64
import ScriptWarden.Wire.Record

/-!
# Listings

Tables of scripts and of processes for people. A count of bytes stands there in the largest of three
units that it fills.
-/

namespace ScriptWarden

/-- A count of bytes, such as `512 B`, `1.5 KiB` or `3.0 MiB`. -/
def sizeText (bytes : Nat) : String :=
  let inUnit := fun (unit : Nat) =>
    tenthsText (((Binary64.ofNat bytes).div (Binary64.ofNat unit)).inUnits 1)
  if bytes < 1024 then toString bytes ++ " B"
  else if bytes < 1024 * 1024 then inUnit 1024 ++ " KiB"
  else inUnit (1024 * 1024) ++ " MiB"

/-- What stands in a column for a property that a script has or has not. -/
def flagText (on : Bool) : String := if on then "yes" else "-"

namespace ScriptRecord

/-- The state of a script in a word or two. -/
def status (r : ScriptRecord) : String :=
  if r.isRunning then "running"
  else if !r.isValid then "invalid"
  else if !r.isExecutable then "missing deps"
  else "ready"

/-- What stands in the way of a script: its first error, or the siblings that it lacks. -/
def details (r : ScriptRecord) : String :=
  match r.errors, r.missing with
  | [e], _ => e
  | e :: more, _ => e ++ " (+" ++ toString more.length ++ " more)"
  | [], [] => "-"
  | [], missing => "needs " ++ ", ".intercalate missing

/-- The columns of a script. -/
def columns (r : ScriptRecord) : List String :=
  [r.name, sizeText r.size.toNat, r.modified.listingText, r.status, flagText r.isAutoboot,
    flagText r.hasLog]

end ScriptRecord

/-- The heads of the columns of a script. -/
def scriptHeads : List String := ["NAME", "SIZE", "MODIFIED", "STATUS", "AUTOBOOT", "LOG"]

/-- The width that a detailed listing keeps to. -/
def detailedWidth : Nat := 120

/-- A listing of scripts; a detailed one tells what stands in their way. -/
def scriptListing (detailed : Bool) (scripts : List ScriptRecord) : String :=
  if scripts.isEmpty then "No scripts"
  else if detailed then
    let t : Table := { head := scriptHeads ++ ["DETAILS"]
                       rows := scripts.map fun r => r.columns ++ [r.details] }
    t.textWithin detailedWidth
  else
    let t : Table := { head := scriptHeads, rows := scripts.map ScriptRecord.columns }
    t.text

/-- A text cut to a length, its last three characters dots. -/
def shortened (most : Nat) (s : String) : String :=
  if s.length ≤ most then s else String.ofList (s.toList.take (most - 3)) ++ "..."

/-- A listing of processes. -/
def processListing (processes : List ExternalProcess) : String :=
  if processes.isEmpty then "No script processes running"
  else
    let t : Table := { head := ["PID", "SCRIPT", "COMMAND"]
                       rows := processes.map fun p =>
                         [toString p.pid.toNat, p.name, shortened 60 p.cmdline] }
    t.text

end ScriptWarden
