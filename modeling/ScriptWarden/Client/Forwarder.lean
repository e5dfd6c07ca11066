import ScriptWarden.Session.Hub
import ScriptWarden.Text.Utf8
import ScriptWarden.Wire.Event

/-!
# Forwarders

What one viewer is told of one session: what was kept of its output, then an acknowledgement if the
viewer asked for one, then the output as it comes, and the end. Characters that are cut by a
boundary between pieces are put together again. Output that passed the viewer by is told as such,
and a character that was cut there can not be completed.
-/

namespace ScriptWarden

/-- The forwarding of a session to a viewer. -/
structure Forwarder where
  script : String
  decoder : Utf8Decoder := {}
  /-- The events that are due and have not been queued for the viewer. -/
  due : List Event := []
  /-- Whether no more events become due. -/
  isOver : Bool := false
deriving DecidableEq, Repr, Inhabited

namespace Forwarder

/-- The event for output, if there is any. -/
def outputEvents (script data : String) : List Event :=
  if data.isEmpty then [] else [.output script data]

/-- The event for the end of a session. -/
def endEvent (script : String) (exit : Exit) : Event :=
  .processEnded script exit.code exit.signal exit.runtime.seconds

/-- Nothing more comes from the session; its end becomes due if it is known. -/
def finish (f : Forwarder) (exit : Option Exit) : Forwarder :=
  let (rest, decoder) := f.decoder.finish
  { f with
    decoder, isOver := true
    due := f.due ++ outputEvents f.script rest ++ (exit.map (endEvent f.script)).toList }

/-- Begin with what a viewer starts from, and an acknowledgement. -/
def begin (script : String) (s : Subscription) (acknowledgement : Option Event) : Forwarder :=
  let (replay, decoder) := ({} : Utf8Decoder).push s.history.flatten
  let f : Forwarder := { script, decoder, due := outputEvents script replay ++ acknowledgement.toList }
  match s.ended with
  | some exit => f.finish (some exit)
  | none => f

/-- Take what came from the session. -/
def take (f : Forwarder) : Received SessionEvent → Forwarder
  | .value (.output chunk) =>
    let (data, decoder) := f.decoder.push chunk
    { f with decoder, due := f.due ++ outputEvents f.script data }
  | .value (.ended exit) => f.finish (some exit)
  | .lagged missed =>
    let (rest, decoder) := f.decoder.finish
    { f with
      decoder
      due := f.due ++ outputEvents f.script rest ++
        [.outputDropped f.script (UInt64.ofNat missed)] }
  | .closed => f.finish none
  | .empty => f

/-- All events for a viewer, by what it starts from and what comes from the session. -/
def events (script : String) (s : Subscription) (acknowledgement : Option Event)
    (received : List (Received SessionEvent)) : List Event :=
  (received.foldl (fun f got => if f.isOver then f else f.take got)
    (begin script s acknowledgement)).due

end Forwarder

end ScriptWarden
