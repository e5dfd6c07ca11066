import ScriptWarden.Fault

/-!
# HTTP status codes

The status that an answer carries for a fault.
-/

namespace ScriptWarden

/-- The status code for a fault. -/
def Fault.httpStatus : Fault → Nat
  | .notFound _ => 404
  | .busy _ | .alreadyRunning _ | .notRunning _ | .inputBacklog _ | .inputClosed _ => 409
  | .badName _ | .notUtf8 _ | .refused _ | .notExecutable .. | .notExternal _ => 400
  | .spawnFailure .. | .io _ => 500

end ScriptWarden
