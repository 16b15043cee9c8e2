import ProtoSchema.Transport

/-!
# The command line

The program reads a request from its input and writes the response to its output. A request that
fails is answered with a response that carries the error; only an input that is no request, or a
broken stream, makes the program fail.
-/

namespace ProtoSchema.CommandLine

open Plugin

/-- The variable that sets how much is logged. -/
def logVariable : String := "PROTOC_GEN_SQLC_LOG"

/-- The least severe level that is shown, by the setting of the variable. -/
def logLevel (setting : Option String) : Level :=
  (setting.bind Level.ofText?).getD .warn

/-- Answers a request; an error becomes the error of the response. -/
def respond : Responder := fun request => do
  match ← generate request with
  | .ok response => return .ok response
  | .error error =>
    Logged.note (.generationFailed error)
    return .ok { error := some error.message }

/-- What a run of the program leaves behind. -/
structure Result where
  exitCode : UInt8
  output : List UInt8
  /-- The lines about a failure of the program. -/
  complaints : List String
  /-- The events that are shown. -/
  events : List Event
deriving DecidableEq, Repr, Inhabited

/-- The result of a run with a delivery and its events. -/
def Result.ofDelivery (level : Level) (d : Logged Delivery) : Result where
  output := d.value.written
  events := d.events.filter (·.isShownAt level)
  exitCode :=
    match d.value.result with
    | .ok _ => 0
    | .error _ => 1
  complaints :=
    match d.value.result with
    | .ok _ => []
    | .error error => ["protoc-gen-sqlc: " ++ error.message]

/-- Runs the program on an input, with the setting of the log variable. -/
def run (setting : Option String) (input : List UInt8) : Result :=
  .ofDelivery (logLevel setting) (transport respond { bytes := input } {})

end ProtoSchema.CommandLine
