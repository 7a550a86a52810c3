import Fleet.Failure
import Fleet.Json.Wire

/-!
# Failures on the wire

A failure is described by the name of its kind and its message; a request's failure has its code beside
them, and a failing provider its own description.
-/

namespace Fleet

open Json

/-- The description of an error by a name and a message. -/
def described (name message : String) (more : List (String × Json)) : Json :=
  .obj ([("error", .str name), ("message", .str message)] ++ more)

/-- Errors that are described on the wire. -/
class Describes (ε : Type) where
  /-- The description of an error. -/
  toJson : ε → Json

namespace Provider.Error

def name : Error → String
  | .unavailable _ => "Unavailable"
  | .workloadNotFound _ => "WorkloadNotFound"
  | .unsupported _ => "Unsupported"
  | .rejected _ => "Rejected"

/-- The error of a kind by its name, with what it is about. -/
def ofName? (name subject : String) : Option Error :=
  [unavailable subject, workloadNotFound subject, unsupported subject, rejected subject].find?
    (·.name = name)

instance : Describes Error := ⟨fun e => described e.name e.message []⟩

end Provider.Error

def BusError.name : BusError → String
  | .closed => "Closed"
  | .handler _ => "Handler"

instance : Describes BusError := ⟨fun e => described e.name e.message []⟩

/-- What a handler fails with is written as its text. -/
instance : Wired BusError where
  toJson
    | .handler text => .str text
    | .closed => .null
  ofJson? j := (asText j).map .handler

namespace Failure

def Kind.name : Kind → String
  | .notFound => "NotFound"
  | .alreadyExists => "AlreadyExists"
  | .invalidState => "InvalidState"
  | .unauthorized => "Unauthorized"
  | .providerNotFound => "ProviderNotFound"
  | .providerUnavailable => "ProviderUnavailable"
  | .conflict => "Conflict"
  | .quotaExceeded => "QuotaExceeded"
  | .validation => "ValidationError"
  | .storage => "StorageError"
  | .eventBus => "EventBus"
  | .metrics => "Metrics"

/-- What a failure says of the provider that caused it. -/
def causeMembers : Failure → List (String × Json)
  | .providerFailed during cause =>
    [("operation", .str during.name), ("source", Describes.toJson cause)]
  | _ => []

instance : Describes Failure :=
  ⟨fun f => described f.kind.name f.message (("code", .str f.code) :: f.causeMembers)⟩

end Failure

/-- Writes a result: the value as `ok`, or the description of the error. -/
def resultToJson {ε α : Type} [Describes ε] [Wired α] : Except ε α → Json
  | .ok a => .obj [("ok", Wired.toJson a)]
  | .error e => Describes.toJson e

end Fleet
