import Fleet.Audit
import Fleet.Bus.Basic
import Fleet.Wire.Instance

/-!
# Events, reports and audit records on the wire

A kind of event is read from any name: one that no topic has is the unknown kind. Payloads are held in
canonical form.
-/

namespace Fleet

open Json

namespace Payload

def toJson (p : Payload) : Json := ofDict id p

/-- Reads a payload, in canonical form. -/
def ofJson? (j : Json) : Option Payload := asDict canonical? j

end Payload

def Kind.toJson (k : Kind) : Json := .str k.name

def Kind.ofJson? (j : Json) : Option Kind := asName (some ∘ Kind.ofName) j

/-- The member for a payload, which is left out when the payload is empty. -/
def payloadMember (name : String) (p : Payload) : List (String × Json) :=
  if p.isEmpty then [] else [(name, p.toJson)]

namespace Event

def toJson (e : Event) : Json :=
  .obj ([("event_id", .str e.id), ("event_type", e.kind.toJson), ("tenant_id", .str e.tenant)] ++
    member "instance_id" .str e.instanceId ++ member "actor_id" .str e.actor ++
    payloadMember "payload" e.payload ++ [("timestamp", e.timestamp.toJson)])

def ofJson? : Json → Option Event := record do
  let id ← field "event_id" asText
  let kind ← field "event_type" Kind.ofJson?
  let tenant ← field "tenant_id" asText
  let instanceId ← field? "instance_id" asText
  let actor ← field? "actor_id" asText
  let payload ← fieldOr "payload" .empty Payload.ofJson?
  let timestamp ← field "timestamp" Instant.ofJson?
  return { id, kind, tenant, instanceId, actor, payload, timestamp }

end Event

namespace ErrorReport

def toJson (r : ErrorReport) : Json :=
  .obj [("error_code", .str r.code), ("message", .str r.message),
    ("details", orNull Texts.toJson r.details), ("timestamp", r.timestamp.toJson)]

def ofJson? : Json → Option ErrorReport := record do
  let code ← field "error_code" asText
  let message ← field "message" asText
  let details ← nullableField "details" Texts.ofJson?
  let timestamp ← field "timestamp" Instant.ofJson?
  return { code, message, details, timestamp }

end ErrorReport

/-- Writes an audit profile, with the category of what it is about. -/
def Audit.Profile.toJson (p : Profile) : Json :=
  .obj [("action", .str p.action), ("severity", .str p.severity.name),
    ("outcome", .str p.outcome.name), ("resource", .str p.resource.name),
    ("category", .str p.resource.category)]

namespace Audit.Record

def toJson (r : Record) : Json :=
  .obj ([("action", .str r.action), ("resource", .str r.resource), ("category", .str r.category),
    ("resource_id", .str r.resourceId)] ++ payloadMember "metadata" r.metadata ++
    [("outcome", .str r.outcome), ("severity", .str r.severity)] ++ member "reason" .str r.reason)

def ofJson? : Json → Option Record := record do
  let action ← field "action" asText
  let resource ← field "resource" asText
  let category ← field "category" asText
  let resourceId ← field "resource_id" asText
  let metadata ← fieldOr "metadata" .empty Payload.ofJson?
  let outcome ← field "outcome" asText
  let severity ← field "severity" asText
  let reason ← field? "reason" asText
  return { action, resource, category, resourceId, metadata, outcome, severity, reason }

end Audit.Record

namespace Bus.SubscriptionId

def toJson (id : SubscriptionId) : Json := ofNat id.number.toNat

def ofJson? (j : Json) : Option SubscriptionId := (asWord64 j).map .mk

end Bus.SubscriptionId

instance : Wired Hook := .named Hook.name Hook.ofName?
instance : Wired Kind := ⟨Kind.toJson, Kind.ofJson?⟩
instance : Wired Event := ⟨Event.toJson, Event.ofJson?⟩
instance : Wired ErrorReport := ⟨ErrorReport.toJson, ErrorReport.ofJson?⟩
instance : Wired Audit.Record := ⟨Audit.Record.toJson, Audit.Record.ofJson?⟩
instance : Wired Bus.SubscriptionId := ⟨Bus.SubscriptionId.toJson, Bus.SubscriptionId.ofJson?⟩

end Fleet
