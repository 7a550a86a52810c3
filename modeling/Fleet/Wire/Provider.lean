import Fleet.Failure
import Fleet.Settings
import Fleet.Wire.Instance

/-!
# Providers and settings on the wire
-/

namespace Fleet

open Json

namespace Provider

namespace Info

def toJson (i : Info) : Json :=
  .obj [("name", .str i.name), ("version", .str i.version), ("region", .str i.region)]

def ofJson? : Json → Option Info := record do
  let name ← field "name" asText
  let version ← field "version" asText
  let region ← fieldOr "region" "" asText
  return { name, version, region }

end Info

def Capability.toJson (c : Capability) : Json := .str c.name

def Capability.ofJson? (j : Json) : Option Capability := asName Capability.ofName? j

namespace Order

def toJson (o : Order) : Json :=
  .obj [("instance_id", .str o.instanceId), ("tenant_id", .str o.tenant), ("name", .str o.name),
    ("image", .str o.image), ("resources", o.resources.toJson), ("env", o.env.toJson),
    ("ports", ofItems Port.toJson o.ports), ("labels", o.labels.toJson)]

def ofJson? : Json → Option Order := record do
  let instanceId ← field "instance_id" asText
  let tenant ← field "tenant_id" asText
  let name ← field "name" asText
  let image ← field "image" asText
  let resources ← field "resources" Resources.ofJson?
  let env ← fieldOr "env" .empty Texts.ofJson?
  let ports ← fieldOr "ports" [] (asList Port.ofJson?)
  let labels ← fieldOr "labels" .empty Texts.ofJson?
  return { instanceId, tenant, name, image, resources, env, ports, labels }

end Order

namespace Provisioned

def toJson (p : Provisioned) : Json :=
  .obj [("provider_ref", .str p.ref), ("endpoints", ofItems Endpoint.toJson p.endpoints),
    ("metadata", p.metadata.toJson)]

def ofJson? : Json → Option Provisioned := record do
  let ref ← field "provider_ref" asText
  let endpoints ← field "endpoints" (asList Endpoint.ofJson?)
  let metadata ← fieldOr "metadata" .empty Texts.ofJson?
  return { ref, endpoints, metadata }

end Provisioned

namespace Status

def toJson (s : Status) : Json :=
  .obj ([("state", s.state.toJson), ("ready", .bool s.ready), ("restarts", ofNat s.restarts.toNat)] ++
    member "message" .str s.message ++ [("endpoints", ofItems Endpoint.toJson s.endpoints)])

def ofJson? : Json → Option Status := record do
  let state ← field "state" State.ofJson?
  let ready ← field "ready" asBool
  let restarts ← field "restarts" asWord32
  let message ← field? "message" asText
  let endpoints ← fieldOr "endpoints" [] (asList Endpoint.ofJson?)
  return { state, ready, restarts, message, endpoints }

end Status

def Command.replyToJson : (c : Command) → c.Reply → Json
  | .provision _, r => Provisioned.toJson r
  | .status _, r => Status.toJson r
  | _, _ => .null

end Provider

namespace Settings

def toJson (s : Settings) : Json :=
  .obj [("node_id", .str s.nodeId), ("default_provider", .str s.defaultProvider),
    ("max_instances_per_tenant", ofNat s.maxInstances.toNat),
    ("hook_timeout_ms", ofNat s.hookTimeoutMs.toNat), ("audit_enabled", .bool s.auditEnabled),
    ("metrics_enabled", .bool s.metricsEnabled)]

/-- Reads settings, none of which may be missing. -/
def ofJson? : Json → Option Settings := record do
  let nodeId ← field "node_id" asText
  let defaultProvider ← field "default_provider" asText
  let maxInstances ← field "max_instances_per_tenant" asWord64
  let hookTimeoutMs ← field "hook_timeout_ms" asWord64
  let auditEnabled ← field "audit_enabled" asBool
  let metricsEnabled ← field "metrics_enabled" asBool
  return { nodeId, defaultProvider, maxInstances, hookTimeoutMs, auditEnabled, metricsEnabled }

end Settings

instance : Wired Provider.Task := .named Provider.Task.name Provider.Task.ofName?
instance : Wired Provider.Info := ⟨Provider.Info.toJson, Provider.Info.ofJson?⟩
instance : Wired Provider.Capability := ⟨Provider.Capability.toJson, Provider.Capability.ofJson?⟩
instance : Wired Provider.Order := ⟨Provider.Order.toJson, Provider.Order.ofJson?⟩
instance : Wired Provider.Provisioned := ⟨Provider.Provisioned.toJson, Provider.Provisioned.ofJson?⟩
instance : Wired Provider.Status := ⟨Provider.Status.toJson, Provider.Status.ofJson?⟩
instance : Wired Settings := ⟨Settings.toJson, Settings.ofJson?⟩

end Fleet
