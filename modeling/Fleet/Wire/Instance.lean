import Fleet.Caller
import Fleet.Instant.Text
import Fleet.Json.Wire
import Fleet.Request

/-!
# Instances, callers and requests on the wire
-/

namespace Fleet

open Json

def Instant.toJson (t : Instant) : Json := .str t.toText

def Instant.ofJson? (j : Json) : Option Instant := (asText j).bind Instant.ofText?

def Texts.toJson (d : Texts) : Json := ofDict .str d

def Texts.ofJson? (j : Json) : Option Texts := asDict asText j

def State.toJson (s : State) : Json := .str s.name

def State.ofJson? (j : Json) : Option State := asName State.ofName? j

namespace Resources

def toJson (r : Resources) : Json :=
  .obj ([("cpu_millis", ofNat r.cpuMillis.toNat), ("memory_mb", ofNat r.memoryMb.toNat),
    ("disk_mb", ofNat r.diskMb.toNat), ("replicas", ofNat r.replicas.toNat)] ++
    member "gpu" .str r.gpu)

def ofJson? : Json → Option Resources := record do
  let cpuMillis ← field "cpu_millis" asWord32
  let memoryMb ← field "memory_mb" asWord32
  let diskMb ← fieldOr "disk_mb" 0 asWord32
  let replicas ← field "replicas" asWord32
  let gpu ← field? "gpu" asText
  return { cpuMillis, memoryMb, diskMb, replicas, gpu }

end Resources

namespace Port

def toJson (p : Port) : Json :=
  .obj ([("container", ofNat p.container.toNat)] ++
    member "host" (fun h : UInt16 => ofNat h.toNat) p.host ++ [("protocol", .str p.protocol)])

def ofJson? : Json → Option Port := record do
  let container ← field "container" asWord16
  let host ← field? "host" asWord16
  let protocol ← field "protocol" asText
  return { container, host, protocol }

end Port

namespace Endpoint

def toJson (e : Endpoint) : Json :=
  .obj [("url", .str e.url), ("port", ofNat e.port.toNat), ("protocol", .str e.protocol),
    ("public", .bool e.isPublic)]

def ofJson? : Json → Option Endpoint := record do
  let url ← field "url" asText
  let port ← field "port" asWord16
  let protocol ← field "protocol" asText
  let isPublic ← field "public" asBool
  return { url, port, protocol, isPublic }

end Endpoint

namespace Instance

def toJson (i : Instance) : Json :=
  .obj ([("instance_id", .str i.id), ("tenant_id", .str i.tenant), ("name", .str i.name),
    ("slug", .str i.slug), ("provider_name", .str i.provider), ("provider_ref", .str i.providerRef),
    ("region", .str i.region), ("state", i.state.toJson), ("image", .str i.image),
    ("resources", i.resources.toJson), ("env", i.env.toJson), ("ports", ofItems Port.toJson i.ports),
    ("endpoints", ofItems Endpoint.toJson i.endpoints), ("labels", i.labels.toJson)] ++
    member "current_release" .str i.currentRelease ++
    member "suspended_at" Instant.toJson i.suspendedAt ++
    [("created_at", i.createdAt.toJson), ("updated_at", i.updatedAt.toJson),
      ("version", ofNat i.version.toNat)])

def ofJson? : Json → Option Instance := record do
  let id ← field "instance_id" asText
  let tenant ← field "tenant_id" asText
  let name ← field "name" asText
  let slug ← field "slug" asText
  let provider ← field "provider_name" asText
  let providerRef ← fieldOr "provider_ref" "" asText
  let region ← fieldOr "region" "" asText
  let state ← field "state" State.ofJson?
  let image ← field "image" asText
  let resources ← field "resources" Resources.ofJson?
  let env ← fieldOr "env" .empty Texts.ofJson?
  let ports ← fieldOr "ports" [] (asList Port.ofJson?)
  let endpoints ← fieldOr "endpoints" [] (asList Endpoint.ofJson?)
  let labels ← fieldOr "labels" .empty Texts.ofJson?
  let currentRelease ← field? "current_release" asText
  let suspendedAt ← field? "suspended_at" Instant.ofJson?
  let createdAt ← field "created_at" Instant.ofJson?
  let updatedAt ← field "updated_at" Instant.ofJson?
  let version ← field "version" asWord64
  return { id, tenant, name, slug, provider, providerRef, region, state, image, resources, env, ports,
           endpoints, labels, currentRelease, suspendedAt, createdAt, updatedAt, version }

end Instance

namespace Caller

def toJson (c : Caller) : Json :=
  .obj ([("subject_id", .str c.subject), ("tenant_id", .str c.tenant)] ++
    member "email" .str c.email ++ member "name" .str c.name ++
    [("roles", ofItems .str c.roles), ("metadata", c.metadata.toJson)])

def ofJson? : Json → Option Caller := record do
  let subject ← field "subject_id" asText
  let tenant ← field "tenant_id" asText
  let email ← field? "email" asText
  let name ← field? "name" asText
  let roles ← fieldOr "roles" [] (asList asText)
  let metadata ← fieldOr "metadata" .empty Texts.ofJson?
  return { subject, tenant, email, name, roles, metadata }

end Caller

namespace CreateRequest

def toJson (r : CreateRequest) : Json :=
  .obj ([("name", .str r.name)] ++ member "provider_name" .str r.provider ++
    [("region", .str r.region), ("image", .str r.image), ("resources", r.resources.toJson),
      ("env", r.env.toJson), ("ports", ofItems Port.toJson r.ports), ("labels", r.labels.toJson)])

def ofJson? : Json → Option CreateRequest := record do
  let name ← field "name" asText
  let provider ← field? "provider_name" asText
  let region ← fieldOr "region" "" asText
  let image ← field "image" asText
  let resources ← fieldOr "resources" {} Resources.ofJson?
  let env ← fieldOr "env" .empty Texts.ofJson?
  let ports ← fieldOr "ports" [] (asList Port.ofJson?)
  let labels ← fieldOr "labels" .empty Texts.ofJson?
  return { name, provider, region, image, resources, env, ports, labels }

end CreateRequest

namespace UpdateRequest

def toJson (r : UpdateRequest) : Json :=
  .obj (member "name" .str r.name ++ member "env" Texts.toJson r.env ++
    member "labels" Texts.toJson r.labels)

def ofJson? : Json → Option UpdateRequest := record do
  let name ← field? "name" asText
  let env ← field? "env" Texts.ofJson?
  let labels ← field? "labels" Texts.ofJson?
  return { name, env, labels }

end UpdateRequest

namespace ScaleRequest

def wordToJson (w : UInt32) : Json := ofNat w.toNat

def toJson (r : ScaleRequest) : Json :=
  .obj (member "cpu_millis" wordToJson r.cpuMillis ++ member "memory_mb" wordToJson r.memoryMb ++
    member "replicas" wordToJson r.replicas)

def ofJson? : Json → Option ScaleRequest := record do
  let cpuMillis ← field? "cpu_millis" asWord32
  let memoryMb ← field? "memory_mb" asWord32
  let replicas ← field? "replicas" asWord32
  return { cpuMillis, memoryMb, replicas }

end ScaleRequest

namespace Query

def toJson (q : Query) : Json :=
  .obj (member "state" State.toJson q.state ++ member "label" .str q.label ++
    member "provider" .str q.provider ++ member "cursor" .str q.cursor ++
    [("limit", ofNat q.limit.toNat)])

def ofJson? : Json → Option Query := record do
  let state ← field? "state" State.ofJson?
  let label ← field? "label" asText
  let provider ← field? "provider" asText
  let cursor ← field? "cursor" asText
  let limit ← fieldOr "limit" 0 asWord64
  return { state, label, provider, cursor, limit }

end Query

namespace Page

def toJson (p : Page) : Json :=
  .obj ([("items", ofItems Instance.toJson p.items)] ++ member "next_cursor" .str p.nextCursor ++
    [("total", ofNat p.total)])

def ofJson? : Json → Option Page := record do
  let items ← field "items" (asList Instance.ofJson?)
  let nextCursor ← field? "next_cursor" asText
  let total ← field "total" (asNat UInt64.size)
  return { items, nextCursor, total }

end Page

instance : Wired Instant := ⟨Instant.toJson, Instant.ofJson?⟩
instance : Wired State := ⟨State.toJson, State.ofJson?⟩
instance : Wired Resources := ⟨Resources.toJson, Resources.ofJson?⟩
instance : Wired Port := ⟨Port.toJson, Port.ofJson?⟩
instance : Wired Endpoint := ⟨Endpoint.toJson, Endpoint.ofJson?⟩
instance : Wired Instance := ⟨Instance.toJson, Instance.ofJson?⟩
instance : Wired Caller := ⟨Caller.toJson, Caller.ofJson?⟩
instance : Wired CreateRequest := ⟨CreateRequest.toJson, CreateRequest.ofJson?⟩
instance : Wired UpdateRequest := ⟨UpdateRequest.toJson, UpdateRequest.ofJson?⟩
instance : Wired ScaleRequest := ⟨ScaleRequest.toJson, ScaleRequest.ofJson?⟩
instance : Wired Query := ⟨Query.toJson, Query.ofJson?⟩
instance : Wired Page := ⟨Page.toJson, Page.ofJson?⟩

end Fleet
