import Fleet.Dict
import Fleet.Lifecycle
import Fleet.Instant.Basic
import Fleet.Text.Slug

/-!
# Instances

An instance is an application that a tenant runs: what to run, on which provider, with which
resources, and where in its life it is. Its `version` is the stamp that the store raises with each
write.
-/

namespace Fleet

/-- Names with a text each: variables, labels, details. -/
abbrev Texts := Dict String String

/-- The resources an instance asks for. -/
structure Resources where
  cpuMillis : UInt32 := 250
  memoryMb : UInt32 := 256
  diskMb : UInt32 := 0
  replicas : UInt32 := 1
  gpu : Option String := none
  deriving DecidableEq, Repr, Inhabited

/-- A port of the application, and the port that exposes it on the host if one is given. -/
structure Port where
  container : UInt16
  host : Option UInt16 := none
  protocol : String
  deriving DecidableEq, Repr, Inhabited

namespace Port

/-- A TCP port that the host does not expose under another number. -/
def tcp (container : UInt16) : Port := { container, protocol := "tcp" }

/-- The number under which the port is reached. -/
def exposed (p : Port) : UInt16 := p.host.getD p.container

end Port

/-- An address at which an instance is reached. -/
structure Endpoint where
  url : String
  port : UInt16
  protocol : String
  isPublic : Bool
  deriving DecidableEq, Repr, Inhabited

structure Instance where
  id : String
  tenant : String
  name : String
  slug : String
  provider : String
  providerRef : String := ""
  region : String := ""
  state : State := .provisioning
  image : String
  resources : Resources := {}
  env : Texts := .empty
  ports : List Port := []
  endpoints : List Endpoint := []
  labels : Texts := .empty
  currentRelease : Option String := none
  suspendedAt : Option Instant := none
  createdAt : Instant
  updatedAt : Instant
  version : UInt64 := 0
  deriving DecidableEq, Inhabited

namespace Instance

/-- The record of an instance that is new at a moment: not yet stored, not yet provisioned. -/
def fresh (id tenant name image provider : String) (now : Instant) : Instance :=
  { id, tenant, name, image, provider, slug := Text.slug name, createdAt := now, updatedAt := now }

def isSuspended (i : Instance) : Bool := i.suspendedAt.isSome

/-- The record with its last change at a moment. -/
def touch (i : Instance) (now : Instant) : Instance := { i with updatedAt := now }

/-- Whether the labels answer a filter: `key=value` asks for that very value, split at the first
equals sign, and a filter without one asks whether the key is there. -/
def matchesLabel (i : Instance) (filter : String) : Bool :=
  let key := filter.toList.takeWhile (· ≠ '=')
  match filter.toList.dropWhile (· ≠ '=') with
  | [] => i.labels.contains filter
  | _ :: value => i.labels.get? (String.ofList key) = some (String.ofList value)

end Instance

end Fleet
