import Fleet.Instant.Basic
import Fleet.Json.Basic

/-!
# Events

An event says that something happened to an instance, to its surroundings or to its tenant. Its kind
is one of the known topics, or unknown when it was read under a name that this library does not know.
-/

namespace Fleet

/-- What an event can be about. -/
inductive Topic where
  | instanceCreated
  | instanceStarted
  | instanceStopped
  | instanceFailed
  | instanceDeleted
  | instanceScaled
  | instanceSuspended
  | instanceUnsuspended
  | deployStarted
  | deploySucceeded
  | deployFailed
  | deployRolledBack
  | healthPassed
  | healthFailed
  | healthDegraded
  | healthRecovered
  | domainAdded
  | domainVerified
  | domainRemoved
  | certProvisioned
  | certExpiring
  | tenantCreated
  | tenantSuspended
  | tenantDeleted
  | quotaExceeded
  deriving DecidableEq, Repr, Inhabited

namespace Topic

def all : List Topic :=
  [.instanceCreated, .instanceStarted, .instanceStopped, .instanceFailed, .instanceDeleted,
   .instanceScaled, .instanceSuspended, .instanceUnsuspended, .deployStarted, .deploySucceeded,
   .deployFailed, .deployRolledBack, .healthPassed, .healthFailed, .healthDegraded,
   .healthRecovered, .domainAdded, .domainVerified, .domainRemoved, .certProvisioned,
   .certExpiring, .tenantCreated, .tenantSuspended, .tenantDeleted, .quotaExceeded]

def name : Topic → String
  | .instanceCreated => "instance.created"
  | .instanceStarted => "instance.started"
  | .instanceStopped => "instance.stopped"
  | .instanceFailed => "instance.failed"
  | .instanceDeleted => "instance.deleted"
  | .instanceScaled => "instance.scaled"
  | .instanceSuspended => "instance.suspended"
  | .instanceUnsuspended => "instance.unsuspended"
  | .deployStarted => "deploy.started"
  | .deploySucceeded => "deploy.succeeded"
  | .deployFailed => "deploy.failed"
  | .deployRolledBack => "deploy.rolled_back"
  | .healthPassed => "health.passed"
  | .healthFailed => "health.failed"
  | .healthDegraded => "health.degraded"
  | .healthRecovered => "health.recovered"
  | .domainAdded => "domain.added"
  | .domainVerified => "domain.verified"
  | .domainRemoved => "domain.removed"
  | .certProvisioned => "cert.provisioned"
  | .certExpiring => "cert.expiring"
  | .tenantCreated => "tenant.created"
  | .tenantSuspended => "tenant.suspended"
  | .tenantDeleted => "tenant.deleted"
  | .quotaExceeded => "quota.exceeded"

def ofName? (s : String) : Option Topic := all.find? (·.name = s)

theorem ofName?_name (t : Topic) : ofName? t.name = some t := by
  cases t <;> decide

end Topic

inductive Kind where
  | known (topic : Topic)
  | unknown
  deriving DecidableEq, Repr, Inhabited

namespace Kind

def name : Kind → String
  | .known t => t.name
  | .unknown => "unknown"

/-- The kind of a name; every name has one. -/
def ofName (s : String) : Kind :=
  match Topic.ofName? s with
  | some t => .known t
  | none => .unknown

theorem ofName_name (k : Kind) : ofName k.name = k := by
  cases k with
  | known t => simp [ofName, name, Topic.ofName?_name]
  | unknown => decide

end Kind

/-- Something that happened, with the tenant it belongs to. -/
structure Event where
  id : String
  kind : Kind
  tenant : String
  instanceId : Option String := none
  actor : Option String := none
  payload : Payload := .empty
  timestamp : Instant
  deriving DecidableEq, Inhabited

namespace Event

def withInstance (e : Event) (id : String) : Event := { e with instanceId := some id }

def withActor (e : Event) (actor : String) : Event := { e with actor := some actor }

def withPayload (e : Event) (payload : Payload) : Event := { e with payload }

/-- The event with one member of its payload set. -/
def withField (e : Event) (name : String) (value : Json) : Event :=
  { e with payload := e.payload.insert name value }

end Event

end Fleet
