import Fleet.Hook
import Fleet.Json.Writer

/-!
# The audit trail

Every event of a known topic has an audit profile: what was done, to what, how it ended and how grave
that is. The action of a topic is its name behind a prefix (`actionOf_eq`). An audit record joins the
profile with the event; its metadata holds the tenant, the actor and the instance of the event, and then
every member of the payload, which replaces one of the same name. A trail hands the records of the enabled
actions to its recorder, and goes on when the recorder refuses one.
-/

namespace Fleet.Audit

inductive Severity where
  | info
  | warning
  | critical
  deriving DecidableEq, Repr, Inhabited

def Severity.name : Severity → String
  | .info => "info"
  | .warning => "warning"
  | .critical => "critical"

/-- How what is reported ended. -/
inductive Outcome where
  | success
  | failure
  deriving DecidableEq, Repr, Inhabited

def Outcome.name : Outcome → String
  | .success => "success"
  | .failure => "failure"

/-- What an event is about. -/
inductive Resource where
  | application
  | deployment
  | healthCheck
  | domain
  | certificate
  | tenant
  | quota
  deriving DecidableEq, Repr, Inhabited

def Resource.name : Resource → String
  | .application => "instance"
  | .deployment => "deployment"
  | .healthCheck => "health_check"
  | .domain => "domain"
  | .certificate => "certificate"
  | .tenant => "tenant"
  | .quota => "quota"

def Resource.category : Resource → String
  | .application => "instance"
  | .deployment => "deploy"
  | .healthCheck => "health"
  | .domain | .certificate => "network"
  | .tenant | .quota => "admin"

/-- The fixed part of the audit records of a topic. -/
structure Profile where
  action : String
  severity : Severity
  outcome : Outcome
  resource : Resource
  deriving DecidableEq, Repr

def resourceOf : Topic → Resource
  | .instanceCreated | .instanceStarted | .instanceStopped | .instanceFailed | .instanceDeleted
  | .instanceScaled | .instanceSuspended | .instanceUnsuspended => .application
  | .deployStarted | .deploySucceeded | .deployFailed | .deployRolledBack => .deployment
  | .healthPassed | .healthFailed | .healthDegraded | .healthRecovered => .healthCheck
  | .domainAdded | .domainVerified | .domainRemoved => .domain
  | .certProvisioned | .certExpiring => .certificate
  | .tenantCreated | .tenantSuspended | .tenantDeleted => .tenant
  | .quotaExceeded => .quota

def severityOf : Topic → Severity
  | .instanceFailed | .deployFailed | .healthFailed => .critical
  | .instanceSuspended | .deployRolledBack | .healthDegraded | .certExpiring | .tenantSuspended
  | .quotaExceeded => .warning
  | _ => .info

def outcomeOf : Topic → Outcome
  | .instanceFailed | .deployFailed | .healthFailed | .healthDegraded | .certExpiring
  | .quotaExceeded => .failure
  | _ => .success

/-- The action under which a topic is recorded. -/
def actionOf : Topic → String
  | .instanceCreated => "ctrlplane.instance.created"
  | .instanceStarted => "ctrlplane.instance.started"
  | .instanceStopped => "ctrlplane.instance.stopped"
  | .instanceFailed => "ctrlplane.instance.failed"
  | .instanceDeleted => "ctrlplane.instance.deleted"
  | .instanceScaled => "ctrlplane.instance.scaled"
  | .instanceSuspended => "ctrlplane.instance.suspended"
  | .instanceUnsuspended => "ctrlplane.instance.unsuspended"
  | .deployStarted => "ctrlplane.deploy.started"
  | .deploySucceeded => "ctrlplane.deploy.succeeded"
  | .deployFailed => "ctrlplane.deploy.failed"
  | .deployRolledBack => "ctrlplane.deploy.rolled_back"
  | .healthPassed => "ctrlplane.health.passed"
  | .healthFailed => "ctrlplane.health.failed"
  | .healthDegraded => "ctrlplane.health.degraded"
  | .healthRecovered => "ctrlplane.health.recovered"
  | .domainAdded => "ctrlplane.domain.added"
  | .domainVerified => "ctrlplane.domain.verified"
  | .domainRemoved => "ctrlplane.domain.removed"
  | .certProvisioned => "ctrlplane.cert.provisioned"
  | .certExpiring => "ctrlplane.cert.expiring"
  | .tenantCreated => "ctrlplane.tenant.created"
  | .tenantSuspended => "ctrlplane.tenant.suspended"
  | .tenantDeleted => "ctrlplane.tenant.deleted"
  | .quotaExceeded => "ctrlplane.quota.exceeded"

theorem actionOf_eq (t : Topic) : actionOf t = "ctrlplane." ++ t.name := by
  cases t <;> rfl

def Profile.ofTopic (t : Topic) : Profile :=
  { action := actionOf t, severity := severityOf t, outcome := outcomeOf t, resource := resourceOf t }

/-- The audit profile of a hook; the hook for shutdown has none. -/
def Profile.ofHook? : Hook → Option Profile
  | .on t => some (.ofTopic t)
  | .shutdown => none

/-- An entry of the audit trail. -/
structure Record where
  action : String
  resource : String
  category : String
  resourceId : String
  metadata : Payload := .empty
  outcome : String
  severity : String
  reason : Option String := none
  deriving DecidableEq, Inhabited

/-- The metadata that tells whose event it is. -/
def attribution (e : Event) : Payload :=
  let d : Payload := Dict.empty.insert "tenant_id" (.str e.tenant)
  let d := match e.actor with
    | some actor => d.insert "actor_id" (.str actor)
    | none => d
  match e.instanceId with
  | some id => d.insert "instance_id" (.str id)
  | none => d

/-- The reason that a payload gives: the text of its error, or the written form of an error that is
no text. -/
def reasonOf (payload : Payload) : Option String :=
  (payload.get? "error").map fun
    | .str text => text
    | other => other.write

def Record.of (p : Profile) (e : Event) : Record :=
  { action := p.action
    resource := p.resource.name
    category := p.resource.category
    resourceId := e.instanceId.getD e.id
    metadata := e.payload.entries.foldl (fun d m => d.insert m.1 m.2) (attribution e)
    outcome := p.outcome.name
    severity := p.severity.name
    reason := reasonOf e.payload }

/-- The fields of the log line of a record: its metadata as one text, and an empty reason when it has
none. -/
def Record.logFields (r : Record) : List (String × String) :=
  [("message", "Audit event"), ("action", r.action), ("resource", r.resource),
   ("resource_id", r.resourceId), ("outcome", r.outcome), ("severity", r.severity),
   ("reason", r.reason.getD ""), ("metadata", (Json.obj r.metadata.entries).write)]

/-- Where records go: those that are not refused are kept, in order. -/
structure Recorder where
  refuses : Record → Bool := fun _ => false
  kept : List Record := []

/-- Hands a record to the recorder; whether it was kept comes with it. -/
def Recorder.record (r : Recorder) (entry : Record) : Bool × Recorder :=
  if r.refuses entry then (false, r) else (true, { r with kept := r.kept ++ [entry] })

/-- An audit trail: a recorder, and the actions that are recorded if not all are. -/
structure Trail where
  recorder : Recorder := {}
  enabled : Option (List String) := none

namespace Trail

def isEnabled (t : Trail) (action : String) : Bool :=
  match t.enabled with
  | some actions => actions.contains action
  | none => true

/-- The record that a hook called with an event asks for, if any. -/
def entry? (t : Trail) (h : Hook) (e : Event) : Option Record :=
  match Profile.ofHook? h with
  | some p => if t.isEnabled p.action then some (.of p e) else none
  | none => none

/-- Records an event under a hook; the record and whether it was kept come with it. -/
def observe (t : Trail) (h : Hook) (e : Event) : Option (Record × Bool) × Trail :=
  match t.entry? h e with
  | some entry =>
    let (kept, recorder) := t.recorder.record entry
    (some (entry, kept), { t with recorder })
  | none => (none, t)

end Trail

end Fleet.Audit
