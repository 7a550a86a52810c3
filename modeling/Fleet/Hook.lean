import Fleet.Event

/-!
# Hooks

The points at which plugins are called: one for each topic of an event, and one when the control plane
shuts down. An event of unknown kind has no hook.
-/

namespace Fleet

/-- A point at which plugins are called. -/
inductive Hook where
  | on (topic : Topic)
  | shutdown
  deriving DecidableEq, Repr, Inhabited

namespace Hook

/-- All hooks: those of the topics in their order, then the one for shutdown. -/
def all : List Hook := Topic.all.map .on ++ [.shutdown]

def name : Hook → String
  | .on .instanceCreated => "on_instance_created"
  | .on .instanceStarted => "on_instance_started"
  | .on .instanceStopped => "on_instance_stopped"
  | .on .instanceFailed => "on_instance_failed"
  | .on .instanceDeleted => "on_instance_deleted"
  | .on .instanceScaled => "on_instance_scaled"
  | .on .instanceSuspended => "on_instance_suspended"
  | .on .instanceUnsuspended => "on_instance_unsuspended"
  | .on .deployStarted => "on_deploy_started"
  | .on .deploySucceeded => "on_deploy_succeeded"
  | .on .deployFailed => "on_deploy_failed"
  | .on .deployRolledBack => "on_deploy_rolled_back"
  | .on .healthPassed => "on_health_check_passed"
  | .on .healthFailed => "on_health_check_failed"
  | .on .healthDegraded => "on_health_degraded"
  | .on .healthRecovered => "on_health_recovered"
  | .on .domainAdded => "on_domain_added"
  | .on .domainVerified => "on_domain_verified"
  | .on .domainRemoved => "on_domain_removed"
  | .on .certProvisioned => "on_cert_provisioned"
  | .on .certExpiring => "on_cert_expiring"
  | .on .tenantCreated => "on_tenant_created"
  | .on .tenantSuspended => "on_tenant_suspended"
  | .on .tenantDeleted => "on_tenant_deleted"
  | .on .quotaExceeded => "on_quota_exceeded"
  | .shutdown => "on_shutdown"

def ofName? (s : String) : Option Hook := all.find? (·.name = s)

theorem ofName?_name (h : Hook) : ofName? h.name = some h := by
  cases h with
  | on t => cases t <;> decide
  | shutdown => decide

end Hook

def Kind.hook? : Kind → Option Hook
  | .known topic => some (.on topic)
  | .unknown => none

end Fleet
