import Fleet.Caller
import Fleet.Provider.Basic
import Fleet.Text.Quoted

/-!
# Failures

Everything that a request can fail with, by its cause. A failure has a kind, the kind has a code and
a lead, and the message is the lead followed by the details of the cause.
-/

namespace Fleet

/-- Why the bus did not do as it was told. -/
inductive BusError where
  | closed
  | handler (reason : String)
  deriving DecidableEq, Repr, Inhabited

def BusError.message : BusError → String
  | .closed => "event bus is closed"
  | .handler reason => "event handler failed: " ++ reason

/-- What the provider was called for. -/
inductive Undertaking where
  | task (t : Provider.Task)
  | suspend
  | unsuspend
  deriving DecidableEq, Repr, Inhabited

namespace Undertaking

def name : Undertaking → String
  | .task t => t.name
  | .suspend => "suspend"
  | .unsuspend => "unsuspend"

end Undertaking

/-- What is wrong with a request or a setting. -/
inductive Invalid where
  | blankName
  | blankImage
  | nameWithoutSlug
  | emptyId
  | malformedId (id : String)
  | emptySlug
  | unknownCursor (cursor : String)
  | notNumber (key text : String)
  | notPositive (key : String)
  | notBoolean (key text : String)
  deriving DecidableEq, Repr, Inhabited

/-- The text that refuses an identifier. -/
def malformedIdText (id : String) : String := "Invalid identifier: " ++ Text.quoted id

def Invalid.message : Invalid → String
  | .blankName => "Instance name cannot be empty"
  | .blankImage => "Instance image cannot be empty"
  | .nameWithoutSlug => "Instance name must contain a letter or digit"
  | .emptyId => "Instance ID cannot be empty"
  | .malformedId id => malformedIdText id
  | .emptySlug => "Slug cannot be empty"
  | .unknownCursor cursor => "unknown cursor " ++ Text.quoted cursor
  | .notNumber key text => key ++ " must be a non-negative integer, got " ++ Text.quoted text
  | .notPositive key => key ++ " must be greater than zero"
  | .notBoolean key text => key ++ " must be a boolean, got " ++ Text.quoted text

def forbiddenMoveText (source target : State) : String :=
  "Invalid state transition: cannot transition from " ++ source.name ++ " to " ++ target.name

inductive Failure.Kind where
  | notFound
  | alreadyExists
  | invalidState
  | unauthorized
  | providerNotFound
  | providerUnavailable
  | conflict
  | quotaExceeded
  | validation
  | storage
  | eventBus
  | metrics
  deriving DecidableEq, Repr, Inhabited

namespace Failure.Kind

def code : Kind → String
  | .notFound => "INSTANCE_NOT_FOUND"
  | .alreadyExists => "ALREADY_EXISTS"
  | .invalidState => "INVALID_STATE"
  | .unauthorized => "UNAUTHORIZED"
  | .providerNotFound => "PROVIDER_NOT_FOUND"
  | .providerUnavailable => "PROVIDER_UNAVAILABLE"
  | .conflict => "CONFLICT"
  | .quotaExceeded => "QUOTA_EXCEEDED"
  | .validation => "VALIDATION_ERROR"
  | .storage => "STORAGE_ERROR"
  | .eventBus => "EVENT_BUS_ERROR"
  | .metrics => "METRICS_ERROR"

/-- How the message of a kind of failure begins. -/
def lead : Kind → String
  | .notFound => "Not found: "
  | .alreadyExists => "Already exists: "
  | .invalidState => ""
  | .unauthorized => "Unauthorized: "
  | .providerNotFound => "Provider not registered: "
  | .providerUnavailable => "Provider unavailable: "
  | .conflict => "Conflict: "
  | .quotaExceeded => "Quota exceeded: "
  | .validation => "Validation error: "
  | .storage => "Storage error: "
  | .eventBus => "Event bus error: "
  | .metrics => "Metrics error: "

end Failure.Kind

/-- What a request can fail with. -/
inductive Failure where
  | noInstance (id : String)
  | noSlug (slug : String)
  | instanceExists (id : String)
  | slugTaken (slug tenant : String)
  | forbiddenMove (source target : State)
  | noCaller
  | noTenant
  | noProvider (name : String)
  | noDefaultProvider
  | providerFailed (during : Undertaking) (cause : Provider.Error)
  | staleVersion (id : String) (stored given : UInt64)
  | quotaReached (tenant : String) (current : Nat) (limit : UInt64)
  | invalid (reason : Invalid)
  | bus (cause : BusError)
  /-- A failure told by a component outside, in its own words. -/
  | reported (kind : Failure.Kind) (text : String)
  deriving DecidableEq, Repr, Inhabited

namespace Failure

def kind : Failure → Kind
  | .noInstance _ | .noSlug _ => .notFound
  | .instanceExists _ | .slugTaken _ _ => .alreadyExists
  | .forbiddenMove _ _ => .invalidState
  | .noCaller | .noTenant => .unauthorized
  | .noProvider _ | .noDefaultProvider => .providerNotFound
  | .providerFailed _ _ => .providerUnavailable
  | .staleVersion _ _ _ => .conflict
  | .quotaReached _ _ _ => .quotaExceeded
  | .invalid _ => .validation
  | .bus _ => .eventBus
  | .reported kind _ => kind

def details : Failure → String
  | .noInstance id => "instance " ++ id
  | .noSlug slug => "instance with slug " ++ Text.quoted slug
  | .instanceExists id => "instance " ++ id
  | .slugTaken slug tenant => "slug " ++ Text.quoted slug ++ " in tenant " ++ tenant
  | .forbiddenMove source target => forbiddenMoveText source target
  | .noCaller => "request carries no claims"
  | .noTenant => "claims carry no tenant"
  | .noProvider name => name
  | .noDefaultProvider => "no default provider configured"
  | .providerFailed during cause => during.name ++ ": " ++ cause.message
  | .staleVersion id stored given =>
    "instance " ++ id ++ " is at version " ++ toString stored.toNat ++ ", update carried version " ++
      toString given.toNat
  | .quotaReached tenant current limit =>
    "tenant " ++ tenant ++ " has " ++ toString current ++ " of " ++ toString limit.toNat ++ " instances"
  | .invalid reason => reason.message
  | .bus cause => cause.message
  | .reported _ text => text

def code (f : Failure) : String := f.kind.code

def message (f : Failure) : String := f.kind.lead ++ f.details

end Failure

/-- A failure as callers outside see it. -/
structure ErrorReport where
  code : String
  message : String
  details : Option Texts := none
  timestamp : Instant
  deriving DecidableEq, Inhabited

def Failure.report (f : Failure) (now : Instant) : ErrorReport :=
  { code := f.code, message := f.message, timestamp := now }

/-- Refuses the move from one state to another unless the table has it. -/
def State.move (source target : State) : Except Failure Unit :=
  if source.canMove target then .ok () else .error (.forbiddenMove source target)

theorem State.move_eq_ok_iff {source target : State} :
    State.move source target = .ok () ↔ source.canMove target = true := by
  unfold State.move
  split <;> simp_all

/-- The caller's identity, which must be there and name a tenant. -/
def Caller.require (caller : Option Caller) : Except Failure Caller :=
  match caller with
  | none => .error .noCaller
  | some c => if c.tenant = "" then .error .noTenant else .ok c

theorem Caller.require_eq_ok_iff {caller : Option Caller} {c : Caller} :
    Caller.require caller = .ok c ↔ caller = some c ∧ c.tenant ≠ "" := by
  unfold Caller.require
  cases caller with
  | none => simp
  | some d =>
    simp only
    split
    · rename_i h
      simp only [reduceCtorEq, Option.some.injEq, false_iff]
      rintro ⟨rfl, hne⟩
      exact hne h
    · simp only [Except.ok.injEq, Option.some.injEq]
      constructor
      · rintro rfl
        exact ⟨rfl, ‹_›⟩
      · exact fun h => h.1

end Fleet
