import Fleet.Service.Procedure
import Fleet.Text.Blank

/-!
# The operations of the service

Each operation is a procedure with one order of work: check the request, write the state that
announces the change, call the provider, write the state that the change leads to, and publish an event.
When a provider fails after the first write, the record is marked failed and the failure is announced
once it is stored. What the bus answers to an event is passed over.

The id of a new instance, the id of an event and the readings of the clock come with the request as its
stamp.
-/

namespace Fleet.Service

open Procedure

/-- What a request is stamped with: an id for what it creates, an id for the event it publishes, and
the readings of the clock. -/
structure Stamp where
  instanceId : String
  eventId : String
  clock : Nat → Instant

namespace Stamp

/-- The clock when the request begins to change something. -/
def first (s : Stamp) : Instant := s.clock 0

/-- The clock at the write that ends the request, where an earlier reading was kept. -/
def second (s : Stamp) : Instant := s.clock 1

/-- The clock when the event is made. -/
def announced (s : Stamp) : Instant := s.clock 2

end Stamp

/-! ## Parts of operations -/

/-- The event caused by a caller, named unless the subject is empty. -/
def attributed (caller : Caller) (e : Event) : Event :=
  if caller.subject = "" then e else e.withActor caller.subject

def eventOf (caller : Caller) (stamp : Stamp) (topic : Topic) (i : Instance) : Event :=
  attributed caller
    { id := stamp.eventId, kind := .known topic, tenant := i.tenant, instanceId := some i.id
      timestamp := stamp.announced }

/-- Publishes an event, whatever the bus answers. -/
def announce (e : Event) : Procedure Unit := do
  let _ ← ask (.publish e)

def identify (caller : Option Caller) : Procedure Caller := ofExcept (Caller.require caller)

/-- Refuses an id that no instance can have. -/
def checkId (id : String) : Procedure Unit := do
  ensure (id != "") (.invalid .emptyId)
  ensure (Text.isIdentifier id) (.invalid (.malformedId id))

def load (caller : Caller) (id : String) : Procedure Instance := do
  checkId id
  ofExcept (← ask (.find caller.tenant id))

/-- Writes a record with its change dated; the record as it is then comes back. -/
def persist (i : Instance) (now : Instant) : Procedure Instance := do
  let i := i.touch now
  let version ← ofExcept (← ask (.update i))
  return { i with version }

/-- Marks a record as failed after its provider failed; whether that could be stored, and the record
as it is then. -/
def markFailed (i : Instance) (now : Instant) : Procedure (Bool × Instance) := do
  let i := { i with state := .failed }.touch now
  match ← ask (.update i) with
  | .ok version => return (true, { i with version })
  | .error _ => return (false, i)

/-- Marks a record as failed, announces that if it was stored, and fails with the provider's error. -/
def giveUp {α : Type} (caller : Caller) (stamp : Stamp) (i : Instance) (now : Instant)
    (during : Undertaking) (cause : Provider.Error) : Procedure α := do
  let (written, i) ← markFailed i now
  if written then
    announce ((eventOf caller stamp .instanceFailed i
      |>.withField "operation" (.str during.name)).withField "error" (.str cause.message))
  .fail (.providerFailed during cause)

/-- The provider of a record, which must be registered. -/
def providerOf (i : Instance) : Procedure Unit := do
  ofExcept (← ask (.lookup i.provider))

/-- Refuses one instance more when the tenant has as many as the limit allows, and announces that. -/
def checkQuota (limit : UInt64) (caller : Caller) (stamp : Stamp) : Procedure Unit :=
  if limit = 0 then return
  else do
    let current ← ofExcept (← ask (.count caller.tenant))
    if current < limit.toNat then return
    else
      let e : Event :=
        { id := stamp.eventId, kind := .known .quotaExceeded, tenant := caller.tenant
          timestamp := stamp.announced }
      let e := e.withField "resource" (.str "instances")
      let e := e.withField "current" (.int current)
      let e := e.withField "limit" (.int limit.toNat)
      announce (attributed caller e)
      .fail (.quotaReached caller.tenant current limit)

def draft (caller : Caller) (r : CreateRequest) (provider : String) (stamp : Stamp) : Instance :=
  { Instance.fresh stamp.instanceId caller.tenant r.name r.image provider stamp.first with
    region := r.region, resources := r.resources, env := r.env, ports := r.ports
    labels := r.labels }

def createdEvent (caller : Caller) (stamp : Stamp) (i : Instance) : Event :=
  let e := eventOf caller stamp .instanceCreated i
  let e := e.withField "name" (.str i.name)
  let e := e.withField "slug" (.str i.slug)
  let e := e.withField "provider" (.str i.provider)
  e.withField "image" (.str i.image)

/-! ## Operations -/

/-- Creates an instance and provisions it. The record is stored first, and marked failed when the
provider fails. -/
def create (limit : UInt64) (caller : Option Caller) (r : CreateRequest) (stamp : Stamp) :
    Procedure Instance := do
  let caller ← identify caller
  ensure (!Text.isBlankText r.name) (.invalid .blankName)
  ensure (!Text.isBlankText r.image) (.invalid .blankImage)
  ensure (Text.slug r.name != "") (.invalid .nameWithoutSlug)
  checkQuota limit caller stamp
  let provider ← ofExcept (← ask (.resolve r.provider))
  let i := draft caller r provider stamp
  let version ← ofExcept (← ask (.insert i))
  let i := { i with version }
  match ← ask (.command provider (.provision (.ofInstance i))) with
  | .error cause =>
    let _ ← markFailed i stamp.second
    .fail (.providerFailed (.task .provision) cause)
  | .ok made =>
    let i ← persist { i with providerRef := made.ref, endpoints := made.endpoints } stamp.second
    announce (createdEvent caller stamp i)
    return i

def get (caller : Option Caller) (id : String) : Procedure Instance := do
  let caller ← identify caller
  load caller id

def getBySlug (caller : Option Caller) (slug : String) : Procedure Instance := do
  let caller ← identify caller
  ensure (slug != "") (.invalid .emptySlug)
  ofExcept (← ask (.findBySlug caller.tenant slug))

def list (caller : Option Caller) (q : Query) : Procedure Page := do
  let caller ← identify caller
  ofExcept (← ask (.list caller.tenant q))

/-- The record with the changes of a request; a new name must have a slug. -/
def changed (i : Instance) (r : UpdateRequest) : Except Failure Instance :=
  let rest (i : Instance) : Instance :=
    { i with env := r.env.getD i.env, labels := r.labels.getD i.labels }
  match r.name with
  | none => .ok (rest i)
  | some name =>
    if Text.slug name = "" then .error (.invalid .nameWithoutSlug)
    else .ok (rest { i with name, slug := Text.slug name })

/-- Changes what a request gives of a record, and nothing of its life. -/
def update (caller : Option Caller) (id : String) (r : UpdateRequest) (stamp : Stamp) :
    Procedure Instance := do
  let caller ← identify caller
  let i ← load caller id
  let i ← ofExcept (changed i r)
  persist i stamp.first

/-- Deprovisions an instance and removes its record. The record stays, marked failed, when the provider
fails. -/
def delete (caller : Option Caller) (id : String) (stamp : Stamp) : Procedure Unit := do
  let caller ← identify caller
  let i ← load caller id
  ofExcept (i.state.move .destroying)
  providerOf i
  let i ← persist { i with state := .destroying } stamp.first
  match ← ask (.command i.provider (.deprovision i.id)) with
  | .error cause => giveUp caller stamp i stamp.second (.task .deprovision) cause
  | .ok _ =>
    ofExcept (← ask (.delete i.tenant i.id))
    announce (eventOf caller stamp .instanceDeleted i)

def start (caller : Option Caller) (id : String) (stamp : Stamp) : Procedure Instance := do
  let caller ← identify caller
  let i ← load caller id
  ofExcept (i.state.move .starting)
  providerOf i
  let i ← persist { i with state := .starting } stamp.first
  match ← ask (.command i.provider (.start i.id)) with
  | .error cause => giveUp caller stamp i stamp.second (.task .start) cause
  | .ok _ =>
    let i ← persist { i with state := .running } stamp.second
    announce (eventOf caller stamp .instanceStarted i)
    return i

def stop (caller : Option Caller) (id : String) (stamp : Stamp) : Procedure Instance := do
  let caller ← identify caller
  let i ← load caller id
  ofExcept (i.state.move .stopping)
  providerOf i
  let i ← persist { i with state := .stopping } stamp.first
  match ← ask (.command i.provider (.stop i.id)) with
  | .error cause => giveUp caller stamp i stamp.second (.task .stop) cause
  | .ok _ =>
    let i ← persist { i with state := .stopped } stamp.second
    announce (eventOf caller stamp .instanceStopped i)
    return i

/-- Restarts an instance in whatever state it is. -/
def restart (caller : Option Caller) (id : String) (stamp : Stamp) : Procedure Instance := do
  let caller ← identify caller
  let i ← load caller id
  providerOf i
  match ← ask (.command i.provider (.restart i.id)) with
  | .error cause => giveUp caller stamp i stamp.first (.task .restart) cause
  | .ok _ =>
    let i ← persist { i with state := .running } stamp.first
    announce ((eventOf caller stamp .instanceStarted i).withField "restart" (.bool true))
    return i

def scaledEvent (caller : Caller) (stamp : Stamp) (i : Instance) : Event :=
  let e := eventOf caller stamp .instanceScaled i
  let e := e.withField "cpu_millis" (.int i.resources.cpuMillis.toNat)
  let e := e.withField "memory_mb" (.int i.resources.memoryMb.toNat)
  e.withField "replicas" (.int i.resources.replicas.toNat)

/-- Gives an instance other resources. Nothing is written when the provider fails. -/
def scale (caller : Option Caller) (id : String) (r : ScaleRequest) (stamp : Stamp) :
    Procedure Instance := do
  let caller ← identify caller
  let i ← load caller id
  providerOf i
  let resources := r.applyTo i.resources
  match ← ask (.command i.provider (.scale i.id resources)) with
  | .error cause => .fail (.providerFailed (.task .scale) cause)
  | .ok _ =>
    let i ← persist { i with resources } stamp.first
    announce (scaledEvent caller stamp i)
    return i

/-- Stops the workload of an instance and marks it suspended. Nothing is written when the provider
fails. -/
def suspend (caller : Option Caller) (id reason : String) (stamp : Stamp) : Procedure Instance := do
  let caller ← identify caller
  let i ← load caller id
  providerOf i
  match ← ask (.command i.provider (.stop i.id)) with
  | .error cause => .fail (.providerFailed .suspend cause)
  | .ok _ =>
    let i ← persist { i with suspendedAt := some stamp.first, state := .stopped } stamp.second
    announce ((eventOf caller stamp .instanceSuspended i).withField "reason" (.str reason))
    return i

/-- Starts the workload of an instance and takes the mark of suspension away. Nothing is written when
the provider fails. -/
def unsuspend (caller : Option Caller) (id : String) (stamp : Stamp) : Procedure Instance := do
  let caller ← identify caller
  let i ← load caller id
  providerOf i
  match ← ask (.command i.provider (.start i.id)) with
  | .error cause => .fail (.providerFailed .unsuspend cause)
  | .ok _ =>
    let i ← persist { i with suspendedAt := none, state := .running } stamp.first
    announce (eventOf caller stamp .instanceUnsuspended i)
    return i

/-! ## Requests -/

inductive Request where
  | create (r : CreateRequest)
  | get (id : String)
  | getBySlug (slug : String)
  | list (q : Query)
  | update (id : String) (r : UpdateRequest)
  | delete (id : String)
  | start (id : String)
  | stop (id : String)
  | restart (id : String)
  | scale (id : String) (r : ScaleRequest)
  | suspend (id reason : String)
  | unsuspend (id : String)
  deriving DecidableEq

inductive Reply where
  | record (i : Instance)
  | page (p : Page)
  | removed
  deriving DecidableEq

def procedure (limit : UInt64) (caller : Option Caller) (stamp : Stamp) :
    Request → Procedure Reply
  | .create r => do return .record (← create limit caller r stamp)
  | .get id => do return .record (← get caller id)
  | .getBySlug slug => do return .record (← getBySlug caller slug)
  | .list q => do return .page (← list caller q)
  | .update id r => do return .record (← update caller id r stamp)
  | .delete id => do
    delete caller id stamp
    return .removed
  | .start id => do return .record (← start caller id stamp)
  | .stop id => do return .record (← stop caller id stamp)
  | .restart id => do return .record (← restart caller id stamp)
  | .scale id r => do return .record (← scale caller id r stamp)
  | .suspend id reason => do return .record (← suspend caller id reason stamp)
  | .unsuspend id => do return .record (← unsuspend caller id stamp)

end Fleet.Service
