import Fleet.Instance

/-!
# Providers

A provider holds the workloads that instances run as. It is told what to do by commands; each command
is about one instance, and the answer of a command depends on which it is.
-/

namespace Fleet.Provider

/-- What a provider can be told to do. -/
inductive Task where
  | provision
  | deprovision
  | start
  | stop
  | restart
  | scale
  | status
  deriving DecidableEq, Repr, Inhabited

namespace Task

def all : List Task := [.provision, .deprovision, .start, .stop, .restart, .scale, .status]

def name : Task → String
  | .provision => "provision"
  | .deprovision => "deprovision"
  | .start => "start"
  | .stop => "stop"
  | .restart => "restart"
  | .scale => "scale"
  | .status => "status"

def ofName? (s : String) : Option Task := all.find? (·.name = s)

end Task

/-- Why a provider did not do as it was told. -/
inductive Error where
  | unavailable (reason : String)
  | workloadNotFound (id : String)
  | unsupported (what : String)
  | rejected (reason : String)
  deriving DecidableEq, Repr, Inhabited

def Error.message : Error → String
  | .unavailable reason => "provider unavailable: " ++ reason
  | .workloadNotFound id => "workload not found: " ++ id
  | .unsupported what => "operation not supported: " ++ what
  | .rejected reason => "provider rejected request: " ++ reason

structure Info where
  name : String
  version : String
  region : String := ""
  deriving DecidableEq, Repr, Inhabited

inductive Capability where
  | provision
  | scale
  | volumes
  | gpu
  | autoScale
  | customDomains
  | tls
  deriving DecidableEq, Repr, Inhabited

namespace Capability

def all : List Capability :=
  [.provision, .scale, .volumes, .gpu, .autoScale, .customDomains, .tls]

def name : Capability → String
  | .provision => "provision"
  | .scale => "scale"
  | .volumes => "volumes"
  | .gpu => "gpu"
  | .autoScale => "auto-scale"
  | .customDomains => "custom-domains"
  | .tls => "tls"

def ofName? (s : String) : Option Capability := all.find? (·.name = s)

end Capability

/-- What to provision for a new instance. -/
structure Order where
  instanceId : String
  tenant : String
  name : String
  image : String
  resources : Resources
  env : Texts := .empty
  ports : List Port := []
  labels : Texts := .empty
  deriving DecidableEq, Inhabited

def Order.ofInstance (i : Instance) : Order :=
  { instanceId := i.id, tenant := i.tenant, name := i.name, image := i.image
    resources := i.resources, env := i.env, ports := i.ports, labels := i.labels }

/-- What came of an order: the provider's own name for the workload, and where it is reached. -/
structure Provisioned where
  ref : String := ""
  endpoints : List Endpoint := []
  metadata : Texts := .empty
  deriving DecidableEq, Inhabited

/-- What a provider sees of a workload. -/
structure Status where
  state : State
  ready : Bool
  restarts : UInt32
  message : Option String := none
  endpoints : List Endpoint := []
  deriving DecidableEq, Repr, Inhabited

inductive Command where
  | provision (order : Order)
  | deprovision (id : String)
  | start (id : String)
  | stop (id : String)
  | restart (id : String)
  | scale (id : String) (resources : Resources)
  | status (id : String)
  deriving DecidableEq, Inhabited

namespace Command

def task : Command → Task
  | .provision _ => .provision
  | .deprovision _ => .deprovision
  | .start _ => .start
  | .stop _ => .stop
  | .restart _ => .restart
  | .scale _ _ => .scale
  | .status _ => .status

def target : Command → String
  | .provision order => order.instanceId
  | .deprovision id | .start id | .stop id | .restart id | .scale id _ | .status id => id

/-- What a command is answered with when it is done. -/
abbrev Reply : Command → Type
  | .provision _ => Provisioned
  | .status _ => Status
  | _ => Unit

end Command

end Fleet.Provider
