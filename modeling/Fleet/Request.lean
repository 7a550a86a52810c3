import Fleet.Instance

/-!
# Requests and pages

What callers ask for: to create, change or scale an instance, and to list the instances of a tenant
page by page.
-/

namespace Fleet

structure CreateRequest where
  name : String
  provider : Option String := none
  region : String := ""
  image : String
  resources : Resources := {}
  env : Texts := .empty
  ports : List Port := []
  labels : Texts := .empty
  deriving DecidableEq, Inhabited

namespace CreateRequest

def onProvider (r : CreateRequest) (provider : String) : CreateRequest :=
  { r with provider := some provider }

def withLabel (r : CreateRequest) (key value : String) : CreateRequest :=
  { r with labels := r.labels.insert key value }

def withPort (r : CreateRequest) (port : Port) : CreateRequest :=
  { r with ports := r.ports ++ [port] }

end CreateRequest

/-- What to change of an instance; what is not given stays. -/
structure UpdateRequest where
  name : Option String := none
  env : Option Texts := none
  labels : Option Texts := none
  deriving DecidableEq, Inhabited

/-- The resources to change; what is not given stays. -/
structure ScaleRequest where
  cpuMillis : Option UInt32 := none
  memoryMb : Option UInt32 := none
  replicas : Option UInt32 := none
  deriving DecidableEq, Repr, Inhabited

def ScaleRequest.applyTo (r : ScaleRequest) (current : Resources) : Resources :=
  { current with
    cpuMillis := r.cpuMillis.getD current.cpuMillis
    memoryMb := r.memoryMb.getD current.memoryMb
    replicas := r.replicas.getD current.replicas }

/-- Which instances to list: those that pass every filter given, from the one after the cursor on,
and as many as the limit says; a limit of zero is none. -/
structure Query where
  state : Option State := none
  label : Option String := none
  provider : Option String := none
  cursor : Option String := none
  limit : UInt64 := 0
  deriving DecidableEq, Repr, Inhabited

/-- A page of a listing: its instances, where the next page begins, and how many instances pass the
filters in all. -/
structure Page where
  items : List Instance := []
  nextCursor : Option String := none
  total : Nat := 0
  deriving DecidableEq, Inhabited

end Fleet
