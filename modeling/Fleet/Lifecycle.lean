/-!
# The lifecycle of an instance

The states of an instance and the moves between them. `State.next` is the one table of moves, and
what else is asked about moves is read off it. No move leads out of `destroyed`, and it is the only
state of which that is so (`isTerminal_iff`).
-/

namespace Fleet

/-- Where an instance is in its life. -/
inductive State where
  | provisioning
  | starting
  | running
  | stopping
  | stopped
  | failed
  | destroying
  | destroyed
  deriving DecidableEq, Repr, Inhabited

namespace State

def all : List State :=
  [.provisioning, .starting, .running, .stopping, .stopped, .failed, .destroying, .destroyed]

def name : State → String
  | .provisioning => "provisioning"
  | .starting => "starting"
  | .running => "running"
  | .stopping => "stopping"
  | .stopped => "stopped"
  | .failed => "failed"
  | .destroying => "destroying"
  | .destroyed => "destroyed"

def ofName? (s : String) : Option State := all.find? (·.name = s)

def next : State → List State
  | .provisioning => [.starting, .failed, .destroying]
  | .starting => [.running, .failed]
  | .running => [.stopping, .failed, .destroying]
  | .stopping => [.stopped, .failed]
  | .stopped => [.starting, .destroying]
  | .failed => [.starting, .destroying]
  | .destroying => [.destroyed, .failed]
  | .destroyed => []

def canMove (source target : State) : Bool := (next source).contains target

/-- Whether no move leads out of the state. -/
def isTerminal (s : State) : Bool := s.next.isEmpty

theorem isTerminal_iff (s : State) : s.isTerminal = true ↔ s = .destroyed := by
  cases s <;> decide

theorem ofName?_name (s : State) : ofName? s.name = some s := by
  cases s <;> decide

end State

end Fleet
