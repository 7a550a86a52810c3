import Fleet.Audit
import Fleet.Metrics

/-!
# Plugins

A plugin answers some of the hooks. A call of a hook may take time and may fail; one that takes longer
than the time limit is given up. Failed and given-up calls are told to the listener and to nobody else:
the next plugin is called all the same, and whoever fired the hook never learns of them.

The audit trail and the metrics are plugins that answer every hook but the one for shutdown, take no
time and do not fail.
-/

namespace Fleet

/-- How a plugin behaves in one call: how long it waits, if at all, and how it fails, if it does. -/
structure Conduct where
  delayMs : Option Nat := none
  failure : Option String := none
  deriving DecidableEq, Repr, Inhabited

/-- How a call of a hook ended. -/
inductive Verdict where
  | done
  | failed (reason : String)
  | timedOut
  deriving DecidableEq, Repr, Inhabited

namespace Verdict

def isFailure : Verdict → Bool
  | .done => false
  | _ => true

end Verdict

/-- How a call ends under a time limit. A call that does not wait is never given up. -/
def Conduct.verdict (c : Conduct) (limitMs : Nat) : Verdict :=
  if c.delayMs.any (limitMs < ·) then .timedOut
  else
    match c.failure with
    | some reason => .failed reason
    | none => .done

inductive Plugin where
  /-- A plugin whose conduct depends on the hook and the event alone: it has no memory of earlier calls. One
  that changes between events is another plugin in its place, which only `Plugins.Round.meanwhile` and
  `Plugins.Dealing.change` put there. -/
  | custom (name : String) (hooks : List Hook) (conduct : Hook → Option Event → Conduct)
  | audit (trail : Audit.Trail)
  | metrics (counters : Metrics)

namespace Plugin

def name : Plugin → String
  | .custom name _ _ => name
  | .audit _ => "audit-hook"
  | .metrics _ => "observability-metrics"

def answers (p : Plugin) (h : Hook) : Bool :=
  match p with
  | .custom _ hooks _ => hooks.contains h
  | .audit _ | .metrics _ => h ≠ .shutdown

/-- What a call of a hook does to a plugin, how it ends, and what it had recorded in an audit trail,
with whether that was kept. -/
def call (p : Plugin) (limitMs : Nat) (h : Hook) (e : Option Event) :
    Verdict × Option (Audit.Record × Bool) × Plugin :=
  match p, e with
  | .custom _ _ conduct, e => ((conduct h e).verdict limitMs, none, p)
  | .audit trail, some e =>
    let (entry, trail) := trail.observe h e
    (.done, entry, .audit trail)
  | .metrics counters, some e => (.done, none, .metrics (counters.observe e.kind))
  | p, none => (.done, none, p)

end Plugin

/-- Who is told of hook calls that fail. -/
inductive Listener where
  | nobody
  /-- Whoever reads the list of calls. -/
  | journal
  /-- The first metrics plugin. -/
  | meter
  deriving DecidableEq, Repr, Inhabited

/-- A call of a hook: the plugin by its place and name, what it was called with, how it ended, what it
recorded and who was told if it failed. -/
structure HookCall where
  place : Nat
  plugin : String
  hook : Hook
  event : Option Event
  verdict : Verdict
  entry : Option (Audit.Record × Bool)
  told : Listener
  deriving DecidableEq

/-- The plugins of a control plane in the order of their registration. -/
structure Plugins where
  members : List Plugin := []
  limitMs : Nat := 5000
  listener : Listener := .nobody

namespace Plugins

def register (ps : Plugins) (p : Plugin) : Plugins := { ps with members := ps.members ++ [p] }

def names (ps : Plugins) : List String := ps.members.map Plugin.name

/-- How many plugins answer a hook. -/
def answering (ps : Plugins) (h : Hook) : Nat := (ps.members.filter (·.answers h)).length

/-- The counters of the first metrics plugin. -/
def metrics? (ps : Plugins) : Option Metrics :=
  ps.members.findSome? fun
    | .metrics counters => some counters
    | _ => none

/-- The members with the counters of the first metrics plugin changed. -/
def changeMetrics (f : Metrics → Metrics) : List Plugin → List Plugin
  | [] => []
  | .metrics counters :: rest => .metrics (f counters) :: rest
  | p :: rest => p :: changeMetrics f rest

/-- Sets who is told of failed calls; the metrics can only be told if there is a metrics plugin. -/
def listen? (ps : Plugins) (listener : Listener) : Option Plugins :=
  if listener = .meter ∧ ps.metrics?.isNone then none else some { ps with listener }

def tell (ps : Plugins) (label : HookLabel) : Plugins :=
  match ps.listener with
  | .meter => { ps with members := changeMetrics (·.countFailure label) ps.members }
  | _ => ps

/-- Calls the plugin at a place, if it answers the hook. -/
def callAt (ps : Plugins) (h : Hook) (e : Option Event) (place : Nat) : Plugins × List HookCall :=
  match ps.members[place]? with
  | none => (ps, [])
  | some p =>
    if p.answers h then
      let (verdict, entry, after) := p.call ps.limitMs h e
      let ps := { ps with members := ps.members.set place after }
      let failed := verdict.isFailure
      let call : HookCall :=
        { place, plugin := p.name, hook := h, event := e, verdict, entry
          told := if failed then ps.listener else .nobody }
      (if failed then ps.tell ⟨h.name, p.name⟩ else ps, [call])
    else (ps, [])

/-- Calls the plugins at some places, one after the other. -/
def callAll (h : Hook) (e : Option Event) : List Nat → Plugins → Plugins × List HookCall
  | [], ps => (ps, [])
  | place :: rest, ps =>
    let (ps, call) := ps.callAt h e place
    let (ps, calls) := callAll h e rest ps
    (ps, call ++ calls)

/-- Fires a hook: calls every plugin that answers it, in the order of registration. -/
def fire (ps : Plugins) (h : Hook) (e : Option Event) : Plugins × List HookCall :=
  callAll h e (List.range ps.members.length) ps

/-- Hands an event to the plugins; an event of unknown kind reaches none. -/
def handle (ps : Plugins) (e : Event) : Plugins × List HookCall :=
  match e.kind.hook? with
  | some h => ps.fire h (some e)
  | none => (ps, [])

def shutdown (ps : Plugins) : Plugins × List HookCall := ps.fire .shutdown none

end Plugins

end Fleet
