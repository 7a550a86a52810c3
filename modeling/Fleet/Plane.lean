import Fleet.Bus.Delivery
import Fleet.Plugin
import Fleet.Provider.Directory
import Fleet.Service.Operations
import Fleet.Settings
import Fleet.Store.Listing

/-!
# The control plane

A control plane is the store, the directory of providers, the bus and the plugins, put together from
settings. The plugins are the first subscriber of the bus. Serving a call changes one of these parts;
what can be seen of an event on its way comes with the answer as notices, in order.
-/

namespace Fleet

open Service

/-- Who receives events from the bus of a control plane. -/
inductive Receiver where
  | plugins
  | outside (label : String)
  deriving DecidableEq, Repr, Inhabited

/-- What can be seen of an event on its way: a plugin's hook being called, or what happens at another
subscriber. -/
inductive Notice where
  | hook (c : HookCall)
  | occurrence (o : Bus.Occurrence Receiver)

structure Plane where
  settings : Settings := {}
  store : Store := .empty
  directory : Provider.Directory := {}
  bus : Bus Receiver := .empty
  plugins : Plugins := {}

namespace Plane

/-- The plugins that settings ask for: the metrics first, then the audit trail, then the extra ones. -/
def pluginsOf (s : Settings) (recorder : Audit.Recorder) (extra : List Plugin) : Plugins :=
  let ps : Plugins := { limitMs := s.hookTimeoutMs.toNat }
  let ps := if s.metricsEnabled then { ps.register (.metrics {}) with listener := .meter } else ps
  let ps := if s.auditEnabled then ps.register (.audit { recorder }) else ps
  extra.foldl Plugins.register ps

def build (s : Settings) (providers : List (String × Provider.Local)) (recorder : Audit.Recorder)
    (extra : List Plugin) : Plane :=
  let directory := providers.foldl (fun (d : Provider.Directory) p => d.register p.1 p.2) {}
  { settings := s
    directory := directory.setDefault s.defaultProvider
    bus := (Bus.empty.subscribe (.plain .plugins [] none)).2
    plugins := pluginsOf s recorder extra }

/-- The counters, unless metrics are disabled. -/
def metrics? (p : Plane) : Option Metrics :=
  if p.settings.metricsEnabled then p.plugins.metrics? else none

/-- What the plugins make of the deliveries that are for them. -/
def attend : Plugins → List (Bus.Occurrence Receiver) → Plugins × List Notice
  | ps, [] => (ps, [])
  | ps, .delivered .plugins e :: rest =>
    let (ps, calls) := ps.handle e
    let (ps, notices) := attend ps rest
    (ps, calls.map .hook ++ notices)
  | ps, o :: rest =>
    let (ps, notices) := attend ps rest
    (ps, .occurrence o :: notices)

def publish (p : Plane) (e : Event) : Except BusError Unit × Plane × List Notice :=
  let (bus, seen, result) := p.bus.publish e
  let (plugins, notices) := attend p.plugins seen
  (result, { p with bus, plugins }, notices)

def serve (p : Plane) : (c : Call) → c.Answer × Plane × List Notice
  | .insert i =>
    match p.store.insert i with
    | .ok (version, store) => (.ok version, { p with store }, [])
    | .error f => (.error f, p, [])
  | .update i =>
    match p.store.update i with
    | .ok (version, store) => (.ok version, { p with store }, [])
    | .error f => (.error f, p, [])
  | .find tenant id => (p.store.find tenant id, p, [])
  | .findBySlug tenant slug => (p.store.findBySlug tenant slug, p, [])
  | .list tenant q => (p.store.list tenant q, p, [])
  | .delete tenant id =>
    match p.store.delete tenant id with
    | .ok store => (.ok (), { p with store }, [])
    | .error f => (.error f, p, [])
  | .count tenant => (.ok (p.store.count tenant), p, [])
  | .resolve name => ((p.directory.resolve name).map (·.1), p, [])
  | .lookup name => ((p.directory.lookup name).map fun _ => (), p, [])
  | .command name c =>
    let (answer, directory) := p.directory.command name c
    (answer, { p with directory }, [])
  | .publish e => p.publish e

def perform (p : Plane) (caller : Option Caller) (stamp : Stamp) (r : Request) :
    Except Failure Reply × Plane :=
  let serve (c : Call) : StateM Plane c.Answer := fun p =>
    let (answer, p, _) := p.serve c
    (answer, p)
  (procedure p.settings.maxInstances caller stamp r).run serve p

/-- Tells the plugins of the end, and closes the bus. -/
def shutdown (p : Plane) : Plane × List Notice :=
  let (plugins, calls) := p.plugins.shutdown
  ({ p with plugins, bus := p.bus.close }, calls.map .hook)

end Plane

end Fleet
