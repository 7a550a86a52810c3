import Fleet.Counters
import Fleet.Hook
import Fleet.Number.Shortest

/-!
# Metrics

Counters of the events seen by kind and of the hook calls that failed, and a gauge of the instances
that are active. The exposition shows every counter that there is, so reading one can be seen there,
but it changes no value (`eventCount_touchEvent`, `failureCount_touchFailure`).
-/

namespace Fleet

/-- A hook call that failed: the name of the hook and of the plugin. -/
structure HookLabel where
  hook : String
  plugin : String
  deriving DecidableEq, Repr, Inhabited

def HookLabel.values (label : HookLabel) : List String := [label.hook, label.plugin]

/-- The counters and the gauge. -/
structure Metrics where
  events : Counters := { }
  hookFailures : Counters := { }
  active : Int64 := 0
  deriving DecidableEq, Inhabited

namespace Metrics

def eventCount (m : Metrics) (event : String) : Nat := m.events.value [event]

def failureCount (m : Metrics) (label : HookLabel) : Nat := m.hookFailures.value label.values

/-- The metrics once the counter of an event has been read. -/
def touchEvent (m : Metrics) (event : String) : Metrics := { m with events := m.events.touch [event] }

def touchFailure (m : Metrics) (label : HookLabel) : Metrics :=
  { m with hookFailures := m.hookFailures.touch label.values }

def countEvent (m : Metrics) (event : String) : Metrics := { m with events := m.events.raise [event] }

def countFailure (m : Metrics) (label : HookLabel) : Metrics :=
  { m with hookFailures := m.hookFailures.raise label.values }

@[simp] theorem eventCount_countEvent (m : Metrics) (event event' : String) :
    (m.countEvent event).eventCount event' =
      if Counters.key [event] = Counters.key [event'] then m.eventCount event + 1
      else m.eventCount event' :=
  Counters.value_raise ..

@[simp] theorem eventCount_touchEvent (m : Metrics) (event event' : String) :
    (m.touchEvent event).eventCount event' = m.eventCount event' :=
  Counters.value_touch ..

@[simp] theorem failureCount_countFailure (m : Metrics) (label label' : HookLabel) :
    (m.countFailure label).failureCount label' =
      if Counters.key label.values = Counters.key label'.values then m.failureCount label + 1
      else m.failureCount label' :=
  Counters.value_raise ..

@[simp] theorem failureCount_touchFailure (m : Metrics) (label label' : HookLabel) :
    (m.touchFailure label).failureCount label' = m.failureCount label' :=
  Counters.value_touch ..

def addActive (m : Metrics) (delta : Int64) : Metrics := { m with active := m.active + delta }

/-- An event seen: it is counted, and the gauge follows instances that are created or deleted. -/
def observe (m : Metrics) (kind : Kind) : Metrics :=
  let m := m.countEvent kind.name
  match kind with
  | .known .instanceCreated => m.addActive 1
  | .known .instanceDeleted => m.addActive (-1)
  | _ => m

/-! ## Exposition -/

/-- A label value with backslashes, quotes and line ends escaped. -/
def escapedLabel (s : String) : String :=
  String.ofList (s.toList.flatMap fun c =>
    if c = '\\' then ['\\', '\\'] else if c = '"' then ['\\', '"'] else if c = '\n' then ['\\', 'n']
    else [c])

def sampleLine (name : String) (labels : List (String × String)) (value : Int) : String :=
  let shown := labels.map fun l => l.1 ++ "=\"" ++ escapedLabel l.2 ++ "\""
  let labels := if shown.isEmpty then "" else "\x7b" ++ ",".intercalate shown ++ "\x7d"
  let number := ((Binary64.ofInt value).map (Binary64.toText .plain)).getD ""
  name ++ labels ++ " " ++ number ++ "\n"

/-- The lines that introduce a family of samples. -/
def familyHead (name help type : String) : String :=
  "# HELP " ++ name ++ " " ++ help ++ "\n# TYPE " ++ name ++ " " ++ type ++ "\n"

/-- The family of some counters, by the names of their labels; nothing when there are none. -/
def counterFamily (name help : String) (labels : List String) (cs : Counters) : String :=
  let samples := cs.shown
  if samples.isEmpty then ""
  else familyHead name help "counter" ++
    String.join (samples.map fun c => sampleLine name (labels.zip c.labels) c.count)

def exposition (m : Metrics) : String :=
  familyHead "ctrlplane_active_instances" "Instances created and not yet deleted" "gauge" ++
  sampleLine "ctrlplane_active_instances" [] m.active.toInt ++
  counterFamily "ctrlplane_lifecycle_events_total" "Lifecycle events observed, by event type"
    ["event"] m.events ++
  counterFamily "ctrlplane_plugin_hook_errors_total" "Plugin hook calls that failed or timed out"
    ["hook", "plugin"] m.hookFailures

end Metrics

end Fleet
