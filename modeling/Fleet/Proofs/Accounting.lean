import Fleet.Proofs.Dispatch
import Fleet.Proofs.Gauge

/-!
# The metrics account for what happened

Metrics are one plugin among others. They see the events that they are called with, and are told of the
calls of any plugin that fail; after a hook they have done both, once each (`Plugins.metrics?_fire`):

    (ps.fire h e).1.metrics? = some ((m.called h e).told (failedLabels (ps.fire h e).2))

So they account for the events and the failed calls of any dealings (`Plugins.Metered.deal`), of which the
readings add nothing. Kinds of events are counted apart (`Kind.key_eq_iff`). Failed calls are counted apart
only where their label values have different fingerprints: of two plugins whose names look alike to the
fingerprint, each is charged with the failed calls of both
(`Plugins.failures_of_lookalikes_are_counted_together`). -/

namespace Fleet

/-! ## The keys of events -/

namespace Kind

def all : List Kind := Topic.all.map .known ++ [.unknown]

/-- The kind whose events are counted under a key. -/
def ofKey? (key : UInt64) : Option Kind := all.find? fun k => Counters.key [k.name] = key

theorem ofKey?_key (k : Kind) : ofKey? (Counters.key [k.name]) = some k := by
  cases k with
  | known t => cases t <;> decide +kernel
  | unknown => decide +kernel

/-- Kinds are counted apart. -/
theorem key_eq_iff {k k' : Kind} : Counters.key [k.name] = Counters.key [k'.name] ↔ k = k' := by
  constructor
  · intro h
    have hk := ofKey?_key k
    rw [h, ofKey?_key k'] at hk
    exact (Option.some.inj hk).symm
  · rintro rfl
    rfl

end Kind

/-- An event moves the gauge up if it tells of a creation, and down if it tells of a deletion. -/
theorem Kind.shift_eq (k : Kind) : k.shift = (if k = .known .instanceCreated then 1 else 0) -
    if k = .known .instanceDeleted then 1 else 0 := by
  by_cases hcreated : k = .known .instanceCreated
  · subst hcreated
    rfl
  · by_cases hdeleted : k = .known .instanceDeleted
    · subst hdeleted
      rfl
    · rw [shift_eq_zero hcreated hdeleted, if_neg hcreated, if_neg hdeleted]
      rfl

theorem shift_eq (es : List Event) : shift es =
    (es.countP (·.kind = .known .instanceCreated) : Int) -
      es.countP (·.kind = .known .instanceDeleted) := by
  induction es with
  | nil => rfl
  | cons e rest ih =>
    simp only [shift, ih, e.kind.shift_eq, List.countP_cons, decide_eq_true_eq]
    split <;> split <;> omega

theorem shift_append (es later : List Event) : shift (es ++ later) = shift es + shift later := by
  simp only [shift_eq, List.countP_append]
  omega

/-! ## What a reading leaves -/

namespace Metrics

/-- A reading of the metrics: of the counter of a kind, of that of a hook and a plugin, or of the gauge. -/
inductive Reading where
  | events (kind : Kind)
  | failures (label : HookLabel)
  | active

/-- The metrics once a reading has been taken. -/
def read (m : Metrics) : Reading → Metrics
  | .events kind => m.touchEvent kind.name
  | .failures label => m.touchFailure label
  | .active => m

section

variable (m : Metrics) (r : Reading)

@[simp] theorem eventCount_read (event : String) : (m.read r).eventCount event = m.eventCount event := by
  cases r with
  | events kind => exact m.eventCount_touchEvent kind.name event
  | failures label | active => rfl

@[simp] theorem failureCount_read (label : HookLabel) :
    (m.read r).failureCount label = m.failureCount label := by
  cases r with
  | failures label' => exact m.failureCount_touchFailure label' label
  | events kind | active => rfl

@[simp] theorem active_read : (m.read r).active = m.active := by
  cases r <;> rfl

end

/-- Readings, in any order and number, change nothing that can be read. -/
theorem foldl_read (m : Metrics) (readings : List Reading) :
    (∀ event, (readings.foldl read m).eventCount event = m.eventCount event) ∧
      (∀ label, (readings.foldl read m).failureCount label = m.failureCount label) ∧
      (readings.foldl read m).active = m.active := by
  induction readings generalizing m with
  | nil => exact ⟨fun _ => rfl, fun _ => rfl, rfl⟩
  | cons r rest ih =>
    obtain ⟨hevents, hfailures, hactive⟩ := ih (m.read r)
    exact ⟨fun event => (hevents event).trans (m.eventCount_read r event),
      fun label => (hfailures label).trans (m.failureCount_read r label),
      hactive.trans (m.active_read r)⟩

/-- Whether the metrics are those of some events, and of some failed calls that they were told of. -/
structure Counts (m : Metrics) (es : List Event) (failed : List HookLabel) : Prop where
  events : ∀ k : Kind, m.eventCount k.name = es.countP (·.kind = k)
  failures : ∀ label : HookLabel, m.failureCount label =
    failed.countP fun l => Counters.key l.values = Counters.key label.values
  active : m.active = .ofInt (shift es)

theorem counts_empty : ({} : Metrics).Counts [] [] where
  events _ := rfl
  failures _ := rfl
  active := rfl

section

variable {m : Metrics} {es : List Event} {failed : List HookLabel}

theorem Counts.read (h : m.Counts es failed) (r : Reading) : (m.read r).Counts es failed where
  events k := (m.eventCount_read r k.name).trans (h.events k)
  failures label := (m.failureCount_read r label).trans (h.failures label)
  active := (m.active_read r).trans h.active

/-- To see an event is to count it, and perhaps to move the gauge. -/
theorem counters_observe (m : Metrics) (k : Kind) :
    (m.observe k).events = (m.countEvent k.name).events ∧
      (m.observe k).hookFailures = m.hookFailures := by
  unfold observe addActive
  split <;> exact ⟨rfl, rfl⟩

/-- An event is counted under its own kind only. -/
theorem eventCount_observe (m : Metrics) (k k' : Kind) :
    (m.observe k).eventCount k'.name = m.eventCount k'.name + if k = k' then 1 else 0 := by
  have hcounted : (m.observe k).eventCount k'.name = (m.countEvent k.name).eventCount k'.name :=
    congrArg (·.value [k'.name]) (m.counters_observe k).1
  rw [hcounted, eventCount_countEvent]
  by_cases hk : k = k'
  · rw [if_pos (Kind.key_eq_iff.2 hk), if_pos hk, hk]
  · rw [if_neg (mt Kind.key_eq_iff.1 hk), if_neg hk]
    rfl

theorem Counts.observe (h : m.Counts es failed) (e : Event) :
    (m.observe e.kind).Counts (es ++ [e]) failed where
  events k := by
    rw [eventCount_observe, h.events, List.countP_append, List.countP_singleton]
    simp only [decide_eq_true_eq]
  failures label :=
    (congrArg (·.value label.values) (m.counters_observe e.kind).2).trans (h.failures label)
  active := by
    rw [active_observe, h.active, shift_append, shift_singleton, Int64.ofInt_add]

/-- The metrics once they have been told of some failed calls. -/
def told (m : Metrics) (labels : List HookLabel) : Metrics :=
  { m with hookFailures := m.hookFailures.raiseAll labels }

theorem Counts.told (h : m.Counts es failed) (labels : List HookLabel) :
    (m.told labels).Counts es (failed ++ labels) where
  events := h.events
  failures label := by
    rw [List.countP_append, ← h.failures]
    exact m.hookFailures.value_raiseAll labels label
  active := h.active

end

end Metrics

/-! ## What a hook leaves of the metrics -/

/-- What metrics are without the failed calls that they were told of. -/
def Metrics.seen (m : Metrics) : Metrics := { m with hookFailures := {} }

/-- The metrics once they have been called with an event; no other call counts, and there is none for the
shutdown. -/
def Metrics.called (m : Metrics) (h : Hook) : Option Event → Metrics
  | some e => if h = .shutdown then m else m.observe e.kind
  | none => m

theorem Metrics.seen_called (m : Metrics) (h : Hook) (e : Option Event) :
    (m.called h e).seen = m.seen.called h e := by
  have hobserve : ∀ k : Kind, (m.observe k).seen = m.seen.observe k := by
    intro k
    unfold observe
    split <;> rfl
  cases e with
  | none => rfl
  | some e =>
    simp only [called]
    split
    · rfl
    · exact hobserve e.kind

theorem Metrics.hookFailures_called (m : Metrics) (h : Hook) (e : Option Event) :
    (m.called h e).hookFailures = m.hookFailures := by
  cases e with
  | none => rfl
  | some e =>
    simp only [called]
    split
    · rfl
    · exact (m.counters_observe e.kind).2

/-- Metrics are what they have seen and what they were told of. -/
theorem Metrics.eq_of_seen {m m' : Metrics} (hseen : m.seen = m'.seen)
    (hfailures : m.hookFailures = m'.hookFailures) : m = m' := by
  obtain ⟨hevents, -, hactive⟩ := Metrics.mk.inj hseen
  cases m
  cases m'
  rw [Metrics.mk.injEq]
  exact ⟨hevents, hfailures, hactive⟩

/-- What a plugin of metrics has seen. -/
def Plugin.seen? : Plugin → Option Metrics
  | .metrics m => some m.seen
  | _ => none

namespace Plugins

variable {ps : Plugins} {m : Metrics}

theorem seen?_overlooks : Overlooks Plugin.seen? := fun _ _ => rfl

/-- Where the first metrics plugin is registered. -/
def meterPlace? (ps : Plugins) : Option Nat := ps.bare.members.findIdx? (·.seen?.isSome)

theorem map_seen (ps : Plugins) :
    ps.metrics?.map Metrics.seen = ps.meterPlace?.bind (ps.viewAt? Plugin.seen? ·) := by
  have hfirst : ps.metrics?.map Metrics.seen = ps.members.findSome? Plugin.seen? := by
    unfold metrics?
    induction ps.members with
    | nil => rfl
    | cons p rest ih =>
      cases p with
      | metrics m => rfl
      | custom name hooks conduct => exact ih
      | audit trail => exact ih
  rw [hfirst]
  unfold meterPlace? viewAt? bare
  induction ps.members with
  | nil => rfl
  | cons p rest ih =>
    cases p with
    | metrics m => rfl
    | custom name hooks conduct | audit trail =>
      rw [List.findSome?_cons_of_isNone rfl, ih, List.map_cons, List.findIdx?_cons,
        if_neg (by simp [Plugin.bare, Plugin.seen?]), Option.bind_map]
      rfl

/-- In its own turn a plugin of metrics sees the event, if it is called. -/
theorem viewAt?_callAt_own {place : Nat} (h : Hook) (e : Option Event)
    (hm : ps.viewAt? Plugin.seen? place = some m) :
    (ps.callAt h e place).1.viewAt? Plugin.seen? place = some (m.called h e) := by
  obtain ⟨p, hp, hseen⟩ := Option.bind_eq_some_iff.1 hm
  cases p with
  | custom name hooks conduct | audit trail => cases hseen
  | metrics counters =>
    obtain rfl : counters.seen = m := Option.some.inj hseen
    obtain ⟨hlt, -⟩ := List.getElem?_eq_some_iff.1 hp
    have hanswers : (Plugin.metrics counters).answers h = decide (h ≠ .shutdown) := rfl
    rw [← counters.seen_called h e]
    unfold callAt
    simp only [hp, hanswers]
    by_cases hshutdown : h = .shutdown
    · have hsame : counters.called h e = counters := by
        cases e with
        | none => rfl
        | some e => exact if_pos hshutdown
      simp only [hshutdown, ne_eq, not_true_eq_false, decide_false, Bool.false_eq_true, if_false]
      rw [← hshutdown, hsame]
      exact hm
    · have hcall : (Plugin.metrics counters).call ps.limitMs h e =
          (.done, none, .metrics (counters.called h e)) := by
        cases e with
        | none => rfl
        | some e => exact congrArg (fun m => (_, _, Plugin.metrics m)) (if_neg hshutdown).symm
      simp only [hshutdown, ne_eq, not_false_eq_true, decide_true, if_true, hcall, Verdict.isFailure,
        Bool.false_eq_true, if_false]
      unfold viewAt?
      rw [List.getElem?_set_self hlt]
      rfl

/-- In a hook the first metrics see the event once, if they are called. -/
theorem map_seen_fire (hm : ps.metrics? = some m) (h : Hook) (e : Option Event) :
    (ps.fire h e).1.metrics?.map Metrics.seen = some (m.seen.called h e) := by
  have hplace := ps.map_seen
  rw [hm] at hplace
  obtain ⟨place, hfirst, hview⟩ := Option.bind_eq_some_iff.1 hplace.symm
  have hin : place ∈ List.range ps.members.length := by
    obtain ⟨p, hp, -⟩ := Option.bind_eq_some_iff.1 hview
    exact List.mem_range.2 (List.getElem?_eq_some_iff.1 hp).1
  -- A hook leaves every plugin what it is, so the first metrics stand where they stood.
  have hlater : (ps.fire h e).1.meterPlace? = some place := by
    have hbare : (ps.fire h e).1.bare = ps.bare := (callAll_spec h e _ ps).2.1
    unfold meterPlace?
    rw [hbare]
    exact hfirst
  have hafter := viewAt?_callAll seen?_overlooks (f := fun m => m.called h e)
    (fun _ _ hm => viewAt?_callAt_own h e hm) (List.nodup_range (n := ps.members.length)) hview
  rw [if_pos hin] at hafter
  rw [map_seen, hlater]
  exact hafter

/-- After a hook, the first metrics have seen the event, if they were called, and were told of all calls
that failed, if they are told of them. -/
theorem metrics?_fire (hm : ps.metrics? = some m) (hlistener : ps.listener = .meter) (h : Hook)
    (e : Option Event) : (ps.fire h e).1.metrics? =
      some ((m.called h e).told (failedLabels (ps.fire h e).2)) := by
  have hfailures : (ps.fire h e).1.failures? =
      some (m.hookFailures.raiseAll (failedLabels (ps.fire h e).2)) := by
    refine (callAll_spec h e _ ps).2.2.trans ?_
    simp only [heard, hlistener, failures?, hm]
    rfl
  obtain ⟨m', hm', hseen⟩ := Option.map_eq_some_iff.1 (map_seen_fire hm h e)
  rw [failures?, hm'] at hfailures
  have htold : m'.hookFailures = m.hookFailures.raiseAll (failedLabels (ps.fire h e).2) :=
    Option.some.inj hfailures
  rw [hm']
  refine congrArg some (Metrics.eq_of_seen ?_ ?_)
  · exact hseen.trans (m.seen_called h e).symm
  · rw [htold, ← m.hookFailures_called h e]
    rfl

/-! ## One dealing after the other -/

/-- What comes to some plugins: an event, the shutdown, a reading of the first metrics, or a change that
comes of itself, as when a plugin that has failed comes to work. -/
inductive Dealing where
  | handle (e : Event)
  | shutdown
  | read (r : Metrics.Reading)
  | change (f : Plugins → Plugins)

def Dealing.event? : Dealing → Option Event
  | .handle e => some e
  | _ => none

/-- The events that are handed to the plugins. -/
def handled (dealings : List Dealing) : List Event := dealings.filterMap Dealing.event?

/-- Whether a change leaves the first metrics alone, and who is told of failed calls. -/
def Spares (f : Plugins → Plugins) : Prop :=
  ∀ ps, (f ps).metrics? = ps.metrics? ∧ (f ps).listener = ps.listener

/-- What becomes of the plugins in a dealing, and the calls that are made. -/
def undergo (ps : Plugins) : Dealing → Plugins × List HookCall
  | .handle e => ps.handle e
  | .shutdown => ps.shutdown
  | .read r => ({ ps with members := changeMetrics (·.read r) ps.members }, [])
  | .change f => (f ps, [])

/-- What becomes of the plugins in one dealing after the other, and all calls that are made. -/
def deal : List Dealing → Plugins → Plugins × List HookCall
  | [], ps => (ps, [])
  | d :: rest, ps =>
    let (ps, calls) := ps.undergo d
    let (ps, later) := deal rest ps
    (ps, calls ++ later)

/-- Whether some plugins tell their first metrics of failed calls, and these metrics are those of some
events and failed calls. -/
def Metered (ps : Plugins) (es : List Event) (failed : List HookLabel) : Prop :=
  ps.listener = .meter ∧ ∃ m, ps.metrics? = some m ∧ m.Counts es failed

/-- The events among some that are of a known kind. -/
def known (es : List Event) : List Event := es.filter (·.kind ≠ .unknown)

variable {es : List Event} {failed : List HookLabel}

theorem Metered.fire (h : ps.Metered es failed) {hook : Hook} {e : Option Event} {es' : List Event}
    (hcalled : ∀ m : Metrics, m.Counts es failed → (m.called hook e).Counts es' failed) :
    (ps.fire hook e).1.Metered es' (failed ++ failedLabels (ps.fire hook e).2) := by
  obtain ⟨hlistener, m, hm, hcounts⟩ := h
  have hbare : (ps.fire hook e).1.bare = ps.bare := (callAll_spec hook e _ ps).2.1
  exact ⟨(listener_of_bare hbare).trans hlistener, _, metrics?_fire hm hlistener hook e,
    (hcalled m hcounts).told _⟩

theorem metrics?_changeMetrics (f : Metrics → Metrics) (ps : Plugins) :
    ({ ps with members := changeMetrics f ps.members } : Plugins).metrics? = ps.metrics?.map f := by
  unfold metrics?
  induction ps.members with
  | nil => rfl
  | cons p rest ih =>
    cases p with
    | metrics m => rfl
    | custom name hooks conduct => exact ih
    | audit trail => exact ih

/-- What a dealing adds to the account. -/
theorem Metered.undergo (h : ps.Metered es failed) {d : Dealing}
    (hspares : ∀ f, d = .change f → Spares f) :
    (ps.undergo d).1.Metered (es ++ known d.event?.toList)
      (failed ++ failedLabels (ps.undergo d).2) := by
  have hsame : ∀ {r : Plugins}, r.Metered es failed →
      r.Metered (es ++ []) (failed ++ failedLabels []) := by
    intro r hr
    simpa [failedLabels] using hr
  cases d with
  | handle e =>
    simp only [Plugins.undergo, Dealing.event?, Option.toList_some]
    unfold handle
    cases hkind : e.kind with
    | unknown =>
      have hnone : known [e] = [] := by simp [known, hkind]
      rw [hnone]
      exact hsame h
    | known topic =>
      have hone : known [e] = [e] := by simp [known, hkind]
      rw [hone]
      exact h.fire fun m hm => hm.observe e
  | shutdown =>
    refine Metered.fire h fun m hm => ?_
    have hnone : known (Dealing.event? .shutdown).toList = [] := rfl
    rw [hnone, List.append_nil]
    exact hm
  | read r =>
    obtain ⟨hlistener, m, hm, hcounts⟩ := h
    refine hsame ⟨hlistener, m.read r, ?_, hcounts.read r⟩
    exact (metrics?_changeMetrics (·.read r) ps).trans (congrArg (Option.map _) hm)
  | change f =>
    obtain ⟨hlistener, m, hm, hcounts⟩ := h
    obtain ⟨hmetrics, htold⟩ := hspares f rfl ps
    exact hsame ⟨htold.trans hlistener, m, hmetrics.trans hm, hcounts⟩

theorem Metered.deal {dealings : List Dealing} (hspares : ∀ f, .change f ∈ dealings → Spares f)
    (h : ps.Metered es failed) :
    (deal dealings ps).1.Metered (es ++ known (handled dealings))
      (failed ++ failedLabels (deal dealings ps).2) := by
  induction dealings generalizing ps es failed with
  | nil => simpa [Plugins.deal, handled, known, failedLabels] using h
  | cons d rest ih =>
    have hfirst := h.undergo fun f hf => hspares f (hf ▸ .head _)
    have hrest := ih (fun f hf => hspares f (.tail _ hf)) hfirst
    have hevents : known (handled (d :: rest)) = known d.event?.toList ++ known (handled rest) := by
      unfold known handled
      rw [← List.filter_append, List.filterMap_cons]
      cases d.event? <;> rfl
    simp only [Plugins.deal, failedLabels_append, hevents, ← List.append_assoc]
    exact hrest

/-- Whether a call failed that is counted together with those of a hook on plugins of a name: their label
values have one fingerprint. -/
def countsFor (h : Hook) (name : String) (c : HookCall) : Bool :=
  c.verdict.isFailure &&
    Counters.key c.label.values = Counters.key (HookLabel.mk h.name name).values

/-- Whether a call of a hook failed on a plugin of a name. -/
def failedOn (h : Hook) (name : String) (c : HookCall) : Bool :=
  c.verdict.isFailure && c.hook = h && c.plugin = name

theorem countP_failedLabels (calls : List HookCall) (h : Hook) (name : String) :
    ((failedLabels calls).countP fun l =>
      Counters.key l.values = Counters.key (HookLabel.mk h.name name).values) =
      calls.countP (countsFor h name) := by
  unfold failedLabels
  rw [List.countP_map, List.countP_filter]
  refine List.countP_congr fun c _ => ?_
  simp [countsFor, Bool.and_comm]

/-- Where no other call that failed has the same fingerprint, just the failed calls of the hook on plugins
of the name are counted. -/
theorem countP_countsFor {calls : List HookCall} {h : Hook} {name : String}
    (hapart : ∀ c ∈ calls, countsFor h name c = true → c.hook = h ∧ c.plugin = name) :
    calls.countP (countsFor h name) = calls.countP (failedOn h name) := by
  refine List.countP_congr fun c hc => ?_
  constructor
  · intro hcounts
    obtain ⟨hhook, hplugin⟩ := hapart c hc hcounts
    have hfailed := (Bool.and_eq_true_iff.1 hcounts).1
    simp [failedOn, hfailed, hhook, hplugin]
  · intro hfailed
    simp only [failedOn, Bool.and_eq_true, decide_eq_true_eq] at hfailed
    obtain ⟨⟨hverdict, rfl⟩, rfl⟩ := hfailed
    simp [countsFor, hverdict, HookCall.label]

theorem countP_known {k : Kind} (hk : k ≠ .unknown) (es : List Event) :
    (known es).countP (·.kind = k) = es.countP (·.kind = k) := by
  unfold known
  rw [List.countP_filter]
  refine List.countP_congr fun e _ => ?_
  simp only [Bool.and_eq_true, decide_eq_true_eq]
  exact ⟨And.left, fun h => ⟨h, h ▸ hk⟩⟩

theorem countP_known_unknown (es : List Event) : (known es).countP (·.kind = .unknown) = 0 := by
  unfold known
  refine List.countP_eq_zero.2 fun e he => ?_
  have hknown := (List.mem_filter.1 he).2
  simpa using hknown

/-- Metrics that start from nothing and are told of failed calls, among whatever other plugins, which may
change as they like in between: after any events, shutdowns and readings, the counter of a topic shows how
many events on it were handled, nothing is counted as unknown, and the gauge shows how many creations were
handled less the deletions. The counter of a hook and a plugin shows the failed calls whose label values have
the same fingerprint, hence just those of the hook on plugins of the name if no other call that failed has
that fingerprint. Readings, in any order and number, change none of this. -/
theorem metrics_account_for_calls {ps : Plugins} (hfresh : ps.metrics? = some {})
    (hlistener : ps.listener = .meter) {dealings : List Dealing}
    (hspares : ∀ f, .change f ∈ dealings → Spares f)
    (hfew : (handled dealings).length < 9007199254740992) :
    ∃ m, (deal dealings ps).1.metrics? = some m ∧
      (∀ topic : Topic, m.eventCount topic.name =
        (handled dealings).countP (·.kind = .known topic)) ∧
      m.eventCount Kind.unknown.name = 0 ∧
      m.active.toInt = (handled dealings).countP (·.kind = .known .instanceCreated) -
        (handled dealings).countP (·.kind = .known .instanceDeleted) ∧
      (∀ h name, m.failureCount ⟨Hook.name h, name⟩ =
        (deal dealings ps).2.countP (countsFor h name)) ∧
      (∀ h name,
        (∀ c ∈ (deal dealings ps).2, countsFor h name c = true → c.hook = h ∧ c.plugin = name) →
        m.failureCount ⟨Hook.name h, name⟩ = (deal dealings ps).2.countP (failedOn h name)) ∧
      ∀ readings : List Metrics.Reading,
        (∀ event, (readings.foldl Metrics.read m).eventCount event = m.eventCount event) ∧
        (∀ label, (readings.foldl Metrics.read m).failureCount label = m.failureCount label) ∧
        (readings.foldl Metrics.read m).active = m.active := by
  have hstart : ps.Metered [] [] := ⟨hlistener, {}, hfresh, Metrics.counts_empty⟩
  obtain ⟨-, m, hm, hcounts⟩ := hstart.deal hspares
  simp only [List.nil_append] at hcounts
  have hfailures : ∀ h name, m.failureCount ⟨Hook.name h, name⟩ =
      (deal dealings ps).2.countP (countsFor h name) := fun h name =>
    (hcounts.failures _).trans (countP_failedLabels _ h name)
  refine ⟨m, hm, fun topic => ?_, ?_, ?_, hfailures, fun h name hapart => ?_, fun readings => ?_⟩
  · exact (hcounts.events (.known topic)).trans (countP_known (by simp) _)
  · exact (hcounts.events .unknown).trans (countP_known_unknown _)
  · have hshift := shift_eq (known (handled dealings))
    rw [countP_known (by simp), countP_known (by simp)] at hshift
    have hcreated := List.countP_le_length (l := handled dealings)
      (p := (·.kind = .known .instanceCreated))
    have hdeleted := List.countP_le_length (l := handled dealings)
      (p := (·.kind = .known .instanceDeleted))
    rw [hcounts.active, ← hshift]
    exact Int64.toInt_ofInt_of_le (by omega) (by omega)
  · rw [hfailures, countP_countsFor hapart]
  · exact m.foldl_read readings

/-- Other plugins come to work. -/
def mended : Plugin → Plugin
  | .custom name hooks _ => .custom name hooks fun _ _ => {}
  | p => p

theorem spares_mended : Spares fun ps => { ps with members := ps.members.map mended } := by
  refine fun ps => ⟨?_, rfl⟩
  simp only [metrics?, List.findSome?_map]
  congr 1
  funext p
  cases p <;> rfl

/-- An instance is created, which fails twice on plugins of one name and lasts too long on another; what was
counted is read, the shutdown fails twice, and all come to work; then the instance is deleted, and something
unknown happens. -/
def turbulent : List Dealing :=
  [.handle arrival, .read (.failures ⟨"on_instance_created", "broken"⟩), .read (.events .unknown), .shutdown,
    .change fun ps => { ps with members := ps.members.map mended },
    .handle { arrival with kind := .known .instanceDeleted }, .handle { arrival with kind := .unknown }]

theorem metrics_account_for_calls_turbulent :
    rowdy.metrics? = some {} ∧ rowdy.listener = .meter ∧
      (∀ f, .change f ∈ turbulent → Spares f) ∧ (handled turbulent).length < 9007199254740992 ∧
      ∃ m, (deal turbulent rowdy).1.metrics? = some m ∧ m.eventCount "instance.created" = 1 ∧
        m.eventCount "instance.stopped" = 0 ∧ m.eventCount "unknown" = 0 ∧ m.active.toInt = 0 ∧
        m.failureCount ⟨"on_instance_created", "broken"⟩ = 2 ∧
        m.failureCount ⟨"on_instance_created", "dawdling"⟩ = 1 ∧
        m.failureCount ⟨"on_shutdown", "broken"⟩ = 2 := by
  have hspares : ∀ f, .change f ∈ turbulent → Spares f := by
    intro f hf
    simp only [turbulent, List.mem_cons, reduceCtorEq, Dealing.change.injEq, false_or, or_false,
      List.not_mem_nil] at hf
    exact hf ▸ spares_mended
  obtain ⟨m, hm, hevents, hunknown, hactive, -, hfailures, -⟩ :=
    @metrics_account_for_calls rowdy rfl rfl turbulent hspares (by decide)
  refine ⟨rfl, rfl, hspares, by decide, m, hm, hevents .instanceCreated, hevents .instanceStopped,
    hunknown, hactive, ?_, ?_, ?_⟩
  · exact (hfailures (.on .instanceCreated) "broken" (by decide +kernel)).trans (by decide +kernel)
  · exact (hfailures (.on .instanceCreated) "dawdling" (by decide +kernel)).trans (by decide +kernel)
  · exact (hfailures .shutdown "broken" (by decide +kernel)).trans (by decide +kernel)

/-- A plugin that fails whenever an instance was created. -/
def failing (name : String) : Plugin :=
  .custom name [.on .instanceCreated] fun _ _ => { failure := some "no" }

/-- Metrics that are told of failed calls, and two plugins that fail. -/
def lookalikes : Plugins :=
  [.metrics {}, failing "oja46nok76tdb", failing "guxa71d46hl1c"].foldl register { listener := .meter }

/-- The names of the plugins have one fingerprint behind that of the hook, so the counter of either shows
the failed calls of both. -/
theorem failures_of_lookalikes_are_counted_together :
    lookalikes.metrics? = some {} ∧ lookalikes.listener = .meter ∧
      (deal [.handle arrival] lookalikes).1.metrics?.map
          (·.failureCount ⟨(Hook.on .instanceCreated).name, "oja46nok76tdb"⟩) = some 2 ∧
      (deal [.handle arrival] lookalikes).2.countP
          (failedOn (.on .instanceCreated) "oja46nok76tdb") = 1 :=
  ⟨rfl, rfl, by decide +kernel, by decide +kernel⟩

end Plugins

end Fleet
