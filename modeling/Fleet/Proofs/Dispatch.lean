import Fleet.Proofs.Chronicle

/-!
# Hooks are called in turn

What a call of a hook does to a plugin is to record or count something. Its name, the hooks that it
answers and how its calls end stay as they are (`Plugin.bare`), so the calls of a hook can be read off the
plugins as they are registered, whatever comes of the calls before:

    (ps.fire h e).2 = (ps.members.zipIdx.filter (·.1.answers h)).map (ps.callOf h e)      (calls_fire)

When the turn comes to a plugin, the listener has been told of every call before it that failed, once and in
order (`told_reached`). -/

namespace Fleet

/-! ## What a call leaves of a plugin -/

namespace Plugin

/-- A plugin without what it has recorded or counted. -/
def bare : Plugin → Plugin
  | .custom name hooks conduct => .custom name hooks conduct
  | .audit trail => .audit { trail with recorder := { trail.recorder with kept := [] } }
  | .metrics _ => .metrics {}

/-- The counters of failed hook calls, if the plugin has any. -/
def failures? : Plugin → Option Counters
  | .metrics counters => some counters.hookFailures
  | _ => none

@[simp] theorem name_bare (p : Plugin) : p.bare.name = p.name := by cases p <;> rfl

@[simp] theorem answers_bare (p : Plugin) (h : Hook) : p.bare.answers h = p.answers h := by
  cases p <;> rfl

section

variable (p : Plugin) (limitMs : Nat) (h : Hook) (e : Option Event)

@[simp] theorem verdict_bare : (p.bare.call limitMs h e).1 = (p.call limitMs h e).1 := by
  cases p <;> cases e <;> rfl

/-- A trail asks for the same records, and has them refused alike, whatever was kept. -/
@[simp] theorem entry_bare : (p.bare.call limitMs h e).2.1 = (p.call limitMs h e).2.1 := by
  cases p with
  | custom name hooks conduct => rfl
  | metrics counters => cases e <;> rfl
  | audit trail =>
    cases e with
    | none => rfl
    | some e =>
      have hentry : Audit.Trail.entry? { trail with recorder := { trail.recorder with kept := [] } } h e =
          trail.entry? h e := rfl
      simp only [bare, call, Audit.Trail.observe, hentry]
      cases trail.entry? h e with
      | none => rfl
      | some entry =>
        simp only [Audit.Recorder.record]
        cases trail.recorder.refuses entry <;> rfl

theorem bare_call : (p.call limitMs h e).2.2.bare = p.bare := by
  cases p with
  | custom name hooks conduct => rfl
  | metrics counters => cases e <;> rfl
  | audit trail =>
    cases e with
    | none => rfl
    | some e =>
      simp only [call, Audit.Trail.observe]
      cases trail.entry? h e with
      | none => rfl
      | some entry =>
        simp only [Audit.Recorder.record]
        cases trail.recorder.refuses entry <;> rfl

/-- A plugin counts no failed call by itself. -/
theorem failures?_call : (p.call limitMs h e).2.2.failures? = p.failures? := by
  cases p with
  | custom name hooks conduct => rfl
  | audit trail => cases e <;> rfl
  | metrics counters =>
    cases e with
    | none => rfl
    | some e =>
      simp only [call, failures?, Metrics.observe]
      split <;> rfl

end

end Plugin

/-! ## Calls and what is told of them -/

/-- What the listener is told of a call that failed. -/
def HookCall.label (c : HookCall) : HookLabel := ⟨c.hook.name, c.plugin⟩

/-- What the listener is told after some calls, in order. -/
def failedLabels (calls : List HookCall) : List HookLabel :=
  (calls.filter (·.verdict.isFailure)).map HookCall.label

theorem failedLabels_append (calls later : List HookCall) :
    failedLabels (calls ++ later) = failedLabels calls ++ failedLabels later := by
  unfold failedLabels
  rw [List.filter_append, List.map_append]

/-- Counters once some failed calls have been counted. -/
def Counters.raiseAll (cs : Counters) (labels : List HookLabel) : Counters :=
  labels.foldl (fun cs label => cs.raise label.values) cs

/-- Each failed call is counted once, under its label. -/
theorem Counters.value_raiseAll (cs : Counters) (labels : List HookLabel) (label : HookLabel) :
    (cs.raiseAll labels).value label.values = cs.value label.values +
      labels.countP fun l => key l.values = key label.values := by
  unfold raiseAll
  induction labels generalizing cs with
  | nil => rfl
  | cons l rest ih =>
    rw [List.foldl_cons, ih, Counters.value_raise, List.countP_cons]
    by_cases hkey : key l.values = key label.values
    · have hsame : cs.value l.values = cs.value label.values := by
        unfold value counter
        rw [hkey]
        cases cs.byKey.get? (key label.values) <;> rfl
      simp only [hkey, if_true, hsame, decide_true]
      omega
    · simp only [hkey, if_false, decide_false, Bool.false_eq_true, Nat.add_zero]

namespace Plugins

/-- The plugins without what they have recorded or counted. -/
def bare (ps : Plugins) : Plugins := { ps with members := ps.members.map Plugin.bare }

/-- The failed hook calls that the first metrics plugin has counted. -/
def failures? (ps : Plugins) : Option Counters := ps.metrics?.map (·.hookFailures)

/-- What the first metrics plugin has counted once the listener has been told of some failed calls: it is
the listener, or hears nothing. -/
def heard (ps : Plugins) (labels : List HookLabel) : Option Counters :=
  match ps.listener with
  | .meter => ps.failures?.map (·.raiseAll labels)
  | _ => ps.failures?

/-- The call of a hook that a plugin at a place is due. -/
def callOf (ps : Plugins) (h : Hook) (e : Option Event) (m : Plugin × Nat) : HookCall :=
  let (verdict, entry, _) := m.1.call ps.limitMs h e
  { place := m.2, plugin := m.1.name, hook := h, event := e, verdict, entry
    told := if verdict.isFailure then ps.listener else .nobody }

/-- The calls of a hook that are due at a place: one, if there is a plugin that answers the hook. -/
def callsAt (ps : Plugins) (h : Hook) (e : Option Event) (place : Nat) : List HookCall :=
  match ps.members[place]? with
  | some p => if p.answers h then [ps.callOf h e (p, place)] else []
  | none => []

/-- What the turn of a place finds: the plugins as the calls before it left them, and these calls. -/
def reached (ps : Plugins) (h : Hook) (e : Option Event) (place : Nat) : Plugins × List HookCall :=
  callAll h e (List.range place) ps

variable {ps r : Plugins}

theorem limitMs_of_bare (hbare : r.bare = ps.bare) : r.limitMs = ps.limitMs :=
  (congrArg Plugins.limitMs hbare :)

theorem listener_of_bare (hbare : r.bare = ps.bare) : r.listener = ps.listener :=
  (congrArg Plugins.listener hbare :)

theorem failures?_eq (ps : Plugins) : ps.failures? = ps.members.findSome? Plugin.failures? := by
  unfold failures? metrics?
  induction ps.members with
  | nil => rfl
  | cons p rest ih =>
    cases p with
    | metrics counters => rfl
    | custom name hooks conduct => exact ih
    | audit trail => exact ih

/-- What calls are due does not depend on what plugins have recorded or counted. -/
theorem callsAt_of_bare (hbare : r.bare = ps.bare) (h : Hook) (e : Option Event) (place : Nat) :
    r.callsAt h e place = ps.callsAt h e place := by
  have hat : r.members[place]?.map Plugin.bare = ps.members[place]?.map Plugin.bare := by
    have hmembers : r.members.map Plugin.bare = ps.members.map Plugin.bare :=
      congrArg Plugins.members hbare
    rw [← List.getElem?_map, ← List.getElem?_map, hmembers]
  unfold callsAt
  generalize r.members[place]? = mine, ps.members[place]? = other at hat
  cases mine with
  | none =>
    cases other with
    | none => rfl
    | some q => cases hat
  | some p =>
    cases other with
    | none => cases hat
    | some q =>
      have hsame : p.bare = q.bare := Option.some.inj hat
      have hcall : r.callOf h e (p, place) = ps.callOf h e (q, place) := by
        simp only [callOf, ← p.verdict_bare, ← p.entry_bare, ← p.name_bare, hsame, q.verdict_bare,
          q.entry_bare, q.name_bare, limitMs_of_bare hbare, listener_of_bare hbare]
      have hanswers : p.answers h = q.answers h := by
        rw [← p.answers_bare, hsame, q.answers_bare]
      simp only [hcall, hanswers]

/-- A change of the counters shows nowhere where counters do not show. -/
theorem map_changeMetrics {β : Type} (view : Plugin → β) (f : Metrics → Metrics)
    (hview : ∀ counters, view (.metrics (f counters)) = view (.metrics counters))
    (members : List Plugin) : (changeMetrics f members).map view = members.map view := by
  induction members with
  | nil => rfl
  | cons p rest ih =>
    cases p with
    | metrics counters => exact congrArg (· :: rest.map view) (hview counters)
    | custom name hooks conduct => exact congrArg (List.cons _) ih
    | audit trail => exact congrArg (List.cons _) ih

theorem bare_tell (ps : Plugins) (label : HookLabel) : (ps.tell label).bare = ps.bare := by
  unfold tell
  split
  · have hmembers := map_changeMetrics Plugin.bare (·.countFailure label) (fun _ => rfl) ps.members
    unfold bare
    rw [hmembers]
  · rfl

theorem failures?_tell (ps : Plugins) (label : HookLabel) :
    (ps.tell label).failures? = ps.heard [label] := by
  have hmembers : ∀ members : List Plugin,
      (changeMetrics (·.countFailure label) members).findSome? Plugin.failures? =
        (members.findSome? Plugin.failures?).map (·.raise label.values) := by
    intro members
    induction members with
    | nil => rfl
    | cons p rest ih =>
      cases p with
      | metrics counters => rfl
      | custom name hooks conduct => exact ih
      | audit trail => exact ih
  unfold tell heard
  cases hlistener : ps.listener with
  | meter =>
    simp only [failures?_eq, hmembers]
    rfl
  | nobody => rfl
  | journal => rfl

theorem heard_nil (ps : Plugins) : ps.heard [] = ps.failures? := by
  unfold heard
  cases ps.listener with
  | meter => cases ps.failures? <;> rfl
  | nobody | journal => rfl

/-- What is told at once is as good as told one after the other. -/
theorem heard_heard (ps : Plugins) (labels : List HookLabel) (hbare : r.bare = ps.bare)
    (hr : r.failures? = ps.heard labels) (later : List HookLabel) :
    r.heard later = ps.heard (labels ++ later) := by
  unfold heard at hr ⊢
  rw [listener_of_bare hbare]
  cases hlistener : ps.listener with
  | meter =>
    simp only [hlistener] at hr ⊢
    rw [hr, Option.map_map]
    refine congrArg (Option.map · ps.failures?) (funext fun cs => ?_)
    exact List.foldl_append.symm
  | nobody | journal =>
    simp only [hlistener] at hr ⊢
    exact hr

/-! ## One turn -/

section

variable (ps : Plugins) (h : Hook) (e : Option Event) (place : Nat)

/-- To call a plugin and put it back leaves all as it was, but for what it recorded or counted. -/
theorem set_called {p : Plugin} (hp : ps.members[place]? = some p) :
    ({ ps with members := ps.members.set place (p.call ps.limitMs h e).2.2 } : Plugins).bare = ps.bare ∧
      ({ ps with members := ps.members.set place (p.call ps.limitMs h e).2.2 } : Plugins).failures? =
        ps.failures? := by
  have hsame : ∀ {β : Type} (f : Plugin → β), f (p.call ps.limitMs h e).2.2 = f p →
      (ps.members.set place (p.call ps.limitMs h e).2.2).map f = ps.members.map f := by
    intro β f hf
    obtain ⟨hlt, hget⟩ := List.getElem?_eq_some_iff.1 hp
    rw [List.map_set, hf, ← hget, ← List.map_set, List.set_getElem_self]
  constructor
  · unfold bare
    simp only [hsame _ (p.bare_call ps.limitMs h e)]
  · have hfind : ∀ members : List Plugin,
        members.findSome? Plugin.failures? = (members.map Plugin.failures?).findSome? id := by
      intro members
      rw [List.findSome?_map]
      rfl
    rw [failures?_eq, failures?_eq, hfind, hfind, hsame _ (p.failures?_call ps.limitMs h e)]

/-- A turn makes the call that is due, and the listener is told of it if it failed. -/
theorem callAt_spec : (ps.callAt h e place).2 = ps.callsAt h e place ∧
    (ps.callAt h e place).1.bare = ps.bare ∧
    (ps.callAt h e place).1.failures? = ps.heard (failedLabels (ps.callAt h e place).2) := by
  have hquiet : ps.failures? = ps.heard [] := ps.heard_nil.symm
  unfold callAt callsAt
  cases hp : ps.members[place]? with
  | none => exact ⟨rfl, rfl, hquiet⟩
  | some p =>
    cases hanswers : p.answers h with
    | false =>
      simp only [hanswers, Bool.false_eq_true, if_false]
      exact ⟨trivial, trivial, hquiet⟩
    | true =>
      obtain ⟨hbare, hfailures⟩ := ps.set_called h e place hp
      simp only [hanswers, if_true, callOf]
      generalize p.call ps.limitMs h e = called at hbare hfailures
      obtain ⟨verdict, entry, after⟩ := called
      cases hfailed : verdict.isFailure with
      | false =>
        refine ⟨by simp, hbare, ?_⟩
        simp only [failedLabels, hfailed, Bool.false_eq_true, if_false, List.filter_cons, List.filter_nil,
          List.map_nil]
        exact hfailures.trans hquiet
      | true =>
        refine ⟨by simp, (bare_tell _ _).trans hbare, ?_⟩
        simp only [failedLabels, hfailed, if_true, List.filter_cons, List.filter_nil, List.map_cons,
          List.map_nil, failures?_tell]
        exact heard_heard ps [] hbare (hfailures.trans hquiet) _

end

/-! ## A view of one place -/

section

variable {α : Type} {view : Plugin → Option α}

/-- What a view shows of the plugin at a place. -/
def viewAt? (view : Plugin → Option α) (ps : Plugins) (place : Nat) : Option α :=
  ps.members[place]?.bind view

theorem viewAt?_eq_map (ps : Plugins) (place : Nat) :
    ps.viewAt? view place = (ps.members.map view)[place]?.bind id := by
  rw [List.getElem?_map, Option.bind_map]
  rfl

/-- A view that does not show the failed calls which were counted. -/
def Overlooks (view : Plugin → Option α) : Prop :=
  ∀ (counters : Metrics) (label : HookLabel),
    view (.metrics (counters.countFailure label)) = view (.metrics counters)

variable (hview : Overlooks view)

include hview

theorem viewAt?_tell (ps : Plugins) (label : HookLabel) (place : Nat) :
    (ps.tell label).viewAt? view place = ps.viewAt? view place := by
  have hmembers := map_changeMetrics view (·.countFailure label) (hview · label) ps.members
  unfold tell
  split
  · rw [viewAt?_eq_map, viewAt?_eq_map, hmembers]
  · rfl

/-- The turn of another plugin leaves a place as it is. -/
theorem viewAt?_callAt_of_ne (ps : Plugins) (h : Hook) (e : Option Event) {place other : Nat}
    (hother : other ≠ place) :
    (ps.callAt h e other).1.viewAt? view place = ps.viewAt? view place := by
  have hset : ∀ after : Plugin, ({ ps with members := ps.members.set other after } : Plugins).viewAt?
      view place = ps.viewAt? view place := by
    intro after
    unfold viewAt?
    rw [List.getElem?_set_ne hother]
  unfold callAt
  cases ps.members[other]? with
  | none => rfl
  | some p =>
    cases hanswers : p.answers h with
    | false =>
      simp only [hanswers, Bool.false_eq_true, if_false]
    | true =>
      simp only [hanswers, if_true]
      split
      · rw [viewAt?_tell hview, hset]
      · exact hset _

/-- Among the turns of some places, each once, a place changes in its own if it is one of them. -/
theorem viewAt?_callAll {h : Hook} {e : Option Event} {place : Nat} {f : α → α}
    (hown : ∀ (ps : Plugins) (a : α), ps.viewAt? view place = some a →
      (ps.callAt h e place).1.viewAt? view place = some (f a))
    {places : List Nat} (hnodup : places.Nodup) {ps : Plugins} {a : α}
    (ha : ps.viewAt? view place = some a) :
    (callAll h e places ps).1.viewAt? view place =
      some (if place ∈ places then f a else a) := by
  induction places generalizing ps a with
  | nil => exact ha
  | cons turn rest ih =>
    obtain ⟨hturn, hrest⟩ := List.nodup_cons.1 hnodup
    by_cases hmine : turn = place
    · subst hmine
      have hlast := ih hrest (hown ps a ha)
      rw [if_neg hturn] at hlast
      rw [if_pos (List.mem_cons_self ..)]
      exact hlast
    · have hmem : place ∈ turn :: rest ↔ place ∈ rest := by
        rw [List.mem_cons, or_iff_right (Ne.symm hmine)]
      simp only [hmem]
      exact ih hrest ((viewAt?_callAt_of_ne hview ps h e hmine).trans ha)

end

/-! ## All turns -/

variable (h : Hook) (e : Option Event)

theorem callAll_append (places later : List Nat) (ps : Plugins) :
    callAll h e (places ++ later) ps =
      ((callAll h e later (callAll h e places ps).1).1,
        (callAll h e places ps).2 ++ (callAll h e later (callAll h e places ps).1).2) := by
  induction places generalizing ps with
  | nil => rfl
  | cons place rest ih => simp only [List.cons_append, callAll, ih, List.append_assoc]

/-- Turn by turn the calls that are due are made, and the listener is told of those that failed. -/
theorem callAll_spec (places : List Nat) (ps : Plugins) :
    (callAll h e places ps).2 = places.flatMap (ps.callsAt h e) ∧
      (callAll h e places ps).1.bare = ps.bare ∧
      (callAll h e places ps).1.failures? = ps.heard (failedLabels (callAll h e places ps).2) := by
  induction places generalizing ps with
  | nil => exact ⟨rfl, rfl, ps.heard_nil.symm⟩
  | cons place rest ih =>
    obtain ⟨hcall, hbare, hheard⟩ := ps.callAt_spec h e place
    obtain ⟨hcalls, hbares, hheards⟩ := ih (ps.callAt h e place).1
    simp only [callAll]
    refine ⟨?_, hbares.trans hbare, ?_⟩
    · have hdue : (ps.callAt h e place).1.callsAt h e = ps.callsAt h e :=
        funext (callsAt_of_bare hbare h e)
      rw [hcall, hcalls, hdue, List.flatMap_cons]
    · rw [hheards, failedLabels_append]
      exact heard_heard ps _ hbare hheard _

/-- What is due at all places, in order, is what the plugins that answer are due. -/
theorem flatMap_callsAt (ps : Plugins) :
    (List.range ps.members.length).flatMap (ps.callsAt h e) =
      (ps.members.zipIdx.filter (·.1.answers h)).map (ps.callOf h e) := by
  -- The places from `offset` on, of plugins that stand behind `offset` others.
  have hfrom : ∀ (back : List Plugin) (offset : Nat),
      (∀ place, ps.members[offset + place]? = back[place]?) →
      (List.range' offset back.length).flatMap (ps.callsAt h e) =
        ((back.zipIdx offset).filter (·.1.answers h)).map (ps.callOf h e) := by
    intro back
    induction back with
    | nil => intro offset _; rfl
    | cons p rest ih =>
      intro offset hback
      have hhere : ps.members[offset]? = some p := hback 0
      have hrest := ih (offset + 1) fun place => by
        rw [Nat.add_assoc, Nat.add_comm 1, hback]
        rfl
      have hfirst : ps.callsAt h e offset = if p.answers h then [ps.callOf h e (p, offset)] else [] := by
        simp only [callsAt, hhere]
      rw [List.length_cons, List.range'_succ, List.flatMap_cons, hrest, hfirst, List.zipIdx_cons]
      cases hanswers : p.answers h with
      | true => simp [hanswers]
      | false => simp [hanswers]
  rw [List.range_eq_range']
  exact hfrom ps.members 0 fun place => by rw [Nat.zero_add]

/-- The calls of a hook, read off the plugins as they are registered. -/
theorem calls_fire (ps : Plugins) :
    (ps.fire h e).2 = (ps.members.zipIdx.filter (·.1.answers h)).map (ps.callOf h e) :=
  (callAll_spec h e _ ps).1.trans (flatMap_callsAt h e ps)

/-- When the turn comes to a place, the listener has been told of the calls before it that failed. -/
theorem told_reached (ps : Plugins) (place : Nat) :
    (ps.reached h e place).1.failures? = ps.heard (failedLabels (ps.reached h e place).2) :=
  (callAll_spec h e _ ps).2.2

/-- All calls of a hook are those before a place, that of the place, and those after it. -/
theorem fire_eq_reached (ps : Plugins) {place : Nat} (hplace : place < ps.members.length) :
    ∃ later, (ps.fire h e).2 = (ps.reached h e place).2 ++
      (((ps.reached h e place).1.callAt h e place).2 ++ later) := by
  obtain ⟨rest, hrest⟩ : ∃ rest, List.range ps.members.length = List.range place ++ place :: rest := by
    obtain ⟨n, hn⟩ := Nat.exists_eq_add_of_lt hplace
    refine ⟨List.range' (place + 1) n, ?_⟩
    have hsplit : List.range' 0 place ++ List.range' (0 + place) (n + 1) =
        List.range' 0 (place + (n + 1)) := List.range'_append_1
    rw [hn, List.range_eq_range', List.range_eq_range', Nat.add_assoc, ← hsplit, Nat.zero_add,
      List.range'_succ]
  unfold fire
  rw [hrest, callAll_append]
  exact ⟨_, rfl⟩

theorem members_register (ps : Plugins) (plugins : List Plugin) :
    (plugins.foldl register ps).members = ps.members ++ plugins := by
  induction plugins generalizing ps with
  | nil => exact (List.append_nil _).symm
  | cons p rest ih =>
    rw [List.foldl_cons, ih]
    exact List.append_assoc ..

end Plugins

/-! ## How a call ends -/

namespace Conduct

variable (c : Conduct) (limitMs : Nat)

/-- A call is given up exactly if it waits longer than the limit. -/
theorem verdict_eq_timedOut_iff :
    c.verdict limitMs = .timedOut ↔ ∃ d, c.delayMs = some d ∧ limitMs < d := by
  unfold verdict
  cases c.delayMs with
  | none => cases c.failure <;> simp
  | some d =>
    by_cases hlate : limitMs < d
    · simp [hlate]
    · cases c.failure <;> simp [hlate]

/-- A call that is not given up fails exactly as the plugin does. -/
theorem verdict_eq_failed_iff (reason : String) :
    c.verdict limitMs = .failed reason ↔
      (∀ d, c.delayMs = some d → d ≤ limitMs) ∧ c.failure = some reason := by
  unfold verdict
  cases c.delayMs with
  | none => cases c.failure <;> simp
  | some d =>
    by_cases hlate : limitMs < d
    · simp [hlate, Nat.not_le_of_lt hlate]
    · cases c.failure <;> simp [hlate, Nat.le_of_not_lt hlate]

end Conduct

/-- What firing a hook promises of the registry after it and of the calls made. Each registration that
answers the hook is called once, in the order of registration, with the outcome that is its own; a call
that waits longer than the limit is given up. When the turn comes to a place, just the calls before it have
been made and the listener has been told of those that failed; in the end it has been told of each once. -/
structure Plugins.Dispatches (ps : Plugins) (h : Hook) (e : Option Event) (after : Plugins)
    (calls : List HookCall) : Prop where
  called : calls = (ps.members.zipIdx.filter (·.1.answers h)).map (ps.callOf h e)
  ended : ∀ c ∈ calls, ∀ name hooks conduct,
    ps.members[c.place]? = some (.custom name hooks conduct) →
      (c.verdict = .timedOut ↔ ∃ d, (conduct h e).delayMs = some d ∧ ps.limitMs < d) ∧
      ∀ reason, c.verdict = .failed reason ↔
        (∀ d, (conduct h e).delayMs = some d → d ≤ ps.limitMs) ∧ (conduct h e).failure = some reason
  inTurn : ∀ place < ps.members.length,
    (ps.reached h e place).1.failures? = ps.heard (failedLabels (ps.reached h e place).2) ∧
      ∃ later, calls = (ps.reached h e place).2 ++
        (((ps.reached h e place).1.callAt h e place).2 ++ later)
  told : after.failures? = ps.heard (failedLabels calls)
  counted : ps.listener = .meter → ∀ cs, ps.failures? = some cs → ∃ cs', after.failures? = some cs' ∧
    ∀ label : HookLabel, cs'.value label.values = cs.value label.values +
      (failedLabels calls).countP fun l => Counters.key l.values = Counters.key label.values
  kept : after.bare = ps.bare

theorem Plugins.dispatches_fire (ps : Plugins) (h : Hook) (e : Option Event) :
    ps.Dispatches h e (ps.fire h e).1 (ps.fire h e).2 := by
  have htold : (ps.fire h e).1.failures? = ps.heard (failedLabels (ps.fire h e).2) :=
    (callAll_spec h e _ ps).2.2
  constructor
  case called => exact calls_fire h e ps
  case ended =>
    intro c hc name hooks conduct hplugin
    rw [calls_fire, List.mem_map] at hc
    obtain ⟨⟨p, place⟩, hp, rfl⟩ := hc
    have hat : ps.members[place]? = some p :=
      List.mem_zipIdx_iff_getElem?.1 (List.mem_filter.1 hp).1
    obtain rfl : p = .custom name hooks conduct := Option.some.inj (hat.symm.trans hplugin)
    exact ⟨(conduct h e).verdict_eq_timedOut_iff ps.limitMs,
      (conduct h e).verdict_eq_failed_iff ps.limitMs⟩
  case inTurn => exact fun place hplace => ⟨told_reached h e ps place, fire_eq_reached h e ps hplace⟩
  case told => exact htold
  case counted =>
    intro hlistener cs hcs
    refine ⟨cs.raiseAll (failedLabels (ps.fire h e).2), ?_, cs.value_raiseAll _⟩
    rw [htold]
    simp only [heard, hlistener, hcs, Option.map_some]
  case kept => exact (callAll_spec h e _ ps).2.1

/-! ## Events and the shutdown -/

/-- A topic as the name of its hook spells it: the checks of health are called so. -/
def Topic.spelled : Topic → String
  | .healthPassed => "health_check_passed"
  | .healthFailed => "health_check_failed"
  | topic => String.ofList (topic.name.toList.map fun c => if c = '.' then '_' else c)

/-- The hook of a topic is the one named after it. -/
theorem Hook.name_on (topic : Topic) : (Hook.on topic).name = "on_" ++ topic.spelled := by
  cases topic <;> rfl

/-- The bus of a control plane to which nobody but its plugins is subscribed. -/
def Plane.ownBus : Bus Receiver := (Bus.empty.subscribe (.plain .plugins [] none)).2

theorem Plane.publish_ownBus (e : Event) :
    Plane.ownBus.publish e = (Plane.ownBus, [.delivered .plugins e], .ok ()) := by
  let own : Bus.Subscription Receiver := { id := ⟨1⟩, tag := .plugins, kinds := [], settled := none }
  have hreached : Bus.step Plane.ownBus { event := e, remaining := [own] } [] =
      .more Plane.ownBus [{ event := e, remaining := [], reacting := some ⟨own, [], none⟩ }]
        [.delivered .plugins e] := rfl
  have hpublish : Plane.ownBus.publish e = Bus.run Plane.ownBus [{ event := e, remaining := [own] }] :=
    rfl
  rw [hpublish, Bus.run_more hreached, Bus.run_more rfl, Bus.run_over rfl]
  rfl

/-- Whatever plugins are registered, whatever they do in a call and whatever the limit: plugins are kept in
the order of their registration, a hook calls those that answer it in turn, an event fires the hook named
after its topic, one of unknown kind fires none, the shutdown fires its own, and whoever publishes an event
to the plugins is answered that all went well. -/
theorem Plugins.hooks_are_called_in_turn (ps : Plugins) :
    (∀ plugins : List Plugin, (plugins.foldl register ps).members = ps.members ++ plugins) ∧
    (∀ h e, ps.Dispatches h e (ps.fire h e).1 (ps.fire h e).2) ∧
    (∀ topic e, e.kind = .known topic → ps.handle e = ps.fire (.on topic) (some e)) ∧
    (∀ topic, (Hook.on topic).name = "on_" ++ topic.spelled) ∧
    (∀ e, e.kind = .unknown → ps.handle e = (ps, [])) ∧
    ps.shutdown = ps.fire .shutdown none ∧
    ∀ p : Plane, p.plugins = ps → p.bus = Plane.ownBus → ∀ e, p.publish e =
      (.ok (), { p with plugins := (ps.handle e).1 }, (ps.handle e).2.map .hook) := by
  refine ⟨ps.members_register, ps.dispatches_fire, ?_, Hook.name_on, ?_, rfl, ?_⟩
  · intro topic e hkind
    unfold handle
    rw [hkind]
    rfl
  · intro e hkind
    unfold handle
    rw [hkind]
    rfl
  · rintro p rfl hbus e
    unfold Plane.publish
    rw [hbus, Plane.publish_ownBus]
    simp only [Plane.attend, List.append_nil, ← hbus]

namespace Plugins

/-- The event of an instance that has arrived. -/
def arrival : Event :=
  { id := "evt_1", kind := .known .instanceCreated, tenant := "acme", instanceId := some "inst_1"
    timestamp := ⟨0, 0⟩ }

/-- A plugin that fails whenever it is called. -/
def broken : Plugin :=
  .custom "broken" [.on .instanceCreated, .shutdown] fun _ _ => { failure := some "broken" }

/-- A plugin that waits as long as the limit lets it, and longer when an instance was created. -/
def dawdling : Plugin :=
  .custom "dawdling" Hook.all fun h _ => { delayMs := some (if h = .on .instanceCreated then 101 else 100) }

/-- Metrics that are told of failures, a plugin registered twice that fails, one that waits too long and one
that is not concerned. -/
def rowdy : Plugins :=
  [.metrics {}, broken, dawdling, .custom "aside" [.on .instanceStopped] (fun _ _ => {}), broken,
    .audit {}].foldl register { limitMs := 100, listener := .meter }

theorem hooks_are_called_in_turn_rowdy :
    arrival.kind = .known .instanceCreated ∧
      rowdy.handle arrival = rowdy.fire (.on .instanceCreated) (some arrival) ∧
      rowdy.Dispatches (.on .instanceCreated) (some arrival) (rowdy.handle arrival).1
        (rowdy.handle arrival).2 ∧
      (rowdy.handle arrival).2.map (fun c => (c.place, c.plugin, c.verdict, c.told)) =
        [(0, "observability-metrics", .done, .nobody), (1, "broken", .failed "broken", .meter),
          (2, "dawdling", .timedOut, .meter), (4, "broken", .failed "broken", .meter),
          (5, "audit-hook", .done, .nobody)] := by
  obtain ⟨-, hfire, hknown, -⟩ := hooks_are_called_in_turn rowdy
  have hhandle := hknown .instanceCreated arrival rfl
  refine ⟨rfl, hhandle, ?_, by rfl⟩
  rw [hhandle]
  exact hfire _ _

end Plugins

end Fleet
