import Fleet.Proofs.Dispatch
import Fleet.Proofs.Reading

/-!
# The audit trail keeps one record of each event

Events are handed to the plugins one after the other, and before each of them the plugins may change on
their own: a neighbour that has failed may come to work, a recorder may come to refuse (`Round`). An audit
trail that is left alone keeps what its events are due, whatever becomes of its neighbours:

    trail after = trail.keeping ((rounds.filterMap (trail.due ·.event)).filter (!trail.recorder.refuses ·))
                                                                                        (trailAt?_attend)

Its calls all go well, also if its recorder refuses what it is given (`calls_attend`). -/

namespace Fleet

namespace Audit

/-! ## One record -/

/-- What the record of an event on a topic tells: what was done and to what, all that the payload says and,
where the payload says nothing, whose event it was, and a reason exactly if there was an error. -/
structure Record.Tells (r : Record) (topic : Topic) (e : Event) : Prop where
  action : r.action = "ctrlplane." ++ topic.name
  resourceId : r.resourceId = e.instanceId.getD e.id
  payload : ∀ key value, e.payload.get? key = some value → r.metadata.get? key = some value
  attribution : ∀ key, e.payload.get? key = none → r.metadata.get? key = (attribution e).get? key
  unreasoned : r.reason = none ↔ e.payload.get? "error" = none
  text : ∀ text, e.payload.get? "error" = some (.str text) → r.reason = some text
  written : ∀ value, e.payload.get? "error" = some value → (∀ text, value ≠ .str text) →
    r.reason = some value.write

theorem Record.tells_of (topic : Topic) (e : Event) : (Record.of (.ofTopic topic) e).Tells topic e := by
  have hmetadata : ∀ key, (Record.of (.ofTopic topic) e).metadata.get? key =
      (e.payload.get? key).or ((Audit.attribution e).get? key) := fun key =>
    Dict.get?_foldl_insert e.payload.ascending (Audit.attribution e) key
  have hreason : (Record.of (.ofTopic topic) e).reason = reasonOf e.payload := rfl
  constructor
  case action => exact actionOf_eq topic
  case resourceId => rfl
  case payload =>
    intro key value hvalue
    rw [hmetadata, hvalue]
    rfl
  case attribution =>
    intro key hnone
    rw [hmetadata, hnone]
    rfl
  case unreasoned => rw [hreason, reasonOf, Option.map_eq_none_iff]
  case text =>
    intro text htext
    rw [hreason, reasonOf, htext]
    rfl
  case written =>
    intro value hvalue hnotext
    rw [hreason, reasonOf, hvalue]
    cases value with
    | str text => exact absurd rfl (hnotext text)
    | _ => rfl

namespace Trail

variable (t : Trail)

/-- The record that an event is due, if any. -/
def due (e : Event) : Option Record := e.kind.hook?.bind fun h => t.entry? h e

/-- Whether events on a topic are recorded. -/
def Enables (topic : Topic) : Prop :=
  ∀ actions, t.enabled = some actions → "ctrlplane." ++ topic.name ∈ actions

def keeping (records : List Record) : Trail :=
  { t with recorder := { t.recorder with kept := t.recorder.kept ++ records } }

theorem keeping_nil : t.keeping [] = t := by
  unfold keeping
  rw [List.append_nil]

theorem keeping_keeping (records later : List Record) :
    (t.keeping records).keeping later = t.keeping (records ++ later) := by
  simp only [keeping, List.append_assoc]

theorem isEnabled_iff (topic : Topic) :
    t.isEnabled (Profile.ofTopic topic).action = true ↔ t.Enables topic := by
  have haction : (Profile.ofTopic topic).action = "ctrlplane." ++ topic.name := actionOf_eq topic
  unfold isEnabled Enables
  rw [haction]
  cases t.enabled with
  | none => exact iff_of_true rfl nofun
  | some actions =>
    rw [List.contains_iff_mem]
    exact ⟨fun hmem _ hsome => Option.some.inj hsome ▸ hmem, fun hall => hall actions rfl⟩

/-- An event is due a record exactly if its topic is known and recorded. -/
theorem due_eq_some_iff (e : Event) (r : Record) :
    t.due e = some r ↔
      ∃ topic, e.kind = .known topic ∧ t.Enables topic ∧ r = .of (.ofTopic topic) e := by
  unfold due
  cases hkind : e.kind with
  | unknown => exact iff_of_false nofun fun ⟨_, hknown, _⟩ => nomatch hknown
  | known topic =>
    have hentry : ((Kind.known topic).hook?.bind fun h => t.entry? h e) =
        if t.isEnabled (Profile.ofTopic topic).action then some (.of (.ofTopic topic) e) else none := rfl
    rw [hentry]
    by_cases henabled : t.Enables topic
    · rw [if_pos ((t.isEnabled_iff topic).2 henabled)]
      constructor
      · rintro ⟨⟩
        exact ⟨topic, rfl, henabled, rfl⟩
      · rintro ⟨_, ⟨⟩, -, rfl⟩
        rfl
    · rw [if_neg (mt (t.isEnabled_iff topic).1 henabled)]
      refine iff_of_false nofun ?_
      rintro ⟨_, ⟨⟩, henabled', -⟩
      exact henabled henabled'

/-- What a trail keeps of an event. -/
theorem observe_snd (h : Hook) (e : Event) :
    (t.observe h e).2 = t.keeping ((Option.toList <| t.entry? h e).filter (!t.recorder.refuses ·)) := by
  unfold observe
  cases t.entry? h e with
  | none => exact t.keeping_nil.symm
  | some entry =>
    cases hrefuses : t.recorder.refuses entry with
    | true => simp [Recorder.record, hrefuses, keeping]
    | false => simp [Recorder.record, hrefuses, keeping]

end Trail

end Audit

/-! ## The trail among its neighbours -/

/-- The audit trail that a plugin is, if it is one. -/
def Plugin.trail? : Plugin → Option Audit.Trail
  | .audit trail => some trail
  | _ => none

namespace Plugins

/-- The audit trail at a place, if there is one. -/
def trailAt? (ps : Plugins) (place : Nat) : Option Audit.Trail := ps.members[place]?.bind Plugin.trail?

variable {ps : Plugins} {place : Nat} {trail : Audit.Trail}

theorem trailAt?_eq_some_iff :
    ps.trailAt? place = some trail ↔ ps.members[place]? = some (.audit trail) := by
  unfold trailAt?
  cases ps.members[place]? with
  | none => simp
  | some p => cases p <;> simp [Plugin.trail?]

/-- No trail shows failed calls that were counted. -/
theorem trail?_overlooks : Overlooks Plugin.trail? := fun _ _ => rfl

/-- The calls of a turn are of its place. -/
theorem place_of_mem_callAt {h : Hook} {e : Option Event} {c : HookCall}
    (hc : c ∈ (ps.callAt h e place).2) : c.place = place := by
  rw [(ps.callAt_spec h e place).1, callsAt] at hc
  split at hc
  · split at hc
    · rw [List.mem_singleton.1 hc]
      rfl
    · cases hc
  · cases hc

/-- The call that is made of an audit trail. -/
def trailCall (place : Nat) (h : Hook) (e : Event) (entry : Option (Audit.Record × Bool)) : HookCall :=
  { place, plugin := "audit-hook", hook := h, event := some e, verdict := .done, entry, told := .nobody }

/-- In its own turn a trail observes the event, and its call goes well. -/
theorem callAt_trail (htrail : ps.trailAt? place = some trail) (topic : Topic) (e : Event) :
    (ps.callAt (.on topic) (some e) place).1.trailAt? place = some (trail.observe (.on topic) e).2 ∧
      (ps.callAt (.on topic) (some e) place).2 =
        [trailCall place (.on topic) e (trail.observe (.on topic) e).1] := by
  have hat := trailAt?_eq_some_iff.1 htrail
  obtain ⟨hlt, -⟩ := List.getElem?_eq_some_iff.1 hat
  have hanswers : (Plugin.audit trail).answers (.on topic) = true := rfl
  unfold callAt
  simp only [hat, hanswers, if_true, Plugin.call]
  refine ⟨trailAt?_eq_some_iff.2 ?_, rfl⟩
  exact List.getElem?_set_self hlt

/-- Among the turns of some places, each once, a trail has its own if its place is one of them. -/
theorem callAll_trail (topic : Topic) (e : Event) {places : List Nat} (hnodup : places.Nodup)
    (htrail : ps.trailAt? place = some trail) :
    (callAll (.on topic) (some e) places ps).1.trailAt? place =
        some (if place ∈ places then (trail.observe (.on topic) e).2 else trail) ∧
      (callAll (.on topic) (some e) places ps).2.filter (·.place = place) =
        if place ∈ places then [trailCall place (.on topic) e (trail.observe (.on topic) e).1]
        else [] := by
  refine ⟨viewAt?_callAll trail?_overlooks (f := fun trail => (trail.observe (.on topic) e).2)
    (fun _ _ h => (callAt_trail h topic e).1) hnodup htrail, ?_⟩
  induction places generalizing ps trail with
  | nil => rfl
  | cons turn rest ih =>
    obtain ⟨hturn, hrest⟩ := List.nodup_cons.1 hnodup
    simp only [callAll, List.filter_append]
    by_cases hmine : turn = place
    · subst hmine
      obtain ⟨hafter, hcall⟩ := callAt_trail htrail topic e
      rw [ih hrest hafter, if_neg hturn, if_pos (List.mem_cons_self ..), hcall]
      simp [trailCall]
    · have hafter := (viewAt?_callAt_of_ne trail?_overlooks ps (.on topic) (some e) hmine).trans htrail
      have hnone : (ps.callAt (.on topic) (some e) turn).2.filter (·.place = place) = [] := by
        refine List.filter_eq_nil_iff.2 fun c hc => ?_
        rw [place_of_mem_callAt hc]
        simpa using hmine
      have hmem : place ∈ turn :: rest ↔ place ∈ rest := by
        rw [List.mem_cons, or_iff_right (Ne.symm hmine)]
      rw [hnone, List.nil_append, ih hrest hafter]
      simp only [hmem]

/-! ## One event -/

/-- What becomes of the call of a trail with an event, if there is one: it goes well, and nobody is told. -/
def wellCalled (e : Event) : Option (Hook × Option Event × Verdict × Listener) :=
  e.kind.hook?.map fun h => (h, some e, .done, .nobody)

/-- What an audit plugin does with an event: it keeps what the event is due, and its call goes well. -/
theorem handle_trail (htrail : ps.trailAt? place = some trail) (e : Event) :
    (ps.handle e).1.trailAt? place =
        some (trail.keeping ((trail.due e).toList.filter (!trail.recorder.refuses ·))) ∧
      ((ps.handle e).2.filter (·.place = place)).map (fun c => (c.hook, c.event, c.verdict, c.told)) =
        (wellCalled e).toList := by
  unfold handle wellCalled Audit.Trail.due
  cases e.kind with
  | unknown => exact ⟨htrail.trans (congrArg some trail.keeping_nil.symm), rfl⟩
  | known topic =>
    obtain ⟨hlt, -⟩ := List.getElem?_eq_some_iff.1 (trailAt?_eq_some_iff.1 htrail)
    obtain ⟨hafter, hcalls⟩ := callAll_trail topic e List.nodup_range htrail
    rw [if_pos (List.mem_range.2 hlt)] at hafter hcalls
    have hfire : (ps.fire (.on topic) (some e)) =
        callAll (.on topic) (some e) (List.range ps.members.length) ps := rfl
    simp only [Kind.hook?, hfire]
    rw [hcalls]
    exact ⟨hafter.trans (congrArg some (trail.observe_snd (.on topic) e)), rfl⟩

/-! ## One event after the other -/

/-- An event, and how the plugins change on their own before it comes. -/
structure Round where
  event : Event
  meanwhile : Plugins → Plugins := id

def Round.Spares (r : Round) (place : Nat) : Prop :=
  ∀ ps : Plugins, (r.meanwhile ps).trailAt? place = ps.trailAt? place

/-- Whether a trail at a place stays one, though perhaps another. -/
def Round.Leaves (r : Round) (place : Nat) : Prop :=
  ∀ ps : Plugins, (ps.trailAt? place).isSome → ((r.meanwhile ps).trailAt? place).isSome

/-- Hands events to the plugins, one after the other. -/
def attend : List Round → Plugins → Plugins × List HookCall
  | [], ps => (ps, [])
  | r :: rest, ps =>
    let (ps, calls) := (r.meanwhile ps).handle r.event
    let (ps, later) := attend rest ps
    (ps, calls ++ later)

/-- A trail that is left alone keeps what the events are due, in their order. -/
theorem trailAt?_attend {rounds : List Round} (hspares : ∀ r ∈ rounds, r.Spares place)
    (htrail : ps.trailAt? place = some trail) :
    (attend rounds ps).1.trailAt? place =
      some (trail.keeping ((rounds.filterMap (trail.due ·.event)).filter (!trail.recorder.refuses ·))) := by
  induction rounds generalizing ps trail with
  | nil => exact htrail.trans (congrArg some trail.keeping_nil.symm)
  | cons r rest ih =>
    have hhere := (hspares r (.head _) ps).trans htrail
    have hnext := ih (fun r hr => hspares r (.tail _ hr)) (handle_trail hhere r.event).1
    -- What the events are due depends on the enabled actions alone.
    have hdue : ∀ records, (trail.keeping records).due = trail.due := fun _ => rfl
    have hrefuses : ∀ records, (trail.keeping records).recorder.refuses = trail.recorder.refuses :=
      fun _ => rfl
    rw [hdue, hrefuses, Audit.Trail.keeping_keeping, ← List.filter_append] at hnext
    refine hnext.trans ?_
    rw [List.filterMap_cons]
    cases trail.due r.event with
    | none => rfl
    | some record => rfl

/-- A trail is called once with each event of known kind, in order, and these calls go well, whatever its
recorder makes of them. -/
theorem calls_attend {rounds : List Round} (hleaves : ∀ r ∈ rounds, r.Leaves place)
    (htrail : (ps.trailAt? place).isSome) :
    ((attend rounds ps).2.filter (·.place = place)).map (fun c => (c.hook, c.event, c.verdict, c.told)) =
      rounds.filterMap (wellCalled ·.event) := by
  induction rounds generalizing ps with
  | nil => rfl
  | cons r rest ih =>
    obtain ⟨trail, hhere⟩ := Option.isSome_iff_exists.1 (hleaves r (.head _) ps htrail)
    obtain ⟨hafter, hcalls⟩ := handle_trail hhere r.event
    have hnext := ih (fun r hr => hleaves r (.tail _ hr)) (Option.isSome_of_eq_some hafter)
    simp only [attend, List.filter_append, List.map_append]
    rw [hcalls, hnext, List.filterMap_cons]
    cases wellCalled r.event with
    | none => rfl
    | some call => rfl

/-- Whatever the neighbours of an audit trail are and become, and whatever events come: the trail keeps, in
order and once each, the records that are due, but for those that its recorder refuses, and all of them if
it refuses none; the records due are those of the events of known kind whose topic is recorded. Even if its
recorder changes and refuses what it likes, the trail is called once with each event of known kind, each
call goes well and nobody is told of a failure. -/
theorem audit_trail_is_complete {ps : Plugins} {place : Nat} {trail : Audit.Trail}
    (htrail : ps.trailAt? place = some trail) (hfresh : trail.recorder.kept = []) :
    (∀ rounds : List Round, (∀ r ∈ rounds, r.Spares place) →
      ∃ after, (attend rounds ps).1.trailAt? place = some after ∧
        after.recorder.kept =
          (rounds.filterMap (trail.due ·.event)).filter (!trail.recorder.refuses ·) ∧
        ((∀ record, trail.recorder.refuses record = false) →
          after.recorder.kept = rounds.filterMap (trail.due ·.event))) ∧
    (∀ e record, trail.due e = some record ↔
      ∃ topic, e.kind = .known topic ∧ trail.Enables topic ∧ record = .of (.ofTopic topic) e) ∧
    (∀ topic e, (Audit.Record.of (.ofTopic topic) e).Tells topic e) ∧
    ∀ rounds : List Round, (∀ r ∈ rounds, r.Leaves place) →
      ((attend rounds ps).2.filter (·.place = place)).map
          (fun c => (c.hook, c.event, c.verdict, c.told)) =
        rounds.filterMap fun r => r.event.kind.hook?.map fun h => (h, some r.event, .done, .nobody) := by
  refine ⟨?_, trail.due_eq_some_iff, Audit.Record.tells_of, ?_⟩
  · intro rounds hspares
    have hkept : (trail.keeping ((rounds.filterMap (trail.due ·.event)).filter
        (!trail.recorder.refuses ·))).recorder.kept =
          (rounds.filterMap (trail.due ·.event)).filter (!trail.recorder.refuses ·) := by
      unfold Audit.Trail.keeping
      simp only [hfresh, List.nil_append]
    refine ⟨_, trailAt?_attend hspares htrail, hkept, fun hnone => hkept.trans ?_⟩
    refine List.filter_eq_self.2 fun record _ => ?_
    rw [hnone]
    rfl
  · intro rounds hleaves
    exact calls_attend hleaves (Option.isSome_of_eq_some htrail)

/-- An audit trail that records only what was created and what is not healthy. -/
def selective : Audit.Trail := { enabled := some ["ctrlplane.instance.created", "ctrlplane.health.failed"] }

/-- A selective trail between a plugin that fails and one that waits too long, and metrics that are told. -/
def watched : Plugins :=
  [broken, .audit selective, dawdling, .metrics {}].foldl register { limitMs := 100, listener := .meter }

/-- The event of a health check that failed, with an error that is no text. -/
def alarm : Event :=
  { id := "evt_2", kind := .known .healthFailed, tenant := "acme"
    payload := Dict.empty.insert "error" (.arr [.str "late"]), timestamp := ⟨0, 0⟩ }

/-- An instance is created, it stops and something unknown happens, which is not recorded; then, once the
plugin that fails has been taken out, a health check fails. -/
def eventful : List Round :=
  [{ event := arrival }, { event := { arrival with kind := .known .instanceStopped } },
    { event := { arrival with kind := .unknown } },
    { event := alarm
      meanwhile := fun ps => { ps with members := ps.members.set 0 (.custom "aside" [] fun _ _ => {}) } }]

/-- The recorder comes to refuse everything. -/
def obstructed : Round :=
  { event := alarm
    meanwhile := fun ps =>
      { ps with members := ps.members.set 1 (.audit { recorder := { refuses := fun _ => true } }) } }

theorem eventful_spares : ∀ r ∈ eventful, r.Spares 1 := by
  intro r hr ps
  simp only [eventful, List.mem_cons, List.not_mem_nil, or_false] at hr
  obtain rfl | rfl | rfl | rfl := hr
  · rfl
  · rfl
  · rfl
  · show (ps.members.set 0 _)[1]?.bind Plugin.trail? = ps.members[1]?.bind Plugin.trail?
    rw [List.getElem?_set_ne (Nat.zero_ne_add_one 0)]

theorem obstructed_leaves : obstructed.Leaves 1 := by
  intro ps htrail
  obtain ⟨trail, htrail⟩ := Option.isSome_iff_exists.1 htrail
  obtain ⟨hlt, -⟩ := List.getElem?_eq_some_iff.1 (trailAt?_eq_some_iff.1 htrail)
  exact Option.isSome_of_eq_some (trailAt?_eq_some_iff.2 (List.getElem?_set_self hlt))

theorem audit_trail_is_complete_watched :
    watched.trailAt? 1 = some selective ∧
      (∃ after, (attend eventful watched).1.trailAt? 1 = some after ∧
        after.recorder.kept = [.of (.ofTopic .instanceCreated) arrival, .of (.ofTopic .healthFailed) alarm] ∧
        after.recorder.kept.map (·.reason) = [none, some "[\"late\"]"]) ∧
      ((attend [obstructed] watched).2.filter (·.place = 1)).map
          (fun c => (c.hook, c.event, c.verdict, c.told)) =
        [(.on .healthFailed, some alarm, .done, .nobody)] := by
  obtain ⟨hkept, -, -, hcalls⟩ :=
    audit_trail_is_complete (show watched.trailAt? 1 = some selective from rfl) rfl
  obtain ⟨after, hafter, -, hall⟩ := hkept eventful eventful_spares
  have hrecords := hall fun _ => rfl
  refine ⟨rfl, ⟨after, hafter, hrecords, ?_⟩, hcalls [obstructed] ?_⟩
  · rw [hrecords]
    rfl
  · exact fun r hr => List.mem_singleton.1 hr ▸ obstructed_leaves

end Plugins

end Fleet
