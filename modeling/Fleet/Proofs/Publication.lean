import Fleet.Proofs.Refusal
import Fleet.Proofs.Retelling

/-!
# What is published, and when

A request that succeeds publishes the event of its topic, and one that fails publishes an event only of a
quota that was reached, or of a record that it marked failed (`Request.topics`). The event is the last
call of the request, so that the store is by then as it stays, also where the repository refuses writes:

    (procedure limit caller stamp q).Announces q caller stamp p            (procedure_announces)

for every control plane `p` whose bus is open. -/

namespace Fleet

open Service Procedure

/-- The actor that the events of a caller name. -/
def Caller.actor (c : Caller) : Option String := if c.subject = "" then none else some c.subject

namespace Service

namespace Request

/-- The topic of the event that tells of success. -/
def topic : Request → Option Topic
  | .create _ => some .instanceCreated
  | .start _ | .restart _ => some .instanceStarted
  | .stop _ => some .instanceStopped
  | .scale _ _ => some .instanceScaled
  | .suspend _ _ => some .instanceSuspended
  | .unsuspend _ => some .instanceUnsuspended
  | .delete _ => some .instanceDeleted
  | .get _ | .getBySlug _ | .list _ | .update _ _ => none

/-- Whether the failure of a provider is announced, once the record is marked failed. -/
def alarms : Request → Bool
  | .start _ | .stop _ | .restart _ | .delete _ => true
  | _ => false

/-- The id of the instance that the request is about. -/
def about (stamp : Stamp) : Request → Option String
  | .create _ => some stamp.instanceId
  | .get id | .update id _ | .delete id | .start id | .stop id | .restart id | .scale id _
  | .suspend id _ | .unsuspend id => some id
  | .getBySlug _ | .list _ => none

/-- The topics of the events that come with a failure, where the record may have been marked failed. -/
def failureTopics (q : Request) (marked : Bool) : Failure.Kind → List Topic
  | .quotaExceeded => [.quotaExceeded]
  | .providerUnavailable => if q.alarms && marked then [.instanceFailed] else []
  | _ => []

/-- The topics of the events that come with a result. -/
def topics (q : Request) (marked : Bool) : Except Failure Reply → List Topic
  | .ok _ => q.topic.toList
  | .error f => q.failureTopics marked f.kind

/-- Whether a store has what a result says: the record as it was replied, no record of an instance that
was deleted, and a failed record where the provider failed. -/
def Holds (q : Request) (stamp : Stamp) (s : Store) : Except Failure Reply → Prop
  | .ok (.record r) => (q.about stamp).bind s.records.get? = some r
  | .ok .removed => (q.about stamp).bind s.records.get? = none
  | .ok (.page _) => True
  | .error f => f.kind = .providerUnavailable →
    ∃ r, (q.about stamp).bind s.records.get? = some r ∧ r.state = .failed

theorem failureTopics_of_isRefusal (q : Request) (marked : Bool) {k : Failure.Kind}
    (h : k.isRefusal = true) : q.failureTopics marked k = [] := by
  cases k <;> first | rfl | cases h

/-- No request succeeds with the event of a quota. -/
theorem topic_ne_quotaExceeded {q : Request} {topic : Topic} (h : q.topic = some topic) :
    topic ≠ .quotaExceeded := by
  rintro rfl
  cases q <;> cases h

/-- Where no failure of a provider is announced, nobody asks whether a record was marked. -/
theorem topics_of_alarms {q : Request} (h : q.alarms = false) (marked marked' : Bool)
    (result : Except Failure Reply) : q.topics marked result = q.topics marked' result := by
  cases result with
  | ok reply => rfl
  | error f =>
    unfold topics failureTopics
    simp only [h, Bool.false_and]

end Request

/-- Whether an event is of a caller and about an instance. -/
structure Event.Signed (who : Caller) (id : Option String) (e : Event) : Prop where
  tenant : e.tenant = who.tenant
  actor : e.actor = who.actor
  instanceId : e.instanceId = id

end Service

/-- Whether a course publishes what comes with its result, in its caller's name, and only once the
store is as it stays and has what the result says. -/
structure Course.Tells (q : Request) (caller : Option Caller) (stamp : Stamp) (c : Course Reply) :
    Prop where
  kinds : c.events.map (·.kind) = (q.topics c.marks c.reply).map .known
  signed : ∀ e ∈ c.events, ∃ who, caller = some who ∧
    Event.Signed who (if e.kind = .known .quotaExceeded then none else q.about stamp) e
  committed : ∀ m ∈ c.moments, (m.published = none → m.seen = []) ∧
    (m.published ≠ none → m.plane.store = c.after.store ∧ q.Holds stamp m.plane.store c.reply)

namespace Course.Tells

variable {q : Request} {caller : Option Caller} {stamp : Stamp} {reply : Except Failure Reply}
  {after : Plane}

/-- Nothing is published where nothing has to be. -/
theorem silent (h : q.topics false reply = []) : Course.Tells q caller stamp ⟨reply, [], after⟩ where
  kinds := (congrArg (List.map Kind.known) h).symm
  signed e he := by cases he
  committed m hm := by cases hm

/-- A moment before all others at which nothing is published or marked makes no difference. -/
theorem since {c : Course Reply} (h : c.Tells q caller stamp) {m : Moment} (hm : m.published = none)
    (hseen : m.seen = []) (hmarks : q.alarms = true → m.exchange.marks = false) :
    (c.since m).Tells q caller stamp := by
  have hevents : (c.since m).events = c.events := List.filterMap_cons_none hm
  have htopics : q.topics (c.since m).marks c.reply = q.topics c.marks c.reply := by
    have hmarked : (c.since m).marks = (m.exchange.marks || c.marks) := List.any_cons ..
    cases halarms : q.alarms with
    | true => rw [hmarked, hmarks halarms, Bool.false_or]
    | false => exact Request.topics_of_alarms halarms _ _ _
  constructor
  · rw [hevents]
    exact h.kinds.trans (congrArg _ htopics.symm)
  · rw [hevents]
    exact h.signed
  · intro m' hm'
    rcases List.mem_cons.1 hm' with rfl | hm'
    · exact ⟨fun _ => hseen, fun hpublished => absurd hm hpublished⟩
    · exact h.committed m' hm'

/-- One event is published at the end. -/
theorem last (earlier : List Moment) (topic : Topic) {m : Moment} {e : Event} {who : Caller}
    (hearlier : ∀ m' ∈ earlier, m'.published = none ∧ m'.seen = []) (hm : m.published = some e)
    (hstore : m.plane.store = after.store)
    (htopics : q.topics (Course.marks ⟨reply, earlier ++ [m], after⟩) reply = [topic])
    (hkind : e.kind = .known topic) (hwho : caller = some who)
    (hsigned : Event.Signed who (if e.kind = .known .quotaExceeded then none else q.about stamp) e)
    (hholds : q.Holds stamp after.store reply) :
    Course.Tells q caller stamp ⟨reply, earlier ++ [m], after⟩ := by
  have hevents : Course.events ⟨reply, earlier ++ [m], after⟩ = [e] := by
    unfold Course.events
    rw [List.filterMap_append, List.filterMap_eq_nil_iff.2 fun m' hm' => (hearlier m' hm').1]
    simp [hm]
  constructor
  · rw [hevents, htopics, List.map_singleton, List.map_singleton, hkind]
  · intro e' he'
    rw [hevents] at he'
    obtain rfl := List.mem_singleton.1 he'
    exact ⟨who, hwho, hsigned⟩
  · intro m' hm'
    rcases List.mem_append.1 hm' with hm' | hm'
    · obtain ⟨hnone, hseen⟩ := hearlier m' hm'
      exact ⟨fun _ => hseen, fun hpublished => absurd hnone hpublished⟩
    · obtain rfl := List.mem_singleton.1 hm'
      refine ⟨fun hnone => ?_, fun _ => ⟨hstore, hstore ▸ hholds⟩⟩
      rw [hm] at hnone
      cases hnone

end Course.Tells

namespace Service

/-! ## Events are signed -/

namespace Event.Signed

variable {who : Caller} {id : Option String} {e : Event}

theorem withField (h : Event.Signed who id e) (name : String) (value : Json) :
    Event.Signed who id (e.withField name value) := ⟨h.tenant, h.actor, h.instanceId⟩

theorem attributed (htenant : e.tenant = who.tenant) (hactor : e.actor = none)
    (hid : e.instanceId = id) : Event.Signed who id (attributed who e) := by
  unfold Service.attributed
  split
  · rename_i hempty
    exact ⟨htenant, by rw [hactor, Caller.actor, if_pos hempty], hid⟩
  · rename_i hnamed
    exact ⟨htenant, by rw [Caller.actor, if_neg hnamed]; rfl, hid⟩

theorem eventOf (stamp : Stamp) (topic : Topic) {i : Instance} (htenant : i.tenant = who.tenant) :
    Event.Signed who (some i.id) (eventOf who stamp topic i) := by
  unfold Service.eventOf
  exact attributed htenant rfl rfl

theorem createdEvent (stamp : Stamp) {i : Instance} (htenant : i.tenant = who.tenant) :
    Event.Signed who (some i.id) (createdEvent who stamp i) := by
  unfold Service.createdEvent
  exact ((((eventOf stamp .instanceCreated htenant).withField _ _).withField _ _).withField _ _).withField
    _ _

theorem failedEvent (stamp : Stamp) {i : Instance} (htenant : i.tenant = who.tenant)
    (during : Undertaking) (cause : Provider.Error) :
    Event.Signed who (some i.id) (failedEvent who stamp i during cause) := by
  unfold Service.failedEvent
  exact ((eventOf stamp .instanceFailed htenant).withField _ _).withField _ _

end Event.Signed

theorem kind_failedEvent (who : Caller) (stamp : Stamp) (i : Instance) (during : Undertaking)
    (cause : Provider.Error) : (failedEvent who stamp i during cause).kind = .known .instanceFailed := by
  simp [failedEvent]

namespace Errand

variable {q : Request} {e : Errand} {i : Instance}

theorem about_of_errand (he : q.errand = some e) (stamp : Stamp) : q.about stamp = some e.id := by
  cases q with
  | start id | stop id | delete id | restart id | scale id r | suspend id reason | unsuspend id =>
    cases he
    rfl
  | _ => cases he

theorem alarms_of_errand (he : q.errand = some e) : q.alarms = e.marks.isSome := by
  cases q with
  | start id | stop id | delete id | restart id | scale id r | suspend id reason | unsuspend id =>
    cases he
    rfl
  | _ => cases he

/-- The event of an errand is of its topic, and about its record. -/
theorem news_signed (he : q.errand = some e) {who : Caller} (stamp : Stamp)
    (htenant : i.tenant = who.tenant) : ∃ topic, q.topic = some topic ∧
      (e.news who stamp i).kind = .known topic ∧ Event.Signed who (some i.id) (e.news who stamp i) := by
  have hsigned := fun topic => Event.Signed.eventOf stamp topic htenant
  cases q with
  | start id | stop id | delete id | unsuspend id =>
    cases he
    exact ⟨_, rfl, kind_eventOf .., hsigned _⟩
  | restart id | suspend id reason =>
    cases he
    exact ⟨_, rfl, by rw [kind_withField, kind_eventOf], (hsigned _).withField _ _⟩
  | scale id r =>
    cases he
    refine ⟨_, rfl, ?_, (((hsigned _).withField _ _).withField _ _).withField _ _⟩
    simp [scaledEvent]
  | _ => cases he

/-- An errand marks no record failed before its provider fails. -/
theorem enters_alive (he : q.errand = some e) (halarms : q.alarms = true) {s : State}
    (hs : e.announces = some s) : s ≠ .failed := by
  cases q with
  | start id | stop id | delete id =>
    cases he
    cases hs
    nofun
  | restart id =>
    cases he
    cases hs
  | _ => cases halarms

theorem edits_alive (he : q.errand = some e) (halarms : q.alarms = true)
    {edit : Stamp → Instance → Instance} (hedit : e.edit = some edit) (stamp : Stamp) (i : Instance) :
    (edit stamp i).state ≠ .failed := by
  cases q with
  | start id | stop id | restart id =>
    cases he
    cases hedit
    nofun
  | delete id =>
    cases he
    cases hedit
  | _ => cases halarms

end Errand

/-! ## Procedures that publish what they have to -/

/-- Whether a call only looks something up. -/
def Call.isReading : Call → Bool
  | .find _ _ | .findBySlug _ _ | .list _ _ | .count _ | .resolve _ | .lookup _ => true
  | _ => false

namespace Procedure

/-- Whether a procedure that is carried out by a control plane publishes what comes with its result,
whatever the repository refuses. -/
def Announces (q : Request) (caller : Option Caller) (stamp : Stamp) (pr : Procedure Reply)
    (p : Plane) : Prop := ∀ refusals, (p.attempt pr refusals).Tells q caller stamp

variable {α : Type} {q : Request} {caller : Option Caller} {stamp : Stamp} {p : Plane}

theorem attempt_ask {α : Type} (p : Plane) (c : Call) (f : c.Answer → Procedure α)
    (refusals : List (Option String)) : p.attempt (ask c >>= f) refusals =
      ((p.serveUnless (refusals.headD none) c).2.1.attempt
        (f (p.serveUnless (refusals.headD none) c).1) refusals.tail).since
        ⟨p, ⟨c, (p.serveUnless (refusals.headD none) c).1⟩,
          (p.serveUnless (refusals.headD none) c).2.2⟩ := rfl

theorem announces_done {reply : Reply} (h : q.topic = none) :
    (Procedure.done reply).Announces q caller stamp p := by
  intro refusals
  refine .silent ?_
  simp only [Request.topics, h, Option.toList_none]

theorem announces_fail {f : Failure} (hf : f.kind.isRefusal = true) :
    (Procedure.fail f).Announces q caller stamp p := by
  intro refusals
  exact .silent (q.failureTopics_of_isRefusal false hf)

theorem announces_ofExcept {x : Except Failure α} {f : α → Procedure Reply}
    (herr : ∀ e, x = .error e → e.kind.isRefusal = true)
    (hok : ∀ a, x = .ok a → (f a).Announces q caller stamp p) :
    (ofExcept x >>= f).Announces q caller stamp p := by
  cases x with
  | ok a => exact hok a rfl
  | error e => exact announces_fail (herr e rfl)

theorem announces_ensure {b : Bool} {e : Failure} {f : Unit → Procedure Reply}
    (he : e.kind.isRefusal = true) (h : (f ()).Announces q caller stamp p) :
    (ensure b e >>= f).Announces q caller stamp p := by
  cases b with
  | true => exact h
  | false => exact announces_fail he

theorem announces_identify {f : Caller → Procedure Reply}
    (h : ∀ who, caller = some who → (f who).Announces q caller stamp p) :
    (identify caller >>= f).Announces q caller stamp p := by
  refine announces_ofExcept (fun e he => ?_) fun who hwho => h who (Caller.require_eq_ok_iff.1 hwho).1
  unfold Caller.require at he
  split at he
  · cases he
    rfl
  · split at he
    · cases he
      rfl
    · cases he

/-- A provider that failed without an announcement to follow. -/
theorem announces_unavailable (hq : q.alarms = false) (during : Undertaking) (cause : Provider.Error) :
    (Procedure.fail (.providerFailed during cause)).Announces q caller stamp p := by
  intro refusals
  refine .silent ?_
  show (if q.alarms && false then _ else _) = _
  rw [hq]
  rfl

/-! ### Calls -/

/-- A call that only looks something up changes and publishes nothing. -/
theorem serve_reading {c : Call} (hc : c.isReading = true) (p : Plane) :
    c.isWrite = false ∧ p.serve c = ((p.serve c).1, p, []) ∧
      ∀ a, Moment.published ⟨p, ⟨c, a⟩, []⟩ = none ∧ Exchange.marks ⟨c, a⟩ = false := by
  cases c with
  | find | findBySlug | list | count | resolve | lookup => exact ⟨rfl, rfl, fun _ => ⟨rfl, rfl⟩⟩
  | _ => cases hc

theorem announces_read {c : Call} {f : c.Answer → Procedure Reply} (hc : c.isReading = true)
    (h : (f (p.serve c).1).Announces q caller stamp p) :
    (ask c >>= f).Announces q caller stamp p := by
  intro refusals
  obtain ⟨hwrite, hserve, hquiet⟩ := serve_reading hc p
  rw [attempt_ask, p.serveUnless_read _ hwrite, hserve]
  exact (h refusals.tail).since (hquiet _).1 rfl fun _ => (hquiet _).2

theorem announces_command {name : String} {c : Provider.Command}
    {f : Except Provider.Error c.Reply → Procedure Reply}
    (h : ∀ a directory, (f a).Announces q caller stamp { p with directory }) :
    (ask (.command name c) >>= f).Announces q caller stamp p := by
  intro refusals
  have hserve : p.serveUnless (refusals.headD none) (.command name c) = p.serve (.command name c) :=
    p.serveUnless_read _ rfl
  rw [attempt_ask, hserve]
  exact (h _ _ refusals.tail).since rfl rfl fun _ => rfl

theorem announces_insert {i : Instance} {f : Except Failure UInt64 → Procedure Reply}
    (hi : i.state ≠ .failed)
    (herr : ∀ e, e.kind.isRefusal = true → (f (.error e)).Announces q caller stamp p)
    (hok : (f (.ok 1)).Announces q caller stamp
      { p with store := p.store.add { i with version := 1 } }) :
    (ask (.insert i) >>= f).Announces q caller stamp p := by
  intro refusals
  rw [attempt_ask]
  rcases p.serveUnless_insert (refusals.headD none) i with ⟨e, hserve, he⟩ | hserve
  · rw [hserve]
    exact (herr e he refusals.tail).since rfl rfl fun _ => rfl
  · rw [hserve]
    refine (hok refusals.tail).since rfl rfl fun _ => ?_
    exact decide_eq_false hi

theorem announces_update {i : Instance} {f : Except Failure UInt64 → Procedure Reply}
    (hi : q.alarms = true → i.state ≠ .failed)
    (herr : ∀ e, e.kind.isRefusal = true → (f (.error e)).Announces q caller stamp p)
    (hok : ∀ s : Store, s.records.get? i.id = some { i with version := i.version + 1 } →
      (f (.ok (i.version + 1))).Announces q caller stamp { p with store := s }) :
    (ask (.update i) >>= f).Announces q caller stamp p := by
  intro refusals
  rw [attempt_ask]
  rcases p.serveUnless_update (refusals.headD none) i with ⟨e, hserve, he⟩ | ⟨s, hserve, hs⟩
  · rw [hserve]
    exact (herr e he refusals.tail).since rfl rfl fun _ => rfl
  · rw [hserve]
    have hstored : s.records.get? i.id = some { i with version := i.version + 1 } := by
      rw [hs, Dict.get?_insert, if_pos rfl]
    refine (hok s hstored refusals.tail).since rfl rfl fun halarms => ?_
    exact decide_eq_false (hi halarms)

theorem announces_delete {tenant id : String} {f : Except Failure Unit → Procedure Reply}
    (herr : ∀ e, e.kind.isRefusal = true → (f (.error e)).Announces q caller stamp p)
    (hok : ∀ s : Store, s.records.get? id = none →
      (f (.ok ())).Announces q caller stamp { p with store := s }) :
    (ask (.delete tenant id) >>= f).Announces q caller stamp p := by
  intro refusals
  rw [attempt_ask]
  rcases p.serveUnless_delete (refusals.headD none) tenant id with ⟨e, hserve, he⟩ | ⟨s, hserve, hs⟩
  · rw [hserve]
    exact (herr e he refusals.tail).since rfl rfl fun _ => rfl
  · rw [hserve]
    have hgone : s.records.get? id = none := by
      rw [hs, Dict.get?_erase, if_pos rfl]
    exact (hok s hgone refusals.tail).since rfl rfl fun _ => rfl

/-! ### Parts of operations -/

theorem announces_load {who : Caller} {id : String} {f : Instance → Procedure Reply}
    (h : ∀ i, p.store.records.get? id = some i → i.tenant = who.tenant →
      (f i).Announces q caller stamp p) : (load who id >>= f).Announces q caller stamp p := by
  unfold load checkId
  simp only [bind_assoc]
  refine announces_ensure rfl (announces_ensure rfl (announces_read rfl ?_))
  refine announces_ofExcept (fun e he => ?_) fun i hi => ?_
  · change p.store.find who.tenant id = .error e at he
    unfold Store.find at he
    split at he
    · cases he
    · cases he
      rfl
  · obtain ⟨hget, htenant⟩ := Store.find_eq_ok_iff.1 hi
    exact h i hget htenant

theorem announces_providerOf {i : Instance} {f : Unit → Procedure Reply}
    (h : (f ()).Announces q caller stamp p) : (providerOf i >>= f).Announces q caller stamp p := by
  unfold providerOf
  rw [bind_assoc]
  refine announces_read rfl (announces_ofExcept (fun e he => ?_) fun _ _ => h)
  change (p.directory.lookup i.provider).map (fun _ => ()) = .error e at he
  unfold Provider.Directory.lookup at he
  cases hp : p.directory.providers.get? i.provider with
  | some l =>
    rw [hp] at he
    cases he
  | none =>
    rw [hp] at he
    cases he
    rfl

theorem announces_resolve {name : Option String} {f : String → Procedure Reply}
    (h : ∀ provider, (f provider).Announces q caller stamp p) :
    (ask (.resolve name) >>= fun a => ofExcept a >>= f).Announces q caller stamp p := by
  refine announces_read rfl (announces_ofExcept (fun e he => ?_) fun provider _ => h provider)
  change (p.directory.resolve name).map (·.1) = .error e at he
  rcases p.directory.resolve_cases name with ⟨provider, l, hres, -⟩ | ⟨e', hres, he'⟩
  · rw [hres] at he
    cases he
  · rw [hres] at he
    cases he
    exact he'

theorem announces_persist {i : Instance} {now : Instant} {f : Instance → Procedure Reply}
    (hi : q.alarms = true → i.state ≠ .failed)
    (h : ∀ s : Store, s.records.get? i.id = some (i.saved now) →
      (f (i.saved now)).Announces q caller stamp { p with store := s }) :
    (persist i now >>= f).Announces q caller stamp p := by
  unfold persist
  simp only [bind_assoc]
  refine announces_update hi (fun e he => ?_) fun s hs => ?_
  · exact announces_fail he
  · exact h s hs

/-- A course that ends with an event has the moment of the event at its end. -/
theorem attempt_announce {α : Type} (p : Plane) (e : Event) (x : Except Failure α)
    (refusals : List (Option String)) : p.attempt (announce e >>= fun _ => ofExcept x) refusals =
      ⟨x, [⟨p, ⟨.publish e, (p.publish e).1⟩, (p.publish e).2.2⟩], (p.publish e).2.1⟩ := by
  have hserve : p.serveUnless (refusals.headD none) (.publish e) = p.publish e :=
    p.serveUnless_read _ rfl
  show p.attempt (ask (.publish e) >>= fun _ => ofExcept x) refusals = _
  rw [attempt_ask, hserve]
  cases x <;> rfl

/-- On an open bus, an event that is announced is published. -/
theorem published_of_open (hopen : p.bus.closed = false) (e : Event)
    (a : (Call.publish e).Answer) (seen : List Notice) :
    Moment.published ⟨p, ⟨.publish e, a⟩, seen⟩ = some e := by
  show (if p.bus.closed then none else some e) = some e
  rw [hopen]
  rfl

/-- An event that is announced at the end, where no record was marked. -/
theorem announces_event (hopen : p.bus.closed = false) {who : Caller} (hwho : caller = some who)
    {e : Event} {topic : Topic} {x : Except Failure Reply} (htopics : q.topics false x = [topic])
    (hkind : e.kind = .known topic)
    (hsigned : Event.Signed who (if e.kind = .known .quotaExceeded then none else q.about stamp) e)
    (hholds : q.Holds stamp p.store x) :
    (announce e >>= fun _ => ofExcept x).Announces q caller stamp p := by
  intro refusals
  rw [attempt_announce]
  exact Course.Tells.last [] topic (List.forall_mem_nil _) (published_of_open hopen e _ _) rfl htopics
    hkind hwho hsigned hholds

/-- The event of success is the last that a request does. -/
theorem announces_success (hopen : p.bus.closed = false) {who : Caller} (hwho : caller = some who)
    {e : Event} {topic : Topic} (htopic : q.topic = some topic) (hkind : e.kind = .known topic)
    (hsigned : Event.Signed who (q.about stamp) e) {reply : Reply}
    (hholds : q.Holds stamp p.store (.ok reply)) :
    (announce e >>= fun _ => .done reply).Announces q caller stamp p := by
  refine @announces_event q caller stamp p hopen who hwho e topic (.ok reply) ?_ hkind ?_ hholds
  · show q.topic.toList = [topic]
    rw [htopic]
    rfl
  · rw [hkind, if_neg fun heq => Request.topic_ne_quotaExceeded htopic (Kind.known.inj heq)]
    exact hsigned

/-- Giving up is a write, and an announcement where the store took it. -/
theorem giveUp_eq (who : Caller) (stamp : Stamp) (i : Instance) (now : Instant) (during : Undertaking)
    (cause : Provider.Error) : (giveUp who stamp i now during cause : Procedure α) =
      ask (.update ({ i with state := .failed }.touch now)) >>= fun answer : Except Failure UInt64 =>
        match answer with
        | .ok version =>
          let marked := { ({ i with state := .failed }.touch now) with version := version }
          announce (failedEvent who stamp marked during cause) >>= fun _ =>
            ofExcept (.error (.providerFailed during cause))
        | .error _ => .fail (.providerFailed during cause) := by
  unfold giveUp markFailed
  simp only [bind_assoc]
  refine congrArg _ (funext fun answer => ?_)
  cases answer <;> rfl

/-- A record is marked failed, and the failure announced if the store took that. -/
theorem announces_giveUp (hopen : p.bus.closed = false) {who : Caller} (hwho : caller = some who)
    (halarms : q.alarms = true) {i : Instance} (hid : q.about stamp = some i.id)
    (htenant : i.tenant = who.tenant) (now : Instant) (during : Undertaking) (cause : Provider.Error) :
    (giveUp who stamp i now during cause).Announces q caller stamp p := by
  intro refusals
  rw [giveUp_eq, attempt_ask]
  rcases p.serveUnless_update (refusals.headD none) ({ i with state := .failed }.touch now) with
    ⟨e, hserve, -⟩ | ⟨s, hserve, hs⟩
  · rw [hserve]
    refine Course.Tells.since (.silent ?_) rfl rfl fun _ => rfl
    show (if q.alarms && false then _ else _) = _
    rw [Bool.and_false]
    rfl
  · rw [hserve]
    have hstored : s.records.get? i.id = some ({ i with state := .failed }.saved now) := by
      rw [hs]
      exact (Dict.get?_insert _ _ _ _).trans (if_pos rfl)
    simp only [attempt_announce]
    refine Course.Tells.last [_] .instanceFailed ?_ (published_of_open (by exact hopen) _ _ _) rfl ?_
      (kind_failedEvent ..) hwho ?_ ?_
    · intro m' hm'
      obtain rfl := List.mem_singleton.1 hm'
      exact ⟨rfl, rfl⟩
    · show (if q.alarms && true then _ else _) = _
      rw [halarms]
      rfl
    · rw [kind_failedEvent, if_neg (by decide), hid]
      exact .failedEvent stamp htenant during cause
    · intro _
      refine ⟨{ i with state := .failed }.saved now, ?_, rfl⟩
      rw [hid]
      exact hstored

/-- A quota that was reached is announced before the request fails for it. -/
theorem announces_checkQuota (hopen : p.bus.closed = false) {who : Caller} (hwho : caller = some who)
    (limit : UInt64) {f : Unit → Procedure Reply} (h : (f ()).Announces q caller stamp p) :
    (checkQuota limit who stamp >>= f).Announces q caller stamp p := by
  unfold checkQuota
  by_cases hlimit : limit = 0
  · rw [if_pos hlimit]
    exact h
  · rw [if_neg hlimit]
    simp only [bind_assoc]
    refine announces_read rfl ?_
    have hcount : (p.serve (.count who.tenant)).1 = .ok (p.store.count who.tenant) := rfl
    rw [hcount]
    by_cases hroom : p.store.count who.tenant < limit.toNat
    · simp only [ofExcept, done_bind, if_pos hroom]
      exact h
    · simp only [ofExcept, done_bind, if_neg hroom, bind_assoc]
      have hsigned : Event.Signed who none
          (quotaEvent who stamp (p.store.count who.tenant) limit) := .attributed rfl rfl rfl
      have hkind : (quotaEvent who stamp (p.store.count who.tenant) limit).kind =
          .known .quotaExceeded := kind_attributed who _
      refine @announces_event q caller stamp p hopen who hwho
        (quotaEvent who stamp (p.store.count who.tenant) limit) .quotaExceeded
        (.error (.quotaReached who.tenant (p.store.count who.tenant) limit)) rfl hkind ?_ ?_
      · rw [if_pos hkind]
        exact hsigned
      · intro hunavailable
        cases hunavailable

end Procedure

namespace Errand

variable {q : Request} {e : Errand} {caller : Option Caller} {stamp : Stamp} {p : Plane}

theorem announces_permit (e : Errand) (i : Instance) {f : Unit → Procedure Reply}
    (h : (f ()).Announces q caller stamp p) : (e.permit i >>= f).Announces q caller stamp p := by
  unfold permit
  split
  · rename_i s hs
    refine announces_ofExcept (fun x hx => ?_) fun _ _ => h
    unfold State.move at hx
    split at hx
    · cases hx
    · cases hx
      rfl
  · exact h

theorem announces_enter (he : q.errand = some e) {i : Instance} {f : Instance → Procedure Reply}
    (h : ∀ store i', i'.id = i.id → i'.tenant = i.tenant →
      (f i').Announces q caller stamp { p with store }) :
    (e.enter stamp i >>= f).Announces q caller stamp p := by
  unfold enter
  split
  · rename_i s hs
    refine announces_persist (fun halarms => enters_alive he halarms hs) fun store _ => ?_
    exact h store _ rfl rfl
  · exact h p.store i rfl rfl

theorem announces_abandon (he : q.errand = some e) (hopen : p.bus.closed = false) {who : Caller}
    (hwho : caller = some who) {i : Instance} (hid : i.id = e.id) (htenant : i.tenant = who.tenant)
    (cause : Provider.Error) : (e.abandon who stamp i cause).Announces q caller stamp p := by
  have halarms := alarms_of_errand he
  unfold abandon
  cases hmarks : e.marks with
  | some now =>
    rw [hmarks] at halarms
    refine announces_giveUp hopen hwho halarms ?_ htenant _ _ cause
    rw [about_of_errand he, hid]
  | none =>
    rw [hmarks] at halarms
    exact announces_unavailable halarms e.during cause

theorem announces_finish (he : q.errand = some e) (hopen : p.bus.closed = false) {who : Caller}
    (hwho : caller = some who) {i : Instance} (hid : i.id = e.id) (htenant : i.tenant = who.tenant) :
    (e.finish who stamp i).Announces q caller stamp p := by
  have habout := about_of_errand he stamp
  unfold finish
  cases hedit : e.edit with
  | some edit =>
    obtain ⟨hsame, howner, -, -⟩ := e.keeps edit hedit stamp i
    refine announces_persist (fun halarms => edits_alive he halarms hedit stamp i) fun s hs => ?_
    have howned : ((edit stamp i).saved (e.dated stamp)).tenant = who.tenant := howner.trans htenant
    obtain ⟨topic, htopic, hkind, hsigned⟩ := news_signed he stamp howned
    have hkept : ((edit stamp i).saved (e.dated stamp)).id = e.id := hsame.trans hid
    refine announces_success (by exact hopen) hwho htopic hkind ?_ ?_
    · rw [habout, ← hkept]
      exact hsigned
    · show (q.about stamp).bind s.records.get? = _
      rw [habout, ← hid, ← hsame]
      exact hs
  | none =>
    refine announces_delete (fun x hx => announces_fail hx) fun s hs => ?_
    obtain ⟨topic, htopic, hkind, hsigned⟩ := news_signed he stamp htenant
    refine announces_success (by exact hopen) hwho htopic hkind ?_ ?_
    · rw [habout, ← hid]
      exact hsigned
    · show (q.about stamp).bind s.records.get? = none
      rw [habout, ← hid]
      exact hs

theorem announces_procedure (he : q.errand = some e) (hopen : p.bus.closed = false)
    (hf : p.store.Filed) : (e.procedure caller stamp).Announces q caller stamp p := by
  unfold procedure
  refine announces_identify fun who hwho => announces_load fun i hi htenant => ?_
  have hid : i.id = e.id := hf _ _ hi
  refine e.announces_permit i (announces_providerOf (announces_enter he ?_))
  intro store i' hsame howner
  refine announces_command fun a directory => ?_
  cases a with
  | error cause =>
    exact announces_abandon he (by exact hopen) hwho (hsame.trans hid) (howner.trans htenant) cause
  | ok a => exact announces_finish he (by exact hopen) hwho (hsame.trans hid) (howner.trans htenant)

end Errand

section

variable {caller : Option Caller} {stamp : Stamp} {p : Plane}

theorem create_announces (hopen : p.bus.closed = false) (limit : UInt64) (r : CreateRequest) :
    (procedure limit caller stamp (.create r)).Announces (.create r) caller stamp p := by
  unfold procedure create
  simp only [bind_assoc]
  refine announces_identify fun who hwho => ?_
  refine announces_ensure rfl (announces_ensure rfl (announces_ensure rfl ?_))
  refine announces_checkQuota hopen hwho limit (announces_resolve fun provider => ?_)
  refine announces_insert nofun (fun x hx => announces_fail hx) ?_
  refine announces_command fun a directory => ?_
  cases a with
  | error cause =>
    unfold markFailed
    simp only [bind_assoc]
    refine announces_update (fun halarms => by cases halarms) (fun x _ => ?_) fun s _ => ?_
    · exact announces_unavailable rfl _ cause
    · exact announces_unavailable rfl _ cause
  | ok made =>
    have hsigned : Event.Signed who (some (provisioned who r provider stamp made).id)
        (createdEvent who stamp (provisioned who r provider stamp made)) := .createdEvent stamp rfl
    simp only [bind_assoc]
    refine announces_persist (fun halarms => by cases halarms) fun s hs => ?_
    refine announces_success (by exact hopen) hwho rfl ?_ ?_ ?_
    · simp [createdEvent]
    · exact hsigned
    · exact hs

/-- Every request publishes what comes with its result, whatever the repository refuses. -/
theorem procedure_announces (hopen : p.bus.closed = false) (hf : p.store.Filed) (limit : UInt64)
    (q : Request) : (procedure limit caller stamp q).Announces q caller stamp p := by
  cases he : q.errand with
  | some e =>
    rw [procedure_eq_errand he]
    exact Errand.announces_procedure he hopen hf
  | none =>
    cases q with
    | create r => exact create_announces hopen limit r
    | get id =>
      unfold procedure get
      simp only [bind_assoc]
      refine announces_identify fun who hwho => announces_load fun i hi htenant => ?_
      exact announces_done rfl
    | getBySlug slug =>
      unfold procedure getBySlug
      simp only [bind_assoc]
      refine announces_identify fun who hwho => announces_ensure rfl (announces_read rfl ?_)
      refine announces_ofExcept (fun x hx => ?_) fun i hi => announces_done rfl
      change p.store.findBySlug who.tenant slug = .error x at hx
      unfold Store.findBySlug at hx
      split at hx
      · cases hx
      · cases hx
        rfl
    | list query =>
      unfold procedure list
      simp only [bind_assoc]
      refine announces_identify fun who hwho => announces_read rfl ?_
      exact announces_ofExcept (fun x hx => kind_of_list hx) fun page hpage => announces_done rfl
    | update id r =>
      unfold procedure update
      simp only [bind_assoc]
      refine announces_identify fun who hwho => announces_load fun i hi htenant => ?_
      refine announces_ofExcept (fun x hx => kind_of_changed hx) fun edited hedited => ?_
      exact announces_persist (fun halarms => by cases halarms) fun s hs => announces_done rfl
    | _ => cases he

end

end Service

namespace Plane

/-- While the bus is open, and whatever the repository refuses, a request publishes exactly the events
that come with its result: on success the one of its topic, if it has one; one of a quota that was
reached; one of a provider that failed just if the record was marked failed, for the requests that mark
it; and none otherwise. They are the caller's and name the instance, and they are published, and seen by
subscribers, only once the store has what the result says. -/
theorem events_follow_commits {start : Plane} (hstore : start.store = .empty)
    (trials : List (Deed × List (Option String))) (hopen : (start.endure trials).bus.closed = false)
    (caller : Option Caller) (stamp : Stamp) (q : Request) (refusals : List (Option String)) :
    ((start.endure trials).attempt
      (procedure (start.endure trials).settings.maxInstances caller stamp q) refusals).Tells
        q caller stamp := by
  have hf : (start.endure trials).store.Filed := filed_endure (filed_of_empty hstore) trials
  exact procedure_announces hopen hf _ q refusals

/-- A new record is stored, but not that its workload was provisioned; then the provider fails to start
any workload. -/
def halfway : List (Deed × List (Option String)) :=
  [(deed "inst_1" "evt_1" (.create { name := "Web", image := "nginx" }),
      [none, none, none, some "disk full"]),
    (.weather (.fails "local" .start), [])]

/-- The course of starting that instance. -/
def starting (refusals : List (Option String)) : Course Reply :=
  (Config.solo.endure halfway).attempt
    (procedure (Config.solo.endure halfway).settings.maxInstances (some (.ofTenant "acme" "user-1"))
      { instanceId := "inst_2", eventId := "evt_2", clock := fun n => { seconds := n } }
      (.start "inst_1")) refusals

theorem events_follow_commits_halfway :
    Config.solo.store = .empty ∧ (Config.solo.endure halfway).bus.closed = false ∧
      ((starting []).events.map (·.kind) = [.known .instanceFailed] ∧
        ∀ e ∈ (starting []).events, e.tenant = "acme") ∧
      (starting [none, none, none, none, some "disk full"]).events = [] := by
  have hopen : (Config.solo.endure halfway).bus.closed = false := by decide +kernel
  have htells := events_follow_commits rfl halfway hopen (some (.ofTenant "acme" "user-1"))
    { instanceId := "inst_2", eventId := "evt_2", clock := fun n => { seconds := n } } (.start "inst_1")
  have hstored := htells []
  have hrefused := htells [none, none, none, none, some "disk full"]
  have hfailed : (Request.start "inst_1").topics (starting []).marks (starting []).reply =
      [.instanceFailed] := by decide +kernel
  have hnone : (Request.start "inst_1").topics
      (starting [none, none, none, none, some "disk full"]).marks
      (starting [none, none, none, none, some "disk full"]).reply = [] := by decide +kernel
  refine ⟨rfl, hopen, ⟨hstored.kinds.trans (congrArg _ hfailed), fun e he => ?_⟩, ?_⟩
  · obtain ⟨who, hwho, hsigned⟩ := hstored.signed e he
    cases hwho
    exact hsigned.tenant
  · exact List.map_eq_nil_iff.1 (hrefused.kinds.trans (congrArg _ hnone))

end Plane

end Fleet
