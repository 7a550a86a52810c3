import Fleet.Proofs.Agreement
import Fleet.Proofs.Chronicle

/-!
# Events tell what the records say

Who knows of an instance by its events only (`Tale`) knows its state, whether it is suspended, and its
sizes once it was scaled. For every end of a request publishes one event of the change that it makes, or
changes nothing that events tell (`Request.Comes.told`), so that the chronicle and the store go on
together (`told_live`). What a subscriber hears is therefore true of the record of each instance that
was created, and one that was deleted has no record (`record_is_as_told`). -/

namespace Fleet

open Service

/-! ## Tales -/

/-- The sizes of a workload as events give them. -/
structure Sizes where
  cpuMillis : Option Json
  memoryMb : Option Json
  replicas : Option Json
  deriving DecidableEq

def Event.sizes (e : Event) : Sizes where
  cpuMillis := e.payload.get? "cpu_millis"
  memoryMb := e.payload.get? "memory_mb"
  replicas := e.payload.get? "replicas"

def Resources.sizes (r : Resources) : Sizes where
  cpuMillis := some (.int r.cpuMillis.toNat)
  memoryMb := some (.int r.memoryMb.toNat)
  replicas := some (.int r.replicas.toNat)

/-- What events tell of an instance, as far as they do. -/
structure Tale where
  state : Option State := none
  suspended : Option Bool := none
  sizes : Option Sizes := none
  deriving DecidableEq

/-- What is known after one event more. -/
def Tale.hear (t : Tale) (e : Event) : Tale :=
  match e.kind with
  | .known .instanceCreated => { t with state := some .provisioning, suspended := some false }
  | .known .instanceStarted => { t with state := some .running }
  | .known .instanceStopped => { t with state := some .stopped }
  | .known .instanceFailed => { t with state := some .failed }
  | .known .instanceSuspended => { t with state := some .stopped, suspended := some true }
  | .known .instanceUnsuspended => { t with state := some .running, suspended := some false }
  | .known .instanceScaled => { t with sizes := some e.sizes }
  | _ => t

/-- What some events tell. -/
def retell (es : List Event) : Tale := es.foldl Tale.hear {}

def about (id : String) (es : List Event) : List Event := es.filter (·.instanceId = some id)

/-- Whether one of some events is of a topic. -/
def Says (es : List Event) (topic : Topic) : Prop := ∃ e ∈ es, e.kind = .known topic

instance (es : List Event) (topic : Topic) : Decidable (Says es topic) :=
  inferInstanceAs (Decidable (∃ e ∈ es, e.kind = .known topic))

theorem says_append {es later : List Event} {topic : Topic} :
    Says (es ++ later) topic ↔ Says es topic ∨ Says later topic := by
  unfold Says
  simp only [List.mem_append, or_and_right, exists_or]

/-- Sizes that were heard of are never forgotten. -/
theorem Tale.sizes_foldl {t : Tale} (h : t.sizes ≠ none) (es : List Event) :
    (es.foldl Tale.hear t).sizes ≠ none := by
  induction es generalizing t with
  | nil => exact h
  | cons e rest ih =>
    refine ih ?_
    unfold hear
    split <;> first | exact h | nofun

theorem sizes_retell {es : List Event} (h : Says es .instanceScaled) : (retell es).sizes ≠ none := by
  obtain ⟨e, he, hkind⟩ := h
  obtain ⟨earlier, later, rfl⟩ := List.append_of_mem he
  unfold retell
  rw [List.foldl_append, List.foldl_cons]
  refine Tale.sizes_foldl ?_ later
  unfold Tale.hear
  rw [hkind]
  nofun

theorem about_append (id : String) (es later : List Event) :
    about id (es ++ later) = about id es ++ about id later := List.filter_append ..

theorem about_of_all {id : String} {es : List Event} (h : ∀ e ∈ es, e.instanceId = some id) :
    about id es = es := by
  unfold about
  exact List.filter_eq_self.2 fun e he => by simp [h e he]

theorem about_of_none {id : String} {es : List Event} (h : ∀ e ∈ es, e.instanceId ≠ some id) :
    about id es = [] := by
  unfold about
  exact List.filter_eq_nil_iff.2 fun e he => by simp [h e he]

/-- Whether a tale is true of a record. -/
structure Tale.Tells (t : Tale) (i : Instance) : Prop where
  state : t.state = some i.state
  suspended : t.suspended = some i.suspendedAt.isSome
  sizes : ∀ z, t.sizes = some z → z = i.resources.sizes

/-- Whether events about an instance, and what is stored of it, go together: what was created and not
deleted is stored as told, and what was deleted is not stored. -/
structure Truthful (es : List Event) (stored : Option Instance) : Prop where
  alive : Says es .instanceCreated → ¬ Says es .instanceDeleted →
    ∃ i, stored = some i ∧ (retell es).Tells i
  gone : Says es .instanceDeleted → stored = none

namespace Truthful

variable {es later : List Event}

theorem of_silence (stored : Option Instance) : Truthful [] stored where
  alive := by
    rintro ⟨e, he, -⟩
    cases he
  gone := by
    rintro ⟨e, he, -⟩
    cases he

/-- A record changes as later events tell, which neither create nor delete it. -/
theorem change {i r : Instance} (h : Truthful es (some i))
    (hkinds : ∀ e ∈ later, e.kind ≠ .known .instanceCreated ∧ e.kind ≠ .known .instanceDeleted)
    (htells : ∀ t : Tale, t.Tells i → (later.foldl Tale.hear t).Tells r) :
    Truthful (es ++ later) (some r) where
  alive := by
    intro hcreated hdeleted
    rcases says_append.1 hcreated with hes | ⟨e, he, hkind⟩
    · obtain ⟨i', hi', htold⟩ := h.alive hes fun hes => hdeleted (says_append.2 (.inl hes))
      cases hi'
      refine ⟨r, rfl, ?_⟩
      unfold retell
      rw [List.foldl_append]
      exact htells _ htold
    · exact absurd hkind (hkinds e he).1
  gone := by
    intro hdeleted
    rcases says_append.1 hdeleted with hes | ⟨e, he, hkind⟩
    · cases h.gone hes
    · exact absurd hkind (hkinds e he).2

theorem remove (hlater : Says later .instanceDeleted) : Truthful (es ++ later) none where
  alive _ hdeleted := absurd (says_append.2 (.inr hlater)) hdeleted
  gone _ := rfl

end Truthful

/-! ## A store and what was told of it -/

/-- Whether a log is truthful about all that is stored, and says nothing yet of the instances that are
to come. -/
structure Store.Told (s : Store) (log : List Event) (coming : List String) : Prop where
  distinct : coming.Nodup
  unborn : ∀ id ∈ coming, s.records.get? id = none ∧ about id log = []
  truthful : ∀ id, Truthful (about id log) (s.records.get? id)

namespace Store.Told

variable {s s' : Store} {log es : List Event} {coming new : List String}

theorem forget (h : s.Told log (new ++ coming)) : s.Told log coming where
  distinct := (List.nodup_append.1 h.distinct).2.1
  unborn := fun id hid => h.unborn id (List.mem_append_right _ hid)
  truthful := h.truthful

/-- Events about no instance change nothing of what is told. -/
theorem tell (h : s.Told log coming) (hes : ∀ e ∈ es, e.instanceId = none) :
    s.Told (log ++ es) coming := by
  have habout : ∀ id, about id (log ++ es) = about id log := by
    intro id
    have hnone : about id es = [] := about_of_none fun e he => by simp [hes e he]
    rw [about_append, hnone, List.append_nil]
  refine ⟨h.distinct, fun id hid => ?_, fun id => ?_⟩
  · rw [habout]
    exact h.unborn id hid
  · rw [habout]
    exact h.truthful id

/-- What is stored of one instance changes, and events tell of that one. -/
theorem step (h : s.Told log coming) {id : String} (hid : id ∉ coming)
    (hothers : ∀ other, other ≠ id → s'.records.get? other = s.records.get? other)
    (hes : ∀ e ∈ es, e.instanceId = some id)
    (htrue : Truthful (about id log ++ es) (s'.records.get? id)) : s'.Told (log ++ es) coming := by
  have habout : ∀ other, other ≠ id → about other (log ++ es) = about other log := by
    intro other hne
    have hnone : about other es = [] := by
      refine about_of_none fun e he hother => ?_
      rw [hes e he] at hother
      exact hne (Option.some.inj hother).symm
    rw [about_append, hnone, List.append_nil]
  refine ⟨h.distinct, fun other hother => ?_, fun other => ?_⟩
  · have hne : other ≠ id := fun heq => hid (heq ▸ hother)
    rw [habout other hne, hothers other hne]
    exact h.unborn other hother
  · by_cases hsame : other = id
    · rw [hsame, about_append, about_of_all hes]
      exact htrue
    · rw [habout other hsame, hothers other hsame]
      exact h.truthful other

theorem not_coming (h : s.Told log coming) {id : String} {i : Instance}
    (hi : s.records.get? id = some i) : id ∉ coming := by
  intro hid
  rw [(h.unborn id hid).1] at hi
  cases hi

/-- A record changes as events tell. -/
theorem put (h : s.Told log coming) {i r : Instance} (hi : s.records.get? i.id = some i)
    (hid : r.id = i.id) (hs : s'.records = (s.put r).records)
    (hes : ∀ e ∈ es, e.instanceId = some i.id)
    (hkinds : ∀ e ∈ es, e.kind ≠ .known .instanceCreated ∧ e.kind ≠ .known .instanceDeleted)
    (htells : ∀ t : Tale, t.Tells i → (es.foldl Tale.hear t).Tells r) :
    s'.Told (log ++ es) coming := by
  refine h.step (h.not_coming hi) (fun other hne => ?_) hes ?_
  · rw [hs, get?_put, if_neg fun heq => hne (heq.symm.trans hid)]
  · rw [hs, get?_put, if_pos hid]
    have htrue := h.truthful i.id
    rw [hi] at htrue
    exact htrue.change hkinds htells

/-- A record is removed, and an event tells of its end. -/
theorem drop (h : s.Told log coming) {i : Instance} (hi : s.records.get? i.id = some i)
    (hes : ∀ e ∈ es, e.instanceId = some i.id) (hdeleted : Says es .instanceDeleted) :
    (s.drop i).Told (log ++ es) coming := by
  refine h.step (h.not_coming hi) (fun other hne => ?_) hes ?_
  · rw [get?_drop, if_neg hne.symm]
  · rw [get?_drop, if_pos rfl]
    exact .remove hdeleted

/-- An instance that was to come is stored, as events tell. -/
theorem add {id : String} (h : s.Told log ([id] ++ coming)) {r : Instance} (hid : r.id = id)
    (hes : ∀ e ∈ es, e.instanceId = some id) (htrue : Truthful es (some r)) :
    (s.add r).Told (log ++ es) coming := by
  refine h.forget.step (List.nodup_cons.1 h.distinct).1 (fun other hne => ?_) hes ?_
  · rw [get?_add, if_neg fun heq => hne (heq.symm.trans hid)]
  · rw [get?_add, if_pos hid, (h.unborn id (.head _)).2]
    exact htrue

end Store.Told

/-! ## The events of a request -/

namespace Service

@[simp] theorem instanceId_withField (e : Event) (name : String) (value : Json) :
    (e.withField name value).instanceId = e.instanceId := rfl

theorem instanceId_createdEvent (who : Caller) (stamp : Stamp) (i : Instance) :
    (createdEvent who stamp i).instanceId = some i.id := by
  simp only [createdEvent, instanceId_withField, instanceId_eventOf]

theorem sizes_scaledEvent (who : Caller) (stamp : Stamp) (i : Instance) :
    (scaledEvent who stamp i).sizes = i.resources.sizes := by
  unfold scaledEvent Event.sizes Resources.sizes
  simp [Event.withField, Dict.get?_insert]

namespace Errand

variable {q : Request} {e : Errand} {stamp : Stamp} {i : Instance}

theorem instanceId_news (he : q.errand = some e) (who : Caller) (stamp : Stamp) (i : Instance) :
    (e.news who stamp i).instanceId = some i.id := by
  cases q with
  | start id | stop id | delete id | restart id | scale id r | suspend id reason | unsuspend id =>
    cases he
    simp only [scaledEvent, instanceId_withField, instanceId_eventOf]
  | _ => cases he

/-- An errand that changes a record tells neither of a creation nor of a deletion. -/
theorem kind_news (he : q.errand = some e) {edit : Stamp → Instance → Instance}
    (hedit : e.edit = some edit) (who : Caller) (stamp : Stamp) (i : Instance) :
    (e.news who stamp i).kind ≠ .known .instanceCreated ∧
      (e.news who stamp i).kind ≠ .known .instanceDeleted := by
  cases q with
  | start id | stop id | restart id | scale id r | suspend id reason | unsuspend id =>
    cases he
    simp [scaledEvent]
  | delete id =>
    cases he
    cases hedit
  | _ => cases he

theorem kind_news_of_removal (he : q.errand = some e) (hedit : e.edit = none) (who : Caller)
    (stamp : Stamp) (i : Instance) : (e.news who stamp i).kind = .known .instanceDeleted := by
  cases q with
  | delete id =>
    cases he
    exact kind_eventOf who stamp _ i
  | start id | stop id | restart id | scale id r | suspend id reason | unsuspend id =>
    cases he
    cases hedit
  | _ => cases he

/-- The event of an errand tells what the errand changes of the record. -/
theorem tells_settled (he : q.errand = some e) {edit : Stamp → Instance → Instance}
    (hedit : e.edit = some edit) (who : Caller) (stamp : Stamp) {i : Instance} {t : Tale}
    (h : t.Tells i) :
    (t.hear (e.news who stamp (e.settled edit stamp i))).Tells (e.settled edit stamp i) := by
  unfold Tale.hear
  cases q with
  | start id | stop id =>
    cases he
    cases hedit
    rw [kind_eventOf]
    -- A suspended instance that is started stays suspended, and its event does not say otherwise.
    exact ⟨rfl, h.suspended, h.sizes⟩
  | restart id =>
    cases he
    cases hedit
    rw [kind_withField, kind_eventOf]
    exact ⟨rfl, h.suspended, h.sizes⟩
  | scale id r =>
    cases he
    cases hedit
    simp only [scaledEvent, kind_withField, kind_eventOf]
    refine ⟨h.state, h.suspended, fun z hz => ?_⟩
    cases hz
    exact sizes_scaledEvent who stamp _
  | suspend id reason =>
    cases he
    cases hedit
    rw [kind_withField, kind_eventOf]
    exact ⟨rfl, rfl, h.sizes⟩
  | unsuspend id =>
    cases he
    cases hedit
    rw [kind_eventOf]
    exact ⟨rfl, rfl, h.sizes⟩
  | delete id =>
    cases he
    cases hedit
  | _ => cases he

theorem of_mem_alarm (he : q.errand = some e) {who : Caller} {cause : Provider.Error} {x : Event}
    (hx : x ∈ e.alarm who stamp i cause) :
    x.instanceId = some i.id ∧ x.kind = .known .instanceFailed := by
  unfold alarm at hx
  cases hm : e.marks with
  | none =>
    rw [hm] at hx
    cases hx
  | some now =>
    rw [hm] at hx
    obtain rfl := List.mem_singleton.1 hx
    refine ⟨?_, by simp [failedEvent]⟩
    rw [← (ruined_keeps he stamp i).1]
    exact instanceId_eventOf who stamp _ _

/-- The alarm tells what the failure of a provider changes of the record. -/
theorem tells_ruined (he : q.errand = some e) (who : Caller) (stamp : Stamp) {i : Instance}
    (cause : Provider.Error) {t : Tale} (h : t.Tells i) :
    ((e.alarm who stamp i cause).foldl Tale.hear t).Tells (e.ruined stamp i) := by
  unfold alarm
  rcases ruined_cases he stamp i with ⟨hm, hsame⟩ | ⟨now, updatedAt, version, hm, hfailed⟩
  · rw [hm, hsame]
    exact h
  · rw [hm, hfailed]
    show (t.hear (failedEvent who stamp _ e.during cause)).Tells _
    unfold Tale.hear
    simp only [failedEvent, kind_withField, kind_eventOf]
    exact ⟨rfl, h.suspended, h.sizes⟩

end Errand

variable {w : Estate} {limit : UInt64} {caller : Option Caller} {stamp : Stamp} {u : Upshot Reply}
  {log : List Event} {coming : List String}

theorem Errand.Comes.told {q : Request} {e : Errand} (he : q.errand = some e)
    (hcomes : e.Comes caller stamp w u) (h : w.store.Told log coming) :
    u.estate.store.Told (log ++ u.events) coming := by
  cases hcomes with
  | refused f hf =>
    rw [List.append_nil]
    exact h
  | @failed who i ha cause hc =>
    refine h.put ha.stored (ruined_keeps he stamp i).1 rfl (fun x hx => (of_mem_alarm he hx).1)
      (fun x hx => ?_) fun t ht => tells_ruined he who stamp cause ht
    rw [(of_mem_alarm he hx).2]
    exact ⟨by decide, by decide⟩
  | @settled who i ha edit hedit a hc =>
    have hid := (settled_keeps he hedit stamp i).1
    refine h.put ha.stored hid rfl (fun x hx => ?_) (fun x hx => ?_) fun t ht =>
      tells_settled he hedit who stamp ht
    · obtain rfl := List.mem_singleton.1 hx
      exact (instanceId_news he who stamp _).trans (congrArg some hid)
    · obtain rfl := List.mem_singleton.1 hx
      exact kind_news he hedit who stamp _
  | @removed who i ha hedit a hc =>
    refine h.drop ha.stored (fun x hx => ?_) ?_
    · obtain rfl := List.mem_singleton.1 hx
      exact (instanceId_news he who stamp _).trans (congrArg some (e.id_entered stamp i))
    · exact ⟨_, .head _, kind_news_of_removal he hedit who stamp _⟩

end Service

/-- The ids that a deed may give to new instances. -/
def Deed.births : Deed → List String
  | .request _ stamp (.create _) => [stamp.instanceId]
  | _ => []

namespace Service

variable {w : Estate} {limit : UInt64} {caller : Option Caller} {stamp : Stamp} {u : Upshot Reply}
  {log : List Event} {coming : List String}

/-- The event of a creation tells of the record that was stored. -/
theorem truthful_createdEvent (who : Caller) (stamp : Stamp) {i : Instance}
    (hstate : i.state = .provisioning) (hsuspended : i.suspendedAt = none) :
    Truthful [createdEvent who stamp i] (some i) where
  alive _ _ := by
    have hkind : (createdEvent who stamp i).kind = .known .instanceCreated := by simp [createdEvent]
    refine ⟨i, rfl, ?_⟩
    unfold retell Tale.hear
    simp only [List.foldl_cons, List.foldl_nil, hkind]
    refine ⟨congrArg some hstate.symm, ?_, fun z hz => ?_⟩
    · rw [hsuspended]
      rfl
    · cases hz
  gone := by
    rintro ⟨e, he, hkind⟩
    obtain rfl := List.mem_singleton.1 he
    simp [createdEvent] at hkind

/-- Whatever comes of a request, the log stays truthful with the events of that end. -/
theorem Request.Comes.told {q : Request} (hcomes : q.Comes limit caller stamp w u)
    (hf : w.store.Filed) (h : w.store.Told log ((Deed.request caller stamp q).births ++ coming)) :
    u.estate.store.Told (log ++ u.events) coming := by
  cases hcomes with
  | refused f hr =>
    rw [List.append_nil]
    exact h.forget
  | shown reply hs =>
    rw [List.append_nil]
    exact h.forget
  | @overQuota r who hwho hroom =>
    refine h.forget.tell fun e he => ?_
    obtain rfl := List.mem_singleton.1 he
    unfold quotaEvent attributed
    split <;> rfl
  | @updated id r who i edited s hwho hi howner hc hs =>
    have hrecords := Store.records_of_update hs
    obtain ⟨name, slug, env, labels, rfl⟩ := changed_eq_ok hc
    obtain rfl : i.id = id := hf id i hi
    show s.Told (log ++ []) coming
    refine h.forget.put hi ?_ hrecords (List.forall_mem_nil _) (List.forall_mem_nil _) fun t ht => ?_
    · rfl
    · exact ⟨ht.state, ht.suspended, ht.sizes⟩
  | @created r who provider ha made hc =>
    have hid : (provisioned who r provider stamp made).id = stamp.instanceId := rfl
    show (w.store.add _).Told (log ++ [_]) coming
    refine Store.Told.add h hid (fun e he => ?_) ?_
    · obtain rfl := List.mem_singleton.1 he
      rw [← hid]
      exact instanceId_createdEvent who stamp _
    · exact truthful_createdEvent who stamp rfl rfl
  | @unprovisioned r who provider ha cause hc =>
    -- A failed record is stored and nothing is told: its creation was never announced.
    have hid : (stillborn who r provider stamp).id = stamp.instanceId := rfl
    show (w.store.add _).Told (log ++ []) coming
    exact Store.Told.add h hid (List.forall_mem_nil _) (.of_silence _)
  | errand he hcomes => exact hcomes.told he h.forget

end Service

/-- The log stays truthful while an estate lives. -/
theorem Estate.told_live {w : Estate} (limit : UInt64) {log : List Event} {deeds : List Deed}
    (hf : w.store.Filed) (h : w.store.Told log (deeds.flatMap Deed.births)) :
    (w.live limit deeds).1.store.Told (log ++ (w.live limit deeds).2) [] := by
  -- Each deed adds its events to the log and uses up the ids that it gives.
  induction deeds generalizing w log with
  | nil =>
    simp only [live, List.append_nil]
    exact h
  | cons d rest ih =>
    rw [List.flatMap_cons] at h
    simp only [live]
    rw [← List.append_assoc]
    cases d with
    | request caller stamp q =>
      have hcomes := procedure_comes limit caller stamp hf q
      exact ih (hcomes.filed hf) (hcomes.told hf h)
    | weather d =>
      have hstore : (w.act limit (.weather d)).1.store = w.store := by cases d <;> rfl
      refine ih ?_ ?_
      · rw [hstore]
        exact hf
      · rw [hstore]
        exact h.tell (List.forall_mem_nil _)

namespace Plane

/-- What a subscriber hears of an instance while a control plane lives. -/
def newsOf (p : Plane) (deeds : List Deed) (label id : String) : List Event :=
  about id (heard label (p.live deeds).2)

/-- While a control plane carries out requests one after the other, whatever fails meanwhile, the events
that a subscriber hears of an instance tell its record: once it was created and as long as it is not
deleted it is stored, in the state of which they tell, suspended or not as they tell, and with the sizes
of which they tell. Once it was deleted it is not stored. -/
theorem record_is_as_told {p : Plane} {deeds : List Deed} {label : String} (hf : p.store.Filed)
    (hdistinct : (deeds.flatMap Deed.births).Nodup)
    (hnew : ∀ id ∈ deeds.flatMap Deed.births, p.store.records.get? id = none)
    (hbus : p.bus.Tapped label) (id : String) :
    (Says (p.newsOf deeds label id) .instanceCreated →
      ¬ Says (p.newsOf deeds label id) .instanceDeleted →
      ∃ r, (p.live deeds).1.store.records.get? id = some r ∧
        (retell (p.newsOf deeds label id)).state = some r.state ∧
        (retell (p.newsOf deeds label id)).suspended = some r.suspendedAt.isSome ∧
        (Says (p.newsOf deeds label id) .instanceScaled →
          (retell (p.newsOf deeds label id)).sizes = some r.resources.sizes)) ∧
      (Says (p.newsOf deeds label id) .instanceDeleted →
        (p.live deeds).1.store.records.get? id = none) := by
  have hstart : p.estate.store.Told [] (deeds.flatMap Deed.births) :=
    ⟨hdistinct, fun id hid => ⟨hnew id hid, rfl⟩, fun id => .of_silence _⟩
  have htold := (Estate.told_live p.settings.maxInstances hf hstart).truthful id
  have hestate : (p.live deeds).1.store = (p.estate.live p.settings.maxInstances deeds).1.store :=
    congrArg Estate.store (p.estate_live deeds)
  rw [List.nil_append, ← heard_live hbus, ← hestate] at htold
  refine ⟨fun hcreated hdeleted => ?_, htold.gone⟩
  obtain ⟨r, hr, htells⟩ := htold.alive hcreated hdeleted
  refine ⟨r, hr, htells.state, htells.suspended, fun hscaled => ?_⟩
  obtain ⟨z, hz⟩ := Option.ne_none_iff_exists'.1 (sizes_retell hscaled)
  exact hz.trans (congrArg some (htells.sizes z hz))

/-- A control plane with one subscriber, for all kinds of event. -/
def tapped : Plane :=
  { Config.solo with bus := (Bus.empty.subscribe (.plain (.outside "tap") [] none)).2 }

/-- One instance is scaled and suspended, and another is deleted. -/
def eventful : List Deed :=
  [deed "inst_1" "evt_1" (.create { name := "Web", image := "nginx" }),
    deed "inst_2" "evt_2" (.create { name := "Db", image := "postgres" }),
    deed "inst_3" "evt_3" (.start "inst_1"), deed "inst_4" "evt_4" (.delete "inst_2"),
    deed "inst_5" "evt_5" (.scale "inst_1" { replicas := some 3 }),
    .weather (.fails "local" .start), deed "inst_6" "evt_6" (.suspend "inst_1" "unpaid"),
    deed "inst_7" "evt_7" (.unsuspend "inst_1")]

/-- The sizes that the first instance is scaled to. -/
def threefold : Sizes := ⟨some (.int 250), some (.int 256), some (.int 3)⟩

theorem record_is_as_told_eventful :
    tapped.store.Filed ∧ (eventful.flatMap Deed.births).Nodup ∧ tapped.bus.Tapped "tap" ∧
      (∃ r, (tapped.live eventful).1.store.records.get? "inst_1" = some r ∧ r.state = .stopped ∧
        r.suspendedAt.isSome = true ∧ r.resources.sizes = threefold) ∧
      (tapped.live eventful).1.store.records.get? "inst_2" = none := by
  have hf : tapped.store.Filed := filed_of_empty rfl
  have hdistinct : (eventful.flatMap Deed.births).Nodup := by decide
  have hbus : tapped.bus.Tapped "tap" := Bus.tapped_subscribe "tap" none
  have hnews : ∀ id, tapped.newsOf eventful "tap" id =
      about id (tapped.estate.live tapped.settings.maxInstances eventful).2 := by
    intro id
    rw [newsOf, heard_live hbus]
  have htold := record_is_as_told hf hdistinct (fun _ _ => rfl) hbus
  simp only [hnews] at htold
  obtain ⟨r, hr, hstate, hsuspended, hsizes⟩ :=
    (htold "inst_1").1 (by decide +kernel) (by decide +kernel)
  have hscaled := hsizes (by decide +kernel)
  have hknown : retell (about "inst_1"
      (tapped.estate.live tapped.settings.maxInstances eventful).2) =
      { state := some .stopped, suspended := some true, sizes := some threefold } := by
    decide +kernel
  rw [hknown] at hstate hsuspended hscaled
  refine ⟨hf, hdistinct, hbus, ⟨r, hr, ?_, ?_, ?_⟩, (htold "inst_2").2 (by decide +kernel)⟩
  · exact (Option.some.inj hstate).symm
  · exact (Option.some.inj hsuspended).symm
  · exact (Option.some.inj hscaled).symm

end Plane

end Fleet
