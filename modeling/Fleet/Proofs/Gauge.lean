import Fleet.Proofs.Counting
import Fleet.Proofs.Observers
import Fleet.Proofs.Retelling

/-!
# The gauge tells how many instances there are

The metrics are the first plugin of a control plane, and the plugins are subscribed to all events. So
the gauge moves by what the events come to that are told (`Plane.reads_tell`):

    gauge after = gauge before + shift of the events

Every end of a request moves the number of records with a reference by just as much
(`Request.Comes.referenced`), and these records are those that have a workload
(`Estate.Agrees.referenced_eq`). Hence gauge, records and workloads stay in step
(`gauge_counts_instances`). -/

namespace Fleet

open Service Std

/-! ## What events come to -/

/-- How an event of a kind moves the gauge. -/
def Kind.shift : Kind → Int
  | .known .instanceCreated => 1
  | .known .instanceDeleted => -1
  | _ => 0

def shift : List Event → Int
  | [] => 0
  | e :: rest => e.kind.shift + shift rest

theorem shift_singleton (e : Event) : shift [e] = e.kind.shift := Int.add_zero _

theorem Kind.shift_eq_zero {k : Kind} (hcreated : k ≠ .known .instanceCreated)
    (hdeleted : k ≠ .known .instanceDeleted) : k.shift = 0 := by
  unfold shift
  split
  · exact absurd rfl hcreated
  · exact absurd rfl hdeleted
  · rfl

theorem shift_eq_zero {es : List Event} (h : ∀ e ∈ es, e.kind ≠ .known .instanceCreated ∧
    e.kind ≠ .known .instanceDeleted) : shift es = 0 := by
  induction es with
  | nil => rfl
  | cons e rest ih =>
    obtain ⟨hcreated, hdeleted⟩ := h e (.head _)
    have hrest : shift rest = 0 := ih fun x hx => h x (.tail _ hx)
    rw [shift, hrest, Kind.shift_eq_zero hcreated hdeleted]
    rfl

/-! ## The gauge of the first plugin -/

theorem Metrics.active_observe (m : Metrics) (k : Kind) :
    (m.observe k).active = m.active + Int64.ofInt k.shift := by
  unfold observe
  dsimp only
  split
  · rfl
  · rfl
  · rename_i hcreated hdeleted
    rw [Kind.shift_eq_zero hcreated hdeleted]
    exact (Int64.add_zero _).symm

namespace Plugins

/-- Whether the first plugin is one of metrics, whose gauge stands at a number. -/
def Reads (ps : Plugins) (n : Int) : Prop :=
  ∃ m rest, ps.members = .metrics m :: rest ∧ m.active = Int64.ofInt n

variable {ps : Plugins} {n : Int}

theorem Reads.tell (h : ps.Reads n) (label : HookLabel) : (ps.tell label).Reads n := by
  obtain ⟨m, rest, hmembers, hactive⟩ := h
  unfold Plugins.tell
  split
  · exact ⟨m.countFailure label, rest, by rw [hmembers]; rfl, hactive⟩
  · exact ⟨m, rest, hmembers, hactive⟩

/-- The metrics are called first, and see the event. -/
theorem Reads.callAt_zero (h : ps.Reads n) {hook : Hook} (hhook : hook ≠ .shutdown) (e : Event) :
    (ps.callAt hook (some e) 0).1.Reads (n + e.kind.shift) := by
  obtain ⟨m, rest, hmembers, hactive⟩ := h
  have hcalled : (ps.callAt hook (some e) 0).1.members =
      .metrics (m.observe e.kind) :: rest := by
    have hanswers : (Plugin.metrics m).answers hook = true := decide_eq_true hhook
    unfold callAt
    rw [hmembers]
    simp only [List.getElem?_cons_zero, hanswers, if_true, Plugin.call, Verdict.isFailure,
      List.set_cons_zero]
    rfl
  refine ⟨_, rest, hcalled, ?_⟩
  rw [Metrics.active_observe, hactive, Int64.ofInt_add]

/-- Calls of other plugins, however they end, leave the gauge as it is. -/
theorem Reads.callAt_succ (h : ps.Reads n) (hook : Hook) (e : Option Event) (place : Nat) :
    (ps.callAt hook e (place + 1)).1.Reads n := by
  have hset : ∀ after, ({ ps with members := ps.members.set (place + 1) after } : Plugins).Reads n := by
    intro after
    obtain ⟨m, rest, hmembers, hactive⟩ := h
    refine ⟨m, rest.set place after, ?_, hactive⟩
    show ps.members.set (place + 1) after = _
    rw [hmembers]
    rfl
  unfold callAt
  split
  · exact h
  · split
    · dsimp only
      split
      · exact (hset _).tell _
      · exact hset _
    · exact h

theorem Reads.callAll (hook : Hook) (e : Option Event) {places : List Nat} (h : ps.Reads n) :
    (callAll hook e (places.map (· + 1)) ps).1.Reads n := by
  induction places generalizing ps with
  | nil => exact h
  | cons place rest ih => exact ih (h.callAt_succ hook e place)

/-- The gauge follows an event. -/
theorem Reads.handle (h : ps.Reads n) (e : Event) : (ps.handle e).1.Reads (n + e.kind.shift) := by
  unfold Plugins.handle
  cases hk : e.kind with
  | unknown => exact (Int.add_zero n).symm ▸ h
  | known topic =>
    obtain ⟨m, rest, hmembers, -⟩ := id h
    have hplaces : List.range ps.members.length = 0 :: (List.range rest.length).map (· + 1) := by
      rw [hmembers, List.length_cons, List.range_succ_eq_map]
    have hfirst : (ps.callAt (.on topic) (some e) 0).1.Reads (n + e.kind.shift) :=
      h.callAt_zero (by simp) e
    rw [hk] at hfirst
    show (ps.fire (.on topic) (some e)).1.Reads _
    unfold fire
    rw [hplaces]
    exact hfirst.callAll _ _

theorem Reads.metrics? (h : ps.Reads n) :
    ∃ m, ps.metrics? = some m ∧ m.active = Int64.ofInt n := by
  obtain ⟨m, rest, hmembers, hactive⟩ := h
  refine ⟨m, ?_, hactive⟩
  unfold Plugins.metrics?
  rw [hmembers]
  rfl

end Plugins

/-! ## The plugins on the bus -/

/-- Whether the plugins hear all events, once each: the bus is open, nobody acts on it, and the plugins
have one subscription, for all kinds. -/
structure Bus.Attended (b : Bus Receiver) : Prop where
  opened : b.closed = false
  idle : ∀ owner ∈ b.plans, owner.2 = []
  once : ∃ s, b.table.filter (·.tag = .plugins) = [s] ∧ s.kinds = []

namespace Bus

variable {b : Bus Receiver}

theorem takeFrom_of_idle {τ : Type} {plans : List (SubscriptionId × List (Reaction τ))}
    (h : ∀ owner ∈ plans, owner.2 = []) (id : SubscriptionId) :
    takeFrom id plans = (none, plans) := by
  induction plans with
  | nil => rfl
  | cons head rest ih =>
    obtain ⟨owner, plan⟩ := head
    have hplan : plan = [] := h _ (.head _)
    subst hplan
    unfold takeFrom
    split
    · rfl
    · rw [ih fun owner howner => h owner (.tail _ howner)]

theorem Attended.isIdle (h : b.Attended) : b.Idle := fun s _ => takeFrom_of_idle h.idle s.id

/-- Another subscriber, for any kinds and with any result. -/
theorem Attended.subscribe (h : b.Attended) (label : String) (kinds : List Kind)
    (failure : Option String) :
    (b.subscribe (.plain (.outside label) kinds failure)).2.Attended := by
  unfold Bus.subscribe Subscriber.plain
  simp only [h.opened, Bool.false_eq_true, if_false]
  refine ⟨rfl, fun owner howner => ?_, ?_⟩
  · rcases List.mem_append.1 howner with hold | hnew
    · exact h.idle owner hold
    · rw [List.mem_singleton.1 hnew]
  · obtain ⟨s, hs, hkinds⟩ := h.once
    refine ⟨s, ?_, hkinds⟩
    rw [List.filter_append, hs]
    rfl

end Bus

namespace Plane

variable {p : Plane} {n : Int}

theorem attend_fst (ps : Plugins) (subscriptions : List (Bus.Subscription Receiver)) (e : Event) :
    (attend ps (subscriptions.map fun s => .delivered s.tag e)).1 =
      (subscriptions.filter (·.tag = .plugins)).foldl (fun ps _ => (ps.handle e).1) ps := by
  induction subscriptions generalizing ps with
  | nil => rfl
  | cons s rest ih =>
    cases htag : s.tag with
    | plugins =>
      rw [List.filter_cons_of_pos (by simp [htag])]
      simp only [List.map_cons, htag, attend, List.foldl_cons, ih]
    | outside l =>
      rw [List.filter_cons_of_neg (by simp [htag])]
      simp only [List.map_cons, htag, attend, ih]

/-- An event that is published reaches the plugins once. -/
theorem plugins_publish (h : p.bus.Attended) (e : Event) :
    (p.publish e).2.1.bus = p.bus ∧ (p.publish e).2.1.plugins = (p.plugins.handle e).1 := by
  obtain ⟨result, hpublish⟩ := Bus.publish_of_idle h.isIdle h.opened e
  obtain ⟨s, hs, hkinds⟩ := h.once
  have hwants : s.wants e.kind = true := by simp [Bus.Subscription.wants, hkinds]
  have hreached : (p.bus.table.filter (·.wants e.kind)).filter (·.tag = .plugins) = [s] := by
    have hcomm : (p.bus.table.filter (·.wants e.kind)).filter (·.tag = .plugins) =
        (p.bus.table.filter (·.tag = .plugins)).filter (·.wants e.kind) := by
      simp only [List.filter_filter, Bool.and_comm]
    rw [hcomm, hs]
    exact List.filter_cons_of_pos hwants
  unfold publish
  rw [hpublish]
  exact ⟨rfl, (attend_fst _ _ _).trans (by rw [hreached]; rfl)⟩

/-- The gauge follows the events that are told. -/
theorem reads_tell (h : p.bus.Attended) (hreads : p.plugins.Reads n) (es : List Event) :
    (p.tell es).1.bus.Attended ∧ (p.tell es).1.plugins.Reads (n + shift es) := by
  induction es generalizing p n with
  | nil => exact ⟨h, (Int.add_zero n).symm ▸ hreads⟩
  | cons e rest ih =>
    obtain ⟨hbus, hplugins⟩ := plugins_publish h e
    have hfirst := hreads.handle e
    rw [← hplugins] at hfirst
    have hrest := ih (p := (p.publish e).2.1) (hbus ▸ h) hfirst
    have hsum : n + shift (e :: rest) = n + e.kind.shift + shift rest := by
      rw [shift]
      omega
    rw [hsum]
    exact hrest

end Plane

/-! ## Records that have a reference -/

/-- How many records have a reference to a workload. -/
def Store.referenced (s : Store) : Nat := s.records.values.countP (·.providerRef ≠ "")

namespace Store

variable {s s' : Store}

/-- A record in the place of one with the same reference. -/
theorem referenced_put {r i : Instance} (hi : s.records.get? i.id = some i) (hid : r.id = i.id)
    (href : r.providerRef = i.providerRef) (hs : s'.records = (s.put r).records) :
    s'.referenced = s.referenced := by
  unfold referenced
  rw [hs]
  refine Dict.countP_replace (v := i) ?_ ?_
  · rw [hid]
    exact hi
  · rw [href]

theorem referenced_add {r : Instance} (hnew : s.records.get? r.id = none) :
    (s.add r).referenced = s.referenced + if r.providerRef = "" then 0 else 1 := by
  unfold referenced
  have hcount := Dict.countP_insert (v := r) hnew (·.providerRef ≠ "")
  by_cases href : r.providerRef = ""
  · rw [if_pos href]
    rw [if_neg (by simp [href])] at hcount
    exact hcount
  · rw [if_neg href]
    rw [if_pos (by simp [href])] at hcount
    exact hcount

theorem referenced_drop {i : Instance} (hi : s.records.get? i.id = some i)
    (href : i.providerRef ≠ "") : s.referenced = (s.drop i).referenced + 1 := by
  unfold referenced
  have hcount := Dict.countP_erase hi (·.providerRef ≠ "")
  rw [if_pos (by simp [href])] at hcount
  exact hcount

end Store

/-- A reference that a provider gives is not empty. -/
theorem reference_ne_empty (own id : String) : own ++ "-" ++ id ≠ "" := by
  intro hempty
  have hlength := congrArg String.length hempty
  rw [String.length_append, String.length_append] at hlength
  have hdash : "-".length = 1 := rfl
  have hnone : "".length = 0 := rfl
  omega

/-! ## A request moves the gauge as it moves the number of records -/

namespace Service

theorem shift_createdEvent (who : Caller) (stamp : Stamp) (i : Instance) :
    shift [createdEvent who stamp i] = 1 := by
  have hkind : (createdEvent who stamp i).kind = .known .instanceCreated := by simp [createdEvent]
  rw [shift_singleton, hkind]
  rfl

theorem shift_quotaEvent (who : Caller) (stamp : Stamp) (current : Nat) (limit : UInt64) :
    shift [quotaEvent who stamp current limit] = 0 := by
  have hkind : (quotaEvent who stamp current limit).kind = .known .quotaExceeded := by
    simp [quotaEvent]
  rw [shift_singleton, hkind]
  rfl

variable {w : Estate} {limit : UInt64} {caller : Option Caller} {stamp : Stamp} {u : Upshot Reply}
  {q : Request}

namespace Errand

variable {e : Errand}

theorem shift_alarm (he : q.errand = some e) (who : Caller) (i : Instance) (cause : Provider.Error) :
    shift (e.alarm who stamp i cause) = 0 := by
  refine shift_eq_zero fun x hx => ?_
  rw [(of_mem_alarm he hx).2]
  exact ⟨by decide, by decide⟩

theorem reference_ruined (he : q.errand = some e) (stamp : Stamp) (i : Instance) :
    (e.ruined stamp i).providerRef = i.providerRef := by
  rcases ruined_cases he stamp i with ⟨-, hsame⟩ | ⟨_, _, _, _, hfailed⟩
  · rw [hsame]
  · rw [hfailed]

theorem reference_settled (he : q.errand = some e) {edit : Stamp → Instance → Instance}
    (hedit : e.edit = some edit) (stamp : Stamp) (i : Instance) :
    (e.settled edit stamp i).providerRef = i.providerRef := by
  cases q with
  | start id | stop id | restart id | scale id r | suspend id reason | unsuspend id =>
    cases he
    cases hedit
    rfl
  | delete id =>
    cases he
    cases hedit
  | _ => cases he

/-- A record whose provider did as it was told has a reference. -/
theorem reference_of_done (he : q.errand = some e) (h : w.Agrees) {who : Caller} {i : Instance}
    (ha : e.Admits caller w who i) {a : (e.command (e.entered stamp i)).Reply}
    (hc : (e.told stamp w i).1 = .ok a) : i.providerRef ≠ "" := by
  obtain ⟨l, hl⟩ := ha.registered
  obtain ⟨x, hx⟩ := hosted_of_done he hl hc
  obtain ⟨own, -, hfits⟩ := h.fits i.id i ha.stored
  rw [hx] at hfits
  rw [hfits.2.2.2]
  exact reference_ne_empty own i.id

theorem Comes.referenced (he : q.errand = some e) (hcomes : e.Comes caller stamp w u)
    (h : w.Agrees) :
    (u.estate.store.referenced : Int) = w.store.referenced + shift u.events := by
  cases hcomes with
  | refused f hf => exact (Int.add_zero _).symm
  | @failed who i ha cause hc =>
    have hcount : (w.store.put (e.ruined stamp i)).referenced = w.store.referenced :=
      Store.referenced_put ha.stored (ruined_keeps he stamp i).1 (reference_ruined he stamp i) rfl
    show ((w.store.put (e.ruined stamp i)).referenced : Int) = _
    rw [hcount, shift_alarm he, Int.add_zero]
  | @settled who i ha edit hedit a hc =>
    have hcount : (w.store.put (e.settled edit stamp i)).referenced = w.store.referenced :=
      Store.referenced_put ha.stored (settled_keeps he hedit stamp i).1
        (reference_settled he hedit stamp i) rfl
    obtain ⟨hcreated, hdeleted⟩ := kind_news he hedit who stamp (e.settled edit stamp i)
    show ((w.store.put (e.settled edit stamp i)).referenced : Int) = _
    rw [hcount, shift_singleton, Kind.shift_eq_zero hcreated hdeleted, Int.add_zero]
  | @removed who i ha hedit a hc =>
    have hcount := Store.referenced_drop ha.stored (reference_of_done he h ha hc)
    show ((w.store.drop i).referenced : Int) = _
    rw [shift_singleton, kind_news_of_removal he hedit]
    show ((w.store.drop i).referenced : Int) = w.store.referenced + (-1)
    omega

end Errand

/-- What comes of a request moves the number of records with a reference as its events move the
gauge. -/
theorem Request.Comes.referenced (hcomes : q.Comes limit caller stamp w u) (hf : w.store.Filed)
    (h : w.Agrees) :
    (u.estate.store.referenced : Int) = w.store.referenced + shift u.events := by
  cases hcomes with
  | refused f hr => exact (Int.add_zero _).symm
  | shown reply hs => exact (Int.add_zero _).symm
  | overQuota r hwho hroom => rw [shift_quotaEvent, Int.add_zero]
  | @updated id r who i edited s hwho hi howner hc hs =>
    have hrecords := Store.records_of_update hs
    obtain ⟨name, slug, env, labels, rfl⟩ := changed_eq_ok hc
    obtain rfl : i.id = id := hf id i hi
    have hcount : s.referenced = w.store.referenced := by
      refine Store.referenced_put hi ?_ ?_ hrecords
      · rfl
      · rfl
    show (s.referenced : Int) = w.store.referenced + 0
    rw [hcount, Int.add_zero]
  | @created r who provider ha made hc =>
    obtain ⟨l, -, hl⟩ := ha.registered
    obtain ⟨href, -⟩ := Provider.Directory.hosted_of_provision hl hc
    have hne : (provisioned who r provider stamp made).providerRef ≠ "" := by
      show made.ref ≠ ""
      rw [href]
      exact reference_ne_empty _ _
    have hcount := Store.referenced_add (s := w.store) (r := provisioned who r provider stamp made)
      ha.fresh
    rw [if_neg hne] at hcount
    rw [shift_createdEvent]
    show ((w.store.add _).referenced : Int) = _
    omega
  | @unprovisioned r who provider ha cause hc =>
    have hcount := Store.referenced_add (s := w.store) (r := stillborn who r provider stamp) ha.fresh
    show ((w.store.add _).referenced : Int) = w.store.referenced + 0
    rw [hcount]
    rfl
  | errand he hcomes => exact hcomes.referenced he h

/-- A request that fails moves no gauge. -/
theorem Request.Comes.shift_of_error (hcomes : q.Comes limit caller stamp w u) {f : Failure}
    (hf : u.reply = .error f) : shift u.events = 0 := by
  cases hcomes with
  | refused f hr => rfl
  | overQuota r hwho hroom => exact shift_quotaEvent ..
  | unprovisioned ha cause hc => rfl
  | errand he hcomes =>
    cases hcomes with
    | refused f hr => rfl
    | failed ha cause hc => exact Errand.shift_alarm he _ _ cause
    | settled ha edit hedit a hc => cases hf
    | removed ha hedit a hc => cases hf
  | _ => cases hf

end Service

/-! ## Records with a reference and workloads -/

namespace Provider.Directory

/-- How many workloads all providers hold together. -/
def load (d : Directory) : Nat := (d.providers.values.flatMap (·.workloads.values)).length

/-- The workloads of all providers, by the name of the provider and the id of the instance. -/
def places (d : Directory) : List (String × String) :=
  d.providers.entries.flatMap fun p => p.2.workloads.keys.map (p.1, ·)

theorem length_places (d : Directory) : d.places.length = d.load := by
  unfold places load Dict.values Dict.keys
  rw [List.length_flatMap, List.length_flatMap, List.map_map]
  simp only [List.length_map]
  rfl

theorem mem_places {d : Directory} {name id : String} :
    (name, id) ∈ d.places ↔ ∃ x, d.hosted name id = some x := by
  unfold places hosted
  simp only [List.mem_flatMap, List.mem_map, Prod.mk.injEq, Option.bind_eq_some_iff]
  constructor
  · rintro ⟨⟨n, l⟩, hl, id', hid, rfl, rfl⟩
    obtain ⟨x, hx⟩ := Dict.mem_keys_iff.1 hid
    exact ⟨x, l, Dict.mem_entries_iff.1 hl, hx⟩
  · rintro ⟨x, l, hl, hx⟩
    exact ⟨(name, l), Dict.mem_entries_iff.2 hl, id, Dict.mem_keys_iff.2 ⟨x, hx⟩, rfl, rfl⟩

theorem nodup_places (d : Directory) : d.places.Nodup := by
  refine List.pairwise_flatMap.2 ⟨fun p _ => ?_, ?_⟩
  · refine List.pairwise_map.2 (p.2.workloads.nodup_keys.imp fun hne heq => ?_)
    exact hne (Prod.mk.inj heq).2
  · refine (List.pairwise_map.1 d.providers.nodup_keys).imp fun hne x hx y hy heq => ?_
    obtain ⟨_, -, rfl⟩ := List.mem_map.1 hx
    obtain ⟨_, -, rfl⟩ := List.mem_map.1 hy
    exact hne (Prod.mk.inj heq).1

end Provider.Directory

namespace Store

/-- Where the records with a reference have their workload. -/
def references (s : Store) : List (String × String) :=
  (s.records.entries.filter (·.2.providerRef ≠ "")).map fun e => (e.2.provider, e.1)

theorem length_references (s : Store) : s.references.length = s.referenced := by
  unfold references referenced Dict.values
  rw [List.length_map, List.countP_map, List.countP_eq_length_filter]
  rfl

theorem mem_references {s : Store} {name id : String} :
    (name, id) ∈ s.references ↔
      ∃ r, s.records.get? id = some r ∧ r.providerRef ≠ "" ∧ r.provider = name := by
  unfold references
  simp only [List.mem_map, List.mem_filter, decide_eq_true_eq, Prod.mk.injEq]
  constructor
  · rintro ⟨⟨id', r⟩, ⟨hr, href⟩, rfl, rfl⟩
    exact ⟨r, Dict.mem_entries_iff.1 hr, href, rfl⟩
  · rintro ⟨r, hr, href, rfl⟩
    exact ⟨(id, r), ⟨Dict.mem_entries_iff.2 hr, href⟩, rfl, rfl⟩

theorem nodup_references (s : Store) : s.references.Nodup := by
  have hkeys := List.pairwise_map.1 s.records.nodup_keys
  refine List.pairwise_map.2 ((hkeys.sublist List.filter_sublist).imp fun hne heq => ?_)
  exact hne (Prod.mk.inj heq).2

end Store

/-- Where records and workloads agree, the records with a reference are those with a workload. -/
theorem Estate.Agrees.referenced_eq {w : Estate} (h : w.Agrees) :
    w.store.referenced = w.directory.load := by
  have hperm : w.store.references.Perm w.directory.places := by
    refine (List.perm_ext_iff_of_nodup w.store.nodup_references w.directory.nodup_places).2 ?_
    rintro ⟨name, id⟩
    rw [Store.mem_references, Provider.Directory.mem_places]
    constructor
    · rintro ⟨r, hr, href, rfl⟩
      obtain ⟨own, -, hfits⟩ := h.fits id r hr
      cases hx : w.directory.hosted r.provider id with
      | some x => exact ⟨x, rfl⟩
      | none =>
        rw [hx] at hfits
        exact absurd hfits.2 href
    · rintro ⟨x, hx⟩
      obtain ⟨r, hr, rfl⟩ := h.recorded name id x hx
      obtain ⟨own, -, hfits⟩ := h.fits id r hr
      rw [hx] at hfits
      refine ⟨r, hr, ?_, rfl⟩
      rw [hfits.2.2.2]
      exact reference_ne_empty own r.id
  rw [← Store.length_references, ← Provider.Directory.length_places]
  exact hperm.length_eq

/-! ## As long as a control plane lives -/

namespace Plane

/-- Whether the gauge of a control plane stands at the number of its records with a reference, and all
that it takes to stay there. -/
structure Gauged (p : Plane) : Prop where
  metered : p.settings.metricsEnabled = true
  attended : p.bus.Attended
  reads : p.plugins.Reads p.store.referenced
  filed : p.store.Filed
  agrees : p.estate.Agrees

variable {p : Plane}

/-- The gauge after an end of a request that its plane tells of. -/
theorem Gauged.tell (h : p.Gauged) {limit : UInt64} {caller : Option Caller} {stamp : Stamp}
    {q : Request} {u : Upshot Reply} (hcomes : q.Comes limit caller stamp p.estate u) :
    ((p.occupy u.estate).tell u.events).1.Gauged := by
  have hestate : ((p.occupy u.estate).tell u.events).1.estate = u.estate := by
    rw [estate_tell, estate_occupy]
  have hstore : ((p.occupy u.estate).tell u.events).1.store = u.estate.store :=
    congrArg Estate.store hestate
  obtain ⟨hattended, hreads⟩ := reads_tell (p := p.occupy u.estate) h.attended h.reads u.events
  refine ⟨?_, hattended, ?_, ?_, ?_⟩
  · rw [settings_tell]
    exact h.metered
  · rw [hstore, hcomes.referenced h.filed h.agrees]
    exact hreads
  · rw [hstore]
    exact hcomes.filed h.filed
  · rw [hestate]
    exact hcomes.agrees h.filed h.agrees

theorem Gauged.act (h : p.Gauged) (d : Deed) : (p.act d).1.Gauged := by
  cases d with
  | request caller stamp q =>
    obtain ⟨u, hcomes, hcarry⟩ := carry_comes h.filed caller stamp q
    have hact : (p.act (.request caller stamp q)).1 = ((p.occupy u.estate).tell u.events).1 :=
      congrArg (·.2.1) hcarry
    rw [hact]
    exact h.tell hcomes
  | weather d =>
    obtain ⟨name, f, hkeeps, hact⟩ := p.act_weather d
    rw [hact]
    exact ⟨h.metered, h.attended, h.reads, h.filed,
      h.agrees.of_weather (Provider.Directory.adjust_keeps hkeeps)⟩

theorem Gauged.live (h : p.Gauged) (deeds : List Deed) : (p.live deeds).1.Gauged := by
  induction deeds generalizing p with
  | nil => exact h
  | cons d rest ih => exact ih (h.act d)

/-- The gauge of a control plane stands at the number of its records with a reference. -/
theorem Gauged.metrics? (h : p.Gauged) :
    ∃ m, p.metrics? = some m ∧ m.active = Int64.ofNat p.store.referenced := by
  obtain ⟨m, hm, hactive⟩ := h.reads.metrics?
  refine ⟨m, ?_, hactive.trans Int64.ofInt_eq_ofNat⟩
  unfold Plane.metrics?
  rw [if_pos h.metered]
  exact hm

/-- A request that fails leaves the gauge as it is. -/
theorem Gauged.referenced_of_error (h : p.Gauged) {caller : Option Caller} {stamp : Stamp}
    {q : Request} {f : Failure} (hf : (p.perform caller stamp q).1 = .error f) :
    (p.perform caller stamp q).2.Gauged ∧
      (p.perform caller stamp q).2.store.referenced = p.store.referenced := by
  have hgauged := h.act (.request caller stamp q)
  rw [act_request] at hgauged
  refine ⟨hgauged, ?_⟩
  have hperform : p.perform caller stamp q =
      ((p.perform caller stamp q).1, (p.perform caller stamp q).2) := rfl
  obtain ⟨u, hcomes, hreply, hestate⟩ := perform_comes h.filed hperform
  have hcount := hcomes.referenced h.filed h.agrees
  rw [hcomes.shift_of_error (hreply.trans hf), Int.add_zero, hestate] at hcount
  exact Int.ofNat_inj.1 hcount

/-! ## A control plane with metrics -/

theorem members_register (ps : Plugins) (extra : List Plugin) :
    (extra.foldl Plugins.register ps).members = ps.members ++ extra := by
  induction extra generalizing ps with
  | nil => exact (List.append_nil _).symm
  | cons p rest ih =>
    rw [List.foldl_cons, ih]
    exact List.append_assoc _ [p] rest

/-- The metrics are the first plugin, with the gauge at zero. -/
theorem reads_pluginsOf {s : Settings} (h : s.metricsEnabled = true) (recorder : Audit.Recorder)
    (extra : List Plugin) : (pluginsOf s recorder extra).Reads 0 := by
  unfold pluginsOf
  simp only [h, if_true]
  split
  · exact ⟨{}, _, members_register _ extra, rfl⟩
  · exact ⟨{}, _, members_register _ extra, rfl⟩

theorem attended_build (s : Settings) (providers : List (String × Provider.Local))
    (recorder : Audit.Recorder) (extra : List Plugin) :
    (build s providers recorder extra).bus.Attended where
  opened := rfl
  idle := by
    intro owner howner
    rw [List.mem_singleton.1 howner]
  once := by
    refine ⟨{ id := ⟨1⟩, tag := .plugins, kinds := [], settled := none }, ?_, rfl⟩
    simp [build, Bus.subscribe, Bus.Subscriber.plain, Bus.empty]

/-- Where the providers have no workloads, the directory has none. -/
theorem workloads_of_register {providers : List (String × Provider.Local)}
    (h : ∀ l ∈ providers, l.2.workloads = .empty) {d : Provider.Directory}
    (hd : ∀ name l, d.providers.get? name = some l → l.workloads = .empty) (name : String)
    (l : Provider.Local)
    (hl : (providers.foldl (fun (d : Provider.Directory) p => d.register p.1 p.2) d).providers.get? name
      = some l) : l.workloads = .empty := by
  induction providers generalizing d with
  | nil => exact hd name l hl
  | cons p rest ih =>
    refine ih (fun l hl => h l (.tail _ hl)) (fun n l' hl' => ?_) hl
    have hget : (d.providers.insert p.1 p.2).get? n = some l' := hl'
    rw [Dict.get?_insert] at hget
    split at hget
    · cases hget
      exact h p (.head _)
    · exact hd n l' hget

/-- A control plane that was put together with metrics, on providers without workloads. -/
theorem gauged_build {s : Settings} (hmetrics : s.metricsEnabled = true)
    {providers : List (String × Provider.Local)} (hidle : ∀ l ∈ providers, l.2.workloads = .empty)
    (recorder : Audit.Recorder) (extra : List Plugin) :
    (build s providers recorder extra).Gauged where
  metered := hmetrics
  attended := attended_build s providers recorder extra
  reads := reads_pluginsOf hmetrics recorder extra
  filed := filed_of_empty rfl
  agrees := by
    refine agrees_start rfl fun name l hl => ?_
    exact workloads_of_register hidle (fun _ _ h => by cases h) name l hl

/-- The control plane with one more subscriber, for some kinds of event and with some result. -/
def listen (p : Plane) (l : String × List Kind × Option String) : Plane :=
  { p with bus := (p.bus.subscribe (.plain (.outside l.1) l.2.1 l.2.2)).2 }

theorem Gauged.listen (h : p.Gauged) (l : String × List Kind × Option String) : (p.listen l).Gauged :=
  ⟨h.metered, h.attended.subscribe l.1 l.2.1 l.2.2, h.reads, h.filed, h.agrees⟩

theorem Gauged.foldl_listen (h : p.Gauged) (listeners : List (String × List Kind × Option String)) :
    (listeners.foldl Plane.listen p).Gauged := by
  induction listeners generalizing p with
  | nil => exact h
  | cons l rest ih => exact ih (h.listen l)

/-- A control plane with metrics, any time limit for hooks, any further plugins and any further
subscribers, over providers without workloads: whatever requests it carries out one after the other,
and whatever fails meanwhile, its gauge stands at the number of records that have a reference, which is
the number of workloads that its providers hold together. A request that fails leaves the gauge as it
is. -/
theorem gauge_counts_instances {s : Settings} (hmetrics : s.metricsEnabled = true)
    {providers : List (String × Provider.Local)} (hidle : ∀ l ∈ providers, l.2.workloads = .empty)
    (recorder : Audit.Recorder) (extra : List Plugin)
    (listeners : List (String × List Kind × Option String)) (deeds : List Deed) :
    let p := ((listeners.foldl listen (build s providers recorder extra)).live deeds).1
    ∃ m, p.metrics? = some m ∧
      m.active = Int64.ofNat p.store.referenced ∧
      p.store.referenced = p.directory.load ∧
      ((p.store.referenced : Int) ≤ Int64.maxValue.toInt → m.active.toInt = p.store.referenced) ∧
      ∀ caller stamp q f, (p.perform caller stamp q).1 = .error f →
        ∃ m', (p.perform caller stamp q).2.metrics? = some m' ∧ m'.active = m.active := by
  intro p
  have hgauged : p.Gauged :=
    ((gauged_build hmetrics hidle recorder extra).foldl_listen listeners).live deeds
  obtain ⟨m, hm, hactive⟩ := hgauged.metrics?
  refine ⟨m, hm, hactive, hgauged.agrees.referenced_eq, fun hfits => ?_, fun caller stamp q f hf => ?_⟩
  · rw [Int64.toInt_maxValue] at hfits
    rw [hactive, ← Int64.ofInt_eq_ofNat]
    exact Int64.toInt_ofInt_of_le (by omega) (by omega)
  · obtain ⟨hafter, hcount⟩ := hgauged.referenced_of_error hf
    obtain ⟨m', hm', hactive'⟩ := hafter.metrics?
    exact ⟨m', hm', by rw [hactive', hcount, hactive]⟩

/-- Three instances are created, one of them without a workload; one is deleted, and the deletion of
another fails. -/
def bustling : List Deed :=
  [deed "inst_1" "evt_1" (.create { name := "Web", image := "nginx" }),
    deed "inst_2" "evt_2" (.create { name := "Db", image := "postgres" }),
    .weather (.fails "local" .provision),
    deed "inst_3" "evt_3" (.create { name := "Mail", image := "postfix" }),
    deed "inst_4" "evt_4" (.delete "inst_2"), .weather (.fails "local" .deprovision),
    deed "inst_5" "evt_5" (.delete "inst_1")]

/-- A control plane with a plugin that takes too long and a subscriber that fails. -/
def crowdedWithMetrics : Plane :=
  [("tap", [], some "refused")].foldl listen
    (build { hookTimeoutMs := 1 } [("local", { name := "local" })] {} [sluggish])

theorem gauge_counts_instances_bustling :
    ({ hookTimeoutMs := 1 } : Settings).metricsEnabled = true ∧
      (∀ l ∈ [("local", ({ name := "local" } : Provider.Local))], l.2.workloads = .empty) ∧
      (crowdedWithMetrics.live bustling).1.store.records.size = 2 ∧
      (crowdedWithMetrics.live bustling).1.directory.load = 1 ∧
      ∃ m, (crowdedWithMetrics.live bustling).1.metrics? = some m ∧ m.active.toInt = 1 := by
  have hidle : ∀ l ∈ [("local", ({ name := "local" } : Provider.Local))], l.2.workloads = .empty := by
    intro l hl
    rw [List.mem_singleton.1 hl]
  have hestate := crowdedWithMetrics.estate_live bustling
  have hstore : (crowdedWithMetrics.live bustling).1.store.records.size = 2 := by
    show (crowdedWithMetrics.live bustling).1.estate.store.records.size = 2
    rw [hestate]
    decide +kernel
  have hload : (crowdedWithMetrics.live bustling).1.directory.load = 1 := by
    show (crowdedWithMetrics.live bustling).1.estate.directory.load = 1
    rw [hestate]
    decide +kernel
  obtain ⟨m, hm, -, hagree, hgauge, -⟩ := gauge_counts_instances (s := { hookTimeoutMs := 1 }) rfl hidle
    {} [sluggish] [("tap", [], some "refused")] bustling
  have hone : (crowdedWithMetrics.live bustling).1.store.referenced = 1 := hagree.trans hload
  have hshown : ((crowdedWithMetrics.live bustling).1.store.referenced : Int) ≤
      Int64.maxValue.toInt → m.active.toInt =
        (crowdedWithMetrics.live bustling).1.store.referenced := hgauge
  rw [hone] at hshown
  exact ⟨rfl, hidle, hstore, hload, m, hm, hshown (by decide)⟩

end Plane

end Fleet
