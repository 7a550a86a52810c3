import Fleet.Proofs.Observers
import Fleet.Proofs.Origin

/-!
# Tenants do not interfere

Two estates look alike to a tenant when they have the same records, slugs and workloads of the tenant,
and providers that fail alike (`Estate.Alike`). What a tenant calls for is then answered in the same way
by both, which look alike to it afterwards (`alike_serve`), and what another tenant calls for changes
nothing that the tenant can see (`apart_serve`). So the requests of all others may be taken out of what
happens to a control plane, and every request of the tenant is answered as before:

    (p.dealings deeds).filter (·.1.concerns t) = p.dealings (deeds.filter (·.concerns t))
                                                            (Plane.tenants_do_not_interfere) -/

namespace Fleet

/-! ## Providers that look alike -/

namespace Provider

/-- Whether two providers look alike to whoever owns some ids: they fail alike, and have the same
workloads under these ids. -/
structure Local.Alike (own : String → Prop) (p p' : Local) : Prop where
  name : p.name = p'.name
  failing : p.failing = p'.failing
  workloads : ∀ id, own id → p.workloads.get? id = p'.workloads.get? id

namespace Local

variable {own : String → Prop} {p p' : Local}

theorem Alike.refl (p : Local) : p.Alike own p := ⟨rfl, rfl, fun _ _ => rfl⟩

theorem Alike.symm (h : p.Alike own p') : p'.Alike own p :=
  ⟨h.name.symm, h.failing.symm, fun id hid => (h.workloads id hid).symm⟩

theorem Alike.trans {p'' : Local} (h : p.Alike own p') (h' : p'.Alike own p'') : p.Alike own p'' :=
  ⟨h.name.trans h'.name, h.failing.trans h'.failing,
    fun id hid => (h.workloads id hid).trans (h'.workloads id hid)⟩

theorem Alike.insert (h : p.Alike own p') (id : String) (w : Workload) :
    { p with workloads := p.workloads.insert id w }.Alike own
      { p' with workloads := p'.workloads.insert id w } where
  name := h.name
  failing := h.failing
  workloads other hother := by
    rw [Dict.get?_insert, Dict.get?_insert, h.workloads other hother]

theorem Alike.erase (h : p.Alike own p') (id : String) :
    { p with workloads := p.workloads.erase id }.Alike own
      { p' with workloads := p'.workloads.erase id } where
  name := h.name
  failing := h.failing
  workloads other hother := by
    rw [Dict.get?_erase, Dict.get?_erase, h.workloads other hother]

theorem Alike.note (h : p.Alike own p') (c : Command) : (p.note c).Alike own (p'.note c) :=
  ⟨h.name, h.failing, h.workloads⟩

theorem Alike.change (h : p.Alike own p') {id : String} (hid : own id) (f : Workload → Workload) :
    (p.change id f).1 = (p'.change id f).1 ∧ (p.change id f).2.Alike own (p'.change id f).2 := by
  unfold Local.change
  rw [h.workloads id hid]
  cases p'.workloads.get? id with
  | none => exact ⟨rfl, h⟩
  | some w => exact ⟨rfl, h.insert id (f w)⟩

theorem Alike.perform (h : p.Alike own p') {c : Command} (hc : own c.target) :
    (p.perform c).1 = (p'.perform c).1 ∧ (p.perform c).2.Alike own (p'.perform c).2 := by
  cases c with
  | provision o =>
    have hthere : p.workloads.contains o.instanceId = p'.workloads.contains o.instanceId :=
      congrArg Option.isSome (h.workloads _ hc)
    have hends : p.endpointOf o = p'.endpointOf o := by
      funext port
      simp only [endpointOf, hostOf, h.name]
    simp only [Local.perform, hthere, hends]
    split
    · exact ⟨rfl, h⟩
    · refine ⟨?_, h.insert _ _⟩
      simp only [h.name]
  | deprovision id =>
    have hthere : p.workloads.contains id = p'.workloads.contains id :=
      congrArg Option.isSome (h.workloads _ hc)
    simp only [Local.perform, hthere]
    split
    · exact ⟨rfl, h.erase id⟩
    · exact ⟨rfl, h⟩
  | start id | stop id | restart id | scale id resources => exact h.change hc _
  | status id =>
    have hsame : p.workloads.get? id = p'.workloads.get? id := h.workloads _ hc
    simp only [Local.perform, hsame]
    split
    · exact ⟨rfl, h⟩
    · exact ⟨rfl, h⟩

/-- A command about an id of the owner is answered alike. -/
theorem Alike.handle (h : p.Alike own p') {c : Command} (hc : own c.target) :
    (p.handle c).1 = (p'.handle c).1 ∧ (p.handle c).2.Alike own (p'.handle c).2 := by
  unfold Local.handle
  rw [h.failing, h.name]
  by_cases hfails : p'.failing.contains c.task = true
  · rw [if_pos hfails, if_pos hfails]
    exact ⟨rfl, h.note c⟩
  · rw [if_neg hfails, if_neg hfails]
    exact (h.note c).perform hc

/-- A command about an id of somebody else changes nothing for the owner. -/
theorem apart_handle (p : Local) {c : Command} (hc : ¬ own c.target) : p.Alike own (p.handle c).2 where
  name := (p.name_handle c).symm
  failing := (p.failing_handle c).symm
  workloads id hid := by
    have hne : c.target ≠ id := by
      intro heq
      exact hc (heq ▸ hid)
    exact (get?_handle_of_ne hne).symm

end Local

/-- Whether two directories look alike to whoever owns some ids. -/
structure Directory.Alike (own : String → Prop) (d d' : Directory) : Prop where
  fallback : d.fallback = d'.fallback
  providers : ∀ n, Option.Rel (Local.Alike own) (d.providers.get? n) (d'.providers.get? n)

namespace Directory

variable {own : String → Prop} {d d' : Directory}

theorem Alike.refl (d : Directory) : d.Alike own d where
  fallback := rfl
  providers n := by
    cases d.providers.get? n with
    | none => exact .none
    | some p => exact .some (.refl p)

theorem Alike.symm (h : d.Alike own d') : d'.Alike own d where
  fallback := h.fallback.symm
  providers n := by
    have hn := h.providers n
    generalize d.providers.get? n = x, d'.providers.get? n = y at hn
    cases hn with
    | none => exact .none
    | some hp => exact .some hp.symm

theorem Alike.trans {d'' : Directory} (h : d.Alike own d') (h' : d'.Alike own d'') :
    d.Alike own d'' where
  fallback := h.fallback.trans h'.fallback
  providers n := by
    have hn := h.providers n
    have hn' := h'.providers n
    generalize d.providers.get? n = x, d'.providers.get? n = y, d''.providers.get? n = z at hn hn'
    cases hn with
    | none => exact hn'
    | some hp =>
      cases hn' with
      | some hp' => exact .some (hp.trans hp')

theorem Alike.insert (h : d.Alike own d') (name : String) {p p' : Local} (hp : p.Alike own p') :
    { d with providers := d.providers.insert name p }.Alike own
      { d' with providers := d'.providers.insert name p' } where
  fallback := h.fallback
  providers n := by
    rw [Dict.get?_insert, Dict.get?_insert]
    by_cases hn : name = n
    · rw [if_pos hn, if_pos hn]
      exact .some hp
    · rw [if_neg hn, if_neg hn]
      exact h.providers n

theorem Alike.lookup (h : d.Alike own d') {β : Type} (name : String) (b : β) :
    (d.lookup name).map (fun _ => b) = (d'.lookup name).map fun _ => b := by
  unfold Directory.lookup
  have hname := h.providers name
  generalize d.providers.get? name = x, d'.providers.get? name = y at hname
  cases hname <;> rfl

theorem Alike.resolve (h : d.Alike own d') (name : Option String) :
    (d.resolve name).map (·.1) = (d'.resolve name).map (·.1) := by
  have hlookup : ∀ n, ((d.lookup n).map (n, ·)).map (·.1) = ((d'.lookup n).map (n, ·)).map (·.1) := by
    intro n
    have hn := h.lookup n n
    cases hd : d.lookup n <;> cases hd' : d'.lookup n <;> rw [hd, hd'] at hn <;> exact hn
  have hdefault : d.default.map (·.1) = d'.default.map (·.1) := by
    unfold Directory.default
    rw [h.fallback]
    cases d'.fallback with
    | none => rfl
    | some n => exact hlookup n
  unfold Directory.resolve
  cases name with
  | none => exact hdefault
  | some n =>
    by_cases hn : n = ""
    · simp only [if_pos hn]
      exact hdefault
    · simp only [if_neg hn]
      exact hlookup n

theorem Alike.command (h : d.Alike own d') (name : String) {c : Command} (hc : own c.target) :
    (d.command name c).1 = (d'.command name c).1 ∧
      (d.command name c).2.Alike own (d'.command name c).2 := by
  unfold Directory.command
  have hname := h.providers name
  generalize d.providers.get? name = x, d'.providers.get? name = y at hname
  cases hname with
  | none => exact ⟨rfl, h⟩
  | some hp =>
    obtain ⟨hanswer, hafter⟩ := hp.handle hc
    exact ⟨hanswer, h.insert name hafter⟩

theorem apart_command (d : Directory) (name : String) {c : Command} (hc : ¬ own c.target) :
    d.Alike own (d.command name c).2 := by
  unfold Directory.command
  cases hname : d.providers.get? name with
  | none => exact .refl d
  | some p =>
    refine ⟨rfl, fun n => ?_⟩
    rw [Dict.get?_insert]
    by_cases hn : name = n
    · rw [if_pos hn, ← hn, hname]
      exact .some (p.apart_handle hc)
    · rw [if_neg hn]
      exact (Alike.refl d).providers n

theorem Alike.adjust (h : d.Alike own d') (name : String) {f : Local → Local}
    (hf : ∀ p p', p.Alike own p' → (f p).Alike own (f p')) :
    (d.adjust name f).Alike own (d'.adjust name f) := by
  unfold Directory.adjust
  have hname := h.providers name
  generalize d.providers.get? name = x, d'.providers.get? name = y at hname
  cases hname with
  | none => exact h
  | some hp => exact h.insert name (hf _ _ hp)

end Directory

end Provider

open Service Procedure Provider

/-! ## Stores that look alike -/

/-- Whether two stores have the same records of a tenant. -/
def Store.Shares (t : String) (s s' : Store) : Prop := ∀ id, s.owned? t id = s'.owned? t id

namespace Store.Shares

variable {t : String} {s s' : Store} (h : s.Shares t s')

include h

theorem get?_iff {id : String} {i : Instance} (hi : i.tenant = t) :
    s.records.get? id = some i ↔ s'.records.get? id = some i := by
  have hid := @owned?_eq_some_iff s t id i
  rw [h id, owned?_eq_some_iff] at hid
  exact ⟨fun hget => (hid.2 ⟨hget, hi⟩).1, fun hget => (hid.1 ⟨hget, hi⟩).1⟩

theorem find (id : String) : s.find t id = s'.find t id := by
  unfold Store.find
  rw [h id]

/-- What a tenant has is in both stores, in the same order. -/
theorem values :
    s.records.values.filter (·.tenant = t) = s'.records.values.filter (·.tenant = t) := by
  have hentries : s.records.entries.filter (fun e => e.2.tenant = t) =
      s'.records.entries.filter fun e => e.2.tenant = t := by
    refine Dict.ascending_ext (s.records.ascending.filter _) (s'.records.ascending.filter _) ?_
    rintro ⟨id, i⟩
    rw [List.mem_filter, List.mem_filter, Dict.mem_entries_iff, Dict.mem_entries_iff]
    exact and_congr_left fun hi => h.get?_iff (of_decide_eq_true hi)
  have hvalues := congrArg (List.map Prod.snd) hentries
  unfold Dict.values
  rw [List.filter_map, List.filter_map]
  exact hvalues

theorem count : s.count t = s'.count t := by
  unfold Store.count
  rw [h.values]

theorem list (q : Query) : s.list t q = s'.list t q := by
  unfold Store.list Query.select
  simp only [Bool.and_comm _ (q.accepts _), ← List.filter_filter, h.values]

end Store.Shares

/-- Whether two stores look alike to a tenant: they have the same records under its ids, and the same
ids under its slugs. -/
structure Store.Alike (origins : Origins) (t : String) (s s' : Store) : Prop where
  records : ∀ id, origins.Of t id → s.records.get? id = s'.records.get? id
  slugs : ∀ slug, s.slugs.get? ⟨t, slug⟩ = s'.slugs.get? ⟨t, slug⟩

namespace Store

variable {origins : Origins} {t : String} {s s' : Store}

namespace Alike

theorem refl (s : Store) : s.Alike origins t s := ⟨fun _ _ => rfl, fun _ => rfl⟩

theorem symm (h : s.Alike origins t s') : s'.Alike origins t s :=
  ⟨fun id hid => (h.records id hid).symm, fun slug => (h.slugs slug).symm⟩

theorem trans {s'' : Store} (h : s.Alike origins t s') (h' : s'.Alike origins t s'') :
    s.Alike origins t s'' :=
  ⟨fun id hid => (h.records id hid).trans (h'.records id hid),
    fun slug => (h.slugs slug).trans (h'.slugs slug)⟩

/-! ### What a tenant reads -/

section

variable (h : s.Alike origins t s') (hs : s.Grounded origins) (hs' : s'.Grounded origins)

include h hs hs'

/-- Both stores have the same records of the tenant, whatever their ids. -/
theorem get?_iff {id : String} {i : Instance} (hi : i.tenant = t) :
    s.records.get? id = some i ↔ s'.records.get? id = some i := by
  constructor
  · intro hget
    rw [← h.records id (hi ▸ hs.of_stored hget)]
    exact hget
  · intro hget
    rw [h.records id (hi ▸ hs'.of_stored hget)]
    exact hget

theorem shares : s.Shares t s' := by
  intro id
  apply Option.ext
  intro i
  rw [owned?_eq_some_iff, owned?_eq_some_iff]
  exact and_congr_left fun hi => h.get?_iff hs hs' hi

omit hs in
theorem findBySlug (slug : String) : s.findBySlug t slug = s'.findBySlug t slug := by
  unfold Store.findBySlug
  rw [h.slugs slug]
  cases hid : s'.slugs.get? ⟨t, slug⟩ with
  | none => rfl
  | some id =>
    have hsame := h.records id (hs'.indexed _ _ hid)
    simp only [Option.bind_some, hsame]

end

/-! ### What a tenant writes -/

section

variable (h : s.Alike origins t s')

include h

/-- Both stores have the same slugs taken. -/
theorem taken {i : Instance} (hi : origins.Owns t i) :
    s.slugs.contains (keyOf i) = s'.slugs.contains (keyOf i) := by
  unfold keyOf
  rw [hi.1]
  exact congrArg Option.isSome (h.slugs _)

theorem insert {i : Instance} (hi : origins.Owns t i) :
    (∃ f, s.insert i = .error f ∧ s'.insert i = .error f) ∨
      ∃ version a a', s.insert i = .ok (version, a) ∧ s'.insert i = .ok (version, a') ∧
        a.Alike origins t a' := by
  have hrecord : s.records.contains i.id = s'.records.contains i.id :=
    congrArg Option.isSome (h.records _ (Origins.of_owns hi))
  unfold Store.insert
  rw [hrecord, h.taken hi]
  by_cases hthere : s'.records.contains i.id = true
  · rw [if_pos hthere, if_pos hthere]
    exact .inl ⟨_, rfl, rfl⟩
  · rw [if_neg hthere, if_neg hthere]
    by_cases htaken : s'.slugs.contains (keyOf i) = true
    · rw [if_pos htaken, if_pos htaken]
      exact .inl ⟨_, rfl, rfl⟩
    · rw [if_neg htaken, if_neg htaken]
      refine .inr ⟨_, _, _, rfl, rfl, fun id hid => ?_, fun slug => ?_⟩
      · rw [Dict.get?_insert, Dict.get?_insert, h.records id hid]
      · rw [Dict.get?_insert, Dict.get?_insert, h.slugs slug]

variable (hs : s.Grounded origins) (hs' : s'.Grounded origins)

include hs hs'

theorem update {i : Instance} (hi : origins.Owns t i) :
    (∃ f, s.update i = .error f ∧ s'.update i = .error f) ∨
      ∃ version a a', s.update i = .ok (version, a) ∧ s'.update i = .ok (version, a') ∧
        a.Alike origins t a' := by
  have howned : s.owned? i.tenant i.id = s'.owned? i.tenant i.id := by
    rw [hi.1]
    exact h.shares hs hs' i.id
  unfold Store.update
  rw [howned, h.taken hi]
  cases s'.owned? i.tenant i.id with
  | none => exact .inl ⟨_, rfl, rfl⟩
  | some stored =>
    by_cases hversion : stored.version ≠ i.version
    · simp only [if_pos hversion]
      exact .inl ⟨_, rfl, rfl⟩
    · simp only [if_neg hversion]
      by_cases htaken : stored.slug ≠ i.slug ∧ s'.slugs.contains (keyOf i) = true
      · rw [if_pos htaken, if_pos htaken]
        exact .inl ⟨_, rfl, rfl⟩
      · rw [if_neg htaken, if_neg htaken]
        refine .inr ⟨_, _, _, rfl, rfl, fun id hid => ?_, fun slug => ?_⟩
        · rw [Dict.get?_insert, Dict.get?_insert, h.records id hid]
        · unfold reindex
          by_cases hsame : stored.slug = i.slug
          · rw [if_pos hsame, if_pos hsame]
            exact h.slugs slug
          · rw [if_neg hsame, if_neg hsame]
            simp only [Dict.get?_insert, Dict.get?_erase, h.slugs slug]

theorem delete (id : String) :
    (∃ f, s.delete t id = .error f ∧ s'.delete t id = .error f) ∨
      ∃ a a', s.delete t id = .ok a ∧ s'.delete t id = .ok a' ∧ a.Alike origins t a' := by
  unfold Store.delete
  rw [h.shares hs hs']
  cases s'.owned? t id with
  | none => exact .inl ⟨_, rfl, rfl⟩
  | some stored =>
    refine .inr ⟨_, _, rfl, rfl, fun other hother => ?_, fun slug => ?_⟩
    · rw [Dict.get?_erase, Dict.get?_erase, h.records other hother]
    · rw [Dict.get?_erase, Dict.get?_erase, h.slugs slug]

end

end Alike

/-! ### What another tenant writes -/

section

variable {u : String} (hu : u ≠ t)

include hu

/-- A record of another tenant changes nothing for the tenant, where no slug of the tenant does. -/
theorem apart_write {i r : Instance} (hi : origins.Owns u i)
    (hrecords : s'.records = s.records.insert i.id r)
    (hslugs : ∀ slug, s'.slugs.get? ⟨t, slug⟩ = s.slugs.get? ⟨t, slug⟩) : s.Alike origins t s' where
  records id hid := by
    have hne : i.id ≠ id := by
      intro heq
      exact hu (Origins.tenant_unique hid (heq ▸ Origins.of_owns hi))
    rw [hrecords, Dict.get?_insert, if_neg hne]
  slugs slug := (hslugs slug).symm

/-- A slug of another tenant is none of the tenant's. -/
theorem apart_key (slug slug' : String) : (⟨u, slug⟩ : SlugKey) ≠ ⟨t, slug'⟩ := by
  intro heq
  exact hu (congrArg SlugKey.tenant heq)

theorem apart_insert {i : Instance} (hi : origins.Owns u i) {version : UInt64}
    (hs : s.insert i = .ok (version, s')) : s.Alike origins t s' := by
  obtain ⟨-, -, -, rfl⟩ := insert_eq_ok_iff.1 hs
  refine apart_write hu hi rfl fun slug => ?_
  have hkey : keyOf i ≠ ⟨t, slug⟩ := by
    unfold keyOf
    rw [hi.1]
    exact apart_key hu _ _
  rw [Dict.get?_insert, if_neg hkey]

theorem apart_update {i : Instance} (hi : origins.Owns u i) {version : UInt64}
    (hs : s.update i = .ok (version, s')) : s.Alike origins t s' := by
  obtain ⟨stored, -, -, -, -, rfl⟩ := update_eq_ok hs
  refine apart_write hu hi rfl fun slug => ?_
  simp only [reindex, keyOf, hi.1]
  by_cases hsame : stored.slug = i.slug
  · rw [if_pos hsame]
  · rw [if_neg hsame, Dict.get?_insert, if_neg (apart_key hu _ _), Dict.get?_erase,
      if_neg (apart_key hu _ _)]

theorem apart_delete (hg : s.Grounded origins) {id : String} (hs : s.delete u id = .ok s') :
    s.Alike origins t s' := by
  obtain ⟨stored, hget, rfl, rfl⟩ := delete_eq_ok hs
  refine ⟨fun other hother => ?_, fun slug => ?_⟩
  · have hne : id ≠ other := by
      intro heq
      exact hu (Origins.tenant_unique hother (heq ▸ hg.of_stored hget))
    rw [Dict.get?_erase, if_neg hne]
  · rw [Dict.get?_erase, if_neg (apart_key hu _ _)]

end

end Store

/-! ## Estates that look alike -/

/-- Whether two estates look alike to a tenant. -/
structure Estate.Alike (origins : Origins) (t : String) (w w' : Estate) : Prop where
  store : w.store.Alike origins t w'.store
  directory : w.directory.Alike (origins.Of t) w'.directory

namespace Estate

variable {origins : Origins} {t u : String} {w w' : Estate}

theorem Alike.refl (w : Estate) : w.Alike origins t w := ⟨.refl _, .refl _⟩

theorem Alike.symm (h : w.Alike origins t w') : w'.Alike origins t w :=
  ⟨h.store.symm, h.directory.symm⟩

theorem Alike.trans {w'' : Estate} (h : w.Alike origins t w') (h' : w'.Alike origins t w'') :
    w.Alike origins t w'' :=
  ⟨h.store.trans h'.store, h.directory.trans h'.directory⟩

/-- A call within a tenant is answered alike, and leaves what looks alike to it. -/
theorem alike_serve (h : w.Alike origins t w') (hg : w.store.Grounded origins)
    (hg' : w'.store.Grounded origins) {c : Call} (hc : c.Within origins t) :
    (w.serve c).1 = (w'.serve c).1 ∧ (w.serve c).2.Alike origins t (w'.serve c).2 := by
  cases c with
  | insert i =>
    rcases h.store.insert hc with ⟨f, hs, hs'⟩ | ⟨version, a, a', hs, hs', hafter⟩
    · simp only [serve, plane, Plane.serve, hs, hs']
      exact ⟨trivial, h⟩
    · simp only [serve, plane, Plane.serve, hs, hs']
      exact ⟨trivial, hafter, h.directory⟩
  | update i =>
    rcases h.store.update hg hg' hc with ⟨f, hs, hs'⟩ | ⟨version, a, a', hs, hs', hafter⟩
    · simp only [serve, plane, Plane.serve, hs, hs']
      exact ⟨trivial, h⟩
    · simp only [serve, plane, Plane.serve, hs, hs']
      exact ⟨trivial, hafter, h.directory⟩
  | delete tenant id =>
    obtain rfl : tenant = t := hc
    rcases h.store.delete hg hg' id with ⟨f, hs, hs'⟩ | ⟨a, a', hs, hs', hafter⟩
    · simp only [serve, plane, Plane.serve, hs, hs']
      exact ⟨trivial, h⟩
    · simp only [serve, plane, Plane.serve, hs, hs']
      exact ⟨trivial, hafter, h.directory⟩
  | find tenant id =>
    obtain rfl : tenant = t := hc
    exact ⟨(h.store.shares hg hg').find id, h⟩
  | findBySlug tenant slug =>
    obtain rfl : tenant = t := hc
    exact ⟨h.store.findBySlug hg' slug, h⟩
  | list tenant q =>
    obtain rfl : tenant = t := hc
    exact ⟨(h.store.shares hg hg').list q, h⟩
  | count tenant =>
    obtain rfl : tenant = t := hc
    exact ⟨congrArg Except.ok (h.store.shares hg hg').count, h⟩
  | resolve name => exact ⟨h.directory.resolve name, h⟩
  | lookup name => exact ⟨h.directory.lookup name (), h⟩
  | command name c =>
    obtain ⟨hanswer, hafter⟩ := h.directory.command name hc
    exact ⟨hanswer, h.store, hafter⟩
  | publish e => exact ⟨rfl, h⟩

/-- A call within one tenant leaves what looks as before to another. -/
theorem apart_serve (hu : u ≠ t) (hg : w.store.Grounded origins) {c : Call}
    (hc : c.Within origins u) : w.Alike origins t (w.serve c).2 := by
  cases c with
  | insert i =>
    simp only [serve, plane, Plane.serve]
    cases hs : w.store.insert i with
    | error f => exact .refl w
    | ok r => exact ⟨Store.apart_insert hu hc hs, .refl _⟩
  | update i =>
    simp only [serve, plane, Plane.serve]
    cases hs : w.store.update i with
    | error f => exact .refl w
    | ok r => exact ⟨Store.apart_update hu hc hs, .refl _⟩
  | delete tenant id =>
    obtain rfl : tenant = u := hc
    simp only [serve, plane, Plane.serve]
    cases hs : w.store.delete tenant id with
    | error f => exact .refl w
    | ok s => exact ⟨Store.apart_delete hu hg hs, .refl _⟩
  | command name c =>
    have htarget : ¬ origins.Of t c.target := by
      intro ht
      exact hu (Origins.tenant_unique ht hc)
    exact ⟨.refl _, w.directory.apart_command name htarget⟩
  | _ => exact .refl w

section

variable {α : Type} {P : α → Prop} {pr : Procedure α}

theorem alike_carry (hpr : pr.Stays origins t P) (h : w.Alike origins t w')
    (hg : w.store.Grounded origins) (hg' : w'.store.Grounded origins) :
    (pr.carry w).reply = (pr.carry w').reply ∧
      (pr.carry w).estate.Alike origins t (pr.carry w').estate := by
  induction pr generalizing w w' with
  | done a => exact ⟨rfl, h⟩
  | fail f => exact ⟨rfl, h⟩
  | call c next ih =>
    obtain ⟨hanswer, hafter⟩ := alike_serve h hg hg' hpr.1
    have hrest := ih _ (hpr.2 _ (trusted_serve hg c)) hafter (grounded_serve hg hpr.1)
      (grounded_serve hg' hpr.1)
    simp only [Procedure.carry, Upshot.after]
    rw [← hanswer]
    exact hrest

theorem apart_carry (hu : u ≠ t) (hpr : pr.Stays origins u P) (hg : w.store.Grounded origins) :
    w.Alike origins t (pr.carry w).estate := by
  induction pr generalizing w with
  | done a => exact .refl w
  | fail f => exact .refl w
  | call c next ih =>
    have hfirst := apart_serve hu hg hpr.1
    exact hfirst.trans (ih _ (hpr.2 _ (trusted_serve hg c)) (grounded_serve hg hpr.1))

end

/-- The weather is the same for all. -/
theorem alike_weather (limit : UInt64) (h : w.Alike origins t w') (d : Weather) :
    (w.act limit (.weather d)).1.Alike origins t (w'.act limit (.weather d)).1 := by
  cases d with
  | fails name task =>
    refine ⟨h.store, h.directory.adjust name fun p p' hp => ?_⟩
    simp only [Local.failOn, hp.failing]
    split
    · exact hp
    · exact ⟨hp.name, rfl, hp.workloads⟩
  | recovers name task =>
    refine ⟨h.store, h.directory.adjust name fun p p' hp => ?_⟩
    exact ⟨hp.name, congrArg (List.filter _) hp.failing, hp.workloads⟩

end Estate

/-! ## Taking others out -/

/-- Whether a deed concerns a tenant: it is a request of the tenant, or the weather. -/
def Deed.concerns (t : String) : Deed → Bool
  | .request (some who) _ _ => who.tenant = t
  | .request none _ _ => false
  | .weather _ => true

/-- A request without a caller does nothing. -/
theorem Service.procedure_none (limit : UInt64) (stamp : Stamp) (q : Request) (w : Estate) :
    ((procedure limit none stamp q).carry w).estate = w := by
  cases q <;> rfl

namespace Estate

variable {origins : Origins} {t : String} {w w' : Estate}

/-- A deed that does not concern a tenant leaves what looks as before to it. -/
theorem apart_act (limit : UInt64) {d : Deed} (hd : d.concerns t = false) (hknown : origins.Knows d)
    (hg : w.store.Grounded origins) : w.Alike origins t (w.act limit d).1 := by
  cases d with
  | request caller stamp q =>
    cases caller with
    | none =>
      simp only [act, procedure_none]
      exact .refl w
    | some who =>
      have hother : who.tenant ≠ t := of_decide_eq_false hd
      have hstays := procedure_stays limit q (fun _ hwho => by cases hwho; rfl) hknown
      exact apart_carry hother hstays hg
  | weather d => cases hd

/-- What a tenant is answered depends on what looks alike to it. -/
theorem dealings_alike (limit : UInt64) {deeds : List Deed} (hknown : ∀ d ∈ deeds, origins.Knows d)
    (h : w.Alike origins t w') (hg : w.store.Grounded origins) (hg' : w'.store.Grounded origins) :
    (w.dealings limit deeds).filter (·.1.concerns t) =
      w'.dealings limit (deeds.filter (·.concerns t)) := by
  -- The second estate sees the tenant's deeds only, and looks like the first one all along.
  induction deeds generalizing w w' with
  | nil => rfl
  | cons d rest ih =>
    have hrest : ∀ d' ∈ rest, origins.Knows d' := fun d' hd' => hknown d' (.tail _ hd')
    have hfirst := hknown d (.head _)
    have hnext := grounded_act limit hfirst hg
    cases hd : d.concerns t with
    | true =>
      rw [List.filter_cons_of_pos hd]
      have hnext' := grounded_act limit hfirst hg'
      cases d with
      | request caller stamp q =>
        have hstays := procedure_stays (t := t) limit q (fun who hwho => by
          subst hwho
          exact of_decide_eq_true hd) hfirst
        obtain ⟨hreply, hafter⟩ := alike_carry hstays h hg hg'
        simp only [dealings, hreply]
        rw [List.filter_cons_of_pos (by exact hd)]
        exact congrArg _ (ih hrest hafter hnext hnext')
      | weather d => exact ih hrest (alike_weather limit h d) hnext hnext'
    | false =>
      rw [List.filter_cons_of_neg (by simp [hd])]
      have hafter : (w.act limit d).1.Alike origins t w' := (apart_act limit hd hfirst hg).symm.trans h
      cases d with
      | request caller stamp q =>
        simp only [dealings]
        rw [List.filter_cons_of_neg (by simp [hd])]
        exact ih hrest hafter hnext hg'
      | weather d => cases hd

end Estate

namespace Plane

variable {p : Plane}

/-- Deeds one after the other: each request with its reply. -/
def dealings (p : Plane) : List Deed → List (Deed × Except Failure Reply)
  | [] => []
  | .request caller stamp q :: rest =>
    (.request caller stamp q, (p.perform caller stamp q).1) ::
      dealings (p.act (.request caller stamp q)).1 rest
  | .weather d :: rest => dealings (p.act (.weather d)).1 rest

/-- Where nobody meddles, deeds are answered one after the other. -/
theorem dealings_eq (p : Plane) (deeds : List Deed) :
    p.dealings deeds = p.estate.dealings p.settings.maxInstances deeds := by
  have hmeddle : p.dealings deeds = (p.liveAmid deeds []).1 := by
    induction deeds generalizing p with
    | nil => rfl
    | cons d rest ih =>
      cases d with
      | request caller stamp q =>
        simp only [dealings, liveAmid, carryAmid_nil, perform_eq]
        exact congrArg _ (ih _)
      | weather d => exact ih _
  rw [hmeddle]
  exact (p.liveAmid_eq deeds []).1

/-- Where no id is given twice, the requests of all other tenants may be taken out of what happens to a
control plane: each request of the tenant has the same reply, whatever the others asked for and whatever
ids, slugs and cursors they named. -/
theorem tenants_do_not_interfere (hstore : p.store = .empty) {deeds : List Deed}
    (hfresh : (deeds.flatMap Deed.births).Nodup) (t : String) :
    (p.dealings deeds).filter (·.1.concerns t) = p.dealings (deeds.filter (·.concerns t)) := by
  have hg : p.estate.store.Grounded (whence deeds) := by
    show p.store.Grounded (whence deeds)
    rw [hstore]
    exact .empty
  rw [dealings_eq, dealings_eq]
  exact Estate.dealings_alike _ (knows_whence hfresh) (.refl _) hg hg

/-- What a caller of another tenant asks for. -/
def rival (id event : String) (q : Request) : Deed :=
  .request (some (.ofTenant "rival" "user-2"))
    { instanceId := id, eventId := event, clock := fun n => { seconds := n } } q

/-- Two tenants give the same name to their instances, one of them names the other's instance, and the
provider fails to stop any. -/
def contested : List Deed :=
  [deed "inst_1" "evt_1" (.create { name := "Web", image := "nginx" }),
    rival "inst_2" "evt_2" (.create { name := "Web", image := "nginx" }),
    rival "inst_3" "evt_3" (.delete "inst_1"), .weather (.fails "local" .stop),
    rival "inst_4" "evt_4" (.list { cursor := some "inst_1" }),
    deed "inst_5" "evt_5" (.stop "inst_1"), deed "inst_6" "evt_6" (.list {})]

theorem tenants_do_not_interfere_contested :
    Config.solo.store = .empty ∧ (contested.flatMap Deed.births).Nodup ∧
      (Config.solo.dealings contested).filter (·.1.concerns "acme") =
        Config.solo.dealings (contested.filter (·.concerns "acme")) ∧
      (Config.solo.dealings contested).map (fun d => d.2.toOption.isSome) =
        [true, true, false, false, false, true] := by
  have hfresh : (contested.flatMap Deed.births).Nodup := by decide
  refine ⟨rfl, hfresh, tenants_do_not_interfere rfl hfresh "acme", ?_⟩
  rw [dealings_eq]
  decide +kernel

end Plane

end Fleet
