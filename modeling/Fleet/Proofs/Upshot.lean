import Fleet.Proofs.Errand

/-!
# What comes of a request

A request that is carried out in one go comes to one of few ends (`Request.Comes`): it is refused, or
the quota is reached, and nothing changes; a reading shows what is stored; an update writes one record;
a creation adds one record, as the provider did as it was told or failed; or it is an errand.

    p.perform caller stamp q = (u.reply, (p with u.estate).tell u.events without what was seen)

with an end `u` of the request (`Plane.perform_comes`). A control plane that carries out requests one
after the other, while its providers may begin to fail and may recover, lives from one such end to the
next (`Plane.live`, `Plane.live_induct`). -/

namespace Fleet

open Service Procedure

/-- The store with a new record and its slug. -/
def Store.add (s : Store) (i : Instance) : Store :=
  { records := s.records.insert i.id i, slugs := s.slugs.insert (keyOf i) i.id }

theorem Store.get?_add (s : Store) (i : Instance) (id : String) :
    (s.add i).records.get? id = if i.id = id then some i else s.records.get? id :=
  Dict.get?_insert _ _ _ _

/-- To put a record in the place of one that was added is to add that record. -/
theorem Store.put_add (s : Store) {i j : Instance} (hid : j.id = i.id) (hkey : keyOf j = keyOf i) :
    (s.add i).put j = s.add j := by
  unfold put add
  rw [hkey, hid]
  congr 1
  refine Dict.ext_get? fun id => ?_
  simp only [Dict.get?_insert]
  split <;> rfl

theorem Store.insert_cases (s : Store) (i : Instance) :
    (s.insert i = .ok (1, s.add { i with version := 1 }) ∧ s.records.get? i.id = none ∧
      s.slugs.contains (keyOf i) = false) ∨
      ∃ f, s.insert i = .error f ∧ f.kind.isRefusal = true := by
  unfold insert
  by_cases hid : s.records.contains i.id = true
  · rw [if_pos hid]
    exact .inr ⟨_, rfl, rfl⟩
  · rw [if_neg hid]
    by_cases hslug : s.slugs.contains (keyOf i) = true
    · rw [if_pos hslug]
      exact .inr ⟨_, rfl, rfl⟩
    · rw [if_neg hslug]
      exact .inl ⟨rfl, by simpa [Dict.contains] using hid, by simpa using hslug⟩

theorem Store.update_cases (s : Store) (i : Instance) :
    (∃ s', s.update i = .ok (i.version + 1, s')) ∨
      ∃ f, s.update i = .error f ∧ f.kind.isRefusal = true := by
  unfold update
  cases s.owned? i.tenant i.id with
  | none => exact .inr ⟨_, rfl, rfl⟩
  | some stored =>
    by_cases hversion : stored.version ≠ i.version
    · exact .inr ⟨_, if_pos hversion, rfl⟩
    · simp only [if_neg hversion]
      rw [Decidable.not_not.1 hversion]
      split
      · exact .inr ⟨_, rfl, rfl⟩
      · exact .inl ⟨_, rfl⟩

theorem Store.records_of_update {s s' : Store} {i : Instance} {now : Instant}
    (h : s.update (i.touch now) = .ok (i.version + 1, s')) :
    s'.records = (s.put (i.saved now)).records := by
  obtain ⟨stored, -, -, -, -, rfl⟩ := update_eq_ok h
  rfl

/-- A directory finds a provider that it has, or refuses. -/
theorem Provider.Directory.resolve_cases (d : Provider.Directory) (name : Option String) :
    (∃ n l, d.resolve name = .ok (n, l) ∧ d.providers.get? n = some l) ∨
      ∃ f, d.resolve name = .error f ∧ f.kind.isRefusal = true := by
  have hlookup : ∀ n, (∃ l, (d.lookup n).map (n, ·) = .ok (n, l) ∧ d.providers.get? n = some l) ∨
      ∃ f, (d.lookup n).map (n, ·) = .error f ∧ f.kind.isRefusal = true := by
    intro n
    unfold lookup
    cases d.providers.get? n with
    | some l => exact .inl ⟨l, rfl, rfl⟩
    | none => exact .inr ⟨_, rfl, rfl⟩
  have hdefault : (∃ n l, d.default = .ok (n, l) ∧ d.providers.get? n = some l) ∨
      ∃ f, d.default = .error f ∧ f.kind.isRefusal = true := by
    unfold default
    cases d.fallback with
    | none => exact .inr ⟨_, rfl, rfl⟩
    | some n => exact (hlookup n).imp_left fun ⟨l, h⟩ => ⟨n, l, h⟩
  unfold resolve
  cases name with
  | none => exact hdefault
  | some n =>
    by_cases hn : n = ""
    · simp only [if_pos hn]
      exact hdefault
    · simp only [if_neg hn]
      exact (hlookup n).imp_left fun ⟨l, h⟩ => ⟨n, l, h⟩

/-- Whether a tenant may have one instance more. -/
def Store.HasRoom (s : Store) (limit : UInt64) (tenant : String) : Prop :=
  limit = 0 ∨ s.count tenant < limit.toNat

namespace Service

def quotaEvent (who : Caller) (stamp : Stamp) (current : Nat) (limit : UInt64) : Event :=
  let e : Event :=
    { id := stamp.eventId, kind := .known .quotaExceeded, tenant := who.tenant
      timestamp := stamp.announced }
  let e := e.withField "resource" (.str "instances")
  let e := e.withField "current" (.int current)
  let e := e.withField "limit" (.int limit.toNat)
  attributed who e

/-- The record of a creation as it is first stored. -/
def newborn (who : Caller) (r : CreateRequest) (provider : String) (stamp : Stamp) : Instance :=
  { draft who r provider stamp with version := 1 }

/-- The record of a creation whose workload was provisioned. -/
def provisioned (who : Caller) (r : CreateRequest) (provider : String) (stamp : Stamp)
    (made : Provider.Provisioned) : Instance :=
  { newborn who r provider stamp with
    providerRef := made.ref, endpoints := made.endpoints }.saved stamp.second

/-- The record of a creation whose provider failed. -/
def stillborn (who : Caller) (r : CreateRequest) (provider : String) (stamp : Stamp) : Instance :=
  { newborn who r provider stamp with state := .failed }.saved stamp.second

namespace Request

def Shows (caller : Option Caller) (w : Estate) : Request → Reply → Prop
  | .get id, .record i => ∃ who, caller = some who ∧ w.store.find who.tenant id = .ok i
  | .getBySlug slug, .record i =>
    ∃ who, caller = some who ∧ w.store.findBySlug who.tenant slug = .ok i
  | .list q, .page p => ∃ who, caller = some who ∧ w.store.list who.tenant q = .ok p
  | _, _ => False

/-- Whether a caller may create what a request asks for, on the provider that it resolves to. -/
structure Admits (limit : UInt64) (caller : Option Caller) (stamp : Stamp) (w : Estate)
    (r : CreateRequest) (who : Caller) (provider : String) : Prop where
  known : caller = some who
  tenant : who.tenant ≠ ""
  name : Text.isBlankText r.name = false
  image : Text.isBlankText r.image = false
  slug : Text.slug r.name ≠ ""
  room : w.store.HasRoom limit who.tenant
  registered : ∃ l, w.directory.resolve r.provider = .ok (provider, l) ∧
    w.directory.providers.get? provider = some l
  fresh : w.store.records.get? stamp.instanceId = none
  free : w.store.slugs.contains (Store.keyOf (newborn who r provider stamp)) = false

/-- What the provider of a creation answers, and the directory after that. -/
def told (stamp : Stamp) (w : Estate) (r : CreateRequest) (who : Caller) (provider : String) :
    Except Provider.Error Provider.Provisioned × Provider.Directory :=
  w.directory.command provider (.provision (.ofInstance (newborn who r provider stamp)))

/-- What may come of a request. -/
inductive Comes (limit : UInt64) (caller : Option Caller) (stamp : Stamp) (w : Estate) :
    Request → Upshot Reply → Prop
  | refused (q : Request) (f : Failure) (hf : f.kind.isRefusal = true) :
      Comes limit caller stamp w q ⟨.error f, w, []⟩
  | overQuota (r : CreateRequest) {who : Caller} (hwho : caller = some who)
      (hroom : ¬ w.store.HasRoom limit who.tenant) :
      Comes limit caller stamp w (.create r)
        ⟨.error (.quotaReached who.tenant (w.store.count who.tenant) limit), w,
          [quotaEvent who stamp (w.store.count who.tenant) limit]⟩
  | shown (q : Request) (reply : Reply) (h : q.Shows caller w reply) :
      Comes limit caller stamp w q ⟨.ok reply, w, []⟩
  | updated (id : String) (r : UpdateRequest) {who : Caller} {i edited : Instance} {s : Store}
      (hwho : caller = some who) (hi : w.store.records.get? id = some i)
      (howner : i.tenant = who.tenant) (hc : changed i r = .ok edited)
      (hs : w.store.update (edited.touch stamp.first) = .ok (edited.version + 1, s)) :
      Comes limit caller stamp w (.update id r)
        ⟨.ok (.record (edited.saved stamp.first)), { w with store := s }, []⟩
  | created {r : CreateRequest} {who : Caller} {provider : String}
      (ha : Admits limit caller stamp w r who provider) (made : Provider.Provisioned)
      (hc : (told stamp w r who provider).1 = .ok made) :
      Comes limit caller stamp w (.create r)
        ⟨.ok (.record (provisioned who r provider stamp made)),
          ⟨w.store.add (provisioned who r provider stamp made), (told stamp w r who provider).2⟩,
          [createdEvent who stamp (provisioned who r provider stamp made)]⟩
  | unprovisioned {r : CreateRequest} {who : Caller} {provider : String}
      (ha : Admits limit caller stamp w r who provider) (cause : Provider.Error)
      (hc : (told stamp w r who provider).1 = .error cause) :
      Comes limit caller stamp w (.create r)
        ⟨.error (.providerFailed (.task .provision) cause),
          ⟨w.store.add (stillborn who r provider stamp), (told stamp w r who provider).2⟩, []⟩
  | errand {q : Request} {e : Errand} (he : q.errand = some e) {u : Upshot Reply}
      (h : e.Comes caller stamp w u) : Comes limit caller stamp w q u

end Request

namespace Procedure

variable {w : Estate}

theorem carry_insert {i : Instance} (h : w.store.insert i = .ok (1, w.store.add { i with version := 1 })) :
    (ask (.insert i)).carry w =
      ⟨.ok (.ok 1), { w with store := w.store.add { i with version := 1 } }, []⟩ := by
  simp only [ask, carry, Estate.serve, Estate.plane, Plane.serve, h, Plane.estate, Call.events,
    Upshot.after_nil]

theorem carry_insert_error {i : Instance} {f : Failure} (h : w.store.insert i = .error f) :
    (ask (.insert i)).carry w = ⟨.ok (.error f), w, []⟩ := by
  simp only [ask, carry, Estate.serve, Estate.plane, Plane.serve, h, Plane.estate, Call.events,
    Upshot.after_nil]

theorem carry_update_error {i : Instance} {f : Failure} (h : w.store.update i = .error f) :
    (ask (.update i)).carry w = ⟨.ok (.error f), w, []⟩ := by
  simp only [ask, carry, Estate.serve, Estate.plane, Plane.serve, h, Plane.estate, Call.events,
    Upshot.after_nil]

/-- The quota lets pass while there is room, and ends all with its event otherwise. -/
theorem carry_checkQuota (limit : UInt64) (who : Caller) (stamp : Stamp) (w : Estate) :
    (w.store.HasRoom limit who.tenant ∧ (checkQuota limit who stamp).carry w = ⟨.ok (), w, []⟩) ∨
      ¬ w.store.HasRoom limit who.tenant ∧ (checkQuota limit who stamp).carry w =
        ⟨.error (.quotaReached who.tenant (w.store.count who.tenant) limit), w,
          [quotaEvent who stamp (w.store.count who.tenant) limit]⟩ := by
  unfold checkQuota
  by_cases hlimit : limit = 0
  · rw [if_pos hlimit]
    exact .inl ⟨.inl hlimit, rfl⟩
  · rw [if_neg hlimit]
    have hcount : (ask (.count who.tenant)).carry w =
        ⟨.ok (.ok (w.store.count who.tenant)), w, []⟩ := rfl
    rw [carry_bind_ok hcount]
    by_cases hroom : w.store.count who.tenant < limit.toNat
    · refine .inl ⟨.inr hroom, ?_⟩
      simp only [ofExcept, done_bind, if_pos hroom]
      rfl
    · refine .inr ⟨fun h => h.elim hlimit hroom, ?_⟩
      simp only [ofExcept, done_bind, if_neg hroom]
      rfl

end Procedure

section

variable {w : Estate} (limit : UInt64) (caller : Option Caller) (stamp : Stamp)

/-- What a creation comes to once its record is stored. -/
theorem provision_comes {r : CreateRequest} {who : Caller} {provider : String}
    (ha : Request.Admits limit caller stamp w r who provider)
    {f : Except Provider.Error Provider.Provisioned → Procedure Reply}
    (herr : ∀ cause, f (.error cause) =
      markFailed (newborn who r provider stamp) stamp.second >>= fun _ =>
        .fail (.providerFailed (.task .provision) cause))
    (hok : ∀ made : Provider.Provisioned, f (.ok made) =
      persist { newborn who r provider stamp with
        providerRef := made.ref, endpoints := made.endpoints } stamp.second >>= fun i =>
          announce (createdEvent who stamp i) >>= fun _ => .done (.record i)) :
    (Request.create r).Comes limit caller stamp w
      ((ask (.command provider (.provision (.ofInstance (newborn who r provider stamp)))) >>= f).carry
        ⟨w.store.add (newborn who r provider stamp), w.directory⟩) := by
  have htold : w.directory.command provider
      (.provision (.ofInstance (newborn who r provider stamp))) = Request.told stamp w r who provider := rfl
  have hstored : (w.store.add (newborn who r provider stamp)).records.get? stamp.instanceId =
      some (newborn who r provider stamp) := by
    rw [Store.get?_add]
    exact if_pos rfl
  rw [carry_bind_ok (carry_command _ _ _), Upshot.after_nil]
  simp only [htold]
  cases hc : (Request.told stamp w r who provider).1 with
  | error cause =>
    have htakes : (w.store.add (newborn who r provider stamp)).Takes (newborn who r provider stamp) :=
      ⟨_, hstored, rfl, rfl, rfl⟩
    have hmark := carry_markFailed
      (w := ⟨w.store.add (newborn who r provider stamp), (Request.told stamp w r who provider).2⟩)
      htakes stamp.second
    rw [herr, carry_bind_ok hmark, Upshot.after_nil, Store.put_add]
    · exact .unprovisioned ha cause hc
    · rfl
    · rfl
  | ok made =>
    have htakes : (w.store.add (newborn who r provider stamp)).Takes
        { newborn who r provider stamp with providerRef := made.ref, endpoints := made.endpoints } :=
      ⟨_, hstored, rfl, rfl, rfl⟩
    have hpersist := carry_persist
      (w := ⟨w.store.add (newborn who r provider stamp), (Request.told stamp w r who provider).2⟩)
      htakes stamp.second
    rw [hok, carry_bind_ok hpersist, carry_bind_ok (carry_announce _ _), Upshot.after_nil,
      Store.put_add]
    · exact .created ha made hc
    · rfl
    · rfl

theorem create_comes (r : CreateRequest) :
    (Request.create r).Comes limit caller stamp w ((procedure limit caller stamp (.create r)).carry w) := by
  unfold procedure create
  simp only [bind_assoc]
  have hrefused : ∀ f : Failure, f.kind.isRefusal = true →
      (Request.create r).Comes limit caller stamp w ⟨.error f, w, []⟩ := fun f hf => .refused _ f hf
  refine (finds_identify w caller).bind (fun who hwho => ?_) hrefused
  refine (finds_ensure w rfl).bind (fun _ hname => ?_) hrefused
  refine (finds_ensure w rfl).bind (fun _ himage => ?_) hrefused
  refine (finds_ensure w rfl).bind (fun _ hslug => ?_) hrefused
  rcases carry_checkQuota limit who stamp w with ⟨hroom, hquota⟩ | ⟨hroom, hquota⟩
  · rw [carry_bind_ok hquota, Upshot.after_nil]
    refine (finds_ask rfl rfl).bind (fun a ha => ?_) hrefused
    have ha : a = (w.directory.resolve r.provider).map (·.1) := ha
    subst ha
    rcases w.directory.resolve_cases r.provider with ⟨provider, l, hres, hl⟩ | ⟨f, hres, hf⟩
    · rw [hres]
      refine (finds_ofExcept w (P := (· = provider)) (fun a h => ?_) (fun f h => ?_)).bind
        (fun found hfound => ?_) hrefused
      · cases h
        rfl
      · cases h
      · subst hfound
        rcases w.store.insert_cases (draft who r found stamp) with
          ⟨hinsert, hfresh, hfree⟩ | ⟨f, hinsert, hf⟩
        · rw [carry_bind_ok (carry_insert hinsert), Upshot.after_nil]
          have ha : Request.Admits limit caller stamp w r who found :=
            ⟨hwho.1, hwho.2, by simpa using hname, by simpa using himage, by simpa using hslug,
              hroom, ⟨l, hres, hl⟩, hfresh, hfree⟩
          refine provision_comes limit caller stamp ha (fun cause => ?_) fun made => ?_
          · simp only [bind_assoc]
            rfl
          · simp only [bind_assoc]
            rfl
        · rw [carry_bind_ok (carry_insert_error hinsert), Upshot.after_nil]
          exact hrefused f hf
    · rw [hres]
      exact hrefused f hf
  · rw [carry_bind_error hquota]
    exact .overQuota r hwho.1 hroom

/-- What a request changes of a record keeps its tenant, its version and all that it does not name. -/
theorem changed_eq_ok {i edited : Instance} {r : UpdateRequest} (h : changed i r = .ok edited) :
    ∃ name slug env labels, edited = { i with name, slug, env, labels } := by
  unfold changed at h
  cases hname : r.name with
  | none =>
    rw [hname] at h
    cases h
    exact ⟨i.name, i.slug, _, _, rfl⟩
  | some name =>
    rw [hname] at h
    simp only at h
    split at h
    · cases h
    · cases h
      exact ⟨_, _, _, _, rfl⟩

theorem kind_of_changed {i : Instance} {r : UpdateRequest} {f : Failure}
    (h : changed i r = .error f) : f.kind.isRefusal = true := by
  unfold changed at h
  split at h
  · cases h
  · split at h
    · cases h
      rfl
    · cases h

theorem update_comes (id : String) (r : UpdateRequest) :
    (Request.update id r).Comes limit caller stamp w
      ((procedure limit caller stamp (.update id r)).carry w) := by
  unfold procedure update persist
  simp only [bind_assoc]
  have hrefused : ∀ f : Failure, f.kind.isRefusal = true →
      (Request.update id r).Comes limit caller stamp w ⟨.error f, w, []⟩ := fun f hf => .refused _ f hf
  refine (finds_identify w caller).bind (fun who hwho => ?_) hrefused
  refine (finds_load w who id).bind (fun i hi => ?_) hrefused
  refine (finds_ofExcept w (fun edited h => h) fun f h => kind_of_changed h).bind
    (fun edited hedited => ?_) hrefused
  rcases w.store.update_cases (edited.touch stamp.first) with ⟨s, hs⟩ | ⟨f, hs, hf⟩
  · rw [carry_bind_ok (carry_update hs), Upshot.after_nil]
    exact .updated id r hwho.1 hi.1 hi.2 hedited hs
  · rw [carry_bind_ok (carry_update_error hs), Upshot.after_nil]
    exact hrefused f hf

theorem get_comes (id : String) : (Request.get id).Comes limit caller stamp w
    ((procedure limit caller stamp (.get id)).carry w) := by
  unfold procedure get
  simp only [bind_assoc]
  have hrefused : ∀ f : Failure, f.kind.isRefusal = true →
      (Request.get id).Comes limit caller stamp w ⟨.error f, w, []⟩ := fun f hf => .refused _ f hf
  refine (finds_identify w caller).bind (fun who hwho => ?_) hrefused
  refine (finds_load w who id).bind (fun i hi => ?_) hrefused
  exact .shown _ _ ⟨who, hwho.1, Store.find_eq_ok_iff.2 hi⟩

theorem getBySlug_comes (slug : String) : (Request.getBySlug slug).Comes limit caller stamp w
    ((procedure limit caller stamp (.getBySlug slug)).carry w) := by
  unfold procedure getBySlug
  simp only [bind_assoc]
  have hrefused : ∀ f : Failure, f.kind.isRefusal = true →
      (Request.getBySlug slug).Comes limit caller stamp w ⟨.error f, w, []⟩ :=
    fun f hf => .refused _ f hf
  refine (finds_identify w caller).bind (fun who hwho => ?_) hrefused
  refine (finds_ensure w rfl).bind (fun _ _ => ?_) hrefused
  refine (finds_ask rfl rfl).bind (fun a ha => ?_) hrefused
  subst ha
  refine (finds_ofExcept w (fun i h => h) fun f h => ?_).bind (fun i hi => ?_) hrefused
  · change w.store.findBySlug who.tenant slug = .error f at h
    unfold Store.findBySlug at h
    split at h
    · cases h
    · cases h
      rfl
  · exact .shown _ _ ⟨who, hwho.1, hi⟩

/-- A listing fails at an unknown cursor only. -/
theorem kind_of_list {s : Store} {tenant : String} {q : Query} {f : Failure}
    (h : s.list tenant q = .error f) : f.kind.isRefusal = true := by
  unfold Store.list Query.page at h
  cases hstart : q.start (q.select tenant s.records.values) with
  | ok n =>
    rw [hstart] at h
    cases h
  | error e =>
    rw [hstart] at h
    cases h
    unfold Query.start at hstart
    split at hstart
    · cases hstart
    · split at hstart
      · cases hstart
      · cases hstart
        rfl

theorem list_comes (q : Query) : (Request.list q).Comes limit caller stamp w
    ((procedure limit caller stamp (.list q)).carry w) := by
  unfold procedure list
  simp only [bind_assoc]
  have hrefused : ∀ f : Failure, f.kind.isRefusal = true →
      (Request.list q).Comes limit caller stamp w ⟨.error f, w, []⟩ := fun f hf => .refused _ f hf
  refine (finds_identify w caller).bind (fun who hwho => ?_) hrefused
  refine (finds_ask rfl rfl).bind (fun a ha => ?_) hrefused
  subst ha
  refine (finds_ofExcept w (fun p h => h) fun f h => ?_).bind (fun p hp => ?_) hrefused
  · exact kind_of_list h
  · exact .shown _ _ ⟨who, hwho.1, hp⟩

/-- A request comes to one of these ends. -/
theorem procedure_comes (hf : w.store.Filed) (q : Request) :
    q.Comes limit caller stamp w ((procedure limit caller stamp q).carry w) := by
  cases he : q.errand with
  | some e =>
    rw [procedure_eq_errand he]
    exact .errand he (e.comes caller stamp hf)
  | none =>
    cases q with
    | create r => exact create_comes limit caller stamp r
    | get id => exact get_comes limit caller stamp id
    | getBySlug slug => exact getBySlug_comes limit caller stamp slug
    | list q => exact list_comes limit caller stamp q
    | update id r => exact update_comes limit caller stamp id r
    | _ => cases he

/-- No request heeds what the bus answers. -/
theorem procedure_heedless (q : Request) : (procedure limit caller stamp q).Heedless := by
  cases he : q.errand with
  | some e =>
    rw [procedure_eq_errand he]
    exact e.heedless_procedure caller stamp
  | none =>
    cases q with
    | create r =>
      unfold procedure create
      refine heedless_bind ?_ fun _ => trivial
      refine heedless_bind (heedless_identify caller) fun who => ?_
      refine heedless_bind (heedless_ensure _ _) fun _ => heedless_bind (heedless_ensure _ _) fun _ => ?_
      refine heedless_bind (heedless_ensure _ _) fun _ => ?_
      refine heedless_bind (heedless_checkQuota limit who stamp) fun _ => ?_
      refine heedless_bind (heedless_ask (by simp)) fun _ => heedless_bind (heedless_ofExcept _) ?_
      refine fun _ => heedless_bind (heedless_ask (by simp)) fun _ => ?_
      refine heedless_bind (heedless_ofExcept _) fun _ => heedless_bind (heedless_ask (by simp)) ?_
      intro a
      cases a with
      | error cause => exact heedless_bind (heedless_markFailed _ _) fun _ => trivial
      | ok made =>
        refine heedless_bind (heedless_persist _ _) fun i => ?_
        exact heedless_bind (heedless_announce _) fun _ => trivial
    | get id =>
      unfold procedure get
      refine heedless_bind ?_ fun _ => trivial
      exact heedless_bind (heedless_identify caller) fun who => heedless_load who id
    | getBySlug slug =>
      unfold procedure getBySlug
      refine heedless_bind ?_ fun _ => trivial
      refine heedless_bind (heedless_identify caller) fun who => ?_
      refine heedless_bind (heedless_ensure _ _) fun _ => ?_
      exact heedless_bind (heedless_ask (by simp)) fun _ => heedless_ofExcept _
    | list q =>
      unfold procedure list
      refine heedless_bind ?_ fun _ => trivial
      refine heedless_bind (heedless_identify caller) fun who => ?_
      exact heedless_bind (heedless_ask (by simp)) fun _ => heedless_ofExcept _
    | update id r =>
      unfold procedure update
      refine heedless_bind ?_ fun _ => trivial
      refine heedless_bind (heedless_identify caller) fun who => ?_
      refine heedless_bind (heedless_load who id) fun i => heedless_bind (heedless_ofExcept _) ?_
      exact fun _ => heedless_persist _ _
    | _ => cases he

end

end Service

/-! ## Records stay under their ids -/

namespace Store.Filed

variable {s : Store}

theorem put (h : s.Filed) (i : Instance) : (s.put i).Filed := by
  intro id r hr
  rw [get?_put] at hr
  split at hr
  · cases hr
    assumption
  · exact h id r hr

theorem add (h : s.Filed) (i : Instance) : (s.add i).Filed := by
  intro id r hr
  rw [get?_add] at hr
  split at hr
  · cases hr
    assumption
  · exact h id r hr

theorem drop (h : s.Filed) (i : Instance) : (s.drop i).Filed := by
  intro id r hr
  rw [get?_drop] at hr
  split at hr
  · cases hr
  · exact h id r hr

end Store.Filed

namespace Service

variable {limit : UInt64} {caller : Option Caller} {stamp : Stamp} {w : Estate} {u : Upshot Reply}

theorem Errand.Comes.filed {e : Errand} (h : e.Comes caller stamp w u) (hf : w.store.Filed) :
    u.estate.store.Filed := by
  cases h with
  | refused f hr => exact hf
  | failed ha cause hc => exact hf.put _
  | settled ha edit he a hc => exact hf.put _
  | removed ha he a hc => exact hf.drop _

theorem Request.Comes.filed {q : Request} (h : q.Comes limit caller stamp w u)
    (hf : w.store.Filed) : u.estate.store.Filed := by
  cases h with
  | refused f hr => exact hf
  | overQuota r hwho hroom => exact hf
  | shown reply hs => exact hf
  | updated id r hwho hi howner hc hs =>
    have hrecords := Store.records_of_update hs
    unfold Store.Filed
    simp only [hrecords]
    exact hf.put _
  | created ha made hc => exact hf.add _
  | unprovisioned ha cause hc => exact hf.add _
  | errand he hcomes => exact hcomes.filed hf

end Service

/-! ## A control plane that lives on -/

namespace Plane

variable {p : Plane}

/-- A control plane answers a request with one of its ends, and publishes the events of that end. -/
theorem carry_comes (hf : p.store.Filed) (caller : Option Caller) (stamp : Stamp) (q : Request) :
    ∃ u, q.Comes p.settings.maxInstances caller stamp p.estate u ∧
      p.carry (procedure p.settings.maxInstances caller stamp q) =
        (u.reply, (p.occupy u.estate).tell u.events) :=
  ⟨_, procedure_comes _ caller stamp hf q, p.carry_eq (procedure_heedless _ caller stamp q)⟩

theorem perform_comes (hf : p.store.Filed) {caller : Option Caller} {stamp : Stamp} {q : Request}
    {result : Except Failure Reply} {p' : Plane} (h : p.perform caller stamp q = (result, p')) :
    ∃ u, q.Comes p.settings.maxInstances caller stamp p.estate u ∧ u.reply = result ∧
      u.estate = p'.estate := by
  obtain ⟨u, hcomes, hcarry⟩ := carry_comes hf caller stamp q
  rw [perform_eq, hcarry] at h
  cases h
  refine ⟨u, hcomes, rfl, ?_⟩
  rw [estate_tell, estate_occupy]

end Plane

/-- What may happen to a control plane from outside: a request is carried out, or a task of a provider
begins to fail or recovers. -/
inductive Deed where
  | request (caller : Option Caller) (stamp : Stamp) (q : Request)
  | weather (d : Weather)

namespace Plane

variable {p : Plane}

/-- What a deed makes of a control plane, with what is seen of events. -/
def act (p : Plane) : Deed → Plane × List Notice
  | .request caller stamp q =>
    (p.carry (procedure p.settings.maxInstances caller stamp q)).2
  | .weather d => (Surroundings.ofPlane.befall d p, [])

/-- Deeds one after the other. -/
def live (p : Plane) : List Deed → Plane × List Notice
  | [] => (p, [])
  | d :: rest => (((p.act d).1.live rest).1, (p.act d).2 ++ ((p.act d).1.live rest).2)

/-- A request leaves a control plane where performing it does. -/
theorem act_request (p : Plane) (caller : Option Caller) (stamp : Stamp) (q : Request) :
    (p.act (.request caller stamp q)).1 = (p.perform caller stamp q).2 := by
  rw [perform_eq]
  rfl

/-- The weather changes providers in what fails only. -/
theorem act_weather (p : Plane) (d : Weather) :
    ∃ name f, (∀ l : Provider.Local, (f l).workloads = l.workloads ∧ (f l).name = l.name) ∧
      (p.act (.weather d)).1 = { p with directory := p.directory.adjust name f } := by
  cases d with
  | fails name task =>
    refine ⟨name, (·.failOn task), fun l => ?_, rfl⟩
    simp only [Provider.Local.failOn]
    split <;> exact ⟨rfl, rfl⟩
  | recovers name task => exact ⟨name, (·.recover task), fun l => ⟨rfl, rfl⟩, rfl⟩

/-- What every end of a request keeps, and every change of the weather, holds as long as a control
plane lives. -/
theorem live_induct {P : Estate → Prop}
    (hrequest : ∀ w limit caller stamp q u, w.store.Filed → P w →
      Request.Comes limit caller stamp w q u → P u.estate)
    (hweather : ∀ (w : Estate) name f,
      (∀ l : Provider.Local, (f l).workloads = l.workloads ∧ (f l).name = l.name) → P w →
      P { w with directory := w.directory.adjust name f })
    (hf : p.store.Filed) (h : P p.estate) (deeds : List Deed) :
    (p.live deeds).1.store.Filed ∧ P (p.live deeds).1.estate := by
  induction deeds generalizing p with
  | nil => exact ⟨hf, h⟩
  | cons d rest ih =>
    cases d with
    | request caller stamp q =>
      obtain ⟨u, hcomes, hcarry⟩ := carry_comes hf caller stamp q
      have hestate : (p.act (.request caller stamp q)).1.estate = u.estate := by
        simp only [act, hcarry, estate_tell, estate_occupy]
      refine ih ?_ ?_
      · show (p.act (.request caller stamp q)).1.estate.store.Filed
        rw [hestate]
        exact hcomes.filed hf
      · rw [hestate]
        exact hrequest _ _ _ _ _ _ hf h hcomes
    | weather d =>
      obtain ⟨name, f, hkeeps, hact⟩ := p.act_weather d
      refine ih ?_ ?_
      · rw [hact]
        exact hf
      · rw [hact]
        exact hweather p.estate name f hkeeps h

theorem filed_of_empty (hs : p.store = .empty) : p.store.Filed := by
  rw [hs]
  intro id r hr
  cases hr

theorem filed_live (hs : p.store = .empty) (deeds : List Deed) : (p.live deeds).1.store.Filed :=
  (live_induct (P := fun _ => True) (fun _ _ _ _ _ _ _ _ _ => trivial) (fun _ _ _ _ _ => trivial)
    (filed_of_empty hs) trivial deeds).1

end Plane

end Fleet
