import Fleet.Proofs.Integrity
import Fleet.Proofs.Tenancy

/-!
# Requests about two instances commute

A request that names one instance, and gives it no new name, minds the record of its id and the workload of
its id, and nothing else (`Procedure.procedure_minds`). Estates that are alike at the id answer it alike and
are alike there afterwards (`alikeAt_carry`), and at any other id it leaves what was there (`apartAt_carry`).
So two requests about two instances do not notice each other, and lead to the same in either order:

    ((p.answer a).2.answer b).2.store = ((p.answer b).2.answer a).2.store
                                                        (Plane.requests_about_two_instances_commute)

The slug index follows, since it is the inverse of the records. -/

namespace Fleet

open Service Procedure

/-! ## What a request about one instance minds -/

/-- Whether a record is one of an id and a slug. -/
def Instance.KnownAs (id slug : String) (i : Instance) : Prop := i.id = id ∧ i.slug = slug

namespace Service

/-- Whether a request is about the record of an id, and gives it no new name. -/
def Request.Confined (id : String) (q : Request) : Prop :=
  q.named? = some id ∧ ∀ asked r, q = .update asked r → r.name = none

/-- Whether a call is about the record of an id and its workload, and leaves the record its slug. -/
def Call.Minds (id slug : String) : Call → Prop
  | .update i => i.KnownAs id slug
  | .find _ asked | .delete _ asked => asked = id
  | .command _ c => c.target = id
  | .lookup _ | .publish _ => True
  | .insert _ | .findBySlug _ _ | .list _ _ | .count _ | .resolve _ => False

/-- Whether an exchange shows no record but one of an id and a slug. -/
def Exchange.ShowsOnly (id slug : String) (x : Exchange) : Prop :=
  ∀ r, x.sight = some r → r.KnownAs id slug

theorem Exchange.showsOnly_of_sight {id slug : String} {x : Exchange} (h : x.sight = none) :
    x.ShowsOnly id slug := by
  intro r hr
  rw [h] at hr
  cases hr

variable {id slug : String} {past : List Exchange}

theorem knownAs_of_view (hpast : ∀ x ∈ past, x.ShowsOnly id slug) {r : Instance} (h : view past = some r) :
    r.KnownAs id slug := by
  obtain ⟨x, hx, hsight⟩ := view_mem h
  exact hpast x hx r hsight

theorem knownAs_of_held (hpast : ∀ x ∈ past, x.ShowsOnly id slug) {q : Request} {r : Instance}
    (h : held q past = some r) : r.KnownAs id slug := by
  obtain ⟨s, -, hgripped⟩ := Option.bind_eq_some_iff.1 h
  obtain ⟨later, i, version, before, rfl, -, rfl, -⟩ := gripped_eq_some_iff.1 hgripped
  exact hpast _ (List.mem_append_right _ List.mem_cons_self) _ rfl

/-- What is allowed to a request that was shown one record only is about that record. -/
theorem Request.minds_of_allows {q : Request} (hq : ∀ asked r, q ≠ .update asked r) {stamp : Stamp}
    {c : Call} (hallows : q.Allows stamp past c) (hpertains : c.PertainsTo id)
    (hpast : ∀ x ∈ past, x.ShowsOnly id slug) : c.Minds id slug := by
  cases c with
  | update i =>
    obtain ⟨seen, edited, now, hview, htouches, -, rfl⟩ := hallows
    obtain ⟨hid, hslug⟩ := knownAs_of_view hpast hview
    exact ⟨(id_of_touches htouches).trans hid, (called_of_touches hq htouches).2.trans hslug⟩
  | delete tenant asked =>
    obtain ⟨-, ⟨seen, hheld, -, rfl⟩, -⟩ := hallows
    exact (knownAs_of_held hpast hheld).1
  | command provider c =>
    cases c with
    | provision o =>
      obtain ⟨-, i, version, hhead, htarget, -⟩ := hallows
      exact htarget.trans (hpast _ (List.mem_of_head? hhead) _ rfl).1
    | _ =>
      obtain ⟨seen, hview, -, htarget, -⟩ := hallows
      exact htarget.trans (knownAs_of_view hpast hview).1
  | find tenant asked => exact hpertains
  | lookup name | publish e => trivial
  | insert i | findBySlug tenant slug | list tenant query | count tenant | resolve name =>
    exact hpertains.elim

namespace Procedure

variable (limit : UInt64) (caller : Option Caller) (stamp : Stamp)

theorem update_minds {r : UpdateRequest} (hr : r.name = none) :
    (update caller id r stamp).Keeps
      (fun past c => (∀ x ∈ past, x.ShowsOnly id slug) → c.Minds id slug) [] := by
  unfold update
  refine keeps_identify fun who => keeps_load (fun _ => rfl) fun i => keeps_ofExcept fun edited he => ?_
  rw [← bind_done (persist edited stamp.first)]
  refine keeps_persist (fun hpast => ?_) fun version => trivial
  have hi : i.KnownAs id slug := hpast _ List.mem_cons_self i rfl
  unfold changed at he
  rw [hr] at he
  cases he
  exact hi

/-- A request about one instance minds that instance, as long as it is shown no other. -/
theorem procedure_minds {q : Request} (hq : q.Confined id) (slug : String) :
    (procedure limit caller stamp q).Keeps
      (fun past c => (∀ x ∈ past, x.ShowsOnly id slug) → c.Minds id slug) [] := by
  by_cases hupdate : ∃ asked r, q = .update asked r
  · obtain ⟨asked, r, rfl⟩ := hupdate
    obtain rfl : asked = id := Option.some.inj hq.1
    exact keeps_map _ (update_minds caller stamp (hq.2 asked r rfl))
  · have hother : ∀ asked r, q ≠ .update asked r := fun asked r h => hupdate ⟨asked, r, h⟩
    have hboth :=
      keeps_and (procedure_keeps limit caller stamp q) (procedure_pertains limit caller stamp hq.1)
    exact keeps_mono (fun past c hc hpast => Request.minds_of_allows hother hc.1 hc.2 hpast) hboth

end Procedure

end Service

/-! ## Estates at one id -/

/-- Whether the record of an id, if there is one, bears the id and a slug. -/
def Store.Marked (id slug : String) (s : Store) : Prop :=
  ∀ r, s.records.get? id = some r → r.KnownAs id slug

/-- The record of an id bears it, and some slug. -/
theorem Store.Filed.exists_marked {s : Store} (h : s.Filed) (id : String) :
    ∃ slug, s.Marked id slug := by
  cases hr : s.records.get? id with
  | none =>
    refine ⟨"", fun r hr' => ?_⟩
    rw [hr] at hr'
    cases hr'
  | some r =>
    refine ⟨r.slug, fun r' hr' => ?_⟩
    obtain rfl := Option.some.inj (hr.symm.trans hr')
    exact ⟨h id r hr, rfl⟩

/-- Whether two estates have the same record and the same workloads of an id, and providers that fail
alike. -/
structure Estate.AlikeAt (id : String) (w w' : Estate) : Prop where
  record : w.store.records.get? id = w'.store.records.get? id
  directory : w.directory.Alike (· = id) w'.directory

namespace Estate

variable {id other slug : String} {w w' : Estate}

theorem AlikeAt.refl (w : Estate) : w.AlikeAt id w := ⟨rfl, .refl _⟩

theorem AlikeAt.symm (h : w.AlikeAt id w') : w'.AlikeAt id w := ⟨h.record.symm, h.directory.symm⟩

theorem AlikeAt.trans {w'' : Estate} (h : w.AlikeAt id w') (h' : w'.AlikeAt id w'') :
    w.AlikeAt id w'' := ⟨h.record.trans h'.record, h.directory.trans h'.directory⟩

theorem AlikeAt.marked (h : w.AlikeAt id w') (hm : w.store.Marked id slug) :
    w'.store.Marked id slug := fun r hr => hm r (h.record.trans hr)

theorem AlikeAt.owned? (h : w.AlikeAt id w') (tenant : String) :
    w.store.owned? tenant id = w'.store.owned? tenant id := by
  unfold Store.owned?
  rw [h.record]

theorem AlikeAt.update (h : w.AlikeAt id w') (hm : w.store.Marked id slug) {i : Instance}
    (hi : i.KnownAs id slug) :
    (∃ f, w.store.update i = .error f ∧ w'.store.update i = .error f) ∨
      ∃ version s s', w.store.update i = .ok (version, s) ∧ w'.store.update i = .ok (version, s') ∧
        s.records = w.store.records.insert id { i with version } ∧
        s'.records = w'.store.records.insert id { i with version } := by
  obtain ⟨rfl, rfl⟩ := hi
  have howned := h.owned? i.tenant
  unfold Store.update
  cases hs : w.store.owned? i.tenant i.id with
  | none =>
    rw [← howned, hs]
    exact .inl ⟨_, rfl, rfl⟩
  | some stored =>
    rw [← howned, hs]
    by_cases hversion : stored.version ≠ i.version
    · simp only [if_pos hversion]
      exact .inl ⟨_, rfl, rfl⟩
    · -- The stored record has the slug of the one that is written, so no slug is asked for.
      have hslug : stored.slug = i.slug := (hm stored (Store.owned?_eq_some_iff.1 hs).1).2
      simp only [if_neg hversion, hslug, ne_eq, not_true_eq_false, false_and, if_false]
      exact .inr ⟨_, _, _, rfl, rfl, rfl, rfl⟩

/-- A call that minds an id is answered alike where the id is alike, which it is afterwards. -/
theorem alikeAt_serve (h : w.AlikeAt id w') (hm : w.store.Marked id slug) {c : Call}
    (hc : c.Minds id slug) :
    (w.serve c).1 = (w'.serve c).1 ∧ (w.serve c).2.AlikeAt id (w'.serve c).2 := by
  cases c with
  | update i =>
    rcases h.update hm hc with ⟨f, hs, hs'⟩ | ⟨version, s, s', hs, hs', hrecords, hrecords'⟩
    · simp only [serve, plane, Plane.serve, hs, hs']
      exact ⟨trivial, h⟩
    · simp only [serve, plane, Plane.serve, hs, hs']
      refine ⟨trivial, ?_, h.directory⟩
      show s.records.get? id = s'.records.get? id
      rw [hrecords, hrecords', Dict.get?_insert, Dict.get?_insert, if_pos rfl, if_pos rfl]
  | delete tenant asked =>
    obtain rfl : asked = id := hc
    simp only [serve, plane, Plane.serve, Store.delete, h.owned? tenant]
    cases w'.store.owned? tenant asked with
    | none => exact ⟨rfl, h⟩
    | some stored =>
      refine ⟨rfl, ?_, h.directory⟩
      show (w.store.records.erase asked).get? asked = (w'.store.records.erase asked).get? asked
      rw [Dict.get?_erase, Dict.get?_erase, if_pos rfl, if_pos rfl]
  | find tenant asked =>
    obtain rfl : asked = id := hc
    refine ⟨?_, h⟩
    show w.store.find tenant asked = w'.store.find tenant asked
    unfold Store.find
    rw [h.owned? tenant]
  | lookup name => exact ⟨h.directory.lookup name (), h⟩
  | command name c =>
    obtain ⟨hanswer, hafter⟩ := h.directory.command name hc
    exact ⟨hanswer, h.record, hafter⟩
  | publish e => exact ⟨rfl, h⟩
  | insert i | findBySlug tenant slug | list tenant query | count tenant | resolve name =>
    exact hc.elim

/-- A call that minds an id leaves what there is of any other. -/
theorem apartAt_serve (hother : id ≠ other) {c : Call} (hc : c.Minds id slug) :
    w.AlikeAt other (w.serve c).2 := by
  cases c with
  | update i =>
    simp only [serve, plane, Plane.serve]
    cases hs : w.store.update i with
    | error f => exact .refl w
    | ok r =>
      obtain ⟨stored, -, -, -, -, hafter⟩ := Store.update_eq_ok hs
      refine ⟨?_, .refl _⟩
      show w.store.records.get? other = r.2.records.get? other
      rw [hafter, Dict.get?_insert, if_neg (hc.1.symm ▸ hother)]
  | delete tenant asked =>
    obtain rfl : asked = id := hc
    simp only [serve, plane, Plane.serve]
    cases hs : w.store.delete tenant asked with
    | error f => exact .refl w
    | ok s =>
      obtain ⟨stored, -, -, rfl⟩ := Store.delete_eq_ok hs
      refine ⟨?_, .refl _⟩
      show w.store.records.get? other = (w.store.records.erase asked).get? other
      rw [Dict.get?_erase, if_neg hother]
  | command name c =>
    have htarget : c.target ≠ other := fun h => hother ((show c.target = id from hc).symm.trans h)
    exact ⟨rfl, w.directory.apart_command name htarget⟩
  | find tenant asked | lookup name | publish e => exact .refl w
  | insert i | findBySlug tenant slug | list tenant query | count tenant | resolve name =>
    exact hc.elim

/-- A call that minds an id shows no other record, and leaves the slug of that one. -/
theorem marked_serve (hm : w.store.Marked id slug) {c : Call} (hc : c.Minds id slug) :
    Exchange.ShowsOnly id slug ⟨c, (w.serve c).1⟩ ∧ (w.serve c).2.store.Marked id slug := by
  cases c with
  | update i =>
    simp only [serve, plane, Plane.serve]
    cases hs : w.store.update i with
    | error f => exact ⟨Exchange.showsOnly_of_sight rfl, hm⟩
    | ok r =>
      obtain ⟨stored, -, -, -, -, hafter⟩ := Store.update_eq_ok hs
      refine ⟨fun i' hi' => ?_, fun i' hi' => ?_⟩
      · cases hi'
        exact hc
      · change r.2.records.get? id = some i' at hi'
        rw [hafter, Dict.get?_insert, if_pos hc.1] at hi'
        cases hi'
        exact hc
  | delete tenant asked =>
    obtain rfl : asked = id := hc
    simp only [serve, plane, Plane.serve]
    cases hs : w.store.delete tenant asked with
    | error f => exact ⟨Exchange.showsOnly_of_sight rfl, hm⟩
    | ok s =>
      obtain ⟨stored, -, -, rfl⟩ := Store.delete_eq_ok hs
      refine ⟨Exchange.showsOnly_of_sight rfl, fun i' hi' => ?_⟩
      change (w.store.records.erase asked).get? asked = some i' at hi'
      rw [Dict.get?_erase, if_pos rfl] at hi'
      cases hi'
  | find tenant asked =>
    obtain rfl : asked = id := hc
    refine ⟨fun r hr => ?_, hm⟩
    change Exchange.sight ⟨.find tenant asked, w.store.find tenant asked⟩ = some r at hr
    cases hfind : w.store.find tenant asked with
    | error f =>
      rw [hfind] at hr
      cases hr
    | ok i =>
      rw [hfind] at hr
      cases hr
      exact hm _ (Store.find_eq_ok_iff.1 hfind).1
  | lookup name | command name c | publish e => exact ⟨Exchange.showsOnly_of_sight rfl, hm⟩
  | insert i | findBySlug tenant slug | list tenant query | count tenant | resolve name =>
    exact hc.elim

/-! ## A whole procedure -/

section

variable {α : Type} {pr : Procedure α} {past : List Exchange}
  (hpr : pr.Keeps (fun past c => (∀ x ∈ past, x.ShowsOnly id slug) → c.Minds id slug) past)
  (hpast : ∀ x ∈ past, x.ShowsOnly id slug) (hm : w.store.Marked id slug)

include hpr hpast hm

theorem alikeAt_carry (h : w.AlikeAt id w') :
    (pr.carry w).reply = (pr.carry w').reply ∧
      (pr.carry w).estate.AlikeAt id (pr.carry w').estate := by
  induction pr generalizing w w' past with
  | done a => exact ⟨rfl, h⟩
  | fail f => exact ⟨rfl, h⟩
  | call c next ih =>
    have hc := hpr.1 hpast
    obtain ⟨hanswer, hafter⟩ := alikeAt_serve h hm hc
    obtain ⟨hshown, hmarked⟩ := marked_serve hm hc
    have hrest := ih _ (hpr.2 _) (List.forall_mem_cons.2 ⟨hshown, hpast⟩) hmarked hafter
    simp only [Procedure.carry, Upshot.after]
    rw [← hanswer]
    exact hrest

theorem apartAt_carry (hother : id ≠ other) : w.AlikeAt other (pr.carry w).estate := by
  induction pr generalizing w past with
  | done a => exact .refl w
  | fail f => exact .refl w
  | call c next ih =>
    have hc := hpr.1 hpast
    obtain ⟨hshown, hmarked⟩ := marked_serve hm hc
    refine (apartAt_serve hother hc).trans ?_
    exact ih _ (hpr.2 _) (List.forall_mem_cons.2 ⟨hshown, hpast⟩) hmarked

end

/-- Whatever a procedure does, the slug index stays the inverse of the records. -/
theorem indexed_carry {α : Type} (pr : Procedure α) (h : w.store.Indexed) :
    (pr.carry w).estate.store.Indexed := by
  induction pr generalizing w with
  | done a => exact h
  | fail f => exact h
  | call c next ih =>
    have hafter : (serveStore (fun c => (w.plane.serve c).1) w.plane.store c).2.Indexed :=
      h.serve _ c
    rw [serveStore_plane] at hafter
    exact ih _ hafter

/-- Two estates that are alike at every id have the same records and slugs, and the same workloads. -/
theorem eq_of_alikeAt (h : ∀ id, w.AlikeAt id w') (hw : w.store.Indexed) (hw' : w'.store.Indexed) :
    w.store = w'.store ∧ ∀ name, (w.directory.providers.get? name).map (·.workloads) =
      (w'.directory.providers.get? name).map (·.workloads) := by
  have hrecords : w.store.records = w'.store.records := Dict.ext_get? fun id => (h id).record
  have hslugs : w.store.slugs = w'.store.slugs := by
    refine Dict.ext_get? fun key => Option.ext fun id => ?_
    rw [hw.inverse, hw'.inverse, hrecords]
  have hstore : w.store = w'.store := by
    show Store.mk w.store.records w.store.slugs = Store.mk w'.store.records w'.store.slugs
    rw [hrecords, hslugs]
  refine ⟨hstore, fun name => ?_⟩
  have hat := fun id => (h id).directory.providers name
  generalize w.directory.providers.get? name = x, w'.directory.providers.get? name = y at hat
  cases x with
  | none =>
    cases y with
    | none => rfl
    | some l => cases hat ""
  | some l =>
    cases y with
    | none => cases hat ""
    | some l' =>
      refine congrArg some (Dict.ext_get? fun id => ?_)
      cases hat id with
      | some halike => exact halike.workloads id rfl

section

variable {α β : Type} {i j slug' : String} {pr : Procedure α} {pr' : Procedure β}
  (hij : i ≠ j)
  (hpr : pr.Keeps (fun past c => (∀ x ∈ past, x.ShowsOnly i slug) → c.Minds i slug) [])
  (hpr' : pr'.Keeps (fun past c => (∀ x ∈ past, x.ShowsOnly j slug') → c.Minds j slug') [])
  (hm : w.store.Marked i slug) (hm' : w.store.Marked j slug')

include hij hpr hpr' hm hm'

/-- What one procedure comes to is the same after the other. -/
theorem undisturbed : (pr.carry w).reply = (pr.carry (pr'.carry w).estate).reply ∧
    (pr.carry w).estate.AlikeAt i (pr.carry (pr'.carry w).estate).estate :=
  alikeAt_carry hpr (List.forall_mem_nil _) hm
    (apartAt_carry hpr' (List.forall_mem_nil _) hm' hij.symm)

/-- Which comes first makes no difference at any id. -/
theorem alikeAt_either_way (id : String) :
    (pr'.carry (pr.carry w).estate).estate.AlikeAt id (pr.carry (pr'.carry w).estate).estate := by
  have hfirst : ∀ {k}, i ≠ k → w.AlikeAt k (pr.carry w).estate := apartAt_carry hpr (List.forall_mem_nil _) hm
  have hfirst' : ∀ {k}, j ≠ k → w.AlikeAt k (pr'.carry w).estate := apartAt_carry hpr' (List.forall_mem_nil _) hm'
  have hsecond : ∀ {k}, i ≠ k →
      (pr'.carry w).estate.AlikeAt k (pr.carry (pr'.carry w).estate).estate :=
    apartAt_carry hpr (List.forall_mem_nil _) ((hfirst' hij.symm).marked hm)
  have hsecond' : ∀ {k}, j ≠ k →
      (pr.carry w).estate.AlikeAt k (pr'.carry (pr.carry w).estate).estate :=
    apartAt_carry hpr' (List.forall_mem_nil _) ((hfirst hij).marked hm')
  by_cases hi : i = id
  · subst hi
    exact (hsecond' hij.symm).symm.trans (undisturbed hij hpr hpr' hm hm').2
  · by_cases hj : j = id
    · subst hj
      exact (undisturbed hij.symm hpr' hpr hm' hm).2.symm.trans (hsecond hij)
    · exact ((hfirst hi).trans (hsecond' hj)).symm.trans ((hfirst' hj).trans (hsecond hi))

end

end Estate

/-! ## Control planes -/

/-- What a caller asks for, with the readings of the clock. -/
structure Ask where
  caller : Option Caller
  stamp : Stamp
  request : Request

namespace Plane

variable {p : Plane}

def answer (p : Plane) (a : Ask) : Except Failure Reply × Plane := p.perform a.caller a.stamp a.request

def procedureOf (p : Plane) (a : Ask) : Procedure Reply :=
  procedure p.settings.maxInstances a.caller a.stamp a.request

theorem answer_eq (p : Plane) (a : Ask) :
    (p.answer a).1 = ((p.procedureOf a).carry p.estate).reply ∧
      (p.answer a).2.estate = ((p.procedureOf a).carry p.estate).estate ∧
      (p.answer a).2.procedureOf = p.procedureOf := by
  have hcarry := p.carry_eq (procedure_heedless p.settings.maxInstances a.caller a.stamp a.request)
  unfold answer
  rw [perform_eq, hcarry]
  refine ⟨rfl, ?_, ?_⟩
  · rw [estate_tell]
    rfl
  · unfold procedureOf
    rw [settings_tell]
    rfl

/-- Requests about two instances commute, in whatever state any operations, run one after the other or side
by side, have left a control plane, whether they go well or fail, whoever asks and whenever: each is
answered as if it had come first, and in either order the store is the same in the end, and so are the
workloads of every provider. A request that gives an instance a new name is none of these. -/
theorem requests_about_two_instances_commute {start : Plane} {c : Config Plane}
    (hstart : start.store = .empty) (hreaches : Config.Reaches .ofPlane (Config.start start) c)
    {a b : Ask} {i j : String} (hij : i ≠ j) (ha : a.request.Confined i) (hb : b.request.Confined j) :
    ((c.world.answer b).2.answer a).1 = (c.world.answer a).1 ∧
      ((c.world.answer a).2.answer b).1 = (c.world.answer b).1 ∧
      ((c.world.answer a).2.answer b).2.store = ((c.world.answer b).2.answer a).2.store ∧
      ∀ name,
        (((c.world.answer a).2.answer b).2.directory.providers.get? name).map (·.workloads) =
          (((c.world.answer b).2.answer a).2.directory.providers.get? name).map (·.workloads) := by
  have hstore : Config.Reaches .ofStore (Config.start .empty) (c.map (·.store)) :=
    hstart ▸ reaches_store hreaches
  have hindexed : c.world.store.Indexed := Config.indexed_of_reaches hstore
  obtain ⟨slug, hm⟩ := hindexed.filed.exists_marked i
  obtain ⟨slug', hm'⟩ := hindexed.filed.exists_marked j
  generalize c.world = p at hindexed hm hm'
  have hpr := procedure_minds p.settings.maxInstances a.caller a.stamp ha slug
  have hpr' := procedure_minds p.settings.maxInstances b.caller b.stamp hb slug'
  obtain ⟨hreply, hestate, hsame⟩ := p.answer_eq a
  obtain ⟨hreply', hestate', hsame'⟩ := p.answer_eq b
  obtain ⟨hthen, hthenEstate, -⟩ := (p.answer b).2.answer_eq a
  obtain ⟨hthen', hthenEstate', -⟩ := (p.answer a).2.answer_eq b
  rw [hsame', hestate'] at hthen hthenEstate
  rw [hsame, hestate] at hthen' hthenEstate'
  have hend := Estate.eq_of_alikeAt
    (Estate.alikeAt_either_way (w := p.estate) hij hpr hpr' hm hm')
    (Estate.indexed_carry _ (Estate.indexed_carry _ hindexed))
    (Estate.indexed_carry _ (Estate.indexed_carry _ hindexed))
  refine ⟨?_, ?_, ?_⟩
  · rw [hthen, hreply]
    exact (Estate.undisturbed (w := p.estate) hij hpr hpr' hm hm').1.symm
  · rw [hthen', hreply']
    exact (Estate.undisturbed (w := p.estate) hij.symm hpr' hpr hm' hm).1.symm
  · change ((p.answer a).2.answer b).2.estate.store = ((p.answer b).2.answer a).2.estate.store ∧
      ∀ name, (((p.answer a).2.answer b).2.estate.directory.providers.get? name).map (·.workloads) =
        (((p.answer b).2.answer a).2.estate.directory.providers.get? name).map (·.workloads)
    rw [hthenEstate, hthenEstate']
    exact hend

/-- Two tenants have an instance of one name each, and the provider fails to restart any. -/
def neighbours : Config Plane :=
  ((Config.start Config.solo).run .ofPlane (creation () 0 "inst_1" "evt_1" "Web" ++
    .begin 0 (some (.ofTenant "rival" "user-2")) (.create { name := "Web", image := "nginx" })
      { instanceId := "inst_2", eventId := "evt_2", clock := fun n => { seconds := n } } ::
    List.replicate 5 (.answer 1 ()) ++ [.chance (.fails "local" .restart)])).get (by decide +kernel)

/-- One tenant starts its instance. -/
def ownStart : Ask where
  caller := some (.ofTenant "acme" "user-1")
  stamp := { instanceId := "inst_3", eventId := "evt_3", clock := fun n => { seconds := n } }
  request := .start "inst_1"

/-- The other restarts its own, in vain. -/
def rivalRestart : Ask where
  caller := some (.ofTenant "rival" "user-2")
  stamp := { instanceId := "inst_4", eventId := "evt_4", clock := fun n => { seconds := 7 * n } }
  request := .restart "inst_2"

theorem requests_about_two_instances_commute_neighbours :
    Config.solo.store = .empty ∧ Config.Reaches .ofPlane (Config.start Config.solo) neighbours ∧
      ownStart.request.Confined "inst_1" ∧ rivalRestart.request.Confined "inst_2" ∧
      ((neighbours.world.answer rivalRestart).2.answer ownStart).1.toOption.isSome = true ∧
      ((neighbours.world.answer ownStart).2.answer rivalRestart).1.toOption.isSome = false ∧
      ((neighbours.world.answer ownStart).2.answer rivalRestart).2.store =
        ((neighbours.world.answer rivalRestart).2.answer ownStart).2.store ∧
      ((neighbours.world.answer ownStart).2.answer rivalRestart).2.store.records.values.map (·.state) =
        [.running, .failed] := by
  have hreaches : Config.Reaches .ofPlane (Config.start Config.solo) neighbours :=
    ⟨_, (Option.some_get _).symm⟩
  have hown : ownStart.request.Confined "inst_1" := ⟨rfl, nofun⟩
  have hrestart : rivalRestart.request.Confined "inst_2" := ⟨rfl, nofun⟩
  obtain ⟨hreply, hreply', hstore, -⟩ :=
    requests_about_two_instances_commute rfl hreaches (by decide) hown hrestart
  refine ⟨rfl, hreaches, hown, hrestart, ?_, ?_, hstore, by decide +kernel⟩
  · rw [hreply]
    decide +kernel
  · rw [hreply']
    decide +kernel

end Plane

end Fleet
