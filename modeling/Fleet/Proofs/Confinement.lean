import Fleet.Proofs.Index
import Fleet.Proofs.Tenancy

/-!
# A call to the store stays within its tenant

A call that is refused leaves the store as it was, and any other changes at most the record of the id that
it names, which belongs to the tenant of the call before and after (`Store.confined_serve`). So other
tenants keep what they have, and are told what they would have been told:

    Confined t x s s' → other ≠ t → s.Shares other s'                     (Confined.shares)

What a tenant has decides what it is told and what it then has, but that the id of a new record must be new
to all tenants:

    s.Shares t s' → the answers to a call for t agree, and the stores share t afterwards    (Shares.serve) -/

namespace Fleet

namespace Service

namespace Call

def tenant? : Call → Option String
  | .insert i | .update i => some i.tenant
  | .find tenant _ | .findBySlug tenant _ | .list tenant _ | .delete tenant _ | .count tenant => some tenant
  | .resolve _ | .lookup _ | .command _ _ | .publish _ => none

/-- The id of the record that a call to a store is to write or to remove. -/
def subject? : Call → Option String
  | .insert i | .update i => some i.id
  | .delete _ id => some id
  | _ => none

def Inserts (c : Call) : Prop := ∃ i, c = .insert i

end Call

/-- Why a call to a store was refused, if it was. -/
def Exchange.refusal? : Exchange → Option Failure
  | ⟨.insert _, .error f⟩ | ⟨.update _, .error f⟩ | ⟨.find _ _, .error f⟩ | ⟨.findBySlug _ _, .error f⟩
  | ⟨.list _ _, .error f⟩ | ⟨.delete _ _, .error f⟩ | ⟨.count _, .error f⟩ => some f
  | _ => none

/-- Whether an exchange that made `s'` of the store `s` did no more than it may for a tenant. -/
structure Confined (t : String) (x : Exchange) (s s' : Store) : Prop where
  refused : ∀ f, x.refusal? = some f → s' = s
  elsewhere : ∀ id, x.call.subject? ≠ some id → s'.records.get? id = s.records.get? id
  owned : x.refusal? = none → ∀ id, x.call.subject? = some id →
    ∀ r, s.records.get? id = some r ∨ s'.records.get? id = some r → r.tenant = t

/-- What is confined to a tenant leaves all others their records. -/
theorem Confined.shares {t other : String} {x : Exchange} {s s' : Store} (h : Confined t x s s')
    (hother : other ≠ t) : s.Shares other s' := by
  intro id
  cases hrefusal : x.refusal? with
  | some f => rw [h.refused f hrefusal]
  | none =>
    by_cases hid : x.call.subject? = some id
    · -- Before and after, the record of this id is none of the other tenant's.
      have howned := h.owned hrefusal id hid
      have hnone : ∀ a : Store, (∀ r, a.records.get? id = some r → r.tenant = t) →
          a.owned? other id = none := by
        intro a ha
        cases hr : a.owned? other id with
        | none => rfl
        | some r =>
          obtain ⟨hget, rfl⟩ := Store.owned?_eq_some_iff.1 hr
          exact absurd (ha r hget) hother
      rw [hnone s fun r hr => howned r (.inl hr), hnone s' fun r hr => howned r (.inr hr)]
    · unfold Store.owned?
      rw [h.elsewhere id hid]

end Service

open Service

namespace Store

variable {s s' : Store} {t : String}

/-! ## What a call may change -/

/-- A call that leaves the store as it is, and names no record to change. -/
theorem confined_reading (s : Store) (t : String) {x : Exchange} (hx : x.call.subject? = none) :
    Confined t x s s where
  refused _ _ := rfl
  elsewhere _ _ := rfl
  owned _ id hid := by
    rw [hx] at hid
    cases hid

/-- A call that is refused. -/
theorem confined_refused (s : Store) (t : String) {x : Exchange} {f : Failure}
    (hx : x.refusal? = some f) : Confined t x s s where
  refused _ _ := rfl
  elsewhere _ _ := rfl
  owned hnone := by
    rw [hx] at hnone
    cases hnone

/-- A call that is carried out and changes one record, the tenant's before and after. -/
theorem confined_accepted {x : Exchange} {id : String} (hx : x.refusal? = none)
    (hid : x.call.subject? = some id)
    (hothers : ∀ other, id ≠ other → s'.records.get? other = s.records.get? other)
    (hbefore : ∀ r, s.records.get? id = some r → r.tenant = t)
    (hafter : ∀ r, s'.records.get? id = some r → r.tenant = t) : Confined t x s s' where
  refused f hf := by
    rw [hx] at hf
    cases hf
  elsewhere other hother := hothers other fun h => hother (h ▸ hid)
  owned _ other hother r hr := by
    obtain rfl : id = other := Option.some.inj (hid.symm.trans hother)
    exact hr.elim (hbefore r) (hafter r)

/-- Whatever a store is asked for a tenant, no more is done than may be. -/
theorem confined_serve (s : Store) (outside : (c : Call) → c.Answer) {c : Call} (hc : c.tenant? = some t) :
    Confined t ⟨c, (serveStore outside s c).1⟩ s (serveStore outside s c).2 := by
  cases c with
  | insert i =>
    obtain rfl : i.tenant = t := Option.some.inj hc
    simp only [serveStore]
    cases hi : s.insert i with
    | error f => exact confined_refused s i.tenant (x := ⟨.insert i, .error f⟩) rfl
    | ok a =>
      obtain ⟨hnew, -, -, hs'⟩ := insert_eq_ok_iff.1 hi
      have hnone : s.records.get? i.id = none := by simpa [Dict.contains] using hnew
      simp only [hs']
      refine confined_accepted rfl rfl (fun other hother => ?_) (fun r hr => ?_) fun r hr => ?_
      · rw [Dict.get?_insert, if_neg hother]
      · rw [hnone] at hr
        cases hr
      · rw [Dict.get?_insert, if_pos rfl] at hr
        cases hr
        rfl
  | update i =>
    obtain rfl : i.tenant = t := Option.some.inj hc
    simp only [serveStore]
    cases hu : s.update i with
    | error f => exact confined_refused s i.tenant (x := ⟨.update i, .error f⟩) rfl
    | ok a =>
      obtain ⟨stored, hget, htenant, -, -, hs'⟩ := update_eq_ok hu
      simp only [hs']
      refine confined_accepted rfl rfl (fun other hother => ?_) (fun r hr => ?_) fun r hr => ?_
      · rw [Dict.get?_insert, if_neg hother]
      · rw [hget] at hr
        cases hr
        exact htenant
      · rw [Dict.get?_insert, if_pos rfl] at hr
        cases hr
        rfl
  | delete tenant id =>
    obtain rfl : tenant = t := Option.some.inj hc
    simp only [serveStore]
    cases hd : s.delete tenant id with
    | error f => exact confined_refused s tenant (x := ⟨.delete tenant id, .error f⟩) rfl
    | ok a =>
      obtain ⟨stored, hget, htenant, hs'⟩ := delete_eq_ok hd
      simp only [hs']
      refine confined_accepted rfl rfl (fun other hother => ?_) (fun r hr => ?_) fun r hr => ?_
      · rw [Dict.get?_erase, if_neg hother]
      · rw [hget] at hr
        cases hr
        exact htenant
      · rw [Dict.get?_erase, if_pos rfl] at hr
        cases hr
  | find tenant id | findBySlug tenant slug | list tenant q | count tenant =>
    exact confined_reading s t rfl
  | resolve name | lookup name | command provider c | publish e => cases hc

/-! ## What a tenant is told -/

namespace Shares

/-- What one record written under an id leaves of two stores. -/
theorem write (h : s.Shares t s') {a a' : Store} {id : String} {r : Instance}
    (ha : a.records = s.records.insert id r) (ha' : a'.records = s'.records.insert id r) :
    a.Shares t a' := by
  intro other
  unfold owned?
  rw [ha, ha', Dict.get?_insert, Dict.get?_insert]
  split
  · rfl
  · exact h other

theorem remove (h : s.Shares t s') {a a' : Store} {id : String} (ha : a.records = s.records.erase id)
    (ha' : a'.records = s'.records.erase id) : a.Shares t a' := by
  intro other
  unfold owned?
  rw [ha, ha', Dict.get?_erase, Dict.get?_erase]
  split
  · rfl
  · exact h other

theorem delete (h : s.Shares t s') (id : String) :
    (∃ f, s.delete t id = .error f ∧ s'.delete t id = .error f) ∨
      ∃ a a', s.delete t id = .ok a ∧ s'.delete t id = .ok a' ∧ a.Shares t a' := by
  unfold Store.delete
  rw [h id]
  cases s'.owned? t id with
  | none => exact .inl ⟨_, rfl, rfl⟩
  | some stored => exact .inr ⟨_, _, rfl, rfl, h.remove rfl rfl⟩

variable (h : s.Shares t s') (hs : s.Indexed) (hs' : s'.Indexed)

include h hs hs'

theorem findBySlug (slug : String) : s.findBySlug t slug = s'.findBySlug t slug := by
  have hfound : ∀ r, s.findBySlug t slug = .ok r ↔ s'.findBySlug t slug = .ok r := by
    intro r
    rw [hs.findBySlug_eq_ok_iff, hs'.findBySlug_eq_ok_iff, h.find r.id]
  have hmissed : ∀ a : Store, (∃ r, a.findBySlug t slug = .ok r) ∨
      a.findBySlug t slug = .error (.noSlug slug) := by
    intro a
    unfold Store.findBySlug
    cases (a.slugs.get? ⟨t, slug⟩).bind a.records.get? with
    | some r => exact .inl ⟨r, rfl⟩
    | none => exact .inr rfl
  rcases hmissed s with ⟨r, hr⟩ | hnone
  · rw [hr, (hfound r).1 hr]
  · rcases hmissed s' with ⟨r, hr⟩ | hnone'
    · rw [hr, (hfound r).2 hr]
    · rw [hnone, hnone']

/-- The same slugs of the tenant are taken in both stores. -/
theorem taken (slug : String) : s.slugs.contains ⟨t, slug⟩ = s'.slugs.contains ⟨t, slug⟩ := by
  rw [Bool.eq_iff_iff, hs.contains_iff, hs'.contains_iff]
  refine exists_congr fun id => exists_congr fun r => and_congr_left fun hkey => ?_
  exact h.get?_iff (congrArg SlugKey.tenant hkey)

theorem update {i : Instance} (hi : i.tenant = t) :
    (∃ f, s.update i = .error f ∧ s'.update i = .error f) ∨
      ∃ version a a', s.update i = .ok (version, a) ∧ s'.update i = .ok (version, a') ∧
        a.Shares t a' := by
  have htaken : s.slugs.contains (keyOf i) = s'.slugs.contains (keyOf i) := by
    unfold keyOf
    rw [hi]
    exact h.taken hs hs' i.slug
  unfold Store.update
  rw [hi, h i.id, htaken]
  cases s'.owned? t i.id with
  | none => exact .inl ⟨_, rfl, rfl⟩
  | some stored =>
    by_cases hversion : stored.version ≠ i.version
    · simp only [if_pos hversion]
      exact .inl ⟨_, rfl, rfl⟩
    · simp only [if_neg hversion]
      by_cases hrename : stored.slug ≠ i.slug ∧ s'.slugs.contains (keyOf i) = true
      · rw [if_pos hrename, if_pos hrename]
        exact .inl ⟨_, rfl, rfl⟩
      · rw [if_neg hrename, if_neg hrename]
        exact .inr ⟨_, _, _, rfl, rfl, h.write rfl rfl⟩

/-- Stores with the same records of a tenant answer it alike, and have the same records of it again, if
the call is not to insert a record. -/
theorem serve (outside : (c : Call) → c.Answer) {c : Call} (hc : c.tenant? = some t)
    (hinsert : ¬ c.Inserts) :
    (serveStore outside s c).1 = (serveStore outside s' c).1 ∧
      (serveStore outside s c).2.Shares t (serveStore outside s' c).2 := by
  cases c with
  | insert i => exact absurd ⟨i, rfl⟩ hinsert
  | update i =>
    simp only [serveStore]
    rcases h.update hs hs' (Option.some.inj hc) with ⟨f, hf, hf'⟩ | ⟨version, a, a', ha, ha', hafter⟩
    · rw [hf, hf']
      exact ⟨rfl, h⟩
    · rw [ha, ha']
      exact ⟨rfl, hafter⟩
  | delete tenant id =>
    obtain rfl : tenant = t := Option.some.inj hc
    simp only [serveStore]
    rcases h.delete id with ⟨f, hf, hf'⟩ | ⟨a, a', ha, ha', hafter⟩
    · rw [hf, hf']
      exact ⟨rfl, h⟩
    · rw [ha, ha']
      exact ⟨rfl, hafter⟩
  | find tenant id =>
    obtain rfl : tenant = t := Option.some.inj hc
    exact ⟨h.find id, h⟩
  | findBySlug tenant slug =>
    obtain rfl : tenant = t := Option.some.inj hc
    exact ⟨h.findBySlug hs hs' slug, h⟩
  | list tenant q =>
    obtain rfl : tenant = t := Option.some.inj hc
    exact ⟨h.list q, h⟩
  | count tenant =>
    obtain rfl : tenant = t := Option.some.inj hc
    exact ⟨congrArg Except.ok h.count, h⟩
  | resolve name | lookup name | command provider c | publish e => cases hc

end Shares

end Store

namespace Service.Ledger

/-- Whatever a store was asked before, a call for a tenant that is refused leaves all as it was, and one
that is carried out changes at most the record of the id that it names, which belongs to the tenant before
and after. Other tenants keep the slugs that they have, and whatever they ask for next, but to insert a
record, they are answered as if the call had not been made. And a store with the same records of the
tenant, whatever else it was asked, answers the call in the same words, if it is not to insert a record,
and has the same records of the tenant afterwards. -/
theorem calls_stay_within_tenant (calls : List Call) {t : String} {c : Call} (hc : c.tenant? = some t) :
    let s := (after calls).store
    let s' := (serveStore willing s c).2
    Confined t ⟨c, (serveStore willing s c).1⟩ s s' ∧
    (∀ key : SlugKey, key.tenant ≠ t → s'.slugs.get? key = s.slugs.get? key) ∧
    (∀ other d, other ≠ t → d.tenant? = some other → ¬ d.Inserts →
      (serveStore willing s' d).1 = (serveStore willing s d).1) ∧
    ∀ calls', s.Shares t (after calls').store → ¬ c.Inserts →
      (serveStore willing (after calls').store c).1 = (serveStore willing s c).1 ∧
        s'.Shares t (serveStore willing (after calls').store c).2 := by
  intro s s'
  have hs : s.Indexed := indexed calls
  have hs' : s'.Indexed := hs.serve willing c
  have hconfined := s.confined_serve willing hc
  refine ⟨hconfined, fun key hkey => ?_, fun other d hother hd hinsert => ?_,
    fun calls' hshares hinsert => ?_⟩
  · have hothers : s.Shares key.tenant s' := hconfined.shares hkey
    apply Option.ext
    intro id
    rw [hs.inverse, hs'.inverse]
    refine exists_congr fun r => and_congr_left fun hr => ?_
    exact (hothers.get?_iff (congrArg SlugKey.tenant hr)).symm
  · exact ((hconfined.shares hother).serve hs hs' willing hd hinsert).1.symm
  · obtain ⟨hanswer, hafter⟩ := hshares.serve hs (indexed calls') willing hc hinsert
    exact ⟨hanswer.symm, hafter⟩

/-- What one tenant asked of the store for which two contend. -/
def undisputed : List Call :=
  [.insert (recordOf "inst_1" "acme" "Web"), .update { recordOf "inst_1" "acme" "Shop" with version := 1 },
    .insert (recordOf "inst_2" "acme" "Web"), .delete "acme" "inst_1"]

/-- The record of a tenant under another name. -/
def renamed : Instance := { recordOf "inst_2" "acme" "Mail" with version := 1 }

/-- The same record, as another tenant would have it. -/
def seized : Instance := { recordOf "inst_2" "globex" "Web" with version := 1 }

theorem calls_stay_within_tenant_contested :
    (Call.update renamed).tenant? = some "acme" ∧ (Call.update seized).tenant? = some "globex" ∧
      (serveStore willing (after reused).store (.update seized)).2 = (after reused).store ∧
      (serveStore willing (after reused).store (.update renamed)).1 = .ok 2 ∧
      (serveStore willing (after undisputed).store (.update renamed)).1 = .ok 2 ∧
      (serveStore willing (serveStore willing (after reused).store (.update renamed)).2
          (.findBySlug "globex" "web")).1 =
        (serveStore willing (after reused).store (.findBySlug "globex" "web")).1 := by
  have hrefused : (serveStore willing (after reused).store (.update seized)).1 =
      .error (.noInstance "inst_2") := by rfl
  have hrenamed : (serveStore willing (after reused).store (.update renamed)).1 = .ok 2 := by
    rfl
  have hshares : (after reused).store.Shares "acme" (after undisputed).store := by
    intro id
    have hrecords : (after reused).store.records =
        (after undisputed).store.records.insert "inst_3"
          { recordOf "inst_3" "globex" "Web" with version := 1 } := by decide +kernel
    have hforeign : (after undisputed).store.owned? "acme" "inst_3" = none := by decide +kernel
    by_cases hid : "inst_3" = id
    · subst hid
      rw [hforeign]
      decide +kernel
    · unfold Store.owned?
      rw [hrecords, Dict.get?_insert, if_neg hid]
  obtain ⟨hseized, -⟩ := calls_stay_within_tenant reused (c := .update seized) rfl
  obtain ⟨-, -, hothers, htold⟩ := calls_stay_within_tenant reused (c := .update renamed) rfl
  rw [hrefused] at hseized
  have hchange : ¬ (Call.update renamed).Inserts := by
    rintro ⟨i, hi⟩
    cases hi
  have hreading : ¬ (Call.findBySlug "globex" "web").Inserts := by
    rintro ⟨i, hi⟩
    cases hi
  exact ⟨rfl, rfl, hseized.refused _ rfl, hrenamed,
    (htold undisputed hshares hchange).1.trans hrenamed, hothers "globex" _ (by decide) rfl hreading⟩

end Service.Ledger

end Fleet
