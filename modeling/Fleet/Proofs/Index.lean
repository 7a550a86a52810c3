import Fleet.Proofs.Upshot

/-!
# The slug index is the inverse of the records

A store keeps records by their ids, and ids by the slugs of tenants (`Store.Indexed`):

    s.slugs.get? key = some id ↔ ∃ r, s.records.get? id = some r ∧ keyOf r = key

A write adds a record under a free slug, drops one, or does both in turn: a record that is replaced is
dropped and its successor is added (`put_eq_add_drop`, `update_eq_add_drop`). So the two steps that keep
the index are `Indexed.add` and `Indexed.drop`.

A `Ledger` is a store with all that it was asked and answered. Whatever that was, the index is the
inverse of the records, and the slugs that are taken are those of the records that are stored
(`Ledger.slugs_are_of_records`). -/

namespace Fleet

open Service

namespace Store

/-- Whether every record is kept under its own id, and the index sends to an id just the slug of the
record that is kept there. -/
structure Indexed (s : Store) : Prop where
  filed : s.Filed
  inverse : ∀ key id, s.slugs.get? key = some id ↔ ∃ r, s.records.get? id = some r ∧ keyOf r = key

theorem indexed_empty : Store.empty.Indexed where
  filed := by
    intro id r hr
    cases hr
  inverse := by
    intro key id
    constructor
    · intro h
      cases h
    · rintro ⟨r, hr, -⟩
      cases hr

namespace Indexed

variable {s s' : Store}

/-- The slug of a record that is stored leads to its id. -/
theorem get?_keyOf (h : s.Indexed) {id : String} {r : Instance}
    (hr : s.records.get? id = some r) : s.slugs.get? (keyOf r) = some id :=
  (h.inverse _ _).2 ⟨r, hr, rfl⟩

/-- Records with one slug in one tenant are one record. -/
theorem id_eq (h : s.Indexed) {id id' : String} {r r' : Instance}
    (hr : s.records.get? id = some r) (hr' : s.records.get? id' = some r')
    (hkey : keyOf r = keyOf r') : id = id' := by
  have hid := h.get?_keyOf hr
  rw [hkey, h.get?_keyOf hr'] at hid
  exact (Option.some.inj hid).symm

/-- A slug is taken exactly when a record that is stored has it. -/
theorem contains_iff (h : s.Indexed) (key : SlugKey) :
    s.slugs.contains key = true ↔ ∃ id r, s.records.get? id = some r ∧ keyOf r = key := by
  rw [Dict.contains, Option.isSome_iff_exists]
  constructor
  · rintro ⟨id, hid⟩
    exact ⟨id, (h.inverse _ _).1 hid⟩
  · rintro ⟨id, hr⟩
    exact ⟨id, (h.inverse _ _).2 hr⟩

/-- A slug is found with the record that has it. -/
theorem findBySlug_eq_ok_iff (h : s.Indexed) {tenant slug : String} {r : Instance} :
    s.findBySlug tenant slug = .ok r ↔ s.find tenant r.id = .ok r ∧ r.slug = slug := by
  have hfound : s.findBySlug tenant slug = .ok r ↔
      ∃ id, s.slugs.get? ⟨tenant, slug⟩ = some id ∧ s.records.get? id = some r := by
    rw [← Option.bind_eq_some_iff, findBySlug]
    cases (s.slugs.get? ⟨tenant, slug⟩).bind s.records.get? <;> simp
  rw [hfound, find_eq_ok_iff]
  constructor
  · rintro ⟨id, hslug, hr⟩
    obtain ⟨r', hr', hkey⟩ := (h.inverse _ _).1 hslug
    obtain rfl := Option.some.inj (hr.symm.trans hr')
    obtain rfl := h.filed id r hr
    exact ⟨⟨hr, congrArg SlugKey.tenant hkey⟩, congrArg SlugKey.slug hkey⟩
  · rintro ⟨⟨hr, rfl⟩, rfl⟩
    exact ⟨r.id, h.get?_keyOf hr, hr⟩

/-! ## What keeps the index -/

theorem add (h : s.Indexed) {i : Instance} (hnew : s.records.get? i.id = none)
    (hfree : s.slugs.get? (keyOf i) = none) : (s.add i).Indexed where
  filed := h.filed.add i
  inverse := by
    intro key id
    have hslugs : (s.add i).slugs.get? key =
        if keyOf i = key then some i.id else s.slugs.get? key := Dict.get?_insert _ _ _ _
    rw [hslugs, get?_add]
    by_cases hkey : keyOf i = key
    · rw [if_pos hkey]
      constructor
      · intro hid
        cases hid
        exact ⟨i, if_pos rfl, hkey⟩
      · rintro ⟨r, hr, hrkey⟩
        by_cases hid : i.id = id
        · rw [hid]
        · -- Another record cannot have the slug, which was free.
          rw [if_neg hid] at hr
          rw [hkey, ← hrkey, h.get?_keyOf hr] at hfree
          cases hfree
    · rw [if_neg hkey, h.inverse]
      by_cases hid : i.id = id
      · rw [if_pos hid]
        constructor
        · rintro ⟨r, hr, -⟩
          rw [← hid, hnew] at hr
          cases hr
        · rintro ⟨r, hr, hrkey⟩
          cases hr
          exact absurd hrkey hkey
      · rw [if_neg hid]

theorem drop (h : s.Indexed) {i : Instance} (hi : s.records.get? i.id = some i) :
    (s.drop i).Indexed where
  filed := h.filed.drop i
  inverse := by
    intro key id
    have hslugs : (s.drop i).slugs.get? key =
        if keyOf i = key then none else s.slugs.get? key := Dict.get?_erase _ _ _
    rw [hslugs, get?_drop]
    by_cases hid : i.id = id
    · rw [if_pos hid]
      constructor
      · intro hkey
        split at hkey
        · cases hkey
        · rename_i hne
          obtain ⟨r, hr, hrkey⟩ := (h.inverse _ _).1 hkey
          rw [← hid, hi] at hr
          cases hr
          exact absurd hrkey hne
      · rintro ⟨r, hr, -⟩
        cases hr
    · rw [if_neg hid]
      split
      · rename_i hkey
        constructor
        · intro hnone
          cases hnone
        · rintro ⟨r, hr, hrkey⟩
          exact absurd (h.id_eq hi hr (hkey.trans hrkey.symm)) hid
      · exact h.inverse key id

/-- The slug of a record is free once the record is dropped. -/
theorem get?_drop_keyOf (s : Store) (i : Instance) : (s.drop i).slugs.get? (keyOf i) = none := by
  show (s.slugs.erase (keyOf i)).get? (keyOf i) = none
  rw [Dict.get?_erase, if_pos rfl]

end Indexed

/-- To drop a record and to add another under its id stores the other in its place. -/
theorem records_add_drop (s : Store) {i stored : Instance} (hid : stored.id = i.id) :
    ((s.drop stored).add i).records = s.records.insert i.id i := by
  refine Dict.ext_get? fun id => ?_
  rw [get?_add, get?_drop, Dict.get?_insert, hid]
  split <;> rfl

/-- To put a record in the place of one with its slug is to drop that one and to add the record. -/
theorem put_eq_add_drop {s : Store} (h : s.Indexed) {i stored : Instance}
    (hget : s.records.get? i.id = some stored) (hkey : keyOf i = keyOf stored) :
    s.put i = (s.drop stored).add i := by
  have hid : stored.id = i.id := h.filed _ _ hget
  have hslugs : ((s.drop stored).add i).slugs = s.slugs := by
    refine Dict.ext_get? fun key => ?_
    show ((s.slugs.erase (keyOf stored)).insert (keyOf i) i.id).get? key = _
    rw [Dict.get?_insert, Dict.get?_erase, hkey]
    by_cases hsame : keyOf stored = key
    · rw [if_pos hsame, ← hsame, h.get?_keyOf hget]
    · rw [if_neg hsame, if_neg hsame]
  unfold put
  rw [← records_add_drop s hid, ← hslugs]

/-- A change of a record keeps it under its slug, or under a slug that was free. -/
theorem free_of_update {s s' : Store} {i stored : Instance} {version : UInt64}
    (h : s.update i = .ok (version, s')) (hget : s.records.get? i.id = some stored) :
    stored.slug = i.slug ∨ s.slugs.get? (keyOf i) = none := by
  by_cases hslug : stored.slug = i.slug
  · exact .inl hslug
  · right
    obtain ⟨stored', hget', htenant, -⟩ := update_eq_ok h
    obtain rfl := Option.some.inj (hget.symm.trans hget')
    unfold update at h
    rw [owned?_eq_some_iff.2 ⟨hget, htenant⟩] at h
    simp only at h
    split at h
    · cases h
    · split at h
      · cases h
      · rename_i hfree
        simpa [hslug, Dict.contains] using hfree

/-- A change of a record drops it and adds the record that is stored in its place. -/
theorem update_eq_add_drop {s s' : Store} (h : s.Indexed) {i : Instance} {version : UInt64}
    (hu : s.update i = .ok (version, s')) :
    ∃ stored, s.records.get? i.id = some stored ∧ stored.tenant = i.tenant ∧
      stored.version = i.version ∧ version = stored.version + 1 ∧
      (stored.slug = i.slug ∨ s.slugs.get? (keyOf i) = none) ∧
      s' = (s.drop stored).add { i with version } := by
  obtain ⟨stored, hget, htenant, hversion, hnext, hs'⟩ := update_eq_ok hu
  have hid : stored.id = i.id := h.filed _ _ hget
  refine ⟨stored, hget, htenant, hversion, hnext, free_of_update hu hget, ?_⟩
  rw [hs', reindex]
  by_cases hslug : stored.slug = i.slug
  · have hkey : keyOf { i with version } = keyOf stored := by
      unfold keyOf
      rw [htenant, hslug]
    rw [if_pos hslug]
    exact put_eq_add_drop h (i := { i with version }) hget hkey
  · have hrecords := records_add_drop s (i := { i with version }) hid
    have hkey : keyOf stored = ⟨i.tenant, stored.slug⟩ := by
      unfold keyOf
      rw [htenant]
    rw [if_neg hslug, ← hkey]
    exact congrArg (Store.mk · _) hrecords.symm

namespace Indexed

variable {s s' : Store}

theorem put (h : s.Indexed) {i stored : Instance} (hget : s.records.get? i.id = some stored)
    (hkey : keyOf i = keyOf stored) : (s.put i).Indexed := by
  have hid : stored.id = i.id := h.filed _ _ hget
  rw [put_eq_add_drop h hget hkey]
  refine (h.drop (hid ▸ hget)).add ?_ ?_
  · rw [Store.get?_drop, if_pos hid]
  · rw [hkey]
    exact get?_drop_keyOf s stored

theorem insert (h : s.Indexed) {i : Instance} {version : UInt64}
    (hi : s.insert i = .ok (version, s')) : s'.Indexed := by
  obtain ⟨hnew, hfree, -, rfl⟩ := insert_eq_ok_iff.1 hi
  refine h.add (i := { i with version := firstVersion }) ?_ ?_
  · simpa [Dict.contains] using hnew
  · show s.slugs.get? (keyOf i) = none
    simpa [Dict.contains] using hfree

theorem update (h : s.Indexed) {i : Instance} {version : UInt64}
    (hu : s.update i = .ok (version, s')) : s'.Indexed := by
  obtain ⟨stored, hget, htenant, -, -, hslug, rfl⟩ := update_eq_add_drop h hu
  have hid : stored.id = i.id := h.filed _ _ hget
  refine (h.drop (hid ▸ hget)).add ?_ ?_
  · rw [Store.get?_drop]
    exact if_pos hid
  · have hdropped : (s.drop stored).slugs.get? (keyOf i) =
        if keyOf stored = keyOf i then none else s.slugs.get? (keyOf i) := Dict.get?_erase _ _ _
    show (s.drop stored).slugs.get? (keyOf i) = none
    rw [hdropped]
    rcases hslug with hsame | hfree
    · have hkey : keyOf stored = keyOf i := by
        unfold keyOf
        rw [htenant, hsame]
      exact if_pos hkey
    · rw [hfree, ite_self]

theorem delete (h : s.Indexed) {tenant id : String} (hd : s.delete tenant id = .ok s') :
    s'.Indexed := by
  obtain ⟨stored, hget, rfl, rfl⟩ := delete_eq_ok hd
  obtain rfl := h.filed id stored hget
  exact h.drop hget

/-- Whatever a store is asked, its index stays the inverse of its records. -/
theorem serve (h : s.Indexed) (outside : (c : Call) → c.Answer) (c : Call) :
    (serveStore outside s c).2.Indexed := by
  cases c with
  | insert i =>
    simp only [serveStore]
    cases hi : s.insert i with
    | error f => exact h
    | ok a => exact h.insert hi
  | update i =>
    simp only [serveStore]
    cases hu : s.update i with
    | error f => exact h
    | ok a => exact h.update hu
  | delete tenant id =>
    simp only [serveStore]
    cases hd : s.delete tenant id with
    | error f => exact h
    | ok s' => exact h.delete hd
  | _ => exact h

/-- A record under a new id is refused exactly when a record of its tenant has its slug. -/
theorem insert_refused_iff (h : s.Indexed) {i : Instance} (hnew : s.records.get? i.id = none) :
    (∃ f, s.insert i = .error f ∧ f.kind = .alreadyExists) ↔
      ∃ id r, s.records.get? id = some r ∧ r.tenant = i.tenant ∧ r.slug = i.slug := by
  have hkeys : (∃ id r, s.records.get? id = some r ∧ r.tenant = i.tenant ∧ r.slug = i.slug) ↔
      s.slugs.contains (keyOf i) = true := by
    rw [h.contains_iff]
    simp only [keyOf, SlugKey.mk.injEq]
  have hunknown : s.records.contains i.id = false := by simp [Dict.contains, hnew]
  rw [hkeys]
  unfold Store.insert
  rw [if_neg (by simp [hunknown])]
  by_cases htaken : s.slugs.contains (keyOf i) = true
  · rw [if_pos htaken]
    exact ⟨fun _ => htaken, fun _ => ⟨_, rfl, rfl⟩⟩
  · rw [if_neg htaken]
    constructor
    · rintro ⟨f, hf, -⟩
      cases hf
    · exact fun h => absurd h htaken

/-- A record of its owner that carries the stored version is stored, one version up, when its slug is
the stored one or no record of the tenant has it. -/
theorem update_of_current (h : s.Indexed) {i r : Instance} (hget : s.records.get? i.id = some r)
    (htenant : r.tenant = i.tenant) (hversion : r.version = i.version)
    (hslug : r.slug = i.slug ∨ ∀ id r', s.records.get? id = some r' → r'.tenant = i.tenant →
      r'.slug ≠ i.slug) :
    ∃ s', s.update i = .ok (r.version + 1, s') ∧
      s'.records.get? i.id = some { i with version := r.version + 1 } := by
  have hfree : ¬ (r.slug ≠ i.slug ∧ s.slugs.contains (keyOf i) = true) := by
    rintro ⟨hne, htaken⟩
    obtain ⟨id, r', hr', hkey⟩ := (h.contains_iff _).1 htaken
    rcases hslug with hsame | hnone
    · exact hne hsame
    · exact hnone id r' hr' (congrArg SlugKey.tenant hkey) (congrArg SlugKey.slug hkey)
  unfold Store.update
  rw [owned?_eq_some_iff.2 ⟨hget, htenant⟩]
  simp only [ne_eq, hversion, not_true_eq_false, if_false]
  rw [if_neg hfree]
  refine ⟨_, rfl, ?_⟩
  show (s.records.insert i.id _).get? i.id = _
  rw [Dict.get?_insert, if_pos rfl]

end Indexed

end Store

namespace Service

/-! ## A store over time -/

/-- A store with what it was asked and answered so far, the latest first. -/
structure Ledger where
  store : Store := .empty
  log : List Exchange := []

namespace Ledger

/-- The ledger after one more call. -/
def ask (l : Ledger) (c : Call) : Ledger :=
  { store := (serveStore willing l.store c).2
    log := ⟨c, (serveStore willing l.store c).1⟩ :: l.log }

/-- What calls make of a store that began empty, the first call first. -/
def after (calls : List Call) : Ledger := calls.foldl ask {}

/-- What every call keeps holds after any calls. -/
theorem induct {P : Ledger → Prop} (hstart : P {}) (hask : ∀ l c, P l → P (l.ask c))
    (calls : List Call) : P (after calls) := by
  have hgo : ∀ l, P l → P (calls.foldl ask l) := by
    induction calls with
    | nil => exact fun l hl => hl
    | cons c rest ih => exact fun l hl => ih (l.ask c) (hask l c hl)
  exact hgo {} hstart

theorem indexed (calls : List Call) : (after calls).store.Indexed :=
  induct (P := fun l => l.store.Indexed) Store.indexed_empty (fun _ c h => h.serve willing c) calls

/-- Whatever a store was asked, to insert, to change and to remove any records under any ids for any
tenants, its slug index is the inverse of its records. So no two records of a tenant have one slug, a
record is found by a slug exactly when it is found by its id and has the slug, and a new record is
refused exactly when a record of its tenant has its slug. -/
theorem slugs_are_of_records (calls : List Call) :
    (∀ tenant slug id, (after calls).store.slugs.get? ⟨tenant, slug⟩ = some id ↔
      ∃ r, (after calls).store.records.get? id = some r ∧ r.id = id ∧ r.tenant = tenant ∧
        r.slug = slug) ∧
    (∀ id r, (after calls).store.records.get? id = some r → r.id = id) ∧
    (∀ id id' r r', (after calls).store.records.get? id = some r →
      (after calls).store.records.get? id' = some r' → r.tenant = r'.tenant → r.slug = r'.slug →
      id = id') ∧
    (∀ tenant slug r, (after calls).store.findBySlug tenant slug = .ok r ↔
      (after calls).store.find tenant r.id = .ok r ∧ r.slug = slug) ∧
    ∀ i, (after calls).store.records.get? i.id = none →
      ((∃ f, (after calls).store.insert i = .error f ∧ f.kind = .alreadyExists) ↔
        ∃ id r, (after calls).store.records.get? id = some r ∧ r.tenant = i.tenant ∧
          r.slug = i.slug) := by
  have h := indexed calls
  refine ⟨fun tenant slug id => ?_, h.filed, fun id id' r r' hr hr' htenant hslug => ?_,
    fun tenant slug r => h.findBySlug_eq_ok_iff, fun i hnew => h.insert_refused_iff hnew⟩
  · rw [h.inverse]
    constructor
    · rintro ⟨r, hr, hkey⟩
      exact ⟨r, hr, h.filed id r hr, congrArg SlugKey.tenant hkey, congrArg SlugKey.slug hkey⟩
    · rintro ⟨r, hr, -, rfl, rfl⟩
      exact ⟨r, hr, rfl⟩
  · refine h.id_eq hr hr' ?_
    unfold Store.keyOf
    rw [htenant, hslug]

/-- A record of a tenant as it is before it is stored. -/
def recordOf (id tenant name : String) : Instance :=
  .fresh id tenant name "nginx" "local" { seconds := 0 }

/-- A slug is taken, given up by a new name and taken by another record; another tenant has it too, and
fails to remove a record that is not its own. -/
def reused : List Call :=
  [.insert (recordOf "inst_1" "acme" "Web"), .insert (recordOf "inst_2" "acme" "Web"),
    .update { recordOf "inst_1" "acme" "Shop" with version := 1 },
    .insert (recordOf "inst_2" "acme" "Web"), .insert (recordOf "inst_3" "globex" "Web"),
    .delete "globex" "inst_2", .delete "acme" "inst_1"]

theorem slugs_are_of_records_reused :
    (after reused).store.records.get? "inst_1" = none ∧
      (after reused).store.slugs.get? ⟨"acme", "shop"⟩ = none ∧
      (∃ r, (after reused).store.records.get? "inst_2" = some r ∧ r.slug = "web" ∧
        (after reused).store.findBySlug "acme" "web" = .ok r) ∧
      ∃ f, (after reused).store.insert (recordOf "inst_1" "acme" "Web") = .error f ∧
        f.kind = .alreadyExists := by
  have hgone : (after reused).store.records.get? "inst_1" = none := by decide +kernel
  have hweb : (after reused).store.slugs.get? ⟨"acme", "web"⟩ = some "inst_2" := by
    decide +kernel
  obtain ⟨hinverse, -, -, hfind, hinsert⟩ := slugs_are_of_records reused
  obtain ⟨r, hr, hid, htenant, hslug⟩ := (hinverse "acme" "web" "inst_2").1 hweb
  have hfound := (hfind "acme" "web" r).2
    ⟨Store.find_eq_ok_iff.2 ⟨hid.symm ▸ hr, htenant⟩, hslug⟩
  have hrefused := (hinsert (recordOf "inst_1" "acme" "Web") hgone).2 ⟨"inst_2", r, hr, htenant, hslug⟩
  exact ⟨hgone, by decide +kernel, ⟨r, hr, hslug, hfound⟩, hrefused⟩

end Ledger

end Service

end Fleet
