import Fleet.Proofs.Origin

/-!
# Paging

A listing is in strict order, the newest first and those of one moment by id (`select_precedes`), and a
page is what lies in it between two cursors (`Query.page_cuts`):

    listing = before ++ page.items ++ after

where `before` ends at the cursor, and the items end at the next one. A record keeps its place in that
order, since neither its id nor the moment of its creation ever changes (`place_unique`). So whatever
happens between the pages of a walk, what they show is in strict order (`Walk.orderly`), and what is
listed at every page is shown (`Walk.shows`). -/

namespace Fleet

open Service Procedure

/-! ## The order of a listing -/

namespace Instant

theorem before_irrefl (a : Instant) : a.before a = false := by
  simp [before]

theorem before_trans {a b c : Instant} (hab : a.before b = true) (hbc : b.before c = true) :
    a.before c = true := by
  simp only [before, Bool.or_eq_true, Bool.and_eq_true, decide_eq_true_eq] at *
  omega

theorem before_total {a b : Instant} (h : ¬ a.before b = true) : a = b ∨ b.before a = true := by
  obtain ⟨seconds, nanos⟩ := a
  obtain ⟨seconds', nanos'⟩ := b
  simp only [before, Bool.or_eq_true, Bool.and_eq_true, decide_eq_true_eq, mk.injEq] at *
  omega

end Instant

namespace Instance

/-- Whether a listing shows `a` before `b`: it is newer, or of the same moment with a lesser id. -/
def Precedes (a b : Instance) : Prop :=
  b.createdAt.before a.createdAt = true ∨ a.createdAt = b.createdAt ∧ compare a.id b.id = .lt

/-- The place of a record in a listing. -/
def place (i : Instance) : Instant × String := (i.createdAt, i.id)

variable {a b c : Instance}

/-- The order depends on the places only. -/
theorem Precedes.congr {a' b' : Instance} (h : a.Precedes b) (ha : a.place = a'.place)
    (hb : b.place = b'.place) : a'.Precedes b' := by
  obtain ⟨hcreated, hid⟩ := Prod.mk.inj ha
  obtain ⟨hcreated', hid'⟩ := Prod.mk.inj hb
  unfold Precedes at h ⊢
  rw [← hcreated, ← hid, ← hcreated', ← hid']
  exact h

theorem Precedes.trans (hab : a.Precedes b) (hbc : b.Precedes c) : a.Precedes c := by
  unfold Precedes
  rcases hab with hab | ⟨hab, hid⟩
  · rcases hbc with hbc | ⟨hbc, -⟩
    · exact .inl (Instant.before_trans hbc hab)
    · exact .inl (hbc ▸ hab)
  · rcases hbc with hbc | ⟨hbc, hid'⟩
    · exact .inl (hab ▸ hbc)
    · exact .inr ⟨hab.trans hbc, Std.TransCmp.lt_trans hid hid'⟩

theorem not_precedes_self (a : Instance) : ¬ a.Precedes a := by
  rintro (h | ⟨-, h⟩)
  · rw [Instant.before_irrefl] at h
    cases h
  · rw [Std.compare_eq_iff_eq.2 rfl] at h
    cases h

theorem listedBefore_iff : a.listedBefore b = true ↔ a.Precedes b ∨ a.place = b.place := by
  simp only [listedBefore, Precedes, place, Bool.or_eq_true, Bool.and_eq_true, decide_eq_true_eq,
    Ordering.isLE_iff_eq_lt_or_eq_eq, Std.compare_eq_iff_eq, and_or_left, or_assoc, Prod.mk.injEq]

theorem listedBefore_trans (a b c : Instance) (hab : a.listedBefore b = true)
    (hbc : b.listedBefore c = true) : a.listedBefore c = true := by
  rw [listedBefore_iff] at *
  rcases hab with hab | hab
  · rcases hbc with hbc | hbc
    · exact .inl (hab.trans hbc)
    · exact .inl (hab.congr rfl hbc)
  · rcases hbc with hbc | hbc
    · exact .inl (hbc.congr hab.symm rfl)
    · exact .inr (hab.trans hbc)

theorem listedBefore_total (a b : Instance) : (a.listedBefore b || b.listedBefore a) = true := by
  rw [Bool.or_eq_true, listedBefore_iff, listedBefore_iff]
  unfold Precedes
  by_cases hba : b.createdAt.before a.createdAt = true
  · exact .inl (.inl (.inl hba))
  · rcases Instant.before_total hba with hsame | hab
    · cases hid : compare a.id b.id with
      | lt => exact .inl (.inl (.inr ⟨hsame.symm, rfl⟩))
      | eq => exact .inl (.inr (Prod.ext hsame.symm (Std.compare_eq_iff_eq.1 hid)))
      | gt => exact .inr (.inl (.inr ⟨hsame, Std.OrientedCmp.gt_iff_lt.1 hid⟩))
    · exact .inr (.inl (.inl hab))

/-- In strict order, the last one comes after all others. -/
theorem up_to_last {listing : List Instance} (h : listing.Pairwise Precedes)
    (hlast : listing.getLast? = some b) (ha : a ∈ listing) : a = b ∨ a.Precedes b := by
  obtain ⟨earlier, rfl⟩ := List.getLast?_eq_some_iff.1 hlast
  rcases List.mem_append.1 ha with ha | ha
  · exact .inr ((List.pairwise_append.1 h).2.2 a ha b (.head _))
  · exact .inl (List.mem_singleton.1 ha)

end Instance

namespace Store

variable {s : Store} {t : String} {q : Query}

/-- A listing has the records of the tenant that pass the filters. -/
theorem mem_select (hf : s.Filed) {i : Instance} :
    i ∈ q.select t s.records.values ↔ s.find t i.id = .ok i ∧ q.accepts i = true := by
  unfold Query.select
  rw [List.mem_mergeSort, List.mem_filter, find_eq_ok_iff]
  simp only [Bool.and_eq_true, decide_eq_true_eq, and_assoc]
  refine and_congr_left fun _ => ?_
  constructor
  · intro hi
    obtain ⟨⟨id, r⟩, hmem, hr⟩ := List.mem_map.1 hi
    obtain rfl : r = i := hr
    have hget := Dict.mem_entries_iff.1 hmem
    rw [hf id r hget]
    exact hget
  · intro hget
    exact List.mem_map.2 ⟨_, Dict.mem_entries_iff.2 hget, rfl⟩

/-- Records are kept under ids of their own, so no two have the same. -/
theorem nodup_ids (hf : s.Filed) : (s.records.values.map (·.id)).Nodup := by
  have hkeys : s.records.values.map (·.id) = s.records.entries.map (·.1) := by
    unfold Dict.values
    rw [List.map_map]
    apply List.map_congr_left
    rintro ⟨id, r⟩ hmem
    exact hf id r (Dict.mem_entries_iff.1 hmem)
  rw [hkeys]
  exact s.records.nodup_keys

/-- No two records of a listing have the same id. -/
theorem nodup_select (hf : s.Filed) : ((q.select t s.records.values).map (·.id)).Nodup := by
  unfold Query.select
  refine ((List.mergeSort_perm _ _).map _).nodup_iff.2 ?_
  exact (List.filter_sublist.map _).nodup (nodup_ids hf)

/-- A listing is in strict order. -/
theorem select_precedes (hf : s.Filed) :
    (q.select t s.records.values).Pairwise Instance.Precedes := by
  have hapart := List.pairwise_map.1 (nodup_select (t := t) (q := q) hf)
  have hsorted : (q.select t s.records.values).Pairwise fun a b => a.listedBefore b = true :=
    List.pairwise_mergeSort Instance.listedBefore_trans Instance.listedBefore_total _
  refine (hsorted.and hapart).imp fun {a b} h => ?_
  rcases Instance.listedBefore_iff.1 h.1 with hab | hplace
  · exact hab
  · exact absurd (congrArg Prod.snd hplace) h.2

end Store

/-! ## A page -/

/-- Whether a page is what lies in a listing between its cursor and the next one. -/
structure Query.Cuts (q : Query) (listing : List Instance) (page : Page)
    (before after : List Instance) : Prop where
  parts : listing = before ++ page.items ++ after
  starts : match q.cursor with
    | none => before = []
    | some c => ∃ a, before.getLast? = some a ∧ a.id = c
  stops : match page.nextCursor with
    | none => after = []
    | some c => ∃ b, page.items.getLast? = some b ∧ b.id = c

namespace Query

variable {q : Query} {listing : List Instance}

theorem start_cuts {n : Nat} (h : q.start listing = .ok n) : n ≤ listing.length ∧
    match q.cursor with
    | none => listing.take n = []
    | some c => ∃ a, (listing.take n).getLast? = some a ∧ a.id = c := by
  unfold start at h
  cases hcursor : q.cursor with
  | none =>
    rw [hcursor] at h
    cases h
    exact ⟨Nat.zero_le _, rfl⟩
  | some c =>
    rw [hcursor] at h
    cases hfound : listing.findIdx? (·.id = c) with
    | none =>
      simp only [hfound] at h
      cases h
    | some k =>
      simp only [hfound] at h
      cases h
      obtain ⟨hk, hid, -⟩ := List.findIdx?_eq_some_iff_getElem.1 hfound
      refine ⟨hk, listing[k], ?_, of_decide_eq_true hid⟩
      rw [List.take_add_one, List.getElem?_eq_getElem hk]
      exact List.getLast?_concat

/-- A page is what lies between its cursor and the next one, or the rest when there is no next one. -/
theorem page_cuts {page : Page} (hlimit : q.limit ≠ 0) (h : q.page listing = .ok page) :
    ∃ before after, q.Cuts listing page before after := by
  unfold Query.page at h
  cases hstart : q.start listing with
  | error f =>
    rw [hstart] at h
    cases h
  | ok n =>
    obtain ⟨hn, hbefore⟩ := start_cuts hstart
    rw [hstart] at h
    obtain rfl := Except.ok.inj h
    have hpositive : 0 < q.limit.toNat := by
      refine Nat.pos_of_ne_zero fun hzero => hlimit ?_
      exact UInt64.toNat_inj.1 hzero
    generalize hstop : min (n + q.limit.toNat) listing.length = stop
    have hle : n ≤ stop := by omega
    refine ⟨listing.take n, listing.drop stop, ?_, hbefore, ?_⟩
    · simp only [if_neg hlimit]
      have htake : listing.take n = (listing.take stop).take n := by
        rw [List.take_take, Nat.min_eq_left hle]
      rw [htake, List.take_append_drop, List.take_append_drop]
    · simp only [if_neg hlimit]
      by_cases hmore : stop < listing.length
      · -- Where something is left, the page is full, so it has a last record to go on from.
        have hlast : ((listing.take stop).drop n).getLast? ≠ none := by
          rw [ne_eq, List.getLast?_eq_none_iff, ← List.length_eq_zero_iff, List.length_drop,
            List.length_take]
          omega
        obtain ⟨b, hb⟩ := Option.ne_none_iff_exists'.1 hlast
        rw [if_pos hmore, hb]
        exact ⟨b, rfl, rfl⟩
      · rw [if_neg hmore]
        exact List.drop_eq_nil_of_le (Nat.le_of_not_lt hmore)

/-- After a cursor that is listed there is a page, and any other cursor is invalid. -/
theorem page_of_cursor {c : String} (hcursor : q.cursor = some c) :
    (∃ i ∈ listing, i.id = c) ∧ (∃ page, q.page listing = .ok page) ∨
      (¬ ∃ i ∈ listing, i.id = c) ∧ q.page listing = .error (.invalid (.unknownCursor c)) := by
  unfold Query.page start
  rw [hcursor]
  cases hfound : listing.findIdx? (·.id = c) with
  | some k =>
    obtain ⟨hk, hid, -⟩ := List.findIdx?_eq_some_iff_getElem.1 hfound
    have hlisted : listing[k] ∈ listing := List.getElem_mem hk
    simp only [hfound]
    exact .inl ⟨⟨listing[k], hlisted, of_decide_eq_true hid⟩, _, rfl⟩
  | none =>
    simp only [hfound]
    refine .inr ⟨?_, rfl⟩
    rintro ⟨i, hi, hid⟩
    have hnot := List.findIdx?_eq_none_iff.1 hfound i hi
    exact of_decide_eq_false hnot hid

namespace Cuts

variable {page : Page} {before after : List Instance} (h : q.Cuts listing page before after)
  (hsorted : listing.Pairwise Instance.Precedes)

include h

theorem mem_listing {i : Instance} (hi : i ∈ page.items) : i ∈ listing := by
  rw [h.parts]
  exact List.mem_append_left _ (List.mem_append_right _ hi)

/-- The record of a cursor is listed, last before the page. -/
theorem cursor_listed {c : String} (hc : q.cursor = some c) :
    ∃ a ∈ listing, a.id = c ∧ before.getLast? = some a := by
  have hstarts := h.starts
  rw [hc] at hstarts
  obtain ⟨a, ha, hid⟩ := hstarts
  refine ⟨a, ?_, hid, ha⟩
  rw [h.parts]
  exact List.mem_append_left _ (List.mem_append_left _ (List.mem_of_getLast? ha))

include hsorted

theorem sorted : page.items.Pairwise Instance.Precedes := by
  rw [h.parts] at hsorted
  exact (List.pairwise_append.1 (List.pairwise_append.1 hsorted).1).2.1

/-- What is shown comes after the cursor. -/
theorem after_cursor {c : String} (hc : q.cursor = some c) :
    ∃ a ∈ listing, a.id = c ∧ ∀ i ∈ page.items, a.Precedes i := by
  obtain ⟨a, hlisted, hid, ha⟩ := h.cursor_listed hc
  rw [h.parts] at hsorted
  refine ⟨a, hlisted, hid, fun i hi => ?_⟩
  exact (List.pairwise_append.1 (List.pairwise_append.1 hsorted).1).2.2 a (List.mem_of_getLast? ha) i hi

/-- What is shown goes up to the next cursor, and what is left comes after it. -/
theorem up_to_next {c : String} (hc : page.nextCursor = some c) :
    ∃ b ∈ page.items, b.id = c ∧ (∀ i ∈ page.items, i = b ∨ i.Precedes b) ∧
      ∀ i ∈ after, b.Precedes i := by
  have hstops := h.stops
  rw [hc] at hstops
  obtain ⟨b, hb, hid⟩ := hstops
  have hlast : b ∈ page.items := List.mem_of_getLast? hb
  have hitems := h.sorted hsorted
  rw [h.parts] at hsorted
  refine ⟨b, hlast, hid, fun i hi => ?_, fun i hi => ?_⟩
  · exact Instance.up_to_last hitems hb hi
  · exact (List.pairwise_append.1 hsorted).2.2 b (List.mem_append_right _ hlast) i hi

/-- What comes after the cursor is shown or is left, and nothing is left after the last page. -/
theorem shown_or_left {i : Instance} (hi : i ∈ listing)
    (hpast : ∀ a ∈ listing, q.cursor = some a.id → a.Precedes i) :
    i ∈ page.items ∨ i ∈ after ∧ ∃ c, page.nextCursor = some c := by
  have hpart := hi
  rw [h.parts] at hpart
  rcases List.mem_append.1 hpart with hpart | hleft
  · rcases List.mem_append.1 hpart with hbefore | hshown
    · -- Nothing that comes up to the cursor also comes after it.
      cases hc : q.cursor with
      | none =>
        have hstarts := h.starts
        rw [hc] at hstarts
        rw [hstarts] at hbefore
        cases hbefore
      | some c =>
        obtain ⟨a, hlisted, rfl, ha⟩ := h.cursor_listed hc
        have hprecedes := hpast a hlisted hc
        rw [h.parts] at hsorted
        have hpairs := (List.pairwise_append.1 (List.pairwise_append.1 hsorted).1).1
        rcases Instance.up_to_last hpairs ha hbefore with rfl | hup
        · exact absurd hprecedes (Instance.not_precedes_self i)
        · exact absurd (hup.trans hprecedes) (Instance.not_precedes_self i)
    · exact .inl hshown
  · cases hnext : page.nextCursor with
    | none =>
      have hstops := h.stops
      rw [hnext] at hstops
      rw [hstops] at hleft
      cases hleft
    | some c => exact .inr ⟨hleft, c, rfl⟩

end Cuts

end Query

namespace Store

variable {s : Store} {t : String} {q : Query}

def Lists (s : Store) (t : String) (q : Query) (id : String) : Prop :=
  ∃ i, s.find t id = .ok i ∧ q.accepts i = true

theorem lists_iff (hf : s.Filed) {id : String} :
    s.Lists t q id ↔ ∃ i ∈ q.select t s.records.values, i.id = id := by
  constructor
  · rintro ⟨i, hi, haccepts⟩
    have hid : i.id = id := hf id i (find_eq_ok_iff.1 hi).1
    exact ⟨i, (mem_select hf).2 ⟨hid ▸ hi, haccepts⟩, hid⟩
  · rintro ⟨i, hi, rfl⟩
    exact ⟨i, (mem_select hf).1 hi⟩

theorem owns_select {origins : Origins} (hg : s.Grounded origins) {i : Instance}
    (hi : i ∈ q.select t s.records.values) : origins.Owns t i := by
  obtain ⟨hget, rfl⟩ := find_eq_ok_iff.1 ((mem_select hg.filed).1 hi).1
  exact hg.owns hget

end Store

/-! ## A walk over pages -/

/-- A record keeps its place: two records under one id were created at one moment. -/
theorem Origins.place_unique {origins : Origins} {t : String} {a b : Instance}
    (ha : origins.Owns t a) (hb : origins.Owns t b) (hid : a.id = b.id) : a.place = b.place := by
  have hsame : some a.origin = some b.origin := by
    rw [← ha.2, ← hb.2, hid]
  exact Prod.ext (congrArg Origin.createdAt (Option.some.inj hsame)) hid

namespace Plane

variable {p : Plane}

/-- A listing is what the store lists, and changes nothing. -/
theorem perform_list (p : Plane) {who : Caller} (hwho : who.tenant ≠ "") (stamp : Stamp) (q : Query) :
    p.perform (some who) stamp (.list q) = ((p.store.list who.tenant q).map .page, p) := by
  have hknown : Caller.require (some who) = .ok who := Caller.require_eq_ok_iff.2 ⟨rfl, hwho⟩
  have hprocedure : procedure p.settings.maxInstances (some who) stamp (.list q) =
      .call (.list who.tenant q) fun a => ofExcept a >>= fun page => .done (.page page) := by
    simp only [procedure, Service.list, identify, hknown]
    rfl
  rw [perform_eq, hprocedure]
  simp only [carry, serve]
  cases p.store.list who.tenant q <;> rfl

/-- Without a tenant there is no listing, and nothing changes either. -/
theorem perform_list_nobody (p : Plane) {who : Caller} (hwho : who.tenant = "") (stamp : Stamp)
    (q : Query) : p.perform (some who) stamp (.list q) = (.error .noTenant, p) := by
  have hunknown : Caller.require (some who) = .error .noTenant := if_pos hwho
  rw [perform_eq]
  simp only [procedure, Service.list, identify, hunknown]
  rfl

theorem perform_list_ok {who : Caller} {stamp : Stamp} {q : Query} {page : Page}
    (h : (p.perform (some who) stamp (.list q)).1 = .ok (.page page)) :
    p.store.list who.tenant q = .ok page ∧ (p.perform (some who) stamp (.list q)).2 = p := by
  by_cases hwho : who.tenant = ""
  · rw [perform_list_nobody p hwho] at h
    cases h
  · rw [perform_list p hwho] at h ⊢
    refine ⟨?_, rfl⟩
    cases hlist : p.store.list who.tenant q with
    | error f =>
      rw [hlist] at h
      cases h
    | ok page' =>
      rw [hlist] at h
      cases h
      rfl

theorem grounded_live {origins : Origins} {deeds : List Deed} (hknown : ∀ d ∈ deeds, origins.Knows d)
    (hg : p.store.Grounded origins) : (p.live deeds).1.store.Grounded origins := by
  have hstore := congrArg Estate.store (p.estate_live deeds)
  change (p.live deeds).1.store = _ at hstore
  rw [hstore]
  exact Estate.grounded_live _ hknown hg

/-- A page, and the control plane that was asked for it. -/
structure Visit where
  plane : Plane
  page : Page

/-- A walk over the pages of a listing, from a cursor to the last page, while deeds are done between
the pages. -/
inductive Walk (who : Caller) (q : Query) : Option String → Plane → List Deed → List Visit → Prop
  | last {cursor : Option String} {p : Plane} {stamp : Stamp} {page : Page}
      (hpage : (p.perform (some who) stamp (.list { q with cursor })).1 = .ok (.page page))
      (hend : page.nextCursor = none) : Walk who q cursor p [] [⟨p, page⟩]
  | more {cursor : Option String} {p : Plane} {stamp : Stamp} {page : Page} {c : String}
      {meanwhile later : List Deed} {visits : List Visit}
      (hpage : (p.perform (some who) stamp (.list { q with cursor })).1 = .ok (.page page))
      (hnext : page.nextCursor = some c)
      (hrest : Walk who q (some c)
        ((p.perform (some who) stamp (.list { q with cursor })).2.live meanwhile).1 later visits) :
      Walk who q cursor p (meanwhile ++ later) (⟨p, page⟩ :: visits)

/-- What is shown at some visits, in order. -/
def shown (visits : List Visit) : List Instance := visits.flatMap (·.page.items)

theorem shown_cons (v : Visit) (visits : List Visit) :
    shown (v :: visits) = v.page.items ++ shown visits := List.flatMap_cons ..

/-- Whether a visit shows what lies between its cursor and the next one, of what a tenant has in a store
in keeping with the origins. -/
structure Visit.Fair (origins : Origins) (t : String) (q : Query) (cursor : Option String) (v : Visit) :
    Prop where
  grounded : v.plane.store.Grounded origins
  cuts : ∃ before after,
    Query.Cuts { q with cursor } (q.select t v.plane.store.records.values) v.page before after

/-- Whether the place of an id comes after a cursor. -/
def ComesAfter (origins : Origins) (t : String) (cursor : Option String) (id : String) : Prop :=
  ∀ a r, origins.Owns t a → origins.Owns t r → r.id = id → cursor = some a.id → a.Precedes r

/-- Without a cursor, all is to come. -/
theorem comesAfter_none (origins : Origins) (t id : String) : ComesAfter origins t none id := by
  intro a r _ _ _ hc
  cases hc

section

variable {origins : Origins} {who : Caller} {q : Query}

/-- A walk is one fair visit after the other. -/
theorem Walk.induct (hlimit : q.limit ≠ 0) {M : Option String → List Visit → Prop}
    (hlast : ∀ {cursor : Option String} {v : Visit}, v.Fair origins who.tenant q cursor →
      v.page.nextCursor = none → M cursor [v])
    (hmore : ∀ {cursor : Option String} {v : Visit} {c : String} {visits : List Visit},
      v.Fair origins who.tenant q cursor → v.page.nextCursor = some c → M (some c) visits →
      M cursor (v :: visits))
    {cursor : Option String} {deeds : List Deed} {visits : List Visit}
    (h : Walk who q cursor p deeds visits) (hg : p.store.Grounded origins)
    (hknown : ∀ d ∈ deeds, origins.Knows d) : M cursor visits := by
  induction h with
  | last hpage hend => exact hlast ⟨hg, Query.page_cuts hlimit (perform_list_ok hpage).1⟩ hend
  | @more cursor p stamp page c meanwhile later visits hpage hnext hrest ih =>
    obtain ⟨hlist, hsame⟩ := perform_list_ok hpage
    refine hmore ⟨hg, Query.page_cuts hlimit hlist⟩ hnext (ih ?_ ?_)
    · rw [hsame]
      exact grounded_live (fun d hd => hknown d (List.mem_append_left _ hd)) hg
    · exact fun d hd => hknown d (List.mem_append_right _ hd)

namespace Visit.Fair

variable {cursor : Option String} {v : Visit} {t c : String} (h : v.Fair origins t q cursor)

include h

theorem owned {i : Instance} (hi : i ∈ v.page.items) : origins.Owns t i := by
  obtain ⟨before, after, hcuts⟩ := h.cuts
  exact Store.owns_select h.grounded (hcuts.mem_listing hi)

theorem sorted : v.page.items.Pairwise Instance.Precedes := by
  obtain ⟨before, after, hcuts⟩ := h.cuts
  exact hcuts.sorted (Store.select_precedes h.grounded.filed)

/-- What a visit shows comes after any record with the id of its cursor. -/
theorem after_cursor {a : Instance} (ha : origins.Owns t a) (hcursor : cursor = some a.id) :
    ∀ i ∈ v.page.items, a.Precedes i := by
  obtain ⟨before, after, hcuts⟩ := h.cuts
  have hsorted := Store.select_precedes (t := t) (q := q) h.grounded.filed
  obtain ⟨a', ha', hid, hafter⟩ := hcuts.after_cursor hsorted hcursor
  intro i hi
  exact (hafter i hi).congr (Origins.place_unique (Store.owns_select h.grounded ha') ha hid) rfl

theorem up_to_next (hnext : v.page.nextCursor = some c) :
    ∃ b ∈ v.page.items, b.id = c ∧ ∀ i ∈ v.page.items, i = b ∨ i.Precedes b := by
  obtain ⟨before, after, hcuts⟩ := h.cuts
  have hsorted := Store.select_precedes (t := t) (q := q) h.grounded.filed
  obtain ⟨b, hb, hid, hupto, -⟩ := hcuts.up_to_next hsorted hnext
  exact ⟨b, hb, hid, hupto⟩

/-- What is listed and comes after the cursor is shown, or comes after the next cursor. -/
theorem shown_or_left {id : String} (hlisted : v.plane.store.Lists t q id)
    (hpast : ComesAfter origins t cursor id) : (∃ i ∈ v.page.items, i.id = id) ∨
      v.page.nextCursor ≠ none ∧ ComesAfter origins t v.page.nextCursor id := by
  obtain ⟨before, after, hcuts⟩ := h.cuts
  have hsorted := Store.select_precedes (t := t) (q := q) h.grounded.filed
  obtain ⟨r, hr, rfl⟩ := (Store.lists_iff h.grounded.filed).1 hlisted
  have howns := Store.owns_select h.grounded hr
  have hcases := hcuts.shown_or_left hsorted hr fun a ha hc =>
    hpast a r (Store.owns_select h.grounded ha) howns rfl hc
  rcases hcases with hshown | ⟨hleft, c, hnext⟩
  · exact .inl ⟨r, hshown, rfl⟩
  · obtain ⟨b, hb, rfl, -, hafter⟩ := hcuts.up_to_next hsorted hnext
    rw [hnext]
    refine .inr ⟨nofun, fun b' r' hb' hr' hid hc => ?_⟩
    have howns' := Store.owns_select h.grounded (hcuts.mem_listing hb)
    have hplace := Origins.place_unique howns' hb' (Option.some.inj hc)
    exact (hafter r hleft).congr hplace (Origins.place_unique howns hr' hid.symm)

end Visit.Fair

/-- Whether what some visits show belongs to the tenant, comes after the cursor, and is in strict
order. -/
structure Orderly (origins : Origins) (t : String) (cursor : Option String) (visits : List Visit) :
    Prop where
  owned : ∀ i ∈ shown visits, origins.Owns t i
  past : ∀ a, origins.Owns t a → cursor = some a.id → ∀ i ∈ shown visits, a.Precedes i
  sorted : (shown visits).Pairwise Instance.Precedes

theorem Orderly.one {t : String} {cursor : Option String} {v : Visit}
    (h : v.Fair origins t q cursor) : Orderly origins t cursor [v] := by
  have hshown : shown [v] = v.page.items := List.flatMap_singleton ..
  constructor
  · rw [hshown]
    exact fun i hi => h.owned hi
  · rw [hshown]
    exact fun a ha hc => h.after_cursor ha hc
  · rw [hshown]
    exact h.sorted

/-- All that is shown later comes after the next cursor, up to which the visit goes. -/
theorem Orderly.more {t c : String} {cursor : Option String} {v : Visit} {visits : List Visit}
    (h : v.Fair origins t q cursor) (hnext : v.page.nextCursor = some c)
    (hrest : Orderly origins t (some c) visits) : Orderly origins t cursor (v :: visits) := by
  obtain ⟨b, hb, rfl, hupto⟩ := h.up_to_next hnext
  have hlater := hrest.past b (h.owned hb) rfl
  constructor
  · intro i hi
    rw [shown_cons] at hi
    rcases List.mem_append.1 hi with hi | hi
    · exact h.owned hi
    · exact hrest.owned i hi
  · intro a ha hc i hi
    rw [shown_cons] at hi
    have hfirst := h.after_cursor ha hc
    rcases List.mem_append.1 hi with hi | hi
    · exact hfirst i hi
    · exact (hfirst b hb).trans (hlater i hi)
  · rw [shown_cons]
    refine List.pairwise_append.2 ⟨h.sorted, hrest.sorted, fun i hi j hj => ?_⟩
    rcases hupto i hi with rfl | hi
    · exact hlater j hj
    · exact hi.trans (hlater j hj)

/-- In strict order, no id is shown twice. -/
theorem Orderly.nodup {t : String} {cursor : Option String} {visits : List Visit}
    (h : Orderly origins t cursor visits) : ((shown visits).map (·.id)).Nodup := by
  refine List.pairwise_map.2 (h.sorted.imp_of_mem fun {a b} ha hb hab hid => ?_)
  have hplace := Origins.place_unique (h.owned a ha) (h.owned b hb) hid
  exact b.not_precedes_self (hab.congr hplace rfl)

variable {deeds : List Deed} {visits : List Visit} (hlimit : q.limit ≠ 0)

include hlimit

theorem Walk.orderly {cursor : Option String} (h : Walk who q cursor p deeds visits)
    (hg : p.store.Grounded origins) (hknown : ∀ d ∈ deeds, origins.Knows d) :
    Orderly origins who.tenant cursor visits := by
  refine h.induct hlimit (fun hfair _ => ?_) (fun hfair hnext hrest => ?_) hg hknown
  · exact .one hfair
  · exact .more hfair hnext hrest

/-- What is listed at every visit, and comes after the cursor, is shown. -/
theorem Walk.shows {cursor : Option String} (h : Walk who q cursor p deeds visits)
    (hg : p.store.Grounded origins) (hknown : ∀ d ∈ deeds, origins.Knows d) {id : String}
    (hlisted : ∀ v ∈ visits, v.plane.store.Lists who.tenant q id)
    (hpast : ComesAfter origins who.tenant cursor id) : ∃ i ∈ shown visits, i.id = id := by
  revert hlisted hpast
  refine h.induct hlimit (M := fun cursor visits =>
    (∀ v ∈ visits, v.plane.store.Lists who.tenant q id) → ComesAfter origins who.tenant cursor id →
      ∃ i ∈ shown visits, i.id = id) ?_ ?_ hg hknown
  · intro cursor v hfair hend hlisted hpast
    rcases hfair.shown_or_left (hlisted v (.head _)) hpast with ⟨i, hi, hid⟩ | ⟨hmore, -⟩
    · exact ⟨i, List.mem_append_left _ hi, hid⟩
    · exact absurd hend hmore
  · intro cursor v c visits hfair hnext hrest hlisted hpast
    rcases hfair.shown_or_left (hlisted v (.head _)) hpast with ⟨i, hi, hid⟩ | ⟨-, hlater⟩
    · exact ⟨i, List.mem_append_left _ hi, hid⟩
    · obtain ⟨i, hi, hid⟩ := hrest (fun v' hv' => hlisted v' (.tail _ hv')) (hnext ▸ hlater)
      exact ⟨i, List.mem_append_right _ hi, hid⟩

end

/-- A page after a cursor fails exactly when the id of the cursor is not listed, as an invalid
request. -/
theorem fails_iff (hf : p.store.Filed) {who : Caller} (hwho : who.tenant ≠ "") (stamp : Stamp)
    (q : Query) (c : String) :
    ((∃ f, (p.perform (some who) stamp (.list { q with cursor := some c })).1 = .error f) ↔
        ¬ p.store.Lists who.tenant q c) ∧
      ∀ f, (p.perform (some who) stamp (.list { q with cursor := some c })).1 = .error f →
        f.kind = .validation := by
  rw [perform_list p hwho, Store.lists_iff hf]
  have hpage := @Query.page_of_cursor { q with cursor := some c }
    (q.select who.tenant p.store.records.values) c rfl
  change (_ ∧ ∃ page, p.store.list who.tenant { q with cursor := some c } = .ok page) ∨
    _ ∧ p.store.list who.tenant { q with cursor := some c } = _ at hpage
  rcases hpage with ⟨hlisted, page, hok⟩ | ⟨hnone, herror⟩
  · rw [hok]
    refine ⟨⟨?_, fun hnone => absurd hlisted hnone⟩, ?_⟩
    · rintro ⟨f, hfail⟩
      cases hfail
    · intro f hfail
      cases hfail
  · rw [herror]
    refine ⟨⟨fun _ => hnone, fun _ => ⟨_, rfl⟩⟩, ?_⟩
    intro f hfail
    cases hfail
    rfl

/-- Pages of at least one record, whatever happens between them: together they are in strict order, so
that nothing is shown twice, and they show what is listed at every page. A page fails exactly when the
record of its cursor is not listed any more, as an invalid request. -/
theorem pages_are_exact (hstore : p.store = .empty) {before meanwhile : List Deed}
    (hfresh : ((before ++ meanwhile).flatMap Deed.births).Nodup) {who : Caller}
    (hwho : who.tenant ≠ "") {q : Query} (hlimit : q.limit ≠ 0) :
    (∀ visits, Walk who q none (p.live before).1 meanwhile visits →
      (shown visits).Pairwise Instance.Precedes ∧ ((shown visits).map (·.id)).Nodup ∧
        ∀ id, (∀ v ∈ visits, v.plane.store.Lists who.tenant q id) → ∃ i ∈ shown visits, i.id = id) ∧
    ∀ deeds stamp c,
      ((∃ f, ((p.live deeds).1.perform (some who) stamp (.list { q with cursor := some c })).1 =
          .error f) ↔ ¬ (p.live deeds).1.store.Lists who.tenant q c) ∧
        ∀ f, ((p.live deeds).1.perform (some who) stamp (.list { q with cursor := some c })).1 =
          .error f → f.kind = .validation := by
  have hknown := knows_whence hfresh
  have hg : (p.live before).1.store.Grounded (whence (before ++ meanwhile)) := by
    refine grounded_live (fun d hd => hknown d (List.mem_append_left _ hd)) ?_
    rw [hstore]
    exact .empty
  have hlater := fun d hd => hknown d (List.mem_append_right before hd)
  refine ⟨fun visits hwalk => ?_, fun deeds stamp c => ?_⟩
  · have horderly := hwalk.orderly hlimit hg hlater
    refine ⟨horderly.sorted, horderly.nodup, fun id hlisted => ?_⟩
    exact hwalk.shows hlimit hg hlater hlisted (comesAfter_none _ _ id)
  · exact fails_iff (filed_live hstore deeds) hwho stamp q c

/-- Who walks over the pages. -/
def reader : Caller := .ofTenant "acme" "user-1"

def readerStamp : Stamp :=
  { instanceId := "inst_9", eventId := "evt_9", clock := fun n => { seconds := n } }

/-- Three instances of one moment. -/
def stocked : List Deed :=
  [deed "inst_1" "evt_1" (.create { name := "Web", image := "nginx" }),
    deed "inst_2" "evt_2" (.create { name := "Db", image := "postgres" }),
    deed "inst_3" "evt_3" (.create { name := "Cache", image := "redis" })]

/-- Between the pages, an instance that was shown is deleted, and one comes before all others. -/
def restocked : List Deed :=
  [deed "inst_4" "evt_4" (.delete "inst_1"),
    deed "inst_0" "evt_5" (.create { name := "Mail", image := "postfix" })]

/-- What the tenant of the reader has, where it is stored in the order of a listing. -/
theorem page_of_sorted {p : Plane} {q : Query} {ids : List String} {next : Option String}
    (hsorted : (p.estate.store.records.values.filter fun i => i.tenant = "acme" && q.accepts i).Pairwise
      fun a b => a.listedBefore b = true)
    (h : (q.page (p.estate.store.records.values.filter fun i =>
      i.tenant = "acme" && q.accepts i)).toOption.map (fun page => (page.items.map (·.id), page.nextCursor)) =
      some (ids, next)) :
    ∃ page, (p.perform (some reader) readerStamp (.list q)).1 = .ok (.page page) ∧
      page.items.map (·.id) = ids ∧ page.nextCursor = next := by
  have hlisting : p.store.list "acme" q = q.page (p.estate.store.records.values.filter fun i =>
      i.tenant = "acme" && q.accepts i) := congrArg q.page (List.mergeSort_of_pairwise hsorted)
  rw [perform_list p (by decide)]
  show ∃ page, (p.store.list "acme" q).map Reply.page = _ ∧ _
  rw [← hlisting] at h
  cases hlist : p.store.list "acme" q with
  | error f =>
    rw [hlist] at h
    cases h
  | ok page =>
    rw [hlist] at h
    obtain ⟨hids, hnext⟩ := Prod.mk.inj (Option.some.inj h)
    exact ⟨page, rfl, hids, hnext⟩

theorem pages_are_exact_restocked :
    Config.solo.store = .empty ∧ ((stocked ++ restocked).flatMap Deed.births).Nodup ∧
      ∃ visits, Walk reader { limit := 2 } none (Config.solo.live stocked).1 restocked visits ∧
        (shown visits).map (·.id) = ["inst_1", "inst_2", "inst_3"] ∧
        (shown visits).Pairwise Instance.Precedes ∧
        ∀ deeds, (¬ (Config.solo.live deeds).1.store.Lists "acme" { limit := 2 } "inst_1") →
          ∃ f, ((Config.solo.live deeds).1.perform (some reader) readerStamp
            (.list { limit := 2, cursor := some "inst_1" })).1 = .error f := by
  have hfresh : ((stocked ++ restocked).flatMap Deed.births).Nodup := by decide
  obtain ⟨hwalks, hcursors⟩ := @pages_are_exact Config.solo rfl stocked restocked hfresh reader
    (by decide) { limit := 2 } (by decide)
  have hbefore := Config.solo.estate_live stocked
  have hbetween := (Config.solo.live stocked).1.estate_live restocked
  rw [hbefore, settings_live] at hbetween
  obtain ⟨first, hfirst, hids, hnext⟩ :
      ∃ page, ((Config.solo.live stocked).1.perform (some reader) readerStamp
        (.list { limit := 2 })).1 = .ok (.page page) ∧ page.items.map (·.id) = ["inst_1", "inst_2"] ∧
        page.nextCursor = some "inst_2" := by
    apply page_of_sorted
    · rw [hbefore]
      decide +kernel
    · rw [hbefore]
      decide +kernel
  obtain ⟨second, hsecond, hids', hnext'⟩ :
      ∃ page, (((Config.solo.live stocked).1.live restocked).1.perform (some reader) readerStamp
        (.list { limit := 2, cursor := some "inst_2" })).1 = .ok (.page page) ∧
        page.items.map (·.id) = ["inst_3"] ∧ page.nextCursor = none := by
    apply page_of_sorted
    · rw [hbetween]
      decide +kernel
    · rw [hbetween]
      decide +kernel
  have hsame := (perform_list_ok hfirst).2
  have hwalk : Walk reader { limit := 2 } none (Config.solo.live stocked).1 restocked
      [⟨(Config.solo.live stocked).1, first⟩,
        ⟨((Config.solo.live stocked).1.live restocked).1, second⟩] := by
    rw [← List.append_nil restocked]
    refine .more hfirst hnext ?_
    rw [hsame, List.append_nil]
    exact .last hsecond hnext'
  refine ⟨rfl, hfresh, _, hwalk, ?_, (hwalks _ hwalk).1, fun deeds hnone => ?_⟩
  · simp only [shown, List.flatMap_cons, List.flatMap_nil, List.append_nil, List.map_append, hids, hids']
    rfl
  · exact (hcursors deeds readerStamp "inst_1").1.2 hnone

end Plane

end Fleet
