import Fleet.Proofs.ByteOrder
import Fleet.Proofs.Index
import Fleet.Proofs.Paging

/-!
# What a listing shows

The listing of a query is the list of the tenant's records that it selects, the newest first and those of
one moment by the bytes of their ids. There is just one such list, in whatever order the table gives its
records (`Query.IsListing.eq`, `Store.isListing_select`). A page is the portion that the limit allows of
what lies after the cursor:

    q.After listing rest → q.page listing = .ok page → page.items = q.portion rest       (Query.page_after)

Its bounds stay within the listing, and a sum that is cut to the greatest number of a machine gives the
same bounds (`Query.stop_eq`). -/

namespace Fleet

open Service

/-! ## Label filters -/

namespace Instance

/-- Whether the labels of a record answer a filter. In `key=value` the key is what stands before the first
equals sign, and it must have that value; a filter without an equals sign is a key that must be there. -/
def AnswersLabel (i : Instance) (filter : String) : Prop :=
  (∃ key value, '=' ∉ key.toList ∧ filter = key ++ "=" ++ value ∧ i.labels.get? key = some value) ∨
    '=' ∉ filter.toList ∧ ∃ value, i.labels.get? filter = some value

/-- A character other than the equals sign, as the filter is split. -/
theorem all_ne_of_not_mem {cs : List Char} (h : '=' ∉ cs) : ∀ c ∈ cs, decide (c ≠ '=') = true := by
  intro c hc
  refine decide_eq_true ?_
  rintro rfl
  exact h hc

theorem matchesLabel_pair (i : Instance) {key value : String} (hkey : '=' ∉ key.toList) :
    i.matchesLabel (key ++ "=" ++ value) = true ↔ i.labels.get? key = some value := by
  have hfilter : (key ++ "=" ++ value).toList = key.toList ++ '=' :: value.toList := by
    simp [String.toList_append]
  have hbefore := all_ne_of_not_mem hkey
  unfold matchesLabel
  rw [hfilter, List.takeWhile_append_of_pos hbefore, List.dropWhile_append_of_pos hbefore]
  simp [String.ofList_toList]

theorem matchesLabel_key (i : Instance) {filter : String} (hfilter : '=' ∉ filter.toList) :
    i.matchesLabel filter = true ↔ ∃ value, i.labels.get? filter = some value := by
  have hnone : filter.toList.dropWhile (· ≠ '=') = [] := by
    rw [← List.append_nil filter.toList, List.dropWhile_append_of_pos (all_ne_of_not_mem hfilter)]
    rfl
  unfold matchesLabel
  rw [hnone]
  exact Option.isSome_iff_exists

/-- A text with an equals sign is split at the first one. -/
theorem exists_split {filter : String} (h : '=' ∈ filter.toList) :
    ∃ key value, '=' ∉ key.toList ∧ filter = key ++ "=" ++ value := by
  obtain ⟨before, after, hsplit, hfirst⟩ := List.eq_append_cons_of_mem h
  refine ⟨String.ofList before, String.ofList after, ?_, ?_⟩
  · rwa [String.toList_ofList]
  · rw [← String.toList_inj, hsplit]
    simp [String.toList_append, String.toList_ofList]

theorem matchesLabel_iff (i : Instance) (filter : String) :
    i.matchesLabel filter = true ↔ i.AnswersLabel filter := by
  unfold AnswersLabel
  by_cases h : '=' ∈ filter.toList
  · obtain ⟨key, value, hkey, rfl⟩ := exists_split h
    rw [i.matchesLabel_pair hkey]
    constructor
    · exact fun hvalue => .inl ⟨key, value, hkey, rfl, hvalue⟩
    · rintro (⟨key', value', hkey', hsame, hvalue⟩ | ⟨hnone, -⟩)
      · rw [← i.matchesLabel_pair hkey, hsame, i.matchesLabel_pair hkey']
        exact hvalue
      · exact absurd h hnone
  · rw [i.matchesLabel_key h]
    constructor
    · exact fun hthere => .inr ⟨h, hthere⟩
    · rintro (⟨key, value, -, rfl, -⟩ | ⟨-, hthere⟩)
      · exact absurd (by simp [String.toList_append]) h
      · exact hthere

end Instance

/-! ## The listing of a query -/

/-- Whether a query is about a record, for a tenant. -/
structure Query.Selects (q : Query) (t : String) (i : Instance) : Prop where
  tenant : i.tenant = t
  state : ∀ state, q.state = some state → i.state = state
  label : ∀ filter, q.label = some filter → i.AnswersLabel filter
  provider : ∀ provider, q.provider = some provider → i.provider = provider

/-- Whether a list has the records that a query is about, the newest first and those of one moment by the
bytes of their ids. -/
structure Query.IsListing (q : Query) (t : String) (s : Store) (listing : List Instance) : Prop where
  members : ∀ i, i ∈ listing ↔ (∃ id, s.records.get? id = some i) ∧ q.Selects t i
  sorted : listing.Pairwise fun a b => b.createdAt.before a.createdAt = true ∨
    a.createdAt = b.createdAt ∧ Text.bytes a.id < Text.bytes b.id

theorem Instance.precedes_iff {a b : Instance} :
    a.Precedes b ↔ b.createdAt.before a.createdAt = true ∨
      a.createdAt = b.createdAt ∧ Text.bytes a.id < Text.bytes b.id := by
  unfold Precedes
  rw [Text.compare_eq_lt_iff_bytes]

namespace Query

variable {q : Query} {t : String} {s : Store}

theorem selects_iff {i : Instance} : q.Selects t i ↔ i.tenant = t ∧ q.accepts i = true := by
  have haccepts : q.accepts i = true ↔ (∀ state, q.state = some state → state = i.state) ∧
      (∀ filter, q.label = some filter → i.AnswersLabel filter) ∧
      ∀ provider, q.provider = some provider → provider = i.provider := by
    unfold accepts
    simp only [Bool.and_eq_true, Option.all_eq_true, decide_eq_true_eq, Instance.matchesLabel_iff,
      and_assoc]
  rw [haccepts]
  constructor
  · intro h
    exact ⟨h.tenant, fun state hs => (h.state state hs).symm, h.label,
      fun provider hp => (h.provider provider hp).symm⟩
  · rintro ⟨ht, hs, hl, hp⟩
    exact ⟨ht, fun state h => (hs state h).symm, hl, fun provider h => (hp provider h).symm⟩

theorem IsListing.precedes {listing : List Instance} (h : q.IsListing t s listing) :
    listing.Pairwise Instance.Precedes := h.sorted.imp Instance.precedes_iff.2

/-- There is only one listing. -/
theorem IsListing.eq {listing other : List Instance} (h : q.IsListing t s listing)
    (hother : q.IsListing t s other) : other = listing := by
  have hnodup : ∀ l : List Instance, l.Pairwise Instance.Precedes → l.Nodup := by
    intro l hl
    refine hl.imp fun {a b} hab heq => ?_
    subst heq
    exact a.not_precedes_self hab
  refine List.Perm.eq_of_pairwise (fun a b _ _ hab hba => ?_) hother.precedes h.precedes ?_
  · exact absurd (hab.trans hba) a.not_precedes_self
  · refine (List.perm_ext_iff_of_nodup (hnodup _ hother.precedes) (hnodup _ h.precedes)).2 fun i => ?_
    rw [h.members, hother.members]

end Query

namespace Store

variable {s : Store}

/-- The order in which the table gives its records does not matter. -/
theorem select_of_perm (hf : s.Filed) (q : Query) (t : String) {records : List Instance}
    (hrecords : records.Perm s.records.values) : q.select t records = q.select t s.records.values := by
  have hsorted : ∀ l : List Instance, (q.select t l).Pairwise fun a b => a.listedBefore b = true :=
    fun l => List.pairwise_mergeSort Instance.listedBefore_trans Instance.listedBefore_total _
  have hsame : (q.select t records).Perm (q.select t s.records.values) :=
    (List.mergeSort_perm _ _).trans ((hrecords.filter _).trans (List.mergeSort_perm _ _).symm)
  refine List.Perm.eq_of_pairwise (fun a b ha hb hab hba => ?_) (hsorted _) (hsorted _) hsame
  have hid : a.id = b.id := by
    rcases Instance.listedBefore_iff.1 hab with hab | hplace
    · rcases Instance.listedBefore_iff.1 hba with hba | hplace
      · exact absurd (hab.trans hba) a.not_precedes_self
      · exact congrArg Prod.snd hplace.symm
    · exact congrArg Prod.snd hplace
  have hfound := ((mem_select hf).1 (hsame.mem_iff.1 ha)).1
  rw [hid, ((mem_select hf).1 hb).1] at hfound
  exact (Except.ok.inj hfound).symm

theorem isListing_select (hf : s.Filed) (q : Query) (t : String) :
    q.IsListing t s (q.select t s.records.values) where
  members := by
    intro i
    rw [mem_select hf, Query.selects_iff, find_eq_ok_iff, and_assoc]
    refine and_congr_left fun _ => ⟨fun hi => ⟨i.id, hi⟩, ?_⟩
    rintro ⟨id, hi⟩
    rwa [hf id i hi]
  sorted := (select_precedes hf).imp Instance.precedes_iff.1

end Store

/-! ## What a page shows of a listing -/

namespace Query

variable {q : Query} {listing rest : List Instance} {start most : Nat}

/-- Whether `rest` is what a listing has after the cursor of a query. -/
def After (q : Query) (listing rest : List Instance) : Prop :=
  match q.cursor with
  | none => rest = listing
  | some c => ∃ before a, listing = before ++ a :: rest ∧ a.id = c

/-- What the limit allows of what lies after the cursor. -/
def portion (q : Query) (rest : List Instance) : List Instance :=
  if q.limit = 0 then rest else rest.take q.limit.toNat

/-- Where a page ends, where a sum beyond the greatest number of a machine is cut to that. -/
def stop (q : Query) (most start total : Nat) : Nat :=
  if q.limit = 0 then total else min (min (start + q.limit.toNat) most) total

/-- The page of a listing between two bounds. -/
def cut (listing : List Instance) (start stop : Nat) : Page where
  items := (listing.take stop).drop start
  nextCursor :=
    if stop < listing.length then ((listing.take stop).drop start).getLast?.map (·.id) else none
  total := listing.length

/-- Whether a page is what a query asks for, of a listing and of what it has after the cursor. -/
structure Shows (q : Query) (listing rest : List Instance) (page : Page) : Prop where
  items : page.items = q.portion rest
  next : ∀ c, page.nextCursor = some c ↔
    page.items.length < rest.length ∧ ∃ last, page.items.getLast? = some last ∧ last.id = c
  total : page.total = listing.length

/-- A page lies between its bounds, whether or not their sum is cut to what a machine can hold. -/
theorem page_eq_cut (hstart : q.start listing = .ok start) (hmost : listing.length ≤ most) :
    q.page listing = .ok (cut listing start (q.stop most start listing.length)) := by
  have hstop : q.stop most start listing.length =
      if q.limit = 0 then listing.length else min (start + q.limit.toNat) listing.length := by
    unfold stop
    rw [Nat.min_assoc, Nat.min_eq_right hmost]
  rw [hstop]
  unfold page
  rw [hstart]
  rfl

/-- The bounds of a page are in order and within the listing. -/
theorem start_le_stop (hstart : q.start listing = .ok start) (hmost : listing.length ≤ most) :
    start ≤ q.stop most start listing.length ∧ q.stop most start listing.length ≤ listing.length := by
  have hle := (start_cuts hstart).1
  unfold stop
  split <;> omega

theorem start_after (hids : (listing.map (·.id)).Nodup) (hrest : q.After listing rest) :
    ∃ start, q.start listing = .ok start ∧ listing.drop start = rest := by
  unfold After at hrest
  unfold Query.start
  cases hcursor : q.cursor with
  | none =>
    rw [hcursor] at hrest
    exact ⟨0, rfl, hrest.symm⟩
  | some c =>
    rw [hcursor] at hrest
    obtain ⟨before, a, rfl, rfl⟩ := hrest
    have hfirst : (before ++ a :: rest).findIdx? (·.id = a.id) = some before.length := by
      refine List.findIdx?_eq_some_iff_getElem.2 ⟨by simp, by simp, fun j hj => ?_⟩
      rw [List.getElem_append_left hj]
      rw [List.map_append, List.map_cons, List.nodup_append] at hids
      have happart := hids.2.2 _ (List.mem_map_of_mem (List.getElem_mem hj)) a.id (.head _)
      simpa using happart
    simp only [hfirst]
    exact ⟨before.length + 1, rfl, by simp⟩

/-- Between its bounds, a page has what the limit allows of the rest. -/
theorem cut_items (hmost : listing.length ≤ most) :
    (cut listing start (q.stop most start listing.length)).items = q.portion (listing.drop start) := by
  change (listing.take (q.stop most start listing.length)).drop start = _
  rw [List.drop_take]
  unfold stop portion
  by_cases hlimit : q.limit = 0
  · rw [if_pos hlimit, if_pos hlimit, ← List.length_drop, List.take_length]
  · rw [if_neg hlimit, if_neg hlimit, List.take_eq_take_iff, List.length_drop]
    omega

theorem cut_next {stop : Nat} {c : String} : (cut listing start stop).nextCursor = some c ↔
    stop < listing.length ∧ ∃ last, (cut listing start stop).items.getLast? = some last ∧ last.id = c := by
  unfold cut
  by_cases hmore : stop < listing.length
  · simp only [hmore, if_true, true_and, Option.map_eq_some_iff]
  · simp [hmore]

/-- A page between its bounds is what the query asks for. -/
theorem shows_cut (hstart : q.start listing = .ok start) (hmost : listing.length ≤ most) :
    q.Shows listing (listing.drop start) (cut listing start (q.stop most start listing.length)) := by
  obtain ⟨hfirst, hlast⟩ := start_le_stop hstart hmost
  refine ⟨cut_items hmost, fun c => ?_, rfl⟩
  rw [cut_next]
  refine and_congr_left fun _ => ?_
  rw [cut, List.length_drop, List.length_drop, List.length_take]
  omega

/-- A cursor that is listed has a place in the listing, so there is a page after it. -/
theorem exists_after (hlisted : ∀ c, q.cursor = some c → ∃ i ∈ listing, i.id = c) :
    ∃ rest, q.After listing rest := by
  unfold After
  cases hcursor : q.cursor with
  | none => exact ⟨listing, rfl⟩
  | some c =>
    obtain ⟨a, ha, hid⟩ := hlisted c hcursor
    obtain ⟨before, rest, hsplit⟩ := List.append_of_mem ha
    exact ⟨rest, before, a, hsplit, hid⟩

end Query

namespace Service.Ledger

/-- Whatever a store was asked before, a query has one listing: the records of the tenant that pass the
filters, the newest first and those of one moment by the bytes of their ids. What the query is answered does
not depend on the order in which the table gives its records. If its cursor is listed, or there is none, the
answer is a page with what the limit allows of what the listing has after the cursor, with the next cursor if
something is left, and with the length of the listing. Any other cursor is invalid. And the bounds of the
page are in order and within the listing, also where their sum is cut to what a machine can hold. -/
theorem listing_is_as_specified (calls : List Call) (t : String) (q : Query) :
    let s := (after calls).store
    ∃ listing, q.IsListing t s listing ∧ (∀ other, q.IsListing t s other → other = listing) ∧
      (∀ records, records.Perm s.records.values → q.page (q.select t records) = s.list t q) ∧
      ((∀ c, q.cursor = some c → ∃ i ∈ listing, i.id = c) → ∃ rest page,
        q.After listing rest ∧ s.list t q = .ok page ∧ q.Shows listing rest page) ∧
      (∀ c, q.cursor = some c → (¬ ∃ i ∈ listing, i.id = c) →
        s.list t q = .error (.invalid (.unknownCursor c))) ∧
      ∀ most start, listing.length ≤ most → q.start listing = .ok start →
        start ≤ q.stop most start listing.length ∧
          q.stop most start listing.length ≤ listing.length ∧
          s.list t q = .ok (Query.cut listing start (q.stop most start listing.length)) := by
  intro s
  have hf : s.Filed := (indexed calls).filed
  have hlisting := Store.isListing_select hf q t
  refine ⟨_, hlisting, fun other hother => hlisting.eq hother, fun records hrecords => ?_,
    fun hlisted => ?_, fun c hcursor hnone => ?_, fun most start hmost hstart => ?_⟩
  · exact congrArg q.page (Store.select_of_perm hf q t hrecords)
  · obtain ⟨rest, hrest⟩ := Query.exists_after hlisted
    obtain ⟨start, hstart, rfl⟩ := Query.start_after (Store.nodup_select hf) hrest
    exact ⟨_, _, hrest, Query.page_eq_cut hstart (Nat.le_refl _),
      Query.shows_cut hstart (Nat.le_refl _)⟩
  · rcases Query.page_of_cursor hcursor with ⟨hlisted, -⟩ | ⟨-, hrefused⟩
    · exact absurd hlisted hnone
    · exact hrefused
  · obtain ⟨hfirst, hlast⟩ := Query.start_le_stop hstart hmost
    exact ⟨hfirst, hlast, Query.page_eq_cut hstart hmost⟩

end Service.Ledger

end Fleet
