import Fleet.Proofs.Index
import Fleet.Proofs.Paging

/-!
# Versions tell the changes of a record apart

A ledger shows which versions the accepted changes of a record carried (`changes`), and what was asked
since the record was inserted (`sinceBirth`). The stored version is one more than the number of changes
in that time (`versionAt`), and so is each version that was told or carried, at its own time:

    sinceBirth id log = later ++ x :: before → x.carried id = some v → v = versionAt id before
    sinceBirth id log = later ++ x :: before → x.Tells id v → v = versionAt id (x :: before)
                                                              (Ledger.carried_eq, Ledger.told_eq)

While there are fewer changes than versions, equal versions are of equal times (`versionAt_inj`). So a
change that carries the version of an earlier time is accepted only if there was no other in between
(`Ledger.changes_since`, `Ledger.versions_count_changes`). -/

namespace Fleet

open Service

/-- What a page shows is in the listing. -/
theorem Query.mem_of_page {q : Query} {listing : List Instance} {page : Page}
    (h : q.page listing = .ok page) {i : Instance} (hi : i ∈ page.items) : i ∈ listing := by
  unfold Query.page at h
  cases hstart : q.start listing with
  | error f =>
    rw [hstart] at h
    cases h
  | ok n =>
    rw [hstart] at h
    cases h
    exact List.mem_of_mem_take (List.mem_of_mem_drop hi)

namespace Service

namespace Exchange

/-- The version that an accepted change of the record of an id carried. -/
def carried (id : String) : Exchange → Option UInt64
  | ⟨.update i, .ok _⟩ => if i.id = id then some i.version else none
  | _ => none

/-- Whether the answer of an exchange tells that the record of an id has a version. -/
def Tells (id : String) (v : UInt64) : Exchange → Prop
  | ⟨.insert i, .ok version⟩ | ⟨.update i, .ok version⟩ => i.id = id ∧ version = v
  | ⟨.find _ _, .ok r⟩ | ⟨.findBySlug _ _, .ok r⟩ => r.id = id ∧ r.version = v
  | ⟨.list _ _, .ok page⟩ => ∃ r ∈ page.items, r.id = id ∧ r.version = v
  | _ => False

/-- Whether a record was inserted under an id. -/
def Bears (id : String) (x : Exchange) : Prop := x.birth.map (·.id) = some id

instance (id : String) (x : Exchange) : Decidable (x.Bears id) :=
  inferInstanceAs (Decidable (_ = _))

theorem carried_eq_some {id : String} {v : UInt64} {x : Exchange} (h : x.carried id = some v) :
    ∃ i version, x = ⟨.update i, .ok version⟩ ∧ i.id = id ∧ i.version = v := by
  unfold carried at h
  split at h
  · rename_i i version
    split at h
    · rename_i hid
      exact ⟨i, version, rfl, hid, Option.some.inj h⟩
    · cases h
  · cases h

/-- A version is told by what shows the record itself, or by a look-up of its slug or a page with it. -/
theorem Tells.cases {id : String} {v : UInt64} {x : Exchange} (h : x.Tells id v) :
    ∃ r : Instance, r.id = id ∧ r.version = v ∧ (x.sight = some r ∨
      (∃ tenant slug, x = ⟨.findBySlug tenant slug, .ok r⟩) ∨
      ∃ tenant q page, x = ⟨.list tenant q, .ok page⟩ ∧ r ∈ page.items) := by
  unfold Tells at h
  split at h
  · rename_i i version
    exact ⟨{ i with version }, h.1, h.2, .inl rfl⟩
  · rename_i i version
    exact ⟨{ i with version }, h.1, h.2, .inl rfl⟩
  · rename_i r
    exact ⟨r, h.1, h.2, .inl rfl⟩
  · rename_i r
    exact ⟨r, h.1, h.2, .inr (.inl ⟨_, _, rfl⟩)⟩
  · obtain ⟨r, hr, hid, hversion⟩ := h
    exact ⟨r, hid, hversion, .inr (.inr ⟨_, _, _, rfl, hr⟩)⟩
  · exact h.elim

/-- A change is no insertion. -/
theorem not_bears_of_carried {id : String} {v : UInt64} {x : Exchange}
    (h : x.carried id = some v) : ¬ x.Bears id := by
  obtain ⟨i, version, rfl, -⟩ := carried_eq_some h
  intro hborn
  cases hborn

end Exchange

/-! ## The changes of a record -/

/-- The versions that the accepted changes of the record of an id carried, the latest first. -/
def changes (id : String) (log : List Exchange) : List UInt64 := log.filterMap (·.carried id)

/-- What was asked and answered since a record was last inserted under an id. -/
def sinceBirth (id : String) : List Exchange → List Exchange
  | [] => []
  | x :: log => if x.Bears id then [x] else x :: sinceBirth id log

/-- The version after some changes: a record begins at the first one. -/
def versionAt (id : String) (log : List Exchange) : UInt64 := 1 + .ofNat (changes id log).length

section

variable {id : String} {x : Exchange} {log : List Exchange}

theorem changes_append (id : String) (later log : List Exchange) :
    changes id (later ++ log) = changes id later ++ changes id log := List.filterMap_append

theorem mem_changes {v : UInt64} :
    v ∈ changes id log ↔ ∃ later x before, log = later ++ x :: before ∧ x.carried id = some v := by
  unfold changes
  rw [List.mem_filterMap]
  constructor
  · rintro ⟨x, hx, hv⟩
    obtain ⟨later, before, hlog⟩ := List.append_of_mem hx
    exact ⟨later, x, before, hlog, hv⟩
  · rintro ⟨later, x, before, rfl, hv⟩
    exact ⟨x, by simp, hv⟩

theorem changes_cons_of_none (h : x.carried id = none) : changes id (x :: log) = changes id log :=
  List.filterMap_cons_none h

theorem changes_cons_of_some {v : UInt64} (h : x.carried id = some v) :
    changes id (x :: log) = v :: changes id log := List.filterMap_cons_some h

theorem versionAt_cons_of_none (h : x.carried id = none) :
    versionAt id (x :: log) = versionAt id log := by
  unfold versionAt
  rw [changes_cons_of_none h]

theorem versionAt_cons_of_some {v : UInt64} (h : x.carried id = some v) :
    versionAt id (x :: log) = versionAt id log + 1 := by
  unfold versionAt
  rw [changes_cons_of_some h, List.length_cons, UInt64.ofNat_add, ← UInt64.add_assoc]
  rfl

/-- While there are fewer changes than versions, a version tells how many changes there were. -/
theorem versionAt_inj {log' : List Exchange} (h : (changes id log).length < UInt64.size)
    (h' : (changes id log').length < UInt64.size) (heq : versionAt id log = versionAt id log') :
    (changes id log).length = (changes id log').length := by
  have hsame : UInt64.ofNat (changes id log).length = UInt64.ofNat (changes id log').length :=
    (UInt64.add_right_inj 1).1 heq
  have hnat := congrArg UInt64.toNat hsame
  rwa [UInt64.toNat_ofNat_of_lt' h, UInt64.toNat_ofNat_of_lt' h'] at hnat

theorem sinceBirth_of_bears (h : x.Bears id) : sinceBirth id (x :: log) = [x] := if_pos h

theorem sinceBirth_of_not_bears (h : ¬ x.Bears id) :
    sinceBirth id (x :: log) = x :: sinceBirth id log := if_neg h

/-- What lies since an insertion lies so at its own time too. -/
theorem sinceBirth_eq_append {later before : List Exchange}
    (h : sinceBirth id log = later ++ x :: before) :
    ∃ rest, log = later ++ x :: rest ∧ sinceBirth id (x :: rest) = x :: before := by
  induction log generalizing later with
  | nil => cases later <;> cases h
  | cons y log ih =>
    by_cases hy : y.Bears id
    · rw [sinceBirth_of_bears hy] at h
      cases later with
      | nil =>
        cases h
        exact ⟨log, rfl, sinceBirth_of_bears hy⟩
      | cons z later => cases later <;> cases h
    · rw [sinceBirth_of_not_bears hy] at h
      cases later with
      | nil =>
        cases h
        exact ⟨log, rfl, sinceBirth_of_not_bears hy⟩
      | cons z later =>
        obtain ⟨hz, hlog⟩ := List.cons.inj h
        obtain ⟨rest, hrest, hbirth⟩ := ih hlog
        exact ⟨rest, by rw [hz, hrest]; rfl, hbirth⟩

end

/-- A record is stored under an id that had none only by its insertion. -/
theorem Outcome.bears {s s' : Store} {x : Exchange} (h : Outcome s x s') {id : String} {r : Instance}
    (hnone : s.records.get? id = none) (hr : s'.records.get? id = some r) : x.Bears id := by
  cases h with
  | inserted i _ hnew hs =>
    rw [hs, Dict.get?_insert] at hr
    by_cases hid : i.id = id
    · exact congrArg some hid
    · rw [if_neg hid, hnone] at hr
      cases hr
  | updated i before _ hb ht hv hs =>
    rw [hs, Dict.get?_insert] at hr
    by_cases hid : i.id = id
    · rw [hid, hnone] at hb
      cases hb
    · rw [if_neg hid, hnone] at hr
      cases hr
  | removed tenant id' before _ hb ht hs =>
    rw [hs] at hr
    rw [Dict.get?_of_erase hr] at hnone
    cases hnone
  | kept _ hw hremoval hx =>
    rw [hnone] at hr
    cases hr

/-- A record that is shown by its id is stored then. -/
theorem Outcome.get?_of_sight {s s' : Store} {x : Exchange} (h : Outcome s x s') {r : Instance}
    (hr : x.sight = some r) : s'.records.get? r.id = some r := by
  cases h with
  | inserted i _ hnew hs =>
    cases hr
    rw [hs, Dict.get?_insert, if_pos rfl]
  | updated i before _ hb ht hv hs =>
    cases hr
    rw [hs, Dict.get?_insert, if_pos rfl]
  | removed tenant id before _ hb ht hs => cases hr
  | kept _ hw hremoval hx => exact hx r hr

/-! ## What a store tells of a version -/

section

variable {s : Store} {outside : (c : Call) → c.Answer} {c : Call} {id : String} {v : UInt64}

/-- An accepted change carried the version that was stored. -/
theorem stored_of_carried
    (h : (Exchange.mk c (serveStore outside s c).1).carried id = some v) :
    ∃ r, s.records.get? id = some r ∧ r.version = v := by
  obtain ⟨i, version, hx, rfl, rfl⟩ := Exchange.carried_eq_some h
  obtain ⟨rfl, hanswer⟩ := Exchange.mk.inj hx
  have hanswer := eq_of_heq hanswer
  simp only [serveStore] at hanswer
  cases hu : s.update i with
  | error f =>
    rw [hu] at hanswer
    cases hanswer
  | ok a =>
    obtain ⟨stored, hget, -, hversion, -⟩ := Store.update_eq_ok hu
    exact ⟨stored, hget, hversion⟩

/-- The version that is told of a record is the one that is stored then. -/
theorem stored_of_tells (hs : s.Indexed)
    (h : (Exchange.mk c (serveStore outside s c).1).Tells id v) :
    ∃ r, (serveStore outside s c).2.records.get? id = some r ∧ r.version = v := by
  obtain ⟨r, rfl, rfl, hsight | ⟨tenant, slug, hx⟩ | ⟨tenant, q, page, hx, hr⟩⟩ := h.cases
  · exact ⟨r, (serve_outcome hs.filed outside c).get?_of_sight hsight, rfl⟩
  · obtain ⟨rfl, hanswer⟩ := Exchange.mk.inj hx
    have hfound : s.findBySlug tenant slug = .ok r := eq_of_heq hanswer
    obtain ⟨hfind, -⟩ := hs.findBySlug_eq_ok_iff.1 hfound
    exact ⟨r, (Store.find_eq_ok_iff.1 hfind).1, rfl⟩
  · obtain ⟨rfl, hanswer⟩ := Exchange.mk.inj hx
    have hpage : s.list tenant q = .ok page := eq_of_heq hanswer
    obtain ⟨hfind, -⟩ := (Store.mem_select hs.filed).1 (Query.mem_of_page hpage hr)
    exact ⟨r, (Store.find_eq_ok_iff.1 hfind).1, rfl⟩

end

namespace Ledger

/-! ## Versions in a ledger -/

theorem after_concat (calls : List Call) (c : Call) :
    after (calls ++ [c]) = (after calls).ask c := by
  unfold after
  rw [List.foldl_append]
  rfl

/-- What a ledger shows was asked and answered at a time of its own. -/
theorem earlier {calls : List Call} {later rest : List Exchange} {x : Exchange}
    (h : (after calls).log = later ++ x :: rest) : ∃ before c, (after before).log = rest ∧
      x = ⟨c, (serveStore willing (after before).store c).1⟩ := by
  have hall : (∃ calls', after calls = after calls') ∧
      ∀ later x rest, (after calls).log = later ++ x :: rest → ∃ before c,
        (after before).log = rest ∧
          x = ⟨c, (serveStore willing (after before).store c).1⟩ := by
    refine induct (P := fun l => (∃ calls', l = after calls') ∧
      ∀ later x rest, l.log = later ++ x :: rest → ∃ before c, (after before).log = rest ∧
        x = ⟨c, (serveStore willing (after before).store c).1⟩) ⟨⟨[], rfl⟩, ?_⟩ ?_ calls
    · intro later x rest hlog
      cases later <;> cases hlog
    · rintro l c ⟨⟨calls', rfl⟩, ih⟩
      refine ⟨⟨calls' ++ [c], (after_concat _ _).symm⟩, fun later x rest hlog => ?_⟩
      cases later with
      | nil =>
        obtain ⟨hx, hrest⟩ := List.cons.inj hlog
        exact ⟨calls', c, hrest, hx.symm⟩
      | cons y later => exact ih later x rest (List.cons.inj hlog).2
  exact hall.2 later x rest h

/-- Whether the stored version of an id is the one after the changes since its insertion. -/
def Counts (l : Ledger) (id : String) : Prop :=
  ∀ r, l.store.records.get? id = some r → r.version = versionAt id (sinceBirth id l.log)

/-- An exchange that neither inserts nor changes the record of an id leaves its version to be told. -/
theorem Counts.of_kept {l l' : Ledger} {id : String} {x : Exchange} (h : l.Counts id)
    (hlog : l'.log = x :: l.log) (hborn : ¬ x.Bears id) (hcarried : x.carried id = none)
    (hsub : ∀ r, l'.store.records.get? id = some r → l.store.records.get? id = some r) :
    l'.Counts id := by
  intro r hr
  rw [hlog, sinceBirth_of_not_bears hborn, versionAt_cons_of_none hcarried]
  exact h r (hsub r hr)

theorem Counts.of_outcome {l l' : Ledger} {id : String} {x : Exchange} (h : l.Counts id)
    (hlog : l'.log = x :: l.log) (hx : Outcome l.store x l'.store) : l'.Counts id := by
  generalize hs : l'.store = s at hx
  cases hx with
  | inserted i _ hnew hrecords =>
    by_cases hid : i.id = id
    · have hborn : (Exchange.mk (.insert i) (.ok 1)).Bears id := congrArg some hid
      intro r hr
      rw [hs, hrecords, Dict.get?_insert, if_pos hid] at hr
      cases hr
      rw [hlog, sinceBirth_of_bears hborn]
      rfl
    · refine h.of_kept hlog (fun hborn => hid (Option.some.inj hborn)) rfl fun r hr => ?_
      rw [hs, hrecords, Dict.get?_insert, if_neg hid] at hr
      exact hr
  | updated i before _ hb ht hv hrecords =>
    by_cases hid : i.id = id
    · have hcarried : (Exchange.mk (.update i) (.ok (i.version + 1))).carried id =
          some i.version := if_pos hid
      intro r hr
      rw [hs, hrecords, Dict.get?_insert, if_pos hid] at hr
      cases hr
      rw [hlog, sinceBirth_of_not_bears (Exchange.not_bears_of_carried hcarried),
        versionAt_cons_of_some hcarried, ← h before (hid ▸ hb), hv]
    · refine h.of_kept hlog (fun hborn => by cases hborn) (if_neg hid) fun r hr => ?_
      rw [hs, hrecords, Dict.get?_insert, if_neg hid] at hr
      exact hr
  | removed tenant id' before _ hb ht hrecords =>
    refine h.of_kept hlog (fun hborn => by cases hborn) rfl fun r hr => ?_
    rw [hs, hrecords] at hr
    exact Dict.get?_of_erase hr
  | kept _ hwritten hremoval hsight =>
    have hborn : ¬ x.Bears id := by
      unfold Exchange.Bears
      rw [Exchange.birth_eq_none hwritten]
      simp
    have hcarried : x.carried id = none := by
      cases hc : x.carried id with
      | none => rfl
      | some v =>
        obtain ⟨i, version, rfl, -⟩ := Exchange.carried_eq_some hc
        cases hwritten
    exact h.of_kept hlog hborn hcarried fun r hr => hs ▸ hr

theorem counts (calls : List Call) (id : String) : (after calls).Counts id := by
  have hboth : (after calls).store.Filed ∧ (after calls).Counts id := by
    refine induct (P := fun l => l.store.Filed ∧ l.Counts id) ⟨Store.indexed_empty.filed, ?_⟩
      (fun l c h => ?_) calls
    · intro r hr
      cases hr
    · have houtcome := serve_outcome h.1 willing c
      exact ⟨houtcome.filed h.1, h.2.of_outcome rfl houtcome⟩
  exact hboth.2

section

variable {calls : List Call} {id : String} {later before : List Exchange} {x : Exchange} {v : UInt64}

/-- The version that an accepted change carried is that after the changes before it. -/
theorem carried_eq (h : sinceBirth id (after calls).log = later ++ x :: before)
    (hv : x.carried id = some v) : v = versionAt id before := by
  obtain ⟨rest, hlog, hsince⟩ := sinceBirth_eq_append h
  rw [sinceBirth_of_not_bears (Exchange.not_bears_of_carried hv)] at hsince
  obtain ⟨calls', c, rfl, rfl⟩ := earlier hlog
  obtain ⟨r, hr, rfl⟩ := stored_of_carried hv
  rw [counts calls' id r hr, (List.cons.inj hsince).2]

/-- The version that was told is that after the changes up to then. -/
theorem told_eq (h : sinceBirth id (after calls).log = later ++ x :: before)
    (hv : x.Tells id v) : v = versionAt id (x :: before) := by
  obtain ⟨rest, hlog, hsince⟩ := sinceBirth_eq_append h
  obtain ⟨calls', c, rfl, rfl⟩ := earlier hlog
  obtain ⟨r, hr, rfl⟩ := stored_of_tells (indexed calls') hv
  have hcounts := counts (calls' ++ [c]) id
  rw [after_concat] at hcounts
  rw [hcounts r hr, ← hsince]
  rfl

end

/-- Under an id that was never inserted there is no record. -/
theorem get?_of_unborn {calls : List Call} {id : String}
    (h : ∀ x ∈ (after calls).log, ¬ x.Bears id) : (after calls).store.records.get? id = none := by
  have hboth : (after calls).store.Filed ∧ ((∀ x ∈ (after calls).log, ¬ x.Bears id) →
      (after calls).store.records.get? id = none) := by
    refine induct (P := fun l => l.store.Filed ∧ ((∀ x ∈ l.log, ¬ x.Bears id) →
      l.store.records.get? id = none)) ⟨Store.indexed_empty.filed, fun _ => rfl⟩ (fun l c ih => ?_) calls
    have houtcome := serve_outcome ih.1 willing c
    refine ⟨houtcome.filed ih.1, fun hunborn => ?_⟩
    have hnone := ih.2 fun x hx => hunborn x (List.mem_cons_of_mem _ hx)
    have hnew := hunborn _ List.mem_cons_self
    cases hget : (l.ask c).store.records.get? id with
    | none => rfl
    | some r => exact absurd (houtcome.bears hnone hget) hnew
  exact hboth.2 h

/-- Nothing is changed that was not inserted. -/
theorem changes_of_unborn {calls : List Call} {id : String} {later before : List Exchange}
    (h : (after calls).log = later ++ before) (hunborn : ∀ x ∈ before, ¬ x.Bears id) :
    changes id before = [] := by
  refine List.eq_nil_iff_forall_not_mem.2 fun v hv => ?_
  obtain ⟨later', x, rest, rfl, hcarried⟩ := mem_changes.1 hv
  rw [← List.append_assoc] at h
  obtain ⟨calls', c, rfl, rfl⟩ := earlier h
  obtain ⟨r, hr, -⟩ := stored_of_carried hcarried
  have hnone : (after calls').store.records.get? id = none := by
    refine get?_of_unborn fun y hy => hunborn y ?_
    exact List.mem_append_right _ (List.mem_cons_of_mem _ hy)
  rw [hnone] at hr
  cases hr

section

variable {calls : List Call} {id : String}

/-- A change that carries the version of an earlier time is the first since then. -/
theorem changes_since {later between earlier : List Exchange} {x : Exchange} {v : UInt64}
    (hfew : (changes id (sinceBirth id (after calls).log)).length < UInt64.size)
    (h : sinceBirth id (after calls).log = later ++ x :: (between ++ earlier))
    (hx : x.carried id = some v) (hv : v = versionAt id earlier) : changes id between = [] := by
  have hsame : versionAt id (between ++ earlier) = versionAt id earlier :=
    (carried_eq h hx).symm.trans hv
  rw [h, changes_append, changes_cons_of_some hx, changes_append] at hfew
  simp only [List.length_append, List.length_cons] at hfew
  have hlength := versionAt_inj (by rw [changes_append, List.length_append]; omega) (by omega) hsame
  rw [changes_append, List.length_append] at hlength
  exact List.length_eq_zero_iff.1 (by omega)

/-- No two accepted changes of a record carried the same version. -/
theorem nodup_changes
    (hfew : (changes id (sinceBirth id (after calls).log)).length < UInt64.size) :
    (changes id (sinceBirth id (after calls).log)).Nodup := by
  -- Over the earlier part of the log; what came later stands for the time it is looked at.
  have hgo : ∀ later log, sinceBirth id (after calls).log = later ++ log →
      (changes id log).Nodup := by
    intro later log
    induction log generalizing later with
    | nil => exact fun _ => List.nodup_nil
    | cons x log ih =>
      intro h
      have hrest := ih (later ++ [x]) (by rw [h]; simp)
      cases hx : x.carried id with
      | none =>
        rw [changes_cons_of_none hx]
        exact hrest
      | some v =>
        rw [changes_cons_of_some hx]
        refine List.nodup_cons.2 ⟨fun hv => ?_, hrest⟩
        -- The version was that of the time before another change, which would be one since then.
        obtain ⟨between, y, before, rfl, hy⟩ := mem_changes.1 hv
        have hearlier : sinceBirth id (after calls).log = (later ++ x :: between) ++ y :: before := by
          rw [h]
          simp
        have hsplit : sinceBirth id (after calls).log =
            later ++ x :: ((between ++ [y]) ++ before) := by
          rw [h]
          simp
        have hnone := changes_since hfew hsplit hx (carried_eq hearlier hy)
        rw [changes_append, changes_cons_of_some hy] at hnone
        exact absurd hnone (by simp)
  exact hgo [] _ rfl

/-- A change that carries a version that was told before is the first since then. -/
theorem changes_between {later between earlier : List Exchange} {x y : Exchange} {v : UInt64}
    (hfew : (changes id (sinceBirth id (after calls).log)).length < UInt64.size)
    (h : sinceBirth id (after calls).log = later ++ x :: between ++ y :: earlier)
    (hx : x.carried id = some v) (hy : y.Tells id v) : changes id between = [] := by
  have hsplit : sinceBirth id (after calls).log = later ++ x :: (between ++ y :: earlier) := by
    rw [h]
    simp
  exact changes_since hfew hsplit hx (told_eq h hy)

end

/-- While the record of an id is changed fewer than 2^64 times after its insertion, its version is one
more than the number of accepted changes, as a word of 64 bits and but for the very last as a number,
whatever version it was inserted with. No two of these carried
the same version, and one that carries a version that was told after the insertion, by a reading, a
change or the insertion itself, is the first change since. Before the only insertion of an id nothing is
changed. And a change by the owner at the current version is accepted when the slug is the stored one or
free. -/
theorem versions_count_changes (calls : List Call) (id : String)
    (hfew : (changes id (sinceBirth id (after calls).log)).length < UInt64.size) :
    (∀ r, (after calls).store.records.get? id = some r →
      r.version = 1 + .ofNat (changes id (sinceBirth id (after calls).log)).length ∧
      ((changes id (sinceBirth id (after calls).log)).length + 1 < UInt64.size →
        r.version.toNat = 1 + (changes id (sinceBirth id (after calls).log)).length)) ∧
    (changes id (sinceBirth id (after calls).log)).Nodup ∧
    (∀ later x between y earlier v,
      sinceBirth id (after calls).log = later ++ x :: between ++ y :: earlier →
      x.carried id = some v → y.Tells id v → changes id between = []) ∧
    (∀ before, (after calls).log = sinceBirth id (after calls).log ++ before →
      (∀ x ∈ before, ¬ x.Bears id) → changes id before = []) ∧
    ∀ i r, (after calls).store.records.get? i.id = some r → r.tenant = i.tenant →
      r.version = i.version →
      (r.slug = i.slug ∨ ∀ other r', (after calls).store.records.get? other = some r' →
        r'.tenant = i.tenant → r'.slug ≠ i.slug) →
      ∃ s, (after calls).store.update i = .ok (r.version + 1, s) ∧
        s.records.get? i.id = some { i with version := r.version + 1 } := by
  refine ⟨fun r hr => ?_, nodup_changes hfew, fun later x between y earlier v => changes_between hfew,
    fun before => changes_of_unborn, fun i r hget htenant hversion =>
      (indexed calls).update_of_current hget htenant hversion⟩
  have hversion := counts calls id r hr
  refine ⟨hversion, fun hroom => ?_⟩
  rw [hversion, versionAt, UInt64.toNat_add, UInt64.toNat_one, UInt64.toNat_ofNat_of_lt' hfew]
  apply Nat.mod_eq_of_lt
  show 1 + _ < UInt64.size
  omega

/-- Two clients have read one record. The first to change it is taken, the other is refused and changes
what it reads then. -/
def contested : List Call :=
  [.insert { recordOf "inst_1" "acme" "Web" with version := 7 }, .find "acme" "inst_1",
    .update { recordOf "inst_1" "acme" "Web" with version := 1 },
    .update { recordOf "inst_1" "acme" "Shop" with version := 1 }, .findBySlug "acme" "web",
    .update { recordOf "inst_1" "acme" "Shop" with version := 2 }]

theorem versions_count_changes_contested :
    (changes "inst_1" (sinceBirth "inst_1" (after contested).log)).length < UInt64.size ∧
      changes "inst_1" (sinceBirth "inst_1" (after contested).log) = [2, 1] ∧
      (changes "inst_1" (sinceBirth "inst_1" (after contested).log)).Nodup ∧
      ∃ r s, (after contested).store.records.get? "inst_1" = some r ∧ r.version.toNat = 1 + 2 ∧
        (after contested).store.update r = .ok (r.version + 1, s) := by
  have hchanges : changes "inst_1" (sinceBirth "inst_1" (after contested).log) = [2, 1] := by
    decide +kernel
  have hfew : (changes "inst_1" (sinceBirth "inst_1" (after contested).log)).length <
      UInt64.size := by
    rw [hchanges]
    decide
  have hget : (after contested).store.records.get? "inst_1" =
      some { recordOf "inst_1" "acme" "Shop" with version := 3 } := by
    decide +kernel
  obtain ⟨hversion, hnodup, -, -, hcurrent⟩ := versions_count_changes contested "inst_1" hfew
  have hcount := (hversion _ hget).2
  rw [hchanges] at hcount
  obtain ⟨s, hs, -⟩ := hcurrent { recordOf "inst_1" "acme" "Shop" with version := 3 } _ hget rfl rfl
    (.inl rfl)
  exact ⟨hfew, hchanges, hnodup, _, s, hget, hcount (by decide), hs⟩

end Ledger

end Service

end Fleet
