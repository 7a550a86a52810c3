import Fleet.Proofs.Provenance

/-!
# Nothing is overwritten unseen

The version of a stored record counts the writes to it, and who saw a record in that version saw the
record that is stored (`Current`). So a change that the store accepts replaces the very record that
its writer saw last, one version up and in the fields of its request only (`no_update_is_lost`). -/

namespace Fleet.Service

theorem Exchange.sight_of_written {x : Exchange} {r : Instance} (h : x.written = some r) :
    x.sight = some r := by
  unfold written at h
  split at h
  · exact h
  · exact h
  · cases h

/-- A change that a request may make keeps the version. -/
theorem Request.version_of_touches {q : Request} {before after : Instance}
    (h : q.Touches before after) : after.version = before.version := by
  cases q with
  | create r =>
    rcases h with ⟨providerRef, endpoints, rfl⟩ | ⟨-, rfl⟩ <;> rfl
  | update id r =>
    obtain ⟨name, slug, env, labels, rfl⟩ := h
    rfl
  | suspend id reason | unsuspend id =>
    obtain ⟨state, suspendedAt, rfl⟩ := h
    rfl
  | scale id r | start id | stop id | restart id | delete id =>
    obtain ⟨_, rfl⟩ := h
    rfl
  | get id | getBySlug slug | list query => exact h.elim

namespace Config

variable {c c' : Config Store}

/-- How often a record was stored under an id. -/
def writes {W : Type} (c : Config W) (id : String) : Nat :=
  c.log.countP fun e => e.exchange.written.map (·.id) = some id

theorem writes_cons {k : Nat} {x : Exchange} (hlog : c'.log = ⟨k, x⟩ :: c.log) (id : String) :
    c'.writes id = c.writes id + if x.written.map (·.id) = some id then 1 else 0 := by
  simp [writes, hlog, List.countP_cons]

theorem writes_mono (h : c.log <:+ c'.log) (id : String) : c.writes id ≤ c'.writes id :=
  h.sublist.countP_le

theorem writes_lt_of_step {m : Move .ofStore} (hs : c.step .ofStore m = some c')
    (hbound : ∀ id, c'.writes id < UInt64.size) (id : String) : c.writes id < UInt64.size :=
  Nat.lt_of_le_of_lt (writes_mono (log_suffix_of_step hs) id) (hbound id)

theorem writes_le_length (c : Config Store) (id : String) : c.writes id ≤ c.log.length :=
  List.countP_le_length

/-- The version of a stored record is the number of writes to it, and who saw it in that version saw
it as it is. -/
structure Current (c : Config Store) : Prop where
  counted : ∀ id r, c.world.records.get? id = some r → r.version.toNat = c.writes id
  latest : ∀ e ∈ c.log, ∀ r s, e.exchange.sight = some r → c.world.records.get? r.id = some s →
    r.version.toNat ≤ s.version.toNat ∧ (r.version = s.version → r = s)

theorem current_start : (start Store.empty).Current where
  counted := by simp [start, Store.empty]
  latest := by simp [start]

/-- A change that the store accepts replaces what its writer saw last. -/
theorem Current.view_eq (h : c.Current) {k : Nat} {i before seen edited : Instance}
    {q : Request} {now : Instant} (hview : view (c.past k) = some seen)
    (ht : q.Touches seen edited) (hi : i = edited.touch now)
    (hb : c.world.records.get? i.id = some before) (hv : before.version = i.version) :
    seen = before := by
  obtain ⟨e, he, hsight⟩ := view_past hview
  subst hi
  have hid : edited.id = seen.id := Request.id_of_touches ht
  have hversion : seen.version = before.version := by
    rw [hv]
    exact (Request.version_of_touches ht).symm
  change c.world.records.get? edited.id = some before at hb
  rw [hid] at hb
  exact (h.latest e he seen before hsight hb).2 hversion

/-- Before its first write an id has no writes. -/
theorem writes_eq_zero (hr : c.Rooted) {id : String} (hid : ∀ b, c.Born b → b.id ≠ id) :
    c.writes id = 0 := by
  rw [writes, List.countP_eq_zero]
  intro e he
  simp only [decide_eq_true_eq, Option.map_eq_some_iff, not_exists, not_and]
  intro r hw hrid
  obtain ⟨b, hb, hmark⟩ := hr.seen e he r (Exchange.sight_of_written hw)
  exact hid b hb ((Instance.id_eq_of_birthmark hmark).trans hrid)

theorem Current.insert (h : c.Current) (hr : c.Rooted) {k : Nat} {i : Instance}
    (hunborn : ∀ b, c.Born b → b.id ≠ i.id)
    (hs : c'.world.records = c.world.records.insert i.id { i with version := 1 })
    (hlog : c'.log = ⟨k, .insert i, .ok 1⟩ :: c.log) : c'.Current := by
  constructor
  · intro id r hget
    rw [writes_cons hlog]
    rw [hs, Dict.get?_insert] at hget
    by_cases hid : i.id = id
    · rw [if_pos hid] at hget
      cases hget
      rw [writes_eq_zero hr (hid ▸ hunborn), if_pos (by simp [Exchange.written, hid])]
      rfl
    · rw [if_neg hid] at hget
      rw [h.counted id r hget, if_neg (by simp [Exchange.written, hid])]
      rfl
  · intro e he r s hsight hget
    rw [hs, Dict.get?_insert] at hget
    rw [hlog] at he
    rcases List.mem_cons.1 he with rfl | he
    · have hr : { i with version := 1 } = r := Option.some.inj hsight
      subst hr
      rw [if_pos rfl] at hget
      cases hget
      exact ⟨Nat.le_refl _, fun _ => rfl⟩
    · have hid : i.id ≠ r.id := by
        intro hid
        obtain ⟨b, hb, hmark⟩ := hr.seen e he r hsight
        exact hunborn b hb ((Instance.id_eq_of_birthmark hmark).trans hid.symm)
      rw [if_neg hid] at hget
      exact h.latest e he r s hsight hget

theorem Current.update (h : c.Current) {k : Nat} {i before : Instance}
    (hb : c.world.records.get? i.id = some before) (hv : before.version = i.version)
    (hs : c'.world.records = c.world.records.insert i.id { i with version := i.version + 1 })
    (hlog : c'.log = ⟨k, .update i, .ok (i.version + 1)⟩ :: c.log)
    (hbound : c'.writes i.id < UInt64.size) : c'.Current := by
  have hwrites : c'.writes i.id = c.writes i.id + 1 := by
    rw [writes_cons hlog, if_pos (by simp [Exchange.written])]
  have hbefore : i.version.toNat = c.writes i.id := by
    rw [← hv]
    exact h.counted i.id before hb
  have hnext : (i.version + 1).toNat = i.version.toNat + 1 := by
    rw [UInt64.toNat_add, UInt64.toNat_one]
    apply Nat.mod_eq_of_lt
    show i.version.toNat + 1 < UInt64.size
    omega
  constructor
  · intro id r hget
    rw [hs, Dict.get?_insert] at hget
    by_cases hid : i.id = id
    · subst hid
      rw [if_pos rfl] at hget
      cases hget
      show (i.version + 1).toNat = c'.writes i.id
      omega
    · rw [if_neg hid] at hget
      rw [h.counted id r hget, writes_cons hlog, if_neg (by simp [Exchange.written, hid])]
      rfl
  · intro e he r s hsight hget
    rw [hs, Dict.get?_insert] at hget
    rw [hlog] at he
    rcases List.mem_cons.1 he with rfl | he
    · have hr : { i with version := i.version + 1 } = r := Option.some.inj hsight
      subst hr
      rw [if_pos rfl] at hget
      cases hget
      exact ⟨Nat.le_refl _, fun _ => rfl⟩
    · by_cases hid : i.id = r.id
      · rw [if_pos hid] at hget
        cases hget
        have hle := (h.latest e he r before hsight (hid ▸ hb)).1
        rw [hv] at hle
        have hlt : r.version.toNat < (i.version + 1).toNat := by omega
        exact ⟨Nat.le_of_lt hlt, fun heq => absurd (congrArg UInt64.toNat heq) (Nat.ne_of_lt hlt)⟩
      · rw [if_neg hid] at hget
        exact h.latest e he r s hsight hget

/-- Nothing is written, and what is seen is stored. -/
theorem Current.of_written (h : c.Current) {k : Nat} {x : Exchange} (hw : x.written = none)
    (hsub : ∀ id r, c'.world.records.get? id = some r → c.world.records.get? id = some r)
    (hseen : ∀ r, x.sight = some r → c.world.records.get? r.id = some r)
    (hlog : c'.log = ⟨k, x⟩ :: c.log) : c'.Current := by
  constructor
  · intro id r hget
    rw [h.counted id r (hsub id r hget), writes_cons hlog, hw]
    rfl
  · intro e he r s hsight hget
    have hold := hsub r.id s hget
    rw [hlog] at he
    rcases List.mem_cons.1 he with rfl | he
    · rw [hseen r hsight] at hold
      cases hold
      exact ⟨Nat.le_refl _, fun _ => rfl⟩
    · exact h.latest e he r s hsight hold

theorem Current.asks (h : c.Current) (hr : c.Rooted) (hc : c.Conducted) {k : Nat} {q : Request}
    {s : Stamp} {x : Exchange} (hk : c.asked k = some (q, s))
    (ha : q.Allows s (c.past k) x.call) (hx : Outcome c.world x c'.world)
    (hlog : c'.log = ⟨k, x⟩ :: c.log) (hbound : ∀ id, c'.writes id < UInt64.size) : c'.Current := by
  generalize hw : c'.world = w at hx
  cases hx with
  | inserted i _ hnew hs =>
    exact h.insert hr (fun b hb => hc.unborn hk ha hb) (hw ▸ hs) hlog
  | updated i before _ hb ht hv hs => exact h.update hb hv (hw ▸ hs) hlog (hbound i.id)
  | removed tenant id before _ hb ht hs =>
    refine h.of_written rfl (fun id' r hget => ?_) (fun r hsight => by cases hsight) hlog
    rw [hw, hs, Dict.get?_erase] at hget
    split at hget
    · cases hget
    · exact hget
  | kept _ hwritten hremoval hseen =>
    exact h.of_written hwritten (fun id r hget => hw ▸ hget) hseen hlog

theorem current_step {m : Move .ofStore} (h : c.Current) (hr : c.Rooted) (hc : c.Conducted)
    (hs : c.step .ofStore m = some c') (hbound : ∀ id, c'.writes id < UInt64.size) : c'.Current := by
  rcases outcome_of_step hc hr.filed hs with
    ⟨hlog, hworld, -⟩ | ⟨k, q, s, x, hk, ha, hx, hlog, -⟩
  · constructor
    · simpa only [writes, hlog, hworld] using h.counted
    · simpa only [hlog, hworld] using h.latest
  · exact h.asks hr hc hk ha hx hlog hbound

theorem current_of_reaches (h : Reaches .ofStore (start .empty) c)
    (hbound : ∀ id, c.writes id < UInt64.size) : c.Current := by
  refine h.induct (P := fun d => (∀ id, d.writes id < UInt64.size) → d.Current)
    (fun d m d' hd hcur hs hbound' => ?_) (fun _ => current_start) hbound
  have hbefore := writes_lt_of_step hs hbound'
  exact current_step (hcur hbefore) (rooted_of_reaches hd) (conducted_of_reaches hd) hs hbound'

/-- Each change that the store accepts replaces the very record that its writer saw last, and nothing
else: the version goes up by one, the change is dated, and the fields that the request may change are
changed. Whatever else is done then, the record keeps its birthmark. -/
theorem no_update_is_lost {m : Move .ofStore} (h : Reaches .ofStore (start .empty) c)
    (hs : c.step .ofStore m = some c') (hbound : ∀ id, c'.writes id < UInt64.size) :
    (∀ k i version, c'.log = ⟨k, .update i, .ok version⟩ :: c.log →
      ∃ q s before after, c.asked k = some (q, s) ∧ view (c.past k) = some before ∧
        c.world.records.get? i.id = some before ∧ c'.world.records.get? i.id = some after ∧
        (∃ edited now, q.Touches before edited ∧ after = { edited.touch now with version }) ∧
        version.toNat = before.version.toNat + 1 ∧
        ∀ id, id ≠ i.id → c'.world.records.get? id = c.world.records.get? id) ∧
    ∀ d, Reaches .ofStore c' d → ∀ id r r', c'.world.records.get? id = some r →
      d.world.records.get? id = some r' → r'.birthmark = r.birthmark := by
  have hc := conducted_of_reaches h
  have hr := rooted_of_reaches h
  have hcur := current_of_reaches h (writes_lt_of_step hs hbound)
  have hcur' := current_of_reaches (h.step hs) hbound
  refine ⟨fun k i version hlog => ?_, fun d hd id r r' hget hget' =>
    birthmark_of_reaches (h.step hs) hd hget hget'⟩
  rcases outcome_of_step hc hr.filed hs with
    ⟨hsame, -⟩ | ⟨k', q, s, x, hk, ha, hx, hlog', -⟩
  · rw [hsame] at hlog
    exact absurd hlog.symm (List.cons_ne_self _ _)
  · rw [hlog'] at hlog
    cases hlog
    obtain ⟨seen, edited, now, hview, ht, -, hi⟩ := ha
    generalize hw : c'.world = w at hx
    cases hx with
    | updated _ before _ hb htenant hv hrecords =>
      obtain rfl := hcur.view_eq hview ht hi hb hv
      have hafter : c'.world.records.get? i.id = some { i with version := i.version + 1 } := by
        rw [hw, hrecords, Dict.get?_insert, if_pos rfl]
      refine ⟨q, s, seen, { i with version := i.version + 1 }, hk, hview, hb, hw ▸ hafter,
        ⟨edited, now, ht, ?_⟩, ?_, ?_⟩
      · rw [hi]
      · have hcount := hcur'.counted i.id _ hafter
        simp only at hcount
        rw [hcount, hcur.counted i.id seen hb, writes_cons hlog',
          if_pos (by simp [Exchange.written])]
      · intro id hid
        rw [hrecords, Dict.get?_insert, if_neg (Ne.symm hid)]
    | kept _ hwritten hremoval hsight => cases hwritten

/-- An instance is relabelled while somebody is about to start it. -/
def relabelling : Config Store :=
  ((start .empty).run .ofStore (creation willing 0 "inst_1" "evt_1" "Web" ++
    [asking "inst_2" "evt_2" (.start "inst_1"),
      asking "inst_3" "evt_3" (.update "inst_1" { labels := some (.ofList [("tier", "front")]) }),
      .answer 1 willing, .answer 1 willing, .answer 2 willing])).get (by decide +kernel)

/-- The new labels are stored. -/
def relabelled : Config Store :=
  (relabelling.step .ofStore (.answer 2 willing)).get (by decide +kernel)

theorem no_update_is_lost_relabelled :
    Reaches .ofStore (start .empty) relabelling ∧
      relabelling.step .ofStore (.answer 2 willing) = some relabelled ∧
      (∀ id, relabelled.writes id < UInt64.size) ∧
      ∃ before after, relabelling.world.records.get? "inst_1" = some before ∧
        relabelled.world.records.get? "inst_1" = some after ∧
        view (relabelling.past 2) = some before ∧
        after.version.toNat = before.version.toNat + 1 ∧ after.birthmark = before.birthmark := by
  have hreach : Reaches .ofStore (start .empty) relabelling := ⟨_, (Option.some_get _).symm⟩
  have hs : relabelling.step .ofStore (.answer 2 willing) = some relabelled :=
    (Option.some_get _).symm
  have hbound : ∀ id, relabelled.writes id < UInt64.size := fun id =>
    Nat.lt_of_le_of_lt (writes_le_length _ id) (by decide +kernel)
  obtain ⟨q, s, before, after, -, hview, hb, ha, ⟨edited, now, ht, hafter⟩, hversion, -⟩ :=
    (no_update_is_lost hreach hs hbound).1 2 _ _ rfl
  have hmark : edited.birthmark = before.birthmark := Request.birthmark_of_touches ht
  subst hafter
  exact ⟨hreach, hs, hbound, before, _, hb, ha, hview, hversion, hmark⟩

end Config

end Fleet.Service
