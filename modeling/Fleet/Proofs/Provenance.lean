import Fleet.Proofs.Turn

/-!
# Where records come from

A call of the store that changes it does one of three things (`Outcome`): it inserts a record under an
id that has none, it puts a record in the place of the one with its version, or it removes one.
Along a run every record that is stored, or that an operation has seen, goes back to the one insertion
under its id (`Rooted`), and keeps the birthmark that it got there (`birthmark_of_reaches`). -/

namespace Fleet

/-- Whether every record is kept under its own id. -/
def Store.Filed (s : Store) : Prop := ∀ id r, s.records.get? id = some r → r.id = id

/-- What stays of a record from its insertion on. -/
structure Birthmark where
  id : String
  tenant : String
  provider : String
  region : String
  image : String
  ports : List Port
  createdAt : Instant

def Instance.birthmark (i : Instance) : Birthmark :=
  { id := i.id, tenant := i.tenant, provider := i.provider, region := i.region, image := i.image
    ports := i.ports, createdAt := i.createdAt }

theorem Instance.id_eq_of_birthmark {a b : Instance} (h : a.birthmark = b.birthmark) : a.id = b.id :=
  congrArg Birthmark.id h

namespace Service

/-! ## What a call does to a store -/

/-- A store before an exchange, the exchange, and the store after it. -/
inductive Outcome (s : Store) : Exchange → Store → Prop
  | inserted (i : Instance) (s' : Store) (hnew : s.records.get? i.id = none)
      (hs : s'.records = s.records.insert i.id { i with version := 1 }) :
      Outcome s ⟨.insert i, .ok 1⟩ s'
  | updated (i before : Instance) (s' : Store) (hb : s.records.get? i.id = some before)
      (ht : before.tenant = i.tenant) (hv : before.version = i.version)
      (hs : s'.records = s.records.insert i.id { i with version := i.version + 1 }) :
      Outcome s ⟨.update i, .ok (i.version + 1)⟩ s'
  | removed (tenant id : String) (before : Instance) (s' : Store)
      (hb : s.records.get? id = some before) (ht : before.tenant = tenant)
      (hs : s'.records = s.records.erase id) : Outcome s ⟨.delete tenant id, .ok ()⟩ s'
  | kept (x : Exchange) (hw : x.written = none) (hr : x.removal = none)
      (hx : ∀ r, x.sight = some r → s.records.get? r.id = some r) : Outcome s x s

theorem serve_outcome {s : Store} (hf : s.Filed) (outside : (c : Call) → c.Answer) (c : Call) :
    Outcome s ⟨c, (serveStore outside s c).1⟩ (serveStore outside s c).2 := by
  cases c with
  | insert i =>
    simp only [serveStore]
    cases h : s.insert i with
    | error f => exact .kept _ rfl rfl (by simp [Exchange.sight])
    | ok r =>
      obtain ⟨version, s'⟩ := r
      obtain ⟨hnew, -, rfl, rfl⟩ := Store.insert_eq_ok_iff.1 h
      exact .inserted i _ (by simpa [Dict.contains] using hnew) rfl
  | update i =>
    simp only [serveStore]
    cases h : s.update i with
    | error f => exact .kept _ rfl rfl (by simp [Exchange.sight])
    | ok r =>
      obtain ⟨version, s'⟩ := r
      obtain ⟨stored, hget, htenant, hversion, rfl, rfl⟩ := Store.update_eq_ok h
      rw [hversion]
      exact .updated i stored _ hget htenant hversion rfl
  | delete tenant id =>
    simp only [serveStore]
    cases h : s.delete tenant id with
    | error f => exact .kept _ rfl rfl (by simp [Exchange.sight])
    | ok s' =>
      obtain ⟨stored, hget, htenant, rfl⟩ := Store.delete_eq_ok h
      exact .removed tenant id stored _ hget htenant rfl
  | find tenant id =>
    refine .kept _ rfl rfl fun r hr => ?_
    have hfind : s.find tenant id = .ok r := by
      simp only [serveStore] at hr
      cases h : s.find tenant id with
      | error f => simp [h, Exchange.sight] at hr
      | ok r' => simpa [h, Exchange.sight] using hr
    have hget := (Store.find_eq_ok_iff.1 hfind).1
    rw [hf id r hget]
    exact hget
  | _ => exact .kept _ rfl rfl (by simp [Exchange.sight])

theorem Outcome.filed {s s' : Store} {x : Exchange} (h : Outcome s x s') (hf : s.Filed) :
    s'.Filed := by
  intro id r hr
  cases h with
  | inserted i _ hnew hs =>
    rw [hs, Dict.get?_insert] at hr
    split at hr
    · cases hr
      assumption
    · exact hf id r hr
  | updated i before _ hb ht hv hs =>
    rw [hs, Dict.get?_insert] at hr
    split at hr
    · cases hr
      assumption
    · exact hf id r hr
  | removed tenant id' before _ hb ht hs =>
    rw [hs, Dict.get?_erase] at hr
    split at hr
    · cases hr
    · exact hf id r hr
  | kept _ hw hr' hx => exact hf id r hr

/-- A record that stays is as it was, or is the one that the call stores in its place. -/
theorem Outcome.of_stays {s s' : Store} {x : Exchange} (h : Outcome s x s') {id : String}
    {before after : Instance} (hb : s.records.get? id = some before)
    (ha : s'.records.get? id = some after) :
    after = before ∨ ∃ i : Instance, x.call = .update i ∧ i.id = id ∧ before.version = i.version ∧
      after = { i with version := i.version + 1 } := by
  cases h with
  | inserted i _ hnew hs =>
    rw [hs, Dict.get?_insert, hb] at ha
    split at ha
    · rename_i hid
      rw [hid, hb] at hnew
      cases hnew
    · exact .inl (Option.some.inj ha).symm
  | updated i stored _ hstored ht hv hs =>
    rw [hs, Dict.get?_insert, hb] at ha
    split at ha
    · rename_i hid
      rw [hid, hb] at hstored
      cases hstored
      exact .inr ⟨i, rfl, hid, hv, (Option.some.inj ha).symm⟩
    · exact .inl (Option.some.inj ha).symm
  | removed tenant id' stored _ hstored ht hs =>
    rw [hs, Dict.get?_erase, hb] at ha
    split at ha
    · cases ha
    · exact .inl (Option.some.inj ha).symm
  | kept _ hw hr hx =>
    rw [hb] at ha
    exact .inl (Option.some.inj ha).symm

/-- A record goes by a call to remove it. -/
theorem Outcome.of_goes {s s' : Store} {x : Exchange} (h : Outcome s x s') {id : String}
    {before : Instance} (hb : s.records.get? id = some before)
    (hnone : s'.records.get? id = none) : ∃ tenant, x = ⟨.delete tenant id, .ok ()⟩ := by
  cases h with
  | inserted i _ hnew hs =>
    rw [hs, Dict.get?_insert, hb] at hnone
    split at hnone <;> cases hnone
  | updated i stored _ hstored ht hv hs =>
    rw [hs, Dict.get?_insert, hb] at hnone
    split at hnone <;> cases hnone
  | removed tenant id' stored _ hstored ht hs =>
    rw [hs, Dict.get?_erase, hb] at hnone
    split at hnone
    · rename_i hid
      exact ⟨tenant, by rw [hid]⟩
    · cases hnone
  | kept _ hw hr hx =>
    rw [hb] at hnone
    cases hnone

/-! ## Births -/

theorem Exchange.call_of_birth {x : Exchange} {b : Instance} (h : x.birth = some b) :
    ∃ i, x.call = .insert i ∧ i.id = b.id := by
  unfold birth at h
  split at h
  · cases h
    exact ⟨_, rfl, rfl⟩
  · cases h

theorem Exchange.birth_eq_none {x : Exchange} (h : x.written = none) : x.birth = none := by
  unfold birth
  split
  · cases h
  · rfl

/-- A change that a request may make keeps the birthmark. -/
theorem Request.birthmark_of_touches {q : Request} {before after : Instance}
    (h : q.Touches before after) : after.birthmark = before.birthmark := by
  cases q with
  | create r =>
    rcases h with ⟨providerRef, endpoints, rfl⟩ | ⟨-, rfl⟩ <;> rfl
  | update id r =>
    obtain ⟨name, slug, env, labels, rfl⟩ := h
    rfl
  | suspend id reason | unsuspend id =>
    obtain ⟨state, suspendedAt, rfl⟩ := h
    rfl
  | scale id r | start id | stop id | restart id | delete id =>
    obtain ⟨_, rfl⟩ := h
    rfl
  | get id | getBySlug slug | list query => exact h.elim

theorem Request.id_of_touches {q : Request} {before after : Instance}
    (h : q.Touches before after) : after.id = before.id :=
  Instance.id_eq_of_birthmark (birthmark_of_touches h)

namespace Config

variable {c c' : Config Store}

/-- Whether the record was stored as a new one. -/
def Born (c : Config Store) (b : Instance) : Prop := ∃ e ∈ c.log, e.exchange.birth = some b

theorem born_cons {k : Nat} {x : Exchange} (hlog : c'.log = ⟨k, x⟩ :: c.log) {b : Instance} :
    c'.Born b ↔ x.birth = some b ∨ c.Born b := by
  simp [Born, hlog]

/-- The id of a record about to be inserted has not been used. -/
theorem Conducted.unborn (hc : c.Conducted) {k : Nat} {q : Request} {s : Stamp} {i b : Instance}
    (hk : c.asked k = some (q, s)) (ha : q.Allows s (c.past k) (.insert i)) (hb : c.Born b) :
    b.id ≠ i.id := by
  intro hid
  obtain ⟨e, he, hb⟩ := hb
  obtain ⟨j, hj, hjid⟩ := Exchange.call_of_birth hb
  obtain ⟨q', s', hasked, hs'⟩ := hc.named e he j hj
  have hsame : s'.instanceId = s.instanceId := by
    rw [← hs', hjid, hid, ha.1]
  have hop : e.operation = k := hc.apart _ _ _ _ _ _ hasked hk hsame
  have hpast : e.exchange ∈ c.past k := mem_pastOf.2 (hop ▸ he)
  exact ha.2.2.2 _ hpast j hj

/-- Every record goes back to one insertion: records that are stored, that were seen, and that were
removed, whose ids stay without a record. -/
structure Rooted (c : Config Store) : Prop where
  filed : c.world.Filed
  unique : ∀ b b', c.Born b → c.Born b' → b.id = b'.id → b = b'
  stored : ∀ id r, c.world.records.get? id = some r → ∃ b, c.Born b ∧ b.birthmark = r.birthmark
  seen : ∀ e ∈ c.log, ∀ r, e.exchange.sight = some r → ∃ b, c.Born b ∧ b.birthmark = r.birthmark
  gone : ∀ e ∈ c.log, ∀ id, e.exchange.removal = some id →
    c.world.records.get? id = none ∧ ∃ b, c.Born b ∧ b.id = id

theorem rooted_start : (start Store.empty).Rooted where
  filed := by simp [Store.Filed, start, Store.empty]
  unique := by simp [Born, start]
  stored := by simp [start, Store.empty]
  seen := by simp [start]
  gone := by simp [start]

/-- A record that may be stored in place of another has the birthmark of a birth. -/
theorem Rooted.update (h : c.Rooted) {k : Nat} {q : Request} {s : Stamp} {i : Instance}
    (ha : q.Allows s (c.past k) (.update i)) : ∃ b, c.Born b ∧ b.birthmark = i.birthmark := by
  obtain ⟨seen, edited, now, hview, htouch, -, rfl⟩ := ha
  obtain ⟨e, he, hsight⟩ := view_past hview
  obtain ⟨b, hb, hmark⟩ := h.seen e he seen hsight
  exact ⟨b, hb, hmark.trans (Request.birthmark_of_touches htouch).symm⟩

/-- A call that inserts nothing adds no birth. -/
theorem Rooted.of_birth_eq_none (h : c.Rooted) {k : Nat} {x : Exchange}
    (hlog : c'.log = ⟨k, x⟩ :: c.log) (hb : x.birth = none) (hfiled : c'.world.Filed)
    (hstored : ∀ id r, c'.world.records.get? id = some r →
      ∃ b, c.Born b ∧ b.birthmark = r.birthmark)
    (hsight : ∀ r, x.sight = some r → ∃ b, c.Born b ∧ b.birthmark = r.birthmark)
    (hremoval : ∀ id, x.removal = some id →
      c'.world.records.get? id = none ∧ ∃ b, c.Born b ∧ b.id = id)
    (hnone : ∀ id, c.world.records.get? id = none → c'.world.records.get? id = none) :
    c'.Rooted := by
  have hborn : ∀ b, c'.Born b ↔ c.Born b := by
    intro b
    rw [born_cons hlog, hb]
    simp
  constructor
  · exact hfiled
  · simpa only [hborn] using h.unique
  · simpa only [hborn] using hstored
  · intro e he r hr
    simp only [hborn]
    rw [hlog] at he
    rcases List.mem_cons.1 he with rfl | he
    · exact hsight r hr
    · exact h.seen e he r hr
  · intro e he id hid
    simp only [hborn]
    rw [hlog] at he
    rcases List.mem_cons.1 he with rfl | he
    · exact hremoval id hid
    · obtain ⟨hgone, hb⟩ := h.gone e he id hid
      exact ⟨hnone id hgone, hb⟩

/-- A birth under an id that was not used. -/
theorem Rooted.of_birth (h : c.Rooted) {k : Nat} {x : Exchange} {b : Instance}
    (hlog : c'.log = ⟨k, x⟩ :: c.log) (hb : x.birth = some b) (hsight : x.sight = some b)
    (hremoval : x.removal = none) (hunborn : ∀ b', c.Born b' → b'.id ≠ b.id)
    (hfiled : c'.world.Filed)
    (hstored : ∀ id, c'.world.records.get? id
      = if b.id = id then some b else c.world.records.get? id) : c'.Rooted := by
  have hborn : ∀ b', c'.Born b' ↔ b = b' ∨ c.Born b' := by
    intro b'
    rw [born_cons hlog, hb, Option.some.injEq]
  have hold : ∀ r : Instance, (∃ b', c.Born b' ∧ b'.birthmark = r.birthmark) →
      ∃ b', c'.Born b' ∧ b'.birthmark = r.birthmark := by
    rintro r ⟨b', hb', hmark⟩
    exact ⟨b', (hborn b').2 (.inr hb'), hmark⟩
  have hnew : ∃ b', c'.Born b' ∧ b'.birthmark = b.birthmark := ⟨b, (hborn b).2 (.inl rfl), rfl⟩
  constructor
  · exact hfiled
  · intro b₁ b₂ h₁ h₂ hid
    rcases (hborn b₁).1 h₁ with rfl | h₁
    · rcases (hborn b₂).1 h₂ with rfl | h₂
      · rfl
      · exact absurd hid.symm (hunborn b₂ h₂)
    · rcases (hborn b₂).1 h₂ with rfl | h₂
      · exact absurd hid (hunborn b₁ h₁)
      · exact h.unique b₁ b₂ h₁ h₂ hid
  · intro id r hr
    rw [hstored] at hr
    split at hr
    · cases hr
      exact hnew
    · exact hold r (h.stored id r hr)
  · intro e he r hr
    rw [hlog] at he
    rcases List.mem_cons.1 he with rfl | he
    · rw [hsight] at hr
      cases hr
      exact hnew
    · exact hold r (h.seen e he r hr)
  · intro e he id hid
    rw [hlog] at he
    rcases List.mem_cons.1 he with rfl | he
    · rw [hremoval] at hid
      cases hid
    · obtain ⟨hgone, b', hb', hid'⟩ := h.gone e he id hid
      refine ⟨?_, b', (hborn b').2 (.inr hb'), hid'⟩
      rw [hstored, if_neg, hgone]
      intro hbid
      exact hunborn b' hb' (hid'.trans hbid.symm)

theorem Rooted.asks (h : c.Rooted) (hc : c.Conducted) {k : Nat} {q : Request} {s : Stamp}
    {x : Exchange} (hk : c.asked k = some (q, s)) (ha : q.Allows s (c.past k) x.call)
    (hx : Outcome c.world x c'.world) (hlog : c'.log = ⟨k, x⟩ :: c.log) : c'.Rooted := by
  have hfiled := hx.filed h.filed
  generalize hw : c'.world = w at hx hfiled
  cases hx with
  | inserted i _ hnew hs =>
    refine h.of_birth (b := { i with version := 1 }) hlog rfl rfl rfl ?_ (hw ▸ hfiled) ?_
    · exact fun b' hb' => hc.unborn hk ha hb'
    · intro id
      rw [hw, hs, Dict.get?_insert]
  | updated i before _ hb ht hv hs =>
    obtain ⟨b, hborn, hmark⟩ := h.update ha
    refine h.of_birth_eq_none hlog rfl (hw ▸ hfiled) ?_ ?_ ?_ ?_
    · intro id r hr
      rw [hw, hs, Dict.get?_insert] at hr
      split at hr
      · cases hr
        exact ⟨b, hborn, hmark⟩
      · exact h.stored id r hr
    · intro r hr
      cases hr
      exact ⟨b, hborn, hmark⟩
    · intro id hid
      cases hid
    · intro id hid
      rw [hw, hs, Dict.get?_insert, if_neg, hid]
      rintro rfl
      rw [hb] at hid
      cases hid
  | removed tenant id before _ hb ht hs =>
    refine h.of_birth_eq_none hlog rfl (hw ▸ hfiled) ?_ ?_ ?_ ?_
    · intro id' r hr
      rw [hw, hs, Dict.get?_erase] at hr
      split at hr
      · cases hr
      · exact h.stored id' r hr
    · intro r hr
      cases hr
    · intro id' hid
      cases hid
      obtain ⟨b, hborn, hmark⟩ := h.stored id before hb
      refine ⟨?_, b, hborn, (Instance.id_eq_of_birthmark hmark).trans (h.filed id before hb)⟩
      rw [hw, hs, Dict.get?_erase, if_pos rfl]
    · intro id' hid
      rw [hw, hs, Dict.get?_erase, hid, ite_self]
  | kept _ hwritten hremoval hsight =>
    refine h.of_birth_eq_none hlog ?_ (hw ▸ hfiled) ?_ ?_ ?_ ?_
    · exact Exchange.birth_eq_none hwritten
    · rw [hw]
      exact h.stored
    · intro r hr
      exact h.stored r.id r (hsight r hr)
    · intro id hid
      rw [hremoval] at hid
      cases hid
    · intro id hid
      rw [hw, hid]

/-! ## Along a run -/

/-- What a store does at a move: nothing, or what the outcome of an allowed call is. -/
theorem outcome_of_step {m : Move .ofStore} (hc : c.Conducted) (hf : c.world.Filed)
    (h : c.step .ofStore m = some c') :
    (c'.log = c.log ∧ c'.world = c.world ∧
        ∀ k q s, c'.asked k = some (q, s) → c.asked k = some (q, s) ∨ c.past k = []) ∨
      ∃ k q s x, c.asked k = some (q, s) ∧ q.Allows s (c.past k) x.call ∧
        Outcome c.world x c'.world ∧ c'.log = ⟨k, x⟩ :: c.log ∧ c'.asked = c.asked := by
  cases step_turn hc h with
  | quiet hlog hworld hasked =>
    refine .inl ⟨hlog, ?_, hasked⟩
    rcases hworld with hworld | ⟨d, -⟩
    · exact hworld
    · exact d.elim
  | asks k q s x o hk ha hserve hlog hasked =>
    refine .inr ⟨k, q, s, x, hk, ha, ?_, hlog, hasked⟩
    have houtcome := serve_outcome hf o x.call
    rw [show serveStore o c.world x.call = (x.answer, c'.world) from hserve] at houtcome
    exact houtcome

theorem rooted_step {m : Move .ofStore} (hc : c.Conducted) (hr : c.Rooted)
    (h : c.step .ofStore m = some c') : c'.Rooted := by
  rcases outcome_of_step hc hr.filed h with
    ⟨hlog, hworld, -⟩ | ⟨k, q, s, x, hk, ha, hx, hlog, -⟩
  · have hborn : c'.Born = c.Born := by
      funext b
      simp only [Born, hlog]
    constructor
    · exact hworld ▸ hr.filed
    · exact hborn ▸ hr.unique
    · exact hworld ▸ hborn ▸ hr.stored
    · exact hlog ▸ hborn ▸ hr.seen
    · exact hlog ▸ hworld ▸ hborn ▸ hr.gone
  · exact hr.asks hc hk ha hx hlog

theorem rooted_of_reaches (h : Reaches .ofStore (start .empty) c) : c.Rooted :=
  h.induct (fun _ _ _ hd hr hs => rooted_step (conducted_of_reaches hd) hr hs) rooted_start

/-- Of two records that are stored under one id, the later one has the birthmark of the other. -/
theorem Rooted.birthmark_eq (h : c.Rooted) (h' : c'.Rooted) (hlog : c.log <:+ c'.log) {id : String}
    {r r' : Instance} (hr : c.world.records.get? id = some r)
    (hr' : c'.world.records.get? id = some r') : r'.birthmark = r.birthmark := by
  obtain ⟨b, hb, hmark⟩ := h.stored id r hr
  obtain ⟨b', hb', hmark'⟩ := h'.stored id r' hr'
  have hborn : c'.Born b := by
    obtain ⟨e, he, hbirth⟩ := hb
    exact ⟨e, hlog.subset he, hbirth⟩
  have hid : b'.id = b.id := by
    rw [Instance.id_eq_of_birthmark hmark, Instance.id_eq_of_birthmark hmark', h.filed id r hr,
      h'.filed id r' hr']
  rw [← hmark, ← hmark', h'.unique b' b hb' hborn hid]

/-- A stored record has the birthmark of the record that was inserted under its id. -/
theorem Rooted.birthmark_of_insert (h : c.Rooted) {k : Nat} {i r : Instance} {version : UInt64}
    (he : ⟨k, .insert i, .ok version⟩ ∈ c.log) (hr : c.world.records.get? i.id = some r) :
    r.birthmark = i.birthmark := by
  have hborn : c.Born { i with version } := ⟨_, he, rfl⟩
  obtain ⟨b, hb, hmark⟩ := h.stored i.id r hr
  have hid : b.id = i.id := (Instance.id_eq_of_birthmark hmark).trans (h.filed i.id r hr)
  rw [← hmark, h.unique b _ hb hborn hid]
  rfl

theorem birthmark_of_reaches (h : Reaches .ofStore (start .empty) c)
    (h' : Reaches .ofStore c c') {id : String} {r r' : Instance}
    (hr : c.world.records.get? id = some r) (hr' : c'.world.records.get? id = some r') :
    r'.birthmark = r.birthmark :=
  (rooted_of_reaches h).birthmark_eq (rooted_of_reaches (h.trans h')) h'.log_suffix hr hr'

end Config

end Service

end Fleet
