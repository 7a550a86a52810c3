import Fleet.Proofs.Currency

/-!
# The announced state is a lock

An operation that starts, stops or deletes an instance announces that by a state, and holds the record
until it next stores or removes one. As long as all requests keep to the table of moves, no two
operations hold the same record, and what is held is stored in the state that was announced
(`Exclusive`). So nobody else changes the state meanwhile, and every change of a stored state is a
move of the table.

* `states_follow_table`: one move at a time.
* `announced_state_locks`: at every moment of a run. -/

namespace Fleet.Service

namespace Request

/-- Whether a request changes the state of a record only by the table of moves. -/
def keepsTable : Request → Bool
  | .restart _ | .suspend _ _ | .unsuspend _ => false
  | _ => true

theorem preState_cases {q : Request} {s : State} (h : q.preState = some s) :
    s = .starting ∨ s = .stopping ∨ s = .destroying := by
  cases q <;> simp_all [preState]

/-- No announced state leads to an announced state. -/
theorem canMove_preState {q q' : Request} {s s' : State} (h : q.preState = some s)
    (h' : q'.preState = some s') : s.canMove s' = false := by
  rcases preState_cases h with rfl | rfl | rfl <;>
    rcases preState_cases h' with rfl | rfl | rfl <;> decide

/-- The table has the move from an announced state to where the change leads, and to failure. -/
theorem canMove_settled {q : Request} {s t : State} (h : q.preState = some s)
    (ht : q.postState = some t ∨ t = .failed) : s.canMove t = true ∧ t ≠ s ∧ t ≠ .destroyed := by
  cases q <;> simp only [preState, postState, Option.some.injEq, reduceCtorEq, false_or] at h ht
  case delete id =>
    subst h ht
    decide
  all_goals
    subst h
    rcases ht with rfl | rfl <;> decide

/-- What a request that keeps to the table makes of the state that it saw. -/
theorem state_cases {q : Request} {past : List Exchange} {seen edited : Instance}
    (hq : q.keepsTable = true) (ht : q.Touches seen edited) (hs : q.Turns past seen edited.state) :
    (q.preState = none ∧ (edited.state = seen.state ∨
        seen.state = .provisioning ∧ edited.state = .failed)) ∨
      ∃ s, q.preState = some s ∧ ((edited.state = s ∧ seen.state.canMove s = true) ∨
        held q past = some seen ∧ (q.postState = some edited.state ∨ edited.state = .failed)) := by
  cases q with
  | create r =>
    rcases ht with ⟨providerRef, endpoints, rfl⟩ | ⟨hprov, rfl⟩
    · exact .inl ⟨rfl, .inl rfl⟩
    · exact .inl ⟨rfl, .inr ⟨hprov, rfl⟩⟩
  | update id r =>
    obtain ⟨name, slug, env, labels, rfl⟩ := ht
    exact .inl ⟨rfl, .inl rfl⟩
  | scale id r =>
    obtain ⟨resources, rfl⟩ := ht
    exact .inl ⟨rfl, .inl rfl⟩
  | start id | stop id | delete id => exact .inr ⟨_, rfl, hs _ rfl⟩
  | restart id | suspend id reason | unsuspend id => cases hq
  | get id | getBySlug slug | list query => exact ht.elim

end Request

/-- A call that stores nothing lets go at most. -/
theorem Exchange.grip_of_written {x : Exchange} (h : x.written = none) {s : State}
    {before : Option Instance} {r : Instance} (hr : x.grip s before = some r) :
    before = some r := by
  unfold grip at hr
  split at hr
  · cases h
  · cases hr
  · cases hr
  · exact hr

namespace Config

def holds {W : Type} (c : Config W) (k : Nat) : Option Instance :=
  (c.asked k).bind fun a => held a.1 (c.past k)

/-- Whether all requests so far keep to the table of moves. -/
def KeepsTable {W : Type} (c : Config W) : Prop := ∀ o ∈ c.operations, o.request.keepsTable = true

variable {c c' : Config Store}

theorem keepsTable_iff :
    c.KeepsTable ↔ ∀ k q s, c.asked k = some (q, s) → q.keepsTable = true := by
  constructor
  · intro h k q s hk
    simp only [asked, Option.map_eq_some_iff] at hk
    obtain ⟨o, ho, he⟩ := hk
    cases he
    exact h o (List.mem_of_getElem? ho)
  · intro h o ho
    obtain ⟨k, hk⟩ := List.mem_iff_getElem?.1 ho
    exact h k o.request o.stamp (by simp [asked, hk])

theorem holds_eq_some_iff {k : Nat} {r : Instance} : c.holds k = some r ↔
    ∃ q s t, c.asked k = some (q, s) ∧ q.preState = some t ∧ held q (c.past k) = some r := by
  unfold holds
  rw [Option.bind_eq_some_iff]
  constructor
  · rintro ⟨⟨q, s⟩, hk, hr⟩
    cases hq : q.preState with
    | none => simp [held_of_preState hq] at hr
    | some t => exact ⟨q, s, t, hk, hq, hr⟩
  · rintro ⟨q, s, t, hk, -, hr⟩
    exact ⟨(q, s), hk, hr⟩

/-- Operation `k` is between the write that announced its change, which stored `r`, and its next
attempt to change or to remove a record. -/
def Locks {W : Type} (c : Config W) (k : Nat) (r : Instance) : Prop :=
  ∃ q s t later i version before, c.asked k = some (q, s) ∧ q.preState = some t ∧
    c.past k = later ++ ⟨.update i, .ok version⟩ :: before ∧ i.state = t ∧ r = { i with version } ∧
    ∀ x ∈ later, ¬ x.Attempts

theorem locks_iff {k : Nat} {r : Instance} : c.Locks k r ↔ c.holds k = some r := by
  rw [holds_eq_some_iff]
  constructor
  · rintro ⟨q, s, t, later, i, version, before, hk, hpre, hpast⟩
    refine ⟨q, s, t, hk, hpre, ?_⟩
    rw [held, hpre, Option.bind_some, gripped_eq_some_iff]
    exact ⟨later, i, version, before, hpast⟩
  · rintro ⟨q, s, t, hk, hpre, hr⟩
    rw [held, hpre, Option.bind_some, gripped_eq_some_iff] at hr
    obtain ⟨later, i, version, before, hpast⟩ := hr
    exact ⟨q, s, t, later, i, version, before, hk, hpre, hpast⟩

theorem holds_cons_other {j k : Nat} {x : Exchange} (hlog : c'.log = ⟨k, x⟩ :: c.log)
    (hasked : c'.asked = c.asked) (hj : j ≠ k) : c'.holds j = c.holds j := by
  simp only [holds, past, hasked, hlog, pastOf_cons_other hj]

/-- What an operation holds after a call of its own. -/
theorem holds_cons_self {k : Nat} {x : Exchange} {q : Request} {s : Stamp}
    (hlog : c'.log = ⟨k, x⟩ :: c.log) (hasked : c'.asked = c.asked)
    (hk : c.asked k = some (q, s)) :
    c'.holds k = q.preState.bind fun t => x.grip t (c.holds k) := by
  simp only [holds, past, hasked, hlog, pastOf_cons_self, hk, Option.bind_some]
  cases hq : q.preState with
  | none => exact held_of_preState hq _
  | some t => exact held_cons hq _ _

/-- No record is held by two operations, each record that is held is stored in the state that was
announced, and none is stored as destroyed. -/
structure Exclusive (c : Config Store) : Prop where
  locked : ∀ k q s r, c.asked k = some (q, s) → c.holds k = some r →
    ∃ stored, c.world.records.get? r.id = some stored ∧ q.preState = some stored.state
  unique : ∀ j k r r', c.holds j = some r → c.holds k = some r' → r.id = r'.id → j = k
  alive : ∀ id r, c.world.records.get? id = some r → r.state ≠ .destroyed

theorem exclusive_start : (start Store.empty).Exclusive where
  locked := by simp [start, asked]
  unique := by simp [holds, start, asked]
  alive := by simp [start, Store.empty]

/-- Nothing is held anew, and what is held keeps its state. -/
theorem Exclusive.of_holds (h : c.Exclusive) (hasked : c'.asked = c.asked)
    (hsub : ∀ k r, c'.holds k = some r → c.holds k = some r)
    (hstate : ∀ k r before, c'.holds k = some r → c.world.records.get? r.id = some before →
      ∃ after, c'.world.records.get? r.id = some after ∧ after.state = before.state)
    (halive : ∀ id r, c'.world.records.get? id = some r → r.state ≠ .destroyed) :
    c'.Exclusive where
  locked := by
    intro k q s r hk hr
    rw [hasked] at hk
    obtain ⟨before, hbefore, hpre⟩ := h.locked k q s r hk (hsub k r hr)
    obtain ⟨after, hafter, heq⟩ := hstate k r before hr hbefore
    exact ⟨after, hafter, heq ▸ hpre⟩
  unique := fun j k r r' hj hk => h.unique j k r r' (hsub j r hj) (hsub k r' hk)
  alive := halive

/-- A record that nobody else holds is stored, and its writer holds nothing or just this record. -/
theorem Exclusive.of_free (h : c.Exclusive) {k : Nat} {x : Exchange} {q : Request} {s : Stamp}
    {i after : Instance} (hk : c.asked k = some (q, s)) (hasked : c'.asked = c.asked)
    (hlog : c'.log = ⟨k, x⟩ :: c.log)
    (hs : c'.world.records = c.world.records.insert i.id after)
    (hfree : ∀ j r, j ≠ k → c.holds j = some r → r.id ≠ i.id)
    (hself : ∀ r, c'.holds k = some r → r.id = i.id ∧ q.preState = some after.state)
    (halive : after.state ≠ .destroyed) : c'.Exclusive := by
  have hothers : ∀ j r, j ≠ k → c'.holds j = some r → c.holds j = some r ∧ r.id ≠ i.id := by
    intro j r hj hr
    rw [holds_cons_other hlog hasked hj] at hr
    exact ⟨hr, hfree j r hj hr⟩
  constructor
  · intro j q' s' r hj hr
    rw [hasked] at hj
    rw [hs, Dict.get?_insert]
    by_cases hjk : j = k
    · subst hjk
      rw [hk] at hj
      cases hj
      obtain ⟨hid, hpre⟩ := hself r hr
      exact ⟨after, if_pos hid.symm, hpre⟩
    · obtain ⟨hr, hid⟩ := hothers j r hjk hr
      rw [if_neg (Ne.symm hid)]
      exact h.locked j q' s' r hj hr
  · intro j l r r' hj hl hid
    by_cases hjk : j = k
    · by_cases hlk : l = k
      · rw [hjk, hlk]
      · subst hjk
        exact absurd (hid.symm.trans (hself r hj).1) (hothers l r' hlk hl).2
    · by_cases hlk : l = k
      · subst hlk
        exact absurd (hid.trans (hself r' hl).1) (hothers j r hjk hj).2
      · exact h.unique j l r r' (hothers j r hjk hj).1 (hothers l r' hlk hl).1 hid
  · intro id r hr
    rw [hs, Dict.get?_insert] at hr
    split at hr
    · cases hr
      exact halive
    · exact h.alive id r hr

/-- A record is stored in the state in which it was, by an operation that announces nothing. -/
theorem Exclusive.of_same_state (h : c.Exclusive) {k : Nat} {x : Exchange} {q : Request} {s : Stamp}
    {id : String} {before after : Instance} (hk : c.asked k = some (q, s))
    (hpre : q.preState = none) (hasked : c'.asked = c.asked) (hlog : c'.log = ⟨k, x⟩ :: c.log)
    (hb : c.world.records.get? id = some before)
    (hs : c'.world.records = c.world.records.insert id after)
    (hstate : after.state = before.state) : c'.Exclusive := by
  refine h.of_holds hasked (fun j r hr => ?_) (fun j r b hr hbr => ?_) (fun id' r hr => ?_)
  · by_cases hj : j = k
    · subst hj
      rw [holds_cons_self hlog hasked hk, hpre] at hr
      cases hr
    · rwa [holds_cons_other hlog hasked hj] at hr
  · rw [hs, Dict.get?_insert]
    by_cases hid : id = r.id
    · rw [← hid, hb] at hbr
      cases hbr
      exact ⟨after, if_pos hid, hstate⟩
    · exact ⟨b, (if_neg hid).trans hbr, rfl⟩
  · rw [hs, Dict.get?_insert] at hr
    split at hr
    · cases hr
      rw [hstate]
      exact h.alive id before hb
    · exact h.alive id' r hr

/-- Nobody holds a record in a state that announces nothing. -/
theorem Exclusive.not_held (h : c.Exclusive) {id : String} {stored : Instance}
    (hb : c.world.records.get? id = some stored)
    (hpre : ∀ q : Request, q.preState ≠ some stored.state) {j : Nat} {r : Instance}
    (hr : c.holds j = some r) : r.id ≠ id := by
  intro hid
  obtain ⟨q, s, -, hasked, -, -⟩ := holds_eq_some_iff.1 hr
  obtain ⟨stored', hstored, hpre'⟩ := h.locked j q s r hasked hr
  rw [hid, hb] at hstored
  cases hstored
  exact hpre q hpre'

theorem Exclusive.update (h : c.Exclusive) (hcur : c.Current) {k : Nat} {q : Request} {s : Stamp}
    {i before : Instance} (hq : q.keepsTable = true) (hk : c.asked k = some (q, s))
    (hasked : c'.asked = c.asked) (ha : q.Allows s (c.past k) (.update i))
    (hb : c.world.records.get? i.id = some before) (hv : before.version = i.version)
    (hs : c'.world.records = c.world.records.insert i.id { i with version := i.version + 1 })
    (hlog : c'.log = ⟨k, .update i, .ok (i.version + 1)⟩ :: c.log) : c'.Exclusive := by
  obtain ⟨seen, edited, now, hview, ht, hturns, hi⟩ := ha
  obtain rfl := hcur.view_eq hview ht hi hb hv
  have hstate : i.state = edited.state := by rw [hi]; rfl
  have hself := holds_cons_self hlog hasked hk
  rcases Request.state_cases hq ht hturns with
    ⟨hpre, hsame | ⟨hprov, hfailed⟩⟩ | ⟨t, hpre, ⟨htarget, hmove⟩ | ⟨hheld, hsettled⟩⟩
  · exact h.of_same_state hk hpre hasked hlog hb hs (hstate.trans hsame)
  · -- a creation that failed
    refine h.of_free hk hasked hlog hs (fun j r _ hr => h.not_held hb (fun q' hq' => ?_) hr)
      (fun r hr => ?_) ?_
    · rcases Request.preState_cases hq' with he | he | he <;>
        · rw [hprov] at he
          cases he
    · rw [hself, hpre] at hr
      cases hr
    · rw [hstate, hfailed]
      decide
  · -- a change is announced
    refine h.of_free hk hasked hlog hs (fun j r _ hr => h.not_held hb (fun q' hq' => ?_) hr)
      (fun r hr => ?_) ?_
    · rw [Request.canMove_preState hq' hpre] at hmove
      cases hmove
    · rw [hself, hpre] at hr
      simp only [Option.bind_some, Exchange.grip, hstate, htarget, if_true, Option.some.injEq] at hr
      subst hr
      exact ⟨rfl, by rw [hpre, hstate, htarget]⟩
    · rw [hstate, htarget]
      rcases Request.preState_cases hpre with rfl | rfl | rfl <;> decide
  · -- a change is settled
    have hholds : c.holds k = some seen := holds_eq_some_iff.2 ⟨q, s, t, hk, hpre, hheld⟩
    obtain ⟨-, hne, halive⟩ := Request.canMove_settled hpre hsettled
    refine h.of_free hk hasked hlog hs (fun j r hj hr hid => ?_) (fun r hr => ?_) ?_
    · have hseen : seen.id = i.id := by
        rw [hi]
        exact (Request.id_of_touches ht).symm
      exact hj (h.unique j k r seen hr hholds (hid.trans hseen.symm))
    · rw [hself, hpre] at hr
      simp only [Option.bind_some, Exchange.grip, hstate, if_neg hne] at hr
      cases hr
    · rw [hstate]
      exact halive

theorem Exclusive.asks (h : c.Exclusive) (hcur : c.Current) {k : Nat} {q : Request} {s : Stamp}
    {x : Exchange} (hq : q.keepsTable = true) (hk : c.asked k = some (q, s))
    (ha : q.Allows s (c.past k) x.call) (hx : Outcome c.world x c'.world)
    (hlog : c'.log = ⟨k, x⟩ :: c.log) (hasked : c'.asked = c.asked) : c'.Exclusive := by
  -- what a call that changes no record leaves to be held
  have hsub : (∀ t r, x.grip t (c.holds k) = some r → c.holds k = some r) →
      ∀ j r, c'.holds j = some r → c.holds j = some r := by
    intro hgrip j r hr
    by_cases hj : j = k
    · subst hj
      rw [holds_cons_self hlog hasked hk, Option.bind_eq_some_iff] at hr
      obtain ⟨t, -, hr⟩ := hr
      exact hgrip t r hr
    · rwa [holds_cons_other hlog hasked hj] at hr
  generalize hw : c'.world = w at hx
  cases hx with
  | inserted i _ hnew hs =>
    refine h.of_holds hasked (hsub fun t r hr => hr) (fun j r b hr hb => ?_) (fun id r hr => ?_)
    · refine ⟨b, ?_, rfl⟩
      rw [hw, hs, Dict.get?_insert, if_neg, hb]
      intro hid
      rw [← hid, hnew] at hb
      cases hb
    · rw [hw, hs, Dict.get?_insert] at hr
      split at hr
      · cases hr
        change i.state ≠ _
        rw [ha.2.1]
        decide
      · exact h.alive id r hr
  | updated i before _ hb ht hv hs => exact h.update hcur hq hk hasked ha hb hv (hw ▸ hs) hlog
  | removed tenant id before _ hb ht hs =>
    obtain ⟨hpre, ⟨seen, hheld, htenant, hid⟩, -⟩ := ha
    have hholds : c.holds k = some seen := holds_eq_some_iff.2 ⟨q, s, _, hk, hpre, hheld⟩
    have hkeep := hsub fun t r hr => by cases hr
    refine h.of_holds hasked hkeep (fun j r b hr hbr => ?_) (fun id' r hr => ?_)
    · refine ⟨b, ?_, rfl⟩
      rw [hw, hs, Dict.get?_erase, if_neg, hbr]
      intro hidr
      have hjk : j = k := h.unique j k r seen (hkeep j r hr) hholds (hidr.symm.trans hid.symm)
      rw [hjk, holds_cons_self hlog hasked hk, hpre] at hr
      cases hr
    · rw [hw, hs, Dict.get?_erase] at hr
      split at hr
      · cases hr
      · exact h.alive id' r hr
  | kept _ hwritten hremoval hsight =>
    refine h.of_holds hasked (hsub fun t r hr => Exchange.grip_of_written hwritten hr)
      (fun j r b hr hb => ⟨b, hw ▸ hb, rfl⟩) (hw ▸ h.alive)

theorem exclusive_step {m : Move .ofStore} (h : c.Exclusive) (hcur : c.Current) (hr : c.Rooted)
    (hc : c.Conducted) (hq : c.KeepsTable) (hs : c.step .ofStore m = some c') : c'.Exclusive := by
  rcases outcome_of_step hc hr.filed hs with
    ⟨hlog, hworld, hasked⟩ | ⟨k, q, s, x, hk, ha, hx, hlog, hasked⟩
  · -- an operation that has just begun holds nothing
    have hbegun : ∀ k q s r, c'.asked k = some (q, s) → c'.holds k = some r →
        c.asked k = some (q, s) ∧ c.holds k = some r := by
      intro k q s r hk hr
      obtain ⟨q', s', t, hk', hpre, hheld⟩ := holds_eq_some_iff.1 hr
      rw [hk] at hk'
      cases hk'
      have hpast : c'.past k = c.past k := by simp only [past, hlog]
      rw [hpast] at hheld
      rcases hasked k q s hk with hk | hnil
      · exact ⟨hk, holds_eq_some_iff.2 ⟨q, s, t, hk, hpre, hheld⟩⟩
      · rw [hnil, held_nil] at hheld
        cases hheld
    constructor
    · intro k q s r hk hr
      rw [hworld]
      obtain ⟨hk, hr⟩ := hbegun k q s r hk hr
      exact h.locked k q s r hk hr
    · intro j k r r' hj hk hid
      obtain ⟨q, s, t, haj, -⟩ := holds_eq_some_iff.1 hj
      obtain ⟨q', s', t', hak, -⟩ := holds_eq_some_iff.1 hk
      exact h.unique j k r r' (hbegun j q s r haj hj).2 (hbegun k q' s' r' hak hk).2 hid
    · rw [hworld]
      exact h.alive
  · exact h.asks hcur (keepsTable_iff.1 hq k q s hk) hk ha hx hlog hasked

theorem keepsTable_of_step {m : Move .ofStore} (hs : c.step .ofStore m = some c')
    (hq : c'.KeepsTable) : c.KeepsTable :=
  keepsTable_iff.2 fun k q s hk => keepsTable_iff.1 hq k q s (asked_step hs hk)

theorem exclusive_of_reaches (h : Reaches .ofStore (start .empty) c) (hq : c.KeepsTable)
    (hbound : ∀ id, c.writes id < UInt64.size) : c.Exclusive := by
  refine h.induct (P := fun d => d.KeepsTable → (∀ id, d.writes id < UInt64.size) → d.Exclusive)
    (fun d m d' hd hex hs hq' hbound' => ?_) (fun _ _ => exclusive_start) hq hbound
  have hbefore := writes_lt_of_step hs hbound'
  have hkeeps := keepsTable_of_step hs hq'
  exact exclusive_step (hex hkeeps hbefore) (current_of_reaches hd hbefore) (rooted_of_reaches hd)
    (conducted_of_reaches hd) hkeeps hs

/-! ## Every change of state is a move of the table -/

theorem Exclusive.canMove (h : c.Exclusive) (hcur : c.Current) {k : Nat} {q : Request} {s : Stamp}
    {i before : Instance} (hq : q.keepsTable = true) (hk : c.asked k = some (q, s))
    (ha : q.Allows s (c.past k) (.update i)) (hb : c.world.records.get? i.id = some before)
    (hv : before.version = i.version) (hne : i.state ≠ before.state) :
    before.state.canMove i.state = true := by
  obtain ⟨seen, edited, now, hview, ht, hturns, hi⟩ := ha
  obtain rfl := hcur.view_eq hview ht hi hb hv
  have hstate : i.state = edited.state := by rw [hi]; rfl
  rw [hstate] at hne ⊢
  rcases Request.state_cases hq ht hturns with
    ⟨-, hsame | ⟨hprov, hfailed⟩⟩ | ⟨t, hpre, ⟨htarget, hmove⟩ | ⟨hheld, hsettled⟩⟩
  · exact absurd hsame hne
  · rw [hprov, hfailed]
    decide
  · rw [htarget]
    exact hmove
  · have hseen : seen.id = i.id := by
      rw [hi]
      exact (Request.id_of_touches ht).symm
    obtain ⟨stored, hstored, hpre'⟩ :=
      h.locked k q s seen hk (holds_eq_some_iff.2 ⟨q, s, t, hk, hpre, hheld⟩)
    rw [hseen, hb] at hstored
    cases hstored
    exact (Request.canMove_settled hpre' hsettled).1

theorem Exclusive.destroying (h : c.Exclusive) {k : Nat} {q : Request} {s : Stamp}
    {tenant id : String} {before : Instance} (hk : c.asked k = some (q, s))
    (ha : q.Allows s (c.past k) (.delete tenant id))
    (hb : c.world.records.get? id = some before) : before.state = .destroying := by
  obtain ⟨hpre, ⟨seen, hheld, -, hid⟩, -⟩ := ha
  obtain ⟨stored, hstored, hpre'⟩ :=
    h.locked k q s seen hk (holds_eq_some_iff.2 ⟨q, s, _, hk, hpre, hheld⟩)
  rw [hid, hb] at hstored
  cases hstored
  rw [hpre] at hpre'
  exact (Option.some.inj hpre').symm

/-- While all requests keep to the table, every change of a stored state is a move of the table, no
record is stored as destroyed, and only a record that is stored as being destroyed is removed. -/
theorem states_follow_table {m : Move .ofStore} (h : Reaches .ofStore (start .empty) c)
    (hs : c.step .ofStore m = some c') (hq : c'.KeepsTable) (hbound : ∀ id, c'.writes id < UInt64.size) :
    (∀ id before after, c.world.records.get? id = some before →
      c'.world.records.get? id = some after → after.state ≠ before.state →
      before.state.canMove after.state = true) ∧
    (∀ id r, c'.world.records.get? id = some r → r.state ≠ .destroyed) ∧
    ∀ id r, c.world.records.get? id = some r → c'.world.records.get? id = none →
      r.state = .destroying := by
  have hc := conducted_of_reaches h
  have hr := rooted_of_reaches h
  have hbefore := writes_lt_of_step hs hbound
  have hkeeps := keepsTable_of_step hs hq
  have hcur := current_of_reaches h hbefore
  have hex := exclusive_of_reaches h hkeeps hbefore
  refine ⟨fun id before after hb ha hne => ?_, (exclusive_of_reaches (h.step hs) hq hbound).alive,
    fun id r hget hnone => ?_⟩
  · rcases outcome_of_step hc hr.filed hs with
      ⟨-, hworld, -⟩ | ⟨k, q, s, x, hk, hallows, hx, -, -⟩
    · rw [hworld, hb] at ha
      cases ha
      exact absurd rfl hne
    · rcases hx.of_stays hb ha with rfl | ⟨i, hcall, rfl, hv, rfl⟩
      · exact absurd rfl hne
      · rw [hcall] at hallows
        have hmove := hex.canMove hcur (keepsTable_iff.1 hkeeps k q s hk) hk hallows hb hv hne
        exact hmove
  · rcases outcome_of_step hc hr.filed hs with
      ⟨-, hworld, -⟩ | ⟨k, q, s, x, hk, hallows, hx, -, -⟩
    · rw [hworld, hget] at hnone
      cases hnone
    · obtain ⟨tenant, rfl⟩ := hx.of_goes hget hnone
      exact hex.destroying hk hallows hget

/-- An instance was created, one user has read it to start it, and another to delete it. -/
def beforeStart : Config Store :=
  ((start .empty).run .ofStore (creation willing 0 "inst_1" "evt_1" "Web" ++
    [asking "inst_2" "evt_2" (.start "inst_1"), asking "inst_3" "evt_3" (.delete "inst_1"),
      .answer 1 willing, .answer 2 willing, .answer 1 willing])).get (by decide +kernel)

/-- The start is announced first. -/
def started : Config Store := (beforeStart.step .ofStore (.answer 1 willing)).get (by decide +kernel)

theorem reaches_beforeStart : Reaches .ofStore (start .empty) beforeStart :=
  ⟨_, (Option.some_get _).symm⟩

theorem step_beforeStart : beforeStart.step .ofStore (.answer 1 willing) = some started :=
  (Option.some_get _).symm

theorem keepsTable_started : started.KeepsTable := by
  unfold KeepsTable
  decide +kernel

theorem writes_started (id : String) : started.writes id < UInt64.size :=
  Nat.lt_of_le_of_lt (writes_le_length _ id) (by decide +kernel)

theorem states_follow_table_started :
    Reaches .ofStore (start .empty) beforeStart ∧
      beforeStart.step .ofStore (.answer 1 willing) = some started ∧ started.KeepsTable ∧
      (∀ id, started.writes id < UInt64.size) ∧
      ∃ before after, beforeStart.world.records.get? "inst_1" = some before ∧
        started.world.records.get? "inst_1" = some after ∧ before.state = .provisioning ∧
        after.state = .starting ∧ before.state.canMove after.state = true := by
  have hb : (beforeStart.world.records.get? "inst_1").map (·.state) = some .provisioning := by
    decide +kernel
  have ha : (started.world.records.get? "inst_1").map (·.state) = some .starting := by
    decide +kernel
  obtain ⟨before, hb, hbefore⟩ := Option.map_eq_some_iff.1 hb
  obtain ⟨after, ha, hafter⟩ := Option.map_eq_some_iff.1 ha
  refine ⟨reaches_beforeStart, step_beforeStart, keepsTable_started, writes_started, before, after,
    hb, ha, hbefore, hafter, ?_⟩
  refine (states_follow_table reaches_beforeStart step_beforeStart keepsTable_started
    writes_started).1 _ _ _ hb ha ?_
  rw [hbefore, hafter]
  decide

/-- At every moment no two operations are between the announcement of a change of one record and the
end of that change, the record is stored in the state that was announced, and in that very state when
its provider is called. -/
theorem announced_state_locks (h : Reaches .ofStore (start .empty) c) (hq : c.KeepsTable)
    (hbound : ∀ id, c.writes id < UInt64.size) :
    (∀ j k r r', c.Locks j r → c.Locks k r' → r.id = r'.id → j = k) ∧
    (∀ k r, c.Locks k r → ∃ stored, c.world.records.get? r.id = some stored ∧
      stored.state = r.state) ∧
    ∀ (k : Nat) (o : Operation) provider command next, c.operations[k]? = some o →
      o.rest = .call (.command provider command) next → o.request.preState ≠ none →
      ∃ stored, c.world.records.get? command.target = some stored ∧
        o.request.preState = some stored.state := by
  have hex := exclusive_of_reaches h hq hbound
  have hc := conducted_of_reaches h
  refine ⟨fun j k r r' hj hk => hex.unique j k r r' (locks_iff.1 hj) (locks_iff.1 hk),
    fun k r hk => ?_, fun k o provider command next ho hr hpre => ?_⟩
  · have hholds := locks_iff.1 hk
    obtain ⟨q, s, t, later, i, version, before, hasked, hpre, -, hi, rfl, -⟩ := hk
    obtain ⟨stored, hstored, hstate⟩ := hex.locked k q s _ hasked hholds
    rw [hpre, Option.some.injEq] at hstate
    exact ⟨stored, hstored, hstate.symm.trans hi.symm⟩
  · have hasked : c.asked k = some (o.request, o.stamp) := by simp [asked, ho]
    have hkeeps := hc.keeps k o ho
    rw [hr] at hkeeps
    obtain ⟨seen, hheld, htarget⟩ := Request.held_of_allows_command hkeeps.1 hpre
    obtain ⟨t, ht⟩ := Option.ne_none_iff_exists'.1 hpre
    rw [htarget]
    exact hex.locked k _ _ seen hasked (holds_eq_some_iff.2 ⟨_, _, t, hasked, ht, hheld⟩)

theorem announced_state_locks_started :
    Reaches .ofStore (start .empty) started ∧ started.KeepsTable ∧
      (∀ id, started.writes id < UInt64.size) ∧
      ∃ r stored, started.Locks 1 r ∧ r.state = .starting ∧
        started.world.records.get? r.id = some stored ∧ stored.state = .starting := by
  have hreach : Reaches .ofStore (start .empty) started :=
    reaches_beforeStart.step step_beforeStart
  have hholds : (started.holds 1).map (·.state) = some .starting := by decide +kernel
  obtain ⟨r, hr, hstate⟩ := Option.map_eq_some_iff.1 hholds
  obtain ⟨stored, hstored, hsame⟩ :=
    (announced_state_locks hreach keepsTable_started writes_started).2.1 1 r (locks_iff.2 hr)
  exact ⟨hreach, keepsTable_started, writes_started, r, stored, locks_iff.2 hr, hstate, hstored,
    hsame.trans hstate⟩

end Config

end Fleet.Service
