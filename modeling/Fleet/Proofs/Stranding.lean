import Fleet.Proofs.Settlement

/-!
# Records that are left waiting

A record in a transient state is held by the operation that announced its change, or an update or a
scaling was the last to write it (`Accounted`). Where its holder could not settle it, an update or a
scaling had been stored in between, so that the store took the holder's write for out of date
(`Awaited`). Nothing is held any more when all operations have returned; so only such a refusal leaves
a record in a transient state (`stranded_by_conflict`), and it does so (`some_record_is_stranded`). -/

namespace Fleet.Service

/-! ## What a call stores -/

theorem Outcome.of_written {s s' : Store} {x : Exchange} (h : Outcome s x s') {r : Instance}
    (hw : x.written = some r) :
    s'.records.get? r.id = some r ∧ ((∃ i version, x.call = .insert i ∧ r = { i with version }) ∨
      ∃ i version before, x = ⟨.update i, .ok version⟩ ∧ r = { i with version } ∧
        s.records.get? i.id = some before ∧ before.version = i.version) := by
  cases h with
  | inserted i _ hnew hs =>
    cases hw
    refine ⟨?_, .inl ⟨i, 1, rfl, rfl⟩⟩
    rw [hs, Dict.get?_insert, if_pos rfl]
  | updated i before _ hb ht hv hs =>
    cases hw
    refine ⟨?_, .inr ⟨i, i.version + 1, before, rfl, rfl, hb, hv⟩⟩
    rw [hs, Dict.get?_insert, if_pos rfl]
  | removed tenant id before _ hb ht hs => cases hw
  | kept _ hwritten hr hx =>
    rw [hwritten] at hw
    cases hw

/-- A record that a call does not write was there before. -/
theorem Outcome.of_not_written {s s' : Store} {x : Exchange} (h : Outcome s x s') {id : String}
    {r : Instance} (hr : s'.records.get? id = some r) (hw : x.written.map (·.id) ≠ some id) :
    s.records.get? id = some r := by
  cases h with
  | inserted i _ hnew hs =>
    rwa [hs, Dict.get?_insert, if_neg (by simpa [Exchange.written] using hw)] at hr
  | updated i before _ hb ht hv hs =>
    rwa [hs, Dict.get?_insert, if_neg (by simpa [Exchange.written] using hw)] at hr
  | removed tenant id' before _ hb ht hs =>
    rw [hs, Dict.get?_erase] at hr
    split at hr
    · cases hr
    · exact hr
  | kept _ hwritten hremoval hx => exact hr

namespace Config

variable {c c' : Config Store}

/-- Operation `k` has made a call, and the store is as the call left it. -/
structure Asks (c c' : Config Store) (k : Nat) (q : Request) (s : Stamp) (x : Exchange) : Prop where
  asked : c.asked k = some (q, s)
  allows : q.Allows s (c.past k) x.call
  writes : q.Writes (c.past k) x.call
  answered : ∃ outside, serveStore outside c.world x.call = (x.answer, c'.world)
  log : c'.log = ⟨k, x⟩ :: c.log
  same : c'.asked = c.asked

theorem asks_of_step {m : Move .ofStore} (h : Reaches .ofStore (start .empty) c)
    (hs : c.step .ofStore m = some c') :
    (c'.log = c.log ∧ c'.world = c.world ∧ ∀ k a, c.asked k = some a → c'.asked k = some a) ∨
      ∃ k q s x, Asks c c' k q s x := by
  cases m with
  | begin limit caller request stamp =>
    refine .inl ⟨?_, ?_, fun k a hk => asked_step hs hk⟩
    · obtain ⟨-, rfl⟩ := step_begin hs
      rfl
    · obtain ⟨-, rfl⟩ := step_begin hs
      rfl
  | answer k x =>
    obtain ⟨o, call, next, ho, hr, rfl⟩ := step_answer hs
    have hkeeps := (conducted_of_reaches h).keeps k o ho
    have hsettles := settles_of_reaches h ho
    rw [hr] at hkeeps hsettles
    exact .inr ⟨k, o.request, o.stamp, ⟨call, _⟩, by simp [asked, ho], hkeeps.1, hsettles.1,
      ⟨x, rfl⟩, rfl, asked_answered ho _ _ _⟩
  | chance d => exact d.elim

namespace Asks

variable {k : Nat} {q : Request} {s : Stamp} {x : Exchange}

theorem outcome (h : Asks c c' k q s x) (hf : c.world.Filed) : Outcome c.world x c'.world := by
  obtain ⟨outside, hserve⟩ := h.answered
  have houtcome := serve_outcome hf outside x.call
  rwa [hserve] at houtcome

/-- Whoever does not try to write or to remove a record holds what it held. -/
theorem holds_of_idle (h : Asks c c' k q s x) {j : Nat} {r : Instance} (hj : c.holds j = some r)
    (hidle : j = k → ¬ x.Attempts) : c'.holds j = some r := by
  by_cases hjk : j = k
  · subst hjk
    obtain ⟨q', s', t, hasked, hpre, -⟩ := holds_eq_some_iff.1 hj
    rw [h.asked] at hasked
    cases hasked
    rw [holds_cons_self h.log h.same h.asked, hpre, Option.bind_some,
      Exchange.grip_of_not_attempts (hidle rfl), hj]
  · rw [holds_cons_other h.log h.same hjk, hj]

/-- What a holder tries to do to a record: to write the one that it holds, in a state that is not
transient, or to remove it. -/
theorem settling (h : Asks c c' k q s x) {r : Instance} (hk : c.holds k = some r)
    (hx : x.Attempts) :
    (∃ state now, state.isTransient = false ∧ x.call = .update ({ r with state }.touch now)) ∨
      x.call = .delete r.tenant r.id := by
  obtain ⟨q', s', t, hasked, hpre, hheld⟩ := holds_eq_some_iff.1 hk
  rw [h.asked] at hasked
  cases hasked
  have hallows := h.allows
  have hwrites := h.writes
  rcases hx with ⟨i, hcall⟩ | ⟨tenant, id, hcall⟩
  · rw [hcall] at hallows hwrites
    obtain ⟨seen, edited, now, hview, ht, hturns, rfl⟩ := hallows
    have hsettled : edited.state.isTransient = false := by
      refine Bool.eq_false_iff.2 fun htransient => ?_
      rcases hwrites htransient with ⟨-, hfree⟩ | ⟨hkeeps, -⟩
      · rw [hheld] at hfree
        cases hfree
      · rw [Request.preState_of_keepsState hkeeps] at hpre
        cases hpre
    rcases hturns t hpre with ⟨htarget, -⟩ | ⟨hseen, -⟩
    · rw [htarget, Request.isTransient_of_preState hpre] at hsettled
      cases hsettled
    · rw [hheld] at hseen
      cases hseen
      obtain ⟨state, rfl⟩ := Request.state_of_touches hpre ht
      exact .inl ⟨state, now, hsettled, hcall⟩
  · rw [hcall] at hallows
    obtain ⟨-, ⟨seen, hseen, rfl, rfl⟩, -⟩ := hallows
    rw [hheld] at hseen
    cases hseen
    exact .inr hcall

/-- The store takes a record in the stored version and with the stored slug. -/
theorem get?_of_update (h : Asks c c' k q s x) {i stored : Instance} (hcall : x.call = .update i)
    (hget : c.world.records.get? i.id = some stored) (htenant : stored.tenant = i.tenant)
    (hversion : stored.version = i.version) (hslug : stored.slug = i.slug) :
    c'.world.records.get? i.id = some { i with version := i.version + 1 } := by
  obtain ⟨outside, hserve⟩ := h.answered
  obtain ⟨call, answer⟩ := x
  change call = _ at hcall
  subst hcall
  simp only [serveStore, Store.update_of_stored hget htenant hversion hslug, Prod.mk.injEq] at hserve
  rw [← hserve.2, Dict.get?_insert, if_pos rfl]

/-- The store refuses a record in another version than the stored one. -/
theorem eq_of_stale (h : Asks c c' k q s x) {i stored : Instance} (hcall : x.call = .update i)
    (hget : c.world.records.get? i.id = some stored) (htenant : stored.tenant = i.tenant)
    (hversion : stored.version ≠ i.version) :
    x = ⟨.update i, .error (.staleVersion i.id stored.version i.version)⟩ := by
  obtain ⟨outside, hserve⟩ := h.answered
  obtain ⟨call, answer⟩ := x
  change call = _ at hcall
  subst hcall
  simp only [serveStore, Store.update_of_stale hget htenant hversion, Prod.mk.injEq] at hserve
  rw [← hserve.1]

theorem get?_of_delete (h : Asks c c' k q s x) {id : String} {stored : Instance}
    (hcall : x.call = .delete stored.tenant id) (hget : c.world.records.get? id = some stored) :
    c'.world.records.get? id = none := by
  obtain ⟨outside, hserve⟩ := h.answered
  obtain ⟨call, answer⟩ := x
  change call = _ at hcall
  subst hcall
  simp only [serveStore, Store.delete_of_stored hget rfl, Prod.mk.injEq] at hserve
  rw [← hserve.2, Dict.get?_erase, if_pos rfl]

/-- Who holds a record as it is stored settles it by its next attempt. -/
theorem settled (h : Asks c c' k q s x) {r r' : Instance} (hk : c.holds k = some r)
    (hx : x.Attempts) (hr : c.world.records.get? r.id = some r)
    (hr' : c'.world.records.get? r.id = some r') : r'.state.isTransient = false := by
  rcases h.settling hk hx with ⟨state, now, hstate, hcall⟩ | hcall
  · have hafter := h.get?_of_update hcall hr rfl rfl rfl
    change c'.world.records.get? r.id = _ at hafter
    rw [hr'] at hafter
    cases hafter
    exact hstate
  · rw [h.get?_of_delete hcall hr] at hr'
    cases hr'

end Asks

/-! ## Who accounts for a transient state -/

/-- The record was last written by an update or a scaling, which put back the state that it saw. -/
structure PutBack (c : Config Store) (r : Instance) (k : Nat) (later before : List Entry) : Prop where
  keeping : ∃ q s, c.asked k = some (q, s) ∧ q.keepsState = true
  wrote : ∃ i version, c.log = later ++ ⟨k, .update i, .ok version⟩ :: before ∧
    r = { i with version }
  saw : ∃ seen, view (pastOf k before) = some seen ∧ seen.id = r.id ∧ seen.state = r.state
  last : ∀ e ∈ later, e.exchange.written.map (·.id) ≠ some r.id

/-- A record in a transient state is held as it is stored, or an update or a scaling has put its state
back. -/
def Accounted (c : Config Store) : Prop :=
  ∀ id r, c.world.records.get? id = some r → r.state.isTransient = true →
    (∃ k, c.holds k = some r) ∨ ∃ k later before, c.PutBack r k later before

theorem PutBack.cons {r : Instance} {k j : Nat} {later before : List Entry} {x : Exchange}
    (h : c.PutBack r k later before) (hlog : c'.log = ⟨j, x⟩ :: c.log) (hasked : c'.asked = c.asked)
    (hx : x.written.map (·.id) ≠ some r.id) : c'.PutBack r k (⟨j, x⟩ :: later) before where
  keeping := hasked ▸ h.keeping
  wrote := by
    obtain ⟨i, version, hsame, hr⟩ := h.wrote
    refine ⟨i, version, ?_, hr⟩
    rw [hlog, hsame, List.cons_append]
  saw := h.saw
  last := by
    intro e he
    rcases List.mem_cons.1 he with rfl | he
    · exact hx
    · exact h.last e he

/-- The writer of a transient state holds the record, or has put the state back. -/
theorem Asks.wrote {k : Nat} {q : Request} {s : Stamp} {x : Exchange} (h : Asks c c' k q s x)
    (hf : c.world.Filed) {r : Instance} (hw : x.written = some r)
    (ht : r.state.isTransient = true) :
    c'.holds k = some r ∨ q.keepsState = true ∧
      ∃ i version before seen, x = ⟨.update i, .ok version⟩ ∧ r = { i with version } ∧
        c.world.records.get? r.id = some before ∧ before.version = i.version ∧
        view (c.past k) = some seen ∧ seen.id = r.id ∧ seen.state = r.state := by
  have hallows := h.allows
  have hwrites := h.writes
  rcases ((h.outcome hf).of_written hw).2 with
    ⟨i, version, hcall, rfl⟩ | ⟨i, version, before, hx, rfl, hb, hv⟩
  · rw [hcall] at hallows
    change i.state.isTransient = true at ht
    rw [hallows.2.1] at ht
    cases ht
  · rw [hx] at hwrites
    rcases hwrites ht with ⟨hpre, -⟩ | ⟨hkeeps, seen, hview, hid, hstate⟩
    · left
      rw [holds_cons_self h.log h.same h.asked, hpre, Option.bind_some, hx]
      exact if_pos rfl
    · exact .inr ⟨hkeeps, i, version, before, seen, hx, rfl, hb, hv, hview, hid, hstate⟩

theorem Accounted.asks (h : c.Accounted) (hf : c.world.Filed) {k : Nat} {q : Request} {s : Stamp}
    {x : Exchange} (ha : Asks c c' k q s x) : c'.Accounted := by
  intro id r hr ht
  obtain rfl : r.id = id := (ha.outcome hf).filed hf id r hr
  by_cases hw : x.written.map (·.id) = some r.id
  · obtain ⟨w, hw, hid⟩ := Option.map_eq_some_iff.1 hw
    have hstored := ((ha.outcome hf).of_written hw).1
    rw [hid, hr] at hstored
    cases hstored
    rcases ha.wrote hf hw ht with hk | ⟨hkeeps, i, version, before, seen, rfl, hi, -, -, hsaw⟩
    · exact .inl ⟨k, hk⟩
    · exact .inr ⟨k, [], c.log, ⟨q, s, ha.same ▸ ha.asked, hkeeps⟩, ⟨i, version, ha.log, hi⟩,
        ⟨seen, hsaw⟩, by simp⟩
  · have hold := (ha.outcome hf).of_not_written hr hw
    rcases h r.id r hold ht with ⟨j, hj⟩ | ⟨j, later, before, hput⟩
    · refine .inl ⟨j, ha.holds_of_idle hj fun hjk hx => ?_⟩
      subst hjk
      rw [ha.settled hj hx hold hr] at ht
      cases ht
    · exact .inr ⟨j, _, before, hput.cons ha.log ha.same hw⟩

theorem accounted_start : (start Store.empty).Accounted := by
  intro id r hr
  simp [start, Store.empty] at hr

/-- When nothing is asked, nothing is let go. -/
theorem holds_of_quiet (hlog : c'.log = c.log)
    (hasked : ∀ k a, c.asked k = some a → c'.asked k = some a) {k : Nat} {r : Instance}
    (h : c.holds k = some r) : c'.holds k = some r := by
  obtain ⟨q, s, t, hk, hpre, hheld⟩ := holds_eq_some_iff.1 h
  refine holds_eq_some_iff.2 ⟨q, s, t, hasked k _ hk, hpre, ?_⟩
  simp only [past, hlog]
  exact hheld

theorem PutBack.of_quiet {r : Instance} {k : Nat} {later before : List Entry}
    (h : c.PutBack r k later before) (hlog : c'.log = c.log)
    (hasked : ∀ k a, c.asked k = some a → c'.asked k = some a) : c'.PutBack r k later before where
  keeping := by
    obtain ⟨q, s, hk, hkeeps⟩ := h.keeping
    exact ⟨q, s, hasked k _ hk, hkeeps⟩
  wrote := hlog ▸ h.wrote
  saw := h.saw
  last := h.last

theorem accounted_of_reaches (h : Reaches .ofStore (start .empty) c) : c.Accounted := by
  refine h.induct (P := Accounted) (fun d m d' hd hacc hs => ?_) accounted_start
  rcases asks_of_step hd hs with ⟨hlog, hworld, hasked⟩ | ⟨k, q, s, x, ha⟩
  · intro id r hr ht
    rw [hworld] at hr
    rcases hacc id r hr ht with ⟨k, hk⟩ | ⟨k, later, before, hput⟩
    · exact .inl ⟨k, holds_of_quiet hlog hasked hk⟩
    · exact .inr ⟨k, later, before, hput.of_quiet hlog hasked⟩
  · exact hacc.asks (rooted_of_reaches hd).filed ha

/-! ## What keeps a holder from settling -/

/-- Operation `j` announced its change of a record by a state, operation `k` stored the record after
that without a change of its state, and what `j` tried to store then was refused as out of date. -/
structure Displaces (c : Config Store) (id : String) (s : State) (j k : Nat) : Prop where
  announcing : ∃ q t, c.asked j = some (q, t) ∧ q.preState = some s
  keeping : ∃ q t, c.asked k = some (q, t) ∧ q.keepsState = true
  sequence : ∃ announced kept settled version version' stored carried,
    announced.id = id ∧ announced.state = s ∧ kept.id = id ∧ settled.id = id ∧
      [⟨j, .update settled, .error (.staleVersion id stored carried)⟩,
        ⟨k, .update kept, .ok version'⟩, ⟨j, .update announced, .ok version⟩].Sublist c.log

/-- A record in a transient state is held by the operation that announced the state, or that operation
has been displaced. -/
def Awaited (c : Config Store) : Prop :=
  ∀ id r, c.world.records.get? id = some r → r.state.isTransient = true →
    (∃ j held, c.holds j = some held ∧ held.id = id ∧ held.state = r.state) ∨
      ∃ j k, c.Displaces id r.state j k

theorem Displaces.mono {id : String} {s : State} {j k : Nat} (h : c.Displaces id s j k)
    (hlog : c.log <:+ c'.log) (hasked : ∀ k a, c.asked k = some a → c'.asked k = some a) :
    c'.Displaces id s j k where
  announcing := by
    obtain ⟨q, t, hj, hpre⟩ := h.announcing
    exact ⟨q, t, hasked j _ hj, hpre⟩
  keeping := by
    obtain ⟨q, t, hk, hkeeps⟩ := h.keeping
    exact ⟨q, t, hasked k _ hk, hkeeps⟩
  sequence := by
    obtain ⟨a, b, d, v, v', st, ca, ha, hs, hb, hd, hsub⟩ := h.sequence
    exact ⟨a, b, d, v, v', st, ca, ha, hs, hb, hd, hsub.trans hlog.sublist⟩

/-- Who holds a record has announced its change by a write that stored the record so. -/
theorem announced_of_holds {j : Nat} {r : Instance} (h : c.holds j = some r) :
    (∃ q t, c.asked j = some (q, t) ∧ q.preState = some r.state) ∧
      ∃ i version, ⟨j, .update i, .ok version⟩ ∈ c.log ∧ r = { i with version } := by
  obtain ⟨q, s, t, later, i, version, before, hasked, hpre, hpast, hi, rfl, -⟩ := locks_iff.2 h
  refine ⟨⟨q, s, hasked, ?_⟩, i, version, ?_, rfl⟩
  · rw [hpre, ← hi]
  · refine mem_pastOf.1 ?_
    change _ ∈ c.past j
    rw [hpast]
    exact List.mem_append_right _ List.mem_cons_self

/-- A record that was seen has the birthmark of the one that is stored. -/
theorem Rooted.birthmark_of_sight (h : c.Rooted) {e : Entry} {r stored : Instance} (he : e ∈ c.log)
    (hsight : e.exchange.sight = some r) (hstored : c.world.records.get? r.id = some stored) :
    stored.birthmark = r.birthmark := by
  obtain ⟨b, hb, hmark⟩ := h.seen e he r hsight
  obtain ⟨b', hb', hmark'⟩ := h.stored r.id stored hstored
  have hid : b'.id = b.id := by
    rw [Instance.id_eq_of_birthmark hmark, Instance.id_eq_of_birthmark hmark', h.filed r.id _ hstored]
  rw [← hmark, ← hmark', h.unique b' b hb' hb hid]

/-- An earlier write of a record comes before the write that put its state back. -/
theorem PutBack.sublist {r : Instance} {j k : Nat} {later before : List Entry}
    (h : c.PutBack r k later before) {q : Request} {t : Stamp} (hj : c.asked j = some (q, t))
    (hpre : q.preState ≠ none) {i : Instance} {version : UInt64}
    (hmem : ⟨j, .update i, .ok version⟩ ∈ c.log) (hid : i.id = r.id) :
    ∃ kept version', kept.id = r.id ∧
      [⟨k, .update kept, .ok version'⟩, ⟨j, .update i, .ok version⟩].Sublist c.log := by
  obtain ⟨kept, version', hlog, hr⟩ := h.wrote
  refine ⟨kept, version', by rw [hr], ?_⟩
  rw [hlog] at hmem ⊢
  rcases List.mem_append.1 hmem with hlater | hrest
  · exact absurd (by simp [Exchange.written, hid]) (h.last _ hlater)
  · rcases List.mem_cons.1 hrest with hsame | hbefore
    · obtain ⟨q', t', hk, hkeeps⟩ := h.keeping
      cases hsame
      rw [hj] at hk
      cases hk
      exact absurd (Request.preState_of_keepsState hkeeps) hpre
    · refine List.Sublist.trans ?_ (List.sublist_append_right later _)
      exact List.Sublist.cons_cons _ (List.singleton_sublist.2 hbefore)

/-- A holder whose attempt to settle leaves the record in its transient state was displaced, or
somebody else holds the record. -/
theorem Asks.displaces {k : Nat} {q : Request} {s : Stamp} {x : Exchange} (h : Asks c c' k q s x)
    (hr : c.Rooted) (hcur : c.Current) (hacc : c.Accounted) {held r r' : Instance}
    (hk : c.holds k = some held) (hx : x.Attempts)
    (hstored : c.world.records.get? held.id = some r) (ht : r.state.isTransient = true)
    (hstate : held.state = r.state) (hafter : c'.world.records.get? held.id = some r')
    (ht' : r'.state.isTransient = true) :
    (∃ j, c'.holds j = some r) ∨ ∃ j, c'.Displaces held.id r.state k j := by
  obtain ⟨⟨q', t, hasked, hpre⟩, i, version, hmem, rfl⟩ := announced_of_holds hk
  have hid : r.id = i.id := hr.filed i.id r hstored
  have hmark := hr.birthmark_of_sight hmem rfl hstored
  have htenant : r.tenant = i.tenant := congrArg Birthmark.tenant hmark
  have hne : { i with version } ≠ r := by
    rintro rfl
    rw [h.settled hk hx hstored hafter] at ht'
    cases ht'
  rcases h.settling hk hx with ⟨state, now, -, hcall⟩ | hcall
  · have hversion : r.version ≠ version := fun hv =>
      hne ((hcur.latest _ hmem _ r rfl hstored).2 hv.symm)
    have hrefused := h.eq_of_stale hcall hstored htenant hversion
    rcases hacc i.id r hstored ht with ⟨j, hj⟩ | ⟨j, later, before, hput⟩
    · refine .inl ⟨j, h.holds_of_idle hj fun hjk _ => hne ?_⟩
      rw [hjk, hk] at hj
      exact Option.some.inj hj
    · obtain ⟨kept, version', hkept, hsub⟩ :=
        hput.sublist hasked (by rw [hpre]; exact Option.some_ne_none _) hmem hid.symm
      refine .inr ⟨j, ⟨q', t, h.same ▸ hasked, hstate ▸ hpre⟩, h.same ▸ hput.keeping, ?_⟩
      refine ⟨i, kept, { { i with version } with state }.touch now, version, version', r.version,
        version, rfl, hstate, hkept.trans hid, rfl, ?_⟩
      rw [h.log, hrefused]
      exact hsub.cons_cons _
  · have hremoval : x.call = .delete r.tenant i.id := by rw [hcall, htenant]
    have hgone := h.get?_of_delete hremoval hstored
    rw [hgone] at hafter
    cases hafter

theorem Awaited.asks (h : c.Awaited) (hr : c.Rooted) (hcur : c.Current) (hacc : c.Accounted)
    {k : Nat} {q : Request} {s : Stamp} {x : Exchange} (ha : Asks c c' k q s x) : c'.Awaited := by
  intro id r hget ht
  obtain rfl : r.id = id := (ha.outcome hr.filed).filed hr.filed id r hget
  have hmono : ∀ j l, c.Displaces r.id r.state j l → c'.Displaces r.id r.state j l := fun j l hd =>
    hd.mono (ha.log ▸ List.suffix_cons _ _) fun i a hi => ha.same ▸ hi
  by_cases hw : x.written.map (·.id) = some r.id
  · obtain ⟨w, hw, hid⟩ := Option.map_eq_some_iff.1 hw
    have hstored := ((ha.outcome hr.filed).of_written hw).1
    rw [hid, hget] at hstored
    cases hstored
    rcases ha.wrote hr.filed hw ht with
      hk | ⟨hkeeps, i, version, before, seen, rfl, rfl, hb, hv, hview, hid, hstate⟩
    · exact .inl ⟨k, r, hk, rfl, rfl⟩
    · obtain ⟨seen', edited, now, hview', htouch, -, hi⟩ := ha.allows
      obtain rfl : seen' = seen := by simpa [hview] using hview'.symm
      obtain rfl := hcur.view_eq hview htouch hi hb hv
      rw [← hstate] at ht hmono ⊢
      rcases h i.id seen' hb ht with ⟨j, held, hj, hheld⟩ | ⟨j, l, hd⟩
      · refine .inl ⟨j, held, ha.holds_of_idle hj fun hjk _ => ?_, hheld⟩
        obtain ⟨q', t, u, hasked, hpre, -⟩ := holds_eq_some_iff.1 hj
        rw [hjk, ha.asked] at hasked
        cases hasked
        rw [Request.preState_of_keepsState hkeeps] at hpre
        cases hpre
      · exact .inr ⟨j, l, hmono j l hd⟩
  · have hold := (ha.outcome hr.filed).of_not_written hget hw
    rcases h r.id r hold ht with ⟨j, held, hj, hid, hstate⟩ | ⟨j, l, hd⟩
    · by_cases hx : j = k ∧ x.Attempts
      · obtain ⟨rfl, hx⟩ := hx
        rw [← hid] at hold hget ⊢
        rcases ha.displaces hr hcur hacc hj hx hold ht hstate hget ht with ⟨l, hl⟩ | ⟨l, hd⟩
        · exact .inl ⟨l, r, hl, hid.symm, rfl⟩
        · exact .inr ⟨j, l, hd⟩
      · exact .inl ⟨j, held, ha.holds_of_idle hj fun hjk hattempt => hx ⟨hjk, hattempt⟩, hid, hstate⟩
    · exact .inr ⟨j, l, hmono j l hd⟩

theorem awaited_start : (start Store.empty).Awaited := by
  intro id r hr
  simp [start, Store.empty] at hr

theorem awaited_of_reaches (h : Reaches .ofStore (start .empty) c)
    (hbound : ∀ id, c.writes id < UInt64.size) : c.Awaited := by
  refine h.induct (P := fun d => (∀ id, d.writes id < UInt64.size) → d.Awaited)
    (fun d m d' hd hawait hs hbound' => ?_) (fun _ => awaited_start) hbound
  have hbefore := writes_lt_of_step hs hbound'
  rcases asks_of_step hd hs with ⟨hlog, hworld, hasked⟩ | ⟨k, q, s, x, ha⟩
  · intro id r hr ht
    rw [hworld] at hr
    rcases hawait hbefore id r hr ht with ⟨j, held, hj, hheld⟩ | ⟨j, k, hdis⟩
    · exact .inl ⟨j, held, holds_of_quiet hlog hasked hj, hheld⟩
    · exact .inr ⟨j, k, hdis.mono (hlog ▸ List.suffix_rfl) hasked⟩
  · exact (hawait hbefore).asks (rooted_of_reaches hd) (current_of_reaches hd hbefore)
      (accounted_of_reaches hd) ha

/-! ## What is left when all have returned -/

/-- A start comes between the reading and the writing of an update, and the update between the two
writes of the start. -/
def stranded : Config Store :=
  ((start .empty).run .ofStore (creation willing 0 "inst_1" "evt_1" "Web" ++
    [asking "inst_2" "evt_2" (.start "inst_1"),
      asking "inst_3" "evt_3" (.update "inst_1" { labels := some (.ofList [("tier", "front")]) }),
      .answer 1 willing, .answer 1 willing, .answer 1 willing, .answer 2 willing,
      .answer 2 willing, .answer 1 willing, .answer 1 willing])).get (by decide +kernel)

theorem reaches_stranded : Reaches .ofStore (start .empty) stranded := ⟨_, (Option.some_get _).symm⟩

theorem isOver_stranded : ∀ o ∈ stranded.operations, o.rest.isOver = true := by decide +kernel

theorem state_stranded :
    (stranded.world.records.get? "inst_1").map (·.state) = some .starting := by decide +kernel

/-- Some record is left in a transient state although all operations have returned. -/
theorem some_record_is_stranded :
    ¬ ∀ c : Config Store, Reaches .ofStore (start .empty) c →
      (∀ o ∈ c.operations, o.rest.isOver = true) →
      ∀ id r, c.world.records.get? id = some r → r.state.isTransient = false := by
  intro hall
  obtain ⟨r, hr, hstate⟩ := Option.map_eq_some_iff.1 state_stranded
  have hsettled := hall stranded reaches_stranded isOver_stranded "inst_1" r hr
  rw [hstate] at hsettled
  cases hsettled

/-- When all operations have returned, a record in a transient state was last written by an update or
a scaling, which put back the state that it saw. Unless versions wrap around, the operation that
announced the state was then refused when it tried to settle the record: an update or a scaling had
been stored after the announcement. -/
theorem stranded_by_conflict (h : Reaches .ofStore (start .empty) c)
    (hover : ∀ o ∈ c.operations, o.rest.isOver = true) {id : String} {r : Instance}
    (hr : c.world.records.get? id = some r) (ht : r.state.isTransient = true) :
    (∃ k later before, c.PutBack r k later before) ∧
      ((∀ id, c.writes id < UInt64.size) → ∃ j k, c.Displaces id r.state j k) := by
  refine ⟨?_, fun hbound => ?_⟩
  · rcases accounted_of_reaches h id r hr ht with ⟨k, hk⟩ | hput
    · rw [holds_of_isOver h hover] at hk
      cases hk
    · exact hput
  · rcases awaited_of_reaches h hbound id r hr ht with ⟨j, held, hj, -⟩ | hd
    · rw [holds_of_isOver h hover] at hj
      cases hj
    · exact hd

theorem stranded_by_conflict_relabelled :
    Reaches .ofStore (start .empty) stranded ∧ (∀ o ∈ stranded.operations, o.rest.isOver = true) ∧
      ∃ r, stranded.world.records.get? "inst_1" = some r ∧ r.state.isTransient = true ∧
        (∃ k later before, stranded.PutBack r k later before) ∧
        ∃ j k, stranded.Displaces "inst_1" r.state j k := by
  obtain ⟨r, hr, hstate⟩ := Option.map_eq_some_iff.1 state_stranded
  have ht : r.state.isTransient = true := by rw [hstate]; rfl
  have hbound : ∀ id, stranded.writes id < UInt64.size := fun id =>
    Nat.lt_of_le_of_lt (writes_le_length _ id) (by decide +kernel)
  obtain ⟨hput, hconflict⟩ := stranded_by_conflict reaches_stranded isOver_stranded hr ht
  exact ⟨reaches_stranded, isOver_stranded, r, hr, ht, hput, hconflict hbound⟩

end Config

end Fleet.Service
