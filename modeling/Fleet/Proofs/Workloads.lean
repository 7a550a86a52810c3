import Fleet.Proofs.Obituary

/-!
# Workloads have records

An operation provisions a workload right after it inserted the record, and removes a record right
after the workload is gone. So every workload has a record (`Housed`), whatever operations run side by
side: before the workload is there nobody can remove the record, since a provider that has no workload
refuses to take one away; and after it is gone nobody can put it there again, since the id is used.

`no_orphan_and_no_return` puts this together, for the runs over a control plane, with what is known of
records that were removed and of how their end is published. -/

namespace Fleet

open Service

/-! ## What a call does to a control plane -/

/-- A workload is put where there was none only by an operation that provisions it. -/
theorem Plane.hosts_of_serve {p : Plane} {c : Call} {name id : String}
    (h : (p.serve c).2.1.directory.Hosts name id) :
    p.directory.Hosts name id ∨ ∃ o, c = .command name (.provision o) ∧ id = o.instanceId := by
  cases c with
  | command provider command =>
    rcases Provider.Directory.hosts_of_command h with h | ⟨o, rfl, rfl, hid⟩
    · exact .inl h
    · exact .inr ⟨o, rfl, hid⟩
  | insert i =>
    simp only [Plane.serve] at h
    split at h <;> exact .inl h
  | update i =>
    simp only [Plane.serve] at h
    split at h <;> exact .inl h
  | delete tenant id =>
    simp only [Plane.serve] at h
    split at h <;> exact .inl h
  | _ => exact .inl h

theorem Plane.outcome_of_serve {p : Plane} (hf : p.store.Filed) (c : Call) :
    Outcome p.store ⟨c, (p.serve c).1⟩ (p.serve c).2.1.store := by
  have h := serve_outcome hf (fun c => (p.serve c).1) c
  rw [serveStore_plane] at h
  exact h

namespace Service

namespace Config

variable {c c' : Config Plane}

/-- Whether an operation has just inserted a record. -/
def Raised (c : Config Plane) (k : Nat) (i : Instance) : Prop :=
  ∃ version, c.last k = some ⟨.insert i, .ok version⟩

/-- Whether an operation has just taken a workload away. -/
def Cleared (c : Config Plane) (k : Nat) (id : String) : Prop :=
  ∃ provider, c.last k = some ⟨.command provider (.deprovision id), .ok ()⟩

/-- Every workload has a record that names its provider. There is no workload yet, but a record, when
an operation has just inserted that, and no workload any more when an operation has just taken it
away; never both, and nobody else takes it away then. -/
structure Housed (c : Config Plane) : Prop where
  hosted : ∀ name id, c.world.directory.Hosts name id →
    ∃ r, c.world.store.records.get? id = some r ∧ r.provider = name
  raised : ∀ k i, c.Raised k i → (∃ r, c.world.store.records.get? i.id = some r) ∧
    (∀ name, ¬ c.world.directory.Hosts name i.id) ∧ ∀ j, ¬ c.Cleared j i.id
  cleared : ∀ k id, c.Cleared k id → (∃ r, c.world.store.records.get? id = some r) ∧
    ∀ name, ¬ c.world.directory.Hosts name id
  alone : ∀ j k id, c.Cleared j id → c.Cleared k id → j = k

theorem raised_cases {j k : Nat} {x : Exchange} {i : Instance} (hlog : c'.log = ⟨k, x⟩ :: c.log)
    (h : c'.Raised j i) : (j ≠ k ∧ c.Raised j i) ∨ j = k ∧ ∃ version, x = ⟨.insert i, .ok version⟩ := by
  obtain ⟨version, h⟩ := h
  rcases last_cases hlog h with ⟨hj, hlast⟩ | ⟨hj, hx⟩
  · exact .inl ⟨hj, version, hlast⟩
  · exact .inr ⟨hj, version, hx⟩

theorem cleared_cases {j k : Nat} {x : Exchange} {id : String} (hlog : c'.log = ⟨k, x⟩ :: c.log)
    (h : c'.Cleared j id) : (j ≠ k ∧ c.Cleared j id) ∨
      j = k ∧ ∃ provider, x = ⟨.command provider (.deprovision id), .ok ()⟩ := by
  obtain ⟨provider, h⟩ := h
  rcases last_cases hlog h with ⟨hj, hlast⟩ | ⟨hj, hx⟩
  · exact .inl ⟨hj, provider, hlast⟩
  · exact .inr ⟨hj, provider, hx⟩

/-- An id is inserted by one operation. -/
theorem raised_unique (hc : c.Conducted) {j k : Nat} {i i' : Instance} (hj : c.Raised j i)
    (hk : c.Raised k i') (hid : i.id = i'.id) : j = k := by
  obtain ⟨version, hj⟩ := hj
  obtain ⟨version', hk⟩ := hk
  obtain ⟨q, s, haj, hs⟩ := hc.named _ (mem_of_last hj) i rfl
  obtain ⟨q', s', hak, hs'⟩ := hc.named _ (mem_of_last hk) i' rfl
  exact hc.apart j k q q' s s' haj hak (by rw [← hs, ← hs', hid])

section

variable {k : Nat} {q : Request} {s : Stamp} {x : Exchange}

/-- A record goes when its workload has just been taken away. -/
theorem cleared_of_goes (ha : q.Allows s (c.past k) x.call)
    (hx : Outcome c.world.store x c'.world.store) {id : String} {r : Instance}
    (hr : c.world.store.records.get? id = some r)
    (hnone : c'.world.store.records.get? id = none) : c.Cleared k id := by
  obtain ⟨tenant, rfl⟩ := hx.of_goes hr hnone
  obtain ⟨-, -, provider, hlast⟩ := ha
  exact ⟨provider, hlast⟩

/-- A workload is provisioned when its record has just been inserted. -/
theorem raised_of_provision {name : String} {o : Provider.Order}
    (ha : q.Allows s (c.past k) (.command name (.provision o))) :
    ∃ i, c.Raised k i ∧ o.instanceId = i.id ∧ name = i.provider := by
  obtain ⟨-, i, version, hlast, hid, hname⟩ := ha
  exact ⟨i, ⟨version, hlast⟩, hid, hname⟩

/-- What a call does to workloads: only a provision puts one where there was none, and a deprovision
that succeeds takes away one that was there. -/
structure Handles (c c' : Config Plane) (x : Exchange) : Prop where
  hosts : ∀ name id, c'.world.directory.Hosts name id → c.world.directory.Hosts name id ∨
    ∃ o, x.call = .command name (.provision o) ∧ id = o.instanceId
  clears : ∀ name id, x = ⟨.command name (.deprovision id), .ok ()⟩ →
    c.world.directory.Hosts name id ∧ ¬ c'.world.directory.Hosts name id

/-- A workload that was not there has been provisioned by an operation that had just inserted its
record. -/
theorem Handles.cases (hd : Handles c c' x) (ha : q.Allows s (c.past k) x.call) {name id : String}
    (h : c'.world.directory.Hosts name id) : c.world.directory.Hosts name id ∨
      ∃ i, c.Raised k i ∧ id = i.id ∧ name = i.provider := by
  rcases hd.hosts name id h with h | ⟨o, hcall, hid⟩
  · exact .inl h
  · rw [hcall] at ha
    obtain ⟨i, hraised, hid', hname⟩ := raised_of_provision ha
    exact .inr ⟨i, hraised, hid.trans hid', hname⟩

theorem Housed.hosted_asks (h : c.Housed) (hr : (c.map (·.store)).Rooted)
    (hr' : (c'.map (·.store)).Rooted) (ha : q.Allows s (c.past k) x.call)
    (hx : Outcome c.world.store x c'.world.store) (hd : Handles c c' x)
    (hlog : c'.log = ⟨k, x⟩ :: c.log) {name id : String}
    (hhosts : c'.world.directory.Hosts name id) :
    ∃ r, c'.world.store.records.get? id = some r ∧ r.provider = name := by
  -- the record is there before the call, and names the provider
  obtain ⟨r, hget, hname⟩ : ∃ r, c.world.store.records.get? id = some r ∧ r.provider = name := by
    rcases hd.cases ha hhosts with hold | ⟨i, hraised, rfl, rfl⟩
    · exact h.hosted name id hold
    · obtain ⟨r, hget⟩ := (h.raised k i hraised).1
      obtain ⟨version, hlast⟩ := hraised
      have hmark := hr.birthmark_of_insert (mem_of_last hlast) hget
      exact ⟨r, hget, congrArg Birthmark.provider hmark⟩
  cases hafter : c'.world.store.records.get? id with
  | some r' =>
    have hmark := hr.birthmark_eq hr' (hlog ▸ List.suffix_cons _ _) hget hafter
    exact ⟨r', rfl, (congrArg Birthmark.provider hmark).trans hname⟩
  | none =>
    -- the workload would have been taken away before
    have hcleared := cleared_of_goes ha hx hget hafter
    rcases hd.cases ha hhosts with hold | ⟨i, hraised, rfl, -⟩
    · exact absurd hold ((h.cleared k id hcleared).2 name)
    · exact absurd hcleared ((h.raised k i hraised).2.2 k)

theorem Housed.raised_asks (h : c.Housed) (hc : c.Conducted) (ha : q.Allows s (c.past k) x.call)
    (hx : Outcome c.world.store x c'.world.store) (hd : Handles c c' x)
    (hlog : c'.log = ⟨k, x⟩ :: c.log) {j : Nat} {i : Instance} (hj : c'.Raised j i) :
    (∃ r, c'.world.store.records.get? i.id = some r) ∧
      (∀ name, ¬ c'.world.directory.Hosts name i.id) ∧ ∀ l, ¬ c'.Cleared l i.id := by
  rcases raised_cases hlog hj with ⟨hjk, hraised⟩ | ⟨rfl, version, rfl⟩
  · obtain ⟨⟨r, hget⟩, hnohost, hnoclear⟩ := h.raised j i hraised
    refine ⟨?_, fun name hhosts => ?_, fun l hl => ?_⟩
    · cases hafter : c'.world.store.records.get? i.id with
      | some r' => exact ⟨r', rfl⟩
      | none => exact absurd (cleared_of_goes ha hx hget hafter) (hnoclear k)
    · rcases hd.cases ha hhosts with hold | ⟨i', hraised', hid, -⟩
      · exact hnohost name hold
      · exact hjk (raised_unique hc hraised hraised' hid)
    · rcases cleared_cases hlog hl with ⟨-, hcleared⟩ | ⟨rfl, provider, rfl⟩
      · exact hnoclear l hcleared
      · exact hnohost provider (hd.clears provider i.id rfl).1
  · obtain ⟨hnone, r, hget⟩ : c.world.store.records.get? i.id = none ∧
        ∃ r, c'.world.store.records.get? i.id = some r := by
      generalize c'.world.store = w at hx
      cases hx with
      | inserted _ _ hnew hs => exact ⟨hnew, _, by rw [hs, Dict.get?_insert, if_pos rfl]⟩
      | kept _ hw hremoval hsight => cases hw
    refine ⟨⟨r, hget⟩, fun name hhosts => ?_, fun l hl => ?_⟩
    · rcases hd.hosts name i.id hhosts with hold | ⟨o, hcall, -⟩
      · obtain ⟨r', hget', -⟩ := h.hosted name i.id hold
        rw [hnone] at hget'
        cases hget'
      · cases hcall
    · rcases cleared_cases hlog hl with ⟨-, hcleared⟩ | ⟨rfl, provider, hcall⟩
      · obtain ⟨r', hget'⟩ := (h.cleared l i.id hcleared).1
        rw [hnone] at hget'
        cases hget'
      · cases hcall

theorem Housed.cleared_asks (h : c.Housed) (ha : q.Allows s (c.past k) x.call)
    (hx : Outcome c.world.store x c'.world.store) (hd : Handles c c' x)
    (hlog : c'.log = ⟨k, x⟩ :: c.log) {j : Nat} {id : String} (hj : c'.Cleared j id) :
    (∃ r, c'.world.store.records.get? id = some r) ∧
      ∀ name, ¬ c'.world.directory.Hosts name id := by
  rcases cleared_cases hlog hj with ⟨hjk, hcleared⟩ | ⟨rfl, provider, rfl⟩
  · obtain ⟨⟨r, hget⟩, hnohost⟩ := h.cleared j id hcleared
    refine ⟨?_, fun name hhosts => ?_⟩
    · cases hafter : c'.world.store.records.get? id with
      | some r' => exact ⟨r', rfl⟩
      | none => exact absurd (h.alone j k id hcleared (cleared_of_goes ha hx hget hafter)) hjk
    · rcases hd.cases ha hhosts with hold | ⟨i, hraised, rfl, -⟩
      · exact hnohost name hold
      · exact (h.raised k i hraised).2.2 j hcleared
  · obtain ⟨hhosted, hgone⟩ := hd.clears provider id rfl
    obtain ⟨r, hget, hprovider⟩ := h.hosted provider id hhosted
    refine ⟨?_, fun name hhosts => ?_⟩
    · cases hafter : c'.world.store.records.get? id with
      | some r' => exact ⟨r', rfl⟩
      | none =>
        obtain ⟨tenant, hcall⟩ := hx.of_goes hget hafter
        cases hcall
    · rcases hd.hosts name id hhosts with hold | ⟨o, hcall, -⟩
      · obtain ⟨r', hget', hname⟩ := h.hosted name id hold
        rw [hget] at hget'
        cases hget'
        rw [← hname, hprovider] at hhosts
        exact hgone hhosts
      · cases hcall

theorem Housed.alone_asks (h : c.Housed) (hd : Handles c c' x) (hlog : c'.log = ⟨k, x⟩ :: c.log)
    {j l : Nat} {id : String} (hj : c'.Cleared j id) (hl : c'.Cleared l id) : j = l := by
  rcases cleared_cases hlog hj with ⟨-, hcj⟩ | ⟨rfl, provider, rfl⟩
  · rcases cleared_cases hlog hl with ⟨-, hcl⟩ | ⟨rfl, provider, rfl⟩
    · exact h.alone j l id hcj hcl
    · exact absurd (hd.clears provider id rfl).1 ((h.cleared j id hcj).2 provider)
  · rcases cleared_cases hlog hl with ⟨-, hcl⟩ | ⟨rfl, -⟩
    · exact absurd (hd.clears provider id rfl).1 ((h.cleared l id hcl).2 provider)
    · rfl

theorem Housed.asks (h : c.Housed) (hc : c.Conducted) (hr : (c.map (·.store)).Rooted)
    (hr' : (c'.map (·.store)).Rooted) (ha : q.Allows s (c.past k) x.call)
    (hx : Outcome c.world.store x c'.world.store) (hd : Handles c c' x)
    (hlog : c'.log = ⟨k, x⟩ :: c.log) : c'.Housed where
  hosted := fun _ _ hhosts => h.hosted_asks hr hr' ha hx hd hlog hhosts
  raised := fun _ _ hj => h.raised_asks hc ha hx hd hlog hj
  cleared := fun _ _ hj => h.cleared_asks ha hx hd hlog hj
  alone := fun _ _ _ hj hl => h.alone_asks hd hlog hj hl

end

/-- Nothing is asked, and nothing comes to the store or to the providers. -/
theorem Housed.quiet (h : c.Housed) (hlog : c'.log = c.log) (hs : c'.world.store = c.world.store)
    (hhosts : ∀ name id, c'.world.directory.Hosts name id → c.world.directory.Hosts name id) :
    c'.Housed := by
  have hlast : c'.last = c.last := by
    funext k
    simp only [last, past, hlog]
  have hraised : c'.Raised = c.Raised := by
    funext k i
    rw [Raised, Raised, hlast]
  have hcleared : c'.Cleared = c.Cleared := by
    funext k id
    rw [Cleared, Cleared, hlast]
  constructor
  · intro name id hold
    rw [hs]
    exact h.hosted name id (hhosts name id hold)
  · intro k i hk
    rw [hraised] at hk
    rw [hs, hcleared]
    obtain ⟨hget, hnohost, hnoclear⟩ := h.raised k i hk
    exact ⟨hget, fun name hold => hnohost name (hhosts name i.id hold), hnoclear⟩
  · intro k id hk
    rw [hcleared] at hk
    rw [hs]
    obtain ⟨hget, hnohost⟩ := h.cleared k id hk
    exact ⟨hget, fun name hold => hnohost name (hhosts name id hold)⟩
  · rw [hcleared]
    exact h.alone

theorem handles_of_serve {x : Exchange} {o : Surroundings.ofPlane.Open}
    (hserve : Surroundings.ofPlane.serve o c.world x.call = (x.answer, c'.world)) :
    Handles c c' x := by
  have hworld : (c.world.serve x.call).2.1 = c'.world := congrArg Prod.snd hserve
  constructor
  · intro name id h
    rw [← hworld] at h
    exact Plane.hosts_of_serve h
  · rintro name id rfl
    rw [← hworld]
    exact Provider.Directory.hosts_of_deprovision (congrArg Prod.fst hserve)

/-- A provider that begins to fail, or that recovers, holds what it held. -/
theorem hosts_of_befall {p : Plane} {w : Weather} {name id : String}
    (h : (Surroundings.ofPlane.befall w p).directory.Hosts name id) :
    p.directory.Hosts name id := by
  cases w with
  | fails name' task =>
    refine Provider.Directory.hosts_of_adjust (fun l => ?_) h
    unfold Provider.Local.failOn
    split <;> rfl
  | recovers name' task =>
    exact Provider.Directory.hosts_of_adjust (f := (·.recover task)) (fun l => rfl) h

theorem housed_step {m : Move .ofPlane} (h : c.Housed) (hc : c.Conducted)
    (hr : (c.map (·.store)).Rooted) (hr' : (c'.map (·.store)).Rooted)
    (hs : c.step .ofPlane m = some c') : c'.Housed := by
  cases step_turn hc hs with
  | quiet hlog hworld hasked =>
    rcases hworld with hworld | ⟨w, hworld⟩
    · exact h.quiet hlog (hworld ▸ rfl) fun name id hold => hworld ▸ hold
    · refine h.quiet hlog ?_ fun name id hold => hosts_of_befall (hworld ▸ hold)
      rw [hworld]
      cases w <;> rfl
  | asks k q s x o hk ha hserve hlog hasked =>
    have hx : Outcome c.world.store x c'.world.store := by
      have houtcome := Plane.outcome_of_serve hr.filed x.call
      rw [show (c.world.serve x.call).1 = x.answer from congrArg Prod.fst hserve,
        show (c.world.serve x.call).2.1 = c'.world from congrArg Prod.snd hserve] at houtcome
      exact houtcome
    exact h.asks hc hr hr' ha hx (handles_of_serve hserve) hlog

/-! ## Runs over a control plane -/

section

variable {c c' : Config Plane} {p : Plane}

theorem housed_start (hw : ∀ name l, p.directory.providers.get? name = some l →
    l.workloads = .empty) : (start p).Housed := by
  have hlast : ∀ k, (start p).last k = none := fun k => rfl
  constructor
  · rintro name id ⟨l, w, hl, hget⟩
    change p.directory.providers.get? name = some l at hl
    rw [hw name l hl] at hget
    cases hget
  · rintro k i ⟨version, hk⟩
    rw [hlast] at hk
    cases hk
  · rintro k id ⟨provider, hk⟩
    rw [hlast] at hk
    cases hk
  · rintro j k id ⟨provider, hj⟩
    rw [hlast] at hj
    cases hj

theorem housed_of_reaches (hs : p.store = .empty) (hw : ∀ name l,
    p.directory.providers.get? name = some l → l.workloads = .empty)
    (h : Reaches .ofPlane (start p) c) : c.Housed := by
  refine h.induct (fun d m d' hd hh hstep => ?_) (housed_start hw)
  have hr : ∀ e, Reaches .ofPlane (start p) e → (e.map (·.store)).Rooted := fun e he =>
    rooted_of_reaches (hs ▸ reaches_store he)
  exact housed_step hh (conducted_of_reaches hd) (hr d hd) (hr d' (hd.step hstep)) hstep

/-- Over a control plane that begins with no records and no workloads, every workload has a record with
its id and with the name of its provider; an id whose record was removed never has a record or a
workload again; and its end is published once at most. -/
theorem no_orphan_and_no_return (hs : p.store = .empty) (hw : ∀ name l,
    p.directory.providers.get? name = some l → l.workloads = .empty)
    (h : Reaches .ofPlane (start p) c) :
    (∀ name id, c.world.directory.Hosts name id →
      ∃ r, c.world.store.records.get? id = some r ∧ r.id = id ∧ r.provider = name) ∧
    (∀ k tenant id, ⟨k, .delete tenant id, .ok ()⟩ ∈ c.log → ∀ c', Reaches .ofPlane c c' →
      c'.world.store.records.get? id = none ∧ ∀ name, ¬ c'.world.directory.Hosts name id) ∧
    ∀ id, c.obituaries id ≤ 1 := by
  have hstore : ∀ d, Reaches .ofPlane (start p) d →
      Reaches .ofStore (start .empty) (d.map (·.store)) := fun d hd => hs ▸ reaches_store hd
  refine ⟨fun name id hhosts => ?_, fun k tenant id he c' h' => ?_,
    (mourned_of_reaches (hstore c h)).once⟩
  · obtain ⟨r, hget, hname⟩ := (housed_of_reaches hs hw h).hosted name id hhosts
    exact ⟨r, hget, (rooted_of_reaches (hstore c h)).filed id r hget, hname⟩
  · have hgone := (rooted_of_reaches (hstore c' (h.trans h'))).gone _
      (h'.log_suffix.subset he) id rfl
    refine ⟨hgone.1, fun name hhosts => ?_⟩
    obtain ⟨r, hget, -⟩ := (housed_of_reaches hs hw (h.trans h')).hosted name id hhosts
    rw [show c'.world.store.records.get? id = none from hgone.1] at hget
    cases hget

end

/-- A control plane with one provider. -/
def solo : Plane where
  directory :=
    { providers := Dict.empty.insert "local" { name := "local" }, fallback := some "local" }

/-- Two instances are created, and the first is deleted. -/
def replaced : Config Plane :=
  ((start solo).run .ofPlane (creation () 0 "inst_1" "evt_1" "Web" ++
    creation () 1 "inst_2" "evt_2" "Web 2" ++
    asking "inst_3" "evt_3" (.delete "inst_1") :: List.replicate 6 (.answer 2 ()))).get
      (by decide +kernel)

theorem no_orphan_and_no_return_replaced :
    solo.store = .empty ∧
      (∀ name l, solo.directory.providers.get? name = some l → l.workloads = .empty) ∧
      Reaches .ofPlane (start solo) replaced ∧ replaced.world.directory.Hosts "local" "inst_2" ∧
      (∃ r, replaced.world.store.records.get? "inst_2" = some r ∧ r.provider = "local") ∧
      replaced.world.store.records.get? "inst_1" = none ∧ replaced.obituaries "inst_1" = 1 := by
  have hw : ∀ name l, solo.directory.providers.get? name = some l → l.workloads = .empty := by
    intro name l hl
    simp only [solo, Dict.get?_insert, Dict.get?_empty, Option.ite_none_right_eq_some,
      Option.some.injEq] at hl
    rw [← hl.2]
  have hreach : Reaches .ofPlane (start solo) replaced := ⟨_, (Option.some_get _).symm⟩
  have hhosts : replaced.world.directory.Hosts "local" "inst_2" := by
    have hsome : ((replaced.world.directory.providers.get? "local").bind
        (·.workloads.get? "inst_2")).isSome = true := by decide +kernel
    obtain ⟨w, hsome⟩ := Option.isSome_iff_exists.1 hsome
    obtain ⟨l, hl, hwork⟩ := Option.bind_eq_some_iff.1 hsome
    exact ⟨l, w, hl, hwork⟩
  obtain ⟨hhome, hgone, honce⟩ := no_orphan_and_no_return rfl hw hreach
  obtain ⟨r, hget, -, hname⟩ := hhome "local" "inst_2" hhosts
  have hdeleted : replaced.log[1]? = some ⟨2, .delete "acme" "inst_1", .ok ()⟩ := rfl
  have hnone := (hgone 2 "acme" "inst_1" (List.mem_of_getElem? hdeleted) replaced (.refl _)).1
  have hpublished : replaced.obituaries "inst_1" ≠ 0 := by decide +kernel
  have hle := honce "inst_1"
  exact ⟨rfl, hw, hreach, hhosts, ⟨r, hget, hname⟩, hnone, by omega⟩

end Config

end Service

end Fleet
