import Fleet.Proofs.Upshot
import Fleet.Proofs.Workloads

/-!
# Records and workloads agree

While requests are carried out one after the other, every record says of its workload what the provider
says of it (`Instance.Fits`), and every workload has its record (`Estate.Agrees`). Each end of a request
keeps that: an errand changes the record as its command changes the workload (`fits_settled`), marks the
record failed when the provider failed (`fits_ruined`), or removes both; a creation adds both, or a failed
record alone. So it holds as long as a control plane lives (`record_and_workload_agree`). -/

namespace Fleet

open Service Provider

/-- Whether a workload may be in the state when nobody is at work on its record. -/
def State.isSettled : State → Bool
  | .provisioning | .running | .stopped => true
  | _ => false

/-- Whether a record says of its workload what the provider, which calls itself `own`, says of it. -/
def Instance.Fits (r : Instance) (own : String) : Option Workload → Prop
  | none => r.state = .failed ∧ r.providerRef = ""
  | some w => (r.state = .failed ∨ r.state = w.state ∧ w.state.isSettled = true) ∧
      w.resources = r.resources ∧ w.endpoints = r.endpoints ∧ r.providerRef = own ++ "-" ++ r.id

/-- Whether all records fit their workloads, and all workloads have records. -/
structure Estate.Agrees (w : Estate) : Prop where
  fits : ∀ id r, w.store.records.get? id = some r → ∃ own,
    w.directory.nameOf r.provider = some own ∧ r.Fits own (w.directory.hosted r.provider id)
  recorded : ∀ name id x, w.directory.hosted name id = some x →
    ∃ r, w.store.records.get? id = some r ∧ r.provider = name

namespace Service.Errand

variable {q : Request} {e : Errand}

/-- A record still fits its workload after the provider failed. -/
theorem fits_ruined (he : q.errand = some e) (stamp : Stamp) {i : Instance} {own : String}
    {x : Option Workload} (h : i.Fits own x) : (e.ruined stamp i).Fits own x := by
  rcases ruined_cases he stamp i with ⟨-, hsame⟩ | ⟨_, _, _, _, hfailed⟩
  · rw [hsame]
    exact h
  · rw [hfailed]
    cases x with
    | none => exact ⟨rfl, h.2⟩
    | some x => exact ⟨.inl rfl, h.2⟩

/-- What an errand changes of a record, its command changes of the workload. -/
theorem fits_settled (he : q.errand = some e) {edit : Stamp → Instance → Instance}
    (hedit : e.edit = some edit) (stamp : Stamp) (i : Instance) :
    ∃ f, (e.command (e.entered stamp i)).change? = some f ∧
      (e.command (e.entered stamp i)).target = i.id ∧
      ∀ own x, i.Fits own (some x) → (e.settled edit stamp i).Fits own (some (f x)) := by
  cases q with
  | start id | stop id | restart id | suspend id reason | unsuspend id =>
    cases he
    cases hedit
    exact ⟨_, rfl, rfl, fun own x h => ⟨.inr ⟨rfl, rfl⟩, h.2⟩⟩
  | scale id r =>
    cases he
    cases hedit
    exact ⟨_, rfl, rfl, fun own x h => ⟨h.1, rfl, h.2.2⟩⟩
  | delete id =>
    cases he
    cases hedit
  | _ => cases he

/-- Only a deletion leads to no record, and it takes the workload away. -/
theorem hosted_of_told (he : q.errand = some e) (hedit : e.edit = none) {stamp : Stamp} {w : Estate}
    {i : Instance} {l : Local} (hl : w.directory.providers.get? i.provider = some l)
    {a : (e.command (e.entered stamp i)).Reply} (hc : (e.told stamp w i).1 = .ok a) (n id : String) :
    (e.told stamp w i).2.hosted n id =
      if n = i.provider ∧ id = i.id then none else w.directory.hosted n id := by
  cases q with
  | delete id' =>
    cases he
    exact Directory.hosted_of_removal hl hc n id
  | start id' | stop id' | restart id' | scale id' r | suspend id' reason | unsuspend id' =>
    cases he
    cases hedit
  | _ => cases he

/-- A provider that did as an errand told it had the workload. -/
theorem hosted_of_done (he : q.errand = some e) {stamp : Stamp} {w : Estate} {i : Instance}
    {l : Local} (hl : w.directory.providers.get? i.provider = some l)
    {a : (e.command (e.entered stamp i)).Reply} (hc : (e.told stamp w i).1 = .ok a) :
    ∃ x, w.directory.hosted i.provider i.id = some x := by
  cases hedit : e.edit with
  | some edit =>
    obtain ⟨f, hf, htarget, -⟩ := fits_settled he hedit stamp i
    obtain ⟨x, hx, -⟩ := Directory.hosted_of_change hl hf hc
    rw [htarget] at hx
    exact ⟨x, hx⟩
  | none =>
    cases q with
    | delete id' =>
      cases he
      obtain ⟨p, x, hp, hx⟩ := (Directory.hosts_of_deprovision hc).1
      exact ⟨x, (Directory.hosted_of_get? hp _).trans hx⟩
    | start id' | stop id' | restart id' | scale id' r | suspend id' reason | unsuspend id' =>
      cases he
      cases hedit
    | _ => cases he

end Service.Errand

/-- Where every workload stays as it is, that of one id does. -/
theorem Provider.Directory.hosted_of_kept {d d' : Directory}
    (h : ∀ n id, d'.hosted n id = d.hosted n id) (provider target n id : String) :
    d'.hosted n id =
      if n = provider ∧ id = target then d.hosted provider target else d.hosted n id := by
  rw [h]
  split
  · rename_i hboth
    rw [hboth.1, hboth.2]
  · rfl

namespace Estate.Agrees

variable {w : Estate}

/-- What is stored under one id, and hosted under it by the provider of its record, is changed so that
both fit afterwards. -/
theorem step (h : w.Agrees) {id provider : String} {s : Store} {d : Directory}
    {stored : Option Instance} {x : Option Workload}
    (hstored : ∀ other, s.records.get? other =
      if id = other then stored else w.store.records.get? other)
    (hname : ∀ n, d.nameOf n = w.directory.nameOf n)
    (hhosted : ∀ n other, d.hosted n other =
      if n = provider ∧ other = id then x else w.directory.hosted n other)
    (hbefore : ∀ r, w.store.records.get? id = some r → r.provider = provider)
    (hfits : ∀ r, stored = some r → r.provider = provider ∧ ∃ own,
      w.directory.nameOf provider = some own ∧ r.Fits own x)
    (hnone : stored = none → x = none) : Agrees ⟨s, d⟩ where
  fits := by
    intro other r hr
    rw [hstored] at hr
    rw [hname, hhosted]
    by_cases hsame : id = other
    · rw [if_pos hsame] at hr
      obtain ⟨hprovider, own, hown, hfit⟩ := hfits r hr
      rw [if_pos ⟨hprovider, hsame.symm⟩, hprovider]
      exact ⟨own, hown, hfit⟩
    · rw [if_neg hsame] at hr
      rw [if_neg fun hboth => hsame hboth.2.symm]
      exact h.fits other r hr
  recorded := by
    intro n other y hy
    rw [hhosted] at hy
    rw [hstored]
    by_cases hboth : n = provider ∧ other = id
    · rw [if_pos hboth] at hy
      rw [if_pos hboth.2.symm]
      cases hr : stored with
      | none =>
        rw [hnone hr] at hy
        cases hy
      | some r => exact ⟨r, rfl, (hfits r hr).1.trans hboth.1.symm⟩
    · rw [if_neg hboth] at hy
      obtain ⟨r, hr, hn⟩ := h.recorded n other y hy
      rw [if_neg, hr]
      · exact ⟨r, rfl, hn⟩
      · -- The record under the id is at `provider`, so no other provider has a workload of that id.
        intro hsame
        rw [← hsame] at hr
        exact hboth ⟨hn.symm.trans (hbefore r hr), hsame.symm⟩

/-- A record and its workload are changed together. -/
theorem change (h : w.Agrees) {i r : Instance} (hi : w.store.records.get? i.id = some i)
    (hid : r.id = i.id) (hprovider : r.provider = i.provider) {s : Store}
    (hs : s.records = (w.store.put r).records) {d : Directory}
    (hname : ∀ n, d.nameOf n = w.directory.nameOf n) {x : Option Workload}
    (hhosted : ∀ n id, d.hosted n id =
      if n = i.provider ∧ id = i.id then x else w.directory.hosted n id)
    (hfits : ∀ own, i.Fits own (w.directory.hosted i.provider i.id) → r.Fits own x) :
    Agrees ⟨s, d⟩ := by
  obtain ⟨own, hown, hold⟩ := h.fits i.id i hi
  have hstored : ∀ other, s.records.get? other =
      if i.id = other then some r else w.store.records.get? other := by
    intro other
    rw [hs, Store.get?_put, hid]
  refine h.step hstored hname hhosted (fun r' hr' => ?_) (fun r' hr' => ?_) nofun
  · rw [Option.some.inj (hr'.symm.trans hi)]
  · obtain rfl := Option.some.inj hr'
    exact ⟨hprovider, own, hown, hfits own hold⟩

/-- A record is removed with its workload. -/
theorem drop (h : w.Agrees) {i : Instance} (hi : w.store.records.get? i.id = some i) {d : Directory}
    (hname : ∀ n, d.nameOf n = w.directory.nameOf n)
    (hhosted : ∀ n id, d.hosted n id =
      if n = i.provider ∧ id = i.id then none else w.directory.hosted n id) :
    Agrees ⟨w.store.drop i, d⟩ := by
  refine h.step (w.store.get?_drop i) hname hhosted (fun r hr => ?_) (fun r hr => ?_) fun _ => rfl
  · rw [Option.some.inj (hr.symm.trans hi)]
  · cases hr

/-- A record is added under a new id, with a workload or without. -/
theorem add (h : w.Agrees) {r : Instance} (hnew : w.store.records.get? r.id = none) {own : String}
    (hown : w.directory.nameOf r.provider = some own) {d : Directory}
    (hname : ∀ n, d.nameOf n = w.directory.nameOf n) {x : Option Workload}
    (hhosted : ∀ n id, d.hosted n id =
      if n = r.provider ∧ id = r.id then x else w.directory.hosted n id)
    (hfits : r.Fits own x) : Agrees ⟨w.store.add r, d⟩ := by
  refine h.step (w.store.get?_add r) hname hhosted (fun r' hr' => ?_) (fun r' hr' => ?_) nofun
  · cases hnew.symm.trans hr'
  · obtain rfl := Option.some.inj hr'
    exact ⟨rfl, own, hown, hfits⟩

/-- No workload has an id that no record has. -/
theorem hosted_eq_none (h : w.Agrees) {id : String} (hnew : w.store.records.get? id = none)
    (n : String) : w.directory.hosted n id = none := by
  cases hx : w.directory.hosted n id with
  | none => rfl
  | some x =>
    obtain ⟨r, hr, -⟩ := h.recorded n id x hx
    rw [hnew] at hr
    cases hr

/-- Nothing changes but what fails at providers. -/
theorem of_weather (h : w.Agrees) {d : Directory}
    (hd : ∀ n, d.nameOf n = w.directory.nameOf n ∧ ∀ id, d.hosted n id = w.directory.hosted n id) :
    Agrees { w with directory := d } where
  fits := by
    intro id r hr
    obtain ⟨own, hown, hold⟩ := h.fits id r hr
    refine ⟨own, (hd _).1.trans hown, ?_⟩
    rw [(hd _).2]
    exact hold
  recorded := by
    intro n id x hx
    rw [(hd n).2] at hx
    exact h.recorded n id x hx

end Estate.Agrees

namespace Service

variable {w : Estate} {limit : UInt64} {caller : Option Caller} {stamp : Stamp} {u : Upshot Reply}

theorem Errand.Comes.agrees {q : Request} {e : Errand} (he : q.errand = some e)
    (hcomes : e.Comes caller stamp w u) (h : w.Agrees) : u.estate.Agrees := by
  cases hcomes with
  | refused f hf => exact h
  | @failed who i ha cause hc =>
    obtain ⟨l, hl⟩ := ha.registered
    obtain ⟨hid, hprovider⟩ := Errand.ruined_keeps he stamp i
    have hkept := Directory.hosted_of_kept (Directory.hosted_of_error hl hc) i.provider i.id
    exact h.change ha.stored hid hprovider rfl (Directory.nameOf_command _ _ _) hkept fun own =>
      Errand.fits_ruined he stamp
  | @settled who i ha edit hedit a hc =>
    obtain ⟨l, hl⟩ := ha.registered
    obtain ⟨f, hf, htarget, hfits⟩ := Errand.fits_settled he hedit stamp i
    obtain ⟨x, hx, hhosted⟩ := Directory.hosted_of_change hl hf hc
    obtain ⟨hid, hprovider⟩ := Errand.settled_keeps he hedit stamp i
    rw [htarget] at hx
    refine h.change ha.stored hid hprovider rfl (Directory.nameOf_command _ _ _)
      (fun n id => (hhosted n id).trans (by rw [htarget])) fun own hold => ?_
    rw [hx] at hold
    exact hfits own x hold
  | @removed who i ha hedit a hc =>
    obtain ⟨l, hl⟩ := ha.registered
    exact h.drop ha.stored (Directory.nameOf_command _ _ _) (Errand.hosted_of_told he hedit hl hc)

theorem Request.Comes.agrees {q : Request} (hcomes : q.Comes limit caller stamp w u)
    (hf : w.store.Filed) (h : w.Agrees) : u.estate.Agrees := by
  cases hcomes with
  | refused f hr => exact h
  | overQuota r hwho hroom => exact h
  | shown reply hs => exact h
  | @updated id r who i edited s hwho hi howner hc hs =>
    have hrecords := Store.records_of_update hs
    obtain ⟨name, slug, env, labels, rfl⟩ := changed_eq_ok hc
    obtain rfl : i.id = id := hf id i hi
    have hkept := Directory.hosted_of_kept (d := w.directory) (fun _ _ => rfl) i.provider i.id
    refine h.change hi ?_ ?_ hrecords (fun n => rfl) hkept fun own hold => hold
    · rfl
    · rfl
  | @created r who provider ha made hc =>
    obtain ⟨l, -, hl⟩ := ha.registered
    obtain ⟨href, hhosted⟩ := Directory.hosted_of_provision hl hc
    have hown : w.directory.nameOf (provisioned who r provider stamp made).provider = some l.name :=
      congrArg (Option.map Local.name) hl
    exact h.add ha.fresh hown (Directory.nameOf_command _ _ _) hhosted
      ⟨.inr ⟨rfl, rfl⟩, rfl, rfl, href⟩
  | @unprovisioned r who provider ha cause hc =>
    obtain ⟨l, -, hl⟩ := ha.registered
    have hown : w.directory.nameOf (stillborn who r provider stamp).provider = some l.name :=
      congrArg (Option.map Local.name) hl
    have hkept := Directory.hosted_of_kept (Directory.hosted_of_error hl hc) provider stamp.instanceId
    rw [h.hosted_eq_none ha.fresh] at hkept
    exact h.add ha.fresh hown (Directory.nameOf_command _ _ _) hkept ⟨rfl, rfl⟩
  | errand he hcomes => exact hcomes.agrees he h

end Service

namespace Plane

variable {p : Plane}

theorem agrees_start (hs : p.store = .empty)
    (hw : ∀ name l, p.directory.providers.get? name = some l → l.workloads = .empty) :
    p.estate.Agrees where
  fits := by
    intro id r hr
    simp [estate, hs, Store.empty] at hr
  recorded := by
    intro name id x hx
    obtain ⟨l, hl, hwork⟩ := Option.bind_eq_some_iff.1 hx
    rw [hw name l hl] at hwork
    cases hwork

theorem agrees_live (hs : p.store = .empty)
    (hw : ∀ name l, p.directory.providers.get? name = some l → l.workloads = .empty)
    (deeds : List Deed) :
    (p.live deeds).1.store.Filed ∧ (p.live deeds).1.estate.Agrees := by
  refine live_induct (P := Estate.Agrees) (fun w limit caller stamp q u hf h hcomes =>
    hcomes.agrees hf h) (fun w name f hkeeps h => ?_) (filed_of_empty hs) (agrees_start hs hw) deeds
  exact h.of_weather (Directory.adjust_keeps hkeeps)

/-- While a control plane that began with no records and no workloads carries out requests one after
the other, whatever fails meanwhile, every record is in a state in which nobody is at work on it; it
has its workload in just that state, unless it is failed; without a workload it is failed and has no
reference; and what it says of its workload's resources, endpoints and reference is true. -/
theorem record_and_workload_agree (hs : p.store = .empty)
    (hw : ∀ name l, p.directory.providers.get? name = some l → l.workloads = .empty)
    (deeds : List Deed) {id : String} {r : Instance}
    (hr : (p.live deeds).1.store.records.get? id = some r) :
    (r.state = .provisioning ∨ r.state = .running ∨ r.state = .stopped ∨ r.state = .failed) ∧
      ∃ l, (p.live deeds).1.directory.providers.get? r.provider = some l ∧
        (r.state ≠ .failed → ∃ x, l.workloads.get? id = some x ∧ x.state = r.state) ∧
        (l.workloads.get? id = none → r.state = .failed ∧ r.providerRef = "") ∧
        ∀ x, l.workloads.get? id = some x → x.resources = r.resources ∧ x.endpoints = r.endpoints ∧
          r.providerRef = l.name ++ "-" ++ id := by
  obtain ⟨hfiled, hagrees⟩ := agrees_live hs hw deeds
  obtain ⟨own, hown, hfits⟩ := hagrees.fits id r hr
  obtain ⟨l, hl, rfl⟩ := Option.map_eq_some_iff.1 hown
  have hid : r.id = id := hfiled id r hr
  rw [Directory.hosted_of_get? hl] at hfits
  cases hx : l.workloads.get? id with
  | none =>
    rw [hx] at hfits
    refine ⟨.inr (.inr (.inr hfits.1)), l, hl, fun hne => absurd hfits.1 hne, fun _ => hfits, ?_⟩
    intro x h
    rw [hx] at h
    cases h
  | some x =>
    rw [hx] at hfits
    obtain ⟨hstate, hresources, hendpoints, href⟩ := hfits
    refine ⟨?_, l, hl, fun hne => ⟨x, hx, ?_⟩, fun hnone => ?_, fun y hy => ?_⟩
    · rcases hstate with hfailed | ⟨hsame, hsettled⟩
      · exact .inr (.inr (.inr hfailed))
      · rw [hsame]
        cases hstate : x.state <;> simp_all [State.isSettled]
    · rcases hstate with hfailed | ⟨hsame, -⟩
      · exact absurd hfailed hne
      · exact hsame.symm
    · rw [hx] at hnone
      cases hnone
    · rw [hx] at hy
      cases hy
      exact ⟨hresources, hendpoints, hid ▸ href⟩

/-- A user of one tenant makes a request, with a new id and an id for its event. -/
def deed (id event : String) (q : Request) : Deed :=
  .request (some (.ofTenant "acme" "user-1"))
    { instanceId := id, eventId := event, clock := fun n => { seconds := n } } q

/-- One instance is created and started, and the workload of another cannot be provisioned. -/
def failing : List Deed :=
  [deed "inst_1" "evt_1" (.create { name := "Web", image := "nginx" }),
    deed "inst_2" "evt_2" (.start "inst_1"), .weather (.fails "local" .provision),
    deed "inst_3" "evt_3" (.create { name := "Db", image := "postgres" })]

theorem workloads_solo (name : String) (l : Provider.Local)
    (hl : Config.solo.directory.providers.get? name = some l) : l.workloads = .empty := by
  simp only [Config.solo, Dict.get?_insert, Dict.get?_empty, Option.ite_none_right_eq_some,
    Option.some.injEq] at hl
  rw [← hl.2]

theorem record_and_workload_agree_failing :
    Config.solo.store = .empty ∧
      (∀ name l, Config.solo.directory.providers.get? name = some l → l.workloads = .empty) ∧
      (∃ r l x, (Config.solo.live failing).1.store.records.get? "inst_1" = some r ∧
        r.state = .running ∧
        (Config.solo.live failing).1.directory.providers.get? r.provider = some l ∧
        l.workloads.get? "inst_1" = some x ∧ x.state = .running ∧ x.resources = r.resources ∧
        r.providerRef = l.name ++ "-" ++ "inst_1") ∧
      ∃ r, (Config.solo.live failing).1.store.records.get? "inst_3" = some r ∧
        (Config.solo.live failing).1.directory.hosted r.provider "inst_3" = none ∧
        r.state = .failed ∧ r.providerRef = "" := by
  have hrunning : ((Config.solo.live failing).1.store.records.get? "inst_1").map (·.state) =
      some .running := by
    decide +kernel
  have halone : ((Config.solo.live failing).1.store.records.get? "inst_3").map
      (fun r => (Config.solo.live failing).1.directory.hosted r.provider "inst_3") = some none := by
    decide +kernel
  obtain ⟨r, hr, hstate⟩ := Option.map_eq_some_iff.1 hrunning
  obtain ⟨r', hr', hnone⟩ := Option.map_eq_some_iff.1 halone
  obtain ⟨-, l, hl, hlive, -, hsame⟩ := record_and_workload_agree rfl workloads_solo failing hr
  obtain ⟨x, hx, hxstate⟩ := hlive (by rw [hstate]; decide)
  obtain ⟨hresources, -, href⟩ := hsame x hx
  obtain ⟨-, l', hl', -, hwithout, -⟩ := record_and_workload_agree rfl workloads_solo failing hr'
  obtain ⟨hfailed, hempty⟩ := hwithout ((Directory.hosted_of_get? hl' _).symm.trans hnone)
  exact ⟨rfl, workloads_solo, ⟨r, l, x, hr, hstate, hl, hx, hxstate.trans hstate, hresources, href⟩,
    r', hr', hnone, hfailed, hempty⟩

end Plane

end Fleet
