import Fleet.Proofs.Index
import Fleet.Proofs.Retelling

/-!
# Which instances can be deleted

A deletion goes through when nothing refuses it (`Errand.carry_admitted`) and the provider has the
workload (`Directory.deprovision_of_hosted`). While requests are carried out one after the other nothing
does refuse it to the owner of a record in a state that may be left for `destroying`: ids are
identifiers, records have owners and a registered provider (`Store.Kempt`, `Estate.Agrees`). Then the
record, its workload and its slug are gone (`delete_of_workload`).

A record whose provisioning failed has no workload. Its deletion fails at the provider, and whatever is
done, it stays (`unhosted_live`). So just the records that have a workload can be deleted
(`deletable_with_workload`), though the table has a move from `failed` to `destroying`
(`some_record_is_indelible`). -/

namespace Fleet

open Service Procedure Provider

/-! ## What the provider answers -/

namespace Provider.Local

variable {p : Local} {id : String}

theorem deprovision_of_workload (hf : p.failing = []) {x : Workload}
    (hx : p.workloads.get? id = some x) : (p.handle (.deprovision id)).1 = .ok () := by
  have hcontains : (p.note (.deprovision id)).workloads.contains id = true := by
    show (p.workloads.get? id).isSome = true
    rw [hx]
    rfl
  unfold handle
  rw [hf]
  simp only [List.contains_nil, Bool.false_eq_true, if_false, perform]
  rw [if_pos hcontains]

theorem deprovision_of_none (hf : p.failing = []) (hx : p.workloads.get? id = none) :
    (p.handle (.deprovision id)).1 = .error (.workloadNotFound id) := by
  have hcontains : ¬ (p.note (.deprovision id)).workloads.contains id = true := by
    show ¬ (p.workloads.get? id).isSome = true
    rw [hx]
    simp
  unfold handle
  rw [hf]
  simp only [List.contains_nil, Bool.false_eq_true, if_false, perform]
  rw [if_neg hcontains]

end Provider.Local

namespace Provider.Directory

variable {d : Directory} {name id : String} {l : Local} (hl : d.providers.get? name = some l)
  (hf : l.failing = [])

include hl hf

theorem deprovision_of_hosted {x : Workload} (hx : d.hosted name id = some x) :
    (d.command name (.deprovision id)).1 = .ok () := by
  rw [hosted_of_get? hl] at hx
  rw [command_of_get? hl]
  exact Local.deprovision_of_workload hf hx

theorem deprovision_of_absent (hx : d.hosted name id = none) :
    (d.command name (.deprovision id)).1 = .error (.workloadNotFound id) := by
  rw [hosted_of_get? hl] at hx
  rw [command_of_get? hl]
  exact Local.deprovision_of_none hf hx

end Provider.Directory

namespace Service

/-! ## An errand that nothing refuses -/

namespace Procedure

variable {w : Estate} {who : Caller}

theorem carry_identify (h : who.tenant ≠ "") :
    (identify (some who)).carry w = ⟨.ok who, w, []⟩ := by
  unfold identify
  rw [Caller.require_eq_ok_iff.2 ⟨rfl, h⟩]
  rfl

theorem carry_load {id : String} {i : Instance} (hid : Text.isIdentifier id = true)
    (hi : w.store.records.get? id = some i) (howner : i.tenant = who.tenant) :
    (load who id).carry w = ⟨.ok i, w, []⟩ := by
  have hsome : (id != "") = true := (Bool.and_eq_true_iff.1 hid).1
  have hcheck : (checkId id).carry w = ⟨.ok (), w, []⟩ := by
    unfold checkId
    rw [hsome, hid]
    rfl
  have hfind : (ask (.find who.tenant id)).carry w = ⟨.ok (.ok i), w, []⟩ := by
    show Upshot.mk (.ok (w.store.find who.tenant id)) w [] = _
    rw [Store.find_eq_ok_iff.2 ⟨hi, howner⟩]
  unfold load
  rw [carry_bind_ok hcheck, carry_bind_ok hfind]
  rfl

theorem carry_providerOf {i : Instance} {l : Local}
    (hl : w.directory.providers.get? i.provider = some l) :
    (providerOf i).carry w = ⟨.ok (), w, []⟩ := by
  have hlookup : (ask (.lookup i.provider)).carry w = ⟨.ok (.ok ()), w, []⟩ := by
    show Upshot.mk (.ok ((w.directory.lookup i.provider).map fun _ => ())) w [] = _
    unfold Directory.lookup
    rw [hl]
    rfl
  unfold providerOf
  rw [carry_bind_ok hlookup]
  rfl

end Procedure

namespace Errand

variable {w : Estate} {who : Caller} {i : Instance}

theorem carry_permit (e : Errand)
    (h : ∀ s, e.announces = some s → i.state.canMove s = true) :
    (e.permit i).carry w = ⟨.ok (), w, []⟩ := by
  unfold permit
  cases he : e.announces with
  | none => rfl
  | some s =>
    simp only
    rw [State.move_eq_ok_iff.2 (h s he)]
    rfl

/-- An errand that nothing refuses comes to its provider, and ends as that answers. -/
theorem carry_admitted (e : Errand) (stamp : Stamp) (ha : e.Admits (some who) w who i)
    (htenant : who.tenant ≠ "") (hid : Text.isIdentifier e.id = true) :
    (e.procedure (some who) stamp).carry w =
      match (e.told stamp w i).1 with
      | .error cause => ⟨.error (.providerFailed e.during cause),
          ⟨w.store.put (e.ruined stamp i), (e.told stamp w i).2⟩, e.alarm who stamp i cause⟩
      | .ok _ => (e.finish who stamp (e.entered stamp i)).carry
          ⟨w.store.put (e.entered stamp i), (e.told stamp w i).2⟩ := by
  obtain ⟨l, hl⟩ := ha.registered
  have hload := carry_load hid (ha.id ▸ ha.stored) ha.owner
  have htold : w.directory.command (e.entered stamp i).provider (e.command (e.entered stamp i)) =
      e.told stamp w i := by
    rw [told, provider_entered]
  unfold procedure
  rw [carry_bind_ok (carry_identify htenant), carry_bind_ok hload,
    carry_bind_ok (e.carry_permit ha.allowed), carry_bind_ok (carry_providerOf hl),
    carry_bind_ok (e.carry_enter stamp ha.stored), carry_bind_ok (carry_command _ _ _)]
  simp only [Upshot.after_nil, htold]
  cases (e.told stamp w i).1 with
  | error cause => exact e.carry_abandon who stamp i cause _ _
  | ok a => rfl

def deletion (id : String) : Errand := (Request.delete id).errand.get rfl

section

variable {id : String} (stamp : Stamp) (ha : (deletion id).Admits (some who) w who i)
  (htenant : who.tenant ≠ "") (hid : Text.isIdentifier id = true)

include ha htenant hid

/-- A deletion that nothing refuses removes the record once the provider has taken the workload away. -/
theorem carry_deletion_done
    (hc : (w.directory.command i.provider (.deprovision i.id)).1 = .ok ()) :
    ((deletion id).procedure (some who) stamp).carry w =
      ⟨.ok .removed, ⟨w.store.drop i, (w.directory.command i.provider (.deprovision i.id)).2⟩,
        [(deletion id).news who stamp ((deletion id).entered stamp i)]⟩ := by
  have hc : ((deletion id).told stamp w i).1 = .ok () := hc
  rw [(deletion id).carry_admitted stamp ha htenant hid, hc]
  exact (deletion id).carry_removed rfl who stamp i w.store _

/-- A deletion that nothing refuses fails with its provider, and the record is marked failed. -/
theorem carry_deletion_failed {cause : Provider.Error}
    (hc : (w.directory.command i.provider (.deprovision i.id)).1 = .error cause) :
    ((deletion id).procedure (some who) stamp).carry w =
      ⟨.error (.providerFailed (.task .deprovision) cause),
        ⟨w.store.put ((deletion id).ruined stamp i),
          (w.directory.command i.provider (.deprovision i.id)).2⟩,
        (deletion id).alarm who stamp i cause⟩ := by
  have hc : ((deletion id).told stamp w i).1 = .error cause := hc
  rw [(deletion id).carry_admitted stamp ha htenant hid, hc]
  rfl

end

end Errand

end Service

/-! ## Stores as requests leave them -/

/-- Whether the slug index is in order, and every record has an owner and an identifier as its id. -/
structure Store.Kempt (s : Store) : Prop where
  indexed : s.Indexed
  owned : ∀ id r, s.records.get? id = some r → r.tenant ≠ "" ∧ Text.isIdentifier id = true

namespace Store.Kempt

variable {s s' : Store}

theorem put (h : s.Kempt) {i r : Instance} (hi : s.records.get? i.id = some i) (hid : r.id = i.id)
    (hkey : keyOf r = keyOf i) : (s.put r).Kempt where
  indexed := h.indexed.put (hid ▸ hi) hkey
  owned := by
    intro id r' hr'
    rw [get?_put] at hr'
    by_cases hsame : r.id = id
    · rw [if_pos hsame] at hr'
      cases hr'
      have htenant : r.tenant = i.tenant := congrArg SlugKey.tenant hkey
      rw [htenant]
      exact h.owned id i (hsame ▸ hid ▸ hi)
    · rw [if_neg hsame] at hr'
      exact h.owned id r' hr'

theorem add (h : s.Kempt) {i : Instance} (hnew : s.records.get? i.id = none)
    (hfree : s.slugs.contains (keyOf i) = false) (htenant : i.tenant ≠ "")
    (hid : Text.isIdentifier i.id = true) : (s.add i).Kempt where
  indexed := by
    rw [Dict.contains, Option.isSome_eq_false_iff, Option.isNone_iff_eq_none] at hfree
    exact h.indexed.add hnew hfree
  owned := by
    intro id r hr
    rw [get?_add] at hr
    by_cases hsame : i.id = id
    · rw [if_pos hsame] at hr
      cases hr
      exact ⟨htenant, hsame ▸ hid⟩
    · rw [if_neg hsame] at hr
      exact h.owned id r hr

theorem drop (h : s.Kempt) {i : Instance} (hi : s.records.get? i.id = some i) :
    (s.drop i).Kempt where
  indexed := h.indexed.drop hi
  owned := by
    intro id r hr
    rw [get?_drop] at hr
    split at hr
    · cases hr
    · exact h.owned id r hr

theorem update (h : s.Kempt) {i : Instance} {version : UInt64}
    (hu : s.update i = .ok (version, s')) : s'.Kempt where
  indexed := h.indexed.update hu
  owned := by
    obtain ⟨stored, hget, htenant, -, -, rfl⟩ := update_eq_ok hu
    intro id r hr
    rw [Dict.get?_insert] at hr
    by_cases hsame : i.id = id
    · rw [if_pos hsame] at hr
      cases hr
      subst hsame
      have howned := h.owned i.id stored hget
      rw [htenant] at howned
      exact howned
    · rw [if_neg hsame] at hr
      exact h.owned id r hr

end Store.Kempt

namespace Service

namespace Errand

theorem keyOf_ruined (e : Errand) (stamp : Stamp) (i : Instance) :
    Store.keyOf (e.ruined stamp i) = Store.keyOf i := by
  unfold ruined
  split
  · exact e.keyOf_entered stamp i
  · exact e.keyOf_entered stamp i

theorem keyOf_settled (e : Errand) {edit : Stamp → Instance → Instance} (he : e.edit = some edit)
    (stamp : Stamp) (i : Instance) : Store.keyOf (e.settled edit stamp i) = Store.keyOf i := by
  obtain ⟨-, htenant, -, hslug⟩ := e.keeps edit he stamp (e.entered stamp i)
  rw [← e.keyOf_entered stamp i]
  show SlugKey.mk (edit stamp (e.entered stamp i)).tenant (edit stamp (e.entered stamp i)).slug = _
  rw [htenant, hslug]
  rfl

end Errand

variable {w : Estate} {limit : UInt64} {caller : Option Caller} {stamp : Stamp} {u : Upshot Reply}

theorem Errand.Comes.kempt {q : Request} {e : Errand} (he : q.errand = some e)
    (hcomes : e.Comes caller stamp w u) (h : w.store.Kempt) : u.estate.store.Kempt := by
  cases hcomes with
  | refused f hf => exact h
  | failed ha cause hc =>
    exact h.put ha.stored (Errand.ruined_keeps he stamp _).1 (e.keyOf_ruined stamp _)
  | settled ha edit hedit a hc =>
    exact h.put ha.stored (Errand.settled_keeps he hedit stamp _).1 (e.keyOf_settled hedit stamp _)
  | removed ha hedit a hc => exact h.drop ha.stored

/-- Every end of a request keeps a store in order, when what may be created gets an identifier. -/
theorem Request.Comes.kempt {q : Request} (hcomes : q.Comes limit caller stamp w u)
    (h : w.store.Kempt)
    (hnames : ∀ id ∈ (Deed.request caller stamp q).births, Text.isIdentifier id = true) :
    u.estate.store.Kempt := by
  cases hcomes with
  | refused f hr => exact h
  | overQuota r hwho hroom => exact h
  | shown reply hs => exact h
  | updated id r hwho hi howner hc hs => exact h.update hs
  | created ha made hc => exact h.add ha.fresh ha.free ha.tenant (hnames _ List.mem_cons_self)
  | unprovisioned ha cause hc =>
    exact h.add ha.fresh ha.free ha.tenant (hnames _ List.mem_cons_self)
  | errand he hcomes => exact hcomes.kempt he h

end Service

theorem Estate.kempt_live {w : Estate} (limit : UInt64) {deeds : List Deed} (h : w.store.Kempt)
    (hnames : ∀ d ∈ deeds, ∀ id ∈ d.births, Text.isIdentifier id = true) :
    (w.live limit deeds).1.store.Kempt := by
  induction deeds generalizing w with
  | nil => exact h
  | cons d rest ih =>
    refine ih ?_ fun d' hd' => hnames d' (List.mem_cons_of_mem _ hd')
    cases d with
    | request caller stamp q =>
      have hcomes := procedure_comes limit caller stamp h.indexed.filed q
      exact hcomes.kempt h (hnames _ List.mem_cons_self)
    | weather d =>
      have hstore : (w.act limit (.weather d)).1.store = w.store := by cases d <;> rfl
      rw [hstore]
      exact h

/-! ## Records without a workload -/

/-- Whether a record is stored under an id, and no provider has a workload of it. -/
structure Estate.Unhosted (w : Estate) (id : String) : Prop where
  stored : ∃ r, w.store.records.get? id = some r
  nowhere : ∀ name, w.directory.hosted name id = none

namespace Service

variable {w : Estate} {limit : UInt64} {caller : Option Caller} {stamp : Stamp} {u : Upshot Reply}
  {id : String}

theorem Errand.Comes.unhosted {q : Request} {e : Errand} (he : q.errand = some e)
    (hcomes : e.Comes caller stamp w u) (h : w.Unhosted id) : u.estate.Unhosted id := by
  -- The record stays by each write; and no errand about it is done, for want of a workload.
  have hput : ∀ i : Instance, ∃ r, (w.store.put i).records.get? id = some r := by
    intro i
    rw [Store.get?_put]
    split
    · exact ⟨i, rfl⟩
    · exact h.stored
  have hother : ∀ {i : Instance} {l : Local} {a : (e.command (e.entered stamp i)).Reply},
      w.directory.providers.get? i.provider = some l → (e.told stamp w i).1 = .ok a → i.id ≠ id := by
    intro i l a hl hc hid
    obtain ⟨x, hx⟩ := Errand.hosted_of_done he hl hc
    rw [hid, h.nowhere] at hx
    cases hx
  cases hcomes with
  | refused f hf => exact h
  | @failed who i ha cause hc =>
    obtain ⟨l, hl⟩ := ha.registered
    exact ⟨hput _, fun name => (Directory.hosted_of_error hl hc name id).trans (h.nowhere name)⟩
  | @settled who i ha edit hedit a hc =>
    obtain ⟨l, hl⟩ := ha.registered
    obtain ⟨f, hf, htarget, -⟩ := Errand.fits_settled he hedit stamp i
    obtain ⟨x, -, hhosted⟩ := Directory.hosted_of_change hl hf hc
    refine ⟨hput _, fun name => (hhosted name id).trans ?_⟩
    rw [if_neg fun hboth => hother hl hc (htarget ▸ hboth.2.symm)]
    exact h.nowhere name
  | @removed who i ha hedit a hc =>
    obtain ⟨l, hl⟩ := ha.registered
    have hne := hother hl hc
    refine ⟨?_, fun name => (Errand.hosted_of_told he hedit hl hc name id).trans ?_⟩
    · show ∃ r, (w.store.drop i).records.get? id = some r
      rw [Store.get?_drop, if_neg hne]
      exact h.stored
    · rw [h.nowhere, ite_self]

/-- A record that has no workload stays so, whatever comes of a request. -/
theorem Request.Comes.unhosted {q : Request} (hcomes : q.Comes limit caller stamp w u)
    (h : w.Unhosted id) : u.estate.Unhosted id := by
  have hadd : ∀ i : Instance, ∃ r, (w.store.add i).records.get? id = some r := by
    intro i
    rw [Store.get?_add]
    split
    · exact ⟨i, rfl⟩
    · exact h.stored
  cases hcomes with
  | refused f hr => exact h
  | overQuota r hwho hroom => exact h
  | shown reply hs => exact h
  | @updated id' r who i edited s hwho hi howner hc hs =>
    refine ⟨?_, h.nowhere⟩
    show ∃ r, s.records.get? id = some r
    rw [Store.records_of_update hs, Store.get?_put]
    split
    · exact ⟨_, rfl⟩
    · exact h.stored
  | @created r who provider ha made hc =>
    obtain ⟨l, -, hl⟩ := ha.registered
    obtain ⟨-, hhosted⟩ := Directory.hosted_of_provision hl hc
    have hne : id ≠ stamp.instanceId := by
      rintro rfl
      obtain ⟨r', hr'⟩ := h.stored
      cases ha.fresh.symm.trans hr'
    refine ⟨hadd _, fun name => (hhosted name id).trans ?_⟩
    rw [if_neg fun hboth => hne hboth.2]
    exact h.nowhere name
  | @unprovisioned r who provider ha cause hc =>
    obtain ⟨l, -, hl⟩ := ha.registered
    exact ⟨hadd _, fun name => (Directory.hosted_of_error hl hc name id).trans (h.nowhere name)⟩
  | errand he hcomes => exact hcomes.unhosted he h

end Service

namespace Plane

variable {p : Plane} {id : String}

/-- A record without a workload stays, and stays without one, as long as a control plane lives. -/
theorem unhosted_live (hf : p.store.Filed) (h : p.estate.Unhosted id) (deeds : List Deed) :
    (p.live deeds).1.estate.Unhosted id := by
  refine (live_induct (P := (·.Unhosted id)) (fun w limit caller stamp q u _ hu hcomes =>
    hcomes.unhosted hu) (fun w name f hkeeps hu => ?_) hf h deeds).2
  exact ⟨hu.stored, fun n => ((Directory.adjust_keeps hkeeps n).2 id).trans (hu.nowhere n)⟩

/-- To perform an errand's request is to carry the errand out, and to tell of it. -/
theorem perform_errand {q : Request} {e : Errand} (he : q.errand = some e) {caller : Option Caller}
    {stamp : Stamp} {u : Upshot Reply} (hu : (e.procedure caller stamp).carry p.estate = u) :
    ∃ p', p.perform caller stamp q = (u.reply, p') ∧ p'.estate = u.estate := by
  have hcarry := p.carry_eq (procedure_heedless p.settings.maxInstances caller stamp q)
  rw [procedure_eq_errand he, hu] at hcarry
  refine ⟨((p.occupy u.estate).tell u.events).1, ?_, ?_⟩
  · rw [perform_eq, procedure_eq_errand he, hcarry]
  · rw [estate_tell, estate_occupy]

section

variable {r : Instance} {who : Caller} (hk : p.store.Kempt) (hagrees : p.estate.Agrees)
  (hr : p.store.records.get? id = some r) (hmove : r.state.canMove .destroying = true)
  (howner : who.tenant = r.tenant)

include hk hagrees hr hmove howner

/-- Nothing refuses a deletion to the owner of a record whose state has the move. -/
theorem admits_deletion : (Errand.deletion id).Admits (some who) p.estate who r where
  known := rfl
  stored := by
    have hid : r.id = id := hk.indexed.filed id r hr
    exact hid.symm ▸ hr
  id := hk.indexed.filed id r hr
  owner := howner.symm
  allowed := by
    intro s hs
    cases hs
    exact hmove
  registered := by
    obtain ⟨own, hown, -⟩ := hagrees.fits id r hr
    obtain ⟨l, hl, -⟩ := Option.map_eq_some_iff.1 hown
    exact ⟨l, hl⟩

variable (hwell : ∀ name l, p.directory.providers.get? name = some l → l.failing = [])
  (stamp : Stamp)

include hwell

/-- Where no task fails, a record that has a workload is deleted, and the two are gone with the slug. -/
theorem delete_of_workload {x : Workload} (hx : p.directory.hosted r.provider id = some x) :
    ∃ p', p.perform (some who) stamp (.delete id) = (.ok .removed, p') ∧
      p'.store = p.store.drop r ∧ ∀ name, p'.directory.hosted name id = none := by
  have ha := admits_deletion hk hagrees hr hmove howner
  obtain ⟨htenant, hname⟩ := hk.owned id r hr
  obtain ⟨l, (hl : p.directory.providers.get? r.provider = some l)⟩ := ha.registered
  have hid : r.id = id := hk.indexed.filed id r hr
  have hc : (p.directory.command r.provider (.deprovision r.id)).1 = .ok () :=
    Directory.deprovision_of_hosted hl (hwell _ l hl) (hid.symm ▸ hx)
  have hcarry := Errand.carry_deletion_done (w := p.estate) stamp ha (howner ▸ htenant) hname hc
  obtain ⟨p', hperform, hestate⟩ := perform_errand (q := .delete id) rfl hcarry
  refine ⟨p', hperform, congrArg Estate.store hestate, fun name => ?_⟩
  have hdirectory : p'.directory = (p.directory.command r.provider (.deprovision r.id)).2 :=
    congrArg Estate.directory hestate
  rw [hdirectory, Directory.hosted_of_removal hl hc]
  by_cases hboth : name = r.provider ∧ id = r.id
  · rw [if_pos hboth]
  · rw [if_neg hboth]
    -- All workloads of the id are at the provider of its record.
    cases hother : p.directory.hosted name id with
    | none => rfl
    | some y =>
      obtain ⟨r', hr', hprovider⟩ := hagrees.recorded name id y hother
      obtain rfl := Option.some.inj (hr.symm.trans hr')
      exact absurd ⟨hprovider.symm, hid.symm⟩ hboth

/-- Where no task fails, the deletion of a record without a workload fails for want of it. -/
theorem delete_of_none (hx : p.directory.hosted r.provider id = none) :
    ∃ p', p.perform (some who) stamp (.delete id) =
      (.error (.providerFailed (.task .deprovision) (.workloadNotFound id)), p') := by
  have ha := admits_deletion hk hagrees hr hmove howner
  obtain ⟨htenant, hname⟩ := hk.owned id r hr
  obtain ⟨l, (hl : p.directory.providers.get? r.provider = some l)⟩ := ha.registered
  have hid : r.id = id := hk.indexed.filed id r hr
  have hc : (p.directory.command r.provider (.deprovision r.id)).1 =
      .error (.workloadNotFound id) := by
    rw [hid]
    exact Directory.deprovision_of_absent hl (hwell _ l hl) hx
  have hcarry := Errand.carry_deletion_failed (w := p.estate) stamp ha (howner ▸ htenant) hname hc
  obtain ⟨p', hperform, -⟩ := perform_errand (q := .delete id) rfl hcarry
  exact ⟨p', hperform⟩

end

/-- A record without a workload at its provider has none at all. -/
theorem unhosted_of_agrees (hagrees : p.estate.Agrees) {r : Instance}
    (hr : p.store.records.get? id = some r) (hx : p.directory.hosted r.provider id = none) :
    p.estate.Unhosted id where
  stored := ⟨r, hr⟩
  nowhere := by
    intro name
    cases hother : p.estate.directory.hosted name id with
    | none => rfl
    | some y =>
      obtain ⟨r', hr', rfl⟩ := hagrees.recorded name id y hother
      obtain rfl := Option.some.inj (hr.symm.trans hr')
      cases hx.symm.trans hother

/-- The store of a control plane that began empty is in order. -/
theorem kempt_live (hs : p.store = .empty) {deeds : List Deed}
    (hnames : ∀ d ∈ deeds, ∀ id ∈ d.births, Text.isIdentifier id = true) :
    (p.live deeds).1.store.Kempt := by
  have hstart : p.estate.store.Kempt := by
    show p.store.Kempt
    rw [hs]
    refine ⟨Store.indexed_empty, fun id r hr => ?_⟩
    cases hr
  have hestate : (p.live deeds).1.store = (p.estate.live p.settings.maxInstances deeds).1.store :=
    congrArg Estate.store (p.estate_live deeds)
  rw [hestate]
  exact Estate.kempt_live _ hstart hnames

/-- While a control plane that began with no records and no workloads carries out requests one after
the other, whatever failed meanwhile: where no task of a provider fails any more, the owner of a record
whose state may become `destroying` can delete it if it has a workload. Then the record, all workloads
of its id and its slug are gone, and a new record of the tenant may have that slug. Without a workload
the record cannot be deleted, and is there for ever. -/
theorem deletable_with_workload (hs : p.store = .empty)
    (hw : ∀ name l, p.directory.providers.get? name = some l → l.workloads = .empty)
    {deeds : List Deed} (hnames : ∀ d ∈ deeds, ∀ id ∈ d.births, Text.isIdentifier id = true)
    {r : Instance} (hr : (p.live deeds).1.store.records.get? id = some r)
    (hmove : r.state.canMove .destroying = true)
    (hwell : ∀ name l, (p.live deeds).1.directory.providers.get? name = some l → l.failing = [])
    {who : Caller} (howner : who.tenant = r.tenant) (stamp : Stamp) :
    (∀ x, (p.live deeds).1.directory.hosted r.provider id = some x →
      ∃ p', (p.live deeds).1.perform (some who) stamp (.delete id) = (.ok .removed, p') ∧
        p'.store.records.get? id = none ∧ (∀ name, p'.directory.hosted name id = none) ∧
        p'.store.slugs.get? (Store.keyOf r) = none ∧
        ∀ i, Store.keyOf i = Store.keyOf r → p'.store.records.get? i.id = none →
          ∃ s, p'.store.insert i = .ok (1, s)) ∧
    ((p.live deeds).1.directory.hosted r.provider id = none →
      (∃ p', (p.live deeds).1.perform (some who) stamp (.delete id) =
        (.error (.providerFailed (.task .deprovision) (.workloadNotFound id)), p')) ∧
      ∀ later, ∃ r', ((p.live deeds).1.live later).1.store.records.get? id = some r') := by
  have hk := kempt_live hs hnames
  obtain ⟨hfiled, hagrees⟩ := agrees_live hs hw deeds
  refine ⟨fun x hx => ?_, fun hx => ⟨?_, fun later => ?_⟩⟩
  · obtain ⟨p', hperform, hstore, hnowhere⟩ :=
      delete_of_workload hk hagrees hr hmove howner hwell stamp hx
    have hfree : p'.store.slugs.get? (Store.keyOf r) = none := by
      rw [hstore]
      exact Store.Indexed.get?_drop_keyOf _ r
    refine ⟨p', hperform, ?_, hnowhere, hfree, fun i hkey hnew => ?_⟩
    · rw [hstore, Store.get?_drop, if_pos (hfiled id r hr)]
    · refine ⟨_, Store.insert_eq_ok_iff.2 ⟨?_, ?_, rfl, rfl⟩⟩
      · simp [Dict.contains, hnew]
      · simp [Dict.contains, hkey, hfree]
  · exact delete_of_none hk hagrees hr hmove howner hwell stamp hx
  · exact (unhosted_live hfiled (unhosted_of_agrees hagrees hr hx) later).stored

/-- Providers that are listed without failing tasks have none. -/
theorem failing_of_all
    (h : p.directory.providers.entries.all (·.2.failing.isEmpty) = true) (name : String) (l : Local)
    (hl : p.directory.providers.get? name = some l) : l.failing = [] := by
  have hmem := Dict.mem_entries_iff.2 hl
  exact List.isEmpty_iff.1 (List.all_eq_true.1 h _ hmem)

/-- The stamp of a deletion. -/
def parting : Stamp :=
  { instanceId := "inst_9", eventId := "evt_9", clock := fun n => { seconds := n } }

/-- An instance is created and its deletion fails; another cannot be provisioned; and then everything
works again. -/
def mended : List Deed :=
  [deed "inst_1" "evt_1" (.create { name := "Web", image := "nginx" }),
    .weather (.fails "local" .deprovision), deed "inst_2" "evt_2" (.delete "inst_1"),
    .weather (.recovers "local" .deprovision), .weather (.fails "local" .provision),
    deed "inst_3" "evt_3" (.create { name := "Db", image := "postgres" }),
    .weather (.recovers "local" .provision)]

/-- Both records are failed then, and the first has its workload. -/
theorem state_mended :
    (((Config.solo.live mended).1.store.records.get? "inst_1").map fun r =>
      (r.state, r.tenant, ((Config.solo.live mended).1.directory.hosted r.provider "inst_1").isSome)) =
        some (.failed, "acme", true) ∧
    (((Config.solo.live mended).1.store.records.get? "inst_3").map fun r =>
      (r.state, r.tenant, (Config.solo.live mended).1.directory.hosted r.provider "inst_3")) =
        some (.failed, "acme", none) := by
  decide +kernel

theorem names_mended : ∀ d ∈ mended, ∀ id ∈ d.births, Text.isIdentifier id = true := by
  decide +kernel

theorem failing_mended :
    (Config.solo.live mended).1.directory.providers.entries.all (·.2.failing.isEmpty) = true := by
  decide +kernel

theorem deletable_with_workload_mended :
    (∃ r p', (Config.solo.live mended).1.store.records.get? "inst_1" = some r ∧ r.state = .failed ∧
      (Config.solo.live mended).1.perform (some (.ofTenant "acme" "user-1")) parting
        (.delete "inst_1") = (.ok .removed, p') ∧
      p'.store.records.get? "inst_1" = none ∧ p'.store.slugs.get? (Store.keyOf r) = none) ∧
    ∃ r p', (Config.solo.live mended).1.store.records.get? "inst_3" = some r ∧ r.state = .failed ∧
      (Config.solo.live mended).1.perform (some (.ofTenant "acme" "user-1")) parting
        (.delete "inst_3") =
          (.error (.providerFailed (.task .deprovision) (.workloadNotFound "inst_3")), p') := by
  have hmove : State.failed.canMove .destroying = true := by decide
  have hwell := failing_of_all failing_mended
  obtain ⟨r, hr, hone⟩ := Option.map_eq_some_iff.1 state_mended.1
  obtain ⟨r', hr', hother⟩ := Option.map_eq_some_iff.1 state_mended.2
  simp only [Prod.mk.injEq] at hone hother
  obtain ⟨hstate, htenant, hhosted⟩ := hone
  obtain ⟨hstate', htenant', hnone⟩ := hother
  obtain ⟨x, hx⟩ := Option.isSome_iff_exists.1 hhosted
  have howner : (Caller.ofTenant "acme" "user-1").tenant = r.tenant := htenant.symm
  have howner' : (Caller.ofTenant "acme" "user-1").tenant = r'.tenant := htenant'.symm
  obtain ⟨hdelete, -⟩ := deletable_with_workload rfl workloads_solo names_mended hr
    (hstate ▸ hmove) hwell howner parting
  obtain ⟨-, hrefuse⟩ := deletable_with_workload rfl workloads_solo names_mended hr'
    (hstate' ▸ hmove) hwell howner' parting
  obtain ⟨p', hperform, hgone, -, hfree, -⟩ := hdelete x hx
  obtain ⟨⟨p'', hfailed⟩, -⟩ := hrefuse hnone
  exact ⟨⟨r, p', hr, hstate, hperform, hgone, hfree⟩, r', p'', hr', hstate', hfailed⟩

theorem some_record_is_indelible :
    ¬ ∀ (p : Plane) (deeds : List Deed) (id : String) (r : Instance) (who : Caller) (stamp : Stamp),
      p.store = .empty →
      (∀ name l, p.directory.providers.get? name = some l → l.workloads = .empty) →
      (∀ d ∈ deeds, ∀ id ∈ d.births, Text.isIdentifier id = true) →
      (p.live deeds).1.store.records.get? id = some r → r.state.canMove .destroying = true →
      (∀ name l, (p.live deeds).1.directory.providers.get? name = some l → l.failing = []) →
      who.tenant = r.tenant →
      ∃ p', (p.live deeds).1.perform (some who) stamp (.delete id) = (.ok .removed, p') := by
  intro hall
  have hmove : State.failed.canMove .destroying = true := by decide
  have hwell := failing_of_all failing_mended
  obtain ⟨r, hr, hrecord⟩ := Option.map_eq_some_iff.1 state_mended.2
  simp only [Prod.mk.injEq] at hrecord
  obtain ⟨hstate, htenant, hnone⟩ := hrecord
  obtain ⟨-, hagrees⟩ := agrees_live (p := Config.solo) rfl workloads_solo mended
  have howner : (Caller.ofTenant "acme" "user-1").tenant = r.tenant := htenant.symm
  obtain ⟨p', hrefused⟩ := delete_of_none (kempt_live rfl names_mended) hagrees hr
    (hstate ▸ hmove) howner hwell parting hnone
  obtain ⟨p'', hdeleted⟩ := hall Config.solo mended "inst_3" r _ parting rfl workloads_solo
    names_mended hr (hstate ▸ hmove) hwell howner
  cases hrefused.symm.trans hdeleted

end Plane

end Fleet
