import Fleet.Proofs.Retelling

/-!
# Where ids come from

An id is given to one instance only, so the deeds of a control plane say from the outset which tenant
an id belongs to and when its instance is created (`whence`). A request stays within the ids and the
slugs of its caller's tenant, as long as what it is shown is in keeping with the origins:

    (procedure limit caller stamp q).Stays origins t fun _ => True        (procedure_stays)

and so what is stored is in keeping with them as long as an estate lives (`grounded_live`). -/

namespace Fleet

open Service Procedure

/-- What is settled of an instance before it is created: its tenant, and when it is created. -/
structure Origin where
  tenant : String
  createdAt : Instant

def Instance.origin (i : Instance) : Origin := ⟨i.tenant, i.createdAt⟩

/-- Origins by id. -/
abbrev Origins := String → Option Origin

/-- The origin that a deed gives to an id. -/
def Deed.originOf (id : String) : Deed → Option Origin
  | .request (some who) stamp (.create _) =>
    if stamp.instanceId = id then some ⟨who.tenant, stamp.first⟩ else none
  | _ => none

/-- The origins that some deeds give. -/
def whence (deeds : List Deed) : Origins := fun id => deeds.findSome? (Deed.originOf id)

namespace Origins

variable (origins : Origins) {t : String}

/-- Whether an id belongs to a tenant. -/
def Of (t id : String) : Prop := ∃ o, origins id = some o ∧ o.tenant = t

/-- Whether a record belongs to a tenant, and is in keeping with its origin. -/
def Owns (t : String) (i : Instance) : Prop := i.tenant = t ∧ origins i.id = some i.origin

/-- Whether the origins are those that a deed gives. -/
def Knows (d : Deed) : Prop := ∀ id o, d.originOf id = some o → origins id = some o

variable {origins}

theorem of_owns {i : Instance} (h : origins.Owns t i) : origins.Of t i.id := ⟨_, h.2, h.1⟩

/-- An id belongs to one tenant. -/
theorem tenant_unique {s id : String} (ht : origins.Of t id) (hs : origins.Of s id) : s = t := by
  obtain ⟨o, ho, rfl⟩ := ht
  obtain ⟨o', ho', rfl⟩ := hs
  rw [ho] at ho'
  cases ho'
  rfl

end Origins

theorem mem_births_of_originOf {d : Deed} {id : String} {o : Origin} (h : d.originOf id = some o) :
    id ∈ d.births := by
  unfold Deed.originOf at h
  split at h
  · obtain ⟨hid, -⟩ := Option.ite_none_right_eq_some.1 h
    exact List.mem_singleton.2 hid.symm
  · cases h

/-- Where no id is given twice, the origins are those that each deed gives. -/
theorem knows_whence {deeds : List Deed} (h : (deeds.flatMap Deed.births).Nodup) :
    ∀ d ∈ deeds, (whence deeds).Knows d := by
  induction deeds with
  | nil => simp
  | cons first rest ih =>
    rw [List.flatMap_cons] at h
    obtain ⟨-, hrest, hapart⟩ := List.nodup_append.1 h
    intro d hd id o ho
    show (first :: rest).findSome? (Deed.originOf id) = some o
    rcases List.mem_cons.1 hd with rfl | hd
    · rw [List.findSome?_cons, ho]
    · have hlater : id ∈ rest.flatMap Deed.births :=
        List.mem_flatMap.2 ⟨d, hd, mem_births_of_originOf ho⟩
      have hfirst : first.originOf id = none := by
        cases hf : first.originOf id with
        | none => rfl
        | some o' => exact absurd rfl (hapart id (mem_births_of_originOf hf) id hlater)
      rw [List.findSome?_cons, hfirst]
      exact ih hrest d hd id o ho

namespace Service

/-! ## Staying within a tenant -/

/-- Whether a call is about what belongs to a tenant. -/
def Call.Within (origins : Origins) (t : String) : Call → Prop
  | .insert i | .update i => origins.Owns t i
  | .find tenant _ | .findBySlug tenant _ | .list tenant _ | .delete tenant _ | .count tenant =>
    tenant = t
  | .command _ c => origins.Of t c.target
  | .resolve _ | .lookup _ | .publish _ => True

/-- Whether a record that an exchange shows belongs to the tenant that asked for it. -/
def Exchange.Trusted (origins : Origins) : Exchange → Prop
  | ⟨.find tenant _, .ok i⟩ => origins.Owns tenant i
  | _ => True

namespace Procedure

variable {α β : Type} {origins : Origins} {t : String}

/-- Whether a procedure stays within a tenant as long as it is shown what can be trusted, and what it
results in is as `P` says. -/
def Stays (origins : Origins) (t : String) (P : α → Prop) : Procedure α → Prop
  | .done a => P a
  | .fail _ => True
  | .call c next => c.Within origins t ∧
      ∀ a, Exchange.Trusted origins ⟨c, a⟩ → (next a).Stays origins t P

section

variable {P : α → Prop} {Q : β → Prop}

theorem stays_bind {p : Procedure α} {f : α → Procedure β} (hp : p.Stays origins t P)
    (hf : ∀ a, P a → (f a).Stays origins t Q) : (p >>= f).Stays origins t Q := by
  induction p with
  | done a => exact hf a hp
  | fail e => trivial
  | call c next ih => exact ⟨hp.1, fun a ha => ih a (hp.2 a ha)⟩

theorem stays_ask {c : Call} (hc : c.Within origins t) :
    (ask c).Stays origins t fun a => Exchange.Trusted origins ⟨c, a⟩ := ⟨hc, fun _ ha => ha⟩

theorem stays_ofExcept {e : Except Failure α} (h : ∀ a, e = .ok a → P a) :
    (ofExcept e).Stays origins t P := by
  cases e with
  | ok a => exact h a rfl
  | error f => trivial

/-- Nothing need be known of a value to go on with it. -/
theorem stays_unwrap {e : Except Failure α} {f : α → Procedure β}
    (hf : ∀ a, (f a).Stays origins t Q) : (ofExcept e >>= f).Stays origins t Q := by
  cases e with
  | ok a => exact hf a
  | error f => trivial

theorem stays_ensure (b : Bool) (f : Failure) :
    (ensure b f).Stays origins t fun _ => True := by
  cases b <;> trivial

theorem stays_identify (caller : Option Caller) :
    (identify caller).Stays origins t fun who => caller = some who :=
  stays_ofExcept fun _ h => (Caller.require_eq_ok_iff.1 h).1

theorem stays_announce (e : Event) : (announce e).Stays origins t fun _ => True :=
  ⟨trivial, fun _ _ => trivial⟩

theorem stays_providerOf (i : Instance) : (providerOf i).Stays origins t fun _ => True :=
  stays_bind (stays_ask trivial) fun _ _ => stays_ofExcept fun _ _ => trivial

end

/-- What is loaded belongs to the caller's tenant. -/
theorem stays_load (who : Caller) (id : String) :
    (load who id).Stays origins who.tenant (origins.Owns who.tenant) := by
  unfold load checkId
  refine stays_bind (stays_bind (stays_ensure _ _) fun _ _ => stays_ensure _ _) fun _ _ => ?_
  refine stays_bind (stays_ask rfl) fun a ha => stays_ofExcept fun i hi => ?_
  subst hi
  exact ha

section

variable {i : Instance} (hi : origins.Owns t i) (now : Instant)

include hi

theorem stays_persist : (persist i now).Stays origins t (origins.Owns t) :=
  stays_bind (stays_ask hi) fun _ _ => stays_unwrap fun _ => hi

theorem stays_markFailed :
    (markFailed i now).Stays origins t fun marked => origins.Owns t marked.2 := by
  refine stays_bind (stays_ask hi) fun a _ => ?_
  cases a with
  | ok version => exact hi
  | error f => exact hi

theorem stays_giveUp {P : α → Prop} (who : Caller) (stamp : Stamp) (during : Undertaking)
    (cause : Provider.Error) : (giveUp who stamp i now during cause).Stays origins t P := by
  refine stays_bind (stays_markFailed hi now) fun marked _ => ?_
  obtain ⟨written, i⟩ := marked
  cases written with
  | true => exact stays_bind (stays_announce _) fun _ _ => trivial
  | false => trivial

end

theorem stays_checkQuota (limit : UInt64) (who : Caller) (stamp : Stamp) :
    (checkQuota limit who stamp).Stays origins who.tenant fun _ => True := by
  unfold checkQuota
  split
  · trivial
  · refine stays_bind (stays_ask rfl) fun _ _ => stays_unwrap fun _ => ?_
    split
    · trivial
    · exact stays_bind (stays_announce _) fun _ _ => trivial

end Procedure

namespace Errand

variable {origins : Origins} {t : String} {q : Request} {e : Errand} {i : Instance}

/-- The command of an errand is about its record. -/
theorem target_command (he : q.errand = some e) (i : Instance) : (e.command i).target = i.id := by
  cases q with
  | start id | stop id | delete id | restart id | scale id r | suspend id reason | unsuspend id =>
    cases he
    rfl
  | _ => cases he

theorem owns_edit (he : q.errand = some e) {edit : Stamp → Instance → Instance}
    (hedit : e.edit = some edit) (stamp : Stamp) (hi : origins.Owns t i) :
    origins.Owns t (edit stamp i) := by
  cases q with
  | start id | stop id | restart id | scale id r | suspend id reason | unsuspend id =>
    cases he
    cases hedit
    exact hi
  | delete id =>
    cases he
    cases hedit
  | _ => cases he

theorem stays_permit (e : Errand) (i : Instance) :
    (e.permit i).Stays origins t fun _ => True := by
  unfold permit
  split
  · exact stays_ofExcept fun _ _ => trivial
  · trivial

theorem stays_enter (e : Errand) (stamp : Stamp) (hi : origins.Owns t i) :
    (e.enter stamp i).Stays origins t (origins.Owns t) := by
  unfold enter
  split
  · exact stays_persist (by exact hi) _
  · exact hi

theorem stays_abandon (e : Errand) (who : Caller) (stamp : Stamp) (cause : Provider.Error)
    (hi : origins.Owns t i) : (e.abandon who stamp i cause).Stays origins t fun _ => True := by
  unfold abandon
  split
  · exact stays_giveUp hi _ who stamp _ cause
  · trivial

theorem stays_finish (he : q.errand = some e) (who : Caller) (stamp : Stamp)
    (hi : origins.Owns t i) : (e.finish who stamp i).Stays origins t fun _ => True := by
  unfold finish
  split
  · rename_i edit hedit
    refine stays_bind (stays_persist (owns_edit he hedit stamp hi) _) fun i _ => ?_
    exact stays_bind (stays_announce _) fun _ _ => trivial
  · refine stays_bind (stays_ask hi.1) fun _ _ => stays_unwrap fun _ => ?_
    exact stays_bind (stays_announce _) fun _ _ => trivial

theorem stays_procedure (he : q.errand = some e) (caller : Option Caller) (stamp : Stamp)
    (ht : ∀ who, caller = some who → who.tenant = t) :
    (e.procedure caller stamp).Stays origins t fun _ => True := by
  unfold procedure
  refine stays_bind (stays_identify caller) fun who hwho => ?_
  obtain rfl := ht who hwho
  refine stays_bind (stays_load who e.id) fun i hi => ?_
  refine stays_bind (e.stays_permit i) fun _ _ => stays_bind (stays_providerOf i) fun _ _ => ?_
  refine stays_bind (e.stays_enter stamp hi) fun i hi => ?_
  have htarget : origins.Of who.tenant (e.command i).target := by
    rw [target_command he]
    exact Origins.of_owns hi
  refine stays_bind (stays_ask htarget) fun a _ => ?_
  cases a with
  | error cause => exact e.stays_abandon who stamp cause hi
  | ok a => exact stays_finish he who stamp hi

end Errand

section

variable {origins : Origins} {t : String} {caller : Option Caller} {stamp : Stamp}

theorem owns_changed {i edited : Instance} {r : UpdateRequest} (h : changed i r = .ok edited)
    (hi : origins.Owns t i) : origins.Owns t edited := by
  obtain ⟨name, slug, env, labels, rfl⟩ := changed_eq_ok h
  exact hi

theorem stays_create (limit : UInt64) (r : CreateRequest)
    (ht : ∀ who, caller = some who → who.tenant = t)
    (hknown : origins.Knows (.request caller stamp (.create r))) :
    (create limit caller r stamp).Stays origins t fun _ => True := by
  unfold create
  refine stays_bind (stays_identify caller) fun who hwho => ?_
  obtain rfl := ht who hwho
  refine stays_bind (stays_ensure _ _) fun _ _ => stays_bind (stays_ensure _ _) fun _ _ => ?_
  refine stays_bind (stays_ensure _ _) fun _ _ => ?_
  refine stays_bind (stays_checkQuota limit who stamp) fun _ _ => ?_
  refine stays_bind (stays_ask trivial) fun _ _ => stays_unwrap fun provider => ?_
  have hdraft : origins.Owns who.tenant (draft who r provider stamp) := by
    refine ⟨rfl, hknown _ _ ?_⟩
    subst hwho
    exact if_pos rfl
  refine stays_bind (stays_ask hdraft) fun _ _ => stays_unwrap fun version => ?_
  have hi : origins.Owns who.tenant { draft who r provider stamp with version } := hdraft
  refine stays_bind (stays_ask (Origins.of_owns hi)) fun a _ => ?_
  cases a with
  | error cause => exact stays_bind (stays_markFailed hi _) fun _ _ => trivial
  | ok made =>
    refine stays_bind (stays_persist (by exact hi) _) fun i _ => ?_
    exact stays_bind (stays_announce _) fun _ _ => trivial

/-- A request stays within its caller's tenant. -/
theorem procedure_stays (limit : UInt64) (q : Request)
    (ht : ∀ who, caller = some who → who.tenant = t)
    (hknown : origins.Knows (.request caller stamp q)) :
    (procedure limit caller stamp q).Stays origins t fun _ => True := by
  cases he : q.errand with
  | some e =>
    rw [procedure_eq_errand he]
    exact Errand.stays_procedure he caller stamp ht
  | none =>
    cases q with
    | create r => exact stays_bind (stays_create limit r ht hknown) fun _ _ => trivial
    | get id =>
      unfold procedure get
      refine stays_bind (P := origins.Owns t) ?_ fun _ _ => trivial
      refine stays_bind (stays_identify caller) fun who hwho => ?_
      obtain rfl := ht who hwho
      exact stays_load who id
    | getBySlug slug =>
      unfold procedure getBySlug
      refine stays_bind (P := fun _ => True) ?_ fun _ _ => trivial
      refine stays_bind (stays_identify caller) fun who hwho => ?_
      obtain rfl := ht who hwho
      refine stays_bind (stays_ensure _ _) fun _ _ => stays_bind (stays_ask rfl) fun _ _ => ?_
      exact stays_ofExcept fun _ _ => trivial
    | list query =>
      unfold procedure list
      refine stays_bind (P := fun _ => True) ?_ fun _ _ => trivial
      refine stays_bind (stays_identify caller) fun who hwho => ?_
      obtain rfl := ht who hwho
      exact stays_bind (stays_ask rfl) fun _ _ => stays_ofExcept fun _ _ => trivial
    | update id r =>
      unfold procedure update
      refine stays_bind (P := origins.Owns t) ?_ fun _ _ => trivial
      refine stays_bind (stays_identify caller) fun who hwho => ?_
      obtain rfl := ht who hwho
      refine stays_bind (stays_load who id) fun i hi => ?_
      refine stays_bind (stays_ofExcept fun edited hedited => owns_changed hedited hi) ?_
      intro edited hedited
      exact stays_persist hedited _
    | _ => cases he

end

end Service

/-! ## A store in keeping with the origins -/

/-- Whether the records and slugs of a store are in keeping with the origins of ids. -/
structure Store.Grounded (origins : Origins) (s : Store) : Prop where
  filed : s.Filed
  born : ∀ id r, s.records.get? id = some r → origins id = some r.origin
  indexed : ∀ key id, s.slugs.get? key = some id → origins.Of key.tenant id

namespace Store.Grounded

variable {origins : Origins} {s s' : Store} {t : String}

theorem owns (h : s.Grounded origins) {id : String} {r : Instance}
    (hr : s.records.get? id = some r) : origins.Owns r.tenant r := by
  refine ⟨rfl, ?_⟩
  rw [h.filed id r hr]
  exact h.born id r hr

theorem of_stored (h : s.Grounded origins) {id : String} {r : Instance}
    (hr : s.records.get? id = some r) : origins.Of r.tenant id := ⟨_, h.born id r hr, rfl⟩

/-- A record is written that is in keeping with its origin, with slugs that are. -/
theorem write (h : s.Grounded origins) {i : Instance} (hi : origins.Owns t i)
    (hrecords : s'.records = s.records.insert i.id i)
    (hslugs : ∀ key id, s'.slugs.get? key = some id →
      s.slugs.get? key = some id ∨ key.tenant = t ∧ id = i.id) : s'.Grounded origins where
  filed := by
    intro id r hr
    rw [hrecords, Dict.get?_insert] at hr
    split at hr
    · cases hr
      assumption
    · exact h.filed id r hr
  born := by
    intro id r hr
    rw [hrecords, Dict.get?_insert] at hr
    split at hr
    · rename_i hid
      cases hr
      exact hid ▸ hi.2
    · exact h.born id r hr
  indexed := by
    intro key id hid
    rcases hslugs key id hid with hold | ⟨hkey, rfl⟩
    · exact h.indexed key id hold
    · rw [hkey]
      exact Origins.of_owns hi

theorem insert (h : s.Grounded origins) {i : Instance} (hi : origins.Owns t i)
    {version : UInt64} (hs : s.insert i = .ok (version, s')) : s'.Grounded origins := by
  obtain ⟨-, -, -, rfl⟩ := insert_eq_ok_iff.1 hs
  refine h.write (t := t) (i := { i with version := firstVersion }) hi rfl fun key id hid => ?_
  rw [Dict.get?_insert] at hid
  split at hid
  · rename_i hkey
    cases hid
    exact .inr ⟨hkey ▸ hi.1, rfl⟩
  · exact .inl hid

theorem update (h : s.Grounded origins) {i : Instance} (hi : origins.Owns t i)
    {version : UInt64} (hs : s.update i = .ok (version, s')) : s'.Grounded origins := by
  obtain ⟨stored, hget, htenant, -, -, rfl⟩ := update_eq_ok hs
  refine h.write (t := t) (i := { i with version }) hi rfl fun key id hid => ?_
  simp only [reindex] at hid
  split at hid
  · exact .inl hid
  · rw [Dict.get?_insert, Dict.get?_erase] at hid
    split at hid
    · rename_i hkey
      cases hid
      exact .inr ⟨hkey ▸ hi.1, rfl⟩
    · rw [← Dict.get?_erase] at hid
      exact .inl (Dict.get?_of_erase hid)

theorem delete (h : s.Grounded origins) {id : String} (hs : s.delete t id = .ok s') :
    s'.Grounded origins := by
  obtain ⟨stored, -, -, rfl⟩ := delete_eq_ok hs
  exact ⟨fun id' r hr => h.filed id' r (Dict.get?_of_erase hr),
    fun id' r hr => h.born id' r (Dict.get?_of_erase hr),
    fun key id' hid => h.indexed key id' (Dict.get?_of_erase hid)⟩

theorem empty : Store.empty.Grounded origins where
  filed := by
    intro id r hr
    cases hr
  born := by
    intro id r hr
    cases hr
  indexed := by
    intro key id hid
    cases hid

end Store.Grounded

namespace Estate

variable {origins : Origins} {t : String} {w : Estate}

/-- What a grounded store shows can be trusted. -/
theorem trusted_serve (h : w.store.Grounded origins) (c : Call) :
    Exchange.Trusted origins ⟨c, (w.serve c).1⟩ := by
  cases c with
  | find tenant id =>
    show Exchange.Trusted origins ⟨.find tenant id, w.store.find tenant id⟩
    cases hfind : w.store.find tenant id with
    | error f => trivial
    | ok i =>
      obtain ⟨hi, rfl⟩ := Store.find_eq_ok_iff.1 hfind
      exact h.owns hi
  | _ => trivial

theorem grounded_serve (h : w.store.Grounded origins) {c : Call} (hc : c.Within origins t) :
    (w.serve c).2.store.Grounded origins := by
  cases c with
  | insert i =>
    simp only [serve, plane, Plane.serve]
    cases hs : w.store.insert i with
    | error f => exact h
    | ok r => exact h.insert hc hs
  | update i =>
    simp only [serve, plane, Plane.serve]
    cases hs : w.store.update i with
    | error f => exact h
    | ok r => exact h.update hc hs
  | delete tenant id =>
    simp only [serve, plane, Plane.serve]
    cases hs : w.store.delete tenant id with
    | error f => exact h
    | ok s => exact h.delete hs
  | _ => exact h

theorem grounded_carry {α : Type} {P : α → Prop} {pr : Procedure α} (hpr : pr.Stays origins t P)
    (h : w.store.Grounded origins) : (pr.carry w).estate.store.Grounded origins := by
  induction pr generalizing w with
  | done a => exact h
  | fail f => exact h
  | call c next ih => exact ih _ (hpr.2 _ (trusted_serve h c)) (grounded_serve h hpr.1)

/-- Every request finds the store grounded and leaves it so. -/
theorem grounded_act (limit : UInt64) {d : Deed} (hknown : origins.Knows d)
    (h : w.store.Grounded origins) : (w.act limit d).1.store.Grounded origins := by
  cases d with
  | request caller stamp q =>
    have hstays := procedure_stays (t := ((caller.map Caller.tenant).getD "")) limit q
      (fun who hwho => by rw [hwho]; rfl) hknown
    exact grounded_carry hstays h
  | weather d =>
    have hstore : (w.act limit (.weather d)).1.store = w.store := by cases d <;> rfl
    rw [hstore]
    exact h

theorem grounded_live (limit : UInt64) {deeds : List Deed} (hknown : ∀ d ∈ deeds, origins.Knows d)
    (h : w.store.Grounded origins) : (w.live limit deeds).1.store.Grounded origins := by
  induction deeds generalizing w with
  | nil => exact h
  | cons d rest ih =>
    exact ih (fun d' hd' => hknown d' (.tail _ hd')) (grounded_act limit (hknown d (.head _)) h)

end Estate

end Fleet
