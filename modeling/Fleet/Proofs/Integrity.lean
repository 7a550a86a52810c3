import Fleet.Proofs.Index
import Fleet.Proofs.Quota

/-!
# Stored records are in order, and are found

What a record is called, what it runs and whose it is are decided by creations, which check all of it,
and by changes of a name, which check the slug of the name. No other write touches any of it, so every
call of an operation is fitting: what it writes is in order if what the operation saw last is
(`Procedure.procedure_fits`). Hence, while any operations run side by side,

    s.records.get? id = some r → r.Proper        (proper_of_reaches)

and a record in order is the one answer to a question for its id and to one for the slug of its name
(`records_are_proper_and_found`). -/

namespace Fleet

open Service Procedure

/-- The digits of a hexadecimal number. -/
def hexDigits : List Char :=
  ['0', '1', '2', '3', '4', '5', '6', '7', '8', '9', 'a', 'b', 'c', 'd', 'e', 'f']

/-- Whether an id is one as they are drawn for new instances: a mark and 32 hexadecimal digits. -/
def IsDrawn (id : String) : Prop :=
  ∃ digits : List Char, digits.length = 32 ∧ (∀ d ∈ digits, d ∈ hexDigits) ∧
    id.toList = "inst_".toList ++ digits

/-- An id that is drawn is an identifier. -/
theorem IsDrawn.isIdentifier {id : String} (h : IsDrawn id) : Text.isIdentifier id = true := by
  obtain ⟨digits, -, hdigits, hid⟩ := h
  have hne : id ≠ "" := by
    rintro rfl
    cases hid
  have hhex : hexDigits.all Text.isIdentifierChar = true := by decide
  have hall : id.toList.all Text.isIdentifierChar = true := by
    rw [hid, List.all_append, Bool.and_eq_true]
    refine ⟨by decide, List.all_eq_true.2 fun d hd => ?_⟩
    exact List.all_eq_true.1 hhex d (hdigits d hd)
  unfold Text.isIdentifier
  rw [hall, Bool.and_true]
  exact bne_iff_ne.2 hne

/-- A text that is not blank has a character that is not. -/
theorem exists_of_isBlankText {s : String} (h : Text.isBlankText s = false) :
    ∃ c ∈ s.toList, Text.isBlank c = false := by
  obtain ⟨c, hc, hblank⟩ := List.all_eq_false.1 h
  exact ⟨c, hc, Bool.eq_false_iff.2 hblank⟩

/-- Whether a record is in order: it goes by the slug of its name, there is something that it runs, and
it belongs to a tenant. -/
structure Instance.Proper (i : Instance) : Prop where
  slug_eq : i.slug = Text.slug i.name
  slug_ne : i.slug ≠ ""
  image : ∃ c ∈ i.image.toList, Text.isBlank c = false
  tenant_ne : i.tenant ≠ ""

/-- A record is in order when one is from which it differs in other fields only. -/
theorem Instance.Proper.congr {i j : Instance} (h : i.Proper) (hname : j.name = i.name)
    (hslug : j.slug = i.slug) (himage : j.image = i.image) (htenant : j.tenant = i.tenant) :
    j.Proper where
  slug_eq := by rw [hslug, hname, h.slug_eq]
  slug_ne := by rw [hslug]; exact h.slug_ne
  image := by rw [himage]; exact h.image
  tenant_ne := by rw [htenant]; exact h.tenant_ne

namespace Service

/-! ## Operations write what is in order -/

/-- Whether a call writes nothing that is not in order, provided that what was seen last is. -/
def Call.Fits (past : List Exchange) : Call → Prop
  | .insert i => i.Proper
  | .update i => ∃ seen, view past = some seen ∧ (seen.Proper → i.Proper)
  | _ => True

/-- No request but a change of the name changes what a record is called. -/
theorem Request.called_of_touches {q : Request} {before after : Instance}
    (hq : ∀ id r, q ≠ .update id r) (ht : q.Touches before after) :
    after.name = before.name ∧ after.slug = before.slug := by
  cases q with
  | create r =>
    rcases ht with ⟨providerRef, endpoints, rfl⟩ | ⟨-, rfl⟩
    · exact ⟨rfl, rfl⟩
    · exact ⟨rfl, rfl⟩
  | update id r => exact absurd rfl (hq id r)
  | suspend id reason | unsuspend id =>
    obtain ⟨state, suspendedAt, rfl⟩ := ht
    exact ⟨rfl, rfl⟩
  | scale id r | start id | stop id | restart id | delete id =>
    obtain ⟨_, rfl⟩ := ht
    exact ⟨rfl, rfl⟩
  | get id | getBySlug slug | list query => exact ht.elim

/-- What a request other than a change of the name makes of a record in order is in order. -/
theorem Request.proper_of_touches {q : Request} {before after : Instance}
    (hq : ∀ id r, q ≠ .update id r) (ht : q.Touches before after) (h : before.Proper) :
    after.Proper := by
  obtain ⟨hname, hslug⟩ := called_of_touches hq ht
  have hmark := birthmark_of_touches ht
  exact h.congr hname hslug (congrArg Birthmark.image hmark) (congrArg Birthmark.tenant hmark)

/-- A record in order is so after a change of its name, too: a name without a slug is refused. -/
theorem proper_of_changed {i edited : Instance} {r : UpdateRequest}
    (he : changed i r = .ok edited) (h : i.Proper) : edited.Proper := by
  unfold changed at he
  split at he
  · cases he
    exact h.congr rfl rfl rfl rfl
  · rename_i name _
    split at he
    · cases he
    · rename_i hslug
      cases he
      exact ⟨rfl, hslug, h.image, h.tenant_ne⟩

/-- The record that a creation inserts, once its checks are passed. -/
theorem proper_draft {who : Caller} {r : CreateRequest} (provider : String) (stamp : Stamp)
    (hwho : who.tenant ≠ "") (himage : Text.isBlankText r.image = false)
    (hslug : Text.slug r.name ≠ "") : (draft who r provider stamp).Proper where
  slug_eq := rfl
  slug_ne := hslug
  image := exists_of_isBlankText himage
  tenant_ne := hwho

namespace Procedure

variable {α : Type} {A : List Exchange → Call → Prop} {past : List Exchange}

/-- What comes after a check may rely on it. -/
theorem keeps_ensure_of {b : Bool} {e : Failure} {f : Unit → Procedure α}
    (h : b = true → (f ()).Keeps A past) : (ensure b e >>= f).Keeps A past := by
  cases b with
  | true => exact h rfl
  | false => trivial

theorem keeps_identify_of {caller : Option Caller} {f : Caller → Procedure α}
    (h : ∀ who, who.tenant ≠ "" → (f who).Keeps A past) : (identify caller >>= f).Keeps A past :=
  keeps_ofExcept fun who hwho => h who (Caller.require_eq_ok_iff.1 hwho).2

variable (limit : UInt64) (caller : Option Caller) (stamp : Stamp)

/-- The quota is checked without a write. -/
theorem fits_checkQuota {who : Caller} {f : Unit → Procedure α}
    (hf : ∀ past, (f ()).Keeps Call.Fits past) :
    (checkQuota limit who stamp >>= f).Keeps Call.Fits past := by
  unfold checkQuota
  split
  · exact hf past
  · simp only [bind_assoc]
    refine keeps_ask trivial fun a => keeps_ofExcept fun n _ => ?_
    split
    · exact hf _
    · simp only [bind_assoc]
      exact keeps_announce trivial fun _ => trivial

theorem create_fits (r : CreateRequest) : (create limit caller r stamp).Keeps Call.Fits [] := by
  unfold create
  apply keeps_identify_of
  intro who hwho
  apply keeps_ensure_of
  intro _
  apply keeps_ensure_of
  intro himage
  apply keeps_ensure_of
  intro hslug
  refine fits_checkQuota limit stamp fun past => keeps_ask trivial fun a => ?_
  refine keeps_ofExcept fun provider _ => ?_
  have hdraft : (draft who r provider stamp).Proper :=
    proper_draft provider stamp hwho (by simpa using himage) (by simpa using hslug)
  refine keeps_ask hdraft fun a => keeps_ofExcept ?_
  rintro version rfl
  -- What it writes from here on is the draft, in a few fields that say nothing of its order.
  refine keeps_ask trivial fun a => ?_
  cases a with
  | error cause =>
    exact keeps_markFailed ⟨_, rfl, fun h => h.congr rfl rfl rfl rfl⟩ (fun _ => trivial)
      fun _ => trivial
  | ok made =>
    refine keeps_persist ⟨_, rfl, fun h => h.congr rfl rfl rfl rfl⟩ fun version => ?_
    exact keeps_announce trivial fun _ => trivial

theorem update_fits (id : String) (r : UpdateRequest) :
    (update caller id r stamp).Keeps Call.Fits [] := by
  unfold update
  refine keeps_identify fun who => keeps_load trivial fun i => keeps_ofExcept fun edited he => ?_
  rw [← bind_done (persist edited stamp.first)]
  refine keeps_persist ⟨i, rfl, fun h => ?_⟩ fun version => trivial
  exact (proper_of_changed he h).congr rfl rfl rfl rfl

/-- A request that neither creates a record nor changes a name keeps what it saw in order. -/
theorem fits_of_keeps {q : Request} (hcreate : ∀ r, q ≠ .create r)
    (hupdate : ∀ id r, q ≠ .update id r) : (procedure limit caller stamp q).Keeps Call.Fits [] := by
  refine keeps_mono (fun past c hc => ?_)
    (keeps_and (procedure_keeps limit caller stamp q) (procedure_addsNone limit caller stamp hcreate))
  obtain ⟨hallows, hadds⟩ := hc
  cases c with
  | insert i => exact hadds.elim
  | update i =>
    obtain ⟨seen, edited, now, hview, htouches, -, rfl⟩ := hallows
    refine ⟨seen, hview, fun h => ?_⟩
    exact (Request.proper_of_touches hupdate htouches h).congr rfl rfl rfl rfl
  | _ => trivial

/-- Whatever an operation is answered, what it writes is in order if what it saw last is. -/
theorem procedure_fits (q : Request) : (procedure limit caller stamp q).Keeps Call.Fits [] := by
  cases q with
  | create r => exact keeps_map _ (create_fits limit caller stamp r)
  | update id r => exact keeps_map _ (update_fits caller stamp id r)
  | _ =>
    refine fits_of_keeps limit caller stamp ?_ ?_
    · intro r h
      cases h
    · intro id r h
      cases h

end Procedure

theorem Exchange.written_of_birth {x : Exchange} {b : Instance} (h : x.birth = some b) :
    x.written = some b := by
  unfold birth at h
  split at h
  · exact h
  · cases h

/-! ## What is stored and what is seen -/

namespace Config

variable {c c' : Config Store}

/-- Every record that is stored, and every record that an operation has seen, is in order. -/
structure Sound (c : Config Store) : Prop where
  stored : ∀ id r, c.world.records.get? id = some r → r.Proper
  seen : ∀ e ∈ c.log, ∀ r, e.exchange.sight = some r → r.Proper

theorem sound_start : (start Store.empty).Sound where
  stored := by simp [start, Store.empty]
  seen := by simp [start]

/-- A call that shows no record but what is in order, and stores none else. -/
theorem Sound.cons (h : c.Sound) {k : Nat} {x : Exchange} (hlog : c'.log = ⟨k, x⟩ :: c.log)
    (hstored : ∀ id r, c'.world.records.get? id = some r → r.Proper)
    (hsight : ∀ r, x.sight = some r → r.Proper) : c'.Sound where
  stored := hstored
  seen := by
    intro e he r hr
    rw [hlog] at he
    rcases List.mem_cons.1 he with rfl | he
    · exact hsight r hr
    · exact h.seen e he r hr

/-- A record in order is written. -/
theorem Sound.written (h : c.Sound) {k : Nat} {x : Exchange} {i : Instance}
    (hlog : c'.log = ⟨k, x⟩ :: c.log) (hx : x.sight = some i) (hi : i.Proper)
    (hs : c'.world.records = c.world.records.insert i.id i) : c'.Sound := by
  refine h.cons hlog (fun id r hr => ?_) fun r hr => ?_
  · rw [hs, Dict.get?_insert] at hr
    split at hr
    · cases hr
      exact hi
    · exact h.stored id r hr
  · rw [hx] at hr
    cases hr
    exact hi

theorem Sound.asks (h : c.Sound) {k : Nat} {x : Exchange} (hfits : x.call.Fits (c.past k))
    (hx : Outcome c.world x c'.world) (hlog : c'.log = ⟨k, x⟩ :: c.log) : c'.Sound := by
  generalize hw : c'.world = w at hx
  cases hx with
  | inserted i _ hnew hs =>
    have hi : Instance.Proper { i with version := 1 } := hfits.congr rfl rfl rfl rfl
    exact h.written hlog rfl hi (hw ▸ hs)
  | updated i before _ hb ht hv hs =>
    obtain ⟨seen, hview, hproper⟩ := hfits
    obtain ⟨e, he, hsight⟩ := view_past hview
    have hi : i.Proper := hproper (h.seen e he seen hsight)
    have hnext : Instance.Proper { i with version := i.version + 1 } := hi.congr rfl rfl rfl rfl
    exact h.written hlog rfl hnext (hw ▸ hs)
  | removed tenant id before _ hb ht hs =>
    refine h.cons hlog (fun id' r hr => ?_) fun r hr => by cases hr
    rw [hw, hs, Dict.get?_erase] at hr
    split at hr
    · cases hr
    · exact h.stored id' r hr
  | kept _ hwritten hremoval hsight =>
    refine h.cons hlog (fun id r hr => h.stored id r (hw ▸ hr)) fun r hr => ?_
    exact h.stored r.id r (hsight r hr)

theorem fits_of_reaches (h : Reaches .ofStore (start .empty) c) {k : Nat} {o : Operation}
    (ho : c.operations[k]? = some o) : o.rest.Keeps Call.Fits (c.past k) :=
  rest_of_reaches (P := fun _ _ p past => p.Keeps Call.Fits past)
    (fun limit caller stamp q => procedure_fits limit caller stamp q)
    (fun _ _ _ _ _ a hp => hp.2 a) h ho

theorem sound_step {m : Move .ofStore} (h : Reaches .ofStore (start .empty) c) (hc : c.Sound)
    (hs : c.step .ofStore m = some c') : c'.Sound := by
  cases m with
  | begin limit caller request stamp =>
    obtain ⟨-, rfl⟩ := step_begin hs
    exact ⟨hc.stored, hc.seen⟩
  | chance d => exact d.elim
  | answer k x =>
    obtain ⟨o, call, next, ho, hr, rfl⟩ := step_answer hs
    have hkeeps := fits_of_reaches h ho
    rw [hr] at hkeeps
    exact hc.asks hkeeps.1 (serve_outcome (rooted_of_reaches h).filed x call) rfl

theorem sound_of_reaches (h : Reaches .ofStore (start .empty) c) : c.Sound :=
  h.induct (fun _ _ _ hd hc hs => sound_step hd hc hs) sound_start

/-- Along a run the slug index is the inverse of the records. -/
theorem indexed_of_reaches (h : Reaches .ofStore (start .empty) c) : c.world.Indexed := by
  refine h.induct (P := fun d => d.world.Indexed) (fun d m d' _ hd hs => ?_) Store.indexed_empty
  cases m with
  | begin limit caller request stamp =>
    obtain ⟨-, rfl⟩ := step_begin hs
    exact hd
  | chance e => exact e.elim
  | answer k x =>
    obtain ⟨o, call, next, -, -, rfl⟩ := step_answer hs
    exact hd.serve x call

/-! ## Ids and versions -/

theorem Rooted.born_of_stored (h : c.Rooted) {id : String} {r : Instance}
    (hr : c.world.records.get? id = some r) : ∃ b, c.Born b ∧ b.id = id := by
  obtain ⟨b, hb, hmark⟩ := h.stored id r hr
  exact ⟨b, hb, (Instance.id_eq_of_birthmark hmark).trans (h.filed id r hr)⟩

/-- The id of a record is the one that an operation was stamped with. -/
theorem stamped_of_stored (h : Reaches .ofStore (start .empty) c) {id : String} {r : Instance}
    (hr : c.world.records.get? id = some r) : ∃ o ∈ c.operations, o.stamp.instanceId = id := by
  obtain ⟨b, ⟨e, he, hb⟩, hid⟩ := (rooted_of_reaches h).born_of_stored hr
  obtain ⟨i, hcall, hi⟩ := Exchange.call_of_birth hb
  obtain ⟨q, s, hasked, hs⟩ := (conducted_of_reaches h).named e he i hcall
  obtain ⟨o, ho, ha⟩ := Option.map_eq_some_iff.1 hasked
  cases ha
  exact ⟨o, List.mem_of_getElem? ho, by rw [← hs, hi, hid]⟩

/-- A record that is stored has been written. -/
theorem writes_pos_of_stored (h : c.Rooted) {id : String} {r : Instance}
    (hr : c.world.records.get? id = some r) : 0 < c.writes id := by
  obtain ⟨b, ⟨e, he, hb⟩, hid⟩ := h.born_of_stored hr
  refine List.countP_pos_iff.2 ⟨e, he, ?_⟩
  simp [Exchange.written_of_birth hb, hid]

theorem one_le_version (h : Reaches .ofStore (start .empty) c)
    (hbound : ∀ id, c.writes id < UInt64.size) {id : String} {r : Instance}
    (hr : c.world.records.get? id = some r) : 1 ≤ r.version.toNat := by
  rw [(current_of_reaches h hbound).counted id r hr]
  exact writes_pos_of_stored (rooted_of_reaches h) hr

end Config

/-! ## Look-ups -/

namespace Procedure

variable {s : Store} {who : Caller} {r : Instance} (limit : UInt64) (stamp : Stamp)
  (outside : (c : Call) → c.Answer)

/-- A procedure whose calls a store answers one after the other. -/
def runAt {α : Type} (outside : (c : Call) → c.Answer) (s : Store) (p : Procedure α) :
    Except Failure α × Store :=
  p.run (m := StateM Store) (fun c s => serveStore outside s c) s

theorem identify_of_tenant (hwho : who.tenant ≠ "") : identify (some who) = .done who := by
  unfold identify
  rw [Caller.require_eq_ok_iff.2 ⟨rfl, hwho⟩]
  rfl

theorem checkId_of_identifier {id : String} (h : Text.isIdentifier id = true) :
    checkId id = .done () := by
  have hne : (id != "") = true := by
    unfold Text.isIdentifier at h
    exact (Bool.and_eq_true_iff.1 h).1
  unfold checkId
  rw [hne, h]
  rfl

theorem runAt_ask {α : Type} (c : Call) (f : c.Answer → Procedure α) :
    (ask c >>= f).runAt outside s =
      (f (serveStore outside s c).1).runAt outside (serveStore outside s c).2 := rfl

/-- A question for an id is answered with the record that is stored under it. -/
theorem runAt_get (hwho : who.tenant ≠ "") {id : String} (hid : checkId id = .done ())
    (hfind : s.find who.tenant id = .ok r) :
    (procedure limit (some who) stamp (.get id)).runAt outside s = (.ok (.record r), s) := by
  have hserve : serveStore outside s (.find who.tenant id) = (.ok r, s) :=
    congrArg (fun a => (a, s)) hfind
  unfold procedure get load
  rw [identify_of_tenant hwho]
  simp only [done_bind, hid, bind_assoc]
  rw [runAt_ask, hserve]
  rfl

/-- A question for a slug is answered with the record that goes by it. -/
theorem runAt_getBySlug (hwho : who.tenant ≠ "") {slug : String} (hslug : slug ≠ "")
    (hfind : s.findBySlug who.tenant slug = .ok r) :
    (procedure limit (some who) stamp (.getBySlug slug)).runAt outside s =
      (.ok (.record r), s) := by
  have hserve : serveStore outside s (.findBySlug who.tenant slug) = (.ok r, s) :=
    congrArg (fun a => (a, s)) hfind
  have hensure : ensure (slug != "") (.invalid .emptySlug) = .done () :=
    if_pos (bne_iff_ne.2 hslug)
  unfold procedure getBySlug
  rw [identify_of_tenant hwho]
  simp only [done_bind, hensure, bind_assoc]
  rw [runAt_ask, hserve]
  rfl

end Procedure

namespace Config

variable {c : Config Store}

/-- While any operations of any callers run side by side, whatever directory, providers and bus
answer, each new instance under an id that is drawn for it: a stored record goes by the slug of its
name, which is not empty, runs an image that is not blank for a tenant that is named, under an id that
every operation accepts, in a version from 1 on. No other record of its tenant has its slug. So its
tenant gets this very record both by its id and by the slug of its name. -/
theorem records_are_proper_and_found (h : Reaches .ofStore (start .empty) c)
    (hdrawn : ∀ o ∈ c.operations, IsDrawn o.stamp.instanceId)
    (hbound : ∀ id, c.writes id < UInt64.size) :
    ∀ id r, c.world.records.get? id = some r →
      r.id = id ∧
      (r.slug = Text.slug r.name ∧ r.slug ≠ "") ∧
      (∃ ch ∈ r.image.toList, Text.isBlank ch = false) ∧
      r.tenant ≠ "" ∧
      checkId r.id = .done () ∧
      1 ≤ r.version.toNat ∧
      (∀ id' r', c.world.records.get? id' = some r' → r'.tenant = r.tenant → r'.slug = r.slug →
        id' = id) ∧
      ∀ who : Caller, who.tenant = r.tenant → ∀ limit stamp outside,
        (procedure limit (some who) stamp (.get r.id)).runAt outside c.world =
            (.ok (.record r), c.world) ∧
          (procedure limit (some who) stamp (.getBySlug (Text.slug r.name))).runAt outside c.world =
            (.ok (.record r), c.world) := by
  intro id r hr
  have hindexed := indexed_of_reaches h
  have hproper := (sound_of_reaches h).stored id r hr
  obtain rfl : r.id = id := hindexed.filed id r hr
  obtain ⟨o, ho, hstamp⟩ := stamped_of_stored h hr
  have hid : checkId r.id = .done () :=
    checkId_of_identifier (hstamp ▸ (hdrawn o ho).isIdentifier)
  refine ⟨rfl, ⟨hproper.slug_eq, hproper.slug_ne⟩, hproper.image, hproper.tenant_ne, hid,
    one_le_version h hbound hr, fun id' r' hr' htenant hslug => ?_,
    fun who hwho limit stamp outside => ?_⟩
  · refine hindexed.id_eq hr' hr ?_
    unfold Store.keyOf
    rw [htenant, hslug]
  · have hnamed : who.tenant ≠ "" := hwho ▸ hproper.tenant_ne
    have hfind : c.world.find who.tenant r.id = .ok r := Store.find_eq_ok_iff.2 ⟨hr, hwho.symm⟩
    have hfound : c.world.findBySlug who.tenant (Text.slug r.name) = .ok r :=
      hindexed.findBySlug_eq_ok_iff.2 ⟨hfind, hproper.slug_eq⟩
    exact ⟨runAt_get limit stamp outside hnamed hid hfind,
      runAt_getBySlug limit stamp outside hnamed (hproper.slug_eq ▸ hproper.slug_ne) hfound⟩

/-- An id that is drawn for a new instance: the digits are `digit` 32 times. -/
def drawn (digit : Char) : String := String.ofList ("inst_".toList ++ List.replicate 32 digit)

theorem isDrawn_drawn {digit : Char} (h : digit ∈ hexDigits) : IsDrawn (drawn digit) := by
  refine ⟨List.replicate 32 digit, List.length_replicate, fun d hd => ?_, String.toList_ofList⟩
  rw [List.eq_of_mem_replicate hd]
  exact h

/-- An instance gets another name while somebody is about to start it. -/
def rebranding : Config Store :=
  ((start .empty).run .ofStore (creation willing 0 (drawn 'a') "evt_1" "Web" ++
    [asking (drawn 'b') "evt_2" (.start (drawn 'a')), .answer 1 willing, .answer 1 willing,
      asking (drawn 'c') "evt_3" (.update (drawn 'a') { name := some "  Web Shop!" }),
      .answer 2 willing, .answer 2 willing, .answer 1 willing])).get (by decide +kernel)

theorem records_are_proper_and_found_rebranding :
    Reaches .ofStore (start .empty) rebranding ∧
      (∀ o ∈ rebranding.operations, IsDrawn o.stamp.instanceId) ∧
      (∀ id, rebranding.writes id < UInt64.size) ∧
      ∃ r, rebranding.world.records.get? (drawn 'a') = some r ∧ r.name = "  Web Shop!" ∧
        r.slug = "web-shop" ∧ 1 ≤ r.version.toNat ∧
        ∀ limit stamp outside,
          (procedure limit (some (.ofTenant "acme" "user-2")) stamp
              (.getBySlug (Text.slug "  Web Shop!"))).runAt outside rebranding.world =
            (.ok (.record r), rebranding.world) := by
  have hreach : Reaches .ofStore (start .empty) rebranding := ⟨_, (Option.some_get _).symm⟩
  have hids : rebranding.operations.map (·.stamp.instanceId) = ['a', 'b', 'c'].map drawn := by
    decide +kernel
  have hdrawn : ∀ o ∈ rebranding.operations, IsDrawn o.stamp.instanceId := by
    intro o ho
    have hmem : o.stamp.instanceId ∈ rebranding.operations.map (·.stamp.instanceId) :=
      List.mem_map_of_mem ho
    rw [hids] at hmem
    obtain ⟨digit, hdigit, hid⟩ := List.mem_map.1 hmem
    have hhex : ['a', 'b', 'c'].all (· ∈ hexDigits) = true := by decide
    exact hid ▸ isDrawn_drawn (of_decide_eq_true (List.all_eq_true.1 hhex digit hdigit))
  have hbound : ∀ id, rebranding.writes id < UInt64.size := fun id =>
    Nat.lt_of_le_of_lt (writes_le_length _ id) (by decide +kernel)
  have hstored : (rebranding.world.records.get? (drawn 'a')).map (fun r => (r.name, r.slug, r.tenant)) =
      some ("  Web Shop!", "web-shop", "acme") := by decide +kernel
  obtain ⟨r, hr, hfields⟩ := Option.map_eq_some_iff.1 hstored
  obtain ⟨hname, hslug, htenant⟩ : r.name = "  Web Shop!" ∧ r.slug = "web-shop" ∧ r.tenant = "acme" := by
    simpa only [Prod.mk.injEq] using hfields
  obtain ⟨-, -, -, -, -, hversion, -, hlookup⟩ :=
    records_are_proper_and_found hreach hdrawn hbound _ r hr
  refine ⟨hreach, hdrawn, hbound, r, hr, hname, hslug, hversion, fun limit stamp outside => ?_⟩
  rw [← hname]
  exact (hlookup (.ofTenant "acme" "user-2") htenant.symm limit stamp outside).2

end Config

end Service

end Fleet
