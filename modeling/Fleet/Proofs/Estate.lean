import Fleet.Proofs.Provenance

/-!
# Procedures carried out in one go

A procedure depends on the store and on the directory of providers only (`Estate`), and no procedure
of a request heeds what the bus answers (`procedure_heedless`). So a control plane carries a request
out as its estate does, and the events that come of it are published afterwards:

    p.carry pr = (reply of pr.carry p.estate, (p with the estate after it).tell its events)
                                                                        (Plane.carry_eq)
    p.perform caller stamp q = (p.carry (procedure p.settings.maxInstances caller stamp q)) without
      what was seen of the events                                       (Plane.perform_eq)

What is carried out in one go is computed part by part: `carry_bind_ok`, `carry_bind_error`, and for
parts that only look something up, `Finds.bind`. -/

namespace Fleet

open Service

/-- What operations depend on and change: the store and the directory of providers. -/
structure Estate where
  store : Store := .empty
  directory : Provider.Directory := {}

namespace Plane

def estate (p : Plane) : Estate := { store := p.store, directory := p.directory }

def occupy (p : Plane) (w : Estate) : Plane := { p with store := w.store, directory := w.directory }

/-- Publishes events one after the other, with what is seen of them. -/
def tell (p : Plane) : List Event → Plane × List Notice
  | [] => (p, [])
  | e :: rest =>
    let (_, p, seen) := p.publish e
    let (p, later) := p.tell rest
    (p, seen ++ later)

@[simp] theorem estate_occupy (p : Plane) (w : Estate) : (p.occupy w).estate = w := rfl

@[simp] theorem occupy_occupy (p : Plane) (w w' : Estate) : (p.occupy w).occupy w' = p.occupy w' :=
  rfl

theorem estate_publish (p : Plane) (e : Event) : (p.publish e).2.1.estate = p.estate := rfl

/-- The estate has no part in publishing. -/
theorem publish_occupy (p : Plane) (w : Estate) (e : Event) :
    (p.occupy w).publish e = ((p.publish e).1, (p.publish e).2.1.occupy w, (p.publish e).2.2) := rfl

theorem estate_tell (p : Plane) (es : List Event) : (p.tell es).1.estate = p.estate := by
  induction es generalizing p with
  | nil => rfl
  | cons e rest ih => exact (ih _).trans (p.estate_publish e)

theorem settings_tell (p : Plane) (es : List Event) : (p.tell es).1.settings = p.settings := by
  induction es generalizing p with
  | nil => rfl
  | cons e rest ih => exact ih _

theorem tell_occupy (p : Plane) (w : Estate) (es : List Event) :
    (p.occupy w).tell es = ((p.tell es).1.occupy w, (p.tell es).2) := by
  induction es generalizing p with
  | nil => rfl
  | cons e rest ih =>
    simp only [tell, publish_occupy]
    rw [ih]

end Plane

namespace Estate

/-- The control plane of an estate, with nobody on its bus. -/
def plane (w : Estate) : Plane := { store := w.store, directory := w.directory }

/-- Serves a call; events are let pass. -/
def serve (w : Estate) (c : Call) : c.Answer × Estate :=
  ((w.plane.serve c).1, (w.plane.serve c).2.1.estate)

end Estate

/-- Whatever is on the bus of a control plane, its estate serves all calls but events. -/
theorem Plane.serve_eq (p : Plane) {c : Call} (hc : ∀ e, c ≠ .publish e) :
    p.serve c = ((p.estate.serve c).1, p.occupy (p.estate.serve c).2, []) := by
  cases c with
  | insert i =>
    simp only [Plane.serve, Estate.serve, Estate.plane, Plane.estate]
    cases p.store.insert i <;> rfl
  | update i =>
    simp only [Plane.serve, Estate.serve, Estate.plane, Plane.estate]
    cases p.store.update i <;> rfl
  | delete tenant id =>
    simp only [Plane.serve, Estate.serve, Estate.plane, Plane.estate]
    cases p.store.delete tenant id <;> rfl
  | publish e => exact absurd rfl (hc e)
  | _ => rfl

/-- What comes of a procedure: its result, the estate after it, and the events that it publishes. -/
structure Upshot (α : Type) where
  reply : Except Failure α
  estate : Estate
  events : List Event

/-- The same after some events. -/
def Upshot.after {α : Type} (es : List Event) (u : Upshot α) : Upshot α :=
  { u with events := es ++ u.events }

@[simp] theorem Upshot.after_nil {α : Type} (u : Upshot α) : u.after [] = u := rfl

namespace Service

def Call.events : Call → List Event
  | .publish e => [e]
  | _ => []

namespace Procedure

variable {α β : Type}

/-- Carries a procedure out over an estate. -/
def carry : Procedure α → Estate → Upshot α
  | .done a, w => ⟨.ok a, w, []⟩
  | .fail f, w => ⟨.error f, w, []⟩
  | .call c next, w => ((next (w.serve c).1).carry (w.serve c).2).after c.events

theorem carry_bind_ok {p : Procedure α} {w w' : Estate} {a : α} {es : List Event}
    (h : p.carry w = ⟨.ok a, w', es⟩) (f : α → Procedure β) :
    (p >>= f).carry w = ((f a).carry w').after es := by
  induction p generalizing w es with
  | done b =>
    cases h
    rfl
  | fail e => cases h
  | call c next ih =>
    simp only [carry, Upshot.after, Upshot.mk.injEq] at h
    obtain ⟨hreply, hestate, rfl⟩ := h
    have hnext : (next (w.serve c).1).carry (w.serve c).2 =
        ⟨.ok a, w', ((next (w.serve c).1).carry (w.serve c).2).events⟩ := by
      rw [← hreply, ← hestate]
    show ((next (w.serve c).1 >>= f).carry (w.serve c).2).after c.events = _
    rw [ih _ hnext]
    simp [Upshot.after]

theorem carry_bind_error {p : Procedure α} {w w' : Estate} {e : Failure} {es : List Event}
    (h : p.carry w = ⟨.error e, w', es⟩) (f : α → Procedure β) :
    (p >>= f).carry w = ⟨.error e, w', es⟩ := by
  induction p generalizing w es with
  | done b => cases h
  | fail e' =>
    cases h
    rfl
  | call c next ih =>
    simp only [carry, Upshot.after, Upshot.mk.injEq] at h
    obtain ⟨hreply, hestate, rfl⟩ := h
    have hnext : (next (w.serve c).1).carry (w.serve c).2 =
        ⟨.error e, w', ((next (w.serve c).1).carry (w.serve c).2).events⟩ := by
      rw [← hreply, ← hestate]
    show ((next (w.serve c).1 >>= f).carry (w.serve c).2).after c.events = _
    rw [ih _ hnext]
    rfl

/-! ## No answer of the bus is heeded -/

/-- Whether a procedure goes on in the same way whatever the bus answers. -/
def Heedless : Procedure α → Prop
  | .done _ => True
  | .fail _ => True
  | .call c next => (∀ e, c = .publish e → ∀ a b, next a = next b) ∧ ∀ a, (next a).Heedless

theorem heedless_bind {p : Procedure α} {f : α → Procedure β} (hp : p.Heedless)
    (hf : ∀ a, (f a).Heedless) : (p >>= f).Heedless := by
  induction p with
  | done a => exact hf a
  | fail e => trivial
  | call c next ih =>
    refine ⟨fun e he a b => ?_, fun a => ih a (hp.2 a)⟩
    show (next a).bind f = (next b).bind f
    rw [hp.1 e he a b]

theorem heedless_ask {c : Call} (hc : ∀ e, c ≠ .publish e) : (ask c).Heedless :=
  ⟨fun e he => absurd he (hc e), fun _ => trivial⟩

theorem heedless_ofExcept (e : Except Failure α) : (ofExcept e).Heedless := by
  cases e <;> trivial

theorem heedless_ensure (b : Bool) (f : Failure) : (ensure b f).Heedless := by
  cases b <;> trivial

theorem heedless_announce (e : Event) : (announce e).Heedless :=
  ⟨fun _ _ _ _ => rfl, fun _ => trivial⟩

theorem heedless_identify (caller : Option Caller) : (identify caller).Heedless :=
  heedless_ofExcept _

theorem heedless_load (who : Caller) (id : String) : (load who id).Heedless := by
  unfold load checkId
  refine heedless_bind (heedless_bind (heedless_ensure _ _) fun _ => heedless_ensure _ _) fun _ => ?_
  exact heedless_bind (heedless_ask (by simp)) fun _ => heedless_ofExcept _

theorem heedless_providerOf (i : Instance) : (providerOf i).Heedless :=
  heedless_bind (heedless_ask (by simp)) fun _ => heedless_ofExcept _

theorem heedless_persist (i : Instance) (now : Instant) : (persist i now).Heedless :=
  heedless_bind (heedless_ask (by simp)) fun _ => heedless_bind (heedless_ofExcept _) fun _ => trivial

theorem heedless_markFailed (i : Instance) (now : Instant) : (markFailed i now).Heedless := by
  refine heedless_bind (heedless_ask (by simp)) fun a => ?_
  cases a <;> trivial

theorem heedless_giveUp (who : Caller) (stamp : Stamp) (i : Instance) (now : Instant)
    (during : Undertaking) (cause : Provider.Error) :
    (giveUp (α := α) who stamp i now during cause).Heedless := by
  unfold giveUp
  refine heedless_bind (heedless_markFailed i now) fun a => ?_
  obtain ⟨written, i⟩ := a
  cases written with
  | true => exact heedless_bind (heedless_announce _) fun _ => trivial
  | false => trivial

theorem heedless_checkQuota (limit : UInt64) (who : Caller) (stamp : Stamp) :
    (checkQuota limit who stamp).Heedless := by
  unfold checkQuota
  split
  · trivial
  · refine heedless_bind (heedless_ask (by simp)) fun _ => heedless_bind (heedless_ofExcept _) fun _ => ?_
    split
    · trivial
    · exact heedless_bind (heedless_announce _) fun _ => trivial

end Procedure

end Service

/-! ## A control plane carries out what its estate does -/

namespace Plane

variable {α : Type}

/-- Carries a procedure out; what is seen of events comes with it. -/
def carry (p : Plane) : Procedure α → Except Failure α × Plane × List Notice
  | .done a => (.ok a, p, [])
  | .fail f => (.error f, p, [])
  | .call c next =>
    let (answer, p, seen) := p.serve c
    let (result, p, later) := p.carry (next answer)
    (result, p, seen ++ later)

/-- What comes of a procedure that heeds no answer of the bus. -/
theorem carry_eq (p : Plane) {pr : Procedure α} (h : pr.Heedless) :
    p.carry pr = ((pr.carry p.estate).reply,
      (p.occupy (pr.carry p.estate).estate).tell (pr.carry p.estate).events) := by
  induction pr generalizing p with
  | done a => rfl
  | fail f => rfl
  | call c next ih =>
    by_cases hc : ∃ e, c = .publish e
    · obtain ⟨e, rfl⟩ := hc
      have hsame : next (p.publish e).1 = next (p.estate.serve (.publish e)).1 := h.1 e rfl _ _
      show ((p.publish e).2.1.carry (next (p.publish e).1)).map id (Prod.map id ((p.publish e).2.2 ++ ·))
        = _
      rw [hsame, ih _ _ (h.2 _), estate_publish]
      show _ = (_, ((p.occupy _).tell (e :: _)))
      simp only [tell, publish_occupy]
      rfl
    · have hserve := p.serve_eq fun e he => hc ⟨e, he⟩
      have hnone : c.events = [] := by
        cases c with
        | publish e => exact absurd ⟨e, rfl⟩ hc
        | _ => rfl
      simp only [carry, hserve, Procedure.carry, hnone, Upshot.after_nil]
      rw [ih _ _ (h.2 _)]
      rfl

theorem run_eq_carry (p : Plane) (pr : Procedure α) :
    pr.run (m := StateM Plane) (fun c p => ((p.serve c).1, (p.serve c).2.1)) p =
      ((p.carry pr).1, (p.carry pr).2.1) := by
  induction pr generalizing p with
  | done a => rfl
  | fail f => rfl
  | call c next ih => exact ih _ _

/-- To perform a request is to carry its procedure out. -/
theorem perform_eq (p : Plane) (caller : Option Caller) (stamp : Stamp) (q : Request) :
    p.perform caller stamp q =
      ((p.carry (procedure p.settings.maxInstances caller stamp q)).1,
        (p.carry (procedure p.settings.maxInstances caller stamp q)).2.1) :=
  p.run_eq_carry _

end Plane

/-! ## Parts of procedures -/

/-- Whether a failure of the kind is a refusal: neither did a provider fail, nor was a quota reached. -/
def Failure.Kind.isRefusal : Failure.Kind → Bool
  | .providerUnavailable | .quotaExceeded => false
  | _ => true

namespace Service.Procedure

variable {α β : Type}

/-- Whether a procedure only looks something up that is as `P` says, or refuses. -/
def Finds (p : Procedure α) (w : Estate) (P : α → Prop) : Prop :=
  (∃ a, p.carry w = ⟨.ok a, w, []⟩ ∧ P a) ∨
    ∃ f, p.carry w = ⟨.error f, w, []⟩ ∧ f.kind.isRefusal = true

/-- A part that looks something up leads on with what it found, or ends all with its refusal. -/
theorem Finds.bind {p : Procedure α} {w : Estate} {P : α → Prop} (h : p.Finds w P)
    {f : α → Procedure β} {Q : Upshot β → Prop} (hok : ∀ a, P a → Q ((f a).carry w))
    (herr : ∀ e, e.kind.isRefusal = true → Q ⟨.error e, w, []⟩) : Q ((p >>= f).carry w) := by
  rcases h with ⟨a, ha, hP⟩ | ⟨e, he, href⟩
  · rw [carry_bind_ok ha]
    exact hok a hP
  · rw [carry_bind_error he]
    exact herr e href

theorem finds_bind {p : Procedure α} {w : Estate} {P : α → Prop} {Q : β → Prop}
    {f : α → Procedure β} (h : p.Finds w P) (hf : ∀ a, P a → (f a).Finds w Q) :
    (p >>= f).Finds w Q := by
  rcases h with ⟨a, ha, hP⟩ | ⟨e, he, href⟩
  · unfold Finds
    rw [carry_bind_ok ha]
    exact hf a hP
  · exact .inr ⟨e, carry_bind_error he f, href⟩

theorem Finds.mono {p : Procedure α} {w : Estate} {P Q : α → Prop} (h : p.Finds w P)
    (hPQ : ∀ a, P a → Q a) : p.Finds w Q := by
  rcases h with ⟨a, ha, hP⟩ | he
  · exact .inl ⟨a, ha, hPQ a hP⟩
  · exact .inr he

theorem finds_ofExcept (w : Estate) {e : Except Failure α} {P : α → Prop}
    (hok : ∀ a, e = .ok a → P a) (herr : ∀ f, e = .error f → f.kind.isRefusal = true) :
    (ofExcept e).Finds w P := by
  cases e with
  | ok a => exact .inl ⟨a, rfl, hok a rfl⟩
  | error f => exact .inr ⟨f, rfl, herr f rfl⟩

theorem finds_ensure (w : Estate) {b : Bool} {f : Failure} (hf : f.kind.isRefusal = true) :
    (ensure b f).Finds w fun _ => b = true := by
  cases b with
  | true => exact .inl ⟨(), rfl, rfl⟩
  | false => exact .inr ⟨f, rfl, hf⟩

/-- A call that changes nothing and makes nothing known. -/
theorem finds_ask {w : Estate} {c : Call} (hserve : (w.serve c).2 = w) (hc : c.events = []) :
    (ask c).Finds w (· = (w.serve c).1) := by
  refine .inl ⟨_, ?_, rfl⟩
  show Upshot.after c.events ⟨.ok (w.serve c).1, (w.serve c).2, []⟩ = _
  rw [hc, hserve, Upshot.after_nil]

theorem finds_identify (w : Estate) (caller : Option Caller) :
    (identify caller).Finds w fun who => caller = some who ∧ who.tenant ≠ "" := by
  refine finds_ofExcept w (fun who h => Caller.require_eq_ok_iff.1 h) fun f h => ?_
  unfold Caller.require at h
  split at h
  · cases h
    rfl
  · split at h
    · cases h
      rfl
    · cases h

theorem finds_move (w : Estate) (source target : State) :
    (ofExcept (source.move target)).Finds w fun _ => source.canMove target = true := by
  refine finds_ofExcept w (fun _ h => State.move_eq_ok_iff.1 h) fun f h => ?_
  unfold State.move at h
  split at h
  · cases h
  · cases h
    rfl

theorem finds_load (w : Estate) (who : Caller) (id : String) :
    (load who id).Finds w fun i => w.store.records.get? id = some i ∧ i.tenant = who.tenant := by
  unfold load checkId
  refine finds_bind (finds_bind (finds_ensure w rfl) fun _ _ => finds_ensure w rfl) fun _ _ => ?_
  refine finds_bind (finds_ask rfl rfl) fun a ha => ?_
  subst ha
  refine finds_ofExcept w (fun i h => Store.find_eq_ok_iff.1 h) fun f h => ?_
  change w.store.find who.tenant id = .error f at h
  unfold Store.find at h
  split at h
  · cases h
  · cases h
    rfl

theorem finds_providerOf (w : Estate) (i : Instance) :
    (providerOf i).Finds w fun _ => ∃ l, w.directory.providers.get? i.provider = some l := by
  unfold providerOf
  refine finds_bind (finds_ask rfl rfl) fun a ha => ?_
  subst ha
  change (ofExcept ((w.directory.lookup i.provider).map fun _ => ())).Finds w _
  unfold Provider.Directory.lookup
  cases h : w.directory.providers.get? i.provider with
  | some l => exact .inl ⟨(), rfl, l, rfl⟩
  | none => exact .inr ⟨_, rfl, rfl⟩

end Service.Procedure

/-! ## Writes of a stored record -/

/-- The store with a record in the place of the one with its id; no slug changes hands. -/
def Store.put (s : Store) (i : Instance) : Store := { s with records := s.records.insert i.id i }

/-- The store without a record and its slug. -/
def Store.drop (s : Store) (i : Instance) : Store :=
  { records := s.records.erase i.id, slugs := s.slugs.erase (keyOf i) }

/-- The record as it is stored by a write at a moment. -/
def Instance.saved (i : Instance) (now : Instant) : Instance :=
  { i.touch now with version := i.version + 1 }

/-- Whether the store takes a write of the record: the record that it replaces has the same tenant,
version and slug. -/
def Store.Takes (s : Store) (i : Instance) : Prop :=
  ∃ stored, s.records.get? i.id = some stored ∧ stored.tenant = i.tenant ∧
    stored.version = i.version ∧ stored.slug = i.slug

namespace Store

theorem get?_put (s : Store) (i : Instance) (id : String) :
    (s.put i).records.get? id = if i.id = id then some i else s.records.get? id :=
  Dict.get?_insert _ _ _ _

theorem put_put (s : Store) {i j : Instance} (h : i.id = j.id) : (s.put i).put j = s.put j := by
  unfold put
  congr 1
  refine Dict.ext_get? fun id => ?_
  simp only [Dict.get?_insert, h]
  split <;> rfl

/-- To put a record that is stored changes nothing. -/
theorem put_self {s : Store} {i : Instance} (h : s.records.get? i.id = some i) : s.put i = s := by
  unfold put
  have hrecords : s.records.insert i.id i = s.records := by
    refine Dict.ext_get? fun id => ?_
    rw [Dict.get?_insert]
    split
    · rename_i hid
      rw [← hid, h]
    · rfl
  rw [hrecords]

theorem takes_put (s : Store) {i j : Instance} (hid : i.id = j.id) (htenant : i.tenant = j.tenant)
    (hversion : i.version = j.version) (hslug : i.slug = j.slug) : (s.put i).Takes j := by
  refine ⟨i, ?_, htenant, hversion, hslug⟩
  rw [get?_put, if_pos hid]

theorem get?_drop (s : Store) (i : Instance) (id : String) :
    (s.drop i).records.get? id = if i.id = id then none else s.records.get? id :=
  Dict.get?_erase _ _ _

/-- To drop what was put in the place of a record is to drop that record. -/
theorem drop_put (s : Store) {i j : Instance} (hid : j.id = i.id) (hkey : keyOf j = keyOf i) :
    (s.put j).drop j = s.drop i := by
  unfold put drop
  rw [hkey, hid]
  congr 1
  refine Dict.ext_get? fun id => ?_
  simp only [Dict.get?_erase, Dict.get?_insert]
  split <;> rfl

theorem update_of_takes {s : Store} {i : Instance} (h : s.Takes i) (now : Instant) :
    s.update (i.touch now) = .ok (i.version + 1, s.put (i.saved now)) := by
  obtain ⟨stored, hget, htenant, hversion, hslug⟩ := h
  exact update_of_stored (i := i.touch now) hget htenant hversion hslug

end Store

namespace Service

def failedEvent (who : Caller) (stamp : Stamp) (i : Instance) (during : Undertaking)
    (cause : Provider.Error) : Event :=
  (eventOf who stamp .instanceFailed i |>.withField "operation" (.str during.name)).withField "error"
    (.str cause.message)

namespace Procedure

variable {w : Estate}

theorem carry_announce (w : Estate) (e : Event) : (announce e).carry w = ⟨.ok (), w, [e]⟩ := rfl

theorem carry_command (w : Estate) (name : String) (c : Provider.Command) :
    (ask (.command name c)).carry w = ⟨.ok (w.directory.command name c).1,
      { w with directory := (w.directory.command name c).2 }, []⟩ := rfl

theorem carry_update {i : Instance} {version : UInt64} {s : Store}
    (h : w.store.update i = .ok (version, s)) :
    (ask (.update i)).carry w = ⟨.ok (.ok version), { w with store := s }, []⟩ := by
  simp only [ask, carry, Estate.serve, Estate.plane, Plane.serve, h, Plane.estate, Call.events,
    Upshot.after_nil]

theorem carry_persist {i : Instance} (h : w.store.Takes i) (now : Instant) :
    (persist i now).carry w =
      ⟨.ok (i.saved now), { w with store := w.store.put (i.saved now) }, []⟩ := by
  unfold persist
  rw [carry_bind_ok (carry_update (Store.update_of_takes h now))]
  rfl

theorem carry_markFailed {i : Instance} (h : w.store.Takes i) (now : Instant) :
    (markFailed i now).carry w =
      ⟨.ok (true, { i with state := .failed }.saved now),
        { w with store := w.store.put ({ i with state := .failed }.saved now) }, []⟩ := by
  unfold markFailed
  have hfailed : w.store.Takes { i with state := .failed } := h
  rw [carry_bind_ok (carry_update (Store.update_of_takes hfailed now))]
  rfl

theorem carry_giveUp {α : Type} {i : Instance} (h : w.store.Takes i) (who : Caller) (stamp : Stamp)
    (now : Instant) (during : Undertaking) (cause : Provider.Error) :
    (giveUp (α := α) who stamp i now during cause).carry w =
      ⟨.error (.providerFailed during cause),
        { w with store := w.store.put ({ i with state := .failed }.saved now) },
        [failedEvent who stamp ({ i with state := .failed }.saved now) during cause]⟩ := by
  unfold giveUp
  rw [carry_bind_ok (carry_markFailed h now)]
  rfl

theorem carry_delete {i : Instance} (h : w.store.records.get? i.id = some i) :
    (ask (.delete i.tenant i.id)).carry w =
      ⟨.ok (.ok ()), { w with store := w.store.drop i }, []⟩ := by
  have hdelete := Store.delete_of_stored (s := w.store) h rfl
  simp only [ask, carry, Estate.serve, Estate.plane, Plane.serve, hdelete, Plane.estate, Call.events,
    Upshot.after_nil]
  rfl

end Procedure

end Service

end Fleet
