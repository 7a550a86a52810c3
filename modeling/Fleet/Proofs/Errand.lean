import Fleet.Proofs.Estate

/-!
# Errands

Seven requests send a provider on an errand about a stored record, and differ in little: which state
announces the change, what the provider is told, what becomes of the record when the provider fails and
when it does not, and which event tells of it (`Errand`). They are one procedure:

    procedure limit caller stamp q = e.procedure caller stamp        (procedure_eq_errand)

So what comes of them is known by one computation (`Errand.comes`). -/

namespace Fleet.Service

open Procedure

/-- A request that has a provider do something about a stored record. What becomes of the record is a
record that the store takes in its place. -/
structure Errand where
  id : String
  /-- The state that announces the change. -/
  announces : Option State := none
  command : Instance → Provider.Command
  during : Undertaking
  /-- When the record is marked failed, if it is, after its provider failed. -/
  marks : Option (Stamp → Instant) := none
  /-- What becomes of the record; nothing when it is removed. -/
  edit : Option (Stamp → Instance → Instance)
  /-- When the last write is dated. -/
  dated : Stamp → Instant := Stamp.first
  news : Caller → Stamp → Instance → Event
  keeps : ∀ f, edit = some f → ∀ stamp i, (f stamp i).id = i.id ∧ (f stamp i).tenant = i.tenant ∧
    (f stamp i).version = i.version ∧ (f stamp i).slug = i.slug := by simp

/-- The errand of a request. -/
def Request.errand : Request → Option Errand
  | .start id => some
    { id, announces := some .starting, command := fun i => .start i.id, during := .task .start
      marks := some Stamp.second, edit := some fun _ i => { i with state := .running }
      dated := Stamp.second, news := fun who stamp => eventOf who stamp .instanceStarted }
  | .stop id => some
    { id, announces := some .stopping, command := fun i => .stop i.id, during := .task .stop
      marks := some Stamp.second, edit := some fun _ i => { i with state := .stopped }
      dated := Stamp.second, news := fun who stamp => eventOf who stamp .instanceStopped }
  | .delete id => some
    { id, announces := some .destroying, command := fun i => .deprovision i.id
      during := .task .deprovision, marks := some Stamp.second, edit := none
      news := fun who stamp => eventOf who stamp .instanceDeleted }
  | .restart id => some
    { id, command := fun i => .restart i.id, during := .task .restart, marks := some Stamp.first
      edit := some fun _ i => { i with state := .running }
      news := fun who stamp i =>
        (eventOf who stamp .instanceStarted i).withField "restart" (.bool true) }
  | .scale id r => some
    { id, command := fun i => .scale i.id (r.applyTo i.resources), during := .task .scale
      edit := some fun _ i => { i with resources := r.applyTo i.resources }, news := scaledEvent }
  | .suspend id reason => some
    { id, command := fun i => .stop i.id, during := .suspend
      edit := some fun stamp i => { i with suspendedAt := some stamp.first, state := .stopped }
      dated := Stamp.second
      news := fun who stamp i =>
        (eventOf who stamp .instanceSuspended i).withField "reason" (.str reason) }
  | .unsuspend id => some
    { id, command := fun i => .start i.id, during := .unsuspend
      edit := some fun _ i => { i with suspendedAt := none, state := .running }
      news := fun who stamp => eventOf who stamp .instanceUnsuspended }
  | _ => none

namespace Errand

/-- Refuses a move that the table does not have, if the errand announces one. -/
def permit (e : Errand) (i : Instance) : Procedure Unit :=
  match e.announces with
  | some s => ofExcept (i.state.move s)
  | none => return

/-- Writes the announced state, if there is one. -/
def enter (e : Errand) (stamp : Stamp) (i : Instance) : Procedure Instance :=
  match e.announces with
  | some s => persist { i with state := s } stamp.first
  | none => return i

/-- What is done after the provider failed. -/
def abandon (e : Errand) (who : Caller) (stamp : Stamp) (i : Instance) (cause : Provider.Error) :
    Procedure Reply :=
  match e.marks with
  | some now => giveUp who stamp i (now stamp) e.during cause
  | none => .fail (.providerFailed e.during cause)

/-- What is done after the provider did as it was told. -/
def finish (e : Errand) (who : Caller) (stamp : Stamp) (i : Instance) : Procedure Reply :=
  match e.edit with
  | some edit => do
    let i ← persist (edit stamp i) (e.dated stamp)
    announce (e.news who stamp i)
    return .record i
  | none => do
    ofExcept (← ask (.delete i.tenant i.id))
    announce (e.news who stamp i)
    return .removed

def procedure (e : Errand) (caller : Option Caller) (stamp : Stamp) : Procedure Reply := do
  let who ← identify caller
  let i ← load who e.id
  e.permit i
  providerOf i
  let i ← e.enter stamp i
  match ← ask (.command i.provider (e.command i)) with
  | .error cause => e.abandon who stamp i cause
  | .ok _ => e.finish who stamp i

end Errand

theorem giveUp_bind {α β : Type} (who : Caller) (stamp : Stamp) (i : Instance) (now : Instant)
    (during : Undertaking) (cause : Provider.Error) (f : α → Procedure β) :
    giveUp (α := α) who stamp i now during cause >>= f = giveUp who stamp i now during cause := by
  unfold giveUp
  rw [bind_assoc]
  congr 1
  funext a
  obtain ⟨written, i⟩ := a
  cases written <;> rfl

/-- An errand's request is carried out by its one procedure. -/
theorem procedure_eq_errand {q : Request} {e : Errand} (h : q.errand = some e) (limit : UInt64)
    (caller : Option Caller) (stamp : Stamp) :
    Service.procedure limit caller stamp q = e.procedure caller stamp := by
  -- Requests with the same steps are one case: those that announce a state, and those that do not.
  cases q with
  | start id | stop id | delete id =>
    cases h
    simp only [Service.procedure, start, stop, delete, Errand.procedure, bind_assoc]
    refine bind_congr fun who => bind_congr fun i => bind_congr fun _ => bind_congr fun _ =>
      bind_congr fun i => bind_congr fun a => ?_
    cases a with
    | error cause => exact giveUp_bind ..
    | ok a => simp only [bind_assoc]; rfl
  | restart id =>
    cases h
    simp only [Service.procedure, restart, Errand.procedure, bind_assoc]
    refine bind_congr fun who => bind_congr fun i => bind_congr fun _ => bind_congr fun a => ?_
    cases a with
    | error cause => exact giveUp_bind ..
    | ok a => simp only [bind_assoc]; rfl
  | scale id r | suspend id reason | unsuspend id =>
    cases h
    simp only [Service.procedure, scale, suspend, unsuspend, Errand.procedure, bind_assoc]
    refine bind_congr fun who => bind_congr fun i => bind_congr fun _ => bind_congr fun a => ?_
    cases a with
    | error cause => rfl
    | ok a => simp only [bind_assoc]; rfl
  | create r | get id | getBySlug slug | list query | update id r => cases h

namespace Errand

theorem heedless_permit (e : Errand) (i : Instance) : (e.permit i).Heedless := by
  unfold permit
  split
  · exact heedless_ofExcept _
  · trivial

theorem heedless_enter (e : Errand) (stamp : Stamp) (i : Instance) :
    (e.enter stamp i).Heedless := by
  unfold enter
  split
  · exact heedless_persist _ _
  · trivial

theorem heedless_abandon (e : Errand) (who : Caller) (stamp : Stamp) (i : Instance)
    (cause : Provider.Error) : (e.abandon who stamp i cause).Heedless := by
  unfold abandon
  split
  · exact heedless_giveUp ..
  · trivial

theorem heedless_finish (e : Errand) (who : Caller) (stamp : Stamp) (i : Instance) :
    (e.finish who stamp i).Heedless := by
  unfold finish
  split
  · refine heedless_bind (heedless_persist _ _) fun i => ?_
    exact heedless_bind (heedless_announce _) fun _ => trivial
  · refine heedless_bind (heedless_ask (by simp)) fun _ => ?_
    refine heedless_bind (heedless_ofExcept _) fun _ => ?_
    exact heedless_bind (heedless_announce _) fun _ => trivial

theorem heedless_procedure (e : Errand) (caller : Option Caller) (stamp : Stamp) :
    (e.procedure caller stamp).Heedless := by
  unfold procedure
  refine heedless_bind (heedless_identify caller) fun who => ?_
  refine heedless_bind (heedless_load who e.id) fun i => ?_
  refine heedless_bind (e.heedless_permit i) fun _ => heedless_bind (heedless_providerOf i) fun _ => ?_
  refine heedless_bind (e.heedless_enter stamp i) fun i => heedless_bind (heedless_ask (by simp)) ?_
  intro a
  cases a with
  | error cause => exact e.heedless_abandon who stamp i cause
  | ok a => exact e.heedless_finish who stamp i

end Errand

/-! ## What comes of an errand -/

namespace Errand

/-- The record as it is when its provider is called. -/
def entered (e : Errand) (stamp : Stamp) (i : Instance) : Instance :=
  match e.announces with
  | some s => { i with state := s }.saved stamp.first
  | none => i

/-- The record after its provider failed. -/
def ruined (e : Errand) (stamp : Stamp) (i : Instance) : Instance :=
  match e.marks with
  | some now => { e.entered stamp i with state := .failed }.saved (now stamp)
  | none => e.entered stamp i

/-- The record after its provider did as it was told. -/
def settled (e : Errand) (edit : Stamp → Instance → Instance) (stamp : Stamp) (i : Instance) :
    Instance :=
  (edit stamp (e.entered stamp i)).saved (e.dated stamp)

/-- The events after the provider failed. -/
def alarm (e : Errand) (who : Caller) (stamp : Stamp) (i : Instance) (cause : Provider.Error) :
    List Event :=
  match e.marks with
  | some _ => [failedEvent who stamp (e.ruined stamp i) e.during cause]
  | none => []

/-- Whether a caller may have the errand done about a stored record. -/
structure Admits (e : Errand) (caller : Option Caller) (w : Estate) (who : Caller) (i : Instance) :
    Prop where
  known : caller = some who
  stored : w.store.records.get? i.id = some i
  id : i.id = e.id
  owner : i.tenant = who.tenant
  allowed : ∀ s, e.announces = some s → i.state.canMove s = true
  registered : ∃ l, w.directory.providers.get? i.provider = some l

/-- What the provider of a record answers to an errand, and the directory after that. -/
def told (e : Errand) (stamp : Stamp) (w : Estate) (i : Instance) :
    Except Provider.Error (e.command (e.entered stamp i)).Reply × Provider.Directory :=
  w.directory.command i.provider (e.command (e.entered stamp i))

/-- What may come of an errand: it is refused, the provider fails, or the record is changed or
removed. -/
inductive Comes (e : Errand) (caller : Option Caller) (stamp : Stamp) (w : Estate) :
    Upshot Reply → Prop
  | refused (f : Failure) (hf : f.kind.isRefusal = true) : Comes e caller stamp w ⟨.error f, w, []⟩
  | failed {who : Caller} {i : Instance} (ha : e.Admits caller w who i) (cause : Provider.Error)
      (hc : (e.told stamp w i).1 = .error cause) :
      Comes e caller stamp w ⟨.error (.providerFailed e.during cause),
        ⟨w.store.put (e.ruined stamp i), (e.told stamp w i).2⟩, e.alarm who stamp i cause⟩
  | settled {who : Caller} {i : Instance} (ha : e.Admits caller w who i)
      (edit : Stamp → Instance → Instance) (he : e.edit = some edit)
      (a : (e.command (e.entered stamp i)).Reply) (hc : (e.told stamp w i).1 = .ok a) :
      Comes e caller stamp w ⟨.ok (.record (e.settled edit stamp i)),
        ⟨w.store.put (e.settled edit stamp i), (e.told stamp w i).2⟩,
        [e.news who stamp (e.settled edit stamp i)]⟩
  | removed {who : Caller} {i : Instance} (ha : e.Admits caller w who i) (he : e.edit = none)
      (a : (e.command (e.entered stamp i)).Reply) (hc : (e.told stamp w i).1 = .ok a) :
      Comes e caller stamp w ⟨.ok .removed, ⟨w.store.drop i, (e.told stamp w i).2⟩,
        [e.news who stamp (e.entered stamp i)]⟩

theorem finds_permit (e : Errand) (w : Estate) (i : Instance) :
    (e.permit i).Finds w fun _ => ∀ s, e.announces = some s → i.state.canMove s = true := by
  unfold permit
  cases h : e.announces with
  | none => exact .inl ⟨(), rfl, nofun⟩
  | some s =>
    refine (finds_move w i.state s).mono fun _ hmove t ht => ?_
    obtain rfl := Option.some.inj ht
    exact hmove

@[simp] theorem id_entered (e : Errand) (stamp : Stamp) (i : Instance) :
    (e.entered stamp i).id = i.id := by
  unfold entered
  split <;> rfl

@[simp] theorem provider_entered (e : Errand) (stamp : Stamp) (i : Instance) :
    (e.entered stamp i).provider = i.provider := by
  unfold entered
  split <;> rfl

theorem keyOf_entered (e : Errand) (stamp : Stamp) (i : Instance) :
    Store.keyOf (e.entered stamp i) = Store.keyOf i := by
  unfold entered
  split <;> rfl

/-- The announced state is stored before the provider is called. -/
theorem carry_enter (e : Errand) (stamp : Stamp) {w : Estate} {i : Instance}
    (h : w.store.records.get? i.id = some i) :
    (e.enter stamp i).carry w =
      ⟨.ok (e.entered stamp i), { w with store := w.store.put (e.entered stamp i) }, []⟩ := by
  unfold enter entered
  cases e.announces with
  | some s =>
    have htakes : w.store.Takes { i with state := s } := ⟨i, h, rfl, rfl, rfl⟩
    exact carry_persist htakes stamp.first
  | none =>
    simp only [Store.put_self h]
    rfl

theorem carry_abandon (e : Errand) (who : Caller) (stamp : Stamp) (i : Instance)
    (cause : Provider.Error) (s : Store) (d : Provider.Directory) :
    (e.abandon who stamp (e.entered stamp i) cause).carry ⟨s.put (e.entered stamp i), d⟩ =
      ⟨.error (.providerFailed e.during cause), ⟨s.put (e.ruined stamp i), d⟩,
        e.alarm who stamp i cause⟩ := by
  unfold abandon alarm ruined
  cases e.marks with
  | some now =>
    have htakes : (s.put (e.entered stamp i)).Takes (e.entered stamp i) :=
      s.takes_put rfl rfl rfl rfl
    simp only [carry_giveUp (w := ⟨s.put (e.entered stamp i), d⟩) htakes]
    rw [Store.put_put]
    rfl
  | none => rfl

/-- The changed record is stored and told of. -/
theorem carry_settled (e : Errand) {edit : Stamp → Instance → Instance} (he : e.edit = some edit)
    (who : Caller) (stamp : Stamp) (i : Instance) (s : Store) (d : Provider.Directory) :
    (e.finish who stamp (e.entered stamp i)).carry ⟨s.put (e.entered stamp i), d⟩ =
      ⟨.ok (.record (e.settled edit stamp i)), ⟨s.put (e.settled edit stamp i), d⟩,
        [e.news who stamp (e.settled edit stamp i)]⟩ := by
  obtain ⟨hid, htenant, hversion, hslug⟩ := e.keeps edit he stamp (e.entered stamp i)
  have htakes : (s.put (e.entered stamp i)).Takes (edit stamp (e.entered stamp i)) :=
    s.takes_put hid.symm htenant.symm hversion.symm hslug.symm
  have hput : (s.put (e.entered stamp i)).put (e.settled edit stamp i) =
      s.put (e.settled edit stamp i) := s.put_put hid.symm
  have hpersist := carry_persist (w := ⟨s.put (e.entered stamp i), d⟩) htakes (e.dated stamp)
  unfold finish
  simp only [he, carry_bind_ok hpersist, carry_bind_ok (carry_announce _ _)]
  rw [← hput]
  rfl

/-- The record is removed, and that is told. -/
theorem carry_removed (e : Errand) (he : e.edit = none) (who : Caller) (stamp : Stamp) (i : Instance)
    (s : Store) (d : Provider.Directory) :
    (e.finish who stamp (e.entered stamp i)).carry ⟨s.put (e.entered stamp i), d⟩ =
      ⟨.ok .removed, ⟨s.drop i, d⟩, [e.news who stamp (e.entered stamp i)]⟩ := by
  have hstored : (s.put (e.entered stamp i)).records.get? (e.entered stamp i).id =
      some (e.entered stamp i) := by
    rw [Store.get?_put, if_pos rfl]
  have hdelete := carry_delete (w := ⟨s.put (e.entered stamp i), d⟩) hstored
  have hdrop : (s.put (e.entered stamp i)).drop (e.entered stamp i) = s.drop i :=
    s.drop_put (e.id_entered stamp i) (e.keyOf_entered stamp i)
  unfold finish
  simp only [he, carry_bind_ok hdelete, hdrop]
  rfl

/-- What comes of an errand whose provider did as it was told. -/
theorem comes_finish (e : Errand) {caller : Option Caller} (stamp : Stamp) {w : Estate}
    {who : Caller} {i : Instance} (ha : e.Admits caller w who i)
    {a : (e.command (e.entered stamp i)).Reply} (hc : (e.told stamp w i).1 = .ok a) :
    e.Comes caller stamp w ((e.finish who stamp (e.entered stamp i)).carry
      ⟨w.store.put (e.entered stamp i), (e.told stamp w i).2⟩) := by
  cases he : e.edit with
  | some edit =>
    rw [e.carry_settled he]
    exact .settled ha edit he a hc
  | none =>
    rw [e.carry_removed he]
    exact .removed ha he a hc

/-- An errand comes to one of these ends. -/
theorem comes (e : Errand) (caller : Option Caller) (stamp : Stamp) {w : Estate}
    (hf : w.store.Filed) :
    e.Comes caller stamp w ((e.procedure caller stamp).carry w) := by
  unfold procedure
  refine (finds_identify w caller).bind (fun who hwho => ?_) fun f hf => .refused f hf
  refine (finds_load w who e.id).bind (fun i hi => ?_) fun f hf => .refused f hf
  refine (e.finds_permit w i).bind (fun _ hpermit => ?_) fun f hf => .refused f hf
  refine (finds_providerOf w i).bind (fun _ hprovider => ?_) fun f hf => .refused f hf
  have hid : i.id = e.id := hf _ _ hi.1
  have ha : e.Admits caller w who i :=
    ⟨hwho.1, hid ▸ hi.1, hid, hi.2, hpermit, hprovider⟩
  rw [carry_bind_ok (e.carry_enter stamp ha.stored), carry_bind_ok (carry_command _ _ _),
    Upshot.after_nil, Upshot.after_nil]
  have htold : w.directory.command (e.entered stamp i).provider (e.command (e.entered stamp i)) =
      e.told stamp w i := by
    rw [told, provider_entered]
  simp only [htold]
  cases hc : (e.told stamp w i).1 with
  | error cause =>
    simp only [carry_abandon]
    exact .failed ha cause hc
  | ok a => exact e.comes_finish stamp ha hc

/-! ## What errands keep of a record -/

section

variable {q : Request} {e : Errand}

/-- An errand that leaves the record as it is when the provider fails has not announced anything. -/
theorem announces_of_marks (he : q.errand = some e) (hm : e.marks = none) : e.announces = none := by
  cases q with
  | start id | stop id | delete id =>
    cases he
    cases hm
  | restart id | scale id r | suspend id reason | unsuspend id =>
    cases he
    rfl
  | _ => cases he

/-- After its provider failed, the record is as it was before the errand, or failed. -/
theorem ruined_cases (he : q.errand = some e) (stamp : Stamp) (i : Instance) :
    (e.marks = none ∧ e.ruined stamp i = i) ∨ ∃ now updatedAt version, e.marks = some now ∧
      e.ruined stamp i = { i with state := .failed, updatedAt, version } := by
  unfold ruined
  cases hm : e.marks with
  | none =>
    refine .inl ⟨rfl, ?_⟩
    simp only [entered, announces_of_marks he hm]
  | some now =>
    refine .inr ⟨now, ?_⟩
    unfold entered
    cases e.announces with
    | none => exact ⟨_, _, rfl, rfl⟩
    | some s => exact ⟨_, _, rfl, rfl⟩

theorem ruined_keeps (he : q.errand = some e) (stamp : Stamp) (i : Instance) :
    (e.ruined stamp i).id = i.id ∧ (e.ruined stamp i).provider = i.provider := by
  rcases ruined_cases he stamp i with ⟨-, hsame⟩ | ⟨_, _, _, _, hfailed⟩
  · rw [hsame]
    exact ⟨rfl, rfl⟩
  · rw [hfailed]
    exact ⟨rfl, rfl⟩

theorem settled_keeps (he : q.errand = some e) {edit : Stamp → Instance → Instance}
    (hedit : e.edit = some edit) (stamp : Stamp) (i : Instance) :
    (e.settled edit stamp i).id = i.id ∧ (e.settled edit stamp i).provider = i.provider := by
  cases q with
  | start id | stop id | restart id | scale id r | suspend id reason | unsuspend id =>
    cases he
    cases hedit
    exact ⟨rfl, rfl⟩
  | delete id =>
    cases he
    cases hedit
  | _ => cases he

end

end Errand

end Fleet.Service
