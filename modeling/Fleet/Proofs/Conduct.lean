import Fleet.Proofs.Interleaving

/-!
# What an operation may ask next

`Request.Allows` says which calls an operation may make after what it was answered so far: it inserts
one new record at most, it changes only the record it saw last and only in the fields of its kind, it
calls a provider for that record, and it removes a record only right after its workload is gone.
Every operation conducts itself like that, whatever it is answered:

    (procedure limit caller stamp q).Keeps (q.Allows stamp) []        (procedure_keeps)

What runs side by side is then known through `Allows` alone. -/

namespace Fleet.Service

/-! ## What exchanges tell -/

namespace Exchange

/-- The record that the exchange stored, as it is stored. -/
def written : Exchange → Option Instance
  | ⟨.insert i, .ok version⟩ => some { i with version }
  | ⟨.update i, .ok version⟩ => some { i with version }
  | _ => none

/-- The record that the exchange shows: the one it stored, or the one it found by its id. -/
def sight : Exchange → Option Instance
  | ⟨.insert i, .ok version⟩ => some { i with version }
  | ⟨.update i, .ok version⟩ => some { i with version }
  | ⟨.find _ _, .ok i⟩ => some i
  | _ => none

/-- The record that the exchange stored as a new one. -/
def birth : Exchange → Option Instance
  | ⟨.insert i, .ok version⟩ => some { i with version }
  | _ => none

/-- The id whose record the exchange removed. -/
def removal : Exchange → Option String
  | ⟨.delete _ id, .ok ()⟩ => some id
  | _ => none

/-- What is held after the exchange, where `s` is the state that announces a change: the record that
was written in that state, until the next attempt to change or remove one. -/
def grip (s : State) (held : Option Instance) : Exchange → Option Instance
  | ⟨.update i, .ok version⟩ => if i.state = s then some { i with version } else none
  | ⟨.update _, .error _⟩ => none
  | ⟨.delete _ _, _⟩ => none
  | _ => held

end Exchange

/-- The record as an operation saw it last: as it read it, or as it stored it itself. -/
def view : List Exchange → Option Instance
  | [] => none
  | x :: past => x.sight.or (view past)

theorem view_mem {past : List Exchange} {r : Instance} (h : view past = some r) :
    ∃ x ∈ past, x.sight = some r := by
  induction past with
  | nil => simp [view] at h
  | cons x past ih =>
    rw [view] at h
    cases hx : x.sight with
    | some r' =>
      rw [hx, Option.some_or] at h
      exact ⟨x, List.mem_cons_self, hx.trans h⟩
    | none =>
      rw [hx, Option.none_or] at h
      obtain ⟨y, hy, hs⟩ := ih h
      exact ⟨y, List.mem_cons_of_mem _ hy, hs⟩

namespace Request

/-- The state that announces the change which the request makes of a record's life. -/
def preState : Request → Option State
  | .start _ => some .starting
  | .stop _ => some .stopping
  | .delete _ => some .destroying
  | _ => none

/-- The state that the announced change leads to. -/
def postState : Request → Option State
  | .start _ => some .running
  | .stop _ => some .stopped
  | _ => none

end Request

/-- What is held after some exchanges, where `s` is the state that announces a change. -/
def gripped (s : State) : List Exchange → Option Instance
  | [] => none
  | x :: past => x.grip s (gripped s past)

/-- The record that an operation holds: it has stored the state that announces its change, and has
not tried to store or remove a record since. -/
def held (q : Request) (past : List Exchange) : Option Instance :=
  q.preState.bind (gripped · past)

theorem held_nil (q : Request) : held q [] = none := by
  cases q <;> rfl

theorem held_cons {q : Request} {s : State} (h : q.preState = some s) (x : Exchange)
    (past : List Exchange) : held q (x :: past) = x.grip s (held q past) := by
  simp [held, h, gripped]

theorem held_of_preState {q : Request} (h : q.preState = none) (past : List Exchange) :
    held q past = none := by
  simp [held, h]

/-- Nothing is let go by a call that neither changes nor removes a record. -/
theorem held_cons_of_grip {x : Exchange} (h : ∀ s held, x.grip s held = held) (q : Request)
    (past : List Exchange) : held q (x :: past) = held q past := by
  cases hq : q.preState with
  | none => rw [held_of_preState hq, held_of_preState hq]
  | some s => rw [held_cons hq, h]

@[simp] theorem held_command (q : Request) (provider : String) (c : Provider.Command)
    (a : (Call.command provider c).Answer) (past : List Exchange) :
    held q (⟨.command provider c, a⟩ :: past) = held q past :=
  held_cons_of_grip (fun _ _ => rfl) q past

/-- Whether an exchange is an attempt to change or to remove a record. -/
def Exchange.Attempts (x : Exchange) : Prop :=
  (∃ i, x.call = .update i) ∨ ∃ tenant id, x.call = .delete tenant id

theorem Exchange.grip_of_not_attempts {x : Exchange} (h : ¬ x.Attempts) (s : State)
    (held : Option Instance) : x.grip s held = held := by
  unfold grip
  split
  · exact absurd (.inl ⟨_, rfl⟩) h
  · exact absurd (.inl ⟨_, rfl⟩) h
  · exact absurd (.inr ⟨_, _, rfl⟩) h
  · rfl

theorem Exchange.grip_of_attempts {x : Exchange} (h : x.Attempts) {s : State}
    {held : Option Instance} {r : Instance} (hr : x.grip s held = some r) :
    ∃ i version, x = ⟨.update i, .ok version⟩ ∧ i.state = s ∧ r = { i with version } := by
  obtain ⟨call, answer⟩ := x
  rcases h with ⟨i, hcall⟩ | ⟨tenant, id, hcall⟩
  · change call = _ at hcall
    subst hcall
    cases answer with
    | error f => cases hr
    | ok version =>
      simp only [grip, Option.ite_none_right_eq_some, Option.some.injEq] at hr
      exact ⟨i, version, rfl, hr.1, hr.2.symm⟩
  · change call = _ at hcall
    subst hcall
    cases hr

/-- What is held was written in the announced state, and no attempt to change or to remove a record
came after. -/
theorem gripped_eq_some_iff {s : State} {past : List Exchange} {r : Instance} :
    gripped s past = some r ↔ ∃ later i version before,
      past = later ++ ⟨.update i, .ok version⟩ :: before ∧ i.state = s ∧ r = { i with version } ∧
        ∀ x ∈ later, ¬ x.Attempts := by
  induction past with
  | nil => simp [gripped]
  | cons x past ih =>
    rw [gripped]
    constructor
    · intro h
      by_cases hx : x.Attempts
      · obtain ⟨i, version, rfl, hs, hr⟩ := Exchange.grip_of_attempts hx h
        exact ⟨[], i, version, past, rfl, hs, hr, by simp⟩
      · rw [Exchange.grip_of_not_attempts hx, ih] at h
        obtain ⟨later, i, version, before, rfl, hs, hr, hlater⟩ := h
        refine ⟨x :: later, i, version, before, rfl, hs, hr, ?_⟩
        simpa using ⟨hx, hlater⟩
    · rintro ⟨later, i, version, before, hpast, hs, rfl, hlater⟩
      cases later with
      | nil =>
        cases hpast
        exact if_pos hs
      | cons y later =>
        cases hpast
        rw [Exchange.grip_of_not_attempts (hlater x List.mem_cons_self)]
        exact ih.2 ⟨later, i, version, before, rfl, hs, rfl,
          fun z hz => hlater z (List.mem_cons_of_mem _ hz)⟩

/-! ## What is allowed -/

namespace Request

/-- The change that a request may make of a record, its date and version apart. -/
def Touches (before after : Instance) : Request → Prop
  | .create _ =>
    (∃ providerRef endpoints, after = { before with providerRef, endpoints }) ∨
      before.state = .provisioning ∧ after = { before with state := .failed }
  | .update _ _ => ∃ name slug env labels, after = { before with name, slug, env, labels }
  | .start _ | .stop _ | .restart _ | .delete _ => ∃ state, after = { before with state }
  | .scale _ _ => ∃ resources, after = { before with resources }
  | .suspend _ _ | .unsuspend _ => ∃ state suspendedAt, after = { before with state, suspendedAt }
  | .get _ | .getBySlug _ | .list _ => False

/-- How a request that announces its change may turn the state of the record it saw: by announcing
the change when the table has the move, or by settling it when it holds the record. -/
def Turns (q : Request) (past : List Exchange) (seen : Instance) (target : State) : Prop :=
  ∀ s, q.preState = some s →
    (target = s ∧ seen.state.canMove s = true) ∨
      (held q past = some seen ∧ (q.postState = some target ∨ target = .failed))

/-- The calls that a request may make next. -/
def Allows (q : Request) (stamp : Stamp) (past : List Exchange) : Call → Prop
  | .insert i =>
    i.id = stamp.instanceId ∧ i.state = .provisioning ∧ q.preState = none ∧
      ∀ x ∈ past, ∀ j, x.call ≠ .insert j
  | .update i =>
    ∃ seen edited now, view past = some seen ∧ q.Touches seen edited ∧
      q.Turns past seen edited.state ∧ i = edited.touch now
  | .delete tenant id =>
    q.preState = some .destroying ∧
      (∃ seen, held q past = some seen ∧ seen.tenant = tenant ∧ seen.id = id) ∧
      ∃ provider, past.head? = some ⟨.command provider (.deprovision id), .ok ()⟩
  | .command provider (.provision o) =>
    q.preState = none ∧ ∃ i version, past.head? = some ⟨.insert i, .ok version⟩ ∧ o.instanceId = i.id ∧
      provider = i.provider
  | .command provider c =>
    ∃ seen, view past = some seen ∧ (q.preState ≠ none → held q past = some seen) ∧
      c.target = seen.id ∧ provider = seen.provider
  | .publish e =>
    e.kind = .known .instanceDeleted →
      ∃ tenant id, e.instanceId = some id ∧ past.head? = some ⟨.delete tenant id, .ok ()⟩
  | _ => True

end Request

/-! ## Procedures that keep to what is allowed -/

namespace Procedure

/-- Every call after `past` is allowed, whatever the calls are answered. -/
def Keeps {α : Type} (A : List Exchange → Call → Prop) : Procedure α → List Exchange → Prop
  | .done _, _ => True
  | .fail _, _ => True
  | .call c next, past => A past c ∧ ∀ a, (next a).Keeps A (⟨c, a⟩ :: past)

section

variable {α β : Type} {A : List Exchange → Call → Prop} {past : List Exchange}

theorem keeps_map {p : Procedure α} (g : α → β) (h : p.Keeps A past) :
    (p >>= fun a => .done (g a)).Keeps A past := by
  induction p generalizing past with
  | done a => trivial
  | fail e => trivial
  | call c next ih => exact ⟨h.1, fun a => ih a (h.2 a)⟩

theorem keeps_ask {c : Call} {f : c.Answer → Procedure α} (hc : A past c)
    (hf : ∀ a, (f a).Keeps A (⟨c, a⟩ :: past)) : (ask c >>= f).Keeps A past := ⟨hc, hf⟩

theorem keeps_ofExcept {e : Except Failure α} {f : α → Procedure β}
    (h : ∀ a, e = .ok a → (f a).Keeps A past) : (ofExcept e >>= f).Keeps A past := by
  cases e with
  | ok a => exact h a rfl
  | error f => trivial

theorem keeps_ensure {b : Bool} {e : Failure} {f : Unit → Procedure α}
    (h : (f ()).Keeps A past) : (ensure b e >>= f).Keeps A past := by
  cases b with
  | true => exact h
  | false => trivial

theorem keeps_identify {caller : Option Caller} {f : Caller → Procedure α}
    (h : ∀ who, (f who).Keeps A past) : (identify caller >>= f).Keeps A past :=
  keeps_ofExcept fun who _ => h who

theorem keeps_announce {e : Event} {f : Unit → Procedure α} (he : A past (.publish e))
    (hf : ∀ a, (f ()).Keeps A (⟨.publish e, a⟩ :: past)) :
    (announce e >>= f).Keeps A past := ⟨he, hf⟩

theorem keeps_providerOf {i : Instance} {f : Unit → Procedure α} (hi : A past (.lookup i.provider))
    (hf : ∀ a, (f ()).Keeps A (⟨.lookup i.provider, a⟩ :: past)) :
    (providerOf i >>= f).Keeps A past := by
  unfold providerOf
  rw [bind_assoc]
  exact keeps_ask hi fun a => keeps_ofExcept fun _ _ => hf a

theorem keeps_load {caller : Caller} {id : String} {f : Instance → Procedure α}
    (hc : A past (.find caller.tenant id))
    (hf : ∀ i, (f i).Keeps A (⟨.find caller.tenant id, .ok i⟩ :: past)) :
    (load caller id >>= f).Keeps A past := by
  unfold load checkId
  simp only [bind_assoc]
  refine keeps_ensure (keeps_ensure (keeps_ask hc fun a => keeps_ofExcept ?_))
  rintro i rfl
  exact hf i

theorem keeps_persist {i : Instance} {now : Instant} {f : Instance → Procedure α}
    (hi : A past (.update (i.touch now)))
    (hf : ∀ version, (f { i.touch now with version }).Keeps A
      (⟨.update (i.touch now), .ok version⟩ :: past)) :
    (persist i now >>= f).Keeps A past := by
  unfold persist
  simp only [bind_assoc]
  refine keeps_ask hi fun a => keeps_ofExcept ?_
  rintro version rfl
  exact hf version

theorem keeps_markFailed {i : Instance} {now : Instant} {f : Bool × Instance → Procedure α}
    (hi : A past (.update ({ i with state := .failed }.touch now)))
    (hok : ∀ version, (f (true, { { i with state := .failed }.touch now with version })).Keeps A
      (⟨.update ({ i with state := .failed }.touch now), .ok version⟩ :: past))
    (herr : ∀ e, (f (false, { i with state := .failed }.touch now)).Keeps A
      (⟨.update ({ i with state := .failed }.touch now), .error e⟩ :: past)) :
    (markFailed i now >>= f).Keeps A past := by
  unfold markFailed
  simp only [bind_assoc]
  refine keeps_ask hi fun a => ?_
  cases a with
  | ok version => exact hok version
  | error e => exact herr e

end

end Procedure

/-! ## The events that operations publish -/

@[simp] theorem kind_withField (e : Event) (name : String) (value : Json) :
    (e.withField name value).kind = e.kind := rfl

@[simp] theorem kind_attributed (caller : Caller) (e : Event) :
    (attributed caller e).kind = e.kind := by
  unfold attributed
  split <;> rfl

@[simp] theorem kind_eventOf (caller : Caller) (stamp : Stamp) (topic : Topic) (i : Instance) :
    (eventOf caller stamp topic i).kind = .known topic := by
  simp [eventOf]

theorem instanceId_eventOf (caller : Caller) (stamp : Stamp) (topic : Topic) (i : Instance) :
    (eventOf caller stamp topic i).instanceId = some i.id := by
  unfold eventOf attributed
  split <;> rfl

namespace Request

variable {q : Request} {stamp : Stamp} {past : List Exchange}

/-- Any request may publish what is not the end of an instance. -/
theorem allows_publish {e : Event} (h : e.kind ≠ .known .instanceDeleted) :
    q.Allows stamp past (.publish e) := fun he => absurd he h

theorem allows_update {seen edited : Instance} {now : Instant} (hv : view past = some seen)
    (ht : q.Touches seen edited) (hs : q.Turns past seen edited.state) :
    q.Allows stamp past (.update (edited.touch now)) := ⟨seen, edited, now, hv, ht, hs, rfl⟩

theorem allows_command {i : Instance} {c : Provider.Command} (hc : ∀ o, c ≠ .provision o)
    (hi : c.target = i.id) (hv : view past = some i)
    (hh : q.preState ≠ none → held q past = some i) :
    q.Allows stamp past (.command i.provider c) := by
  cases c with
  | provision o => exact absurd rfl (hc o)
  | _ => exact ⟨i, hv, hh, hi, rfl⟩

/-- A request that announces its change calls the provider for the record that it holds. -/
theorem held_of_allows_command {provider : String} {c : Provider.Command}
    (h : q.Allows stamp past (.command provider c)) (hq : q.preState ≠ none) :
    ∃ seen, held q past = some seen ∧ c.target = seen.id := by
  cases c with
  | provision o => exact absurd h.1 hq
  | _ =>
    obtain ⟨seen, -, hheld, htarget, -⟩ := h
    exact ⟨seen, hheld hq, htarget⟩

theorem turns_of_preState (h : q.preState = none) (seen : Instance) (target : State) :
    q.Turns past seen target := fun s hs => by simp [h] at hs

/-- A request that announces its change touches nothing but the state. -/
theorem touches_state {s : State} (h : q.preState = some s) (i : Instance) (state : State) :
    q.Touches i { i with state } := by
  cases q with
  | start id | stop id | delete id => exact ⟨state, rfl⟩
  | _ => cases h

end Request

/-! ## Operations keep to what is allowed -/

namespace Procedure

section

variable {α : Type} {q : Request} {stamp : Stamp} {past : List Exchange}

theorem keeps_giveUp {caller : Caller} {i : Instance} {now : Instant} {during : Undertaking}
    {cause : Provider.Error}
    (h : q.Allows stamp past (.update ({ i with state := .failed }.touch now))) :
    (giveUp (α := α) caller stamp i now during cause).Keeps (q.Allows stamp) past := by
  unfold giveUp
  refine keeps_markFailed h (fun version => ?_) fun e => trivial
  exact keeps_announce (Request.allows_publish (by simp)) fun _ => trivial

/-- An operation that announces its change holds the record once it has done so. -/
theorem keeps_announced {s : State} (hq : q.preState = some s) {caller : Caller} {id : String}
    {now : Instant} {f : Instance → Procedure α}
    (hf : ∀ i past, view past = some i → held q past = some i → (f i).Keeps (q.Allows stamp) past) :
    (load caller id >>= fun i => ofExcept (i.state.move s) >>= fun _ => providerOf i >>= fun _ =>
      persist { i with state := s } now >>= f).Keeps (q.Allows stamp) past := by
  refine keeps_load trivial fun i => keeps_ofExcept fun _ hmove => keeps_providerOf trivial fun a => ?_
  have hmove : i.state.canMove s = true := State.move_eq_ok_iff.1 hmove
  refine keeps_persist (Request.allows_update (by simp [view, Exchange.sight])
    (Request.touches_state hq i s) ?_) fun version => hf _ _ ?_ ?_
  · intro t ht
    have hts : t = s := by simpa [hq] using ht.symm
    exact .inl ⟨hts.symm, hts ▸ hmove⟩
  · simp [view, Exchange.sight]
  · simp [held_cons hq, Exchange.grip, Instance.touch]

/-- The provider is called for the record that is held, and the change is settled by a last write. -/
theorem keeps_settled {s : State} (hq : q.preState = some s) {caller : Caller} {i : Instance}
    {during : Undertaking} {now : Instant} {c : Provider.Command}
    (hc : ∀ o, c ≠ .provision o) (hi : c.target = i.id) (hv : view past = some i)
    (hh : held q past = some i) {f : (Call.command i.provider c).Answer → Procedure α}
    (herr : ∀ cause, f (.error cause) = giveUp caller stamp i now during cause)
    (hok : ∀ a, (f (.ok a)).Keeps (q.Allows stamp) (⟨.command i.provider c, .ok a⟩ :: past)) :
    (ask (.command i.provider c) >>= f).Keeps (q.Allows stamp) past := by
  refine keeps_ask (Request.allows_command hc hi hv fun _ => hh) fun a => ?_
  cases a with
  | error cause =>
    rw [herr]
    refine keeps_giveUp (Request.allows_update (by simp [view, Exchange.sight, hv])
      (Request.touches_state hq i _) fun t ht => .inr ⟨?_, .inr rfl⟩)
    simp [hh]
  | ok a => exact hok a

/-- An operation that announces nothing calls the provider for the record it has read. -/
theorem keeps_called (hq : q.preState = none) {caller : Caller} {id : String}
    {c : Instance → Provider.Command} (hc : ∀ i o, c i ≠ .provision o)
    (hi : ∀ i, (c i).target = i.id)
    {f : (i : Instance) → (Call.command i.provider (c i)).Answer → Procedure α}
    (hf : ∀ i past a, view past = some i → (f i a).Keeps (q.Allows stamp) past) :
    (load caller id >>= fun i => providerOf i >>= fun _ =>
      ask (.command i.provider (c i)) >>= f i).Keeps (q.Allows stamp) [] := by
  refine keeps_load trivial fun i => keeps_providerOf trivial fun _ => ?_
  refine keeps_ask (Request.allows_command (hc i) (hi i) (by simp [view, Exchange.sight])
    fun h => absurd hq h) fun a => hf i _ a ?_
  simp [view, Exchange.sight]

end

variable (limit : UInt64) (caller : Option Caller) (stamp : Stamp)

theorem start_keeps (id : String) :
    (start caller id stamp).Keeps ((Request.start id).Allows stamp) [] := by
  unfold start
  refine keeps_identify fun who => keeps_announced rfl fun i past hv hh => ?_
  refine keeps_settled (c := .start i.id) rfl (by simp) rfl hv hh (fun _ => rfl) fun a => ?_
  refine keeps_persist (Request.allows_update (by simp [view, Exchange.sight, hv])
    (Request.touches_state rfl i _) fun s hs => .inr ⟨?_, .inl rfl⟩) fun version => ?_
  · simp [hh]
  · exact keeps_announce (Request.allows_publish (by simp)) fun _ => trivial

theorem stop_keeps (id : String) :
    (stop caller id stamp).Keeps ((Request.stop id).Allows stamp) [] := by
  unfold stop
  refine keeps_identify fun who => keeps_announced rfl fun i past hv hh => ?_
  refine keeps_settled (c := .stop i.id) rfl (by simp) rfl hv hh (fun _ => rfl) fun a => ?_
  refine keeps_persist (Request.allows_update (by simp [view, Exchange.sight, hv])
    (Request.touches_state rfl i _) fun s hs => .inr ⟨?_, .inl rfl⟩) fun version => ?_
  · simp [hh]
  · exact keeps_announce (Request.allows_publish (by simp)) fun _ => trivial

theorem delete_keeps (id : String) :
    (delete caller id stamp).Keeps ((Request.delete id).Allows stamp) [] := by
  unfold delete
  refine keeps_identify fun who => keeps_announced rfl fun i past hv hh => ?_
  refine keeps_settled (c := .deprovision i.id) rfl (by simp) rfl hv hh (fun _ => rfl) fun a => ?_
  refine keeps_ask ⟨rfl, ⟨i, ?_, rfl, rfl⟩, i.provider, rfl⟩ fun a => keeps_ofExcept ?_
  · simp [hh]
  · rintro ⟨⟩ rfl
    exact ⟨fun _ => ⟨i.tenant, i.id, instanceId_eventOf _ _ _ _, rfl⟩, fun _ => trivial⟩

theorem update_keeps (id : String) (r : UpdateRequest) :
    (update caller id r stamp).Keeps ((Request.update id r).Allows stamp) [] := by
  unfold update
  refine keeps_identify fun who => keeps_load trivial fun i => keeps_ofExcept fun edited he => ?_
  have ht : (Request.update id r).Touches i edited := by
    unfold changed at he
    split at he
    · cases he
      exact ⟨i.name, i.slug, _, _, rfl⟩
    · split at he
      · cases he
      · cases he
        exact ⟨_, _, _, _, rfl⟩
  rw [← bind_done (persist edited stamp.first)]
  exact keeps_persist (Request.allows_update (by simp [view, Exchange.sight]) ht
    (Request.turns_of_preState rfl _ _)) fun version => trivial

theorem restart_keeps (id : String) :
    (restart caller id stamp).Keeps ((Request.restart id).Allows stamp) [] := by
  unfold restart
  refine keeps_identify fun who => keeps_called (c := fun i => .restart i.id) rfl (by simp)
    (fun _ => rfl) fun i past a hv => ?_
  cases a with
  | error cause =>
    exact keeps_giveUp (Request.allows_update hv ⟨_, rfl⟩ (Request.turns_of_preState rfl _ _))
  | ok a =>
    refine keeps_persist (Request.allows_update hv ⟨_, rfl⟩ (Request.turns_of_preState rfl _ _))
      fun version => ?_
    exact keeps_announce (Request.allows_publish (by simp)) fun _ => trivial

theorem scale_keeps (id : String) (r : ScaleRequest) :
    (scale caller id r stamp).Keeps ((Request.scale id r).Allows stamp) [] := by
  unfold scale
  refine keeps_identify fun who => keeps_called
    (c := fun i => .scale i.id (r.applyTo i.resources)) rfl (by simp)
    (fun _ => rfl) fun i past a hv => ?_
  cases a with
  | error cause => trivial
  | ok a =>
    refine keeps_persist (Request.allows_update hv ⟨_, rfl⟩ (Request.turns_of_preState rfl _ _))
      fun version => ?_
    exact keeps_announce (Request.allows_publish (by simp [scaledEvent])) fun _ => trivial

theorem suspend_keeps (id reason : String) :
    (suspend caller id reason stamp).Keeps ((Request.suspend id reason).Allows stamp) [] := by
  unfold suspend
  refine keeps_identify fun who => keeps_called (c := fun i => .stop i.id) rfl (by simp)
    (fun _ => rfl) fun i past a hv => ?_
  cases a with
  | error cause => trivial
  | ok a =>
    refine keeps_persist (Request.allows_update hv ⟨_, _, rfl⟩ (Request.turns_of_preState rfl _ _))
      fun version => ?_
    exact keeps_announce (Request.allows_publish (by simp)) fun _ => trivial

theorem unsuspend_keeps (id : String) :
    (unsuspend caller id stamp).Keeps ((Request.unsuspend id).Allows stamp) [] := by
  unfold unsuspend
  refine keeps_identify fun who => keeps_called (c := fun i => .start i.id) rfl (by simp)
    (fun _ => rfl) fun i past a hv => ?_
  cases a with
  | error cause => trivial
  | ok a =>
    refine keeps_persist (Request.allows_update hv ⟨_, _, rfl⟩ (Request.turns_of_preState rfl _ _))
      fun version => ?_
    exact keeps_announce (Request.allows_publish (by simp)) fun _ => trivial

/-- The quota is checked by counting, so nothing has been inserted after the check. -/
theorem keeps_checkQuota {α : Type} {q : Request} {who : Caller} {f : Unit → Procedure α}
    (hf : ∀ past : List Exchange, (∀ x ∈ past, ∀ i, x.call ≠ .insert i) →
      (f ()).Keeps (q.Allows stamp) past) :
    (checkQuota limit who stamp >>= f).Keeps (q.Allows stamp) [] := by
  unfold checkQuota
  split
  · exact hf [] (by simp)
  · simp only [bind_assoc]
    refine keeps_ask trivial fun a => keeps_ofExcept ?_
    rintro n rfl
    split
    · exact hf _ (by simp)
    · simp only [bind_assoc]
      exact keeps_announce (Request.allows_publish (by simp)) fun _ => trivial

theorem create_keeps (r : CreateRequest) :
    (create limit caller r stamp).Keeps ((Request.create r).Allows stamp) [] := by
  unfold create
  refine keeps_identify fun who => keeps_ensure (keeps_ensure (keeps_ensure ?_))
  refine keeps_checkQuota _ _ fun past hpast => keeps_ask trivial fun a => keeps_ofExcept ?_
  rintro provider rfl
  refine keeps_ask ⟨rfl, rfl, rfl, by simpa using hpast⟩ fun a => keeps_ofExcept ?_
  rintro version rfl
  refine keeps_ask ⟨rfl, _, _, rfl, rfl, rfl⟩ fun a => ?_
  cases a with
  | error cause =>
    exact keeps_markFailed (Request.allows_update rfl (.inr ⟨rfl, rfl⟩)
      (Request.turns_of_preState rfl _ _)) (fun version => trivial) fun e => trivial
  | ok made =>
    refine keeps_persist (Request.allows_update rfl (.inl ⟨_, _, rfl⟩)
      (Request.turns_of_preState rfl _ _)) fun version => ?_
    exact keeps_announce (Request.allows_publish (by simp [createdEvent])) fun _ => trivial

theorem get_keeps (id : String) : (get caller id).Keeps ((Request.get id).Allows stamp) [] := by
  unfold get
  refine keeps_identify fun who => ?_
  rw [← bind_done (load who id)]
  exact keeps_load trivial fun i => trivial

theorem getBySlug_keeps (slug : String) :
    (getBySlug caller slug).Keeps ((Request.getBySlug slug).Allows stamp) [] := by
  unfold getBySlug
  refine keeps_identify fun who => keeps_ensure (keeps_ask trivial fun a => ?_)
  rw [← bind_done (ofExcept a)]
  exact keeps_ofExcept fun _ _ => trivial

theorem list_keeps (query : Query) :
    (list caller query).Keeps ((Request.list query).Allows stamp) [] := by
  unfold list
  refine keeps_identify fun who => keeps_ask trivial fun a => ?_
  rw [← bind_done (ofExcept a)]
  exact keeps_ofExcept fun _ _ => trivial

/-- Every operation keeps to what its request allows, whatever it is answered. -/
theorem procedure_keeps (q : Request) :
    (procedure limit caller stamp q).Keeps (q.Allows stamp) [] := by
  cases q with
  | create r => exact keeps_map _ (create_keeps limit caller stamp r)
  | get id => exact keeps_map _ (get_keeps caller stamp id)
  | getBySlug slug => exact keeps_map _ (getBySlug_keeps caller stamp slug)
  | list query => exact keeps_map _ (list_keeps caller stamp query)
  | update id r => exact keeps_map _ (update_keeps caller stamp id r)
  | delete id => exact keeps_map _ (delete_keeps caller stamp id)
  | start id => exact keeps_map _ (start_keeps caller stamp id)
  | stop id => exact keeps_map _ (stop_keeps caller stamp id)
  | restart id => exact keeps_map _ (restart_keeps caller stamp id)
  | scale id r => exact keeps_map _ (scale_keeps caller stamp id r)
  | suspend id reason => exact keeps_map _ (suspend_keeps caller stamp id reason)
  | unsuspend id => exact keeps_map _ (unsuspend_keeps caller stamp id)

end Procedure

end Fleet.Service
