import Fleet.Proofs.Exclusion

/-!
# What an operation leaves when it ends

Starting, stopping and destroying are states in which a record waits for an operation to go on. An
operation writes such a state in two ways only: it announces its change while it holds no record, or
it is an update or a scaling and puts the state back that it saw. And however it is answered, it does
not end while it holds a record (`Procedure.Settles`):

    (procedure limit caller stamp q).Settles q []        (procedure_settles)

So no operation of a run that is over holds a record (`settles_of_reaches`). -/

namespace Fleet

/-- Whether a record in the state waits for an operation to go on. -/
def State.isTransient : State → Bool
  | .starting | .stopping | .destroying => true
  | _ => false

namespace Service

namespace Request

/-- Whether a request changes a record and leaves its state as it saw it. -/
def keepsState : Request → Bool
  | .update _ _ | .scale _ _ => true
  | _ => false

theorem isTransient_of_preState {q : Request} {s : State} (h : q.preState = some s) :
    s.isTransient = true := by
  rcases preState_cases h with rfl | rfl | rfl <;> rfl

theorem preState_of_keepsState {q : Request} (h : q.keepsState = true) : q.preState = none := by
  cases q with
  | update id r | scale id r => rfl
  | _ => cases h

/-- What a request that announces its change makes of a record is the record in another state. -/
theorem state_of_touches {q : Request} {s : State} {before after : Instance}
    (h : q.preState = some s) (ht : q.Touches before after) :
    ∃ state, after = { before with state } := by
  cases q with
  | start id | stop id | delete id => exact ht
  | _ => cases h

/-- When a request may write a record in a transient state: it announces its change, or puts back the
state that it saw. -/
def Writes (q : Request) (past : List Exchange) : Call → Prop
  | .update i => i.state.isTransient = true →
      (q.preState = some i.state ∧ held q past = none) ∨
        q.keepsState = true ∧ ∃ seen, view past = some seen ∧ seen.id = i.id ∧ seen.state = i.state
  | _ => True

theorem writes_settled {q : Request} {past : List Exchange} {i : Instance}
    (h : i.state.isTransient = false) : q.Writes past (.update i) := fun ht => by
  rw [h] at ht
  cases ht

/-- What an update or a scaling may write has the state that it saw. -/
theorem writes_of_allows {q : Request} {stamp : Stamp} {past : List Exchange} {c : Call}
    (hq : q.keepsState = true) (h : q.Allows stamp past c) : q.Writes past c := by
  cases c with
  | update i =>
    obtain ⟨seen, edited, now, hview, ht, -, rfl⟩ := h
    refine fun _ => .inr ⟨hq, seen, hview, (id_of_touches ht).symm, ?_⟩
    cases q with
    | update id r =>
      obtain ⟨name, slug, env, labels, rfl⟩ := ht
      rfl
    | scale id r =>
      obtain ⟨resources, rfl⟩ := ht
      rfl
    | _ => cases hq
  | _ => trivial

end Request

namespace Procedure

/-- Whether a procedure has come to its end. -/
def isOver {α : Type} : Procedure α → Bool
  | .done _ | .fail _ => true
  | .call _ _ => false

/-- A transient state is written as the request may write it, and nothing is held at the end, whatever
the calls after `past` are answered. -/
def Settles {α : Type} (q : Request) : Procedure α → List Exchange → Prop
  | .done _, past => held q past = none
  | .fail _, past => held q past = none
  | .call c next, past => q.Writes past c ∧ ∀ a, (next a).Settles q (⟨c, a⟩ :: past)

/-- A request that announces nothing holds nothing at any time. -/
theorem settles_of_keeps {α : Type} {q : Request} {p : Procedure α} {past : List Exchange}
    (hq : q.preState = none) (h : p.Keeps q.Writes past) : p.Settles q past := by
  induction p generalizing past with
  | done a => exact held_of_preState hq past
  | fail e => exact held_of_preState hq past
  | call c next ih => exact ⟨h.1, fun a => ih a (h.2 a)⟩

theorem keeps_mono {α : Type} {A B : List Exchange → Call → Prop} {p : Procedure α}
    {past : List Exchange} (hAB : ∀ past c, A past c → B past c) (h : p.Keeps A past) :
    p.Keeps B past := by
  induction p generalizing past with
  | done a => trivial
  | fail e => trivial
  | call c next ih => exact ⟨hAB _ _ h.1, fun a => ih a (h.2 a)⟩

theorem keeps_and {α : Type} {A B : List Exchange → Call → Prop} {p : Procedure α}
    {past : List Exchange} (hA : p.Keeps A past) (hB : p.Keeps B past) :
    p.Keeps (fun past c => A past c ∧ B past c) past := by
  induction p generalizing past with
  | done a => trivial
  | fail e => trivial
  | call c next ih => exact ⟨⟨hA.1, hB.1⟩, fun a => ih a (hA.2 a) (hB.2 a)⟩

theorem held_of_isOver {α : Type} {q : Request} {p : Procedure α} {past : List Exchange}
    (hp : p.isOver = true) (h : p.Settles q past) : held q past = none := by
  cases p with
  | done a => exact h
  | fail e => exact h
  | call c next => cases hp

section

variable {α β : Type} {q : Request} {past : List Exchange}

theorem settles_map {p : Procedure α} (g : α → β) (h : p.Settles q past) :
    (p >>= fun a => .done (g a)).Settles q past := by
  induction p generalizing past with
  | done a => exact h
  | fail e => exact h
  | call c next ih => exact ⟨h.1, fun a => ih a (h.2 a)⟩

theorem settles_ask {c : Call} {f : c.Answer → Procedure α} (hc : q.Writes past c)
    (hf : ∀ a, (f a).Settles q (⟨c, a⟩ :: past)) : (ask c >>= f).Settles q past := ⟨hc, hf⟩

theorem settles_ofExcept {e : Except Failure α} {f : α → Procedure β} (hend : held q past = none)
    (hf : ∀ a, e = .ok a → (f a).Settles q past) : (ofExcept e >>= f).Settles q past := by
  cases e with
  | ok a => exact hf a rfl
  | error f => exact hend

theorem settles_ensure {b : Bool} {e : Failure} {f : Unit → Procedure α} (hend : held q past = none)
    (hf : (f ()).Settles q past) : (ensure b e >>= f).Settles q past := by
  cases b with
  | true => exact hf
  | false => exact hend

/-- A last event changes nothing of what is held. -/
theorem settles_announce {e : Event} {p : Procedure α} (hend : held q past = none)
    (hp : ∀ past, held q past = none → p.Settles q past) :
    (announce e >>= fun _ => p).Settles q past := by
  refine ⟨trivial, fun a => hp _ ?_⟩
  rw [held_cons_of_grip (fun _ _ => rfl), hend]

/-- What was held is let go by a write in a state that is not transient. -/
theorem held_update {s : State} (hq : q.preState = some s) {i : Instance}
    (hi : i.state.isTransient = false) (a : (Call.update i).Answer) :
    held q (⟨.update i, a⟩ :: past) = none := by
  rw [held_cons hq]
  cases a with
  | error e => rfl
  | ok version =>
    refine if_neg fun his => ?_
    rw [his, Request.isTransient_of_preState hq] at hi
    cases hi

/-- A record is written in a state that is not transient. -/
theorem settles_persist {s : State} (hq : q.preState = some s) {i : Instance} {now : Instant}
    {f : Instance → Procedure α} (hi : i.state.isTransient = false)
    (hf : ∀ i past, held q past = none → (f i).Settles q past) :
    (persist i now >>= f).Settles q past := by
  unfold persist
  simp only [bind_assoc]
  refine settles_ask (Request.writes_settled hi) fun a => ?_
  have hend : held q (⟨.update (i.touch now), a⟩ :: past) = none :=
    held_update (i := i.touch now) hq hi a
  exact settles_ofExcept hend fun version _ => hf _ _ hend

theorem settles_giveUp {s : State} (hq : q.preState = some s) {caller : Caller} {stamp : Stamp}
    {i : Instance} {now : Instant} {during : Undertaking} {cause : Provider.Error} :
    (giveUp (α := α) caller stamp i now during cause).Settles q past := by
  unfold giveUp markFailed
  simp only [bind_assoc]
  refine settles_ask (Request.writes_settled rfl) fun a => ?_
  have hend : held q (⟨.update ({ i with state := .failed }.touch now), a⟩ :: past) = none :=
    held_update hq rfl a
  cases a with
  | ok version => exact settles_announce hend fun _ h => h
  | error e => exact hend

/-- An operation that announces its change goes on from where it holds the record. -/
theorem settles_announced {s : State} (hq : q.preState = some s) {caller : Option Caller}
    {id : String} {now : Instant} {f : Caller → Instance → Procedure α}
    (hf : ∀ who i past, held q past = some i → (f who i).Settles q past) :
    (identify caller >>= fun who => load who id >>= fun i => ofExcept (i.state.move s) >>= fun _ =>
      providerOf i >>= fun _ => persist { i with state := s } now >>= f who).Settles q [] := by
  refine settles_ofExcept (held_nil q) fun who _ => ?_
  unfold load checkId
  simp only [bind_assoc]
  refine settles_ensure (held_nil q) (settles_ensure (held_nil q) (settles_ask trivial fun a => ?_))
  have hfind : held q [⟨.find who.tenant id, a⟩] = none := by
    rw [held_cons_of_grip (fun _ _ => rfl), held_nil]
  refine settles_ofExcept hfind fun i _ => settles_ofExcept hfind fun _ _ => ?_
  unfold providerOf
  simp only [bind_assoc]
  refine settles_ask trivial fun b => ?_
  have hlookup : held q [⟨.lookup i.provider, b⟩, ⟨.find who.tenant id, a⟩] = none := by
    rw [held_cons_of_grip (fun _ _ => rfl), hfind]
  refine settles_ofExcept hlookup fun _ _ => ?_
  unfold persist
  simp only [bind_assoc]
  refine settles_ask (fun _ => .inl ⟨hq, hlookup⟩) fun v => ?_
  cases v with
  | error e =>
    show held q _ = none
    rw [held_cons hq]
    rfl
  | ok version =>
    refine hf who _ _ ?_
    rw [held_cons hq]
    exact if_pos rfl

end

variable (limit : UInt64) (caller : Option Caller) (stamp : Stamp)

theorem start_settles (id : String) :
    (start caller id stamp).Settles (.start id) [] := by
  unfold start
  refine settles_announced rfl fun who i past hheld => settles_ask trivial fun a => ?_
  cases a with
  | error cause => exact settles_giveUp rfl
  | ok a =>
    exact settles_persist rfl rfl fun i past hend => settles_announce hend fun _ h => h

theorem stop_settles (id : String) :
    (stop caller id stamp).Settles (.stop id) [] := by
  unfold stop
  refine settles_announced rfl fun who i past hheld => settles_ask trivial fun a => ?_
  cases a with
  | error cause => exact settles_giveUp rfl
  | ok a =>
    exact settles_persist rfl rfl fun i past hend => settles_announce hend fun _ h => h

theorem delete_settles (id : String) :
    (delete caller id stamp).Settles (.delete id) [] := by
  unfold delete
  refine settles_announced rfl fun who i past hheld => settles_ask trivial fun a => ?_
  cases a with
  | error cause => exact settles_giveUp rfl
  | ok a =>
    refine settles_ask trivial fun b => ?_
    have hend : held (.delete id) (⟨.delete i.tenant i.id, b⟩ ::
        ⟨.command i.provider (.deprovision i.id), .ok a⟩ :: past) = none := by
      rw [held_cons rfl]
      cases b <;> rfl
    refine settles_ofExcept hend fun _ _ => ?_
    rw [← bind_done (announce _)]
    exact settles_announce hend fun _ h => h

theorem restart_writes (id : String) :
    (restart caller id stamp).Keeps (Request.restart id).Writes [] := by
  unfold restart
  refine keeps_identify fun who => keeps_load trivial fun i => keeps_providerOf trivial fun _ =>
    keeps_ask trivial fun a => ?_
  cases a with
  | error cause =>
    refine keeps_markFailed (Request.writes_settled rfl) (fun version => ?_) fun e => trivial
    exact keeps_announce trivial fun _ => trivial
  | ok a =>
    exact keeps_persist (Request.writes_settled rfl) fun version =>
      keeps_announce trivial fun _ => trivial

theorem suspend_writes (id reason : String) :
    (suspend caller id reason stamp).Keeps (Request.suspend id reason).Writes [] := by
  unfold suspend
  refine keeps_identify fun who => keeps_load trivial fun i => keeps_providerOf trivial fun _ =>
    keeps_ask trivial fun a => ?_
  cases a with
  | error cause => trivial
  | ok a =>
    exact keeps_persist (Request.writes_settled rfl) fun version =>
      keeps_announce trivial fun _ => trivial

theorem unsuspend_writes (id : String) :
    (unsuspend caller id stamp).Keeps (Request.unsuspend id).Writes [] := by
  unfold unsuspend
  refine keeps_identify fun who => keeps_load trivial fun i => keeps_providerOf trivial fun _ =>
    keeps_ask trivial fun a => ?_
  cases a with
  | error cause => trivial
  | ok a =>
    exact keeps_persist (Request.writes_settled rfl) fun version =>
      keeps_announce trivial fun _ => trivial

/-- The quota is checked without a write. -/
theorem writes_checkQuota {α : Type} {q : Request} {who : Caller} {f : Unit → Procedure α}
    (hf : ∀ past, (f ()).Keeps q.Writes past) :
    (checkQuota limit who stamp >>= f).Keeps q.Writes [] := by
  unfold checkQuota
  split
  · exact hf []
  · simp only [bind_assoc]
    refine keeps_ask trivial fun a => keeps_ofExcept fun n _ => ?_
    split
    · exact hf _
    · simp only [bind_assoc]
      exact keeps_announce trivial fun _ => trivial

theorem create_writes (r : CreateRequest) :
    (create limit caller r stamp).Keeps (Request.create r).Writes [] := by
  unfold create
  refine keeps_identify fun who => keeps_ensure (keeps_ensure (keeps_ensure ?_))
  refine writes_checkQuota _ _ fun past => keeps_ask trivial fun a => keeps_ofExcept fun p _ => ?_
  refine keeps_ask trivial fun a => keeps_ofExcept fun v _ => keeps_ask trivial fun a => ?_
  cases a with
  | error cause =>
    exact keeps_markFailed (Request.writes_settled rfl) (fun version => trivial) fun e => trivial
  | ok made =>
    exact keeps_persist (Request.writes_settled rfl) fun version =>
      keeps_announce trivial fun _ => trivial

/-- A request that writes nothing may ask whatever it asks. -/
theorem writes_of_reads {q : Request} (hq : ∀ before after, ¬ q.Touches before after) :
    (procedure limit caller stamp q).Keeps q.Writes [] := by
  refine keeps_mono (fun past c hc => ?_) (procedure_keeps limit caller stamp q)
  cases c with
  | update i =>
    obtain ⟨seen, edited, now, -, ht, -⟩ := hc
    exact absurd ht (hq seen edited)
  | _ => trivial

theorem writes_of_keepsState {q : Request} (hq : q.keepsState = true) :
    (procedure limit caller stamp q).Keeps q.Writes [] :=
  keeps_mono (fun _ _ => Request.writes_of_allows hq) (procedure_keeps limit caller stamp q)

/-- However an operation is answered, it writes transient states as its request may, and holds no
record at its end. -/
theorem procedure_settles (q : Request) : (procedure limit caller stamp q).Settles q [] := by
  cases q with
  | start id => exact settles_map _ (start_settles caller stamp id)
  | stop id => exact settles_map _ (stop_settles caller stamp id)
  | delete id => exact settles_map _ (delete_settles caller stamp id)
  | create r => exact settles_of_keeps rfl (keeps_map _ (create_writes limit caller stamp r))
  | restart id => exact settles_of_keeps rfl (keeps_map _ (restart_writes caller stamp id))
  | suspend id reason =>
    exact settles_of_keeps rfl (keeps_map _ (suspend_writes caller stamp id reason))
  | unsuspend id => exact settles_of_keeps rfl (keeps_map _ (unsuspend_writes caller stamp id))
  | update id r | scale id r =>
    exact settles_of_keeps rfl (writes_of_keepsState limit caller stamp rfl)
  | get id | getBySlug slug | list query =>
    exact settles_of_keeps rfl (writes_of_reads limit caller stamp fun _ _ h => h)

end Procedure

namespace Config

variable {W : Type} {S : Surroundings W}

/-- What holds of every operation when it begins, and still holds after each of its calls, holds of
all operations of a run. -/
theorem rest_of_reaches {P : UInt64 → Request → Procedure Reply → List Exchange → Prop}
    (hbegin : ∀ limit caller stamp q, P limit q (procedure limit caller stamp q) [])
    (hcall : ∀ limit q c next past a, P limit q (.call c next) past →
      P limit q (next a) (⟨c, a⟩ :: past)) {w : W}
    {c : Config W} (h : Reaches S (start w) c) {k : Nat} {o : Operation}
    (ho : c.operations[k]? = some o) : P o.limit o.request o.rest (c.past k) := by
  refine h.induct
    (P := fun c => ∀ k o, c.operations[k]? = some o → P o.limit o.request o.rest (c.past k))
    (fun c m c' hreach hd hs => ?_) (by simp [start]) k o ho
  cases m with
  | begin limit caller request stamp =>
    obtain ⟨-, rfl⟩ := step_begin hs
    intro j o hj
    by_cases hlt : j < c.operations.length
    · rw [List.getElem?_append_left hlt] at hj
      exact hd j o hj
    · have hpast : c.past j = [] :=
        past_of_length_le (conducted_of_reaches hreach) (Nat.le_of_not_lt hlt)
      rw [List.getElem?_append_right (Nat.le_of_not_lt hlt)] at hj
      obtain rfl := List.mem_singleton.1 (List.mem_of_getElem? hj)
      change P _ _ _ (c.past j)
      rw [hpast]
      exact hbegin limit caller stamp request
  | answer i x =>
    obtain ⟨p, call, next, hp, hrest, rfl⟩ := step_answer hs
    have hbefore := hd i p hp
    rw [hrest] at hbefore
    intro j o hj
    change P _ _ _ (pastOf j (⟨i, _⟩ :: c.log))
    simp only [answered, List.getElem?_set] at hj
    by_cases hij : i = j
    · subst hij
      rw [if_pos rfl, if_pos (List.getElem?_eq_some_iff.1 hp).1] at hj
      cases hj
      rw [pastOf_cons_self]
      exact hcall _ _ _ _ _ _ hbefore
    · rw [if_neg hij] at hj
      rw [pastOf_cons_other (Ne.symm hij)]
      exact hd j o hj
  | chance d =>
    cases hs
    exact hd

theorem settles_of_reaches {w : W} {c : Config W} (h : Reaches S (start w) c) {k : Nat}
    {o : Operation} (ho : c.operations[k]? = some o) : o.rest.Settles o.request (c.past k) :=
  rest_of_reaches (P := fun _ q p past => p.Settles q past)
    (fun limit caller stamp q => Procedure.procedure_settles limit caller stamp q)
    (fun _ _ _ _ _ a hp => hp.2 a) h ho

/-- An operation that has returned holds no record. -/
theorem holds_of_isOver {w : W} {c : Config W} (h : Reaches S (start w) c)
    (hover : ∀ o ∈ c.operations, o.rest.isOver = true) (k : Nat) : c.holds k = none := by
  unfold holds asked
  cases ho : c.operations[k]? with
  | none => rfl
  | some o =>
    exact Procedure.held_of_isOver (hover o (List.mem_of_getElem? ho)) (settles_of_reaches h ho)

end Config

end Service

end Fleet
