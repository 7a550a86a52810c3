import Fleet.Proofs.Counting
import Fleet.Proofs.Errand
import Fleet.Proofs.Settlement

/-!
# What the quota holds back

A creation counts the records of its tenant, and inserts its own only if they are fewer than the limit
(`Procedure.procedure_heeds`). Counting and inserting are two calls, and others count in between. Such
a creation waits, from the count that let it pass to its insertion (`Config.waits`), and while the quota
lets nobody pass, records and waiting creations together do not get more (`count_waiting_step`). So

    records of a tenant ≤ limit + (most - 1)

where `most` is how many creations of the tenant wait at one time, at most (`count_within_quota`). Two
that wait at one time do exceed the limit by one (`quota_is_exceeded`). -/

namespace Fleet

open Service Procedure

/-! ## Counting records -/

namespace Store

variable {s s' : Store}

theorem count_eq (s : Store) (t : String) : s.count t = s.records.values.countP (·.tenant = t) := by
  unfold count
  rw [List.countP_eq_length_filter]

theorem count_of_insert {id : String} {i : Instance} (hnew : s.records.get? id = none)
    (hs : s'.records = s.records.insert id i) (t : String) :
    s'.count t = s.count t + if i.tenant = t then 1 else 0 := by
  rw [count_eq, count_eq, hs, Dict.countP_insert hnew]
  simp only [decide_eq_true_eq]

theorem count_of_erase {id : String} {i : Instance} (hi : s.records.get? id = some i)
    (hs : s'.records = s.records.erase id) (t : String) :
    s.count t = s'.count t + if i.tenant = t then 1 else 0 := by
  rw [count_eq, count_eq, hs, Dict.countP_erase hi]
  simp only [decide_eq_true_eq]

/-- A record in the place of another of its tenant counts as that one did. -/
theorem count_of_replace {id : String} {i stored : Instance} (hi : s.records.get? id = some stored)
    (htenant : stored.tenant = i.tenant) (hs : s'.records = s.records.insert id i) (t : String) :
    s'.count t = s.count t := by
  rw [count_eq, count_eq, hs]
  refine Dict.countP_replace hi ?_
  rw [htenant]

end Store

namespace Service

namespace Exchange

/-- Whether an exchange lets its operation pass the quota of a tenant. -/
def passes (limit : UInt64) (t : String) : Exchange → Bool
  | ⟨.count tenant, .ok n⟩ => decide (tenant = t ∧ n < limit.toNat)
  | _ => false

def inserts : Exchange → Bool
  | ⟨.insert _, _⟩ => true
  | _ => false

theorem passes_eq_true {limit : UInt64} {t : String} {x : Exchange} (h : x.passes limit t = true) :
    ∃ n, x = ⟨.count t, .ok n⟩ ∧ n < limit.toNat := by
  unfold passes at h
  split at h
  · rename_i tenant n
    obtain ⟨rfl, hn⟩ := of_decide_eq_true h
    exact ⟨n, rfl, hn⟩
  · cases h

theorem inserts_eq_true {x : Exchange} (h : x.inserts = true) : ∃ i a, x = ⟨.insert i, a⟩ := by
  unfold inserts at h
  split at h
  · exact ⟨_, _, rfl⟩
  · cases h

end Exchange

/-- Whether the quota of a tenant let an operation pass that has inserted nothing yet. -/
def cleared (limit : UInt64) (t : String) (past : List Exchange) : Bool :=
  past.any (·.passes limit t) && !past.any (·.inserts)

theorem cleared_cons_of_inserts {x : Exchange} (h : x.inserts = true) (limit : UInt64) (t : String)
    (past : List Exchange) : cleared limit t (x :: past) = false := by
  simp [cleared, h]

theorem cleared_cons_of_other {limit : UInt64} {t : String} {x : Exchange}
    (hp : x.passes limit t = false) (hi : x.inserts = false) (past : List Exchange) :
    cleared limit t (x :: past) = cleared limit t past := by
  simp [cleared, hp, hi]

/-! ## What is asked about one record -/

/-- The id of the record that a request is about, if it names one by its id. -/
def Request.named? : Request → Option String
  | .get id | .update id _ | .delete id | .start id | .stop id | .restart id | .scale id _
  | .suspend id _ | .unsuspend id => some id
  | .create _ | .getBySlug _ | .list _ => none

/-- Whether a call is of those that a request about the record of an id makes: it looks for nothing else,
and inserts nothing. -/
def Call.PertainsTo (id : String) : Call → Prop
  | .find _ asked => asked = id
  | .update _ | .delete _ _ | .lookup _ | .command _ _ | .publish _ => True
  | .insert _ | .findBySlug _ _ | .list _ _ | .count _ | .resolve _ => False

theorem Request.named?_of_errand {q : Request} {e : Errand} (h : q.errand = some e) :
    q.named? = some e.id := by
  cases q with
  | start id | stop id | delete id | restart id | scale id r | suspend id reason | unsuspend id =>
    cases h
    rfl
  | _ => cases h

namespace Errand

variable (stamp : Stamp) (past : List Exchange) (id : String)

theorem abandon_pertains (e : Errand) (who : Caller) (i : Instance) (cause : Provider.Error) :
    (e.abandon who stamp i cause).Keeps (fun _ => Call.PertainsTo id) past := by
  unfold abandon
  split
  · unfold giveUp
    refine keeps_markFailed trivial (fun version => ?_) fun e => trivial
    exact keeps_announce trivial fun _ => trivial
  · trivial

theorem finish_pertains (e : Errand) (who : Caller) (i : Instance) :
    (e.finish who stamp i).Keeps (fun _ => Call.PertainsTo id) past := by
  unfold finish
  split
  · exact keeps_persist trivial fun version => keeps_announce trivial fun _ => trivial
  · refine keeps_ask trivial fun a => keeps_ofExcept fun _ _ => ?_
    exact keeps_announce trivial fun _ => trivial

theorem called_pertains (e : Errand) (who : Caller) (i : Instance)
    {f : (Call.command i.provider (e.command i)).Answer → Procedure Reply}
    (herr : ∀ cause, f (.error cause) = e.abandon who stamp i cause)
    (hok : ∀ a, f (.ok a) = e.finish who stamp i) :
    (ask (.command i.provider (e.command i)) >>= f).Keeps (fun _ => Call.PertainsTo id) past := by
  refine keeps_ask trivial fun a => ?_
  cases a with
  | error cause =>
    rw [herr]
    exact e.abandon_pertains stamp _ id who i cause
  | ok a =>
    rw [hok]
    exact e.finish_pertains stamp _ id who i

theorem procedure_pertains (e : Errand) (caller : Option Caller) :
    (e.procedure caller stamp).Keeps (fun _ => Call.PertainsTo e.id) past := by
  unfold procedure permit enter
  refine keeps_identify fun who => keeps_load rfl fun i => ?_
  cases e.announces with
  | none =>
    refine keeps_providerOf trivial fun _ => ?_
    exact e.called_pertains stamp _ _ who i (fun _ => rfl) fun _ => rfl
  | some s =>
    refine keeps_ofExcept fun _ _ => keeps_providerOf trivial fun _ => ?_
    refine keeps_persist trivial fun version => ?_
    exact e.called_pertains stamp _ _ who _ (fun _ => rfl) fun _ => rfl

end Errand

namespace Procedure

/-- An operation about the record of an id asks for nothing else. -/
theorem procedure_pertains (limit : UInt64) (caller : Option Caller) (stamp : Stamp) {q : Request}
    {id : String} (hq : q.named? = some id) :
    (procedure limit caller stamp q).Keeps (fun _ => Call.PertainsTo id) [] := by
  cases he : q.errand with
  | some e =>
    obtain rfl := Option.some.inj (hq.symm.trans (Request.named?_of_errand he))
    rw [procedure_eq_errand he]
    exact e.procedure_pertains stamp [] caller
  | none =>
    cases q with
    | get id =>
      cases hq
      refine keeps_map _ (keeps_identify fun who => ?_)
      rw [← bind_done (load who id)]
      exact keeps_load rfl fun i => trivial
    | update id r =>
      cases hq
      refine keeps_map _ (keeps_identify fun who => keeps_load rfl fun i => ?_)
      refine keeps_ofExcept fun edited _ => ?_
      rw [← bind_done (persist _ _)]
      exact keeps_persist trivial fun version => trivial
    | create r | getBySlug slug | list query => cases hq
    | _ => cases he

end Procedure

/-! ## Only creations insert -/

/-- Whether a call is no insertion. -/
def Call.AddsNone : Call → Prop
  | .insert _ => False
  | _ => True

theorem Call.PertainsTo.addsNone {id : String} {c : Call} (h : c.PertainsTo id) : c.AddsNone := by
  cases c with
  | insert i => exact h
  | _ => trivial

namespace Procedure

/-- An operation other than a creation inserts no record. -/
theorem procedure_addsNone (limit : UInt64) (caller : Option Caller) (stamp : Stamp) {q : Request}
    (hq : ∀ r, q ≠ .create r) :
    (procedure limit caller stamp q).Keeps (fun _ => Call.AddsNone) [] := by
  cases hnamed : q.named? with
  | some id =>
    exact keeps_mono (fun _ _ h => h.addsNone) (procedure_pertains limit caller stamp hnamed)
  | none =>
    cases q with
    | create r => exact absurd rfl (hq r)
    | getBySlug slug =>
      refine keeps_map _ (keeps_identify fun who => keeps_ensure (keeps_ask trivial fun a => ?_))
      cases a <;> trivial
    | list query =>
      refine keeps_map _ (keeps_identify fun who => keeps_ask trivial fun a => ?_)
      cases a <;> trivial
    | _ => cases hnamed

end Procedure

/-! ## No insertion without the quota -/

/-- A call is no insertion, or one that the quota of the record's tenant let pass. -/
def Call.Heeds (limit : UInt64) (past : List Exchange) : Call → Prop
  | .insert i => cleared limit i.tenant past = true
  | _ => True

theorem Call.AddsNone.heeds {c : Call} (h : c.AddsNone) (limit : UInt64) (past : List Exchange) :
    c.Heeds limit past := by
  cases c with
  | insert i => exact h.elim
  | _ => trivial

namespace Procedure

variable {α : Type} {limit : UInt64} (caller : Option Caller) (stamp : Stamp)

theorem heeds_checkQuota (hlimit : limit ≠ 0) {who : Caller} {f : Unit → Procedure α}
    (hf : ∀ n, n < limit.toNat →
      (f ()).Keeps (Call.Heeds limit) [⟨.count who.tenant, .ok n⟩]) :
    (checkQuota limit who stamp >>= f).Keeps (Call.Heeds limit) [] := by
  unfold checkQuota
  rw [if_neg hlimit]
  simp only [bind_assoc]
  refine keeps_ask trivial fun a => keeps_ofExcept ?_
  rintro n rfl
  by_cases hroom : n < limit.toNat
  · rw [if_pos hroom]
    exact hf n hroom
  · rw [if_neg hroom]
    simp only [bind_assoc]
    exact keeps_announce trivial fun _ => trivial

theorem create_heeds (hlimit : limit ≠ 0) (r : CreateRequest) :
    (create limit caller r stamp).Keeps (Call.Heeds limit) [] := by
  unfold create
  refine keeps_identify fun who => keeps_ensure (keeps_ensure (keeps_ensure ?_))
  refine heeds_checkQuota stamp hlimit fun n hroom => keeps_ask trivial fun a => keeps_ofExcept ?_
  rintro provider rfl
  have hcleared : cleared limit who.tenant
      [⟨.resolve r.provider, .ok provider⟩, ⟨.count who.tenant, .ok n⟩] = true := by
    simp [cleared, Exchange.passes, Exchange.inserts, hroom]
  refine keeps_ask hcleared fun a => keeps_ofExcept fun version _ => keeps_ask trivial fun a => ?_
  cases a with
  | error cause =>
    exact keeps_markFailed trivial (fun version => trivial) fun e => trivial
  | ok made => exact keeps_persist trivial fun version => keeps_announce trivial fun _ => trivial

/-- No operation inserts a record that the quota of its tenant did not let pass. -/
theorem procedure_heeds (hlimit : limit ≠ 0) (q : Request) :
    (procedure limit caller stamp q).Keeps (Call.Heeds limit) [] := by
  cases q with
  | create r => exact keeps_map _ (create_heeds caller stamp hlimit r)
  | _ =>
    refine keeps_mono (fun past _ h => h.heeds limit past) (procedure_addsNone limit caller stamp ?_)
    intro r h
    cases h

end Procedure

/-! ## Creations that wait -/

namespace Config

variable {W : Type} {S : Surroundings W}

/-- Whether an operation is on its way from the count that let it pass to its insertion. -/
def waits (c : Config W) (limit : UInt64) (t : String) (k : Nat) : Bool :=
  match c.operations[k]? with
  | some o => !o.rest.isOver && cleared limit t (c.past k)
  | none => false

/-- How many creations of a tenant wait. -/
def waiting (c : Config W) (limit : UInt64) (t : String) : Nat :=
  (List.range c.operations.length).countP (c.waits limit t)

theorem waiting_le_length (c : Config W) (limit : UInt64) (t : String) :
    c.waiting limit t ≤ c.operations.length := by
  have hle := List.countP_le_length (p := c.waits limit t) (l := List.range c.operations.length)
  rwa [List.length_range] at hle

end Config

/-- Where two predicates differ at one number only, so do their counts. -/
theorem countP_range_of_ne {f g : Nat → Bool} {n k : Nat} (hk : k < n)
    (h : ∀ j, j ≠ k → g j = f j) :
    (List.range n).countP g + (f k).toNat = (List.range n).countP f + (g k).toNat := by
  induction n with
  | zero => omega
  | succ n ih =>
    rw [List.range_succ, List.countP_append, List.countP_append, List.countP_singleton,
      List.countP_singleton]
    by_cases hkn : k = n
    · subst hkn
      have hsame : (List.range k).countP g = (List.range k).countP f := by
        refine List.countP_congr fun j hj => ?_
        have hlt := List.mem_range.1 hj
        rw [h j (by omega)]
      rw [hsame]
      cases f k <;> cases g k <;> simp
    · have hbefore := ih (by omega)
      rw [h n (Ne.symm hkn)]
      omega

namespace Config

variable {c c' : Config Store} {limit : UInt64} {t : String}

theorem heeds_of_reaches (h : Reaches .ofStore (start .empty) c) (hlimit : limit ≠ 0) {k : Nat}
    {o : Operation} (ho : c.operations[k]? = some o) (hl : o.limit = limit) :
    o.rest.Keeps (Call.Heeds limit) (c.past k) := by
  have hkeeps := rest_of_reaches
    (P := fun limit _ p past => limit ≠ 0 → p.Keeps (Call.Heeds limit) past)
    (fun limit caller stamp q hlimit => procedure_heeds caller stamp hlimit q)
    (fun _ _ _ _ _ a hp hlimit => (hp hlimit).2 a) h ho
  rw [hl] at hkeeps
  exact hkeeps hlimit

end Config

/-! ## The records of a tenant and the creations that wait -/

theorem Outcome.count_le {s s' : Store} {x : Exchange} (h : Outcome s x s')
    (hx : x.inserts = false) (t : String) : s'.count t ≤ s.count t := by
  cases h with
  | inserted i _ hnew hs => cases hx
  | updated i before _ hb ht hv hs =>
    have hcount := Store.count_of_replace (i := { i with version := i.version + 1 }) hb ht hs t
    exact Nat.le_of_eq hcount
  | removed tenant id before _ hb ht hs =>
    have hcount := Store.count_of_erase hb hs t
    omega
  | kept _ hw hr hx => exact Nat.le_refl _

theorem Outcome.count_of_insert {s s' : Store} {i : Instance} {a : Except Failure UInt64}
    (h : Outcome s ⟨.insert i, a⟩ s') (t : String) :
    s'.count t ≤ s.count t + if i.tenant = t then 1 else 0 := by
  cases h with
  | inserted _ _ hnew hs => exact Nat.le_of_eq (Store.count_of_insert hnew hs t)
  | kept _ hw hr hx => exact Nat.le_add_right _ _

namespace Config

variable {c c' : Config Store} {limit : UInt64} {t : String}

/-- An operation that begins does not wait. -/
theorem waiting_begin (hc : c.Conducted) (o : Operation) (limit : UInt64) (t : String) :
    ({ c with operations := c.operations ++ [o] } : Config Store).waiting limit t =
      c.waiting limit t := by
  unfold waiting
  rw [List.length_append, List.length_singleton, List.range_succ, List.countP_append,
    List.countP_singleton]
  have hnew : ({ c with operations := c.operations ++ [o] } : Config Store).waits limit t
      c.operations.length = false := by
    unfold waits
    have hpast : ({ c with operations := c.operations ++ [o] } : Config Store).past
        c.operations.length = [] := past_of_length_le hc (Nat.le_refl _)
    rw [hpast]
    simp [cleared]
  have hold : (List.range c.operations.length).countP
      (({ c with operations := c.operations ++ [o] } : Config Store).waits limit t) =
        (List.range c.operations.length).countP (c.waits limit t) := by
    refine List.countP_congr fun j hj => ?_
    have hlt := List.mem_range.1 hj
    unfold waits
    rw [List.getElem?_append_left hlt]
    rfl
  rw [hnew, hold]
  rfl

section

variable {k : Nat} {o : Operation} {call : Call} {next : call.Answer → Procedure Reply}
  {x : (c : Call) → c.Answer} (ho : c.operations[k]? = some o)

include ho

/-- A call changes who waits at its own operation only. -/
theorem waiting_answered (next : call.Answer → Procedure Reply) (x : (c : Call) → c.Answer)
    (limit : UInt64) (t : String) :
    (c.answered .ofStore k o call next x).waiting limit t + (c.waits limit t k).toNat =
      c.waiting limit t + ((c.answered .ofStore k o call next x).waits limit t k).toNat := by
  have hlength : (c.answered .ofStore k o call next x).operations.length = c.operations.length :=
    List.length_set
  unfold waiting
  rw [hlength]
  refine countP_range_of_ne (List.getElem?_eq_some_iff.1 ho).1 fun j hj => ?_
  have hpast : (c.answered .ofStore k o call next x).past j = c.past j := pastOf_cons_other hj _ _
  have hsame : (c.answered .ofStore k o call next x).operations[j]? = c.operations[j]? :=
    List.getElem?_set_ne (Ne.symm hj)
  unfold waits
  rw [hsame, hpast]

theorem waits_of_call (hr : o.rest = .call call next) (limit : UInt64) (t : String) :
    c.waits limit t k = cleared limit t (c.past k) := by
  unfold waits
  rw [ho]
  simp [hr, isOver]

theorem cleared_of_waits (h : (c.answered .ofStore k o call next x).waits limit t k = true) :
    cleared limit t (⟨call, (serveStore x c.world call).1⟩ :: c.past k) = true := by
  have hself : (c.answered .ofStore k o call next x).operations[k]? =
      some { o with rest := next (serveStore x c.world call).1 } :=
    List.getElem?_set_self (List.getElem?_eq_some_iff.1 ho).1
  have hpast : (c.answered .ofStore k o call next x).past k =
      ⟨call, (serveStore x c.world call).1⟩ :: c.past k := pastOf_cons_self _ _ _
  unfold waits at h
  rw [hself, hpast] at h
  exact (Bool.and_eq_true_iff.1 h).2

/-- A call that is no insertion and lets nobody pass brings no record, and nobody waits for it. -/
theorem count_waiting_other (hr : o.rest = .call call next) (hc : c.world.Filed)
    (hinserts : (Exchange.mk call (serveStore x c.world call).1).inserts = false)
    (hpasses : (Exchange.mk call (serveStore x c.world call).1).passes limit t = false) :
    (c.answered .ofStore k o call next x).world.count t +
        (c.answered .ofStore k o call next x).waiting limit t ≤
      c.world.count t + c.waiting limit t := by
  have hcount : (c.answered .ofStore k o call next x).world.count t ≤ c.world.count t :=
    (serve_outcome hc x call).count_le hinserts t
  have hsum := waiting_answered ho next x limit t
  have hwaits : ((c.answered .ofStore k o call next x).waits limit t k).toNat ≤
      (c.waits limit t k).toNat := by
    cases hafter : (c.answered .ofStore k o call next x).waits limit t k with
    | true =>
      have hbefore := cleared_of_waits ho hafter
      rw [cleared_cons_of_other hpasses hinserts, ← waits_of_call ho hr limit t] at hbefore
      exact Nat.le_of_eq (congrArg Bool.toNat hbefore.symm)
    | false => exact Nat.zero_le _
  omega

end

/-- An insertion adds the record that its operation waited to insert, and the operation waits no more. -/
theorem count_waiting_insert {k : Nat} {o : Operation} {i : Instance}
    {next : (Call.insert i).Answer → Procedure Reply} (x : (c : Call) → c.Answer)
    (ho : c.operations[k]? = some o) (hr : o.rest = .call (.insert i) next) (hc : c.world.Filed)
    (hheeds : (Call.insert i).Heeds limit (c.past k)) :
    (c.answered .ofStore k o (.insert i) next x).world.count t +
        (c.answered .ofStore k o (.insert i) next x).waiting limit t ≤
      c.world.count t + c.waiting limit t := by
  have hcount : (c.answered .ofStore k o (.insert i) next x).world.count t ≤
      c.world.count t + if i.tenant = t then 1 else 0 :=
    (serve_outcome hc x (.insert i)).count_of_insert t
  have hdone : (c.answered .ofStore k o (.insert i) next x).waits limit t k = false := by
    refine Bool.eq_false_iff.2 fun hwaits => ?_
    have hcleared := cleared_of_waits ho hwaits
    rw [cleared_cons_of_inserts rfl] at hcleared
    cases hcleared
  have hsum := waiting_answered ho next x limit t
  rw [hdone, waits_of_call ho hr] at hsum
  by_cases ht : i.tenant = t
  · subst ht
    have hwaited : cleared limit i.tenant (c.past k) = true := hheeds
    rw [hwaited] at hsum
    simp only [Bool.toNat_true, Bool.toNat_false, if_true] at hsum hcount
    omega
  · rw [if_neg ht] at hcount
    simp only [Bool.toNat_false] at hsum
    omega

/-- A move brings records and waiting creations to no more than they were, unless it lets a creation
pass, which finds fewer records than the limit. -/
theorem count_waiting_step {m : Move .ofStore} (h : Reaches .ofStore (start .empty) c)
    (hs : c.step .ofStore m = some c') (hlimit : limit ≠ 0)
    (hall : ∀ o ∈ c.operations, o.limit = limit) (t : String) :
    c'.world.count t + c'.waiting limit t ≤ c.world.count t + c.waiting limit t ∨
      c'.world.count t < limit.toNat := by
  cases m with
  | begin l caller request stamp =>
    obtain ⟨-, rfl⟩ := step_begin hs
    rw [waiting_begin (conducted_of_reaches h)]
    exact .inl (Nat.le_refl _)
  | chance d => exact d.elim
  | answer k x =>
    -- A call inserts, or lets its own operation pass, or does neither.
    obtain ⟨o, call, next, ho, hr, rfl⟩ := step_answer hs
    have hfiled := (rooted_of_reaches h).filed
    cases hinserts : (Exchange.mk call (serveStore x c.world call).1).inserts with
    | true =>
      obtain ⟨i, a, hx⟩ := Exchange.inserts_eq_true hinserts
      obtain ⟨rfl, -⟩ := Exchange.mk.inj hx
      have hheeds := heeds_of_reaches h hlimit ho (hall o (List.mem_of_getElem? ho))
      rw [hr] at hheeds
      exact .inl (count_waiting_insert x ho hr hfiled hheeds.1)
    | false =>
      cases hpasses : (Exchange.mk call (serveStore x c.world call).1).passes limit t with
      | true =>
        have hcount : (c.answered .ofStore k o call next x).world.count t ≤ c.world.count t :=
          (serve_outcome hfiled x call).count_le hinserts t
        obtain ⟨n, hx, hn⟩ := Exchange.passes_eq_true hpasses
        obtain ⟨rfl, hanswer⟩ := Exchange.mk.inj hx
        -- The number that the quota let pass is that of the records as they are.
        have hcounted : c.world.count t = n := Except.ok.inj (eq_of_heq hanswer)
        exact .inr (by omega)
      | false => exact .inl (count_waiting_other ho hr hfiled hinserts hpasses)

/-- Operations stay, with the limits that they began with. -/
theorem limit_of_step {m : Move .ofStore} (hs : c.step .ofStore m = some c') {o : Operation}
    (ho : o ∈ c.operations) : ∃ o' ∈ c'.operations, o'.limit = o.limit := by
  cases m with
  | begin l caller request stamp =>
    obtain ⟨-, rfl⟩ := step_begin hs
    exact ⟨o, List.mem_append_left _ ho, rfl⟩
  | chance d => exact d.elim
  | answer k x =>
    obtain ⟨p, call, next, hp, hr, rfl⟩ := step_answer hs
    obtain ⟨j, hj, rfl⟩ := List.mem_iff_getElem.1 ho
    by_cases hjk : k = j
    · subst hjk
      obtain rfl := Option.some.inj ((List.getElem?_eq_getElem hj).symm.trans hp)
      exact ⟨_, List.mem_set hj _, rfl⟩
    · refine ⟨c.operations[j], List.mem_of_getElem? (i := j) ?_, rfl⟩
      show (c.operations.set k _)[j]? = _
      rw [List.getElem?_set_ne hjk, List.getElem?_eq_getElem hj]

theorem limit_of_reaches (h : Reaches .ofStore c c') {o : Operation} (ho : o ∈ c.operations) :
    ∃ o' ∈ c'.operations, o'.limit = o.limit :=
  h.induct (P := fun d => ∃ o' ∈ d.operations, o'.limit = o.limit) (fun _ _ _ _ hd hs => by
    obtain ⟨o', ho', hl⟩ := hd
    obtain ⟨o'', ho'', hl'⟩ := limit_of_step hs ho'
    exact ⟨o'', ho'', hl'.trans hl⟩) ⟨o, ho, rfl⟩

/-- Along a run the records and the waiting creations of a tenant stay below their bound, as long as no
more creations wait at one time than it allows for. -/
theorem count_waiting_run {moves : List (Move .ofStore)} {most : Nat}
    (h : Reaches .ofStore (start .empty) c) (hrun : c.run .ofStore moves = some c')
    (hlimit : limit ≠ 0) (hall : ∀ o ∈ c'.operations, o.limit = limit) {t : String}
    (hmost : ∀ before after d, moves = before ++ after → c.run .ofStore before = some d →
      d.waiting limit t ≤ most)
    (hbound : c.world.count t + c.waiting limit t ≤ limit.toNat + (most - 1)) :
    c'.world.count t + c'.waiting limit t ≤ limit.toNat + (most - 1) := by
  -- Over the moves, with the bound as the invariant; a move that lets a creation pass finds room.
  induction moves generalizing c with
  | nil =>
    cases hrun
    exact hbound
  | cons m moves ih =>
    have hrest := hrun
    obtain ⟨d, hd, hrun⟩ := Option.bind_eq_some_iff.1 hrun
    have hlimits : ∀ o ∈ c.operations, o.limit = limit := by
      intro o ho
      obtain ⟨o', ho', hl⟩ := limit_of_reaches ⟨_, hrest⟩ ho
      rw [← hl, hall o' ho']
    have hwaiting : d.waiting limit t ≤ most := by
      refine hmost [m] moves d rfl ?_
      simp [run, hd]
    have hstep : d.world.count t + d.waiting limit t ≤ limit.toNat + (most - 1) := by
      rcases count_waiting_step h hd hlimit hlimits t with hle | hlt
      · omega
      · omega
    refine ih (h.step hd) hrun (fun before after e hsplit he => ?_) hstep
    refine hmost (m :: before) after e (by rw [hsplit]; rfl) ?_
    simp only [run, hd, Option.bind_some]
    exact he

/-- While any operations run side by side, each with the same limit, a tenant never has more records
than the limit and as many as creations of the tenant wait at one time, but for one. So where no two
creations of a tenant wait at one time, the limit is kept. -/
theorem count_within_quota {moves : List (Move .ofStore)}
    (hrun : (start .empty).run .ofStore moves = some c) (hlimit : limit ≠ 0)
    (hall : ∀ o ∈ c.operations, o.limit = limit) (t : String) {most : Nat}
    (hmost : ∀ before after d, moves = before ++ after →
      (start .empty).run .ofStore before = some d → d.waiting limit t ≤ most) :
    c.world.count t ≤ limit.toNat + (most - 1) := by
  have hbound := count_waiting_run (.refl _) hrun hlimit hall hmost (Nat.zero_le _)
  omega

/-- An operation for a user of one tenant, which may have one instance. -/
def limited {W : Type} {S : Surroundings W} (id event : String) (request : Request) : Move S :=
  .begin 1 (some (.ofTenant "acme" "user-1")) request
    { instanceId := id, eventId := event, clock := fun n => { seconds := n } }

/-- Two creations count before either inserts. -/
def overlap : List (Move .ofStore) :=
  [limited "inst_1" "evt_1" (.create { name := "Web", image := "nginx" }),
    limited "inst_2" "evt_2" (.create { name := "Db", image := "postgres" }),
    .answer 0 willing, .answer 1 willing, .answer 0 willing, .answer 1 willing, .answer 0 willing,
    .answer 1 willing]

/-- Both have inserted their record. -/
def overlapped : Config Store := ((start .empty).run .ofStore overlap).get (by decide +kernel)

theorem run_overlap : (start .empty).run .ofStore overlap = some overlapped :=
  (Option.some_get _).symm

theorem limit_overlapped : ∀ o ∈ overlapped.operations, o.limit = 1 := by decide +kernel

theorem count_overlapped : overlapped.world.count "acme" = 2 := by decide +kernel

theorem quota_is_exceeded :
    ¬ ∀ (limit : UInt64) (t : String) (c : Config Store), limit ≠ 0 →
      Reaches .ofStore (start .empty) c → (∀ o ∈ c.operations, o.limit = limit) →
      c.world.count t ≤ limit.toNat := by
  intro hall
  have hle := hall 1 "acme" overlapped (by decide) ⟨_, run_overlap⟩ limit_overlapped
  rw [count_overlapped] at hle
  exact absurd hle (by decide)

/-- Operations get no fewer. -/
theorem length_le_of_reaches (h : Reaches .ofStore c c') :
    c.operations.length ≤ c'.operations.length := by
  refine h.induct (P := fun d => c.operations.length ≤ d.operations.length)
    (fun d m d' _ hd hs => ?_) (Nat.le_refl _)
  cases m with
  | begin l caller request stamp =>
    obtain ⟨-, rfl⟩ := step_begin hs
    simp only [List.length_append]
    omega
  | chance e => exact e.elim
  | answer k x =>
    obtain ⟨o, call, next, -, -, rfl⟩ := step_answer hs
    simp only [answered, List.length_set]
    exact hd

theorem run_append (c : Config Store) (before after : List (Move .ofStore)) :
    c.run .ofStore (before ++ after) = (c.run .ofStore before).bind (·.run .ofStore after) := by
  induction before generalizing c with
  | nil => rfl
  | cons m before ih =>
    simp only [List.cons_append, run, Option.bind_assoc, ih]

/-- No more creations wait than have begun. -/
theorem waiting_overlap (before after : List (Move .ofStore)) (d : Config Store)
    (hsplit : overlap = before ++ after) (hd : (start .empty).run .ofStore before = some d) :
    d.waiting 1 "acme" ≤ 2 := by
  have hrun := run_overlap
  rw [hsplit, run_append, hd] at hrun
  have hgrown := length_le_of_reaches ⟨after, hrun⟩
  exact Nat.le_trans (d.waiting_le_length 1 "acme") (Nat.le_trans hgrown (by decide +kernel))

theorem count_within_quota_overlapped :
    (start .empty).run .ofStore overlap = some overlapped ∧ (1 : UInt64) ≠ 0 ∧
      (∀ o ∈ overlapped.operations, o.limit = 1) ∧
      (∀ before after d, overlap = before ++ after →
        (start .empty).run .ofStore before = some d → d.waiting 1 "acme" ≤ 2) ∧
      overlapped.world.count "acme" = 2 ∧
      overlapped.world.count "acme" ≤ UInt64.toNat 1 + (2 - 1) :=
  ⟨run_overlap, by decide, limit_overlapped, waiting_overlap, count_overlapped,
    count_within_quota run_overlap (by decide) limit_overlapped "acme" waiting_overlap⟩

end Config

end Service

end Fleet
