import Fleet.Proofs.Provenance

/-!
# The end of an instance is published once

An operation that has removed a record publishes the end of the instance next, and nobody else does.
As no id is removed twice, its end is published once at most (`Mourned`). -/

namespace Fleet.Service

/-- The instance whose end the exchange publishes. -/
def Exchange.obituary : Exchange → Option String
  | ⟨.publish e, _⟩ => if e.kind = .known .instanceDeleted then e.instanceId else none
  | _ => none

/-- What is removed was stored. -/
theorem Outcome.of_removal {s s' : Store} {x : Exchange} (h : Outcome s x s') {id : String}
    (hid : x.removal = some id) : ∃ r, s.records.get? id = some r := by
  cases h with
  | inserted i _ hnew hs => cases hid
  | updated i before _ hb ht hv hs => cases hid
  | removed tenant id' before _ hb ht hs =>
    cases hid
    exact ⟨before, hb⟩
  | kept _ hw hr hx =>
    rw [hr] at hid
    cases hid

namespace Config

/-- How often the end of an instance was published. -/
def obituaries {W : Type} (c : Config W) (id : String) : Nat :=
  c.log.countP fun e => e.exchange.obituary = some id

/-- Whether an operation has just removed a record. -/
def Erased {W : Type} (c : Config W) (k : Nat) (id : String) : Prop :=
  ∃ tenant, c.last k = some ⟨.delete tenant id, .ok ()⟩

/-- The end of an instance is published once at most, after its record was removed, and not before the
operation that has removed it goes on. -/
structure Mourned {W : Type} (c : Config W) : Prop where
  once : ∀ id, c.obituaries id ≤ 1
  after : ∀ id, c.obituaries id ≠ 0 → ∃ e ∈ c.log, e.exchange.removal = some id
  pending : ∀ k id, c.Erased k id → c.obituaries id = 0
  single : ∀ j k id, c.Erased j id → c.Erased k id → j = k

section

variable {c c' : Config Store} {k : Nat} {q : Request} {s : Stamp} {x : Exchange}

theorem obituaries_cons (hlog : c'.log = ⟨k, x⟩ :: c.log) (id : String) :
    c'.obituaries id = c.obituaries id + if x.obituary = some id then 1 else 0 := by
  simp [obituaries, hlog, List.countP_cons]

theorem removal_of_erased {id : String} (h : c.Erased k id) :
    ∃ e ∈ c.log, e.exchange.removal = some id := by
  obtain ⟨tenant, h⟩ := h
  exact ⟨_, mem_of_last h, rfl⟩

/-- The end of an instance is published by the operation that has just removed its record. -/
theorem erased_of_obituary (ha : q.Allows s (c.past k) x.call) {id : String}
    (hx : x.obituary = some id) : c.Erased k id := by
  obtain ⟨call, answer⟩ := x
  cases call with
  | publish e =>
    simp only [Exchange.obituary, Option.ite_none_right_eq_some] at hx
    obtain ⟨tenant, id', hid, hlast⟩ := ha hx.1
    rw [hx.2] at hid
    cases hid
    exact ⟨tenant, hlast⟩
  | _ => cases hx

theorem erased_cases {j : Nat} {id : String} (hlog : c'.log = ⟨k, x⟩ :: c.log)
    (h : c'.Erased j id) : (j ≠ k ∧ c.Erased j id) ∨
      j = k ∧ ∃ tenant, x = ⟨.delete tenant id, .ok ()⟩ := by
  obtain ⟨tenant, h⟩ := h
  rcases last_cases hlog h with ⟨hj, hlast⟩ | ⟨hj, hx⟩
  · exact .inl ⟨hj, tenant, hlast⟩
  · exact .inr ⟨hj, tenant, hx⟩

/-- No id is removed twice. -/
theorem not_removed (hr : c.Rooted) (hx : Outcome c.world x c'.world) {id : String}
    (hid : x.removal = some id) : ¬ ∃ e ∈ c.log, e.exchange.removal = some id := by
  rintro ⟨e, he, hgone⟩
  obtain ⟨r, hget⟩ := hx.of_removal hid
  rw [(hr.gone e he id hgone).1] at hget
  cases hget

theorem Mourned.asks (h : c.Mourned) (hr : c.Rooted) (ha : q.Allows s (c.past k) x.call)
    (hx : Outcome c.world x c'.world) (hlog : c'.log = ⟨k, x⟩ :: c.log) : c'.Mourned := by
  constructor
  · intro id
    rw [obituaries_cons hlog]
    split
    · rename_i hid
      have hnone := h.pending k id (erased_of_obituary ha hid)
      omega
    · exact h.once id
  · intro id hne
    rw [obituaries_cons hlog] at hne
    rw [hlog]
    obtain ⟨e, he, hremoval⟩ : ∃ e ∈ c.log, e.exchange.removal = some id := by
      by_cases hid : x.obituary = some id
      · exact removal_of_erased (erased_of_obituary ha hid)
      · rw [if_neg hid] at hne
        exact h.after id hne
    exact ⟨e, List.mem_cons_of_mem _ he, hremoval⟩
  · intro j id hj
    rw [obituaries_cons hlog]
    rcases erased_cases hlog hj with ⟨hjk, hold⟩ | ⟨rfl, tenant, rfl⟩
    · rw [h.pending j id hold, if_neg]
      intro hid
      exact hjk (h.single j k id hold (erased_of_obituary ha hid))
    · rw [if_neg (by simp [Exchange.obituary])]
      exact Decidable.byContradiction fun hne => not_removed hr hx rfl (h.after id hne)
  · intro j l id hj hl
    rcases erased_cases hlog hj with ⟨-, hoj⟩ | ⟨rfl, tenant, rfl⟩
    · rcases erased_cases hlog hl with ⟨-, hol⟩ | ⟨rfl, tenant, rfl⟩
      · exact h.single j l id hoj hol
      · exact absurd (removal_of_erased hoj) (not_removed hr hx rfl)
    · rcases erased_cases hlog hl with ⟨-, hol⟩ | ⟨rfl, -⟩
      · exact absurd (removal_of_erased hol) (not_removed hr hx rfl)
      · rfl

theorem mourned_step {m : Move .ofStore} (h : c.Mourned) (hc : c.Conducted) (hr : c.Rooted)
    (hs : c.step .ofStore m = some c') : c'.Mourned := by
  rcases outcome_of_step hc hr.filed hs with
    ⟨hlog, -, -⟩ | ⟨k, q, s, x, hk, ha, hx, hlog, -⟩
  · have hobituaries : c'.obituaries = c.obituaries := by
      funext id
      simp only [obituaries, hlog]
    have herased : c'.Erased = c.Erased := by
      funext k id
      simp only [Erased, last, past, hlog]
    constructor
    · rw [hobituaries]
      exact h.once
    · rw [hobituaries, hlog]
      exact h.after
    · rw [hobituaries, herased]
      exact h.pending
    · rw [herased]
      exact h.single
  · exact h.asks hr ha hx hlog

theorem mourned_start : (start Store.empty).Mourned where
  once := by simp [obituaries, start]
  after := by simp [obituaries, start]
  pending := by simp [obituaries, start]
  single := by simp [Erased, last, past, pastOf, start]

theorem mourned_of_reaches (h : Reaches .ofStore (start .empty) c) : c.Mourned :=
  h.induct (fun _ _ _ hd hm hs => mourned_step hm (conducted_of_reaches hd) (rooted_of_reaches hd) hs)
    mourned_start

end

end Config

end Fleet.Service
