import Fleet.Proofs.Chronicle

/-!
# A repository that refuses writes

The repository of a control plane may refuse any write, and tells why in its own words
(`Plane.serveUnless`). A request is then a course of moments, each of them a call, the control plane
that it is made of, and what is seen of it (`Plane.attempt`). Where nothing is refused, that is how a
request is performed:

    p.perform caller stamp q = (reply of the course, the control plane after it)      (perform_eq_attempt)
    p.endure (deeds.map fun d => (d, [])) = (p.live deeds).1                                 (endure_nil)

Whatever is refused, records stay under their ids (`filed_endure`). -/

namespace Fleet

open Service Procedure

/-- A moment of a request: a call, the control plane that it is made of, and what is seen of it. -/
structure Moment where
  plane : Plane
  exchange : Exchange
  seen : List Notice

/-- The event that is published at a moment. No event is published on a closed bus. -/
def Moment.published (m : Moment) : Option Event :=
  match m.exchange.call with
  | .publish e => if m.plane.bus.closed then none else some e
  | _ => none

def Service.Call.isWrite : Call → Bool
  | .insert _ | .update _ | .delete _ _ => true
  | _ => false

/-- Whether the store took a record that is marked failed. -/
def Service.Exchange.marks (x : Exchange) : Bool := x.written.any (·.state = .failed)

/-- What becomes of a procedure: its result, its moments, and the control plane after them. -/
structure Course (α : Type) where
  reply : Except Failure α
  moments : List Moment
  after : Plane

namespace Course

variable {α : Type}

/-- The course with a moment before all others. -/
def since (m : Moment) (c : Course α) : Course α := { c with moments := m :: c.moments }

def events (c : Course α) : List Event := c.moments.filterMap Moment.published

/-- Whether the store took a record that is marked failed meanwhile. -/
def marks (c : Course α) : Bool := c.moments.any (·.exchange.marks)

end Course

namespace Plane

/-- Serves a call, unless it is a write that the repository refuses. -/
def serveUnless (p : Plane) (refusal : Option String) (c : Call) : c.Answer × Plane × List Notice :=
  match refusal, c with
  | some text, .insert _ => (.error (.reported .storage text), p, [])
  | some text, .update _ => (.error (.reported .storage text), p, [])
  | some text, .delete _ _ => (.error (.reported .storage text), p, [])
  | _, c => p.serve c

/-- Carries a procedure out; for each call the repository may refuse what it writes. -/
def attempt {α : Type} : Procedure α → List (Option String) → Plane → Course α
  | .done a, _, p => ⟨.ok a, [], p⟩
  | .fail f, _, p => ⟨.error f, [], p⟩
  | .call c next, refusals, p =>
    let (answer, after, seen) := p.serveUnless (refusals.headD none) c
    (attempt (next answer) refusals.tail after).since ⟨p, ⟨c, answer⟩, seen⟩

/-- Carries out deeds one after the other, each with what the repository refuses of it. -/
def endure (p : Plane) : List (Deed × List (Option String)) → Plane
  | [] => p
  | (.request caller stamp q, refusals) :: rest =>
    (attempt (procedure p.settings.maxInstances caller stamp q) refusals p).after.endure rest
  | (.weather d, _) :: rest => (p.act (.weather d)).1.endure rest

variable {p : Plane}

/-! ## Where nothing is refused -/

theorem serveUnless_none (p : Plane) (c : Call) : p.serveUnless none c = p.serve c := by
  cases c <;> rfl

theorem attempt_nil {α : Type} (pr : Procedure α) (p : Plane) :
    (attempt pr [] p).reply = (p.carry pr).1 ∧ (attempt pr [] p).after = (p.carry pr).2.1 := by
  induction pr generalizing p with
  | done a => exact ⟨rfl, rfl⟩
  | fail f => exact ⟨rfl, rfl⟩
  | call c next ih =>
    have hserve : p.serveUnless (([] : List (Option String)).headD none) c = p.serve c :=
      p.serveUnless_none c
    simp only [attempt, hserve]
    exact ih _ _

/-- A request is performed as it is attempted where nothing is refused. -/
theorem perform_eq_attempt (p : Plane) (caller : Option Caller) (stamp : Stamp) (q : Request) :
    p.perform caller stamp q =
      ((attempt (procedure p.settings.maxInstances caller stamp q) [] p).reply,
        (attempt (procedure p.settings.maxInstances caller stamp q) [] p).after) := by
  obtain ⟨hreply, hafter⟩ := attempt_nil (procedure p.settings.maxInstances caller stamp q) p
  rw [perform_eq, hreply, hafter]

/-- Where nothing is refused, deeds are endured as they are lived through. -/
theorem endure_nil (p : Plane) (deeds : List Deed) :
    p.endure (deeds.map fun d => (d, [])) = (p.live deeds).1 := by
  induction deeds generalizing p with
  | nil => rfl
  | cons d rest ih =>
    cases d with
    | request caller stamp q =>
      have hafter := (attempt_nil (procedure p.settings.maxInstances caller stamp q) p).2
      simp only [List.map_cons, endure, hafter]
      exact ih _
    | weather d => exact ih _

/-! ## What a write comes to -/

/-- What is not a write is served as ever. -/
theorem serveUnless_read (p : Plane) (refusal : Option String) {c : Call} (hc : c.isWrite = false) :
    p.serveUnless refusal c = p.serve c := by
  cases refusal with
  | none => exact p.serveUnless_none c
  | some text =>
    cases c with
    | insert i | update i | delete tenant id => cases hc
    | _ => rfl

theorem serveUnless_insert (p : Plane) (refusal : Option String) (i : Instance) :
    (∃ f, p.serveUnless refusal (.insert i) = (.error f, p, []) ∧ f.kind.isRefusal = true) ∨
      p.serveUnless refusal (.insert i) =
        (.ok 1, { p with store := p.store.add { i with version := 1 } }, []) := by
  cases refusal with
  | some text => exact .inl ⟨_, rfl, rfl⟩
  | none =>
    simp only [serveUnless, serve]
    rcases p.store.insert_cases i with ⟨hs, -, -⟩ | ⟨f, hs, hf⟩
    · rw [hs]
      exact .inr rfl
    · rw [hs]
      exact .inl ⟨f, rfl, hf⟩

theorem serveUnless_update (p : Plane) (refusal : Option String) (i : Instance) :
    (∃ f, p.serveUnless refusal (.update i) = (.error f, p, []) ∧ f.kind.isRefusal = true) ∨
      ∃ s, p.serveUnless refusal (.update i) = (.ok (i.version + 1), { p with store := s }, []) ∧
        s.records = p.store.records.insert i.id { i with version := i.version + 1 } := by
  cases refusal with
  | some text => exact .inl ⟨_, rfl, rfl⟩
  | none =>
    simp only [serveUnless, serve]
    rcases p.store.update_cases i with ⟨s, hs⟩ | ⟨f, hs, hf⟩
    · rw [hs]
      obtain ⟨stored, -, -, -, -, rfl⟩ := Store.update_eq_ok hs
      exact .inr ⟨_, rfl, rfl⟩
    · rw [hs]
      exact .inl ⟨f, rfl, hf⟩

theorem serveUnless_delete (p : Plane) (refusal : Option String) (tenant id : String) :
    (∃ f, p.serveUnless refusal (.delete tenant id) = (.error f, p, []) ∧ f.kind.isRefusal = true) ∨
      ∃ s, p.serveUnless refusal (.delete tenant id) = (.ok (), { p with store := s }, []) ∧
        s.records = p.store.records.erase id := by
  cases refusal with
  | some text => exact .inl ⟨_, rfl, rfl⟩
  | none =>
    simp only [serveUnless, serve]
    cases hs : p.store.delete tenant id with
    | ok s =>
      obtain ⟨stored, -, -, rfl⟩ := Store.delete_eq_ok hs
      exact .inr ⟨_, rfl, rfl⟩
    | error f =>
      refine .inl ⟨f, rfl, ?_⟩
      unfold Store.delete at hs
      split at hs
      · cases hs
        rfl
      · cases hs

/-! ## Records stay under their ids -/

theorem filed_serveUnless (hf : p.store.Filed) (refusal : Option String) (c : Call) :
    (p.serveUnless refusal c).2.1.store.Filed := by
  have hserve : (p.serve c).2.1.store.Filed := by
    have houtcome := serve_outcome hf (fun c => (p.serve c).1) c
    rw [serveStore_plane] at houtcome
    exact houtcome.filed hf
  cases refusal with
  | none => rw [serveUnless_none]; exact hserve
  | some text =>
    cases c with
    | insert i => exact hf
    | update i => exact hf
    | delete tenant id => exact hf
    | _ => exact hserve

theorem filed_attempt {α : Type} (pr : Procedure α) (refusals : List (Option String))
    (hf : p.store.Filed) : (attempt pr refusals p).after.store.Filed := by
  induction pr generalizing refusals p with
  | done a => exact hf
  | fail f => exact hf
  | call c next ih => exact ih _ _ (filed_serveUnless hf _ c)

theorem filed_endure (hf : p.store.Filed) (trials : List (Deed × List (Option String))) :
    (p.endure trials).store.Filed := by
  induction trials generalizing p with
  | nil => exact hf
  | cons trial rest ih =>
    obtain ⟨d, refusals⟩ := trial
    cases d with
    | request caller stamp q => exact ih (filed_attempt _ refusals hf)
    | weather d =>
      refine ih ?_
      have hstore : (p.act (.weather d)).1.store = p.store := by cases d <;> rfl
      rw [hstore]
      exact hf

end Plane

end Fleet
