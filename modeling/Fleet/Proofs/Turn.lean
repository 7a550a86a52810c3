import Fleet.Proofs.Conduct

/-!
# Moves as the log shows them

The operations of a run keep to what is allowed, and no two have the same stamp (`Conducted`). So every
move either asks nothing or asks what the request of an operation allows (`step_turn`). -/

namespace Fleet.Service

namespace Config

variable {W : Type} {S : Surroundings W}

/-- How an operation was asked for: its request and its stamp. -/
def asked (c : Config W) (k : Nat) : Option (Request × Stamp) :=
  c.operations[k]?.map fun o => (o.request, o.stamp)

theorem view_past {c : Config W} {k : Nat} {r : Instance} (h : view (c.past k) = some r) :
    ∃ e ∈ c.log, e.exchange.sight = some r := by
  obtain ⟨x, hx, hs⟩ := view_mem h
  exact ⟨⟨k, x⟩, mem_pastOf.1 hx, hs⟩

/-- What holds of the operations of a run: each keeps to what its request allows, no two have the
same stamp, and what one inserts has the id of its own stamp. -/
structure Conducted (c : Config W) : Prop where
  keeps : ∀ (k : Nat) (o : Operation), c.operations[k]? = some o →
    o.rest.Keeps (o.request.Allows o.stamp) (c.past k)
  known : ∀ e ∈ c.log, e.operation < c.operations.length
  apart : ∀ j k q q' s s', c.asked j = some (q, s) → c.asked k = some (q', s') →
    s.instanceId = s'.instanceId → j = k
  named : ∀ e ∈ c.log, ∀ i, e.exchange.call = .insert i →
    ∃ q s, c.asked e.operation = some (q, s) ∧ i.id = s.instanceId

/-- A move as the log shows it: nothing is asked, or operation `k` has asked what its request
allows. -/
inductive Turn (S : Surroundings W) (c c' : Config W) : Prop
  | quiet (hlog : c'.log = c.log) (hworld : c'.world = c.world ∨ ∃ d, c'.world = S.befall d c.world)
      (hasked : ∀ k q s, c'.asked k = some (q, s) → c.asked k = some (q, s) ∨ c.past k = [])
  | asks (k : Nat) (q : Request) (s : Stamp) (x : Exchange) (o : S.Open)
      (hk : c.asked k = some (q, s)) (ha : q.Allows s (c.past k) x.call)
      (hserve : S.serve o c.world x.call = (x.answer, c'.world))
      (hlog : c'.log = ⟨k, x⟩ :: c.log) (hasked : c'.asked = c.asked)

theorem conducted_start (w : W) : (start w).Conducted where
  keeps := by simp [start]
  known := by simp [start]
  apart := by simp [start, asked]
  named := by simp [start]

theorem past_of_length_le {c : Config W} (hc : c.Conducted) {k : Nat}
    (hk : c.operations.length ≤ k) : c.past k = [] := by
  refine List.eq_nil_iff_forall_not_mem.2 fun x hx => ?_
  have hlt := hc.known _ (mem_pastOf.1 hx)
  simp only at hlt
  omega

theorem asked_append_of_lt (c : Config W) (o : Operation) {k : Nat}
    (hk : k < c.operations.length) :
    ({ c with operations := c.operations ++ [o] } : Config W).asked k = c.asked k := by
  simp only [asked]
  rw [List.getElem?_append_left hk]

theorem asked_append_length (c : Config W) (o : Operation) :
    ({ c with operations := c.operations ++ [o] } : Config W).asked c.operations.length
      = some (o.request, o.stamp) := by
  simp [asked]

theorem asked_lt {c : Config W} {k : Nat} {a : Request × Stamp} (h : c.asked k = some a) :
    k < c.operations.length := by
  simp only [asked, Option.map_eq_some_iff] at h
  obtain ⟨o, ho, -⟩ := h
  exact (List.getElem?_eq_some_iff.1 ho).1

/-- A call leaves all operations asked for as they were. -/
theorem asked_answered {c : Config W} {k : Nat} {o : Operation} (ho : c.operations[k]? = some o)
    (call : Call) (next : call.Answer → Procedure Reply) (x : S.Open) :
    (c.answered S k o call next x).asked = c.asked := by
  funext j
  simp only [asked, answered]
  rw [List.getElem?_set]
  by_cases hj : k = j
  · subst hj
    rw [if_pos rfl, if_pos (List.getElem?_eq_some_iff.1 ho).1, ho]
    rfl
  · rw [if_neg hj]

/-- After an operation began, an operation is one from before or the new one. -/
theorem asked_append_cases {c : Config W} {o : Operation} {k : Nat} {a : Request × Stamp}
    (h : ({ c with operations := c.operations ++ [o] } : Config W).asked k = some a) :
    c.asked k = some a ∨ k = c.operations.length ∧ a = (o.request, o.stamp) := by
  by_cases hlt : k < c.operations.length
  · left
    rw [← asked_append_of_lt c o hlt]
    exact h
  · have hk : k = c.operations.length := by
      have hle := asked_lt h
      simp only [List.length_append, List.length_singleton] at hle
      omega
    subst hk
    rw [asked_append_length] at h
    exact .inr ⟨rfl, (Option.some.inj h).symm⟩

theorem asked_stamp_ne {c : Config W} {id : String}
    (h : ∀ o ∈ c.operations, o.stamp.instanceId ≠ id) {k : Nat} {q : Request} {s : Stamp}
    (hk : c.asked k = some (q, s)) : s.instanceId ≠ id := by
  simp only [asked, Option.map_eq_some_iff] at hk
  obtain ⟨o, ho, he⟩ := hk
  cases he
  exact h o (List.mem_of_getElem? ho)

theorem conducted_begin {c : Config W} (hc : c.Conducted) (limit : UInt64)
    (caller : Option Caller) (request : Request) (stamp : Stamp)
    (hfresh : ∀ o ∈ c.operations, o.stamp.instanceId ≠ stamp.instanceId) :
    ({ c with operations := c.operations ++ [.fresh limit caller request stamp] } :
      Config W).Conducted where
  keeps := by
    intro k o ho
    rw [List.getElem?_append] at ho
    split at ho
    · exact hc.keeps k o ho
    · rename_i hk
      have hmem := List.mem_of_getElem? ho
      rw [List.mem_singleton] at hmem
      subst hmem
      change Procedure.Keeps _ _ (c.past k)
      rw [past_of_length_le hc (Nat.le_of_not_lt hk)]
      exact Procedure.procedure_keeps limit caller stamp request
  known := by
    intro e he
    have hlt := hc.known e he
    simp only [List.length_append, List.length_singleton]
    omega
  apart := by
    intro j k q q' s s' hj hk hs
    rcases asked_append_cases hj with hj | ⟨ej, hj⟩
    · rcases asked_append_cases hk with hk | ⟨-, hk⟩
      · exact hc.apart j k q q' s s' hj hk hs
      · cases hk
        exact absurd hs (asked_stamp_ne hfresh hj)
    · rcases asked_append_cases hk with hk | ⟨ek, -⟩
      · cases hj
        exact absurd hs.symm (asked_stamp_ne hfresh hk)
      · rw [ej, ek]
  named := by
    intro e he i hi
    obtain ⟨q, s, hk, hid⟩ := hc.named e he i hi
    exact ⟨q, s, (asked_append_of_lt c _ (hc.known e he)).trans hk, hid⟩

theorem conducted_answered {c : Config W} (hc : c.Conducted) {k : Nat} {o : Operation}
    {call : Call} {next : call.Answer → Procedure Reply} (ho : c.operations[k]? = some o)
    (hr : o.rest = .call call next) (x : S.Open) : (c.answered S k o call next x).Conducted where
  keeps := by
    have hkeeps := hc.keeps k o ho
    rw [hr] at hkeeps
    intro j o' hj
    change Procedure.Keeps _ _ (pastOf j (⟨k, _⟩ :: c.log))
    simp only [answered, List.getElem?_set] at hj
    by_cases hjk : k = j
    · subst hjk
      rw [if_pos rfl, if_pos (List.getElem?_eq_some_iff.1 ho).1] at hj
      cases hj
      rw [pastOf_cons_self]
      exact hkeeps.2 _
    · rw [if_neg hjk] at hj
      rw [pastOf_cons_other (Ne.symm hjk)]
      exact hc.keeps j o' hj
  known := by
    intro e he
    simp only [answered, List.length_set]
    rcases List.mem_cons.1 he with rfl | he
    · exact (List.getElem?_eq_some_iff.1 ho).1
    · exact hc.known e he
  apart := by
    rw [asked_answered ho]
    exact hc.apart
  named := by
    have hkeeps := hc.keeps k o ho
    rw [hr] at hkeeps
    rw [asked_answered ho]
    intro e he i hi
    rcases List.mem_cons.1 he with rfl | he
    · have hi : call = .insert i := hi
      subst hi
      exact ⟨o.request, o.stamp, by simp [asked, ho], hkeeps.1.1⟩
    · exact hc.named e he i hi

theorem conducted_step {c c' : Config W} {m : Move S} (hc : c.Conducted)
    (h : c.step S m = some c') : c'.Conducted := by
  cases m with
  | begin limit caller request stamp =>
    obtain ⟨hfresh, rfl⟩ := step_begin h
    exact conducted_begin hc limit caller request stamp hfresh
  | answer k x =>
    obtain ⟨o, call, next, ho, hr, rfl⟩ := step_answer h
    exact conducted_answered hc ho hr x
  | chance d =>
    cases h
    exact ⟨hc.keeps, hc.known, hc.apart, hc.named⟩

theorem conducted_of_reaches {w : W} {c : Config W} (h : Reaches S (start w) c) : c.Conducted :=
  h.induct (fun _ _ _ _ hd hs => conducted_step hd hs) (conducted_start w)

/-- An operation stays as it was asked for. -/
theorem asked_step {c c' : Config W} {m : Move S} (h : c.step S m = some c') {k : Nat}
    {a : Request × Stamp} (hk : c.asked k = some a) : c'.asked k = some a := by
  cases m with
  | begin limit caller request stamp =>
    obtain ⟨-, rfl⟩ := step_begin h
    rw [asked_append_of_lt c _ (asked_lt hk)]
    exact hk
  | answer k x =>
    obtain ⟨o, call, next, ho, hr, rfl⟩ := step_answer h
    rw [asked_answered ho]
    exact hk
  | chance d =>
    cases h
    exact hk

theorem step_turn {c c' : Config W} {m : Move S} (hc : c.Conducted) (h : c.step S m = some c') :
    Turn S c c' := by
  cases m with
  | begin limit caller request stamp =>
    obtain ⟨-, rfl⟩ := step_begin h
    refine .quiet rfl (.inl rfl) fun k q s hk => ?_
    by_cases hlt : k < c.operations.length
    · exact .inl ((asked_append_of_lt c _ hlt).symm.trans hk)
    · exact .inr (past_of_length_le hc (Nat.le_of_not_lt hlt))
  | answer k x =>
    obtain ⟨o, call, next, ho, hr, rfl⟩ := step_answer h
    have hkeeps := hc.keeps k o ho
    rw [hr] at hkeeps
    refine .asks k o.request o.stamp ⟨call, _⟩ x ?_ hkeeps.1 rfl rfl (asked_answered ho _ _ _)
    simp [asked, ho]
  | chance d =>
    cases h
    exact .quiet rfl (.inr ⟨d, rfl⟩) fun k q s hk => .inl hk

end Config

end Fleet.Service
