import Fleet.Plane

/-!
# Operations side by side

Any number of operations run over the same surroundings. Each call is one step, and the steps of
different operations come in any order. `Config.step` makes one move: an operation begins, an
operation makes its next call, or the surroundings change by chance. What was asked and answered is
kept in a log, the latest first, and `Config.past` is the part of it that belongs to one operation.

* `step_answer`: what a call leaves behind.
* `Reaches.induct`: what every move of a run keeps holds at its end.
* `Surroundings.ofStore`: a store answers the calls to it; what others answer is left open.
* `Surroundings.ofPlane`: a control plane answers every call; tasks of its providers may be set to
  fail and may recover. Its runs are runs over its store (`reaches_store`). -/

namespace Fleet.Service

structure Exchange where
  call : Call
  answer : call.Answer

/-- An exchange of one of the operations. -/
structure Entry where
  operation : Nat
  exchange : Exchange

/-- What operations run in. `Open` is what an answer leaves open, and `Chance` is what may happen
without a call. -/
structure Surroundings (W : Type) where
  Open : Type
  serve : Open → W → (c : Call) → c.Answer × W
  Chance : Type
  befall : Chance → W → W

/-- An operation under way: how it was asked for, and what is left of it. -/
structure Operation where
  limit : UInt64
  caller : Option Caller
  request : Request
  stamp : Stamp
  rest : Procedure Reply

/-- An operation that has done nothing yet. -/
def Operation.fresh (limit : UInt64) (caller : Option Caller) (request : Request) (stamp : Stamp) :
    Operation :=
  { limit, caller, request, stamp, rest := procedure limit caller stamp request }

/-- A move of the whole. -/
inductive Move {W : Type} (S : Surroundings W) where
  /-- An operation begins. -/
  | begin (limit : UInt64) (caller : Option Caller) (request : Request) (stamp : Stamp)
  /-- An operation makes its next call. -/
  | answer (k : Nat) (x : S.Open)
  /-- The surroundings change by chance. -/
  | chance (d : S.Chance)

/-- Where the whole stands: the world, the operations in the order in which they began, and what was
asked and answered so far, the latest first. -/
structure Config (W : Type) where
  world : W
  operations : List Operation := []
  log : List Entry := []

/-- The exchanges of one operation, the latest first. -/
def pastOf (k : Nat) (log : List Entry) : List Exchange :=
  log.filterMap fun e => if e.operation = k then some e.exchange else none

theorem pastOf_cons_self (k : Nat) (x : Exchange) (log : List Entry) :
    pastOf k (⟨k, x⟩ :: log) = x :: pastOf k log := by
  simp [pastOf]

theorem pastOf_cons_other {j k : Nat} (h : j ≠ k) (x : Exchange) (log : List Entry) :
    pastOf j (⟨k, x⟩ :: log) = pastOf j log := by
  simp [pastOf, Ne.symm h]

theorem mem_pastOf {k : Nat} {log : List Entry} {x : Exchange} :
    x ∈ pastOf k log ↔ ⟨k, x⟩ ∈ log := by
  unfold pastOf
  rw [List.mem_filterMap]
  constructor
  · rintro ⟨⟨j, y⟩, he, h⟩
    simp only [Option.ite_none_right_eq_some, Option.some.injEq] at h
    obtain ⟨rfl, rfl⟩ := h
    exact he
  · intro h
    exact ⟨_, h, by simp⟩

namespace Config

variable {W : Type} (S : Surroundings W)

def start (w : W) : Config W := { world := w }

def past (c : Config W) (k : Nat) : List Exchange := pastOf k c.log

def last (c : Config W) (k : Nat) : Option Exchange := (c.past k).head?

/-- After a call of operation `k`, where `o` is what it was before. -/
def answered (c : Config W) (k : Nat) (o : Operation) (call : Call)
    (next : call.Answer → Procedure Reply) (x : S.Open) : Config W :=
  let a := S.serve x c.world call
  { world := a.2
    operations := c.operations.set k { o with rest := next a.1 }
    log := ⟨k, call, a.1⟩ :: c.log }

/-- Makes a move, if there is such a move. The id for what an operation may create is a new one. -/
def step (c : Config W) : Move S → Option (Config W)
  | .begin limit caller request stamp =>
    if c.operations.all (·.stamp.instanceId ≠ stamp.instanceId) then
      some { c with operations := c.operations ++ [.fresh limit caller request stamp] }
    else none
  | .answer k x =>
    match c.operations[k]? with
    | none => none
    | some o =>
      match o.rest with
      | .call call next => some (c.answered S k o call next x)
      | _ => none
  | .chance d => some { c with world := S.befall d c.world }

def run (c : Config W) : List (Move S) → Option (Config W)
  | [] => some c
  | m :: moves => (c.step S m).bind (run · moves)

/-- Whether some moves lead from one configuration to another. -/
def Reaches (c c' : Config W) : Prop := ∃ moves, c.run S moves = some c'

variable {S}

theorem step_begin {c c' : Config W} {limit : UInt64} {caller : Option Caller} {request : Request}
    {stamp : Stamp} (h : c.step S (.begin limit caller request stamp) = some c') :
    (∀ o ∈ c.operations, o.stamp.instanceId ≠ stamp.instanceId) ∧
      c' = { c with operations := c.operations ++ [.fresh limit caller request stamp] } := by
  simp only [step] at h
  split at h
  · rename_i hall
    cases h
    exact ⟨by simpa using hall, rfl⟩
  · cases h

theorem step_answer {c c' : Config W} {k : Nat} {x : S.Open}
    (h : c.step S (.answer k x) = some c') :
    ∃ o call next, c.operations[k]? = some o ∧ o.rest = .call call next ∧
      c' = c.answered S k o call next x := by
  simp only [step] at h
  split at h
  · cases h
  · rename_i o ho
    split at h
    · rename_i call next hr
      cases h
      exact ⟨o, call, next, ho, hr, rfl⟩
    · cases h

theorem Reaches.refl (c : Config W) : Reaches S c c := ⟨[], rfl⟩

/-- What every move of a run keeps holds at its end. -/
theorem Reaches.induct {P : Config W → Prop} {c c' : Config W}
    (hstep : ∀ d m d', Reaches S c d → P d → d.step S m = some d' → P d') (h : Reaches S c c')
    (hc : P c) : P c' := by
  obtain ⟨moves, h⟩ := h
  induction moves generalizing c with
  | nil =>
    cases h
    exact hc
  | cons m moves ih =>
    obtain ⟨d, hd, h⟩ := Option.bind_eq_some_iff.1 h
    refine ih (fun e n e' he => hstep e n e' ?_) (hstep c m d (.refl c) hc hd) h
    obtain ⟨before, hbefore⟩ := he
    exact ⟨m :: before, by simp [run, hd, hbefore]⟩

theorem Reaches.step {c d d' : Config W} {m : Move S} (h : Reaches S c d)
    (hs : d.step S m = some d') : Reaches S c d' := by
  obtain ⟨moves, h⟩ := h
  refine ⟨moves ++ [m], ?_⟩
  induction moves generalizing c with
  | nil =>
    cases h
    simp [run, hs]
  | cons n moves ih =>
    obtain ⟨e, he, h⟩ := Option.bind_eq_some_iff.1 h
    simp only [List.cons_append, run, he, Option.bind_some]
    exact ih h

theorem Reaches.trans {c d e : Config W} (h : Reaches S c d) (h' : Reaches S d e) :
    Reaches S c e :=
  h'.induct (P := Reaches S c) (fun _ _ _ _ hd hs => hd.step hs) h

/-! ## What was asked last -/

theorem mem_of_last {c : Config W} {k : Nat} {x : Exchange} (h : c.last k = some x) :
    ⟨k, x⟩ ∈ c.log := mem_pastOf.1 (List.mem_of_head? h)

/-- What an operation asked last was asked before the latest call, or is that call. -/
theorem last_cases {c c' : Config W} {j k : Nat} {x y : Exchange} (hlog : c'.log = ⟨k, x⟩ :: c.log)
    (h : c'.last j = some y) : (j ≠ k ∧ c.last j = some y) ∨ j = k ∧ x = y := by
  simp only [last, past, hlog] at h
  by_cases hj : j = k
  · subst hj
    rw [pastOf_cons_self, List.head?_cons] at h
    exact .inr ⟨rfl, Option.some.inj h⟩
  · rw [pastOf_cons_other hj] at h
    exact .inl ⟨hj, h⟩

/-! ## What only grows -/

theorem log_suffix_of_step {c c' : Config W} {m : Move S} (h : c.step S m = some c') :
    c.log <:+ c'.log := by
  cases m with
  | begin limit caller request stamp =>
    obtain ⟨-, rfl⟩ := step_begin h
    exact List.suffix_rfl
  | answer k x =>
    obtain ⟨o, call, next, -, -, rfl⟩ := step_answer h
    exact List.suffix_cons _ _
  | chance d =>
    cases h
    exact List.suffix_rfl

theorem Reaches.log_suffix {c c' : Config W} (h : Reaches S c c') : c.log <:+ c'.log :=
  h.induct (P := fun d => c.log <:+ d.log)
    (fun _ _ _ _ hd hs => hd.trans (log_suffix_of_step hs)) List.suffix_rfl

/-- The configuration with another view of its world. -/
def map {V : Type} (f : W → V) (c : Config W) : Config V := { c with world := f c.world }

end Config

/-! ## A store, with all else left open -/

/-- How a store answers the calls to it. All other calls are answered as `outside` says. -/
def serveStore (outside : (c : Call) → c.Answer) (s : Store) : (c : Call) → c.Answer × Store
  | .insert i =>
    match s.insert i with
    | .ok (version, s') => (.ok version, s')
    | .error f => (.error f, s)
  | .update i =>
    match s.update i with
    | .ok (version, s') => (.ok version, s')
    | .error f => (.error f, s)
  | .find tenant id => (s.find tenant id, s)
  | .findBySlug tenant slug => (s.findBySlug tenant slug, s)
  | .list tenant q => (s.list tenant q, s)
  | .delete tenant id =>
    match s.delete tenant id with
    | .ok s' => (.ok (), s')
    | .error f => (.error f, s)
  | .count tenant => (.ok (s.count tenant), s)
  | c => (outside c, s)

/-- A store, with answers of providers, directory and bus of any kind at any time. -/
def Surroundings.ofStore : Surroundings Store where
  Open := (c : Call) → c.Answer
  serve := serveStore
  Chance := Empty
  befall := nofun

/-! ## A control plane -/

/-- What may happen to a control plane without a call. -/
inductive Weather where
  | fails (provider : String) (task : Provider.Task)
  | recovers (provider : String) (task : Provider.Task)

/-- A control plane whose providers are called by operations only. -/
def Surroundings.ofPlane : Surroundings Plane where
  Open := Unit
  serve _ p c := ((p.serve c).1, (p.serve c).2.1)
  Chance := Weather
  befall
    | .fails name task, p => { p with directory := p.directory.adjust name (·.failOn task) }
    | .recovers name task, p => { p with directory := p.directory.adjust name (·.recover task) }

theorem serveStore_plane (p : Plane) (c : Call) :
    serveStore (fun c => (p.serve c).1) p.store c = ((p.serve c).1, (p.serve c).2.1.store) := by
  cases c with
  | insert i =>
    simp only [serveStore, Plane.serve]
    cases p.store.insert i <;> rfl
  | update i =>
    simp only [serveStore, Plane.serve]
    cases p.store.update i <;> rfl
  | delete tenant id =>
    simp only [serveStore, Plane.serve]
    cases p.store.delete tenant id <;> rfl
  | _ => rfl

/-- What runs over a control plane runs over its store. -/
theorem reaches_store {c c' : Config Plane} (h : Config.Reaches .ofPlane c c') :
    Config.Reaches .ofStore (c.map (·.store)) (c'.map (·.store)) := by
  refine h.induct (P := fun d => Config.Reaches .ofStore (c.map (·.store)) (d.map (·.store))) ?_
    (.refl _)
  intro d m d' _ hd hs
  cases m with
  | begin limit caller request stamp =>
    refine hd.step (m := .begin limit caller request stamp) ?_
    obtain ⟨hfresh, rfl⟩ := Config.step_begin hs
    simpa [Config.step, Config.map] using hfresh
  | answer k x =>
    obtain ⟨o, call, next, ho, hr, rfl⟩ := Config.step_answer hs
    refine hd.step (m := .answer k fun c => (d.world.serve c).1) ?_
    have hserve := serveStore_plane d.world call
    simp only [Config.step, Config.map, ho, hr, Config.answered, Surroundings.ofStore,
      Surroundings.ofPlane, hserve]
  | chance w =>
    cases w <;> (cases hs; exact hd)

/-! ## Surroundings where all goes well -/

/-- Answers of a directory, of providers and of a bus where all goes well. -/
def willing : (c : Call) → c.Answer
  | .resolve name => .ok (name.getD "local")
  | .lookup _ => .ok ()
  | .command _ c =>
    match c with
    | .provision o => .ok { ref := "local-" ++ o.instanceId }
    | .deprovision _ | .start _ | .stop _ | .restart _ | .scale _ _ => .ok ()
    | .status _ => .error (.unsupported "status")
  | .publish _ => .ok ()
  | .insert i => .error (.instanceExists i.id)
  | .update i => .error (.noInstance i.id)
  | .find _ id => .error (.noInstance id)
  | .findBySlug _ slug => .error (.noSlug slug)
  | .list _ _ => .ok {}
  | .delete _ id => .error (.noInstance id)
  | .count _ => .ok 0

/-- An operation for a user of one tenant, whose new id and whose event's id are given. -/
def asking {W : Type} {S : Surroundings W} (id event : String) (request : Request) : Move S :=
  .begin 0 (some (.ofTenant "acme" "user-1")) request
    { instanceId := id, eventId := event, clock := fun n => { seconds := n } }

/-- Operation `k` creates an instance, from its beginning to its event. -/
def creation {W : Type} {S : Surroundings W} (o : S.Open) (k : Nat) (id event name : String) :
    List (Move S) :=
  asking id event (.create { name, image := "nginx" }) :: List.replicate 5 (.answer k o)

end Fleet.Service
