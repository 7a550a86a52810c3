import Fleet.Bus.Basic

/-!
# Delivery

An event is published to the subscriptions that want it at that moment, one after the other in the
order of the table. A handler that publishes within its reaction opens a delivery inside the one under
way, so deliveries are levels on a stack. Handlers that fail do not stop the delivery; the first
failure is its result.

`run` goes on until the outermost delivery is over. It ends because each level uses up what its handlers
have planned: first the actions left anywhere, then the deliveries left, then the levels (`step_lt`).
-/

namespace Fleet.Bus

variable {τ : Type}

inductive Answer where
  | subscribed (result : Except BusError SubscriptionId)
  | found (was : Bool)
  | published (result : Except BusError Unit)
  | closed
  | number (n : Nat)
  | flag (b : Bool)

/-- What can be seen of a delivery: an event reaching a handler, and a handler's action with its
answer. -/
inductive Occurrence (τ : Type) where
  | delivered (receiver : τ) (e : Event)
  | acted (source : τ) (action : Action τ) (answer : Answer)

/-- What a handler has still to do in the delivery that reached it. -/
structure Reacting (τ : Type) where
  subscription : Subscription τ
  actions : List (Action τ)
  failure : Option BusError

/-- A delivery under way: its event, whom it has still to reach, the first failure so far, and the
handler it has reached. -/
structure Level (τ : Type) where
  event : Event
  remaining : List (Subscription τ)
  first : Option BusError := none
  reacting : Option (Reacting τ) := none

def Level.result (l : Level τ) : Except BusError Unit :=
  match l.first with
  | some error => .error error
  | none => .ok ()

/-- What an action other than publishing does. -/
def perform (b : Bus τ) : Action τ → Answer × Bus τ
  | .subscribe s =>
    let (result, b) := b.subscribe s
    (.subscribed result, b)
  | .unsubscribe id =>
    let (was, b) := b.unsubscribe id
    (.found was, b)
  | .publish _ => (.published (.ok ()), b)
  | .close => (.closed, b.close)
  | .count => (.number b.count, b)
  | .isClosed => (.flag b.closed, b)

inductive Step (τ : Type) where
  | more (bus : Bus τ) (levels : List (Level τ)) (seen : List (Occurrence τ))
  | over (bus : Bus τ) (result : Except BusError Unit)

/-- Goes one step on at the top level, which lies on the levels `below`. -/
def step (b : Bus τ) (top : Level τ) (below : List (Level τ)) : Step τ :=
  match top.reacting with
  | none =>
    match top.remaining with
    | [] =>
      match below with
      | [] => .over b top.result
      | level :: rest =>
        let seen := level.reacting.toList.map fun r =>
          .acted r.subscription.tag (.publish top.event) (.published top.result)
        .more b (level :: rest) seen
    | s :: later =>
      match b.react s with
      | (.mk actions failure, b) =>
        .more b ({ top with remaining := later, reacting := some ⟨s, actions, failure⟩ } :: below)
          [.delivered s.tag top.event]
  | some ⟨_, [], failure⟩ =>
    .more b ({ top with reacting := none, first := top.first <|> failure } :: below) []
  | some ⟨s, .publish e :: later, failure⟩ =>
    let waiting : Level τ := { top with reacting := some ⟨s, later, failure⟩ }
    match b.audience e with
    | .error error =>
      .more b (waiting :: below) [.acted s.tag (.publish e) (.published (.error error))]
    | .ok subscriptions => .more b ({ event := e, remaining := subscriptions } :: waiting :: below) []
  | some ⟨s, action :: later, failure⟩ =>
    let waiting : Level τ := { top with reacting := some ⟨s, later, failure⟩ }
    let (answer, b) := b.perform action
    .more b (waiting :: below) [.acted s.tag action answer]

/-! ## Delivery ends -/

mutual

/-- One for the action, and what a new subscriber has planned. -/
def Action.weight : Action τ → Nat
  | .subscribe s => 1 + s.weight
  | _ => 1

def Subscriber.weight : Subscriber τ → Nat
  | .mk _ _ plan _ => planWeight plan

def Reaction.weight : Reaction τ → Nat
  | .mk actions _ => actionsWeight actions

def planWeight : List (Reaction τ) → Nat
  | [] => 0
  | r :: rest => r.weight + planWeight rest

def actionsWeight : List (Action τ) → Nat
  | [] => 0
  | a :: rest => a.weight + actionsWeight rest

end

/-- The actions planned by all handlers. -/
def plansWeight : List (SubscriptionId × List (Reaction τ)) → Nat
  | [] => 0
  | (_, plan) :: rest => planWeight plan + plansWeight rest

/-- The actions left at a level. -/
def Level.weight (l : Level τ) : Nat :=
  match l.reacting with
  | some r => actionsWeight r.actions
  | none => 0

def levelsWeight : List (Level τ) → Nat
  | [] => 0
  | l :: rest => l.weight + levelsWeight rest

/-- The deliveries left at some levels. -/
def levelsRemaining : List (Level τ) → Nat
  | [] => 0
  | l :: rest => l.remaining.length + levelsRemaining rest

/-- The levels, those with a handler at work counted twice. -/
def levelsHeight : List (Level τ) → Nat
  | [] => 0
  | l :: rest => 1 + l.reacting.toList.length + levelsHeight rest

/-- What is left to do, the weightiest first. -/
def left (b : Bus τ) (levels : List (Level τ)) : Nat × Nat × Nat :=
  (plansWeight b.plans + levelsWeight levels, levelsRemaining levels, levelsHeight levels)

/-- The order in which what is left goes down. -/
abbrev Less : Nat × Nat × Nat → Nat × Nat × Nat → Prop :=
  Prod.Lex (· < ·) (Prod.Lex (· < ·) (· < ·))

theorem less_of {a b c a' b' c' : Nat}
    (h : a < a' ∨ a = a' ∧ (b < b' ∨ b = b' ∧ c < c')) : Less (a, b, c) (a', b', c') := by
  rcases h with h | ⟨rfl, h | ⟨rfl, h⟩⟩
  · exact .left _ _ h
  · exact .right _ (.left _ _ h)
  · exact .right _ (.right _ h)

theorem plansWeight_append (xs ys : List (SubscriptionId × List (Reaction τ))) :
    plansWeight (xs ++ ys) = plansWeight xs + plansWeight ys := by
  induction xs with
  | nil => simp [plansWeight]
  | cons x xs ih => simp [plansWeight, ih, Nat.add_assoc]

theorem plansWeight_takeFrom (id : SubscriptionId)
    (plans : List (SubscriptionId × List (Reaction τ))) :
    ((takeFrom id plans).1.elim 0 Reaction.weight) + plansWeight (takeFrom id plans).2
      = plansWeight plans := by
  induction plans with
  | nil => rfl
  | cons head rest ih =>
    obtain ⟨owner, plan⟩ := head
    unfold takeFrom
    split
    · cases plan with
      | nil => simp [plansWeight, planWeight]
      | cons r later => simp only [plansWeight, planWeight, Option.elim]; omega
    · simp only [plansWeight] at ih ⊢
      omega

theorem plansWeight_react (b : Bus τ) (s : Subscription τ) :
    (b.react s).1.weight + plansWeight (b.react s).2.plans = plansWeight b.plans := by
  have h := plansWeight_takeFrom s.id b.plans
  unfold react
  cases hr : (takeFrom s.id b.plans).1 with
  | none =>
    simp only [hr, Option.getD_none, Reaction.weight, actionsWeight, Option.elim] at h ⊢
    exact h
  | some r =>
    simp only [hr, Option.getD_some, Option.elim] at h ⊢
    exact h

theorem plansWeight_perform_lt (b : Bus τ) (a : Action τ) :
    plansWeight (b.perform a).2.plans < a.weight + plansWeight b.plans := by
  cases a with
  | subscribe s =>
    obtain ⟨tag, kinds, plan, settled⟩ := s
    simp only [perform, subscribe, Action.weight, Subscriber.weight]
    split
    · simp only; omega
    · simp only [plansWeight_append, plansWeight]; omega
  | _ => simp only [perform, unsubscribe, close, Action.weight]; omega

/-- Every step leaves less to do. -/
theorem step_lt (b : Bus τ) (top : Level τ) (below : List (Level τ)) {b' : Bus τ}
    {levels : List (Level τ)} {seen : List (Occurrence τ)}
    (h : step b top below = .more b' levels seen) : Less (left b' levels) (left b (top :: below)) := by
  obtain ⟨event, remaining, first, reacting⟩ := top
  unfold step at h
  cases reacting with
  | none =>
    cases remaining with
    | nil =>
      cases below with
      | nil => simp at h
      | cons level rest =>
        simp only [Step.more.injEq] at h
        obtain ⟨rfl, rfl, -⟩ := h
        refine less_of ?_
        simp [levelsWeight, Level.weight, levelsRemaining, levelsHeight]
    | cons s later =>
      have hw := plansWeight_react b s
      generalize hr : b.react s = reacted at h hw
      obtain ⟨⟨actions, failure⟩, after⟩ := reacted
      simp only [hr, Step.more.injEq] at h
      obtain ⟨rfl, rfl, -⟩ := h
      refine less_of ?_
      simp only [Reaction.weight] at hw
      simp [levelsWeight, Level.weight, levelsRemaining, levelsHeight]
      omega
  | some r =>
    obtain ⟨s, actions, failure⟩ := r
    cases actions with
    | nil =>
      simp only [Step.more.injEq] at h
      obtain ⟨rfl, rfl, -⟩ := h
      refine less_of ?_
      simp [levelsWeight, Level.weight, actionsWeight, levelsRemaining, levelsHeight]
    | cons action later =>
      have hp := plansWeight_perform_lt b action
      cases action with
      | publish e =>
        simp only at h
        split at h
        · simp only [Step.more.injEq] at h
          obtain ⟨rfl, rfl, -⟩ := h
          refine less_of (.inl ?_)
          simp [levelsWeight, Level.weight, actionsWeight, Action.weight]
        · simp only [Step.more.injEq] at h
          obtain ⟨rfl, rfl, -⟩ := h
          refine less_of (.inl ?_)
          simp [levelsWeight, Level.weight, actionsWeight, Action.weight]
      | _ =>
        simp only [Step.more.injEq] at h
        obtain ⟨rfl, rfl, -⟩ := h
        refine less_of (.inl ?_)
        simp [levelsWeight, Level.weight, actionsWeight]
        omega

/-- Goes on until the outermost delivery is over: the bus after it, all that was seen, and its
result. -/
def run (b : Bus τ) : List (Level τ) → Bus τ × List (Occurrence τ) × Except BusError Unit
  | [] => (b, [], .ok ())
  | top :: below =>
    match _h : step b top below with
    | .over b result => (b, [], result)
    | .more b' levels seen =>
      let (after, later, result) := run b' levels
      (after, seen ++ later, result)
termination_by levels => left b levels
decreasing_by exact step_lt b top below _h

/-- Publishes an event: delivers it to its audience, with all that the handlers do meanwhile. -/
def publish (b : Bus τ) (e : Event) : Bus τ × List (Occurrence τ) × Except BusError Unit :=
  match b.audience e with
  | .error error => (b, [], .error error)
  | .ok subscriptions => run b [{ event := e, remaining := subscriptions }]

/-- Takes an action from outside any delivery. -/
def act (b : Bus τ) (a : Action τ) : Bus τ × List (Occurrence τ) × Answer :=
  match a with
  | .publish e =>
    let (after, seen, result) := b.publish e
    (after, seen, .published result)
  | a =>
    let (answer, after) := b.perform a
    (after, [], answer)

end Fleet.Bus
