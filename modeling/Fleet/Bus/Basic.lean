import Fleet.Failure
import Fleet.Event

/-!
# The event bus

Subscriptions in the order in which they were made, each for some kinds of event or for all. A handler
may use the bus while it is being delivered to, so what it does is part of a subscriber: a plan with a
reaction for each of its first deliveries, and the result it settles on after them. Every terminating
run of handlers is the run of such plans.

Plans are kept apart from the table of subscriptions: a handler that is no longer subscribed may still
have deliveries under way.
-/

namespace Fleet.Bus

structure SubscriptionId where
  number : UInt64
  deriving DecidableEq, Repr, Inhabited

def SubscriptionId.text (id : SubscriptionId) : String := "sub-" ++ toString id.number.toNat

mutual

/-- What a handler may do on the bus. -/
inductive Action (τ : Type) where
  | subscribe (s : Subscriber τ)
  | unsubscribe (id : SubscriptionId)
  | publish (e : Event)
  | close
  | count
  | isClosed

/-- What a handler does at one delivery: the actions it takes, and how it then fails, if it does. -/
inductive Reaction (τ : Type) where
  | mk (actions : List (Action τ)) (failure : Option BusError)

/-- A handler with the kinds of event it wants; none given is all. `τ` tells handlers apart. -/
inductive Subscriber (τ : Type) where
  | mk (tag : τ) (kinds : List Kind) (plan : List (Reaction τ)) (settled : Option BusError)

end

/-- A subscriber that takes no actions and always has the same result: the text it fails with, if it
does. -/
def Subscriber.plain {τ : Type} (tag : τ) (kinds : List Kind) (failure : Option String) :
    Subscriber τ := .mk tag kinds [] (failure.map .handler)

/-- A subscription as it stands in the table. -/
structure Subscription (τ : Type) where
  id : SubscriptionId
  tag : τ
  kinds : List Kind
  settled : Option BusError

def Subscription.wants {τ : Type} (s : Subscription τ) (k : Kind) : Bool :=
  s.kinds.isEmpty || s.kinds.contains k

end Fleet.Bus

namespace Fleet

open Bus

/-- The bus: the table of subscriptions, the last number given out, whether it is closed, and the
reactions that handlers have still to show. -/
structure Bus (τ : Type) where
  table : List (Subscription τ) := []
  lastId : UInt64 := 0
  closed : Bool := false
  plans : List (SubscriptionId × List (Reaction τ)) := []

namespace Bus

variable {τ : Type}

def empty : Bus τ := {}

instance : Inhabited (Bus τ) := ⟨empty⟩

def count (b : Bus τ) : Nat := b.table.length

/-- Adds a subscription under the next number; refused when the bus is closed. -/
def subscribe (b : Bus τ) (s : Subscriber τ) : Except BusError SubscriptionId × Bus τ :=
  match s with
  | .mk tag kinds plan settled =>
    if b.closed then (.error .closed, b)
    else
      let id : SubscriptionId := ⟨b.lastId + 1⟩
      (.ok id,
       { b with
          table := b.table ++ [{ id, tag, kinds, settled }]
          lastId := b.lastId + 1
          plans := b.plans ++ [(id, plan)] })

/-- Removes a subscription; whether it was there comes with it. -/
def unsubscribe (b : Bus τ) (id : SubscriptionId) : Bool × Bus τ :=
  let kept := b.table.filter (·.id ≠ id)
  (kept.length ≠ b.table.length, { b with table := kept })

/-- Drops all subscriptions and refuses what comes after. -/
def close (b : Bus τ) : Bus τ := { b with table := [], closed := true }

/-- The subscriptions that an event published now goes to; refused when the bus is closed. -/
def audience (b : Bus τ) (e : Event) : Except BusError (List (Subscription τ)) :=
  if b.closed then .error .closed else .ok (b.table.filter (·.wants e.kind))

/-- Takes the next reaction of a handler from what is left of the plans. -/
def takeFrom (id : SubscriptionId) :
    List (SubscriptionId × List (Reaction τ)) →
      Option (Reaction τ) × List (SubscriptionId × List (Reaction τ))
  | [] => (none, [])
  | (owner, plan) :: rest =>
    if owner = id then
      match plan with
      | [] => (none, (owner, []) :: rest)
      | r :: later => (some r, (owner, later) :: rest)
    else
      let (r, rest) := takeFrom id rest
      (r, (owner, plan) :: rest)

/-- How the handler of a subscription reacts to its next delivery. -/
def react (b : Bus τ) (s : Subscription τ) : Reaction τ × Bus τ :=
  let (r, plans) := takeFrom s.id b.plans
  (r.getD (.mk [] s.settled), { b with plans })

end Bus

end Fleet
