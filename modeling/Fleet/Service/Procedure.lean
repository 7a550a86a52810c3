import Fleet.Event
import Fleet.Failure
import Fleet.Request

/-!
# Procedures

What a service does for a request, step by step: a procedure is done, has failed, or makes one call and
goes on with its answer. Calls are all that it has to do with the store, the providers and the bus, so a
procedure can be carried out against any of them, in one go or call by call among others.
-/

namespace Fleet.Service

/-- A call to what lies outside the service. -/
inductive Call where
  | insert (i : Instance)
  | update (i : Instance)
  | find (tenant id : String)
  | findBySlug (tenant slug : String)
  | list (tenant : String) (q : Query)
  | delete (tenant id : String)
  | count (tenant : String)
  /-- Asks the directory which provider is meant. -/
  | resolve (name : Option String)
  /-- Asks the directory whether a provider is there. -/
  | lookup (name : String)
  | command (provider : String) (c : Provider.Command)
  | publish (e : Event)

abbrev Call.Answer : Call → Type
  | .insert _ | .update _ => Except Failure UInt64
  | .find _ _ | .findBySlug _ _ => Except Failure Instance
  | .list _ _ => Except Failure Page
  | .delete _ _ => Except Failure Unit
  | .count _ => Except Failure Nat
  | .resolve _ => Except Failure String
  | .lookup _ => Except Failure Unit
  | .command _ c => Except Provider.Error c.Reply
  | .publish _ => Except BusError Unit

/-- A sequence of calls with a result. -/
inductive Procedure (α : Type) where
  | done (a : α)
  | fail (f : Failure)
  | call (c : Call) (next : c.Answer → Procedure α)

namespace Procedure

/-- One procedure after another; a failure ends both. -/
def bind {α β : Type} : Procedure α → (α → Procedure β) → Procedure β
  | .done a, f => f a
  | .fail e, _ => .fail e
  | .call c next, f => .call c fun answer => (next answer).bind f

instance : Monad Procedure where
  pure := .done
  bind := bind

def ask (c : Call) : Procedure c.Answer := .call c .done

def ofExcept {α : Type} : Except Failure α → Procedure α
  | .ok a => .done a
  | .error f => .fail f

def ensure (condition : Bool) (f : Failure) : Procedure Unit :=
  if condition then .done () else .fail f

/-- Carries a procedure out, each call by `serve`. -/
def run {m : Type → Type} [Monad m] {α : Type} (serve : (c : Call) → m c.Answer) :
    Procedure α → m (Except Failure α)
  | .done a => pure (.ok a)
  | .fail f => pure (.error f)
  | .call c next => do
    let answer ← serve c
    (next answer).run serve

/-! ## Laws -/

variable {α β γ : Type}

@[simp] theorem done_bind (a : α) (f : α → Procedure β) : (.done a : Procedure α) >>= f = f a := rfl

@[simp] theorem fail_bind (e : Failure) (f : α → Procedure β) :
    (.fail e : Procedure α) >>= f = .fail e := rfl

@[simp] theorem call_bind (c : Call) (next : c.Answer → Procedure α) (f : α → Procedure β) :
    (.call c next : Procedure α) >>= f = .call c fun answer => next answer >>= f := rfl

theorem bind_done (p : Procedure α) : p >>= .done = p := by
  induction p with
  | done a => rfl
  | fail e => rfl
  | call c next ih => simp [ih]

theorem bind_assoc (p : Procedure α) (f : α → Procedure β) (g : β → Procedure γ) :
    p >>= f >>= g = p >>= fun a => f a >>= g := by
  induction p with
  | done a => rfl
  | fail e => rfl
  | call c next ih => simp [ih]

end Procedure

end Fleet.Service
