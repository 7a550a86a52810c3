import Fleet.Dict
import Fleet.Number.Binary64

/-!
# JSON values

A value keeps its members as they were written; `Json.canonical?` puts the members of every object in
key order and keeps the last of several with one name, which is how a free-form payload is held. A text
may also hold values that are well written and yet cannot be held, such as a number greater than every
double. They are kept as `Json.beyond`: no reader of values accepts one, so they can only stand where
nobody asks for the value.
-/

namespace Fleet

/-- A JSON value. Whole numbers and doubles are told apart by how they are written, and `beyond` is what
is well written and cannot be held. -/
inductive Json where
  | null
  | bool (b : Bool)
  | int (n : Int)
  | real (x : Binary64)
  | str (s : String)
  | arr (items : List Json)
  | obj (members : List (String × Json))
  | beyond
  deriving Repr, Inhabited

namespace Json

mutual

/-- Whether two values are written from the same parts in the same order. -/
def same : Json → Json → Bool
  | .null, .null => true
  | .bool a, .bool b => a == b
  | .int a, .int b => a == b
  | .real a, .real b => decide (a = b)
  | .str a, .str b => a == b
  | .arr a, .arr b => sameItems a b
  | .obj a, .obj b => sameMembers a b
  | .beyond, .beyond => true
  | _, _ => false

def sameItems : List Json → List Json → Bool
  | [], [] => true
  | a :: as, b :: bs => same a b && sameItems as bs
  | _, _ => false

def sameMembers : List (String × Json) → List (String × Json) → Bool
  | [], [] => true
  | (k, a) :: as, (l, b) :: bs => k == l && same a b && sameMembers as bs
  | _, _ => false

end

mutual

theorem same_iff : ∀ a b : Json, same a b = true ↔ a = b
  | .null, b => by cases b <;> simp [same]
  | .bool _, b => by cases b <;> simp [same]
  | .int _, b => by cases b <;> simp [same]
  | .real _, b => by cases b <;> simp [same]
  | .str _, b => by cases b <;> simp [same]
  | .arr as, b => by cases b <;> simp [same, sameItems_iff as]
  | .obj as, b => by cases b <;> simp [same, sameMembers_iff as]
  | .beyond, b => by cases b <;> simp [same]

theorem sameItems_iff : ∀ as bs : List Json, sameItems as bs = true ↔ as = bs
  | [], bs => by cases bs <;> simp [sameItems]
  | a :: as, bs => by cases bs <;> simp [sameItems, same_iff a, sameItems_iff as]

theorem sameMembers_iff : ∀ as bs : List (String × Json), sameMembers as bs = true ↔ as = bs
  | [], bs => by cases bs <;> simp [sameMembers]
  | (k, a) :: as, bs => by
    cases bs with
    | nil => simp [sameMembers]
    | cons b bs => obtain ⟨l, b⟩ := b; simp [sameMembers, same_iff a, sameMembers_iff as]

end

instance : DecidableEq Json := fun a b => decidable_of_iff _ (same_iff a b)

mutual

/-- The value with the members of every object in key order, the last of several of one name; nothing
for a value that cannot be held or that has such a value in it. -/
def canonical? : Json → Option Json
  | .arr items => (canonicalItems? items).map .arr
  | .obj members => (canonicalMembers? members).map fun ms => .obj (Dict.ofList ms).entries
  | .beyond => none
  | j => some j

/-- The items in canonical form, if all of them can be held. -/
def canonicalItems? : List Json → Option (List Json)
  | [] => some []
  | j :: rest => do return (← canonical? j) :: (← canonicalItems? rest)

/-- The members with their values in canonical form, if all of them can be held. -/
def canonicalMembers? : List (String × Json) → Option (List (String × Json))
  | [] => some []
  | (k, j) :: rest => do return (k, ← canonical? j) :: (← canonicalMembers? rest)

end

/-- The value of the first member of that name in an object. -/
def member? (j : Json) (name : String) : Option Json :=
  match j with
  | .obj members => (members.find? (·.1 = name)).map (·.2)
  | _ => none

end Json

/-- Free-form members of an event or an audit record, in key order. -/
abbrev Payload := Dict String Json

end Fleet
