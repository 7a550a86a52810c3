import Fleet.Json.Token

/-!
# Reading JSON

Tokens are put together to one value with the containers part way through held on a stack. Reading
is strict: one value and no comma too many. A container that is nested deeper than `depthLimit` and an
object with a name that cannot be held are read as values that cannot be held.
-/

namespace Fleet.Json

/-- How deep containers may nest to be held. -/
def depthLimit : Nat := 127

/-- A container part way through, its contents last first. -/
inductive Frame where
  | items (done : List Json)
  | members (done : List (Option String × Json))
  | member (done : List (Option String × Json)) (name : Option String)
  deriving DecidableEq, Repr

/-- What may come next. -/
inductive Expects where
  /-- A value; `first` when the array may also close. -/
  | value (first : Bool)
  /-- The name of a member; `first` when the object may also close. -/
  | name (first : Bool)
  /-- The colon after a name. -/
  | colon
  /-- A comma or the end of the container. -/
  | next
  deriving DecidableEq, Repr

/-- A value part way through reading. -/
inductive Partial where
  | reading (stack : List Frame) (expects : Expects)
  | complete (j : Json)
  deriving DecidableEq, Repr

def Partial.start : Partial := .reading [] (.value false)

/-- A finished value, given to the container that waits for it. -/
def Partial.give (j : Json) : List Frame → Partial
  | [] => .complete j
  | .items done :: stack => .reading (.items (j :: done) :: stack) .next
  | .member done name :: stack => .reading (.members ((name, j) :: done) :: stack) .next
  | .members done :: stack => .reading (.members done :: stack) .next

/-- Whether a container inside the ones on the stack can be held; no more of the stack is looked at than
needed. -/
def isShallow (stack : List Frame) : Bool := (stack.drop (depthLimit - 1)).isEmpty

theorem isShallow_iff (stack : List Frame) :
    isShallow stack = true ↔ stack.length < depthLimit := by
  simp only [isShallow, List.isEmpty_iff, List.drop_eq_nil_iff, depthLimit]
  omega

/-- A finished container, given to the one around it unless it is nested too deep to be held. -/
def Partial.close (j : Json) (stack : List Frame) : Partial :=
  give (if isShallow stack then j else .beyond) stack

/-- The object of members whose names can all be held. -/
def ofMembers (members : List (Option String × Json)) : Json :=
  (members.mapM fun (m : Option String × Json) => m.1.map (·, m.2)).elim .beyond .obj

/-- One token further. -/
def Partial.read? : Partial → Token → Option Partial
  | .reading stack (.value _), .scalar j => some (give j stack)
  | .reading stack (.value _), .text s => some (give (s.elim .beyond .str) stack)
  | .reading stack (.value _), .openArray => some (.reading (.items [] :: stack) (.value true))
  | .reading stack (.value _), .openObject => some (.reading (.members [] :: stack) (.name true))
  | .reading (.items done :: stack) (.value true), .closeArray => some (close (.arr done.reverse) stack)
  | .reading (.members done :: stack) (.name true), .closeObject =>
    some (close (ofMembers done.reverse) stack)
  | .reading (.members done :: stack) (.name _), .text name =>
    some (.reading (.member done name :: stack) .colon)
  | .reading stack .colon, .colon => some (.reading stack (.value false))
  | .reading (.items done :: stack) .next, .comma =>
    some (.reading (.items done :: stack) (.value false))
  | .reading (.members done :: stack) .next, .comma =>
    some (.reading (.members done :: stack) (.name false))
  | .reading (.items done :: stack) .next, .closeArray => some (close (.arr done.reverse) stack)
  | .reading (.members done :: stack) .next, .closeObject =>
    some (close (ofMembers done.reverse) stack)
  | _, _ => none

def ofTokens? (tokens : List Token) : Option Json :=
  match tokens.foldlM Partial.read? Partial.start with
  | some (.complete j) => some j
  | _ => none

def read? (s : String) : Option Json := (tokens? s).bind ofTokens?

end Fleet.Json
