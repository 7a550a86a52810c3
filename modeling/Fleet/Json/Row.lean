import Fleet.Json.Basic

/-!
# Reading records from JSON

A record is written as an object, or as an array of its fields in the order of declaration. `Row` holds
what is left to read, and a `Fields` reader takes one field after the other out of it:

* in an object a field is found by its name, members that no field asks for are passed over, and a
  member that is asked for must not stand there twice;
* in an array the fields follow each other; only fields with a default may be left off at the end, and
  nothing may follow the last one.

Beside each way to read a field stands the way to write it.
-/

namespace Fleet.Json

/-- The fields of a record that are left to read. -/
inductive Row where
  | named (members : List (String × Json))
  | listed (items : List Json)
  deriving DecidableEq

/-- A reader that takes fields out of a row. -/
abbrev Fields := StateT Row Option

/-- What stands in a row for a field: nothing in an object, the end of an array, or a value. -/
inductive Slot where
  | absent
  | ended
  | value (j : Json)
  deriving DecidableEq

/-- Takes the slot of a field; a member that stands there twice is refused. -/
def slot (name : String) : Fields Slot := fun
  | .named members =>
    match members.filter (·.1 = name) with
    | [] => some (.absent, .named members)
    | [m] => some (.value m.2, .named members)
    | _ => none
  | .listed [] => some (.ended, .listed [])
  | .listed (j :: rest) => some (.value j, .listed rest)

variable {α : Type}

def field (name : String) (read : Json → Option α) : Fields α := do
  match ← slot name with
  | .value j => StateT.lift (read j)
  | _ => failure

def fieldOr (name : String) (default : α) (read : Json → Option α) : Fields α := do
  match ← slot name with
  | .value j => StateT.lift (read j)
  | _ => return default

/-- The value of `null`, or a value. -/
def nullable (read : Json → Option α) : Json → Option (Option α)
  | .null => some none
  | j => (read j).map some

/-- A field that may be left off or `null`. -/
def field? (name : String) (read : Json → Option α) : Fields (Option α) :=
  fieldOr name none (nullable read)

/-- A field that may be `null`, and be left off in an object only. -/
def nullableField (name : String) (read : Json → Option α) : Fields (Option α) := do
  match ← slot name with
  | .value j => StateT.lift (nullable read j)
  | .absent => return none
  | .ended => failure

def record (fields : Fields α) : Json → Option α
  | .obj members => (fields (.named members)).map (·.1)
  | .arr items =>
    match fields (.listed items) with
    | some (a, .listed []) => some a
    | _ => none
  | _ => none

/-! ## Values -/

def asBool : Json → Option Bool
  | .bool b => some b
  | _ => none

def asText : Json → Option String
  | .str s => some s
  | _ => none

/-- Reads a whole number below a limit. -/
def asNat (limit : Nat) : Json → Option Nat
  | .int n => if 0 ≤ n ∧ n < limit then some n.toNat else none
  | _ => none

def asWord16 (j : Json) : Option UInt16 := (asNat UInt16.size j).map .ofNat

def asWord32 (j : Json) : Option UInt32 := (asNat UInt32.size j).map .ofNat

def asWord64 (j : Json) : Option UInt64 := (asNat UInt64.size j).map .ofNat

def asInt64 : Json → Option Int64
  | .int n => if Int64.minValue.toInt ≤ n ∧ n ≤ Int64.maxValue.toInt then some (.ofInt n) else none
  | _ => none

def asList (read : Json → Option α) : Json → Option (List α)
  | .arr items => items.mapM read
  | _ => none

/-- Reads a dictionary; of two members with one name the later counts, and both must be readable. -/
def asDict (read : Json → Option α) : Json → Option (Dict String α)
  | .obj members => (members.mapM fun m => (read m.2).map (m.1, ·)).map Dict.ofList
  | _ => none

/-- Reads one of several names: a string, or an object with the name as its one member and `null` as
the value. -/
def asName (ofName? : String → Option α) : Json → Option α
  | .str s => ofName? s
  | .obj [(s, .null)] => ofName? s
  | _ => none

def ofItems (write : α → Json) (items : List α) : Json := .arr (items.map write)

def ofDict (write : α → Json) (d : Dict String α) : Json :=
  .obj (d.entries.map fun e => (e.1, write e.2))

/-- The member of a field that is left out when there is nothing in it. -/
def member (name : String) (write : α → Json) (a : Option α) : List (String × Json) :=
  a.toList.map fun a => (name, write a)

def orNull (write : α → Json) : Option α → Json
  | some a => write a
  | none => .null

def ofNat (n : Nat) : Json := .int n

end Fleet.Json
