import Fleet.Json.Row

/-!
# Values with a written form

A type is `Wired` when its values are written as JSON and read back. Reading may accept more than what
is written: fields in array form, members that nobody asks for, another spelling of a moment.
-/

namespace Fleet

open Json

/-- Values that are written as JSON and read from it. -/
class Wired (α : Type) where
  /-- Writes a value. -/
  toJson : α → Json
  /-- Reads a value, or refuses what is none. -/
  ofJson? : Json → Option α

namespace Wired

/-- A free value is read in canonical form. -/
instance : Wired Json := ⟨id, canonical?⟩
instance : Wired Unit := ⟨fun _ => .null, fun _ => none⟩
instance : Wired Bool := ⟨.bool, asBool⟩
instance : Wired String := ⟨.str, asText⟩
instance : Wired Nat := ⟨ofNat, asNat UInt64.size⟩
instance : Wired UInt16 := ⟨fun n => ofNat n.toNat, asWord16⟩
instance : Wired UInt32 := ⟨fun n => ofNat n.toNat, asWord32⟩
instance : Wired UInt64 := ⟨fun n => ofNat n.toNat, asWord64⟩
instance : Wired Int64 := ⟨fun n => .int n.toInt, asInt64⟩

variable {α : Type}

instance [Wired α] : Wired (Option α) := ⟨orNull toJson, nullable ofJson?⟩
instance [Wired α] : Wired (List α) := ⟨ofItems toJson, asList ofJson?⟩
instance [Wired α] : Wired (Dict String α) := ⟨ofDict toJson, asDict ofJson?⟩

/-- The form of values that have a name each: the name. -/
@[reducible] def named (name : α → String) (ofName? : String → Option α) : Wired α :=
  ⟨fun a => .str (name a), fun j => (asText j).bind ofName?⟩

end Wired

end Fleet
