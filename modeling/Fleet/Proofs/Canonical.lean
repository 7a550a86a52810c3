import Fleet.Proofs.Reading
import Fleet.Wire.Event

/-!
# Payloads in canonical form

A free-form value is held when it is its own canonical form. What reading makes of any value is held
(`isHeld_of_canonical?`), so a payload that was read is a payload of held values, and those are read back
as they were written. -/

namespace Fleet

namespace Json

/-- Whether a value is in canonical form: nothing in it cannot be held, and the members of its objects
are in key order. -/
def IsHeld (j : Json) : Prop := canonical? j = some j

instance (j : Json) : Decidable j.IsHeld := inferInstanceAs (Decidable (canonical? j = some j))

theorem canonicalMembers?_eq {members : List (String × Json)} (h : ∀ m ∈ members, IsHeld m.2) :
    canonicalMembers? members = some members := by
  induction members with
  | nil => rfl
  | cons m rest ih =>
    obtain ⟨k, j⟩ := m
    have hj : canonical? j = some j := h _ (.head _)
    simp only [canonicalMembers?, hj, ih fun m hm => h m (.tail _ hm)]
    rfl

theorem isHeld_obj {members : List (String × Json)} (h : ∀ m ∈ members, IsHeld m.2) :
    IsHeld (.obj (Dict.ofList members).entries) := by
  have hentries : canonicalMembers? (Dict.ofList members).entries =
      some (Dict.ofList members).entries :=
    canonicalMembers?_eq fun m hm => h m (Dict.mem_of_mem_ofList hm)
  simp only [IsHeld, canonical?, hentries, Option.map_some, Dict.ofList_entries]

mutual

/-- The canonical form of a value is held. -/
theorem isHeld_of_canonical? : ∀ {j j' : Json}, canonical? j = some j' → IsHeld j'
  | .null, _, h => by cases h; rfl
  | .bool _, _, h => by cases h; rfl
  | .int _, _, h => by cases h; rfl
  | .real _, _, h => by cases h; rfl
  | .str _, _, h => by cases h; rfl
  | .beyond, _, h => by cases h
  | .arr items, j', h => by
    obtain ⟨done, hdone, rfl⟩ := Option.map_eq_some_iff.1 h
    simp only [IsHeld, canonical?, canonicalItems?_idem hdone, Option.map_some]
  | .obj members, j', h => by
    obtain ⟨done, hdone, rfl⟩ := Option.map_eq_some_iff.1 h
    exact isHeld_obj (isHeld_of_canonicalMembers? hdone)

theorem canonicalItems?_idem : ∀ {items done : List Json},
    canonicalItems? items = some done → canonicalItems? done = some done
  | [], _, h => by cases h; rfl
  | j :: rest, done, h => by
    obtain ⟨first, hfirst, h⟩ := Option.bind_eq_some_iff.1 h
    obtain ⟨later, hlater, h⟩ := Option.bind_eq_some_iff.1 h
    cases h
    have hj : canonical? first = some first := isHeld_of_canonical? hfirst
    simp only [canonicalItems?, hj, canonicalItems?_idem hlater]
    rfl

theorem isHeld_of_canonicalMembers? : ∀ {members done : List (String × Json)},
    canonicalMembers? members = some done → ∀ m ∈ done, IsHeld m.2
  | [], _, h => by cases h; intro m hm; cases hm
  | (k, j) :: rest, done, h => by
    obtain ⟨first, hfirst, h⟩ := Option.bind_eq_some_iff.1 h
    obtain ⟨later, hlater, h⟩ := Option.bind_eq_some_iff.1 h
    cases h
    intro m hm
    rcases List.mem_cons.1 hm with rfl | hm
    · exact isHeld_of_canonical? hfirst
    · exact isHeld_of_canonicalMembers? hlater m hm

end

end Json

theorem exists_of_mem_mapM {α β : Type} {f : α → Option β} {items : List α} {done : List β}
    (h : items.mapM f = some done) {b : β} (hb : b ∈ done) : ∃ a, f a = some b := by
  induction items generalizing done with
  | nil =>
    cases h
    cases hb
  | cons a rest ih =>
    rw [List.mapM_cons] at h
    obtain ⟨first, hfirst, h⟩ := Option.bind_eq_some_iff.1 h
    obtain ⟨later, hlater, h⟩ := Option.bind_eq_some_iff.1 h
    cases h
    rcases List.mem_cons.1 hb with rfl | hb
    · exact ⟨a, hfirst⟩
    · exact ih hlater hb

namespace Payload

open Json

/-- Whether all values of a payload are held. -/
def IsHeld (p : Payload) : Prop := ∀ m ∈ p.entries, m.2.IsHeld

instance (p : Payload) : Decidable p.IsHeld :=
  inferInstanceAs (Decidable (∀ m ∈ p.entries, m.2.IsHeld))

/-- A held payload is read back as it was written. -/
theorem ofJson?_toJson {p : Payload} (h : p.IsHeld) : Payload.ofJson? p.toJson = some p := by
  unfold Payload.ofJson? toJson
  exact asDict_ofDict h

/-- A payload that was read is held. -/
theorem isHeld_of_ofJson? {j : Json} {p : Payload} (h : Payload.ofJson? j = some p) : p.IsHeld := by
  unfold Payload.ofJson? asDict at h
  split at h
  · rename_i members
    obtain ⟨done, hdone, rfl⟩ := Option.map_eq_some_iff.1 h
    intro m hm
    obtain ⟨source, hread⟩ := exists_of_mem_mapM hdone (Dict.mem_of_mem_ofList hm)
    obtain ⟨j, hj, rfl⟩ := Option.map_eq_some_iff.1 hread
    exact isHeld_of_canonical? hj
  · cases h

/-! ## Fields for payloads -/

variable {γ : Type}

/-- A field for a payload, which is skipped when the payload is empty. -/
def column (name : String) (get : γ → Payload) : Column γ :=
  { name, write := fun x => (get x).toJson, skips := some fun x => (get x).isEmpty }

@[simp] theorem name_column (name : String) (get : γ → Payload) : (column name get).name = name := rfl

@[simp] theorem members_column (name : String) (get : γ → Payload) (x : γ) :
    (column name get).members x = payloadMember name (get x) := rfl

theorem eq_empty_of_isEmpty {p : Payload} (h : p.isEmpty = true) : p = .empty :=
  Dict.ext_entries (List.isEmpty_iff.1 h)

theorem of_slot {name : String} {get : γ → Payload} {x : γ} {row : Row}
    (h : slot name row = some ((column name get).slot x, row)) (hheld : (get x).IsHeld) :
    fieldOr name .empty Payload.ofJson? row = some (get x, row) := by
  cases hempty : (get x).isEmpty with
  | true =>
    rw [eq_empty_of_isEmpty hempty]
    exact fieldOr_of_absent (by simpa [Column.slot, Column.isSkipped, column, hempty] using h)
  | false =>
    have hslot : slot name row = some (.value (get x).toJson, row) := by
      simpa [Column.slot, Column.isSkipped, column, hempty] using h
    exact fieldOr_of_slot hslot (ofJson?_toJson hheld)

/-- A payload that a field was read as is held, whether it was written or not. -/
theorem isHeld_of_fieldOr {name : String} {row row' : Row} {p : Payload}
    (h : fieldOr name .empty Payload.ofJson? row = some (p, row')) : p.IsHeld := by
  rcases exists_of_fieldOr h with rfl | ⟨j, hread⟩
  · intro m hm
    cases hm
  · exact isHeld_of_ofJson? hread

end Payload

end Fleet
