import Fleet.Json.Wire

/-!
# Reading what was written

A record is written by columns: each has a name, the way its field is written, and perhaps a test by
which an empty field is skipped. When no two columns have one name, a reader of fields finds in the
written record what each column has put there:

    slot c.name row = some (c.slot x, row)                                        (slot_members)

and so a reader that takes the fields one after the other out of it ends with the record
(`record_members`). Beside the columns stand the values that fields have: words, texts, lists,
dictionaries, each with the reason why reading undoes writing. -/

namespace Fleet

open Std

/-! ## Readers -/

theorem bind_of_some {σ α β : Type} {m : StateT σ Option α} {f : α → StateT σ Option β} {s s' : σ}
    {a : α} (h : m s = some (a, s')) : (m >>= f) s = f a s' := by
  show (m s).bind _ = _
  rw [h]
  rfl

theorem exists_of_bind {σ α β : Type} {m : StateT σ Option α} {f : α → StateT σ Option β} {s : σ}
    {r : β × σ} (h : (m >>= f) s = some r) : ∃ a s', m s = some (a, s') ∧ f a s' = some r := by
  obtain ⟨⟨a, s'⟩, hm, hf⟩ := Option.bind_eq_some_iff.1 h
  exact ⟨a, s', hm, hf⟩

theorem guard_of {σ : Type} {p : Prop} [Decidable p] (h : p) (s : σ) :
    (guard p : StateT σ Option Unit) s = some ((), s) := by
  show (if p then pure () else failure : StateT σ Option Unit) s = _
  rw [if_pos h]
  rfl

namespace Json

/-! ## Columns -/

/-- How a field of a record is written: under which name and how, and when it is skipped. A column
without a test is always written. -/
structure Column (α : Type) where
  name : String
  write : α → Json
  skips : Option (α → Bool) := none

namespace Column

variable {α β : Type}

/-- A field that is always written. -/
def always (name : String) (write : α → Json) : Column α := { name, write }

/-- A field that may be missing, and is skipped then. -/
def optional (name : String) (write : β → Json) (get : α → Option β) : Column α :=
  { name, write := fun x => orNull write (get x), skips := some fun x => (get x).isNone }

def isSkipped (c : Column α) (x : α) : Bool :=
  match c.skips with
  | some isEmpty => isEmpty x
  | none => false

/-- The member that a column writes, if it writes one. -/
def members (c : Column α) (x : α) : List (String × Json) :=
  if c.isSkipped x then [] else [(c.name, c.write x)]

/-- What a reader finds for a column. -/
def slot (c : Column α) (x : α) : Slot := if c.isSkipped x then .absent else .value (c.write x)

@[simp] theorem name_always (name : String) (write : α → Json) : (always name write).name = name :=
  rfl

@[simp] theorem slot_always (name : String) (write : α → Json) (x : α) :
    (always name write).slot x = .value (write x) := rfl

@[simp] theorem write_always (name : String) (write : α → Json) : (always name write).write = write :=
  rfl

@[simp] theorem members_always (name : String) (write : α → Json) (x : α) :
    (always name write).members x = [(name, write x)] := rfl

@[simp] theorem name_optional (name : String) (write : β → Json) (get : α → Option β) :
    (optional name write get).name = name := rfl

@[simp] theorem write_optional (name : String) (write : β → Json) (get : α → Option β) (x : α) :
    (optional name write get).write x = orNull write (get x) := rfl

@[simp] theorem members_optional (name : String) (write : β → Json) (get : α → Option β) (x : α) :
    (optional name write get).members x = member name write (get x) := by
  cases h : get x with
  | none => simp [members, isSkipped, optional, member, h]
  | some b => simp [members, isSkipped, optional, member, orNull, h]

theorem name_of_mem {c : Column α} {x : α} {m : String × Json} (h : m ∈ c.members x) :
    m.1 = c.name := by
  unfold members at h
  split at h
  · cases h
  · obtain rfl := List.mem_singleton.1 h
    rfl

theorem filter_members (c : Column α) (x : α) :
    (c.members x).filter (·.1 = c.name) = c.members x :=
  List.filter_eq_self.2 fun _ hm => decide_eq_true (name_of_mem hm)

end Column

variable {α β : Type}

/-- The members of a record that is written by columns. -/
def members (columns : List (Column α)) (x : α) : List (String × Json) :=
  columns.flatMap (·.members x)

def names : Json → List String
  | .obj members => members.map (·.1)
  | _ => []

@[simp] theorem members_nil (x : α) : members ([] : List (Column α)) x = [] := rfl

@[simp] theorem members_cons (c : Column α) (columns : List (Column α)) (x : α) :
    members (c :: columns) x = c.members x ++ members columns x := rfl

/-- What is written by columns has the names of those that are not skipped. -/
theorem names_of_eq_members {columns : List (Column α)} {x : α} {j : Json}
    (h : j = .obj (members columns x)) :
    names j = (columns.filter fun c => !c.isSkipped x).map (·.name) := by
  subst h
  induction columns with
  | nil => rfl
  | cons c rest ih =>
    simp only [names, members_cons, List.map_append] at ih ⊢
    rw [ih]
    cases h : c.isSkipped x with
    | true => simp [Column.members, h]
    | false => simp [Column.members, h]

theorem filter_members_eq_nil {columns : List (Column α)} {name : String}
    (h : ∀ c ∈ columns, c.name ≠ name) (x : α) : (members columns x).filter (·.1 = name) = [] := by
  rw [List.filter_eq_nil_iff]
  intro m hm heq
  obtain ⟨c, hc, hm⟩ := List.mem_flatMap.1 hm
  exact h c hc ((Column.name_of_mem hm).symm.trans (of_decide_eq_true heq))

theorem filter_members {columns : List (Column α)} (hd : (columns.map (·.name)).Nodup)
    {c : Column α} (hc : c ∈ columns) (x : α) :
    (members columns x).filter (·.1 = c.name) = c.members x := by
  induction columns with
  | nil => cases hc
  | cons first rest ih =>
    obtain ⟨hfirst, hrest⟩ := List.nodup_cons.1 hd
    have hne : ∀ other ∈ rest, other.name ≠ first.name := by
      intro other hother heq
      exact hfirst (List.mem_map.2 ⟨other, hother, heq⟩)
    rw [members_cons, List.filter_append]
    rcases List.mem_cons.1 hc with rfl | hc
    · rw [filter_members_eq_nil hne, List.append_nil, Column.filter_members]
    · have hnone : (first.members x).filter (·.1 = c.name) = [] := by
        rw [List.filter_eq_nil_iff]
        intro m hm heq
        exact hne c hc ((of_decide_eq_true heq).symm.trans (Column.name_of_mem hm))
      rw [hnone, ih hrest hc, List.nil_append]

theorem slot_members {columns : List (Column α)} (hd : (columns.map (·.name)).Nodup)
    {c : Column α} (hc : c ∈ columns) (x : α) :
    slot c.name (.named (members columns x)) = some (c.slot x, .named (members columns x)) := by
  simp only [slot, filter_members hd hc]
  cases h : c.isSkipped x with
  | true => simp [Column.members, Column.slot, h]
  | false => simp [Column.members, Column.slot, h]

/-- A reader that makes the record out of any row with the right slots makes it out of the written
record. -/
theorem record_members {columns : List (Column α)} (hd : (columns.map (·.name)).Nodup) {x : α}
    {reader : Fields α}
    (h : ∀ row, (∀ c ∈ columns, slot c.name row = some (c.slot x, row)) → reader row = some (x, row)) :
    record reader (.obj (members columns x)) = some x := by
  simp only [record, h _ fun c hc => slot_members hd hc x]
  rfl

theorem exists_of_record {reader : Fields α} {j : Json} {x : α} (h : record reader j = some x) :
    ∃ row rest, reader row = some (x, rest) := by
  unfold record at h
  split at h
  · obtain ⟨⟨y, rest⟩, hread, rfl⟩ := Option.map_eq_some_iff.1 h
    exact ⟨_, rest, hread⟩
  · split at h
    · rename_i hread
      cases h
      exact ⟨_, _, hread⟩
    · cases h
  · cases h

/-! ## Fields -/

section Fields

variable {name : String} {row : Row} {j : Json} {a : β} {read : Json → Option β} {write : β → Json}

theorem field_of_slot (h : slot name row = some (.value j, row)) (hread : read j = some a) :
    field name read row = some (a, row) := by
  unfold field
  rw [bind_of_some h]
  simp only [hread]
  rfl

theorem fieldOr_of_slot {default : β} (h : slot name row = some (.value j, row))
    (hread : read j = some a) : fieldOr name default read row = some (a, row) := by
  unfold fieldOr
  rw [bind_of_some h]
  simp only [hread]
  rfl

theorem exists_of_field {row' : Row} (h : field name read row = some (a, row')) :
    ∃ j, read j = some a := by
  obtain ⟨found, mid, -, h⟩ := exists_of_bind h
  cases found with
  | value j =>
    obtain ⟨b, hread, h⟩ := Option.bind_eq_some_iff.1 h
    cases h
    exact ⟨j, hread⟩
  | absent => cases h
  | ended => cases h

theorem exists_of_fieldOr {default : β} {row' : Row}
    (h : fieldOr name default read row = some (a, row')) : a = default ∨ ∃ j, read j = some a := by
  obtain ⟨found, mid, -, h⟩ := exists_of_bind h
  cases found with
  | value j =>
    obtain ⟨b, hread, h⟩ := Option.bind_eq_some_iff.1 h
    cases h
    exact .inr ⟨j, hread⟩
  | absent =>
    cases h
    exact .inl rfl
  | ended =>
    cases h
    exact .inl rfl

theorem fieldOr_of_absent {default : β} (h : slot name row = some (.absent, row)) :
    fieldOr name default read row = some (default, row) := by
  unfold fieldOr
  rw [bind_of_some h]
  rfl

theorem nullable_orNull (hnull : ∀ b, write b ≠ .null) {o : Option β}
    (hread : ∀ b, o = some b → read (write b) = some b) :
    nullable read (orNull write o) = some o := by
  cases o with
  | none => rfl
  | some b =>
    unfold nullable orNull
    split
    · rename_i hb
      exact absurd hb (hnull b)
    · simp only [hread b rfl, Option.map_some]

theorem field?_of_slot {γ : Type} {get : γ → Option β} {x : γ}
    (h : slot name row = some ((Column.optional name write get).slot x, row))
    (hnull : ∀ b, write b ≠ .null) (hread : ∀ b, get x = some b → read (write b) = some b) :
    field? name read row = some (get x, row) := by
  cases hget : get x with
  | none => exact fieldOr_of_absent (by simpa [Column.slot, Column.isSkipped, Column.optional, hget] using h)
  | some b =>
    have hslot : slot name row = some (.value (orNull write (some b)), row) := by
      simpa [Column.slot, Column.isSkipped, Column.optional, hget] using h
    refine fieldOr_of_slot hslot (nullable_orNull hnull ?_)
    rw [← hget]
    exact hread

theorem nullableField_of_slot {o : Option β}
    (h : slot name row = some (.value (orNull write o), row)) (hnull : ∀ b, write b ≠ .null)
    (hread : ∀ b, o = some b → read (write b) = some b) :
    nullableField name read row = some (o, row) := by
  unfold nullableField
  rw [bind_of_some h]
  simp only [nullable_orNull hnull hread]
  rfl

end Fields

end Json

/-! ## Dictionaries -/

namespace Dict

variable {κ α : Type} [Ord κ] [TransOrd κ] [LawfulEqOrd κ]

theorem get?_foldl_insert [DecidableEq κ] {entries : List (κ × α)} (h : Ascending entries)
    (d : Dict κ α) (k : κ) :
    (entries.foldl (fun d e => d.insert e.1 e.2) d).get? k = (lookup k entries).or (d.get? k) := by
  induction entries generalizing d with
  | nil => rfl
  | cons e rest ih =>
    obtain ⟨hfirst, hrest⟩ := List.pairwise_cons.1 h
    rw [List.foldl_cons, ih hrest, get?_insert, lookup]
    by_cases hk : e.1 = k
    · -- The key does not come again, since keys ascend.
      have hnone : lookup k rest = none := by
        cases hlookup : lookup k rest with
        | none => rfl
        | some v =>
          have hlt := hfirst _ (mem_of_lookup_eq_some hlookup)
          rw [hk, Std.compare_eq_iff_eq.2 rfl] at hlt
          cases hlt
      rw [if_pos hk, hnone, if_pos (Std.compare_eq_iff_eq.2 hk.symm)]
      rfl
    · have hne : ¬ compare k e.1 = .eq := by
        rw [Std.compare_eq_iff_eq]
        exact fun heq => hk heq.symm
      rw [if_neg hk, if_neg hne]

/-- The dictionary of the entries of a dictionary. -/
theorem ofList_entries [DecidableEq κ] (d : Dict κ α) : ofList d.entries = d := by
  refine ext_get? fun k => ?_
  unfold ofList
  rw [get?_foldl_insert d.ascending, get?_empty, Option.or_none]
  rfl

theorem mem_foldl_insert {entries : List (κ × α)} {d : Dict κ α} {e : κ × α}
    (h : e ∈ (entries.foldl (fun d e => d.insert e.1 e.2) d).entries) :
    e ∈ entries ∨ e ∈ d.entries := by
  induction entries generalizing d with
  | nil => exact .inr h
  | cons first rest ih =>
    rcases ih h with h | h
    · exact .inl (.tail _ h)
    · rcases mem_place h with rfl | h
      · exact .inl (.head _)
      · exact .inr h

/-- A dictionary of a list has no entry that is not in the list. -/
theorem mem_of_mem_ofList {entries : List (κ × α)} {e : κ × α} (h : e ∈ (ofList entries).entries) :
    e ∈ entries := by
  rcases mem_foldl_insert h with h | h
  · exact h
  · cases h

end Dict

/-! ## Values -/

namespace Json

variable {α : Type}

theorem asNat_ofNat {limit n : Nat} (h : n < limit) : asNat limit (ofNat n) = some n := by
  unfold asNat ofNat
  simp only
  rw [if_pos ⟨by omega, by omega⟩, Int.toNat_natCast]

theorem lt_of_asNat {limit n : Nat} {j : Json} (h : asNat limit j = some n) : n < limit := by
  unfold asNat at h
  split at h
  · split at h
    · cases h
      omega
    · cases h
  · cases h

theorem asWord16_ofNat (w : UInt16) : asWord16 (ofNat w.toNat) = some w := by
  simp only [asWord16, asNat_ofNat w.toNat_lt_size, Option.map_some, UInt16.ofNat_toNat]

theorem asWord32_ofNat (w : UInt32) : asWord32 (ofNat w.toNat) = some w := by
  simp only [asWord32, asNat_ofNat w.toNat_lt_size, Option.map_some, UInt32.ofNat_toNat]

theorem asWord64_ofNat (w : UInt64) : asWord64 (ofNat w.toNat) = some w := by
  simp only [asWord64, asNat_ofNat w.toNat_lt_size, Option.map_some, UInt64.ofNat_toNat]

theorem mapM_map {β γ : Type} {f : α → β} {read : β → Option γ} {g : α → γ} {items : List α}
    (h : ∀ a ∈ items, read (f a) = some (g a)) :
    (items.map f).mapM read = some (items.map g) := by
  induction items with
  | nil => rfl
  | cons a rest ih =>
    rw [List.map_cons, List.mapM_cons, h a (.head _), ih fun a ha => h a (.tail _ ha)]
    rfl

theorem asList_ofItems {read : Json → Option α} {write : α → Json} {items : List α}
    (h : ∀ a ∈ items, read (write a) = some a) : asList read (ofItems write items) = some items := by
  have hmap := mapM_map (g := id) h
  rwa [List.map_id] at hmap

theorem asDict_ofDict {read : Json → Option α} {write : α → Json} {d : Dict String α}
    (h : ∀ e ∈ d.entries, read (write e.2) = some e.2) :
    asDict read (ofDict write d) = some d := by
  have hmap : (d.entries.map fun e => (e.1, write e.2)).mapM
      (fun m => (read m.2).map (m.1, ·)) = some (d.entries.map id) := by
    refine mapM_map fun e he => ?_
    simp only [h e he, Option.map_some, id]
  simp only [asDict, ofDict, hmap, List.map_id, Option.map_some, Dict.ofList_entries]

end Json

end Fleet
