/-!
# Dictionaries in key order

A `Dict` keeps its entries in strictly ascending key order, so two dictionaries with the same
answers are the same dictionary:

    get? (d.insert k v) k' = if k = k' then some v else d.get? k'      (get?_insert)
    (∀ k, d.get? k = d'.get? k) → d = d'                              (ext_get?)

The order of the entries is the order in which a listing shows them.
-/

namespace Fleet

open Std

/-- Entries in strictly ascending key order. -/
def Ascending {κ α : Type} [Ord κ] (entries : List (κ × α)) : Prop :=
  entries.Pairwise fun a b => compare a.1 b.1 = .lt

instance {κ α : Type} [Ord κ] (entries : List (κ × α)) : Decidable (Ascending entries) :=
  inferInstanceAs (Decidable (entries.Pairwise _))

/-- A dictionary from `κ` to `α`, its entries in strictly ascending key order. -/
structure Dict (κ α : Type) [Ord κ] where
  entries : List (κ × α)
  ascending : Ascending entries := by decide

namespace Dict

variable {κ α : Type} [Ord κ]

theorem ext_entries {d d' : Dict κ α} (h : d.entries = d'.entries) : d = d' := by
  cases d; cases d'; simp_all

instance [DecidableEq κ] [DecidableEq α] : DecidableEq (Dict κ α) := fun d d' =>
  if h : d.entries = d'.entries then isTrue (ext_entries h)
  else isFalse fun e => h (e ▸ rfl)

def empty : Dict κ α := ⟨[], .nil⟩

instance : EmptyCollection (Dict κ α) := ⟨empty⟩
instance : Inhabited (Dict κ α) := ⟨empty⟩

def isEmpty (d : Dict κ α) : Bool := d.entries.isEmpty

def size (d : Dict κ α) : Nat := d.entries.length

def keys (d : Dict κ α) : List κ := d.entries.map (·.1)

def values (d : Dict κ α) : List α := d.entries.map (·.2)

/-- The value of the entry with key `k` in a list of entries. -/
def lookup (k : κ) : List (κ × α) → Option α
  | [] => none
  | (k', v) :: rest => if compare k k' = .eq then some v else lookup k rest

def get? (d : Dict κ α) (k : κ) : Option α := lookup k d.entries

def contains (d : Dict κ α) (k : κ) : Bool := (d.get? k).isSome

/-- Puts `v` under `k` in its place, over an entry that is there. -/
def place (k : κ) (v : α) : List (κ × α) → List (κ × α)
  | [] => [(k, v)]
  | (k', v') :: rest =>
    match compare k k' with
    | .lt => (k, v) :: (k', v') :: rest
    | .eq => (k, v) :: rest
    | .gt => (k', v') :: place k v rest

theorem mem_place {k : κ} {v : α} {entries : List (κ × α)} {e : κ × α}
    (h : e ∈ place k v entries) : e = (k, v) ∨ e ∈ entries := by
  induction entries with
  | nil => simp_all [place]
  | cons head rest ih =>
    unfold place at h
    split at h
    · simp_all
    · rcases List.mem_cons.1 h with rfl | h
      · exact .inl rfl
      · exact .inr (List.mem_cons_of_mem _ h)
    · rcases List.mem_cons.1 h with rfl | h
      · exact .inr List.mem_cons_self
      · exact (ih h).imp_right (List.mem_cons_of_mem _)

theorem ascending_place [TransOrd κ] [LawfulEqOrd κ] (k : κ) (v : α) {entries : List (κ × α)}
    (h : Ascending entries) : Ascending (place k v entries) := by
  induction entries with
  | nil => exact List.pairwise_singleton _ _
  | cons head rest ih =>
    have ⟨hhead, hrest⟩ := List.pairwise_cons.1 h
    unfold place
    split
    · rename_i hlt
      refine List.pairwise_cons.2 ⟨fun e he => ?_, h⟩
      rcases List.mem_cons.1 he with rfl | he
      · exact hlt
      · exact TransCmp.lt_trans hlt (hhead e he)
    · rename_i heq
      refine List.pairwise_cons.2 ⟨fun e he => ?_, hrest⟩
      rw [LawfulEqCmp.eq_of_compare heq]
      exact hhead e he
    · rename_i hgt
      refine List.pairwise_cons.2 ⟨fun e he => ?_, ih hrest⟩
      rcases mem_place he with rfl | he
      · exact OrientedCmp.lt_of_gt hgt
      · exact hhead e he

/-- Stores `v` under `k`, replacing what was there. -/
def insert [TransOrd κ] [LawfulEqOrd κ] (d : Dict κ α) (k : κ) (v : α) : Dict κ α :=
  ⟨place k v d.entries, ascending_place k v d.ascending⟩

def erase (d : Dict κ α) (k : κ) : Dict κ α :=
  ⟨d.entries.filter fun e => compare k e.1 != .eq, d.ascending.filter _⟩

/-- The dictionary of a list of entries; of two entries with one key the later counts. -/
def ofList [TransOrd κ] [LawfulEqOrd κ] (entries : List (κ × α)) : Dict κ α :=
  entries.foldl (fun d e => d.insert e.1 e.2) empty

def filter (d : Dict κ α) (keep : κ → α → Bool) : Dict κ α :=
  ⟨d.entries.filter fun e => keep e.1 e.2, d.ascending.filter _⟩

/-! ## What each operation does to the answers -/

@[simp] theorem get?_empty (k : κ) : (empty : Dict κ α).get? k = none := rfl

theorem lookup_place [TransOrd κ] [LawfulEqOrd κ] [DecidableEq κ] (k k' : κ) (v : α)
    (entries : List (κ × α)) :
    lookup k' (place k v entries) = if k = k' then some v else lookup k' entries := by
  induction entries with
  | nil =>
    simp only [place, lookup, Std.compare_eq_iff_eq]
    grind
  | cons head rest ih =>
    obtain ⟨h, w⟩ := head
    unfold place
    split
    · rename_i hlt
      simp only [lookup, Std.compare_eq_iff_eq]
      grind
    · rename_i heq
      have := LawfulEqCmp.eq_of_compare heq
      simp only [lookup, Std.compare_eq_iff_eq]
      grind
    · rename_i hgt
      have hne : k ≠ h := by
        rintro rfl
        simp at hgt
      simp only [lookup, Std.compare_eq_iff_eq, ih]
      grind

@[simp] theorem get?_insert [TransOrd κ] [LawfulEqOrd κ] [DecidableEq κ] (d : Dict κ α)
    (k k' : κ) (v : α) : (d.insert k v).get? k' = if k = k' then some v else d.get? k' :=
  lookup_place k k' v d.entries

theorem lookup_filter_ne [LawfulEqOrd κ] [DecidableEq κ] (k k' : κ) (entries : List (κ × α)) :
    lookup k' (entries.filter fun e => compare k e.1 != .eq)
      = if k = k' then none else lookup k' entries := by
  induction entries with
  | nil => simp [lookup]
  | cons head rest ih =>
    obtain ⟨h, w⟩ := head
    by_cases hk : k = h
    · subst hk
      rw [List.filter_cons_of_neg (by simp), ih]
      simp only [lookup, Std.compare_eq_iff_eq]
      grind
    · rw [List.filter_cons_of_pos (by simpa using hk)]
      simp only [lookup, Std.compare_eq_iff_eq, ih]
      grind

@[simp] theorem get?_erase [LawfulEqOrd κ] [DecidableEq κ] (d : Dict κ α) (k k' : κ) :
    (d.erase k).get? k' = if k = k' then none else d.get? k' :=
  lookup_filter_ne k k' d.entries

/-- What is found after an erasure was there before. -/
theorem get?_of_erase [LawfulEqOrd κ] [DecidableEq κ] {d : Dict κ α} {k k' : κ} {v : α}
    (h : (d.erase k).get? k' = some v) : d.get? k' = some v := by
  rw [get?_erase] at h
  split at h
  · cases h
  · exact h

theorem lookup_eq_some_of_mem [TransOrd κ] [LawfulEqOrd κ] {k : κ} {v : α}
    {entries : List (κ × α)} (h : Ascending entries) (hm : (k, v) ∈ entries) :
    lookup k entries = some v := by
  induction entries with
  | nil => cases hm
  | cons head rest ih =>
    obtain ⟨k', w⟩ := head
    have ⟨hhead, hrest⟩ := List.pairwise_cons.1 h
    rcases List.mem_cons.1 hm with heq | hm
    · cases heq
      simp [lookup]
    · have hlt := hhead _ hm
      have hne : ¬ compare k k' = .eq := by
        intro heq
        rw [LawfulEqCmp.eq_of_compare heq] at hlt
        simp at hlt
      simp [lookup, hne, ih hrest hm]

theorem mem_of_lookup_eq_some [LawfulEqOrd κ] {k : κ} {v : α} {entries : List (κ × α)}
    (h : lookup k entries = some v) : (k, v) ∈ entries := by
  induction entries with
  | nil => cases h
  | cons head rest ih =>
    obtain ⟨k', w⟩ := head
    unfold lookup at h
    split at h
    · rename_i heq
      cases h
      rw [LawfulEqCmp.eq_of_compare heq]
      exact List.mem_cons_self
    · exact List.mem_cons_of_mem _ (ih h)

/-- An entry is in the list exactly when it is the answer for its key. -/
theorem mem_entries_iff [TransOrd κ] [LawfulEqOrd κ] {d : Dict κ α} {k : κ} {v : α} :
    (k, v) ∈ d.entries ↔ d.get? k = some v :=
  ⟨lookup_eq_some_of_mem d.ascending, mem_of_lookup_eq_some⟩

/-- Ascending lists with the same entries are equal. -/
theorem ascending_ext [TransOrd κ] {l l' : List (κ × α)} (h : Ascending l) (h' : Ascending l')
    (hmem : ∀ e, e ∈ l ↔ e ∈ l') : l = l' := by
  induction l generalizing l' with
  | nil =>
    cases l' with
    | nil => rfl
    | cons e _ => exact absurd ((hmem e).2 List.mem_cons_self) (by simp)
  | cons a r ih =>
    cases l' with
    | nil => exact absurd ((hmem a).1 List.mem_cons_self) (by simp)
    | cons b r' =>
      have ⟨ha, hr⟩ := List.pairwise_cons.1 h
      have ⟨hb, hr'⟩ := List.pairwise_cons.1 h'
      have not_both : ∀ {x y : κ × α}, compare x.1 y.1 = .lt → compare y.1 x.1 = .lt → False := by
        intro x y h1 h2
        have := OrientedCmp.gt_of_lt h1
        simp_all
      have hab : a = b := by
        rcases List.mem_cons.1 ((hmem a).1 List.mem_cons_self) with h1 | h1
        · exact h1
        · rcases List.mem_cons.1 ((hmem b).2 List.mem_cons_self) with h2 | h2
          · exact h2.symm
          · exact (not_both (hb a h1) (ha b h2)).elim
      subst hab
      congr 1
      refine ih hr hr' fun e => ⟨fun he => ?_, fun he => ?_⟩
      · rcases List.mem_cons.1 ((hmem e).1 (List.mem_cons_of_mem _ he)) with rfl | h1
        · exact (not_both (ha e he) (ha e he)).elim
        · exact h1
      · rcases List.mem_cons.1 ((hmem e).2 (List.mem_cons_of_mem _ he)) with rfl | h1
        · exact (not_both (hb e he) (hb e he)).elim
        · exact h1

/-- Dictionaries that answer alike are equal. -/
theorem ext_get? [TransOrd κ] [LawfulEqOrd κ] {d d' : Dict κ α}
    (h : ∀ k, d.get? k = d'.get? k) : d = d' := by
  refine ext_entries (ascending_ext d.ascending d'.ascending fun e => ?_)
  obtain ⟨k, v⟩ := e
  simp only [mem_entries_iff, h]

theorem mem_keys_iff [TransOrd κ] [LawfulEqOrd κ] {d : Dict κ α} {k : κ} :
    k ∈ d.keys ↔ ∃ v, d.get? k = some v := by
  unfold keys
  rw [List.mem_map]
  constructor
  · rintro ⟨⟨k', v⟩, hmem, rfl⟩
    exact ⟨v, mem_entries_iff.1 hmem⟩
  · rintro ⟨v, hv⟩
    exact ⟨(k, v), mem_entries_iff.2 hv, rfl⟩

theorem nodup_keys [TransOrd κ] [LawfulEqOrd κ] (d : Dict κ α) : d.keys.Nodup := by
  refine List.pairwise_map.2 (d.ascending.imp fun hlt heq => ?_)
  rw [heq, Std.compare_eq_iff_eq.2 rfl] at hlt
  cases hlt

end Dict

end Fleet
