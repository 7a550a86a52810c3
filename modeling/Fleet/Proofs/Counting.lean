import Fleet.Dict

/-!
# Counting the values of a dictionary

An entry under a new key counts for itself, and so does one that goes; a value in the place of another
counts for the difference:

    (d.insert k v).values is v and d.values, in some order            (values_insert_perm)
    d.values is v and (d.erase k).values, in some order               (values_erase_perm) -/

namespace Fleet

namespace Dict

open Std

variable {κ α : Type} [Ord κ]

theorem place_perm {k : κ} {v : α} {entries : List (κ × α)} (h : lookup k entries = none) :
    (place k v entries).Perm ((k, v) :: entries) := by
  induction entries with
  | nil => exact .refl _
  | cons head rest ih =>
    obtain ⟨k', w⟩ := head
    unfold lookup at h
    split at h
    · cases h
    · rename_i hne
      unfold place
      split
      · exact .refl _
      · rename_i heq
        exact absurd heq hne
      · exact ((ih h).cons _).trans (.swap _ _ _)

variable [TransOrd κ] [LawfulEqOrd κ] {d : Dict κ α} {k : κ}

theorem values_insert_perm (h : d.get? k = none) (v : α) :
    (d.insert k v).values.Perm (v :: d.values) := (place_perm h).map _

theorem countP_insert {v : α} (h : d.get? k = none) (accepts : α → Bool) :
    (d.insert k v).values.countP accepts =
      d.values.countP accepts + if accepts v = true then 1 else 0 := by
  rw [(values_insert_perm h v).countP_eq, List.countP_cons]

variable [DecidableEq κ]

theorem insert_erase (d : Dict κ α) (k : κ) (v : α) : (d.erase k).insert k v = d.insert k v := by
  refine ext_get? fun k' => ?_
  simp only [get?_insert, get?_erase]
  split <;> rfl

theorem insert_eq_self {v : α} (h : d.get? k = some v) : d.insert k v = d := by
  refine ext_get? fun k' => ?_
  rw [get?_insert]
  split
  · rename_i hk
    rw [← hk, h]
  · rfl

/-- The values besides one are those that are left without its key. -/
theorem values_erase_perm {v : α} (h : d.get? k = some v) :
    d.values.Perm (v :: (d.erase k).values) := by
  have hgone : (d.erase k).get? k = none := by rw [get?_erase, if_pos rfl]
  have hperm := values_insert_perm hgone v
  rwa [insert_erase, insert_eq_self h] at hperm

theorem countP_erase {v : α} (h : d.get? k = some v) (accepts : α → Bool) :
    d.values.countP accepts =
      (d.erase k).values.countP accepts + if accepts v = true then 1 else 0 := by
  rw [(values_erase_perm h).countP_eq, List.countP_cons]

/-- A value in the place of another counts as that one did. -/
theorem countP_replace {v v' : α} (h : d.get? k = some v) {accepts : α → Bool}
    (hsame : accepts v = accepts v') :
    (d.insert k v').values.countP accepts = d.values.countP accepts := by
  have hgone : (d.erase k).get? k = none := by rw [get?_erase, if_pos rfl]
  rw [countP_erase h, ← insert_erase d, countP_insert hgone, hsame]

end Dict

end Fleet
