/-!
# Texts are ordered as their bytes are

The order of texts compares characters. It is the order of their UTF-8 bytes, so a listing that is sorted
by ids is sorted byte by byte:

    compare s t = .lt ↔ bytes s < bytes t                    (compare_eq_lt_iff_bytes)

For where two characters are in order, their codes first differ in two bytes that are in that order
(`parts_utf8EncodeChar`), whatever comes after them. -/

namespace Fleet.Text

def bytes (s : String) : List UInt8 := s.toUTF8.data.toList

/-- Whether two lists have the same elements up to a place where the first list has the lesser one. -/
inductive Parts {β : Type} [LT β] : List β → List β → Prop
  | here {x y : β} {l l' : List β} (h : x < y) : Parts (x :: l) (y :: l')
  | later {x : β} {l l' : List β} (h : Parts l l') : Parts (x :: l) (x :: l')

/-- Lists that part stay in order, whatever comes after them. -/
theorem Parts.append_lt {β : Type} [LT β] {l l' : List β} (h : Parts l l') (back back' : List β) :
    l ++ back < l' ++ back' := by
  induction h with
  | here h => exact .rel h
  | later _ ih => exact .cons ih

/-- A code whose words for elements in order part, and are not empty, keeps the order of lists. -/
theorem flatMap_lt {α β : Type} [LT α] [LT β] {code : α → List β}
    (hcode : ∀ c d, c < d → Parts (code c) (code d)) (hword : ∀ c, code c ≠ []) {l l' : List α}
    (h : l < l') : l.flatMap code < l'.flatMap code := by
  induction h with
  | @nil d rest =>
    rw [List.flatMap_cons]
    cases hd : code d with
    | nil => exact absurd hd (hword d)
    | cons x word => exact .nil
  | @rel c rest d rest' h =>
    rw [List.flatMap_cons, List.flatMap_cons]
    exact (hcode c d h).append_lt _ _
  | @cons c rest rest' h ih =>
    rw [List.flatMap_cons, List.flatMap_cons]
    exact List.append_left_lt ih

/-- Bytes that are in order, or equal with what comes after them in order. -/
theorem Parts.of_le {x y : Nat} {l l' : List UInt8} (hy : y < 256) (hle : x ≤ y)
    (hlater : x = y → Parts l l') : Parts (.ofNat x :: l) (.ofNat y :: l') := by
  rcases Nat.lt_or_eq_of_le hle with hlt | heq
  · refine .here (UInt8.lt_iff_toNat_lt.2 ?_)
    rwa [UInt8.toNat_ofNat_of_lt' (Nat.lt_trans hlt hy), UInt8.toNat_ofNat_of_lt' hy]
  · subst heq
    exact .later (hlater rfl)

/-- The codes of characters that are in order part. -/
theorem parts_utf8EncodeChar {c d : Char} (h : c < d) :
    Parts (String.utf8EncodeChar c) (String.utf8EncodeChar d) := by
  have hlt : c.val.toNat < d.val.toNat := UInt32.lt_iff_toNat_lt.1 (Char.lt_def.1 h)
  have hmax : d.val.toNat < 1114112 := by
    rcases d.valid with hd | ⟨-, hd⟩
    · exact Nat.lt_trans hd (by decide)
    · exact hd
  unfold String.utf8EncodeChar
  generalize c.val.toNat = v at hlt ⊢
  generalize d.val.toNat = w at hlt hmax ⊢
  -- A shorter code begins with a lesser byte, and codes of one length are compared digit by digit.
  by_cases hv1 : v ≤ 127
  · by_cases hw1 : w ≤ 127
    · simp only [if_pos hv1, if_pos hw1]
      exact .of_le (by omega) (by omega) (by omega)
    · simp only [if_pos hv1, if_neg hw1]
      split
      · exact .of_le (by omega) (by omega) (by omega)
      · split
        · exact .of_le (by omega) (by omega) (by omega)
        · exact .of_le (by omega) (by omega) (by omega)
  · have hw1 : ¬ w ≤ 127 := by omega
    by_cases hv2 : v ≤ 2047
    · by_cases hw2 : w ≤ 2047
      · simp only [if_neg hv1, if_neg hw1, if_pos hv2, if_pos hw2]
        exact .of_le (by omega) (by omega) fun _ => .of_le (by omega) (by omega) (by omega)
      · simp only [if_neg hv1, if_neg hw1, if_pos hv2, if_neg hw2]
        split
        · exact .of_le (by omega) (by omega) (by omega)
        · exact .of_le (by omega) (by omega) (by omega)
    · have hw2 : ¬ w ≤ 2047 := by omega
      by_cases hv3 : v ≤ 65535
      · by_cases hw3 : w ≤ 65535
        · simp only [if_neg hv1, if_neg hw1, if_neg hv2, if_neg hw2, if_pos hv3, if_pos hw3]
          exact .of_le (by omega) (by omega) fun _ => .of_le (by omega) (by omega) fun _ =>
            .of_le (by omega) (by omega) (by omega)
        · simp only [if_neg hv1, if_neg hw1, if_neg hv2, if_neg hw2, if_pos hv3, if_neg hw3]
          exact .of_le (by omega) (by omega) (by omega)
      · have hw3 : ¬ w ≤ 65535 := by omega
        simp only [if_neg hv1, if_neg hw1, if_neg hv2, if_neg hw2, if_neg hv3, if_neg hw3]
        exact .of_le (by omega) (by omega) fun _ => .of_le (by omega) (by omega) fun _ =>
          .of_le (by omega) (by omega) fun _ => .of_le (by omega) (by omega) (by omega)

theorem bytes_eq_flatMap (s : String) : bytes s = s.toList.flatMap String.utf8EncodeChar := by
  unfold bytes
  rw [String.toUTF8, ← String.utf8Encode_toList, List.utf8Encode, List.data_toByteArray]

theorem bytes_lt_of_lt {s t : String} (h : s < t) : bytes s < bytes t := by
  rw [bytes_eq_flatMap, bytes_eq_flatMap]
  exact flatMap_lt (fun _ _ => parts_utf8EncodeChar) (fun _ => String.utf8EncodeChar_ne_nil)
    (String.lt_iff.1 h)

/-- One text comes before another exactly when its bytes do. -/
theorem compare_eq_lt_iff_bytes {s t : String} : compare s t = .lt ↔ bytes s < bytes t := by
  have hlt : ∀ {s t : String}, compare s t = .lt → s < t := by
    intro s t h
    change compareOfLessAndEq s t = .lt at h
    unfold compareOfLessAndEq at h
    split at h
    · assumption
    · split at h <;> cases h
  constructor
  · exact fun h => bytes_lt_of_lt (hlt h)
  · intro h
    cases hst : compare s t with
    | lt => rfl
    | eq =>
      rw [Std.compare_eq_iff_eq.1 hst] at h
      exact absurd h (List.lt_irrefl _)
    | gt =>
      have hback := bytes_lt_of_lt (hlt (Std.OrientedCmp.gt_iff_lt.1 hst))
      exact absurd hback (List.lt_asymm h)

end Fleet.Text
