import Fleet.Text.Blank
import Fleet.Text.Slug

/-!
# Classes of characters

The letters and digits of ASCII by their ranges (`isWordChar_iff`), how capitals become small
(`toNat_toLower`, `toLower_of_not_capital`), and white space by its code points (`isBlank_iff`). A text
without the white space around it is the one between blanks that neither begins nor ends with one
(`trims_iff`). -/

namespace Fleet.Text

/-! ## Letters and digits -/

/-- The capital letters of ASCII. -/
def IsCapital (c : Char) : Prop := 'A' ≤ c ∧ c ≤ 'Z'

/-- The small letters and the digits of ASCII. -/
def IsPlain (c : Char) : Prop := ('a' ≤ c ∧ c ≤ 'z') ∨ ('0' ≤ c ∧ c ≤ '9')

instance : DecidablePred IsPlain := fun _ => inferInstanceAs (Decidable (_ ∨ _))

/-- The letters and digits of ASCII. -/
def IsLetterOrDigit (c : Char) : Prop :=
  ('a' ≤ c ∧ c ≤ 'z') ∨ ('A' ≤ c ∧ c ≤ 'Z') ∨ ('0' ≤ c ∧ c ≤ '9')

variable {c : Char}

theorem isCapital_iff : IsCapital c ↔ 65 ≤ c.toNat ∧ c.toNat ≤ 90 := by
  unfold IsCapital
  rw [Char.le_def, Char.le_def, UInt32.le_iff_toNat_le, UInt32.le_iff_toNat_le]
  rfl

theorem isPlain_iff :
    IsPlain c ↔ (97 ≤ c.toNat ∧ c.toNat ≤ 122) ∨ (48 ≤ c.toNat ∧ c.toNat ≤ 57) := by
  unfold IsPlain
  simp only [Char.le_def, UInt32.le_iff_toNat_le]
  rfl

theorem isDigit_iff : c.isDigit = true ↔ '0' ≤ c ∧ c ≤ '9' := by
  show (decide _ && decide _) = true ↔ _
  rw [Bool.and_eq_true, decide_eq_true_iff, decide_eq_true_iff]
  rfl

theorem isUpper_iff : c.isUpper = true ↔ IsCapital c := decide_eq_true_iff

theorem isWordChar_iff : isWordChar c = true ↔ IsLetterOrDigit c := by
  have hlower : c.isLower = true ↔ 'a' ≤ c ∧ c ≤ 'z' := by
    show (decide _ && decide _) = true ↔ _
    rw [Bool.and_eq_true, decide_eq_true_iff, decide_eq_true_iff]
    rfl
  show (c.isUpper || c.isLower || c.isDigit) = true ↔ _
  rw [Bool.or_eq_true, Bool.or_eq_true, isUpper_iff, hlower, isDigit_iff, or_assoc, or_left_comm]
  rfl

theorem not_isWordChar_iff : isWordChar c = false ↔ ¬ IsLetterOrDigit c := by
  rw [← isWordChar_iff, Bool.not_eq_true]

/-! ## Small letters -/

theorem toNat_toLower (h : IsCapital c) : c.toLower.toNat = c.toNat + 32 := by
  have hrange : c.val ≥ 'A'.val ∧ c.val ≤ 'Z'.val := h
  have hval : c.toLower.val = c.val + 32 := by
    unfold Char.toLower
    rw [dif_pos hrange]
    rfl
  obtain ⟨hlow, hhigh⟩ := isCapital_iff.1 h
  show c.toLower.val.toNat = _
  rw [hval, UInt32.toNat_add]
  show (c.toNat + 32) % 4294967296 = _
  omega

theorem toLower_of_not_capital (h : ¬ IsCapital c) : c.toLower = c := by
  have hrange : ¬ (c.val ≥ 'A'.val ∧ c.val ≤ 'Z'.val) := h
  unfold Char.toLower
  rw [dif_neg hrange]

theorem IsPlain.not_capital (h : IsPlain c) : ¬ IsCapital c := by
  rw [isCapital_iff]
  rw [isPlain_iff] at h
  omega

theorem IsPlain.toLower_eq (h : IsPlain c) : c.toLower = c := toLower_of_not_capital h.not_capital

theorem IsPlain.isLetterOrDigit (h : IsPlain c) : IsLetterOrDigit c := by
  rcases h with h | h
  · exact .inl h
  · exact .inr (.inr h)

theorem IsPlain.ne_dash (h : IsPlain c) : c ≠ '-' := by
  rintro rfl
  rw [isPlain_iff] at h
  revert h
  decide

theorem isPlain_toLower (h : IsLetterOrDigit c) : IsPlain c.toLower := by
  by_cases hcapital : IsCapital c
  · have hlower := toNat_toLower hcapital
    rw [isCapital_iff] at hcapital
    rw [isPlain_iff]
    omega
  · rw [toLower_of_not_capital hcapital]
    rcases h with h | h | h
    · exact .inl h
    · exact absurd h hcapital
    · exact .inr h

/-! ## White space -/

/-- The code points that have the property White_Space. -/
def whiteSpace : List Nat :=
  [0x9, 0xa, 0xb, 0xc, 0xd, 0x20, 0x85, 0xa0, 0x1680, 0x2000, 0x2001, 0x2002, 0x2003, 0x2004, 0x2005,
   0x2006, 0x2007, 0x2008, 0x2009, 0x200a, 0x2028, 0x2029, 0x202f, 0x205f, 0x3000]

def IsWhite (c : Char) : Prop := c.toNat ∈ whiteSpace

theorem isBlank_iff : isBlank c = true ↔ IsWhite c := by
  unfold isBlank blankRanges IsWhite whiteSpace
  simp only [List.any_cons, List.any_nil, Bool.or_false, Bool.or_eq_true, Bool.and_eq_true,
    decide_eq_true_iff, List.mem_cons, List.not_mem_nil, or_false]
  omega

theorem not_isBlank_iff : isBlank c = false ↔ ¬ IsWhite c := by
  rw [← isBlank_iff, Bool.not_eq_true]

theorem IsPlain.not_isWhite (h : IsPlain c) : ¬ IsWhite c := by
  rw [isPlain_iff] at h
  unfold IsWhite whiteSpace
  simp only [List.mem_cons, List.not_mem_nil, or_false]
  omega

/-! ## Texts without the white space around them -/

/-- Whether `text` is left of `raw` when the white space at its two ends is taken off. -/
structure Trims (raw text : List Char) : Prop where
  between : ∃ before after, raw = before ++ text ++ after ∧ (∀ c ∈ before, IsWhite c) ∧
    ∀ c ∈ after, IsWhite c
  head : ∀ c, text.head? = some c → ¬ IsWhite c
  last : ∀ c, text.getLast? = some c → ¬ IsWhite c

/-- A text of small letters and digits has no white space to take off. -/
theorem Trims.self {text : List Char} (h : ∀ c ∈ text, IsPlain c) : Trims text text where
  between := ⟨[], [], (List.append_nil text).symm, nofun, nofun⟩
  head c hc := (h c (List.mem_of_head? hc)).not_isWhite
  last c hc := (h c (List.mem_of_getLast? hc)).not_isWhite

theorem dropBlanks_append {before rest : List Char} (h : ∀ c ∈ before, IsWhite c) :
    dropBlanks (before ++ rest) = dropBlanks rest :=
  List.dropWhile_append_of_pos fun c hc => isBlank_iff.2 (h c hc)

theorem dropBlanks_of_head {text : List Char} (h : ∀ c, text.head? = some c → ¬ IsWhite c) :
    dropBlanks text = text := by
  cases text with
  | nil => rfl
  | cons c rest =>
    have hc : isBlank c = false := not_isBlank_iff.2 (h c rfl)
    exact List.dropWhile_cons_of_neg (by simp [hc])

theorem head?_dropBlanks {text : List Char} {c : Char} (h : (dropBlanks text).head? = some c) :
    ¬ IsWhite c := by
  have hhead := List.head?_dropWhile_not isBlank text
  unfold dropBlanks at h
  rw [h] at hhead
  exact not_isBlank_iff.1 hhead

/-- What stands before the rest is white. -/
theorem exists_dropBlanks (text : List Char) :
    ∃ before, text = before ++ dropBlanks text ∧ ∀ c ∈ before, IsWhite c :=
  ⟨text.takeWhile isBlank, List.takeWhile_append_dropWhile.symm, fun c hc =>
    isBlank_iff.1 (List.all_eq_true.1 List.all_takeWhile c hc)⟩

theorem trims_trimChars (raw : List Char) : Trims raw (trimChars raw) := by
  obtain ⟨before, hbefore, hwhite⟩ := exists_dropBlanks raw
  obtain ⟨after, hafter, hwhite'⟩ := exists_dropBlanks (dropBlanks raw).reverse
  have hmiddle : dropBlanks raw = trimChars raw ++ after.reverse := by
    rw [← List.reverse_reverse (dropBlanks raw), hafter, List.reverse_append]
    rfl
  refine ⟨⟨before, after.reverse, ?_, hwhite, fun c hc => hwhite' c (List.mem_reverse.1 hc)⟩,
    fun c hc => ?_, fun c hc => ?_⟩
  · rw [List.append_assoc, ← hmiddle]
    exact hbefore
  · apply @head?_dropBlanks raw
    rw [hmiddle, List.head?_append, hc]
    rfl
  · apply @head?_dropBlanks (dropBlanks raw).reverse
    rw [← List.getLast?_reverse]
    exact hc

theorem trims_iff {raw text : List Char} : Trims raw text ↔ text = trimChars raw := by
  constructor
  · rintro ⟨⟨before, after, rfl, hbefore, hafter⟩, hhead, hlast⟩
    unfold trimChars
    rw [List.append_assoc, dropBlanks_append hbefore]
    cases text with
    | nil =>
      have hnone : dropBlanks after = [] := by
        have hdrop : dropBlanks (after ++ []) = dropBlanks [] := dropBlanks_append hafter
        rw [List.append_nil] at hdrop
        exact hdrop
      rw [List.nil_append, hnone]
      rfl
    | cons c rest =>
      have hreverse : ∀ d ∈ after.reverse, IsWhite d := fun d hd => hafter d (List.mem_reverse.1 hd)
      rw [@dropBlanks_of_head (c :: rest ++ after) hhead, List.reverse_append,
        dropBlanks_append hreverse, @dropBlanks_of_head (c :: rest).reverse,
        List.reverse_reverse]
      intro d hd
      rw [List.head?_reverse] at hd
      exact hlast d hd
  · rintro rfl
    exact trims_trimChars raw

theorem eq_trim_iff {raw text : String} : text = trim raw ↔ Trims raw.toList text.toList := by
  unfold trim
  rw [trims_iff, ← String.toList_inj, String.toList_ofList]

end Fleet.Text
