import Fleet.Settings
import Fleet.Proofs.Characters
import Mathlib.Data.List.Forall2
import Mathlib.Data.Nat.Digits.Defs

/-!
# Settings and the variables that they are read from

A variable that is there and not blank holds a text (`Holds`), its value without the white space around it.
Which number a text writes (`Writes`) and which answer it gives (`Says`) is told without the readers:

    number? text = some n ↔ Writes text n.toNat                                (number?_eq_some_iff)
    boolean? text = some b ↔ Says text b                                       (boolean?_eq_some_iff)

The four variables that can be refused are checked in a fixed order (`checks`). Settings are read exactly if
all pass, and then they are what the variables say (`read_eq_ok_iff`); otherwise the first that fails is
reported (`read_eq_error_iff`). -/

namespace Fleet.Settings

open Text

/-! ## Numbers -/

/-- The number that a text writes: one or more digits in base ten, perhaps after a plus sign. -/
def Writes (text : String) (n : Nat) : Prop :=
  ∃ sign digits, text.toList = sign ++ digits ∧ (sign = [] ∨ sign = ['+']) ∧ digits ≠ [] ∧
    (∀ d ∈ digits, '0' ≤ d ∧ d ≤ '9') ∧
    n = Nat.ofDigits 10 (digits.reverse.map fun d => d.toNat - '0'.toNat)

/-- The place values of digits add up to the number that is read from left to right. -/
theorem ofDigits_reverse (digits : List Char) :
    Nat.ofDigits 10 (digits.reverse.map fun d => d.toNat - '0'.toNat) =
      Nat.ofDigitChars 10 digits 0 := by
  induction digits with
  | nil => rfl
  | cons d digits ih =>
    have hfirst := @Nat.ofDigitChars_eq_ofDigitChars_zero digits (10 * 0 + (d.toNat - '0'.toNat))
    rw [List.reverse_cons, List.map_append, Nat.ofDigits_append, ih, List.length_map,
      List.length_reverse, List.map_cons, List.map_nil, Nat.ofDigits_singleton, Nat.ofDigitChars_cons,
      hfirst, Nat.mul_zero, Nat.zero_add, Nat.add_comm]

/-- What is left of a text without a plus sign in front. -/
def unsigned (cs : List Char) : List Char :=
  match cs with
  | '+' :: ds => ds
  | ds => ds

theorem writes_iff {text : String} {n : Nat} :
    Writes text n ↔ unsigned text.toList ≠ [] ∧ (unsigned text.toList).all Char.isDigit = true ∧
      n = Nat.ofDigitChars 10 (unsigned text.toList) 0 := by
  have hall : ∀ digits : List Char,
      digits.all Char.isDigit = true ↔ ∀ d ∈ digits, '0' ≤ d ∧ d ≤ '9' := by
    intro digits
    rw [List.all_eq_true]
    simp only [isDigit_iff]
  have hplain : ∀ digits : List Char, digits ≠ [] → (∀ d ∈ digits, '0' ≤ d ∧ d ≤ '9') →
      unsigned digits = digits := by
    intro digits hne hdigits
    unfold unsigned
    split
    · exact absurd (hdigits '+' (.head _)) (by decide)
    · rfl
  rw [hall]
  constructor
  · rintro ⟨sign, digits, htext, hsign, hne, hdigits, rfl⟩
    have hrest : unsigned text.toList = digits := by
      rcases hsign with rfl | rfl
      · rw [htext, List.nil_append]
        exact hplain digits hne hdigits
      · rw [htext]
        rfl
    rw [hrest]
    exact ⟨hne, hdigits, ofDigits_reverse digits⟩
  · rintro ⟨hne, hdigits, hn⟩
    rw [← ofDigits_reverse] at hn
    by_cases hsign : ∃ ds, text.toList = '+' :: ds
    · obtain ⟨ds, hds⟩ := hsign
      rw [hds] at hne hdigits hn
      exact ⟨['+'], ds, hds, .inr rfl, hne, hdigits, hn⟩
    · have hrest : unsigned text.toList = text.toList := by
        unfold unsigned
        split
        · next ds hds => exact absurd ⟨ds, hds⟩ hsign
        · rfl
      rw [hrest] at hne hdigits hn
      exact ⟨[], text.toList, rfl, .inl rfl, hne, hdigits, hn⟩

theorem Writes.unique {text : String} {n m : Nat} (hn : Writes text n) (hm : Writes text m) : n = m := by
  rw [(writes_iff.1 hn).2.2, (writes_iff.1 hm).2.2]

/-- A number is read just if the text writes it and it fits. -/
theorem number?_eq_some_iff {text : String} {n : UInt64} :
    number? text = some n ↔ Writes text n.toNat := by
  have hread : number? text =
      if unsigned text.toList ≠ [] ∧ (unsigned text.toList).all Char.isDigit = true ∧
          Nat.ofDigitChars 10 (unsigned text.toList) 0 < UInt64.size then
        some (.ofNat (Nat.ofDigitChars 10 (unsigned text.toList) 0)) else none := rfl
  rw [hread, writes_iff]
  constructor
  · intro h
    split at h
    · next hfits =>
      obtain ⟨hne, hall, hlt⟩ := hfits
      refine ⟨hne, hall, ?_⟩
      rw [← Option.some.inj h]
      exact UInt64.toNat_ofNat_of_lt' hlt
    · cases h
  · rintro ⟨hne, hall, hn⟩
    rw [if_pos ⟨hne, hall, hn ▸ n.toNat_lt⟩, ← hn, UInt64.ofNat_toNat]

/-! ## Answers -/

/-- Whether a character is a letter or the capital of that letter. -/
def SpellsLetter (c d : Char) : Prop := c = d ∨ (('A' ≤ c ∧ c ≤ 'Z') ∧ c.toNat + 32 = d.toNat)

/-- Whether a text spells a word of small letters, each letter small or capital. -/
def Spells (text word : String) : Prop := List.Forall₂ SpellsLetter text.toList word.toList

/-- The answer that a text gives. -/
def Says (text : String) (b : Bool) : Prop :=
  ∃ word ∈ (if b then ["1", "true", "yes", "on"] else ["0", "false", "no", "off"]), Spells text word

theorem spellsLetter_iff {c d : Char} (hd : ¬ IsCapital d) : SpellsLetter c d ↔ c.toLower = d := by
  by_cases hc : IsCapital c
  · rw [← Char.toNat_inj (c := c.toLower), toNat_toLower hc]
    constructor
    · rintro (rfl | ⟨-, h⟩)
      · exact absurd hc hd
      · exact h
    · exact fun h => .inr ⟨hc, h⟩
  · rw [toLower_of_not_capital hc]
    constructor
    · rintro (h | ⟨hcapital, -⟩)
      · exact h
      · exact absurd hcapital hc
    · exact .inl

theorem forall₂_toLower {cs ds : List Char} (hsmall : ∀ d ∈ ds, ¬ IsCapital d) :
    List.Forall₂ SpellsLetter cs ds ↔ cs.map Char.toLower = ds := by
  induction cs generalizing ds with
  | nil => cases ds <;> simp
  | cons c cs ih =>
    cases ds with
    | nil => simp
    | cons d ds =>
      obtain ⟨hd, hds⟩ := List.forall_mem_cons.1 hsmall
      rw [List.forall₂_cons, ih hds, spellsLetter_iff hd, List.map_cons, List.cons.injEq]

def small (text : String) : String := String.ofList (text.toList.map Char.toLower)

theorem not_isCapital_of_mem {word : String} (h : word ∈ yesWords ++ noWords) :
    ∀ d ∈ word.toList, ¬ IsCapital d := by
  have hall : (yesWords ++ noWords).all (fun word => word.toList.all fun d => !d.isUpper) = true := rfl
  intro d hd
  have hnot := List.all_eq_true.1 (List.all_eq_true.1 hall word h) d hd
  rw [← isUpper_iff]
  simpa using hnot

theorem spells_iff {text word : String} (h : word ∈ yesWords ++ noWords) :
    Spells text word ↔ small text = word := by
  unfold Spells small
  rw [forall₂_toLower (not_isCapital_of_mem h), ← String.toList_inj, String.toList_ofList]

theorem says_iff {text : String} {b : Bool} :
    Says text b ↔ small text ∈ if b then yesWords else noWords := by
  have hword : ∀ word ∈ if b then yesWords else noWords, word ∈ yesWords ++ noWords := by
    intro word h
    cases b with
    | true => exact List.mem_append_left _ h
    | false => exact List.mem_append_right _ h
  constructor
  · rintro ⟨word, h, hspells⟩
    rw [(spells_iff (hword word h)).1 hspells]
    exact h
  · intro h
    exact ⟨_, h, (spells_iff (hword _ h)).2 rfl⟩

/-- A truth value is read just if the text gives that answer. -/
theorem boolean?_eq_some_iff {text : String} {b : Bool} : boolean? text = some b ↔ Says text b := by
  have hread : boolean? text = if yesWords.contains (small text) then some true
      else if noWords.contains (small text) then some false else none := rfl
  have hapart : ∀ word ∈ yesWords, word ∉ noWords := by decide
  rw [hread, says_iff]
  simp only [List.contains_iff_mem]
  by_cases hyes : small text ∈ yesWords
  · rw [if_pos hyes]
    cases b with
    | true => exact iff_of_true rfl hyes
    | false => exact iff_of_false nofun (hapart _ hyes)
  · rw [if_neg hyes]
    by_cases hno : small text ∈ noWords
    · rw [if_pos hno]
      cases b with
      | true => exact iff_of_false nofun hyes
      | false => exact iff_of_true rfl hno
    · rw [if_neg hno]
      cases b with
      | true => exact iff_of_false nofun hyes
      | false => exact iff_of_false nofun hno

/-! ## Variables -/

section

variable (lookup : String → Option String)

/-- Whether a variable holds a text: its value without the white space around it, if that leaves any. -/
def Holds (key text : String) : Prop :=
  ∃ raw, lookup key = some raw ∧ Trims raw.toList text.toList ∧ text ≠ ""

/-- Whether a variable is missing: it has no value or a blank one. -/
def Lacks (key : String) : Prop := ∀ raw, lookup key = some raw → ∀ c ∈ raw.toList, IsWhite c

/-- Whether a setting is what its variable says, or the default if the variable is missing. -/
def Takes {α : Type} (key : String) (default : α) (means : String → α → Prop) (a : α) : Prop :=
  (Lacks lookup key ∧ a = default) ∨ ∃ text, Holds lookup key text ∧ means text a

variable {lookup} {key : String}

theorem value?_eq_some_iff {text : String} : value? lookup key = some text ↔ Holds lookup key text := by
  unfold value? Holds
  rw [Option.bind_eq_some_iff]
  refine exists_congr fun raw => and_congr_right fun _ => ?_
  rw [← eq_trim_iff]
  by_cases hblank : trim raw = ""
  · rw [if_pos hblank, hblank]
    exact iff_of_false nofun fun h => h.2 h.1
  · rw [if_neg hblank, Option.some.injEq]
    constructor
    · rintro rfl
      exact ⟨rfl, hblank⟩
    · exact fun h => h.1.symm

theorem trim_eq_empty_iff {raw : String} : trim raw = "" ↔ ∀ c ∈ raw.toList, IsWhite c := by
  rw [eq_comm, eq_trim_iff]
  constructor
  · rintro ⟨⟨before, after, hraw, hbefore, hafter⟩, -, -⟩ c hc
    rw [hraw, List.append_assoc] at hc
    rcases List.mem_append.1 hc with hc | hc
    · exact hbefore c hc
    · exact hafter c hc
  · intro h
    exact ⟨⟨raw.toList, [], by simp, h, nofun⟩, nofun, nofun⟩

theorem value?_eq_none_iff : value? lookup key = none ↔ Lacks lookup key := by
  unfold value? Lacks
  rw [Option.bind_eq_none_iff]
  refine forall_congr' fun raw => imp_congr_right fun _ => ?_
  rw [← trim_eq_empty_iff]
  by_cases hblank : trim raw = ""
  · rw [if_pos hblank]
    exact iff_of_true rfl hblank
  · rw [if_neg hblank]
    exact iff_of_false nofun hblank

theorem lacks_or_holds (lookup : String → Option String) (key : String) :
    Lacks lookup key ∨ ∃ text, Holds lookup key text := by
  cases hvalue : value? lookup key with
  | none => exact .inl (value?_eq_none_iff.1 hvalue)
  | some text => exact .inr ⟨text, value?_eq_some_iff.1 hvalue⟩

theorem Holds.not_lacks {text : String} (h : Holds lookup key text) : ¬ Lacks lookup key := by
  rw [← value?_eq_none_iff, value?_eq_some_iff.2 h]
  nofun

theorem Holds.unique {text other : String} (h : Holds lookup key text) (h' : Holds lookup key other) :
    other = text := by
  rw [← value?_eq_some_iff] at h h'
  rw [h] at h'
  exact (Option.some.inj h').symm

/-! ## One setting -/

section

variable {α : Type} {default : α} {means : String → α → Prop} {a : α}

theorem takes_of_lacks (h : Lacks lookup key) : Takes lookup key default means a ↔ a = default := by
  constructor
  · rintro (⟨-, ha⟩ | ⟨text, hholds, -⟩)
    · exact ha
    · exact absurd h hholds.not_lacks
  · exact fun ha => .inl ⟨h, ha⟩

theorem takes_of_holds {text : String} (h : Holds lookup key text) :
    Takes lookup key default means a ↔ means text a := by
  constructor
  · rintro (⟨hlacks, -⟩ | ⟨other, hother, hmeans⟩)
    · exact absurd hlacks h.not_lacks
    · rwa [h.unique hother] at hmeans
  · exact fun hmeans => .inr ⟨text, h, hmeans⟩

variable {read? : String → Option α} {refuse : String → String → Invalid}

theorem optional_of_lacks (h : Lacks lookup key) : optional lookup key default read? refuse = .ok default := by
  unfold optional
  rw [value?_eq_none_iff.2 h]

theorem optional_of_some {text : String} (h : Holds lookup key text) (hread : read? text = some a) :
    optional lookup key default read? refuse = .ok a := by
  simp only [optional, value?_eq_some_iff.2 h, hread]

theorem optional_of_none {text : String} (h : Holds lookup key text) (hread : read? text = none) :
    optional lookup key default read? refuse = .error (.invalid (refuse key text)) := by
  simp only [optional, value?_eq_some_iff.2 h, hread]

theorem optional_eq_ok_iff (hmeans : ∀ text a, read? text = some a ↔ means text a) :
    optional lookup key default read? refuse = .ok a ↔ Takes lookup key default means a := by
  rcases lacks_or_holds lookup key with hlacks | ⟨text, hholds⟩
  · rw [optional_of_lacks hlacks, takes_of_lacks hlacks, Except.ok.injEq, eq_comm]
  · rw [takes_of_holds hholds, ← hmeans]
    cases hread : read? text with
    | none =>
      rw [optional_of_none hholds hread]
      exact iff_of_false nofun nofun
    | some b => rw [optional_of_some hholds hread, Except.ok.injEq, Option.some.injEq]

theorem optional_eq_error_iff {f : Failure} :
    optional lookup key default read? refuse = .error f ↔
      ∃ text, Holds lookup key text ∧ read? text = none ∧ f = .invalid (refuse key text) := by
  constructor
  · intro h
    rcases lacks_or_holds lookup key with hlacks | ⟨text, hholds⟩
    · rw [optional_of_lacks hlacks] at h
      cases h
    · cases hread : read? text with
      | none =>
        rw [optional_of_none hholds hread] at h
        cases h
        exact ⟨text, hholds, hread, rfl⟩
      | some b =>
        rw [optional_of_some hholds hread] at h
        cases h
  · rintro ⟨text, hholds, hread, rfl⟩
    exact optional_of_none hholds hread

end

end

/-! ## Checks, one after the other -/

/-- A check of a variable: the texts that it may hold, and how another one is refused. A refusal names the
variable. -/
structure Check where
  key : String
  Admits : String → Prop
  Refuses : String → Invalid → Prop
  refuses_iff : ∀ text, (∃ reason, Refuses text reason) ↔ ¬ Admits text
  names : ∀ text reason, Refuses text reason → ∃ rest, reason.message = key ++ " must be " ++ rest

namespace Check

/-- Whether a variable is missing or holds a text that it may hold. -/
def Passes (c : Check) (lookup : String → Option String) : Prop :=
  ∀ text, Holds lookup c.key text → c.Admits text

/-- Whether a variable holds a text for which a failure refuses it. -/
def Fails (c : Check) (lookup : String → Option String) (f : Failure) : Prop :=
  ∃ text reason, Holds lookup c.key text ∧ c.Refuses text reason ∧ f = .invalid reason

/-- Whether a failure is that of the first check that does not pass. -/
def FirstFails (cs : List Check) (lookup : String → Option String) (f : Failure) : Prop :=
  ∃ before c later, cs = before ++ c :: later ∧ (∀ b ∈ before, b.Passes lookup) ∧ c.Fails lookup f

variable {c : Check} {cs : List Check} {lookup : String → Option String}

theorem passes_iff : c.Passes lookup ↔ ∀ f, ¬ c.Fails lookup f := by
  constructor
  · rintro hpasses f ⟨text, reason, hholds, hrefuses, -⟩
    exact (c.refuses_iff text).1 ⟨reason, hrefuses⟩ (hpasses text hholds)
  · intro hnone text hholds
    by_contra hnot
    obtain ⟨reason, hrefuses⟩ := (c.refuses_iff text).2 hnot
    exact hnone _ ⟨text, reason, hholds, hrefuses, rfl⟩

theorem firstFails_nil {f : Failure} : ¬ FirstFails [] lookup f := by
  rintro ⟨before, c, later, hcs, -⟩
  exact List.append_ne_nil_of_right_ne_nil before (List.cons_ne_nil c later) hcs.symm

theorem firstFails_cons {f : Failure} :
    FirstFails (c :: cs) lookup f ↔ c.Fails lookup f ∨ (c.Passes lookup ∧ FirstFails cs lookup f) := by
  constructor
  · rintro ⟨before, d, later, hcs, hbefore, hfails⟩
    cases before with
    | nil =>
      cases hcs
      exact .inl hfails
    | cons b before =>
      cases hcs
      obtain ⟨hb, hbefore⟩ := List.forall_mem_cons.1 hbefore
      exact .inr ⟨hb, before, d, later, rfl, hbefore, hfails⟩
  · rintro (hfails | ⟨hpasses, before, d, later, rfl, hbefore, hfails⟩)
    · exact ⟨[], c, cs, rfl, nofun, hfails⟩
    · exact ⟨c :: before, d, later, rfl, List.forall_mem_cons.2 ⟨hpasses, hbefore⟩, hfails⟩

theorem none_firstFails_iff : (∀ f, ¬ FirstFails cs lookup f) ↔ ∀ c ∈ cs, c.Passes lookup := by
  induction cs with
  | nil => exact iff_of_true (fun _ => firstFails_nil) nofun
  | cons c cs ih =>
    simp only [firstFails_cons, not_or, not_and, forall_and, List.forall_mem_cons]
    rw [← passes_iff]
    refine and_congr_right fun hpasses => ?_
    simp only [hpasses, true_imp_iff]
    exact ih

/-- A reading that fails as its check does, followed by readings that fail as the checks after it. -/
theorem bind_eq_error_iff {α β : Type} {x : Except Failure α} {k : α → Except Failure β}
    (hx : ∀ f, x = .error f ↔ c.Fails lookup f)
    (hk : ∀ a f, k a = .error f ↔ FirstFails cs lookup f) (f : Failure) :
    x >>= k = .error f ↔ FirstFails (c :: cs) lookup f := by
  rw [firstFails_cons]
  cases x with
  | error e =>
    have he : c.Fails lookup e := (hx e).1 rfl
    constructor
    · intro h
      cases h
      exact .inl he
    · rintro (hfails | ⟨hpasses, -⟩)
      · exact congrArg Except.error (Except.error.inj ((hx f).2 hfails))
      · exact absurd he (passes_iff.1 hpasses e)
  | ok a =>
    have hnone : ∀ f, ¬ c.Fails lookup f := by
      intro f hfails
      cases (hx f).2 hfails
    show k a = .error f ↔ _
    rw [hk a f, and_iff_right (passes_iff.2 hnone), or_iff_right (hnone f)]

end Check

theorem notNumber_names (key text : String) :
    ∃ rest, (Invalid.notNumber key text).message = key ++ " must be " ++ rest := by
  have hmust : " must be a non-negative integer, got " = " must be " ++ "a non-negative integer, got " := rfl
  refine ⟨"a non-negative integer, got " ++ quoted text, ?_⟩
  simp only [Invalid.message, hmust, String.append_assoc]

theorem notBoolean_names (key text : String) :
    ∃ rest, (Invalid.notBoolean key text).message = key ++ " must be " ++ rest := by
  have hmust : " must be a boolean, got " = " must be " ++ "a boolean, got " := rfl
  refine ⟨"a boolean, got " ++ quoted text, ?_⟩
  simp only [Invalid.message, hmust, String.append_assoc]

/-- The check of a variable of which all texts that it may not hold are refused for one reason. -/
def Check.plain (key : String) (admits : String → Prop) (refuse : String → String → Invalid)
    (names : ∀ text, ∃ rest, (refuse key text).message = key ++ " must be " ++ rest) : Check where
  key
  Admits := admits
  Refuses := fun text reason => ¬ admits text ∧ reason = refuse key text
  refuses_iff := fun _ => ⟨fun ⟨_, hnot, _⟩ => hnot, fun hnot => ⟨_, hnot, rfl⟩⟩
  names := by
    rintro text _ ⟨-, rfl⟩
    exact names text

def Check.answer (key : String) : Check :=
  .plain key (fun text => ∃ b, Says text b) .notBoolean (notBoolean_names key)

def Check.number (key : String) : Check :=
  .plain key (fun text => ∃ n, Writes text n ∧ n < UInt64.size) .notNumber (notNumber_names key)

/-- The check of a variable for a number that is not zero. -/
def Check.positive (key : String) : Check where
  key
  Admits := fun text => ∃ n, Writes text n ∧ 0 < n ∧ n < UInt64.size
  Refuses := fun text reason =>
    (Writes text 0 ∧ reason = .notPositive key) ∨
      (¬ ∃ n, Writes text n ∧ n < UInt64.size) ∧ reason = .notNumber key text
  refuses_iff := by
    intro text
    constructor
    · rintro ⟨reason, ⟨hzero, -⟩ | ⟨hnot, -⟩⟩ ⟨n, hwrites, hpos, hlt⟩
      · have hn := hwrites.unique hzero
        omega
      · exact hnot ⟨n, hwrites, hlt⟩
    · intro hnot
      by_cases hnumber : ∃ n, Writes text n ∧ n < UInt64.size
      · obtain ⟨n, hwrites, hlt⟩ := hnumber
        have hzero : n = 0 := by
          by_contra hpos
          exact hnot ⟨n, hwrites, Nat.pos_of_ne_zero hpos, hlt⟩
        exact ⟨_, .inl ⟨hzero ▸ hwrites, rfl⟩⟩
      · exact ⟨_, .inr ⟨hnumber, rfl⟩⟩
  names := by
    rintro text _ (⟨-, rfl⟩ | ⟨-, rfl⟩)
    · refine ⟨"greater than zero", ?_⟩
      rw [String.append_assoc]
      rfl
    · exact notNumber_names key text

/-- The checks in the order in which they are made. -/
def checks : List Check :=
  [.number "CP_MAX_INSTANCES", .positive "CP_HOOK_TIMEOUT_MS", .answer "CP_AUDIT_ENABLED",
   .answer "CP_METRICS_ENABLED"]

/-! ## Readings -/

section

variable {key text : String}

theorem number?_eq_none_iff : number? text = none ↔ ¬ ∃ n, Writes text n ∧ n < UInt64.size := by
  rw [Option.eq_none_iff_forall_not_mem, not_exists]
  constructor
  · rintro hnone n ⟨hwrites, hlt⟩
    refine hnone (.ofNat n) (number?_eq_some_iff.2 ?_)
    rwa [UInt64.toNat_ofNat_of_lt' hlt]
  · intro hnot n hn
    exact hnot n.toNat ⟨number?_eq_some_iff.1 hn, n.toNat_lt⟩

theorem boolean?_eq_none_iff : boolean? text = none ↔ ¬ ∃ b, Says text b := by
  rw [Option.eq_none_iff_forall_not_mem, not_exists]
  exact forall_congr' fun b => not_congr boolean?_eq_some_iff

/-- A reading that refuses a text in one way fails as the check of its variable. -/
theorem plain_fails_iff {α : Type} {lookup : String → Option String} {default : α}
    {read? : String → Option α} {admits : String → Prop} {refuse : String → String → Invalid}
    {names : ∀ text, ∃ rest, (refuse key text).message = key ++ " must be " ++ rest}
    (hnone : ∀ {text}, read? text = none ↔ ¬ admits text) (f : Failure) :
    optional lookup key default read? refuse = .error f ↔
      (Check.plain key admits refuse names).Fails lookup f := by
  rw [optional_eq_error_iff]
  constructor
  · rintro ⟨text, hholds, hunread, rfl⟩
    exact ⟨text, _, hholds, ⟨hnone.1 hunread, rfl⟩, rfl⟩
  · rintro ⟨text, _, hholds, ⟨hnot, rfl⟩, rfl⟩
    exact ⟨text, hholds, hnone.2 hnot, rfl⟩

end

section

variable (lookup : String → Option String)

def timeLimit : Except Failure UInt64 := do
  let ms ← optional lookup hookTimeoutKey 5000 number? .notNumber
  if ms = 0 then .error (.invalid (.notPositive hookTimeoutKey)) else .ok ms

/-- Settings are read variable by variable. -/
theorem read_eq : read lookup = do
    let maxInstances ← optional lookup maxInstancesKey 0 number? .notNumber
    let hookTimeoutMs ← timeLimit lookup
    let auditEnabled ← optional lookup auditKey true boolean? .notBoolean
    let metricsEnabled ← optional lookup metricsKey true boolean? .notBoolean
    return { nodeId := (value? lookup nodeIdKey).getD "node-1"
             defaultProvider := (value? lookup defaultProviderKey).getD "local"
             maxInstances, hookTimeoutMs, auditEnabled, metricsEnabled } := by
  unfold read timeLimit
  simp only
  cases optional lookup maxInstancesKey 0 number? .notNumber with
  | error f => rfl
  | ok maxInstances =>
    cases optional lookup hookTimeoutKey 5000 number? .notNumber with
    | error f => rfl
    | ok ms =>
      by_cases hms : ms = 0
      · subst hms
        rfl
      · simp only [bind, Except.bind, if_neg hms]

end

section

variable {lookup : String → Option String}

theorem timeLimit_eq_ok_iff {ms : UInt64} :
    timeLimit lookup = .ok ms ↔ optional lookup hookTimeoutKey 5000 number? .notNumber = .ok ms ∧ ms ≠ 0 := by
  unfold timeLimit
  cases optional lookup hookTimeoutKey 5000 number? .notNumber with
  | error f => exact iff_of_false nofun nofun
  | ok n =>
    show (if n = 0 then Except.error _ else .ok n) = .ok ms ↔ _
    by_cases hzero : n = 0
    · rw [if_pos hzero]
      refine iff_of_false nofun ?_
      rintro ⟨⟨⟩, hne⟩
      exact hne hzero
    · rw [if_neg hzero]
      constructor
      · rintro ⟨⟩
        exact ⟨rfl, hzero⟩
      · exact And.left

theorem timeLimit_eq_error_iff {f : Failure} :
    timeLimit lookup = .error f ↔
      optional lookup hookTimeoutKey 5000 number? .notNumber = .error f ∨
        (optional lookup hookTimeoutKey 5000 number? .notNumber = .ok 0 ∧
          f = .invalid (.notPositive hookTimeoutKey)) := by
  unfold timeLimit
  cases optional lookup hookTimeoutKey 5000 number? .notNumber with
  | error e =>
    show Except.error e = .error f ↔ _
    exact (or_iff_left nofun).symm
  | ok n =>
    show (if n = 0 then Except.error _ else .ok n) = .error f ↔ _
    rw [or_iff_right nofun, Except.ok.injEq]
    by_cases hzero : n = 0
    · rw [if_pos hzero, and_iff_right hzero, Except.error.injEq, eq_comm]
    · rw [if_neg hzero]
      exact iff_of_false nofun fun h => hzero h.1

theorem timeLimit_fails_iff {f : Failure} :
    timeLimit lookup = .error f ↔ (Check.positive hookTimeoutKey).Fails lookup f := by
  have hnumber : optional lookup hookTimeoutKey 5000 number? .notNumber = .error f ↔
      (Check.number hookTimeoutKey).Fails lookup f := plain_fails_iff number?_eq_none_iff f
  rw [timeLimit_eq_error_iff, optional_eq_ok_iff fun _ _ => number?_eq_some_iff, hnumber]
  constructor
  · rintro (⟨text, reason, hholds, hrefuses, hf⟩ | ⟨⟨-, hdefault⟩ | ⟨text, hholds, hzero⟩, hf⟩)
    · exact ⟨text, reason, hholds, .inr hrefuses, hf⟩
    · exact absurd hdefault (by decide)
    · exact ⟨text, _, hholds, .inl ⟨hzero, rfl⟩, hf⟩
  · rintro ⟨text, reason, hholds, ⟨hzero, rfl⟩ | hrefuses, hf⟩
    · exact .inr ⟨.inr ⟨text, hholds, hzero⟩, hf⟩
    · exact .inl ⟨text, reason, hholds, hrefuses, hf⟩

/-- Reading fails as the first check that does not pass. -/
theorem read_eq_error_iff {f : Failure} : read lookup = .error f ↔ Check.FirstFails checks lookup f := by
  rw [read_eq]
  refine Check.bind_eq_error_iff (plain_fails_iff number?_eq_none_iff) (fun maxInstances => ?_) f
  refine Check.bind_eq_error_iff (fun _ => timeLimit_fails_iff) fun ms => ?_
  refine Check.bind_eq_error_iff (plain_fails_iff boolean?_eq_none_iff) fun auditEnabled => ?_
  refine Check.bind_eq_error_iff (plain_fails_iff boolean?_eq_none_iff) fun metricsEnabled f => ?_
  exact iff_of_false nofun Check.firstFails_nil

/-- Whether settings are what the variables say, and the defaults where a variable is missing. -/
structure Reflects (s : Settings) (lookup : String → Option String) : Prop where
  nodeId : Takes lookup "CP_NODE_ID" "node-1" (fun text name => name = text) s.nodeId
  defaultProvider : Takes lookup "CP_DEFAULT_PROVIDER" "local" (fun text name => name = text) s.defaultProvider
  maxInstances : Takes lookup "CP_MAX_INSTANCES" 0 (fun text n => Writes text n.toNat) s.maxInstances
  hookTimeoutMs : Takes lookup "CP_HOOK_TIMEOUT_MS" 5000 (fun text n => Writes text n.toNat) s.hookTimeoutMs
  timed : s.hookTimeoutMs ≠ 0
  auditEnabled : Takes lookup "CP_AUDIT_ENABLED" true Says s.auditEnabled
  metricsEnabled : Takes lookup "CP_METRICS_ENABLED" true Says s.metricsEnabled

theorem value?_getD_eq_iff {key default name : String} :
    (value? lookup key).getD default = name ↔ Takes lookup key default (fun text name => name = text) name := by
  rcases lacks_or_holds lookup key with hlacks | ⟨text, hholds⟩
  · rw [value?_eq_none_iff.2 hlacks, takes_of_lacks hlacks, eq_comm]
    rfl
  · rw [value?_eq_some_iff.2 hholds, takes_of_holds hholds, eq_comm]
    rfl

theorem bind_eq_ok_iff {α β : Type} {x : Except Failure α} {k : α → Except Failure β} {b : β} :
    x >>= k = .ok b ↔ ∃ a, x = .ok a ∧ k a = .ok b := by
  cases x with
  | error f => exact iff_of_false nofun fun ⟨_, h, _⟩ => nomatch h
  | ok a =>
    constructor
    · intro h
      exact ⟨a, rfl, h⟩
    · rintro ⟨_, ⟨⟩, h⟩
      exact h

/-- Settings that are read are what the variables say. -/
theorem read_eq_ok_iff {s : Settings} : read lookup = .ok s ↔ s.Reflects lookup := by
  have hnumber : ∀ {key : String} {default n : UInt64},
      optional lookup key default number? .notNumber = .ok n ↔
        Takes lookup key default (fun text n => Writes text n.toNat) n :=
    optional_eq_ok_iff fun _ _ => number?_eq_some_iff
  have hanswer : ∀ {key : String} {default b : Bool},
      optional lookup key default boolean? .notBoolean = .ok b ↔ Takes lookup key default Says b :=
    optional_eq_ok_iff fun _ _ => boolean?_eq_some_iff
  simp only [read_eq, bind_eq_ok_iff, timeLimit_eq_ok_iff, hnumber, hanswer]
  constructor
  · rintro ⟨maxInstances, hmax, ms, ⟨hms, htimed⟩, auditEnabled, haudit, metricsEnabled, hmetrics, ⟨⟩⟩
    exact ⟨value?_getD_eq_iff.1 rfl, value?_getD_eq_iff.1 rfl, hmax, hms, htimed, haudit, hmetrics⟩
  · intro h
    refine ⟨_, h.maxInstances, _, ⟨h.hookTimeoutMs, h.timed⟩, _, h.auditEnabled, _, h.metricsEnabled, ?_⟩
    have hnode := value?_getD_eq_iff.2 h.nodeId
    have hprovider := value?_getD_eq_iff.2 h.defaultProvider
    unfold nodeIdKey defaultProviderKey
    rw [hnode, hprovider]
    rfl

/-- Reading goes well just if all checks pass. -/
theorem read_isOk_iff : (∃ s, read lookup = .ok s) ↔ ∀ c ∈ checks, c.Passes lookup := by
  rw [← Check.none_firstFails_iff]
  simp only [← read_eq_error_iff]
  cases read lookup with
  | ok s => exact iff_of_true ⟨s, rfl⟩ nofun
  | error f => exact iff_of_false nofun fun h => h f rfl

/-- A failed check is told as a failed validation that names the variable. -/
theorem Check.Fails.message {c : Check} {f : Failure} (h : c.Fails lookup f) :
    f.kind = .validation ∧ ∃ rest, f.message = "Validation error: " ++ c.key ++ " must be " ++ rest := by
  obtain ⟨text, reason, -, hrefuses, rfl⟩ := h
  obtain ⟨rest, hrest⟩ := c.names text reason hrefuses
  refine ⟨rfl, rest, ?_⟩
  show "Validation error: " ++ reason.message = _
  rw [hrest]
  simp only [String.append_assoc]

/-! ## Settings written as variables -/

theorem isDigit_of_mem_toString {n : Nat} {d : Char} (h : d ∈ (toString n).toList) :
    '0' ≤ d ∧ d ≤ '9' := by
  rw [Nat.toString_eq_ofList_toDigits, String.toList_ofList] at h
  exact isDigit_iff.1 (Nat.isDigit_of_mem_toDigits (by decide) (by decide) h)

/-- The digits that a number is printed with write it. -/
theorem writes_toString (n : Nat) : Writes (toString n) n := by
  refine ⟨[], (toString n).toList, rfl, .inl rfl, ?_, fun d => isDigit_of_mem_toString, ?_⟩
  · rw [Nat.toString_eq_ofList_toDigits, String.toList_ofList]
    exact Nat.toDigits_ne_nil
  · rw [ofDigits_reverse, Nat.toString_eq_ofList_toDigits, String.toList_ofList,
      Nat.ofDigitChars_ten_toDigits]

/-- A variable with a text of small letters and digits holds all of it. -/
theorem holds_of_isPlain {key text : String} (hlookup : lookup key = some text) (hne : text ≠ "")
    (hplain : ∀ c ∈ text.toList, IsPlain c) : Holds lookup key text :=
  ⟨text, hlookup, .self hplain, hne⟩

theorem holds_number {key : String} {n : Nat} (hlookup : lookup key = some (toString n)) :
    Holds lookup key (toString n) := by
  refine holds_of_isPlain hlookup ?_ fun c hc => .inr (isDigit_of_mem_toString hc)
  intro hempty
  obtain ⟨sign, digits, htext, -, hne, -⟩ := writes_toString n
  rw [hempty] at htext
  exact hne (List.append_eq_nil_iff.1 htext.symm).2

theorem says_toString (b : Bool) : Says (toString b) b := by
  cases b with
  | true => exact says_iff.2 (by decide)
  | false => exact says_iff.2 (by decide)

theorem holds_answer {key : String} {b : Bool} (hlookup : lookup key = some (toString b)) :
    Holds lookup key (toString b) := by
  have hplain : [true, false].all (fun b => (toString b).toList.all fun c => decide (IsPlain c)) = true := rfl
  refine holds_of_isPlain hlookup (by cases b <;> decide) fun c hc => ?_
  have hall := List.all_eq_true.1 hplain b (by cases b <;> decide)
  exact of_decide_eq_true (List.all_eq_true.1 hall c hc)

/-- Settings are what the variables say that they are written as. -/
theorem reflects_toVariables {s : Settings} (hnode : s.nodeId ≠ "" ∧ s.nodeId = trim s.nodeId)
    (hprovider : s.defaultProvider ≠ "" ∧ s.defaultProvider = trim s.defaultProvider)
    (htimed : s.hookTimeoutMs ≠ 0) : s.Reflects fun key => s.toVariables.lookup key where
  nodeId := .inr ⟨_, ⟨_, rfl, eq_trim_iff.1 hnode.2, hnode.1⟩, rfl⟩
  defaultProvider := .inr ⟨_, ⟨_, rfl, eq_trim_iff.1 hprovider.2, hprovider.1⟩, rfl⟩
  maxInstances := .inr ⟨_, holds_number rfl, writes_toString _⟩
  hookTimeoutMs := .inr ⟨_, holds_number rfl, writes_toString _⟩
  timed := htimed
  auditEnabled := .inr ⟨_, holds_answer rfl, says_toString _⟩
  metricsEnabled := .inr ⟨_, holds_answer rfl, says_toString _⟩

end

/-- Settings are read from variables exactly. Reading goes well just if every check passes, and then the
settings are what the variables say and the defaults where one is missing; otherwise it fails as the first
check that does not pass, with a message that names the variable. Settings whose names are not blank and
have no white space around them, and whose time limit is not zero, are read back from the variables that
they are written as. -/
theorem settings_are_read_exactly :
    (∀ lookup : String → Option String,
      ((∃ s, read lookup = .ok s) ↔ ∀ c ∈ checks, c.Passes lookup) ∧
      (∀ s, read lookup = .ok s ↔ s.Reflects lookup) ∧
      (∀ f, read lookup = .error f ↔ Check.FirstFails checks lookup f) ∧
      ∀ (c : Check) (f : Failure), c.Fails lookup f →
        f.kind = .validation ∧ ∃ rest, f.message = "Validation error: " ++ c.key ++ " must be " ++ rest) ∧
    ∀ s : Settings, s.nodeId ≠ "" ∧ s.nodeId = trim s.nodeId →
      s.defaultProvider ≠ "" ∧ s.defaultProvider = trim s.defaultProvider → s.hookTimeoutMs ≠ 0 →
      read (fun key => s.toVariables.lookup key) = .ok s := by
  constructor
  · intro lookup
    exact ⟨read_isOk_iff, fun _ => read_eq_ok_iff, fun _ => read_eq_error_iff, fun _ _ h => h.message⟩
  · intro s hnode hprovider htimed
    exact read_eq_ok_iff.2 (reflects_toVariables hnode hprovider htimed)

/-- Settings with white space inside a name, a letter outside ASCII and the greatest number. -/
def unusual : Settings :=
  { nodeId := "node\u00a01", defaultProvider := "Ä", maxInstances := .ofNat (UInt64.size - 1), hookTimeoutMs := 1
    auditEnabled := false }

/-- A blank variable, one with white space around a number, a number that is refused and no answer. -/
def mixed : List (String × String) :=
  [("CP_NODE_ID", " \u2003"), ("CP_MAX_INSTANCES", " +007\n"), ("CP_HOOK_TIMEOUT_MS", "00"),
   ("CP_METRICS_ENABLED", "maybe")]

theorem settings_are_read_exactly_unusual :
    (unusual.nodeId ≠ "" ∧ unusual.nodeId = trim unusual.nodeId) ∧
      read (fun key => unusual.toVariables.lookup key) = .ok unusual ∧
      ({ maxInstances := 7 } : Settings).Reflects (fun key => (mixed.take 2).lookup key) ∧
      Check.FirstFails checks (fun key => mixed.lookup key)
        (.invalid (.notPositive "CP_HOOK_TIMEOUT_MS")) := by
  obtain ⟨hread, hback⟩ := settings_are_read_exactly
  have hnode : unusual.nodeId ≠ "" ∧ unusual.nodeId = trim unusual.nodeId := by decide
  refine ⟨hnode, hback unusual hnode (by decide) (by decide), ?_, ?_⟩
  · exact ((hread _).2.1 _).1 rfl
  · exact ((hread _).2.2.1 _).1 rfl

end Fleet.Settings
