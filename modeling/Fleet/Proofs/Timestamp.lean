import Fleet.Instant.Text
import Fleet.Proofs.Calendar
import Fleet.Proofs.Reading

/-!
# Timestamps

An instant with a year of four digits, outside of leap seconds, is read back from its text:

    t.Civil → ofText? t.toText = some t                                       (ofText?_toText)

Each piece of the text is read by its own reader, which leaves what follows: numbers of fixed width
(`digits_padded`), the year (`year_padded`), and the fraction of a second in the four precisions in which
it is written (`fraction_chars`). The date is counted and named again by `Date.dayNumber_ofDayNumber`. -/

namespace Fleet.Instant

open Text

/-! ## Numbers of fixed width -/

theorem isDigit_of_mem_padded {width n : Nat} {c : Char} (h : c ∈ padded width n) :
    c.isDigit = true := by
  rcases List.mem_append.1 h with h | h
  · obtain rfl := List.eq_of_mem_replicate h
    rfl
  · exact Nat.isDigit_of_mem_toDigits (by decide) (by decide) h

theorem length_padded {width n : Nat} (hw : 0 < width) (h : n < Nat.pow 10 width) :
    (padded width n).length = width := by
  have hdigits : (Nat.toDigits 10 n).length ≤ width :=
    (Nat.length_toDigits_le_iff (by decide) hw).2 h
  simp only [padded, List.length_append, List.length_replicate]
  omega

theorem number_padded (width n : Nat) : number (padded width n) = n := by
  simp only [number, padded, Nat.ofDigitChars_append, Nat.ofDigitChars_replicate_zero]
  rw [Nat.mul_zero, Nat.ofDigitChars_ten_toDigits]

theorem takeWhile_padded (width n : Nat) (rest : List Char)
    (hrest : rest.takeWhile Char.isDigit = []) :
    (padded width n ++ rest).takeWhile Char.isDigit = padded width n := by
  rw [List.takeWhile_append_of_pos (fun c hc => isDigit_of_mem_padded hc), hrest, List.append_nil]

theorem padded_ne_nil {width n : Nat} : padded width n ≠ [] := by
  unfold padded
  simp [Nat.toDigits_ne_nil]

theorem digits_padded {width n : Nat} (hw : 0 < width) (h : n < Nat.pow 10 width) (rest : List Char) :
    digits width (padded width n ++ rest) = some (n, rest) := by
  have htake : (padded width n ++ rest).take width = padded width n := by
    have hlength := length_padded hw h
    rw [List.take_append_of_le_length (by omega), List.take_of_length_le (by omega)]
  have hwhile := takeWhile_padded width n [] rfl
  rw [List.append_nil] at hwhile
  simp only [digits, htake, hwhile, if_neg padded_ne_nil, number_padded, List.drop_left]

/-! ## Separators and fields -/

theorem isBlank_of_isDigit {c : Char} (h : c.isDigit = true) : isBlank c = false := by
  have hrange : 48 ≤ c.toNat ∧ c.toNat ≤ 57 := by
    simpa [Char.isDigit, UInt32.le_iff_toNat_le] using h
  simp [isBlank, blankRanges]
  omega

theorem blanks_cons {c : Char} (h : isBlank c = false) (rest : List Char) :
    blanks (c :: rest) = some ((), c :: rest) := by
  have hdrop : dropBlanks (c :: rest) = c :: rest := List.dropWhile_cons_of_neg (by simp [h])
  show some ((), dropBlanks (c :: rest)) = _
  rw [hdrop]

theorem blanks_padded (width n : Nat) (rest : List Char) :
    blanks (padded width n ++ rest) = some ((), padded width n ++ rest) := by
  cases h : padded width n with
  | nil => exact absurd h padded_ne_nil
  | cons c cs => 
    have hc : c ∈ padded width n := by rw [h]; exact .head _
    exact blanks_cons (isBlank_of_isDigit (isDigit_of_mem_padded hc)) _

theorem field_padded {low high n : Nat} (hlow : low ≤ n) (hhigh : n ≤ high) (h : n < 100)
    (rest : List Char) : field low high (padded 2 n ++ rest) = some (n, rest) := by
  unfold field
  rw [bind_of_some (blanks_padded ..), bind_of_some (digits_padded (by decide) h _)]
  rw [bind_of_some (guard_of ⟨hlow, hhigh⟩ _)]
  rfl

theorem separator_cons {c : Char} (h : isBlank c = false) (rest : List Char) :
    separator c (c :: rest) = some ((), rest) := by
  unfold separator
  rw [bind_of_some (blanks_cons h _)]
  simp only [char, if_true]

/-- A year that begins with a digit has no sign. -/
theorem year_of_isDigit {c : Char} (h : c.isDigit = true) {cs rest : List Char} {n : Nat}
    (hdigits : digits 4 (c :: cs) = some (n, rest)) : year (c :: cs) = some ((n : Int), rest) := by
  have hsigned : ∀ sign : Char, sign.isDigit = false → ∀ r : List Char, c :: cs ≠ sign :: r := by
    rintro sign hsign r heq
    rw [(List.cons.inj heq).1, hsign] at h
    cases h
  unfold year
  rw [bind_of_some (blanks_cons (isBlank_of_isDigit h) cs), bind_of_some rfl]
  generalize c :: cs = text at *
  split
  · exact absurd rfl (hsigned '-' rfl _)
  · exact absurd rfl (hsigned '+' rfl _)
  · rw [bind_of_some hdigits]
    rfl

theorem year_padded {n : Nat} (h : n < 10000) (rest : List Char) :
    year (padded 4 n ++ rest) = some ((n : Int), rest) := by
  have hdigits := digits_padded (show 0 < 4 by decide) h rest
  cases hpadded : padded 4 n with
  | nil => exact absurd hpadded padded_ne_nil
  | cons c cs =>
    rw [hpadded] at hdigits
    exact year_of_isDigit (isDigit_of_mem_padded (by rw [hpadded]; exact .head _)) hdigits

/-! ## The fraction of a second -/

theorem fraction_cons {ds : List Char} (hne : ds ≠ []) (hall : ∀ c ∈ ds, c.isDigit = true)
    (hlength : ds.length ≤ 9) (rest : List Char) (hrest : rest.takeWhile Char.isDigit = []) :
    fraction ('.' :: (ds ++ rest)) =
      some (number (ds ++ List.replicate (9 - ds.length) '0'), rest) := by
  have hwhile : (ds ++ rest).takeWhile Char.isDigit = ds := by
    rw [List.takeWhile_append_of_pos hall, hrest, List.append_nil]
  have hdrop : (ds ++ rest).dropWhile Char.isDigit = rest := by
    have hsplit := (List.takeWhile_append_dropWhile (p := Char.isDigit) (l := ds ++ rest))
    rw [hwhile] at hsplit
    exact List.append_cancel_left hsplit
  simp only [fraction, hwhile, hdrop, if_neg hne, List.take_of_length_le hlength]

theorem number_padded_zeros (width n zeros : Nat) :
    number (padded width n ++ List.replicate zeros '0') = Nat.pow 10 zeros * n := by
  have hpadded := number_padded width n
  unfold number at hpadded ⊢
  rw [Nat.ofDigitChars_append, hpadded, Nat.ofDigitChars_replicate_zero]
  rfl

theorem fraction_padded {width n : Nat} (hw : 0 < width) (h : n < Nat.pow 10 width) (hnine : width ≤ 9)
    (rest : List Char) :
    fraction ('.' :: (padded width n ++ 'Z' :: rest)) = some (Nat.pow 10 (9 - width) * n, 'Z' :: rest) := by
  have hlength := length_padded hw h
  rw [fraction_cons padded_ne_nil (fun c hc => isDigit_of_mem_padded hc) (by omega) _ rfl, hlength,
    number_padded_zeros]

theorem fraction_chars {nanos : Nat} (h : nanos < nanosPerSecond) (rest : List Char) :
    fraction (fractionChars nanos ++ 'Z' :: rest) = some (nanos, 'Z' :: rest) := by
  unfold nanosPerSecond at h
  unfold fractionChars
  split
  · rename_i hzero
    rw [hzero]
    rfl
  split
  · have hmillis : nanos / 1000000 < 1000 := by omega
    have hexact : 1000000 * (nanos / 1000000) = nanos := by omega
    refine (fraction_padded (show 0 < 3 by decide) hmillis (by decide) rest).trans ?_
    exact congrArg (fun n => some (n, 'Z' :: rest)) hexact
  split
  · have hmicros : nanos / 1000 < 1000000 := by omega
    have hexact : 1000 * (nanos / 1000) = nanos := by omega
    refine (fraction_padded (show 0 < 6 by decide) hmicros (by decide) rest).trans ?_
    exact congrArg (fun n => some (n, 'Z' :: rest)) hexact
  · refine (fraction_padded (show 0 < 9 by decide) h (by decide) rest).trans ?_
    exact congrArg (fun n => some (n, 'Z' :: rest)) (Nat.one_mul nanos)

/-! ## Instants -/

/-- The date of an instant in UTC. -/
def date (t : Instant) : Date := .ofDayNumber (t.seconds / secondsPerDay)

/-- Whether an instant has a year of four digits and is not in a leap second. -/
structure Civil (t : Instant) : Prop where
  year : 0 ≤ t.date.year ∧ t.date.year ≤ 9999
  nanos : t.nanos < nanosPerSecond

/-- A date, a second of the day and a fraction of a second, as they are written in UTC. -/
def civilChars (d : Date) (s nanos : Nat) : List Char :=
  padded 4 d.year.toNat ++ '-' :: (padded 2 d.month ++ '-' :: (padded 2 d.day ++ 'T' ::
    (padded 2 (s / 3600) ++ ':' :: (padded 2 (s / 60 % 60) ++ ':' :: (padded 2 (s % 60) ++
      (fractionChars nanos ++ ['Z']))))))

theorem chars_of_civil {t : Instant} (h : t.Civil) {s : Nat}
    (hs : (s : Int) = t.seconds % secondsPerDay) : t.chars = civilChars t.date s t.nanos := by
  have hnanos : t.nanos / nanosPerSecond = 0 := Nat.div_eq_of_lt h.nanos
  have hfraction : t.nanos % nanosPerSecond = t.nanos := Nat.mod_eq_of_lt h.nanos
  have hyear : yearChars t.date.year = padded 4 t.date.year.toNat := by
    unfold yearChars
    rw [if_pos h.year]
  have hsecond : (t.seconds % secondsPerDay).toNat = s := by rw [← hs]; rfl
  unfold date at *
  simp only [chars, civilChars, hnanos, hfraction, hyear, hsecond, Nat.add_zero, List.append_assoc,
    List.cons_append]

theorem instant_civilChars {d : Date} {s nanos : Nat} (hreal : d.isReal = true)
    (hyear : 0 ≤ d.year ∧ d.year ≤ 9999) (hs : s < 86400) (hnanos : nanos < nanosPerSecond)
    (hutc : Date.ofDayNumber d.dayNumber = d) :
    instant (civilChars d s nanos) = some (⟨d.dayNumber * secondsPerDay + s, nanos⟩, []) := by
  obtain ⟨hmonth, hday⟩ := Date.bounds_of_isReal hreal
  unfold instant civilChars
  rw [bind_of_some (year_padded (by omega) _), bind_of_some (separator_cons rfl _),
    bind_of_some (field_padded hmonth.1 hmonth.2 (by omega) _), bind_of_some (separator_cons rfl _),
    bind_of_some (field_padded hday.1 hday.2 (by omega) _), bind_of_some rfl]
  dsimp only
  rw [bind_of_some (guard_of (.inl rfl) _), bind_of_some rfl,
    bind_of_some (field_padded (Nat.zero_le _) (by omega) (by omega) _),
    bind_of_some (separator_cons rfl _),
    bind_of_some (field_padded (Nat.zero_le _) (by omega) (by omega) _),
    bind_of_some (separator_cons rfl _),
    bind_of_some (field_padded (Nat.zero_le _) (by omega) (by omega) _),
    bind_of_some (fraction_chars hnanos _), bind_of_some (blanks_cons rfl _), bind_of_some rfl]
  have hdate : (⟨(d.year.toNat : Int), d.month, d.day⟩ : Date) = d := by
    rw [Int.toNat_of_nonneg hyear.1]
  have hreadable : isReadable d = true := by
    simp only [isReadable, hreal, Bool.and_eq_true, decide_eq_true_eq, and_true]
    unfold yearLimits
    omega
  have hwhole : min (s % 60) 59 = s % 60 := by omega
  have htime : s / 3600 * 3600 + s / 60 % 60 * 60 + s % 60 = s := by omega
  have hdays : (d.dayNumber * secondsPerDay + (s : Int) - 0) / secondsPerDay = d.dayNumber := by
    unfold secondsPerDay
    omega
  rw [hdate, hwhole, htime, hdays, hutc, bind_of_some (guard_of hreadable _), bind_of_some (guard_of hreadable _), Nat.sub_self,
    Nat.zero_mul, Int.sub_zero]
  rfl

/-- A civil instant is read back as it was written. -/
theorem ofText?_toText {t : Instant} (h : t.Civil) : ofText? t.toText = some t := by
  obtain ⟨s, hs⟩ : ∃ s : Nat, (s : Int) = t.seconds % secondsPerDay :=
    ⟨(t.seconds % secondsPerDay).toNat, Int.toNat_of_nonneg (by unfold secondsPerDay; omega)⟩
  have hsecond : s < 86400 := by
    unfold secondsPerDay at hs
    omega
  have hnumber : t.date.dayNumber = t.seconds / secondsPerDay := Date.dayNumber_ofDayNumber _
  have hutc : Date.ofDayNumber t.date.dayNumber = t.date := by rw [hnumber, date]
  have hseconds : t.date.dayNumber * secondsPerDay + s = t.seconds := by
    rw [hnumber, hs]
    unfold secondsPerDay
    omega
  have hread := instant_civilChars (d := t.date) (Date.isReal_ofDayNumber _) h.year hsecond h.nanos hutc
  rw [← chars_of_civil h hs, hseconds] at hread
  unfold ofText? toText
  rw [String.toList_ofList, hread]
  rfl

end Fleet.Instant
