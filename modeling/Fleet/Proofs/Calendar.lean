import Fleet.Instant.Basic

/-!
# The calendar

Counting days and naming them are inverse to each other on the dates that `Date.ofDayNumber` gives, and
all of those are in the calendar:

    (Date.ofDayNumber n).dayNumber = n                                     (dayNumber_ofDayNumber)
    (Date.ofDayNumber n).isReal = true                                     (isReal_ofDayNumber)

The years of the calculation begin in March, so that a leap day is the last of its year. An era of four
hundred such years is taken apart into centuries, cycles of four years, years and days (`OfEra`). -/

namespace Fleet.Date

/-- The place of a day in an era of four hundred years, which begin in March: century `c`, cycle of four
years `q`, year `t` of the cycle and day `e` of the year. A year has a last day more when it ends a
cycle, unless that cycle ends a century other than the fourth. -/
structure OfEra (d c q t e : Int) : Prop where
  sum : d = 36524 * c + 1461 * q + 365 * t + e
  century : 0 ≤ c ∧ c ≤ 3
  cycle : 0 ≤ q ∧ q ≤ 24
  year : 0 ≤ t ∧ t ≤ 3
  day : 0 ≤ e ∧ (e ≤ 364 ∨ e = 365 ∧ t = 3 ∧ (q ≤ 23 ∨ c = 3))

theorem exists_ofEra {d : Int} (h0 : 0 ≤ d) (h1 : d < 146097) : ∃ c q t e, OfEra d c q t e := by
  obtain ⟨c, hc⟩ : ∃ c, c = min (d / 36524) 3 := ⟨_, rfl⟩
  obtain ⟨q, hq⟩ : ∃ q, q = (d - 36524 * c) / 1461 := ⟨_, rfl⟩
  obtain ⟨t, ht⟩ : ∃ t, t = min ((d - 36524 * c - 1461 * q) / 365) 3 := ⟨_, rfl⟩
  refine ⟨c, q, t, d - 36524 * c - 1461 * q - 365 * t, ?_⟩
  constructor
  all_goals omega

theorem OfEra.yearOfEra {d c q t e : Int} (h : OfEra d c q t e) :
    (d - d / 1460 + d / 36524 - d / 146096) / 365 = 100 * c + 4 * q + t := by
  obtain ⟨hd, hc, hq, ht, he⟩ := h
  have hcentury : d / 36524 - d / 146096 = c := by
    -- The last day of an era lies behind its fourth century.
    by_cases hlast : d = 146096
    · omega
    · have hbound : d < 36524 * (c + 1) := by omega
      have hwhole : d / 36524 = c := by omega
      have hera : d / 146096 = 0 := by omega
      omega
  have hquarter : d / 1460 = 25 * c + q + (24 * c + q + 365 * t + e) / 1460 := by omega
  omega

theorem OfEra.dayOfYear {d c q t e y : Int} (h : OfEra d c q t e) (hy : y = 100 * c + 4 * q + t) :
    d - (365 * y + y / 4 - y / 100) = e := by
  obtain ⟨hd, hc, hq, ht, he⟩ := h
  have h4 : y / 4 = 25 * c + q := by omega
  have h100 : y / 100 = c := by omega
  omega

theorem OfEra.isLeap {d c q t y era : Int} (h : OfEra d c q t 365) (hy : y = 100 * c + 4 * q + t) :
    isLeap (era * 400 + y + 1) = true := by
  obtain ⟨hd, hc, hq, ht, he⟩ := h
  have h4 : (era * 400 + y + 1) % 4 = 0 := by omega
  have h100 : (era * 400 + y + 1) % 100 ≠ 0 ∨ (era * 400 + y + 1) % 400 = 0 := by omega
  simp only [Date.isLeap, h4, decide_true, Bool.true_and, Bool.or_eq_true, decide_eq_true_eq]
  exact h100

/-- The date of a day of a year that begins in March. -/
def ofMarch (year e : Int) : Date :=
  let m := (5 * e + 2) / 153
  let month := if m < 10 then m + 3 else m - 9
  ⟨if month ≤ 2 then year + 1 else year, month.toNat, (e - (153 * m + 2) / 5 + 1).toNat⟩

theorem ofDayNumber_eq {n c q t e : Int} (h : OfEra ((n + epochOffset) % 146097) c q t e) :
    ofDayNumber n = ofMarch ((n + epochOffset) / 146097 * 400 + (100 * c + 4 * q + t)) e := by
  simp only [ofDayNumber, h.yearOfEra, h.dayOfYear rfl, ofMarch]

theorem exists_ofDayNumber (n : Int) :
    ∃ c q t e, OfEra ((n + epochOffset) % 146097) c q t e :=
  exists_ofEra (by omega) (by omega)

theorem dayNumber_ofMarch {year e : Int} (h : 0 ≤ e ∧ e ≤ 365) :
    (ofMarch year e).dayNumber = daysBeforeMarch year + e - epochOffset := by
  obtain ⟨m, hm⟩ : ∃ m, m = (5 * e + 2) / 153 := ⟨_, rfl⟩
  have hrange : 0 ≤ m ∧ m ≤ 11 := by omega
  have hstart : (153 * m + 2) / 5 ≤ e := by omega
  simp only [ofMarch, ← hm, dayNumber, daysBeforeMonth]
  by_cases hlate : m < 10
  · have hmonth : ((m + 3).toNat + 9) % 12 = m.toNat := by omega
    rw [if_pos hlate, if_neg (show ¬ m + 3 ≤ 2 by omega), if_neg (show ¬ (m + 3).toNat ≤ 2 by omega),
      hmonth]
    omega
  · -- January and February are counted to the year before.
    have hmonth : ((m - 9).toNat + 9) % 12 = m.toNat := by omega
    rw [if_neg hlate, if_pos (show m - 9 ≤ 2 by omega), if_pos (show (m - 9).toNat ≤ 2 by omega),
      Int.add_sub_cancel, hmonth]
    omega

/-- The days of a month that does not end the year, March being 0. -/
theorem daysIn_march (year : Int) {m : Int} (h : 0 ≤ m ∧ m ≤ 10) :
    (daysIn year (if m < 10 then m + 3 else m - 9).toNat : Int) =
      (153 * (m + 1) + 2) / 5 - (153 * m + 2) / 5 := by
  have hcases : m = 0 ∨ m = 1 ∨ m = 2 ∨ m = 3 ∨ m = 4 ∨ m = 5 ∨ m = 6 ∨ m = 7 ∨ m = 8 ∨ m = 9 ∨
    m = 10 := by omega
  rcases hcases with rfl | rfl | rfl | rfl | rfl | rfl | rfl | rfl | rfl | rfl | rfl
  all_goals rfl

/-- The year ends with February, which has a day more before a leap year's March. -/
theorem isReal_ofMarch {year e : Int} (h : 0 ≤ e)
    (hlast : e ≤ 364 ∨ e = 365 ∧ isLeap (year + 1) = true) : (ofMarch year e).isReal = true := by
  obtain ⟨m, hm⟩ : ∃ m, m = (5 * e + 2) / 153 := ⟨_, rfl⟩
  simp only [ofMarch, ← hm, isReal, Bool.and_eq_true, decide_eq_true_eq]
  refine ⟨by omega, ?_⟩
  by_cases hfebruary : m = 11
  · obtain rfl := hfebruary
    show _ ≤ if isLeap (year + 1) = true then 29 else 28
    rcases hlast with hlast | ⟨rfl, hleap⟩
    · split
      · omega
      · omega
    · rw [if_pos hleap]
      decide
  · have hdays := daysIn_march
      (if (if m < 10 then m + 3 else m - 9) ≤ 2 then year + 1 else year) (m := m) (by omega)
    omega

/-- The number of a day's date is the number of the day. -/
theorem dayNumber_ofDayNumber (n : Int) : (ofDayNumber n).dayNumber = n := by
  obtain ⟨c, q, t, e, h⟩ := exists_ofDayNumber n
  obtain ⟨hd, hc, hq, ht, he⟩ := id h
  rw [ofDayNumber_eq h, dayNumber_ofMarch (by omega), daysBeforeMarch]
  omega

/-- The date of a day is in the calendar. -/
theorem isReal_ofDayNumber (n : Int) : (ofDayNumber n).isReal = true := by
  obtain ⟨c, q, t, e, h⟩ := exists_ofDayNumber n
  rw [ofDayNumber_eq h]
  refine isReal_ofMarch h.day.1 ?_
  rcases h.day.2 with he | ⟨rfl, -⟩
  · exact .inl he
  · exact .inr ⟨rfl, h.isLeap rfl⟩

/-- A date in the calendar has a month and a day that can be written. -/
theorem bounds_of_isReal {d : Date} (h : d.isReal = true) :
    (1 ≤ d.month ∧ d.month ≤ 12) ∧ 1 ≤ d.day ∧ d.day ≤ 31 := by
  simp only [isReal, Bool.and_eq_true, decide_eq_true_eq] at h
  obtain ⟨hday, hlast⟩ := h
  unfold daysIn at hlast
  split at hlast
  all_goals first
    | omega
    | (split at hlast; all_goals omega)

end Fleet.Date
