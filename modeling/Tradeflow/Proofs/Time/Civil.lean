/-
  Days of the calendar and readings in UTC, against their numbers.

  A day number is taken apart by periods of 400, 100, 4 and 1 years; the last one of each may be a day
  longer than the others (`exists_year`). Within the year, months are taken off in turn (`monthOf_spec`).
  What comes out is a day there is, of that number (`ofOrdinal_spec`). Hence the reading of an instant
  stands for it (`micros_civil`) and has its parts in their ranges (`proper_civil`).

  A month is the span from the start of its first day to the end of its last one (`InMonth`). Months do
  not overlap (`daysBefore_end_le`), so an instant is in the month that its reading names and in no other
  (`inMonth_iff`).
-/
import Mathlib.Data.Nat.Init
import Mathlib.Tactic.SplitIfs
import Tradeflow.Proofs.Time.Range

namespace Tradeflow

namespace Calendar

/-! ## Years and months as spans of days -/

theorem isLeap_iff (year : Nat) :
    isLeap year = true ↔ year % 4 = 0 ∧ (year % 100 ≠ 0 ∨ year % 400 = 0) := by
  simp only [isLeap, Bool.and_eq_true, Bool.or_eq_true, beq_iff_eq, bne_iff_ne]

theorem daysBeforeYear_of_pos (y : Nat) :
    daysBeforeYear (y + 1) = y * 365 + y / 4 - y / 100 + y / 400 := rfl

theorem daysBeforeYear_succ {year : Nat} (h : 1 ≤ year) :
    daysBeforeYear (year + 1) = daysBeforeYear year + daysInYear year := by
  obtain ⟨y, rfl⟩ : ∃ y, year = y + 1 := ⟨year - 1, by omega⟩
  have hcentury : y / 100 ≤ y / 4 := Nat.div_le_div_left (by decide) (by decide)
  have hsucc (k : Nat) : (y + 1) / k = y / k + if (y + 1) % k = 0 then 1 else 0 := by
    rw [Nat.succ_div]
    simp only [Nat.dvd_iff_mod_eq_zero]
  have hhundred : (y + 1) % 100 = 0 → (y + 1) % 4 = 0 := by omega
  have hfour : (y + 1) % 400 = 0 → (y + 1) % 100 = 0 := by omega
  rw [daysBeforeYear_of_pos, daysBeforeYear_of_pos, daysInYear, hsucc 4, hsucc 100, hsucc 400]
  simp only [isLeap_iff]
  generalize (y + 1) % 4 = p, (y + 1) % 100 = q, (y + 1) % 400 = r, y / 4 = a, y / 100 = b at *
  split_ifs <;> omega

theorem daysBeforeYear_mono {year year' : Nat} (h : 1 ≤ year) (hle : year ≤ year') :
    daysBeforeYear year ≤ daysBeforeYear year' := by
  induction year', hle using Nat.le_induction with
  | base => exact Nat.le_refl _
  | succ n hn ih =>
    rw [daysBeforeYear_succ (by omega)]
    omega

theorem daysBeforeMonth_succ {month : Nat} (year : Nat) (h : 1 ≤ month) :
    daysBeforeMonth year (month + 1) = daysBeforeMonth year month + daysInMonth year month := by
  obtain ⟨m, rfl⟩ : ∃ m, month = m + 1 := ⟨month - 1, by omega⟩
  rfl

theorem daysBeforeMonth_mono {month month' : Nat} (year : Nat) (h : 1 ≤ month)
    (hle : month ≤ month') : daysBeforeMonth year month ≤ daysBeforeMonth year month' := by
  induction month', hle using Nat.le_induction with
  | base => exact Nat.le_refl _
  | succ n hn ih =>
    rw [daysBeforeMonth_succ year (by omega)]
    omega

/-- The twelve months make the year. -/
theorem daysBeforeMonth_thirteen (year : Nat) : daysBeforeMonth year 13 = daysInYear year := by
  cases hleap : isLeap year <;> simp [daysBeforeMonth, daysInMonth, daysInYear, hleap]

/-- The days before a month, counted from the first of January of year 1. -/
def daysBefore (year month : Nat) : Nat := daysBeforeYear year + daysBeforeMonth year month

/-- A month ends before any later one starts. -/
theorem daysBefore_end_le {year month year' month' : Nat} (hyear : 1 ≤ year)
    (hmonth : 1 ≤ month ∧ month ≤ 12)
    (h : year < year' ∨ year = year' ∧ month < month') :
    daysBefore year month + daysInMonth year month ≤ daysBefore year' month' := by
  have hend := daysBeforeMonth_succ year hmonth.1
  unfold daysBefore
  rcases h with hlt | ⟨rfl, hlt⟩
  · have hlast := daysBeforeMonth_mono year (by omega) (show month + 1 ≤ 13 by omega)
    have hyears := daysBeforeYear_mono (by omega) (show year + 1 ≤ year' from hlt)
    rw [daysBeforeMonth_thirteen] at hlast
    rw [daysBeforeYear_succ hyear] at hyears
    omega
  · have hnext := daysBeforeMonth_mono year (by omega) (show month + 1 ≤ month' from hlt)
    omega

/-! ## Days by their numbers -/

/-- A day there is. -/
structure Date.Valid (d : Date) : Prop where
  year : 1 ≤ d.year
  month : 1 ≤ d.month ∧ d.month ≤ 12
  day : 1 ≤ d.day ∧ d.day ≤ daysInMonth d.year d.month

/-- A year in its periods: the days before it, and whether it is a leap year. -/
theorem periods {a b c d : Nat} (hb : b ≤ 3) (hc : c ≤ 24) (hd : d ≤ 3) :
    daysBeforeYear (a * 400 + b * 100 + c * 4 + d + 1) =
        a * 146097 + b * 36524 + c * 1461 + d * 365 ∧
      (isLeap (a * 400 + b * 100 + c * 4 + d + 1) = true ↔ d = 3 ∧ (c ≠ 24 ∨ b = 3)) := by
  constructor
  · have hfour : (a * 400 + b * 100 + c * 4 + d) / 4 = a * 100 + b * 25 + c := by omega
    have hcentury : (a * 400 + b * 100 + c * 4 + d) / 100 = a * 4 + b := by omega
    have hlong : (a * 400 + b * 100 + c * 4 + d) / 400 = a := by omega
    rw [daysBeforeYear_of_pos, hfour, hcentury, hlong]
    omega
  · have hfour : (a * 400 + b * 100 + c * 4 + d + 1) % 4 = 0 ↔ d = 3 := by omega
    have hcentury : (a * 400 + b * 100 + c * 4 + d + 1) % 100 = 0 ↔ d = 3 ∧ c = 24 := by omega
    have hlong : (a * 400 + b * 100 + c * 4 + d + 1) % 400 = 0 ↔ d = 3 ∧ c = 24 ∧ b = 3 := by omega
    rw [isLeap_iff, hfour, ne_eq, hcentury, hlong]
    omega

/-- A number of days in periods of a length, at most so many of them, and what is left. -/
theorem exists_periods (n length most : Nat) (hlength : 0 < length) :
    ∃ k rest, min (n / length) most = k ∧ k ≤ most ∧ n = k * length + rest ∧
      (k < most → rest < length) := by
  have hdiv := Nat.div_add_mod' n length
  have hmod := Nat.mod_lt n hlength
  have hle : min (n / length) most * length ≤ n / length * length :=
    Nat.mul_le_mul_right _ (Nat.min_le_left _ _)
  refine ⟨_, n - min (n / length) most * length, rfl, Nat.min_le_right _ _, by omega, fun hk => ?_⟩
  rw [Nat.min_eq_left (by omega)]
  omega

/-- The year of a day, counted from zero, and the day of that year. -/
theorem exists_year (n : Nat) : ∃ year rest, 1 ≤ year ∧ rest < daysInYear year ∧
    daysBeforeYear year + rest = n ∧
    Date.ofOrdinal (n + 1) =
      ⟨year, (monthOf year 11 1 rest).1, (monthOf year 11 1 rest).2 + 1⟩ := by
  have ha := Nat.div_add_mod n 146097
  have hlong := Nat.mod_lt n (show 0 < 146097 by decide)
  obtain ⟨b, n₂, hbmin, hb, hn₂, hcentury⟩ := exists_periods (n % 146097) 36524 3 (by decide)
  have hc := Nat.div_add_mod n₂ 1461
  have hfour := Nat.mod_lt n₂ (show 0 < 1461 by decide)
  have hfew : n₂ / 1461 ≤ 24 := by omega
  obtain ⟨d, rest, hdmin, hd, hrest, hyear⟩ := exists_periods (n₂ % 1461) 365 3 (by decide)
  obtain ⟨hdays, hleap⟩ := periods (a := n / 146097) hb hfew hd
  refine ⟨n / 146097 * 400 + b * 100 + n₂ / 1461 * 4 + d + 1, rest, Nat.le_add_left 1 _, ?_, ?_, ?_⟩
  · unfold daysInYear
    split
    case isTrue => omega
    case isFalse hnot =>
      rw [hleap] at hnot
      omega
  · omega
  · have hn₂' : n % 146097 - b * 36524 = n₂ := by omega
    have hrest' : n₂ % 1461 - d * 365 = rest := by omega
    simp only [Date.ofOrdinal, Nat.add_sub_cancel, hbmin, hn₂', hdmin, hrest']

/-- Taking months off keeps the day of the year, and stops in the month that has it. -/
theorem monthOf_spec {year count month rest : Nat} (hfirst : 1 ≤ month)
    (hrest : daysBeforeMonth year month + rest < daysBeforeMonth year (month + count + 1)) :
    ∃ m r, monthOf year count month rest = (m, r) ∧ month ≤ m ∧ m ≤ month + count ∧
      r < daysInMonth year m ∧
      daysBeforeMonth year m + r = daysBeforeMonth year month + rest := by
  have hnext := daysBeforeMonth_succ year hfirst
  induction count generalizing month rest with
  | zero =>
    rw [Nat.add_zero] at hrest
    exact ⟨month, rest, rfl, by omega, by omega, by omega, rfl⟩
  | succ count ih =>
    rw [monthOf]
    split
    case isTrue hlt => exact ⟨month, rest, rfl, by omega, by omega, hlt, rfl⟩
    case isFalse =>
      have hless : daysBeforeMonth year (month + 1) + (rest - daysInMonth year month) <
          daysBeforeMonth year (month + 1 + count + 1) := by
        rw [show month + 1 + count + 1 = month + (count + 1) + 1 by omega]
        omega
      obtain ⟨m, r, heq, hle, hle', hr, hdays⟩ :=
        ih (by omega) hless (daysBeforeMonth_succ year (by omega))
      exact ⟨m, r, heq, by omega, by omega, hr, by omega⟩

/-- The day of a number is a day there is, and has that number. -/
theorem ofOrdinal_spec (n : Nat) :
    (Date.ofOrdinal (n + 1)).Valid ∧ (Date.ofOrdinal (n + 1)).ordinal = n + 1 := by
  obtain ⟨year, rest, hyear, hrest, hdays, heq⟩ := exists_year n
  rw [← daysBeforeMonth_thirteen] at hrest
  have hfirst : daysBeforeMonth year 1 = 0 := rfl
  have hless : daysBeforeMonth year 1 + rest < daysBeforeMonth year (1 + 11 + 1) := by
    rwa [hfirst, Nat.zero_add]
  obtain ⟨m, r, hmonth, hm, hm', hr, hday⟩ := monthOf_spec (Nat.le_refl 1) hless
  rw [heq, hmonth]
  refine ⟨⟨hyear, ⟨hm, by omega⟩, ?_⟩, ?_⟩
  · dsimp only
    omega
  · simp only [Date.ordinal]
    omega

theorem Date.Valid.not_earlier {d d' : Date} (h : d.Valid) (h' : d'.Valid)
    (heq : d.ordinal = d'.ordinal) :
    ¬ (d.year < d'.year ∨ d.year = d'.year ∧ d.month < d'.month) := by
  intro hlt
  have hend := daysBefore_end_le h.year h.month hlt
  have hday := h.day
  have hday' := h'.day
  unfold daysBefore at hend
  unfold Date.ordinal at heq
  omega

/-- Days of one number are one day. -/
theorem Date.Valid.eq_of_ordinal {d d' : Date} (h : d.Valid) (h' : d'.Valid)
    (heq : d.ordinal = d'.ordinal) : d = d' := by
  have hbefore := h.not_earlier h' heq
  have hafter := h'.not_earlier h heq.symm
  obtain ⟨year, month, day⟩ := d
  obtain ⟨year', month', day'⟩ := d'
  obtain ⟨rfl, rfl⟩ : year = year' ∧ month = month' := by
    dsimp only at hbefore hafter
    omega
  simp only [Date.ordinal] at heq
  rw [Date.mk.injEq]
  omega

end Calendar

open Calendar

/-! ## Readings of instants -/

theorem microsPerDay_eq : microsPerDay = 86400000000 := rfl

theorem microsPerSecond_eq : microsPerSecond = 1000000 := rfl

namespace Instant

variable {t : Instant}

theorem valid_date (t : Instant) : t.civil.date.Valid := (ofOrdinal_spec _).1

theorem ordinal_date (t : Instant) :
    t.civil.date.ordinal = t.micros.toNat / microsPerDay + 1 := (ofOrdinal_spec _).2

theorem nonneg_of_inRange {t : Instant} (h : inRange t.micros = true) : 0 ≤ t.micros := by
  unfold inRange at h
  simp only [Bool.and_eq_true, decide_eq_true_eq] at h
  exact h.1

/-- The reading of an instant stands for it. -/
theorem micros_civil (h : 0 ≤ t.micros) : t.civil.micros = t.micros := by
  have hday := ordinal_date t
  obtain ⟨n, hn⟩ := Int.eq_ofNat_of_zero_le h
  unfold Civil.micros
  rw [hday]
  simp only [civil, hn, Int.toNat_natCast, microsPerDay_eq, microsPerSecond_eq]
  omega

/-- A reading is that of the instant that it stands for. -/
theorem civil_micros {c : Civil} (h : c.Proper) : (⟨c.micros⟩ : Instant).civil = c := by
  have hvalid : c.date.Valid := ⟨h.year.1, h.month, h.day⟩
  have hfirst : 1 ≤ c.date.ordinal := by
    have hday := h.day.1
    unfold Date.ordinal
    omega
  obtain ⟨date, hour, minute, second, micro⟩ := c
  obtain ⟨-, -, -, hhour, hminute, hsecond, hmicro⟩ := h
  dsimp only at hvalid hfirst hhour hminute hsecond hmicro
  rw [microsPerSecond_eq] at hmicro
  obtain ⟨n, hn, hdays, hrest⟩ : ∃ n : Nat,
      (Civil.mk date hour minute second micro).micros = n ∧ n / microsPerDay + 1 = date.ordinal ∧
      n % microsPerDay = ((hour * 60 + minute) * 60 + second) * microsPerSecond + micro := by
    refine ⟨(date.ordinal - 1) * microsPerDay +
      (((hour * 60 + minute) * 60 + second) * microsPerSecond + micro), ?_, ?_, ?_⟩
    all_goals
      simp only [Civil.micros, microsPerDay_eq, microsPerSecond_eq]
      omega
  have hdate := (valid_date ⟨n⟩).eq_of_ordinal hvalid ((ordinal_date ⟨n⟩).trans hdays)
  rw [hn]
  rw [civil, Civil.mk.injEq]
  refine ⟨hdate, ?_⟩
  simp only [Int.toNat_natCast, hrest, microsPerSecond_eq]
  omega

/-- In the years 1 to 9999 the parts of the reading are in their ranges. -/
theorem proper_civil (h : inRange t.micros = true) : t.civil.Proper := by
  have hvalid := valid_date t
  have hday := ordinal_date t
  unfold inRange last at h
  simp only [Bool.and_eq_true, decide_eq_true_eq] at h
  refine ⟨⟨hvalid.year, ?_⟩, hvalid.month, hvalid.day, ?_, ?_, ?_, ?_⟩
  · -- a later year would start after the last microsecond
    refine Nat.le_of_not_lt fun hlate => ?_
    have hmono := daysBeforeYear_mono (by decide) (show 10000 ≤ t.civil.date.year from hlate)
    have hstart : daysBeforeYear 10000 = 3652059 := by decide
    have hfirst := hvalid.day.1
    unfold Date.ordinal at hday
    rw [microsPerDay_eq] at h hday
    omega
  all_goals
    simp only [civil, microsPerDay_eq, microsPerSecond_eq]
    omega

/-! ## Months -/

/-- Is this a time of the given month, in UTC? -/
structure InMonth (t : Instant) (year month : Nat) : Prop where
  year_pos : 1 ≤ year
  month_range : 1 ≤ month ∧ month ≤ 12
  start_le : (daysBefore year month * microsPerDay : Nat) ≤ t.micros
  lt_stop : t.micros < ((daysBefore year month + daysInMonth year month) * microsPerDay : Nat)

instance {year month : Nat} : Decidable (t.InMonth year month) :=
  decidable_of_iff (1 ≤ year ∧ (1 ≤ month ∧ month ≤ 12) ∧
      (daysBefore year month * microsPerDay : Nat) ≤ t.micros ∧
      t.micros < ((daysBefore year month + daysInMonth year month) * microsPerDay : Nat))
    ⟨fun ⟨hyear, hmonth, hstart, hstop⟩ => ⟨hyear, hmonth, hstart, hstop⟩,
      fun ⟨hyear, hmonth, hstart, hstop⟩ => ⟨hyear, hmonth, hstart, hstop⟩⟩

theorem InMonth.not_earlier {year month year' month' : Nat} (h : t.InMonth year month)
    (h' : t.InMonth year' month') : ¬ (year < year' ∨ year = year' ∧ month < month') := by
  intro hlt
  have hend := daysBefore_end_le h.year_pos h.month_range hlt
  have hstop := h.lt_stop
  have hstart := h'.start_le
  rw [microsPerDay_eq] at hstop hstart
  omega

theorem InMonth.unique {year month year' month' : Nat} (h : t.InMonth year month)
    (h' : t.InMonth year' month') : year = year' ∧ month = month' := by
  have hbefore := h.not_earlier h'
  have hafter := h'.not_earlier h
  omega

/-- An instant is in the month of its reading, and in no other. -/
theorem inMonth_iff (h : 0 ≤ t.micros) {year month : Nat} :
    t.InMonth year month ↔ t.civil.date.year = year ∧ t.civil.date.month = month := by
  obtain ⟨hyear, hmonth, hday⟩ := valid_date t
  have hnumber := ordinal_date t
  unfold Date.ordinal at hnumber
  rw [microsPerDay_eq] at hnumber
  have hown : t.InMonth t.civil.date.year t.civil.date.month := by
    refine ⟨hyear, hmonth, ?_, ?_⟩
    all_goals
      rw [microsPerDay_eq, daysBefore]
      omega
  constructor
  · exact hown.unique
  · rintro ⟨rfl, rfl⟩
    exact hown

end Instant

end Tradeflow
