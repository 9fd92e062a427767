/-
  Readings of calendar and clock are in the years 1 to 9999 (`inRange_micros`), and so are instants read
  from text (`inRange_ofText`). A reading leads out of range only by its offset, which is less than a
  day (`ofText_outOfRange`).
-/
import Mathlib.Algebra.Group.Nat.Defs
import Tradeflow.Time.Reading

namespace Tradeflow

namespace Calendar

def daysInYear (year : Nat) : Nat := if isLeap year then 366 else 365

/-- The days of a year up to one of a month are days of that year. -/
theorem daysBeforeMonth_add_le {year month day : Nat} (hfirst : 1 ≤ month) (hlast : month ≤ 12)
    (hday : day ≤ daysInMonth year month) : daysBeforeMonth year month + day ≤ daysInYear year := by
  have hcases : month = 1 ∨ month = 2 ∨ month = 3 ∨ month = 4 ∨ month = 5 ∨ month = 6 ∨ month = 7 ∨
      month = 8 ∨ month = 9 ∨ month = 10 ∨ month = 11 ∨ month = 12 := by omega
  cases hleap : isLeap year
  all_goals
    rcases hcases with rfl | rfl | rfl | rfl | rfl | rfl | rfl | rfl | rfl | rfl | rfl | rfl
  all_goals
    simp only [daysBeforeMonth, daysInMonth, daysInYear, hleap, if_true, Bool.false_eq_true,
      if_false] at hday ⊢
    omega

/-- The last year there is has 365 days. -/
theorem daysBeforeYear_add_le {year : Nat} (hlast : year ≤ 9999) :
    daysBeforeYear year + daysInYear year ≤ 3652059 := by
  rcases Nat.lt_or_eq_of_le hlast with hlt | rfl
  · have hyear : daysInYear year ≤ 366 := by
      unfold daysInYear
      split <;> omega
    have hdays : daysBeforeYear year ≤ 3651329 := by
      unfold daysBeforeYear
      dsimp only
      omega
    omega
  · decide

end Calendar

/-- A reading whose parts are in their ranges. -/
structure Civil.Proper (c : Civil) : Prop where
  year : 1 ≤ c.date.year ∧ c.date.year ≤ 9999
  month : 1 ≤ c.date.month ∧ c.date.month ≤ 12
  day : 1 ≤ c.date.day ∧ c.date.day ≤ Calendar.daysInMonth c.date.year c.date.month
  hour : c.hour ≤ 23
  minute : c.minute ≤ 59
  second : c.second ≤ 59
  micro : c.micro < microsPerSecond

/-- A proper reading is a time of the years 1 to 9999. -/
theorem Civil.Proper.inRange_micros {c : Civil} (h : c.Proper) : Instant.inRange c.micros = true := by
  have hdays : c.date.ordinal ≤ 3652059 := by
    have hyear := Calendar.daysBeforeYear_add_le h.year.2
    have hmonth := Calendar.daysBeforeMonth_add_le h.month.1 h.month.2 h.day.2
    unfold Calendar.Date.ordinal
    omega
  have hfirst : 1 ≤ c.date.ordinal := by
    have hday := h.day.1
    unfold Calendar.Date.ordinal
    omega
  have hclock : ((c.hour * 60 + c.minute) * 60 + c.second) * microsPerSecond + c.micro <
      microsPerDay := by
    obtain ⟨-, -, -, hhour, hminute, hsecond, hmicro⟩ := h
    unfold microsPerDay microsPerHour
    unfold microsPerSecond at hmicro ⊢
    omega
  unfold Instant.inRange Instant.last Civil.micros
  rw [Bool.and_eq_true, decide_eq_true_eq, decide_eq_true_eq]
  unfold microsPerDay microsPerHour microsPerSecond at *
  omega

namespace Reading

theorem isDigit_sub_lt {ch : Char} (h : isDigit ch = true) : ch.toNat - 48 < 10 := by
  unfold isDigit at h
  rw [Bool.and_eq_true, decide_eq_true_eq, decide_eq_true_eq] at h
  have hhigh : ch.toNat ≤ '9'.toNat := h.2
  have h9 : '9'.toNat = 57 := rfl
  omega

/-- Digits make a number below the power of ten of their count. -/
theorem foldl_digits_lt {ds : List Char} (h : ds.all isDigit = true) {n k : Nat} (hn : n < 10 ^ k) :
    ds.foldl (fun n c => n * 10 + (c.toNat - 48)) n < 10 ^ (k + ds.length) := by
  induction ds generalizing n k with
  | nil => exact hn
  | cons ch ds ih =>
    rw [List.all_cons, Bool.and_eq_true] at h
    have hdigit := isDigit_sub_lt h.1
    have hstep : n * 10 + (ch.toNat - 48) < 10 ^ (k + 1) := by
      rw [Nat.pow_succ]
      omega
    have hrest := ih h.2 hstep
    rwa [Nat.add_assoc, Nat.add_comm 1] at hrest

theorem digits_lt {count n : Nat} {cs rest : List Char} (h : digits count cs = some (n, rest)) :
    n < 10 ^ count := by
  unfold digits at h
  dsimp only at h
  split at h
  case isTrue hdigits =>
    obtain ⟨rfl, -⟩ := Prod.mk.inj (Option.some.inj h)
    have hlt := foldl_digits_lt hdigits.2 (n := 0) (k := 0) Nat.one_pos
    rwa [hdigits.1, Nat.zero_add] at hlt
  case isFalse => cases h

/-- A fraction of a second is less than one. -/
theorem fraction_lt {c c' : Clock} {cs : List Char} (h : fraction c cs = some c') :
    c'.micro < microsPerSecond := by
  unfold fraction at h
  dsimp only at h
  obtain ⟨⟨n, rest⟩, hdigits, h⟩ := Option.bind_eq_some_iff.1 h
  cases h
  have hlt := digits_lt hdigits
  have hle : min 6 cs.length ≤ 6 := Nat.min_le_left _ _
  have hsum : 10 ^ min 6 cs.length * 10 ^ (6 - min 6 cs.length) = microsPerSecond := by
    rw [← Nat.pow_add, Nat.add_sub_cancel' hle]
    rfl
  rw [← hsum]
  exact Nat.mul_lt_mul_of_pos_right hlt (Nat.pow_pos (by decide))

theorem micro_put (c : Clock) (place value : Nat) : (c.put place value).micro = c.micro := by
  unfold Clock.put
  split <;> rfl

theorem clockFrom_lt {left place : Nat} {colons : Bool} {c c' : Clock} {cs : List Char}
    (hc : c.micro < microsPerSecond) (h : clockFrom left place colons c cs = some c') :
    c'.micro < microsPerSecond := by
  induction left generalizing place colons c cs with
  | zero => exact fraction_lt h
  | succ left ih =>
    rw [clockFrom] at h
    split at h
    · cases h
    case h_2 value rest hdigits =>
      have hput : (c.put place value).micro < microsPerSecond := by rwa [micro_put]
      dsimp only at h
      split at h
      · cases h
        exact hput
      · split at h
        · cases h
          exact hput
        · cases h
      case h_3 x more _ =>
        generalize (if place = 0 then x == ':' else colons) = marked at h
        split at h
        · exact ih hput h
        · split at h
          · exact fraction_lt h
          · split at h
            · cases h
            · exact ih hput h

theorem time_lt {cs : List Char} {c : Clock} {offset : Option Int} (h : time cs = some (c, offset)) :
    c.micro < microsPerSecond := by
  unfold time at h
  obtain ⟨c', hclock, h⟩ := Option.bind_eq_some_iff.1 h
  have hlt : c'.micro < microsPerSecond := clockFrom_lt (by decide) hclock
  suffices hsame : c = c' by rwa [hsame]
  split at h
  · split at h
    · cases h
      rfl
    · cases h
  · split at h
    · split at h
      · cases h
        rfl
      · cases h
    · obtain ⟨o, -, h⟩ := Option.bind_eq_some_iff.1 h
      split at h
      · cases h
      · cases h
        rfl

theorem parts_lt {cs : List Char} {d : Calendar.Date} {c : Clock} {offset : Option Int}
    (h : parts cs = some (d, c, offset)) : c.micro < microsPerSecond := by
  unfold parts at h
  dsimp only at h
  split at h
  · cases h
  · obtain ⟨d', -, h⟩ := Option.bind_eq_some_iff.1 h
    split at h
    · cases h
      decide
    · obtain ⟨⟨c', o⟩, htime, h⟩ := Option.bind_eq_some_iff.1 h
      cases h
      exact time_lt htime

theorem proper_check {d : Calendar.Date} {c : Clock} {civil : Civil} (h : check d c = .ok civil)
    (hmicro : c.micro < microsPerSecond) : civil.Proper := by
  unfold check at h
  split at h
  · cases h
  split at h
  · cases h
  split at h
  · cases h
  split at h
  · cases h
  split at h
  · cases h
  split at h
  · cases h
  · cases h
    refine ⟨?_, ?_, ?_, ?_, ?_, ?_, hmicro⟩
    all_goals
      dsimp only
      omega

/-- Parts that are out of their ranges are told from the instant that is. -/
theorem check_ne_outOfRange (d : Calendar.Date) (c : Clock) : check d c ≠ .error .outOfRange := by
  intro h
  unfold check at h
  repeat' split at h
  all_goals cases h

end Reading

/-- A moment that a text writes has a proper reading, and an offset of less than a day. -/
theorem Moment.proper_ofText {s : String} {m : Moment} (h : ofText s = .ok m) :
    m.civil.Proper ∧ -(microsPerDay : Int) < m.offset.getD 0 ∧ m.offset.getD 0 < microsPerDay := by
  unfold ofText at h
  dsimp only at h
  split at h
  · cases h
  case h_2 d c offset hparts =>
    split at h
    · cases h
    case isFalse hday =>
      cases hcheck : Reading.check d c with
      | error e =>
        rw [hcheck] at h
        cases h
      | ok civil =>
        rw [hcheck] at h
        cases h
        refine ⟨Reading.proper_check hcheck (Reading.parts_lt hparts), ?_⟩
        dsimp only
        omega

theorem Moment.ofText_ne_outOfRange (s : String) : ofText s ≠ .error .outOfRange := by
  intro h
  unfold ofText at h
  dsimp only at h
  split at h
  · cases h
  case h_2 d c offset hparts =>
    split at h
    · cases h
    · cases hcheck : Reading.check d c with
      | error e =>
        rw [hcheck] at h
        cases h
        exact Reading.check_ne_outOfRange d c hcheck
      | ok civil =>
        rw [hcheck] at h
        cases h

namespace Instant

variable {s : String}

theorem ofText_eq_ok {t : Instant} :
    ofText s = .ok t ↔ ∃ m, Moment.ofText s = .ok m ∧ m.instant = .ok t := by
  unfold ofText
  cases Moment.ofText s with
  | error e => simp [Except.bind]
  | ok m => simp [Except.bind]

/-- The instant of a proper moment is in range. -/
theorem inRange_instant {m : Moment} {t : Instant} (hm : m.civil.Proper) (h : m.instant = .ok t) :
    inRange t.micros = true := by
  unfold Moment.instant at h
  split at h
  · cases h
    exact hm.inRange_micros
  · dsimp only at h
    split at h
    case isTrue hrange =>
      cases h
      exact hrange
    case isFalse => cases h

/-- An instant read from text is in range. -/
theorem inRange_ofText {t : Instant} (h : ofText s = .ok t) : inRange t.micros = true := by
  obtain ⟨m, hm, ht⟩ := ofText_eq_ok.1 h
  exact inRange_instant (Moment.proper_ofText hm).1 ht

/-- A text out of range is a proper reading with an offset of less than a day that leads out of it. -/
theorem ofText_outOfRange (h : ofText s = .error .outOfRange) :
    ∃ (civil : Civil) (offset : Int), civil.Proper ∧ -(microsPerDay : Int) < offset ∧
      offset < microsPerDay ∧ (civil.micros < offset ∨ last < civil.micros - offset) := by
  unfold ofText at h
  cases hm : Moment.ofText s with
  | error e =>
    rw [hm] at h
    cases h
    exact absurd hm (Moment.ofText_ne_outOfRange s)
  | ok m =>
    obtain ⟨hproper, hlow, hhigh⟩ := Moment.proper_ofText hm
    rw [hm] at h
    change m.instant = _ at h
    unfold Moment.instant at h
    split at h
    · cases h
    case h_2 offset hoffset =>
      rw [hoffset] at hlow hhigh
      dsimp only at h
      split at h
      · cases h
      case isFalse hrange =>
        refine ⟨m.civil, offset, hproper, hlow, hhigh, ?_⟩
        unfold inRange at hrange
        rw [Bool.and_eq_true, decide_eq_true_eq, decide_eq_true_eq] at hrange
        omega

end Instant

end Tradeflow
