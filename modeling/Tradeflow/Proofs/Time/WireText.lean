/-
  Texts of instants. A number in a text is padded to a fixed width, and so many digits of it are read as
  the number whatever follows (`IsNumeral.read`). From there the reader is followed through the text of
  a reading: its date (`date_dateText`), its clock (`clock_clockText`), which has no sign of an offset
  in it, and the offset after it. What a reader finds is the reading that was written and its offset
  (`Moment.ofText_text`, `Moment.ofText_zoneText`), and a reading with its offset taken off is the
  instant (`Moment.instant_of_offset`).
-/
import Tradeflow.Proofs.Json.Lexemes
import Tradeflow.Proofs.Time.Civil
import Tradeflow.Record.Codec

namespace Tradeflow

namespace Reading

open Calendar
open Json (digitsValue)

/-! ## Numbers of a fixed width -/

/-- Digits of a number, so many of them. -/
structure IsNumeral (width n : Nat) (cs : List Char) : Prop where
  length : cs.length = width
  isDigit : ∀ c ∈ cs, Reading.isDigit c = true
  value : digitsValue cs = n

theorem toList_padded (width n : Nat) : (padded width n).toList =
    Decimal.zeros (width - (Decimal.digitsOf n).length) ++ Decimal.digitsOf n := by
  have hdigits : (toString n).toList = Decimal.digitsOf n := Nat.toList_repr
  rw [padded, String.toList_append, String.toList_ofList, ← String.length_toList, hdigits]
  rfl

theorem isDigit_padded {width n : Nat} {c : Char} (h : c ∈ (padded width n).toList) :
    isDigit c = true := by
  rw [toList_padded] at h
  rcases List.mem_append.1 h with hc | hc
  · exact Json.isDigit_zeros hc
  · exact Json.isDigit_digitsOf hc

theorem isNumeral_padded {width n : Nat} (hwidth : 0 < width) (h : n < 10 ^ width) :
    IsNumeral width n (padded width n).toList := by
  have hlength : (Decimal.digitsOf n).length ≤ width :=
    (Nat.length_toDigits_le_iff (by decide) hwidth).2 h
  refine ⟨?_, fun c => isDigit_padded, ?_⟩
  · rw [toList_padded, List.length_append, Decimal.zeros, List.length_replicate]
    omega
  · rw [toList_padded, Json.digitsValue_zeros_append, Json.digitsValue_digitsOf]

section Numerals

variable {width n : Nat} {cs : List Char}

/-- A number of known width is read whatever follows it. -/
theorem IsNumeral.read (h : IsNumeral width n cs) (rest : List Char) :
    digits width (cs ++ rest) = some (n, rest) := by
  obtain ⟨rfl, hdigits, rfl⟩ := h
  rw [digits, List.take_left, List.drop_left]
  exact if_pos ⟨rfl, List.all_eq_true.2 hdigits⟩

/-- A number starts with a digit. -/
theorem IsNumeral.cons (h : IsNumeral (width + 1) n cs) :
    ∃ c ds, cs = c :: ds ∧ Reading.isDigit c = true := by
  obtain ⟨c, ds, rfl⟩ := List.exists_cons_of_length_eq_add_one h.length
  exact ⟨c, ds, rfl, h.isDigit c List.mem_cons_self⟩

theorem IsNumeral.ne_nil (h : IsNumeral (width + 1) n cs) : cs ≠ [] := by
  obtain ⟨c, ds, rfl, -⟩ := h.cons
  exact List.cons_ne_nil c ds

end Numerals

theorem isNumeral_two {n : Nat} (h : n < 100) : IsNumeral 2 n (padded 2 n).toList :=
  isNumeral_padded (by decide) h

theorem ne_of_isDigit {c d : Char} (h : isDigit c = true) (hd : isDigit d = false) : c ≠ d := by
  rintro rfl
  rw [h] at hd
  cases hd

/-! ## The date -/

theorem daysInMonth_le (year month : Nat) : daysInMonth year month ≤ 31 := by
  unfold daysInMonth
  split
  · split <;> decide
  all_goals decide

/-- The parts of a reading fit the widths in which they are written. -/
structure Fits (c : Civil) : Prop where
  year : IsNumeral 4 c.date.year (padded 4 c.date.year).toList
  month : IsNumeral 2 c.date.month (padded 2 c.date.month).toList
  day : IsNumeral 2 c.date.day (padded 2 c.date.day).toList
  hour : IsNumeral 2 c.hour (padded 2 c.hour).toList
  minute : IsNumeral 2 c.minute (padded 2 c.minute).toList
  second : IsNumeral 2 c.second (padded 2 c.second).toList
  micro : IsNumeral 6 c.micro (padded 6 c.micro).toList

theorem fits_of_proper {c : Civil} (h : c.Proper) : Fits c := by
  obtain ⟨hyear, hmonth, hday, hhour, hminute, hsecond, hmicro⟩ := h
  have hmost := daysInMonth_le c.date.year c.date.month
  exact ⟨isNumeral_padded (by decide) (by omega), isNumeral_two (by omega), isNumeral_two (by omega),
    isNumeral_two (by omega), isNumeral_two (by omega), isNumeral_two (by omega),
    isNumeral_padded (by decide) hmicro⟩

/-- The text of a date. -/
def dateText (d : Date) : List Char :=
  (padded 4 d.year).toList ++
    '-' :: ((padded 2 d.month).toList ++ '-' :: (padded 2 d.day).toList)

section Date

variable {c : Civil} (h : Fits c)
include h

theorem length_dateText : (dateText c.date).length = 10 := by
  simp [dateText, h.year.length, h.month.length, h.day.length]

/-- A date that is written in full is the first ten characters. -/
theorem dateLength_dateText (rest : List Char) : dateLength (dateText c.date ++ rest) = 10 := by
  obtain ⟨x, ds, hcs, hx⟩ := h.month.cons
  have hhyphen : (dateText c.date ++ rest)[4]? = some '-' := by
    simp [dateText, h.year.length]
  have hmonth : (dateText c.date ++ rest)[5]? = some x := by
    simp [dateText, List.getElem?_append_right, h.year.length, hcs]
  have hweek : ¬ some x = some 'W' := fun heq => ne_of_isDigit hx (by decide) (Option.some.inj heq)
  have hseven : (dateText c.date ++ rest).length ≠ 7 := by
    rw [List.length_append, length_dateText h]
    omega
  rw [dateLength, if_neg hseven, if_pos hhyphen, hmonth, if_neg hweek]

theorem date_dateText : date (dateText c.date) = some c.date := by
  obtain ⟨x, ds, hcs, hx⟩ := h.month.cons
  have hmonth := h.month.read ('-' :: (padded 2 c.date.day).toList)
  have hday := h.day.read []
  rw [List.append_nil] at hday
  rw [hcs, List.cons_append] at hmonth
  rw [date, dateText, h.year.read, hcs]
  simp only [Option.bind_eq_bind, Option.bind_some, List.cons_append]
  -- the month starts with a digit, so this is no date by week
  split
  case h_1 week hweek => exact absurd (List.cons.inj hweek).1 (ne_of_isDigit hx (by decide))
  case h_2 => simp [hmonth, hday]

end Date

/-! ## The clock -/

/-- The text of a clock. -/
def clockText (c : Civil) : List Char :=
  (padded 2 c.hour).toList ++ ':' :: ((padded 2 c.minute).toList ++
    ':' :: ((padded 2 c.second).toList ++
      if c.micro = 0 then [] else '.' :: (padded 6 c.micro).toList))

theorem toList_text (c : Civil) : c.text.toList = dateText c.date ++ 'T' :: clockText c := by
  unfold Civil.text dateText clockText
  split <;> simp [String.toList_append]

section Steps

variable {left place n : Nat} {ds : List Char} {c : Clock}

/-- After a pair of digits and a colon comes the next pair. -/
theorem clockFrom_colon (h : IsNumeral 2 n ds) {more : List Char} (hmore : more ≠ []) :
    clockFrom (left + 1) place true c (ds ++ ':' :: more) =
      clockFrom left (place + 1) true (c.put place n) more := by
  obtain ⟨x, rest, rfl⟩ := List.exists_cons_of_ne_nil hmore
  rw [clockFrom, h.read]
  simp

theorem clockFrom_end (h : IsNumeral 2 n ds) :
    clockFrom (left + 1) place true c ds = some { c.put place n with whole := true } := by
  have hread := h.read []
  rw [List.append_nil] at hread
  rw [clockFrom, hread]

/-- A fraction of six digits is a number of microseconds. -/
theorem clockFrom_fraction (h : IsNumeral 2 n ds) (hplace : place ≠ 0) {micro : Nat}
    {fs : List Char} (hf : IsNumeral 6 micro fs) :
    clockFrom (left + 1) place true c (ds ++ '.' :: fs) =
      some { c.put place n with micro := micro, whole := true } := by
  obtain ⟨x, rest, rfl, -⟩ := hf.cons
  have hread := hf.read []
  rw [List.append_nil] at hread
  have hrest : rest.length = 5 := by simpa using hf.length
  rw [clockFrom, h.read]
  simp [hplace, fraction, hrest, hread, ends, pow10]

end Steps

/-- A reading as it comes out of a text. -/
def clockOf (c : Civil) : Clock := ⟨c.hour, c.minute, c.second, c.micro, true⟩

theorem clock_clockText {c : Civil} (h : Fits c) : clock (clockText c) = some (clockOf c) := by
  rw [clock, clockText, clockFrom_colon h.hour (by simp),
    clockFrom_colon h.minute (by simp [h.second.ne_nil])]
  split
  case isTrue hzero =>
    rw [List.append_nil, clockFrom_end h.second, clockOf, hzero]
    rfl
  case isFalse =>
    rw [clockFrom_fraction h.second (by decide) h.micro]
    rfl

/-- The clock of an offset. -/
theorem clock_hourMinute {hour minute : Nat} (hhour : hour < 100) (hminute : minute < 100) :
    clock ((padded 2 hour).toList ++ ':' :: (padded 2 minute).toList) =
      some ⟨hour, minute, 0, 0, true⟩ := by
  have hlast := isNumeral_two hminute
  rw [clock, clockFrom_colon (isNumeral_two hhour) hlast.ne_nil, clockFrom_end hlast]
  rfl

/-! ## Reading and offset -/

theorem mem_dateText {d : Date} {x : Char} (h : x ∈ dateText d) : isDigit x = true ∨ x = '-' := by
  simp only [dateText, List.mem_append, List.mem_cons] at h
  rcases h with h | rfl | h | rfl | h
  · exact .inl (isDigit_padded h)
  · exact .inr rfl
  · exact .inl (isDigit_padded h)
  · exact .inr rfl
  · exact .inl (isDigit_padded h)

theorem mem_clockText {c : Civil} {x : Char} (h : x ∈ clockText c) :
    isDigit x = true ∨ x = ':' ∨ x = '.' := by
  simp only [clockText, List.mem_append, List.mem_cons] at h
  rcases h with h | rfl | h | rfl | h | h
  · exact .inl (isDigit_padded h)
  · exact .inr (.inl rfl)
  · exact .inl (isDigit_padded h)
  · exact .inr (.inl rfl)
  · exact .inl (isDigit_padded h)
  · split at h
    · cases h
    · rcases List.mem_cons.1 h with rfl | h
      · exact .inr (.inr rfl)
      · exact .inl (isDigit_padded h)

/-- No character of a clock is one that an offset starts with. -/
theorem not_offsetMark_of_mem_clockText {c : Civil} {x : Char} (h : x ∈ clockText c) :
    (!isOffsetMark x) = true := by
  rcases mem_clockText h with hdigit | rfl | rfl
  · simp [isOffsetMark, ne_of_isDigit hdigit (show isDigit '+' = false by decide),
      ne_of_isDigit hdigit (show isDigit '-' = false by decide),
      ne_of_isDigit hdigit (show isDigit 'Z' = false by decide)]
  · decide
  · decide

/-- What is read of a clock without an offset. -/
theorem time_clockText {c : Civil} (h : Fits c) :
    time (clockText c ++ []) = some (clockOf c, none) := by
  have hall := fun x => not_offsetMark_of_mem_clockText (c := c) (x := x)
  rw [time, List.takeWhile_append_of_pos hall, List.dropWhile_append_of_pos hall]
  simp [clock_clockText h, clockOf]

/-- What is read of a clock with an offset. -/
theorem time_clockText_offset {c : Civil} (h : Fits c) {mark : Char}
    (hmark : mark = '+' ∨ mark = '-') {rest : List Char} {hour minute : Nat}
    (hrest : clock rest = some ⟨hour, minute, 0, 0, true⟩) :
    time (clockText c ++ mark :: rest) = some (clockOf c,
      some (if mark = '-' then -(((hour * 60 + minute) * 60 * microsPerSecond : Nat) : Int)
        else ((hour * 60 + minute) * 60 * microsPerSecond : Nat))) := by
  have hall := fun x => not_offsetMark_of_mem_clockText (c := c) (x := x)
  have hstop : (!isOffsetMark mark) = false := by
    rcases hmark with rfl | rfl <;> decide
  have hZ : mark ≠ 'Z' := by
    rcases hmark with rfl | rfl <;> decide
  rw [time, List.takeWhile_append_of_pos hall, List.dropWhile_append_of_pos hall]
  simp [hstop, clock_clockText h, hZ, hrest]

theorem check_of_proper {c : Civil} (h : c.Proper) : check c.date (clockOf c) = .ok c := by
  obtain ⟨hyear, hmonth, hday, hhour, hminute, hsecond, -⟩ := h
  have hclock : ¬ 23 < (clockOf c).hour ∧ ¬ 59 < (clockOf c).minute ∧ ¬ 59 < (clockOf c).second :=
    ⟨Nat.not_lt.2 hhour, Nat.not_lt.2 hminute, Nat.not_lt.2 hsecond⟩
  rw [check, if_neg (by omega), if_neg (by omega), if_neg (by omega), if_neg hclock.1,
    if_neg hclock.2.1, if_neg hclock.2.2]
  rfl

/-- The parts of a text are those of its reading and what is read after the date. -/
theorem parts_text {c : Civil} (h : Fits c) {marks : List Char} {offset : Option Int}
    (htime : time (clockText c ++ marks) = some (clockOf c, offset)) :
    parts (c.text.toList ++ marks) = some (c.date, clockOf c, offset) := by
  have hlength := length_dateText h
  have hseven : ¬ (dateText c.date ++ 'T' :: (clockText c ++ marks)).length < 7 := by
    rw [List.length_append]
    omega
  rw [toList_text, List.append_assoc, List.cons_append, parts, if_neg hseven]
  simp only [dateLength_dateText h, List.take_left' hlength, List.drop_left' hlength]
  simp [date_dateText h, htime]

/-! ## The letter Z -/

theorem spellZ_of_not_mem {cs : List Char} (h : 'Z' ∉ cs) : spellZ cs = cs := by
  induction cs with
  | nil => rfl
  | cons c cs ih =>
    rw [List.mem_cons, not_or] at h
    have hrest := ih h.2
    unfold spellZ at hrest ⊢
    rw [List.flatMap_cons, if_neg (Ne.symm h.1), hrest]
    rfl

theorem not_mem_text (c : Civil) : 'Z' ∉ c.text.toList := by
  intro h
  rw [toList_text, List.mem_append, List.mem_cons] at h
  rcases h with h | h | h
  · rcases mem_dateText h with h | h <;> exact absurd h (by decide)
  · exact absurd h (by decide)
  · rcases mem_clockText h with h | h | h <;> exact absurd h (by decide)

end Reading

open Reading

/-- The sign of an offset, its hours and its minutes. -/
def zoneText (behind : Bool) (minutes : Nat) : String :=
  (if behind then "-" else "+") ++ padded 2 (minutes / 60) ++ ":" ++ padded 2 (minutes % 60)

/-- An offset of whole minutes, behind UTC or not. -/
def zoneMicros (behind : Bool) (minutes : Nat) : Int :=
  if behind then -((minutes * 60 * microsPerSecond : Nat) : Int)
  else (minutes * 60 * microsPerSecond : Nat)

theorem toList_zoneText (behind : Bool) (minutes : Nat) : (zoneText behind minutes).toList =
    (if behind then '-' else '+') ::
      ((padded 2 (minutes / 60)).toList ++ ':' :: (padded 2 (minutes % 60)).toList) := by
  cases behind <;> simp [zoneText, String.toList_append]

theorem not_mem_zoneText (behind : Bool) (minutes : Nat) : 'Z' ∉ (zoneText behind minutes).toList := by
  intro h
  rw [toList_zoneText, List.mem_cons, List.mem_append, List.mem_cons] at h
  rcases h with h | h | h | h
  · cases behind <;> exact absurd h (by decide)
  · exact absurd (isDigit_padded h) (by decide)
  · exact absurd h (by decide)
  · exact absurd (isDigit_padded h) (by decide)

/-- What is read of a clock with an offset of whole minutes. -/
theorem time_zoneText {c : Civil} (h : Fits c) (behind : Bool) {minutes : Nat}
    (hminutes : minutes < 1440) : time (clockText c ++ (zoneText behind minutes).toList) =
      some (clockOf c, some (zoneMicros behind minutes)) := by
  have hclock := clock_hourMinute (show minutes / 60 < 100 by omega)
    (show minutes % 60 < 100 by omega)
  have hsum : minutes / 60 * 60 + minutes % 60 = minutes := Nat.div_add_mod' minutes 60
  rw [toList_zoneText]
  cases behind with
  | false =>
    have hread := time_clockText_offset h (.inl rfl) hclock
    rw [hsum] at hread
    exact hread
  | true =>
    have hread := time_clockText_offset h (.inr rfl) hclock
    rw [hsum] at hread
    exact hread

namespace Moment

variable {c : Civil}

/-- A text is read once it is known what follows the clock, with the letter Z spelled out. -/
theorem ofText_of_time (h : c.Proper) {s : String} {marks : List Char} {offset : Option Int}
    (hs : (if s.toList.getLast? = some 'Z' then spellZ s.toList else s.toList) =
      c.text.toList ++ marks)
    (htime : time (clockText c ++ marks) = some (clockOf c, offset))
    (hday : -(microsPerDay : Int) < offset.getD 0 ∧ offset.getD 0 < microsPerDay) :
    ofText s = .ok ⟨c, offset⟩ := by
  unfold ofText
  simp only [hs, parts_text (fits_of_proper h) htime, check_of_proper h]
  rw [if_neg (by omega)]
  rfl

/-- A text that does not end in Z is read as it is. -/
theorem spelled_of_not_mem {cs : List Char} (h : 'Z' ∉ cs) :
    (if cs.getLast? = some 'Z' then spellZ cs else cs) = cs :=
  if_neg fun hlast => h (List.mem_of_getLast? hlast)

/-- A reading is read back. -/
theorem ofText_text (h : c.Proper) : ofText c.text = .ok ⟨c, none⟩ := by
  refine ofText_of_time h ?_ (time_clockText (fits_of_proper h)) (by decide)
  rw [spelled_of_not_mem (not_mem_text c), List.append_nil]

theorem zoneMicros_lt (behind : Bool) {minutes : Nat} (h : minutes < 1440) :
    -(microsPerDay : Int) < zoneMicros behind minutes ∧ zoneMicros behind minutes < microsPerDay := by
  rw [zoneMicros, microsPerDay_eq, microsPerSecond_eq]
  cases behind <;> simp <;> omega

/-- A reading with an offset is read back. -/
theorem ofText_zoneText (h : c.Proper) (behind : Bool) {minutes : Nat} (hminutes : minutes < 1440) :
    ofText (c.text ++ zoneText behind minutes) = .ok ⟨c, some (zoneMicros behind minutes)⟩ := by
  refine ofText_of_time h ?_ (time_zoneText (fits_of_proper h) behind hminutes)
    (zoneMicros_lt behind hminutes)
  rw [String.toList_append, spelled_of_not_mem]
  rw [List.mem_append, not_or]
  exact ⟨not_mem_text c, not_mem_zoneText behind minutes⟩

/-- A final Z is an offset of zero. -/
theorem ofText_utc (h : c.Proper) : ofText (c.text ++ "Z") = .ok ⟨c, some 0⟩ := by
  refine ofText_of_time h ?_ (time_zoneText (fits_of_proper h) false (show 0 < 1440 by decide))
    (by decide)
  have hspell : spellZ ['Z'] = (zoneText false 0).toList := by decide
  rw [String.toList_append, if_pos (by simp), show "Z".toList = ['Z'] from rfl, spellZ,
    List.flatMap_append]
  exact congrArg₂ (· ++ ·) (spellZ_of_not_mem (not_mem_text c)) hspell

/-- The offset is taken off. -/
theorem instant_of_offset {offset : Int} {t : Instant} (h : c.micros - offset = t.micros)
    (ht : Instant.inRange t.micros = true) : (⟨c, some offset⟩ : Moment).instant = .ok t := by
  unfold instant
  simp only [h, ht, if_true]

end Moment

namespace Instant

variable {t : Instant}

theorem instant_moment (ht : inRange t.micros = true) : t.moment.instant = .ok t := by
  refine Moment.instant_of_offset ?_ ht
  rw [micros_civil (nonneg_of_inRange ht), Int.sub_zero]

theorem ofText_text (ht : inRange t.micros = true) : ofText t.text = .ok t :=
  ofText_eq_ok.2 ⟨t.moment, Moment.ofText_utc (proper_civil ht), instant_moment ht⟩

/-- An instant of the years 1 to 9999 has a proper reading, which stands for it. It is read back from
its text in documents, from its reading without an offset, and from the reading that a clock shows
where the time is up to a day ahead of UTC or behind it by whole minutes, if that reading has a year
there is. Whatever text names no offset is the reading in UTC of its instant. An instant that came of a
text or of a moment is left as it is, whether it is given again as a moment or as a text. -/
theorem instants_read_back :
    (∀ t : Instant, inRange t.micros = true →
      (t.civil.Proper ∧ t.civil.micros = t.micros) ∧
      (ofText t.text = .ok t ∧ Codec.date.read (Codec.date.write t) = .ok t ∧
        Codec.stamp.read (Codec.stamp.write t) = .ok t) ∧
      ofText t.civil.text = .ok t ∧
      ∀ (behind : Bool) (minutes : Nat), minutes < 1440 →
        inRange (t.plus (zoneMicros behind minutes)).micros = true →
        ofText ((t.plus (zoneMicros behind minutes)).civil.text ++ zoneText behind minutes) =
          .ok t) ∧
    (∀ (s : String) (m : Moment), Moment.ofText s = .ok m → m.offset = none →
      ∃ t, ofText s = .ok t ∧ t.civil = m.civil) ∧
    (∀ (s : String) (t : Instant), ofText s = .ok t →
      t.moment.instant = .ok t ∧ ofText t.text = .ok t) ∧
    ∀ (m : Moment) (t : Instant), m.civil.Proper → m.instant = .ok t →
      t.moment.instant = .ok t ∧ ofText t.text = .ok t := by
  refine ⟨?_, ?_, ?_, ?_⟩
  · intro t ht
    have htext := ofText_text ht
    have hproper := proper_civil ht
    have hmicros := micros_civil (nonneg_of_inRange ht)
    refine ⟨⟨hproper, hmicros⟩, ⟨htext, ?_, ?_⟩, ?_, ?_⟩
    · simp only [Codec.date, htext]
    · simp only [Codec.stamp, htext]
    · refine ofText_eq_ok.2 ⟨_, Moment.ofText_text hproper, ?_⟩
      simp only [Moment.instant, hmicros]
    · intro behind minutes hminutes hrange
      refine ofText_eq_ok.2 ⟨_, Moment.ofText_zoneText (proper_civil hrange) behind hminutes, ?_⟩
      refine Moment.instant_of_offset ?_ ht
      rw [micros_civil (nonneg_of_inRange hrange), plus, Int.add_sub_cancel]
  · intro s m hm hoffset
    refine ⟨⟨m.civil.micros⟩, ofText_eq_ok.2 ⟨m, hm, ?_⟩, civil_micros (Moment.proper_ofText hm).1⟩
    simp only [Moment.instant, hoffset]
  · intro s t hs
    have ht := inRange_ofText hs
    exact ⟨instant_moment ht, ofText_text ht⟩
  · intro m t hm hinstant
    have ht := inRange_instant hm hinstant
    exact ⟨instant_moment ht, ofText_text ht⟩

/-- Half an hour before the end of a leap day, and a microsecond later. -/
def lateLeapDay : Instant := ⟨63844846200000001⟩

/-- The local reading is one of the next month where the time is ahead, and of noon where it is half a
day behind. The day itself, written without a time, is its first instant in UTC. -/
theorem lateLeapDay_read_back :
    ofText "2024-02-29T23:30:00.000001Z" = .ok lateLeapDay ∧
      ofText "2024-02-29T23:30:00.000001" = .ok lateLeapDay ∧
      ofText "2024-03-01T05:00:00.000001+05:30" = .ok lateLeapDay ∧
      ofText "2024-02-29T12:00:00.000001-11:30" = .ok lateLeapDay ∧
      (∃ t, ofText "2024-02-29" = .ok t ∧ t.civil = ⟨⟨2024, 2, 29⟩, 0, 0, 0, 0⟩) ∧
      lateLeapDay.moment.instant = .ok lateLeapDay := by
  obtain ⟨hall, hutc, hagain, -⟩ := instants_read_back
  obtain ⟨-, ⟨htext, -, -⟩, hplain, hzones⟩ := hall lateLeapDay (by decide)
  have hahead := hzones false 330 (by decide) (by decide)
  have hbehind := hzones true 690 (by decide) (by decide)
  rw [show lateLeapDay.text = "2024-02-29T23:30:00.000001Z" by decide +kernel] at htext
  rw [show lateLeapDay.civil.text = "2024-02-29T23:30:00.000001" by decide +kernel] at hplain
  rw [show (lateLeapDay.plus (zoneMicros false 330)).civil.text ++ zoneText false 330 =
    "2024-03-01T05:00:00.000001+05:30" by decide +kernel] at hahead
  rw [show (lateLeapDay.plus (zoneMicros true 690)).civil.text ++ zoneText true 690 =
    "2024-02-29T12:00:00.000001-11:30" by decide +kernel] at hbehind
  have hdate := hutc "2024-02-29" ⟨⟨⟨2024, 2, 29⟩, 0, 0, 0, 0⟩, none⟩ (by decide +kernel) rfl
  exact ⟨htext, hplain, hahead, hbehind, hdate, (hagain _ _ htext).1⟩

end Instant

end Tradeflow
