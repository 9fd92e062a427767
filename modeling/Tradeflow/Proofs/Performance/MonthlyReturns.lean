/-
  Monthly returns, against the months of the calendar.

  A sample is put into the list of months at its place: into the month that is there, or between those
  before it and those after it (`exists_put`). So at every point of the curve the list has the months of the
  samples so far in rising order, each with its samples (`Sorted.put`, `buckets_sorted`). What comes
  after all months there are is put behind them, which leaves these as they are (`buckets_append`).

  A month is a span of time in UTC (`Instant.InMonth`), so the boundary between two months is where the
  calendar has it and not where the loop says it is.
-/
import Tradeflow.Performance.Monthly
import Tradeflow.Proofs.Number.Values
import Tradeflow.Proofs.Time.Civil

namespace Tradeflow

variable {R : Type}

/-- The samples of a curve that fall into a month, in the order of the curve. -/
def samplesIn (curve : List (EquityPoint R)) (year month : Nat) : List (EquityPoint R) :=
  curve.filter fun p => decide (p.timestamp.InMonth year month)

/-- Every sample is at a time of the years 1 to 9999. -/
def Dated (curve : List (EquityPoint R)) : Prop :=
  ∀ p ∈ curve, Instant.inRange p.timestamp.micros = true

instance (curve : List (EquityPoint R)) : Decidable (Dated curve) :=
  inferInstanceAs (Decidable (∀ p ∈ curve, Instant.inRange p.timestamp.micros = true))

/-- No sample of one curve is in the same month as one of the other, or in a later one. -/
def MonthsBefore (a b : List (EquityPoint R)) : Prop :=
  ∀ p ∈ a, ∀ q ∈ b, ∀ year month year' month', p.timestamp.InMonth year month →
    q.timestamp.InMonth year' month' → year < year' ∨ year = year' ∧ month < month'

/-- Every sample of a curve is in the month that its reading names. -/
theorem Dated.inMonth {curve : List (EquityPoint R)} (h : Dated curve) {p : EquityPoint R} (hp : p ∈ curve) :
    p.timestamp.InMonth p.timestamp.civil.date.year p.timestamp.civil.date.month :=
  (Instant.inMonth_iff (Instant.nonneg_of_inRange (h p hp))).2 ⟨rfl, rfl⟩

namespace Monthly

theorem comesBefore_iff {year month year' month' : Nat} :
    comesBefore year month year' month' = true ↔ year < year' ∨ year = year' ∧ month < month' := by
  simp [comesBefore]

/-- The months of buckets, in their order. -/
def months (bs : List (Bucket R)) : List (Nat × Nat) := bs.map fun b => (b.year, b.month)

/-- Every month comes before those after it. -/
def Rising (months : List (Nat × Nat)) : Prop :=
  months.Pairwise fun k l => k.1 < l.1 ∨ k.1 = l.1 ∧ k.2 < l.2

variable {bs : List (Bucket R)} {curve : List (EquityPoint R)} {year month : Nat} {value : R}

/-- A month after all others stays behind them. -/
theorem put_append {before : List (Bucket R)}
    (h : ∀ k ∈ months before, k.1 < year ∨ k.1 = year ∧ k.2 < month) (after : List (Bucket R)) :
    put (before ++ after) year month value = before ++ put after year month value := by
  induction before with
  | nil => rfl
  | cons b before ih =>
    have hb := h (b.year, b.month) List.mem_cons_self
    have hdiffers : ¬ (b.year == year && b.month == month) = true := by simp; omega
    have hlater : ¬ comesBefore year month b.year b.month = true := by
      rw [comesBefore_iff]
      omega
    rw [List.cons_append, put, if_neg hdiffers, if_neg hlater,
      ih fun k hk => h k (List.mem_cons_of_mem _ hk)]
    rfl

/-- A sample goes into its month, which is there or comes between the months before it and those after
it. -/
theorem exists_put (h : Rising (months bs)) (year month : Nat) (value : R) :
    ∃ before latest after,
      put bs year month value = before ++ ⟨year, month, value :: latest⟩ :: after ∧
      (bs = before ++ ⟨year, month, latest⟩ :: after ∨ bs = before ++ after ∧ latest = []) ∧
      (∀ k ∈ months before, k.1 < year ∨ k.1 = year ∧ k.2 < month) ∧
      ∀ k ∈ months after, year < k.1 ∨ year = k.1 ∧ month < k.2 := by
  induction bs with
  | nil => exact ⟨[], [], [], rfl, .inr ⟨rfl, rfl⟩, by simp [months], by simp [months]⟩
  | cons b rest ih =>
    obtain ⟨hfirst, hrest⟩ := List.pairwise_cons.1 h
    rw [put]
    split
    case isTrue hsame =>
      obtain ⟨rfl, rfl⟩ : b.year = year ∧ b.month = month := by simpa using hsame
      exact ⟨[], b.latest, rest, rfl, .inl rfl, by simp [months], hfirst⟩
    case isFalse hdiffers =>
      split
      case isTrue hbefore =>
        rw [comesBefore_iff] at hbefore
        refine ⟨[], [], b :: rest, rfl, .inr ⟨rfl, rfl⟩, by simp [months], fun k hk => ?_⟩
        rcases List.mem_cons.1 hk with rfl | hk
        · exact hbefore
        · have hlater : b.year < k.1 ∨ b.year = k.1 ∧ b.month < k.2 := hfirst k hk
          omega
      case isFalse hlater =>
        have hb : b.year < year ∨ b.year = year ∧ b.month < month := by
          rw [comesBefore_iff] at hlater
          simp at hdiffers
          omega
        obtain ⟨before, latest, after, hput, hbs, hbefore, hafter⟩ := ih hrest
        refine ⟨b :: before, latest, after, congrArg (b :: ·) hput, ?_, fun k hk => ?_, hafter⟩
        · rcases hbs with rfl | ⟨rfl, hnone⟩
          · exact .inl rfl
          · exact .inr ⟨rfl, hnone⟩
        · rcases List.mem_cons.1 hk with rfl | hk
          · exact hb
          · exact hbefore k hk

theorem mem_months_put {k : Nat × Nat} :
    k ∈ months (put bs year month value) ↔ k = (year, month) ∨ k ∈ months bs := by
  induction bs with
  | nil => simp [months, put]
  | cons b rest ih =>
    rw [put]
    split
    case isTrue hsame =>
      obtain ⟨rfl, rfl⟩ : b.year = year ∧ b.month = month := by simpa using hsame
      simp [months]
    case isFalse =>
      split
      · simp [months]
      · simp only [months, List.map_cons, List.mem_cons] at ih ⊢
        rw [ih]
        tauto

theorem rising_put (h : Rising (months bs)) : Rising (months (put bs year month value)) := by
  obtain ⟨before, latest, after, hput, hbs, hbefore, hafter⟩ := exists_put h year month value
  have hparts : Rising (months before) ∧ Rising (months after) := by
    unfold Rising months at h ⊢
    rcases hbs with rfl | ⟨rfl, -⟩
    · rw [List.map_append, List.pairwise_append, List.map_cons, List.pairwise_cons] at h
      exact ⟨h.1, h.2.1.2⟩
    · rw [List.map_append, List.pairwise_append] at h
      exact ⟨h.1, h.2.1⟩
  rw [hput, months, List.map_append, List.map_cons]
  refine List.pairwise_append.2 ⟨hparts.1, List.pairwise_cons.2 ⟨hafter, hparts.2⟩, ?_⟩
  intro k hk l hl
  have hkey := hbefore k hk
  rcases List.mem_cons.1 hl with rfl | hl
  · exact hkey
  · have := hafter l hl
    omega

/-- What the months hold afterwards: those of other months what they did, the sample's month the sample
before what it did. -/
theorem mem_put (h : Rising (months bs)) {b : Bucket R} (hb : b ∈ put bs year month value) :
    (b ∈ bs ∧ ¬ (b.year = year ∧ b.month = month)) ∨
    ∃ latest, b = ⟨year, month, value :: latest⟩ ∧
      (⟨year, month, latest⟩ ∈ bs ∨ latest = [] ∧ (year, month) ∉ months bs) := by
  obtain ⟨before, latest, after, hput, hbs, hbefore, hafter⟩ := exists_put h year month value
  have hother : ∀ c ∈ before ++ after, ¬ (c.year = year ∧ c.month = month) := by
    intro c hc
    rcases List.mem_append.1 hc with hc | hc
    · have hkey : c.year < year ∨ c.year = year ∧ c.month < month :=
        hbefore (c.year, c.month) (List.mem_map_of_mem hc)
      omega
    · have hkey : year < c.year ∨ year = c.year ∧ month < c.month :=
        hafter (c.year, c.month) (List.mem_map_of_mem hc)
      omega
  rw [hput, List.mem_append, List.mem_cons] at hb
  rcases hbs with rfl | ⟨rfl, rfl⟩
  · rcases hb with hb | rfl | hb
    · exact .inl ⟨by simp [hb], hother b (by simp [hb])⟩
    · exact .inr ⟨latest, rfl, .inl (by simp)⟩
    · exact .inl ⟨by simp [hb], hother b (by simp [hb])⟩
  · rcases hb with hb | rfl | hb
    · exact .inl ⟨by simp [hb], hother b (by simp [hb])⟩
    · refine .inr ⟨[], rfl, .inr ⟨rfl, fun hmem => ?_⟩⟩
      obtain ⟨c, hc, hkey⟩ := List.mem_map.1 hmem
      exact hother c hc (Prod.mk.inj hkey)
    · exact .inl ⟨by simp [hb], hother b (by simp [hb])⟩

/-! ## The months of a curve -/

/-- The months of a curve, in rising order, each with its samples. -/
structure Sorted (bs : List (Bucket R)) (curve : List (EquityPoint R)) : Prop where
  rising : Rising (months bs)
  holds : ∀ b ∈ bs, b.latest = ((samplesIn curve b.year b.month).map (·.value)).reverse
  occupied : ∀ b ∈ bs, b.latest ≠ []
  listed : ∀ p ∈ curve, ∀ year month, p.timestamp.InMonth year month → (year, month) ∈ months bs

theorem samplesIn_concat (curve : List (EquityPoint R)) (p : EquityPoint R) (year month : Nat) :
    samplesIn (curve ++ [p]) year month =
      samplesIn curve year month ++ if p.timestamp.InMonth year month then [p] else [] := by
  by_cases hp : p.timestamp.InMonth year month <;> simp [samplesIn, List.filter_append, hp]

/-- A month that is not listed has no samples. -/
theorem Sorted.samplesIn_eq_nil (h : Sorted bs curve) (hnot : (year, month) ∉ months bs) :
    samplesIn curve year month = [] :=
  List.filter_eq_nil_iff.2 fun p hp hin => hnot (h.listed p hp year month (of_decide_eq_true hin))

/-- A month that is listed has samples. -/
theorem Sorted.samplesIn_ne_nil (h : Sorted bs curve) {b : Bucket R} (hb : b ∈ bs) :
    samplesIn curve b.year b.month ≠ [] := by
  intro hnil
  refine h.occupied b hb ?_
  rw [h.holds b hb, hnil]
  rfl

theorem Sorted.exists_sample (h : Sorted bs curve) {k : Nat × Nat} (hk : k ∈ months bs) :
    ∃ p ∈ curve, p.timestamp.InMonth k.1 k.2 := by
  obtain ⟨b, hb, rfl⟩ := List.mem_map.1 hk
  obtain ⟨p, hp⟩ := List.exists_mem_of_ne_nil _ (h.samplesIn_ne_nil hb)
  obtain ⟨hp, hin⟩ := List.mem_filter.1 hp
  exact ⟨p, hp, of_decide_eq_true hin⟩

/-- One sample more. -/
theorem Sorted.put (h : Sorted bs curve) {p : EquityPoint R} (hp : p.timestamp.InMonth year month) :
    Sorted (put bs year month p.value) (curve ++ [p]) where
  rising := rising_put h.rising
  holds b hb := by
    rw [samplesIn_concat]
    rcases mem_put h.rising hb with ⟨hmem, hother⟩ | ⟨latest, rfl, hlatest⟩
    · have hout : ¬ p.timestamp.InMonth b.year b.month := fun hin => hother (hin.unique hp)
      rw [if_neg hout, List.append_nil]
      exact h.holds b hmem
    · rw [if_pos hp, List.map_append, List.reverse_append]
      rcases hlatest with hmem | ⟨rfl, hnot⟩
      · exact congrArg (p.value :: ·) (h.holds _ hmem)
      · rw [h.samplesIn_eq_nil hnot]
        rfl
  occupied b hb := by
    rcases mem_put h.rising hb with ⟨hmem, -⟩ | ⟨latest, rfl, -⟩
    · exact h.occupied b hmem
    · exact List.cons_ne_nil _ _
  listed q hq y m hin := by
    rw [mem_months_put]
    rcases List.mem_append.1 hq with hq | hq
    · exact .inr (h.listed q hq y m hin)
    · obtain rfl := List.mem_singleton.1 hq
      obtain ⟨rfl, rfl⟩ := hin.unique hp
      exact .inl rfl

theorem buckets_concat (curve : List (EquityPoint R)) (p : EquityPoint R) :
    buckets (curve ++ [p]) =
      put (buckets curve) p.timestamp.civil.date.year p.timestamp.civil.date.month p.value := by
  simp only [buckets, List.foldl_append, List.foldl_cons, List.foldl_nil]

theorem buckets_sorted (h : Dated curve) : Sorted (buckets curve) curve := by
  induction curve using List.reverseRecOn with
  | nil => exact ⟨.nil, by simp [buckets], by simp [buckets], by simp⟩
  | append_singleton curve p ih =>
    rw [buckets_concat]
    refine (ih fun q hq => h q (List.mem_append_left _ hq)).put (h.inMonth (by simp))

/-- The months of a curve that comes after another one are put behind those. -/
theorem buckets_append {a b : List (EquityPoint R)} (ha : Dated a) (hb : Dated b)
    (h : MonthsBefore a b) : buckets (a ++ b) = buckets a ++ buckets b := by
  induction b using List.reverseRecOn with
  | nil => simp [buckets]
  | append_singleton b p ih =>
    have hp := hb.inMonth (p := p) (by simp)
    rw [← List.append_assoc, buckets_concat, buckets_concat,
      ih (fun q hq => hb q (List.mem_append_left _ hq))
        (fun q hq r hr => h q hq r (List.mem_append_left _ hr))]
    refine put_append (fun k hk => ?_) _
    obtain ⟨q, hq, hin⟩ := (buckets_sorted ha).exists_sample hk
    exact h q hq p (by simp) k.1 k.2 _ _ hin hp

/-! ## Changes -/

theorem result_eq [Scalar R] {b : Bucket R} {first last : R} (hfirst : b.latest.getLast? = some first)
    (hlast : b.latest.head? = some last) (h : ∀ x ∈ b.latest, Scalar.equal x x = true) :
    b.result = ⟨b.year, b.month, change first last⟩ := by
  have hnumbers : b.latest.filter (fun x => Scalar.equal x x) = b.latest := List.filter_eq_self.2 h
  simp only [Bucket.result, hnumbers, ite_self, hfirst, hlast]

end Monthly

/-- What a monthly return says of a curve: the change in percent from the first to the last of the samples
of its month, which is zero where the first one is zero. -/
structure MonthlyReturn.Reports (r : MonthlyReturn Float) (curve : List (EquityPoint Float))
    (year month : Nat) : Prop where
  year_eq : r.year = year
  month_eq : r.month = month
  change_eq : ∃ first last, (samplesIn curve year month).head? = some first ∧
    (samplesIn curve year month).getLast? = some last ∧
    r.change = if first.value == 0 then 0 else (last.value - first.value) / first.value * 100

theorem Monthly.Sorted.reports {bs : List (Bucket Float)} {curve : List (EquityPoint Float)}
    (h : Sorted bs curve) (hfinite : ∀ p ∈ curve, Double.isFinite p.value = true) {b : Bucket Float}
    (hb : b ∈ bs) : b.result.Reports curve b.year b.month := by
  have hsamples := h.samplesIn_ne_nil hb
  obtain ⟨first, hfirst⟩ := Option.ne_none_iff_exists'.1 (mt List.head?_eq_none_iff.1 hsamples)
  obtain ⟨last, hlast⟩ := Option.ne_none_iff_exists'.1 (mt List.getLast?_eq_none_iff.1 hsamples)
  have hnumbers : ∀ x ∈ b.latest, Scalar.equal x x = true := by
    intro x hx
    rw [h.holds b hb, List.mem_reverse] at hx
    obtain ⟨p, hp, rfl⟩ := List.mem_map.1 hx
    have hnumber := Double.isNumber_of_isFinite (hfinite p (List.mem_of_mem_filter hp))
    exact (Double.valued.equal hnumber hnumber).2 rfl
  have hresult : b.result = ⟨b.year, b.month, change first.value last.value⟩ := by
    refine result_eq ?_ ?_ hnumbers
    · rw [h.holds b hb, List.getLast?_reverse, List.head?_map, hfirst, Option.map_some]
    · rw [h.holds b hb, List.head?_reverse, List.getLast?_map, hlast, Option.map_some]
  rw [hresult]
  exact ⟨rfl, rfl, first, last, hfirst, hlast, rfl⟩

/-- The monthly returns of a curve with finite values, its samples in any order, are in rising order of their
months; they are those of the months with a sample, and each reports the change over its month. Those of
two curves, one in earlier months than the other, are those of the one and then those of the other. -/
theorem monthlyReturns_partition (curve : List (EquityPoint Float)) (hdated : Dated curve) :
    ((∀ p ∈ curve, Double.isFinite p.value = true) →
      (monthlyReturns curve).Pairwise
        (fun r s => r.year < s.year ∨ r.year = s.year ∧ r.month < s.month) ∧
      (∀ year month, (∃ p ∈ curve, p.timestamp.InMonth year month) ↔
        ∃ r ∈ monthlyReturns curve, r.Reports curve year month) ∧
      ∀ r ∈ monthlyReturns curve, ∃ year month, r.Reports curve year month) ∧
    ∀ later, Dated later → MonthsBefore curve later →
      monthlyReturns (curve ++ later) = monthlyReturns curve ++ monthlyReturns later := by
  have hsorted := Monthly.buckets_sorted hdated
  refine ⟨fun hfinite => ⟨?_, fun year month => ⟨?_, ?_⟩, ?_⟩, fun later hlater hbefore => ?_⟩
  · have hrising := hsorted.rising
    unfold Monthly.Rising Monthly.months at hrising
    rw [List.pairwise_map] at hrising
    refine List.pairwise_map.2 (hrising.imp_of_mem fun {b c} hb hc hlt => ?_)
    have hr := hsorted.reports hfinite hb
    have hs := hsorted.reports hfinite hc
    rw [hr.year_eq, hr.month_eq, hs.year_eq, hs.month_eq]
    exact_mod_cast hlt
  · rintro ⟨p, hp, hin⟩
    obtain ⟨b, hb, hkey⟩ := List.mem_map.1 (hsorted.listed p hp year month hin)
    obtain ⟨rfl, rfl⟩ := Prod.mk.inj hkey
    exact ⟨b.result, List.mem_map_of_mem hb, hsorted.reports hfinite hb⟩
  · rintro ⟨r, -, -, -, first, -, hfirst, -⟩
    obtain ⟨hp, hin⟩ := List.mem_filter.1 (List.mem_of_mem_head? hfirst)
    exact ⟨first, hp, of_decide_eq_true hin⟩
  · intro r hr
    obtain ⟨b, hb, rfl⟩ := List.mem_map.1 hr
    exact ⟨b.year, b.month, hsorted.reports hfinite hb⟩
  · rw [monthlyReturns, Monthly.buckets_append hdated hlater hbefore, List.map_append]
    rfl

/-- The months of two curves by the readings of their samples. -/
theorem monthsBefore_of_readings {a b : List (EquityPoint R)} (ha : Dated a) (hb : Dated b)
    (h : ∀ p ∈ a, ∀ q ∈ b, Monthly.comesBefore p.timestamp.civil.date.year
      p.timestamp.civil.date.month q.timestamp.civil.date.year q.timestamp.civil.date.month = true) :
    MonthsBefore a b := by
  intro p hp q hq year month year' month' hin hin'
  obtain ⟨rfl, rfl⟩ := (ha.inMonth hp).unique hin
  obtain ⟨rfl, rfl⟩ := (hb.inMonth hq).unique hin'
  exact Monthly.comesBefore_iff.1 (h p hp q hq)

/-- Samples on both sides of the end of a leap February, out of order, and one of a year before, of
nothing. -/
def leapFebruary : List (EquityPoint Float) :=
  [⟨⟨Civil.micros ⟨⟨2024, 3, 1⟩, 0, 0, 0, 0⟩⟩, 110⟩,
    ⟨⟨Civil.micros ⟨⟨2024, 2, 29⟩, 23, 59, 59, 999999⟩⟩, 100⟩,
    ⟨⟨Civil.micros ⟨⟨2022, 12, 31⟩, 23, 59, 59, 999999⟩⟩, 0⟩,
    ⟨⟨Civil.micros ⟨⟨2024, 3, 31⟩, 12, 0, 0, 0⟩⟩, 55⟩,
    ⟨⟨Civil.micros ⟨⟨2024, 2, 1⟩, 0, 0, 0, 0⟩⟩, 150⟩]

/-- One sample of the month after. -/
def nextApril : List (EquityPoint Float) := [⟨⟨Civil.micros ⟨⟨2024, 4, 1⟩, 0, 0, 0, 0⟩⟩, 60⟩]

/-- February goes from 100 to 150, in the order of the curve, and March loses half. -/
theorem leapFebruary_reported :
    (Dated leapFebruary ∧ Dated nextApril ∧ MonthsBefore leapFebruary nextApril ∧
      ∀ p ∈ leapFebruary, Double.isFinite p.value = true) ∧
    (∃ r ∈ monthlyReturns leapFebruary, r.Reports leapFebruary 2024 2) ∧
    (monthlyReturns (leapFebruary ++ nextApril)).map (fun r => (r.year, r.month)) =
      [(2022, 12), (2024, 2), (2024, 3), (2024, 4)] ∧
    (monthlyReturns leapFebruary).map (fun r => r.change.toBits) =
      [(0 : Float).toBits, (50 : Float).toBits, (-50 : Float).toBits] := by
  have hdated : Dated leapFebruary := by decide +kernel
  have hnext : Dated nextApril := by decide +kernel
  have hbefore : MonthsBefore leapFebruary nextApril :=
    monthsBefore_of_readings hdated hnext (by decide +kernel)
  have hfinite : ∀ p ∈ leapFebruary, Double.isFinite p.value = true := by decide +kernel
  obtain ⟨hmonths, happend⟩ := monthlyReturns_partition leapFebruary hdated
  obtain ⟨-, hlisted, -⟩ := hmonths hfinite
  refine ⟨⟨hdated, hnext, hbefore, hfinite⟩, (hlisted 2024 2).1 ?_, ?_, by decide +kernel⟩
  · decide +kernel
  · rw [happend nextApril hnext hbefore]
    decide +kernel

end Tradeflow
