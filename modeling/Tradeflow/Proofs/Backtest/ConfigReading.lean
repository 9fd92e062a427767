/-
  What documents that are to be the parameters of a run are read as. A document is read as a period in
  order and a capital above zero (`SimulationConfig.ReadFrom`), or it is refused with problems, unless
  one of its dates escapes: one that is no text at all, and one that its offset takes out of the years
  there are (`Codec.OffDate`). The date that escapes first is the fault of the reading
  (`SimulationConfig.read_ends`), whatever else is wrong with the document.
-/
import Tradeflow.Backtest.Config
import Tradeflow.Proofs.Record.Endings
import Tradeflow.Proofs.Time.Range

namespace Tradeflow

/-- A document that is no date: something else than text, or a proper reading with an offset of less than
a day that leads out of the years 1 to 9999. -/
def Codec.OffDate (doc : Json) (f : Fault) : Prop :=
  (f = .notADate doc.kindName ∧ ∀ s, doc ≠ .str s) ∨
    f = .date .outOfRange ∧ ∃ s, doc = .str s ∧ ∃ (civil : Civil) (offset : Int), civil.Proper ∧
      -(microsPerDay : Int) < offset ∧ offset < microsPerDay ∧
      (civil.micros < offset ∨ Instant.last < civil.micros - offset)

theorem Codec.offDate_of_dateFault? {doc : Json} {f : Fault} (h : dateFault? doc = some f) :
    OffDate doc f := by
  unfold dateFault? at h
  split at h
  case h_1 s =>
    split at h
    case h_1 htext =>
      cases h
      exact .inr ⟨rfl, s, rfl, Instant.ofText_outOfRange htext⟩
    case h_2 => cases h
  case h_2 htext =>
    cases h
    exact .inl ⟨rfl, htext⟩

theorem MarketConditions.codec_refuses : MarketConditions.codec.Refuses fun _ _ => True := by
  intro doc
  have hrecord : MarketConditions.codec.Ends _ _ := Codec.record_ends <|
    Fields.start_ends MarketConditions.mk
      |>.opt _ _ (Codec.oneOf_refuses _ _ _)
      |>.opt _ _ (Codec.oneOf_refuses _ _ _)
      |>.opt _ _ (Codec.oneOf_refuses _ _ _)
  have hends := hrecord doc
  cases doc with
  | obj pairs => exact hends.mono fun _ _ => trivial
  | null | bool | int | num | str | arr => exact hends.mono fun _ _ => trivial

namespace SimulationConfig

def startField : FieldName := ⟨"start_date", "startDate"⟩

def endField : FieldName := ⟨"end_date", "endDate"⟩

/-- The fault with which a document escapes: that of its start date, else that of its end date. -/
def escape? : Json → Option Fault
  | .obj pairs =>
    (Fields.escapeAt startField Codec.dateFault? pairs).or
      (Fields.escapeAt endField Codec.dateFault? pairs)
  | _ => none

/-- A field holds the text of an instant. -/
def Dated (pairs : Assoc Json) (field : FieldName) (t : Instant) : Prop :=
  ∃ key text, Fields.find? pairs field = some (key, .str text) ∧ Instant.ofText text = .ok t

/-- Parameters of a run as they are read: dates in UTC, none before the other, and some capital. -/
structure ReadFrom (c : SimulationConfig) (pairs : Assoc Json) : Prop where
  startDate : Dated pairs startField c.startDate
  endDate : Dated pairs endField c.endDate
  order : c.startDate.micros ≤ c.endDate.micros
  initialCapital : 0 < c.initialCapital

theorem dated_of_found {pairs : Assoc Json} {field : FieldName} {t : Instant}
    (h : Fields.Found field none (fun doc t => ∃ s, doc = .str s ∧ Instant.ofText s = .ok t) pairs t) :
    Dated pairs field t := by
  rcases h with ⟨key, doc, hfind, s, rfl, htext⟩ | ⟨-, hnone⟩
  · exact ⟨key, s, hfind, htext⟩
  · cases hnone

theorem order_of_check {c : SimulationConfig} (h : c.check = []) :
    c.startDate.micros ≤ c.endDate.micros := by
  unfold check Instant.before at h
  split at h
  · cases h
  case isFalse hbefore =>
    rw [decide_eq_true_eq] at hbefore
    exact Int.not_lt.1 hbefore

theorem codec_ends : codec.Ends (fun doc c => ∃ pairs, doc = .obj pairs ∧ c.ReadFrom pairs) escape? := by
  intro doc
  have hrecord : codec.Ends _ _ := Codec.record_ends <|
    Fields.start_ends SimulationConfig.mk
      |>.req startField Codec.date_ends
      |>.req endField Codec.date_ends
      |>.opt _ _ Codec.positiveFloat_refuses
      |>.opt _ _ (Codec.oneOf_refuses _ _ _)
      |>.opt _ _ (Codec.oneOf_refuses _ _ _)
      |>.opt _ _ (Codec.oneOf_refuses _ _ _)
      |>.opt _ _ (Codec.optional_refuses MarketConditions.codec_refuses)
      |>.opt _ _ (Codec.optional_refuses Codec.int_refuses)
      |>.opt _ _ (Codec.optional_refuses Codec.int_refuses)
  have hends := hrecord doc
  cases doc with
  | obj pairs =>
    refine hends.mono ?_
    rintro c ⟨_, hdoc, hread, hcheck⟩
    cases hdoc
    obtain ⟨_, seed, ⟨_, runs, ⟨_, market, ⟨_, gas, ⟨_, slippage, ⟨_, source, ⟨_, capital, ⟨_, stop,
      ⟨_, start, rfl, hstart, rfl⟩, hstop, rfl⟩, hcapital, rfl⟩, -, rfl⟩, -, rfl⟩, -, rfl⟩, -, rfl⟩, -,
      rfl⟩, -, rfl⟩ := hread
    refine ⟨pairs, rfl, dated_of_found hstart, dated_of_found hstop, order_of_check hcheck, ?_⟩
    rcases hcapital with ⟨_, _, -, hpos⟩ | ⟨-, hdefault⟩
    · exact hpos
    · cases hdefault
      exact show (0 : Float) < 10000 by decide
  | null | bool | int | num | str | arr =>
    refine hends.mono ?_
    rintro c ⟨_, hdoc, -⟩
    cases hdoc

theorem read_of_escape {doc : Json} {f : Fault} (h : escape? doc = some f) :
    codec.read doc = .error f ∧ ∀ ps, f ≠ .rejected ps := by
  have hends := codec_ends doc
  rw [h] at hends
  generalize codec.read doc = x at hends ⊢
  cases hends with
  | fault hf => exact ⟨rfl, hf⟩

/-- A field that escapes holds what is no date. -/
theorem offDate_of_escapeAt {pairs : Assoc Json} {field : FieldName} {f : Fault}
    (h : Fields.escapeAt field Codec.dateFault? pairs = some f) :
    ∃ key date, Fields.find? pairs field = some (key, date) ∧ Codec.OffDate date f := by
  obtain ⟨⟨key, date⟩, hfind, hfault⟩ := Option.bind_eq_some_iff.1 h
  exact ⟨key, date, hfind, Codec.offDate_of_dateFault? hfault⟩

/-- A document escapes only by a date that is none. -/
theorem offDate_of_escape {doc : Json} {f : Fault} (h : escape? doc = some f) :
    ∃ pairs field key date, doc = .obj pairs ∧ (field = startField ∨ field = endField) ∧
      Fields.find? pairs field = some (key, date) ∧ Codec.OffDate date f := by
  cases doc with
  | obj pairs =>
    rcases Option.or_eq_some_iff.1 h with hstart | ⟨-, hstop⟩
    · obtain ⟨key, date, hfind, hoff⟩ := offDate_of_escapeAt hstart
      exact ⟨pairs, startField, key, date, rfl, .inl rfl, hfind, hoff⟩
    · obtain ⟨key, date, hfind, hoff⟩ := offDate_of_escapeAt hstop
      exact ⟨pairs, endField, key, date, rfl, .inr rfl, hfind, hoff⟩
  | null | bool | int | num | str | arr => cases h

/-- Any document that is to be the parameters of a run. It is read as valid ones or refused with
problems if no date in it escapes; if one does, its fault is what the reading ends with. -/
theorem read_ends (doc : Json) :
    (∀ f, escape? doc = some f →
      codec.read doc = .error f ∧ (∀ ps, f ≠ .rejected ps) ∧
      ∃ pairs field key date, doc = .obj pairs ∧ (field = startField ∨ field = endField) ∧
        Fields.find? pairs field = some (key, date) ∧ Codec.OffDate date f) ∧
    (escape? doc = none →
      (∃ c pairs, doc = .obj pairs ∧ codec.read doc = .ok c ∧ c.ReadFrom pairs ∧
        Instant.inRange c.startDate.micros = true ∧ Instant.inRange c.endDate.micros = true) ∨
      ∃ p ps, codec.read doc = .error (.rejected (p :: ps))) := by
  refine ⟨fun f hf => ?_, fun hnone => ?_⟩
  · obtain ⟨hread, hother⟩ := read_of_escape hf
    exact ⟨hread, hother, offDate_of_escape hf⟩
  · have hends := codec_ends doc
    rw [hnone] at hends
    generalize codec.read doc = x at hends ⊢
    cases hends with
    | @value c hc =>
      obtain ⟨pairs, hdoc, hread⟩ := hc
      obtain ⟨_, _, -, hstart⟩ := hread.startDate
      obtain ⟨_, _, -, hstop⟩ := hread.endDate
      exact .inl ⟨c, pairs, hdoc, rfl, hread, Instant.inRange_ofText hstart,
        Instant.inRange_ofText hstop⟩
    | problems p ps => exact .inr ⟨p, ps, rfl⟩

/-- A document with two dates. -/
def datedDoc (start stop : Json) : Json := .obj [("startDate", start), ("endDate", stop)]

def march : Json := .str "2024-03-01T00:00:00Z"

/-- A day in March, which ends by the clock of another place. -/
theorem day_in_march_read :
    (∃ c pairs, datedDoc march (.str "2024-03-02T02:00+02:00") = .obj pairs ∧
      codec.read (datedDoc march (.str "2024-03-02T02:00+02:00")) = .ok c ∧ c.ReadFrom pairs ∧
      c.endDate.micros = c.startDate.micros + microsPerDay) ∧
    codec.read (datedDoc (.int 5) march) = .error (.notADate "int") := by
  obtain ⟨c, hc, hday⟩ : ∃ c, codec.read (datedDoc march (.str "2024-03-02T02:00+02:00")) = .ok c ∧
      c.endDate.micros - c.startDate.micros = microsPerDay :=
    Except.exists_of_map (by decide +kernel)
  have hday : c.endDate.micros = c.startDate.micros + microsPerDay := by omega
  refine ⟨?_, ((read_ends (datedDoc (.int 5) march)).1 _ rfl).1⟩
  rcases (read_ends (datedDoc march (.str "2024-03-02T02:00+02:00"))).2 rfl with
    ⟨c', pairs, hpairs, hread, hvalid, -⟩ | ⟨p, ps, hproblems⟩
  · rw [hc] at hread
    cases hread
    exact ⟨c, pairs, hpairs, hc, hvalid, hday⟩
  · rw [hc] at hproblems
    cases hproblems

/-- A number in the place of a date is no problem of the document, and neither is the first morning of
year 1 east of Greenwich: both are faults of another kind. -/
theorem foreign_dates_escape :
    codec.read (datedDoc (.int 5) march) = .error (.notADate "int") ∧
    codec.read (datedDoc (.str "0001-01-01T00:00:00+05:00") march) = .error (.date .outOfRange) ∧
    (∀ ps, Fault.notADate "int" ≠ .rejected ps) ∧ ∀ ps, Fault.date .outOfRange ≠ .rejected ps := by
  have hnumber : escape? (datedDoc (.int 5) march) = some (.notADate "int") := rfl
  have hmorning : escape? (datedDoc (.str "0001-01-01T00:00:00+05:00") march) =
      some (.date .outOfRange) := rfl
  obtain ⟨hnumber, hother⟩ := read_of_escape hnumber
  obtain ⟨hmorning, hother'⟩ := read_of_escape hmorning
  exact ⟨hnumber, hmorning, hother, hother'⟩

end SimulationConfig

end Tradeflow
