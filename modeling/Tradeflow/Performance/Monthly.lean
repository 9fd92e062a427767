/-
  The equity curve by calendar months in UTC, each with the percent change from its first to its last
  sample. Samples that are no number do not count unless a month has no others.
-/
import Tradeflow.Number.Scalar
import Tradeflow.Performance.Basic

namespace Tradeflow

namespace Monthly

variable {R : Type} [Scalar R]

/-- A month and the samples that fall into it, the latest of the curve first. -/
structure Bucket (R : Type) where
  year : Nat
  month : Nat
  latest : List R

/-- Does one month come before another? -/
def comesBefore (year month year' month' : Nat) : Bool :=
  year < year' || (year == year' && month < month')

/-- Puts a sample into its month; the months stay in order. -/
def put (buckets : List (Bucket R)) (year month : Nat) (value : R) : List (Bucket R) :=
  match buckets with
  | [] => [⟨year, month, [value]⟩]
  | b :: rest =>
    if b.year == year && b.month == month then ⟨year, month, value :: b.latest⟩ :: rest
    else if comesBefore year month b.year b.month then ⟨year, month, [value]⟩ :: b :: rest
    else b :: put rest year month value

/-- The months of a curve. -/
def buckets (curve : List (EquityPoint R)) : List (Bucket R) :=
  curve.foldl (fun bs p =>
    let d := p.timestamp.civil.date
    put bs d.year d.month p.value) []

/-- The percent change between two samples, zero from zero. -/
def change (first last : R) : R :=
  if Scalar.isZero first then Scalar.nat 0 else (last - first) / first * Scalar.nat 100

/-- The change over a month. -/
def Bucket.result (b : Bucket R) : MonthlyReturn R :=
  let numbers := b.latest.filter fun x => Scalar.equal x x
  let samples := if numbers.isEmpty then b.latest else numbers
  match samples.getLast?, samples.head? with
  | some first, some last => ⟨b.year, b.month, change first last⟩
  | _, _ => ⟨b.year, b.month, Scalar.nat 0⟩

end Monthly

/-- The monthly returns of a curve, month by month. -/
def monthlyReturns {R : Type} [Scalar R] (curve : List (EquityPoint R)) : List (MonthlyReturn R) :=
  (Monthly.buckets curve).map Monthly.Bucket.result

end Tradeflow
