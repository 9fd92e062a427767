/-
  Sorted lists of figures and the elements at given shares of them, without interpolation. Figures that
  can be compared are merged; where one is no number, every figure is put by bisection among those
  before it, as far as they are in order from the start.
-/
import Tradeflow.Number.Scalar

namespace Tradeflow.Distribution

variable {R : Type} [Scalar R]

/-- How many elements of a list rise, or fall strictly, from the start on. -/
def runLength (falling : Bool) : List R → Nat
  | x :: y :: rest =>
    if Scalar.less y x == falling then 1 + runLength falling (y :: rest) else 1
  | rest => rest.length

/-- The elements in order at the start, put the right way round, and those after them. -/
def splitRun (xs : List R) : List R × List R :=
  match xs with
  | x :: y :: _ =>
    let falling := Scalar.less y x
    let n := runLength falling xs
    (if falling then (xs.take n).reverse else xs.take n, xs.drop n)
  | _ => (xs, [])

/-- Where bisection between two positions leads: before the first element found to be larger. -/
def bisect (x : R) (xs : List R) : (fuel low high : Nat) → Nat
  | 0, low, _ => low
  | fuel + 1, low, high =>
    if low < high then
      let mid := low + (high - low) / 2
      match xs[mid]? with
      | some y => if Scalar.less x y then bisect x xs fuel low mid else bisect x xs fuel (mid + 1) high
      | none => low
    else low

/-- Puts an element where bisection leads. -/
def insert (xs : List R) (x : R) : List R :=
  xs.insertIdx (bisect x xs (xs.length + 1) 0 xs.length) x

/-- Sorted by bisection. -/
def byBisection (xs : List R) : List R :=
  let (run, rest) := splitRun xs
  rest.foldl insert run

/-- Are all of them equal to themselves? -/
def comparable (xs : List R) : Bool := xs.all fun x => Scalar.equal x x

/-- In rising order. -/
def sorted (xs : List R) : List R :=
  if comparable xs then xs.mergeSort fun x y => !Scalar.less y x else byBisection xs

/-- The element at an index, counted from the end if it is negative. -/
def at? (xs : List R) (i : Int) : Except Fault R :=
  let k := if i < 0 then i + xs.length else i
  if k < 0 then .error .indexRange
  else
    match xs[k.toNat]? with
    | some x => .ok x
    | none => .error .indexRange

/-- The element at a share of a sorted list: at the index that the share of its length is rounded down
to, or the last one. -/
def percentile (xs : List R) (share : R) : Except Fault R :=
  match Scalar.floor? (Scalar.nat xs.length * share) with
  | .error e => .error e
  | .ok i => at? xs (min i ((xs.length : Int) - 1))

/-- The element in the middle of a sorted list, the upper one of two. -/
def median (xs : List R) : Except Fault R := at? xs (xs.length / 2 : Nat)

/-- The largest element, the first one of those that none exceeds. -/
def largest : List R → Except Fault R
  | [] => .error .indexRange
  | x :: xs => .ok (xs.foldl Scalar.larger x)

/-- The mean, from a sum rounded once. -/
def exactMean (xs : List R) : Except Fault R :=
  (Scalar.total? xs).map fun sum => sum / Scalar.nat xs.length

end Tradeflow.Distribution
