/-
  Sums taken pairwise: few terms one after the other, more of them in eight columns, many in two
  halves. The order of additions bounds the error; in exact arithmetic it makes no difference.
-/
import Tradeflow.Number.Scalar

namespace Tradeflow.Sum

variable {R : Type} [Scalar R]

/-- Adds terms one after the other. -/
def plain (start : R) (xs : List R) : R := xs.foldl (· + ·) start

/-- Sums of eight columns. -/
structure Columns (R : Type) where
  a : R
  b : R
  c : R
  d : R
  e : R
  f : R
  g : R
  h : R

/-- The columns in pairs, pairs of pairs, and all. -/
def Columns.total (s : Columns R) : R :=
  ((s.a + s.b) + (s.c + s.d)) + ((s.e + s.f) + (s.g + s.h))

/-- Adds rows of eight to the columns; the terms of an incomplete row come last, one by one. -/
def Columns.run (s : Columns R) : List R → R
  | a :: b :: c :: d :: e :: f :: g :: h :: rest =>
    Columns.run ⟨s.a + a, s.b + b, s.c + c, s.d + d, s.e + e, s.f + f, s.g + g, s.h + h⟩ rest
  | rest => plain s.total rest

/-- At most 128 terms. -/
def block (xs : List R) : R :=
  match xs with
  | a :: b :: c :: d :: e :: f :: g :: h :: rest => Columns.run ⟨a, b, c, d, e, f, g, h⟩ rest
  | few => plain (-(Scalar.nat 0)) few

/-- Where a long list is cut: in the middle, at a multiple of eight. -/
def cut (n : Nat) : Nat := n / 2 - n / 2 % 8

/-- Halves the terms at most `depth` times. -/
def halves : (depth : Nat) → List R → R
  | 0, xs => block xs
  | depth + 1, xs =>
    if xs.length ≤ 128 then block xs
    else
      let k := cut xs.length
      halves depth (xs.take k) + halves depth (xs.drop k)

/-- The pairwise sum. -/
def pairwise (xs : List R) : R := halves xs.length xs

/-- The mean of a list that is not empty. -/
def mean (xs : List R) : R := pairwise xs / Scalar.nat xs.length

end Tradeflow.Sum
