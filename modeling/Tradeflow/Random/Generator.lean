/-
  A generator of random numbers: a congruence on 128 bits, of which each step gives 64 by a rotation
  that depends on the state. Half of such a number may be kept for the next request of 32 bits.
-/
import Tradeflow.Number.Double
import Tradeflow.Random.Seed

namespace Tradeflow.Random

/-- The state of a generator. -/
structure Generator where
  state : Nat
  increment : Nat
  half : Option Nat
  deriving DecidableEq, Repr

def stateSize : Nat := pow2 128

def longSize : Nat := pow2 64

def multiplier : Nat := 0x2360ed051fc65da44385df649fccf645

namespace Generator

def step (g : Generator) : Generator :=
  { g with state := (g.state * multiplier + g.increment) % stateSize }

/-- Two words as one number, the low one first. -/
def long (words : List Nat) (k : Nat) : Nat :=
  (words[2 * k]?).getD 0 + (words[2 * k + 1]?).getD 0 * wordSize

/-- The generator that a seed starts. -/
def ofSeed (s : Seed) : Generator :=
  let w := s.output
  let increment := ((long w 2 * longSize + long w 3) * 2 + 1) % stateSize
  let g : Generator := step ⟨0, increment, none⟩
  step { g with state := (g.state + long w 0 * longSize + long w 1) % stateSize }

/-- The 64 bits that a state gives. -/
def output (state : Nat) : Nat :=
  let x := (state / longSize) ^^^ (state % longSize)
  let r := state >>> 122
  ((x >>> r) ||| (x <<< (64 - r))) % longSize

/-- A number of 64 bits. -/
def next64 (g : Generator) : Nat × Generator :=
  let g := g.step
  (output g.state, g)

/-- A number of 32 bits: the half kept from before, else the low half of a new one. -/
def next32 (g : Generator) : Nat × Generator :=
  match g.half with
  | some n => (n, { g with half := none })
  | none =>
    let (n, g) := g.next64
    (n % wordSize, { g with half := some (n / wordSize) })

/-- A multiple of `2 ^ (-53)` below one, given by its numerator. -/
def nextUnit (g : Generator) : Nat × Generator :=
  let (n, g) := g.next64
  (n >>> 11, g)

/-- Several such multiples in order. -/
def units : (count : Nat) → Generator → List Nat × Generator
  | 0, g => ([], g)
  | count + 1, g =>
    let (u, g) := g.nextUnit
    let (us, g) := units count g
    (u :: us, g)

/-- A number below three, each as likely as the others: products that fall into the odd remainder are
drawn again, at most `retries` times. -/
def belowThree (g : Generator) : (retries : Nat) → Nat × Generator
  | 0 => (0, g)
  | retries + 1 =>
    let (n, g) := g.next32
    let m := n * 3
    if m % wordSize < (wordSize - 3) % 3 then belowThree g retries else (m / wordSize, g)

end Generator

end Tradeflow.Random
