/-
  Seeds: a natural number of any size, together with the path of children that led to it, mixed into a
  pool of four words and stretched to eight. All words have 32 bits.
-/

namespace Tradeflow.Random

/-- One more than the largest word. -/
def wordSize : Nat := 4294967296

/-- The words of a number, lowest first; zero has one. -/
def wordsOf (n : Nat) : List Nat :=
  if n < wordSize then [n]
  else (n % wordSize) :: wordsOf (n / wordSize)
termination_by n
decreasing_by
  simp only [wordSize] at *
  omega

/-- A source of randomness: a number, and which child of which child it is of it. -/
structure Seed where
  entropy : Nat
  path : List Nat
  deriving DecidableEq, Repr

namespace Seed

def child (s : Seed) (i : Nat) : Seed := ⟨s.entropy, s.path ++ [i]⟩

/-- The words that go into the pool. A seed with a path is filled up to four words before it. -/
def words (s : Seed) : List Nat :=
  let own := wordsOf s.entropy
  let path := s.path.flatMap wordsOf
  if path.isEmpty then own else own ++ List.replicate (4 - own.length) 0 ++ path

end Seed

/-- A hash that changes with every word it takes in. -/
structure Hash where
  value : Nat

/-- Takes in a word and gives out another. -/
def Hash.take (h : Hash) (word : Nat) : Hash × Nat :=
  let next := h.value * 0x931e8875 % wordSize
  let v := (word ^^^ h.value) * next % wordSize
  (⟨next⟩, v ^^^ (v >>> 16))

/-- Two words mixed into one. -/
def mix (x y : Nat) : Nat :=
  let r := (0xca01f9dd * x + (wordSize - 0x4973f715) * y) % wordSize
  r ^^^ (r >>> 16)

/-- The pool while it is filled. -/
structure Pool where
  hash : Hash
  cells : List Nat

namespace Pool

def cell (p : Pool) (i : Nat) : Nat := (p.cells[i]?).getD 0

/-- Mixes a word into one cell. -/
def stir (p : Pool) (word target : Nat) : Pool :=
  let (h, v) := p.hash.take word
  ⟨h, p.cells.modify target fun x => mix x v⟩

/-- Puts in the first four words, zeros for those there are not. -/
def start (words : List Nat) : Pool :=
  (List.range 4).foldl (fun p i =>
    let (h, v) := p.hash.take ((words[i]?).getD 0)
    ⟨h, p.cells ++ [v]⟩) ⟨⟨0x43b0d7e5⟩, []⟩

/-- Every ordered pair of different cells. -/
def pairs : List (Nat × Nat) :=
  (List.range 4).flatMap fun i => (List.range 4).filterMap fun j =>
    if i == j then none else some (i, j)

/-- Mixes every cell into every other one, then every further word into every cell. -/
def ofWords (words : List Nat) : Pool :=
  let p := pairs.foldl (fun p (i, j) => p.stir (p.cell i) j) (start words)
  (words.drop 4).foldl (fun p w => (List.range 4).foldl (fun p j => p.stir w j) p) p

end Pool

/-- Stretches the cells of the pool, taken in turn, to words. -/
def stretch (cells : List Nat) : (count index value : Nat) → List Nat
  | 0, _, _ => []
  | count + 1, index, value =>
    let next := value * 0x58f38ded % wordSize
    let v := ((cells[index % 4]?).getD 0 ^^^ value) * next % wordSize
    (v ^^^ (v >>> 16)) :: stretch cells count (index + 1) next

/-- Eight words from a seed. -/
def Seed.output (s : Seed) : List Nat := stretch (Pool.ofWords s.words).cells 8 0 0x8b51f9dd

end Tradeflow.Random
