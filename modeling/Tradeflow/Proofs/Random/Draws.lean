/-
  What a generator draws. Words have 32 bits (`next32_lt`), and what is drawn of three is below three
  (`belowThree_lt`).

  A word is drawn again only if it is zero, so the retries are used up only by a run of zeros. A state
  gives zero only if its halves are equal (`halves_of_output_zero`). Where that happens to states in
  turn, the differences of their halves are multiples of each other; three of them satisfy relations
  with small coefficients that leave only zero (`zero_of_small_multiples`), and a state that stays the
  same needs an even increment. Hence no four numbers in turn are zero (`not_four_zeros`), of nine
  words one is kept (`keeps_nine`), and more retries than nine change nothing (`belowThree_enough`).
-/
import Mathlib.RingTheory.Coprime.Basic
import Mathlib.Tactic.Linarith
import Mathlib.Tactic.LinearCombination
import Mathlib.Tactic.NormNum.DivMod
import Mathlib.Tactic.Ring
import Tradeflow.Random.Generator

namespace Tradeflow.Random.Generator

/-- A generator as a seed starts it and drawing leaves it. -/
structure Fit (g : Generator) : Prop where
  state : g.state < stateSize
  odd : g.increment % 2 = 1
  half : ∀ n, g.half = some n → n < wordSize

variable {g : Generator}

/-! ## Ranges -/

@[simp]
theorem step_increment (g : Generator) : g.step.increment = g.increment := by rw [step]

@[simp]
theorem step_half (g : Generator) : g.step.half = g.half := by rw [step]

theorem fit_step (h : g.Fit) : g.step.Fit where
  state := Nat.mod_lt _ (pow2_pos 128)
  odd := by rw [step_increment, h.odd]
  half := by
    rw [step_half]
    exact h.half

theorem fit_ofSeed (s : Seed) : (ofSeed s).Fit where
  state := Nat.mod_lt _ (pow2_pos 128)
  odd := by
    show ((_ * 2 + 1) % stateSize) % 2 = 1
    rw [Nat.mod_mod_of_dvd _ (by decide), Nat.mul_add_mod_self_right]
  half := fun _ hn => nomatch hn

theorem output_lt (state : Nat) : output state < longSize := Nat.mod_lt _ (pow2_pos 64)

theorem nextUnit_lt (g : Generator) : g.nextUnit.1 < 2 ^ 53 := by
  show output g.step.state >>> 11 < 2 ^ 53
  rw [Nat.shiftRight_eq_div_pow]
  exact Nat.div_lt_of_lt_mul (output_lt _)

/-- The generator with another half kept. -/
def keep (g : Generator) (half : Option Nat) : Generator := { g with half := half }

theorem keep_half (g : Generator) : g.keep g.half = g := rfl

theorem next32_keep (g : Generator) (n : Nat) : (g.keep (some n)).next32 = (n, g.keep none) := rfl

theorem next32_some {n : Nat} (h : g.half = some n) : g.next32 = (n, g.keep none) := by
  rw [next32, h]
  rfl

theorem next32_none (h : g.half = none) :
    g.next32 = (output g.step.state % wordSize,
      g.step.keep (some (output g.step.state / wordSize))) := by
  rw [next32, h]
  rfl

theorem fit_half (h : g.Fit) {half : Option Nat} (hhalf : ∀ n, half = some n → n < wordSize) :
    (g.keep half).Fit :=
  ⟨h.state, h.odd, hhalf⟩

theorem next32_lt (h : g.Fit) : g.next32.1 < wordSize ∧ g.next32.2.Fit := by
  cases hhalf : g.half with
  | some n =>
    rw [next32_some hhalf]
    exact ⟨h.half n hhalf, fit_half h nofun⟩
  | none =>
    rw [next32_none hhalf]
    refine ⟨Nat.mod_lt _ (by decide), fit_half (fit_step h) fun n hn => ?_⟩
    have hlong : longSize = wordSize * wordSize := rfl
    rw [← Option.some.inj hn]
    exact Nat.div_lt_of_lt_mul (hlong ▸ output_lt _)

theorem belowThree_lt (h : g.Fit) (retries : Nat) :
    (g.belowThree retries).1 < 3 ∧ (g.belowThree retries).2.Fit := by
  induction retries generalizing g with
  | zero => exact ⟨Nat.zero_lt_succ 2, h⟩
  | succ retries ih =>
    obtain ⟨hword, hfit⟩ := next32_lt h
    rw [belowThree]
    dsimp only
    split
    · exact ih hfit
    · exact ⟨Nat.div_lt_of_lt_mul (Nat.mul_lt_mul_of_pos_right hword (by decide)), hfit⟩

/-! ## Numbers that are zero -/

/-- The halves of a state agree if it gives zero. -/
theorem halves_of_output_zero {state : Nat} (hstate : state < stateSize) (h : output state = 0) :
    state / longSize = state % longSize := by
  have hsize : longSize = 2 ^ 64 := rfl
  have hhigh : state / longSize < 2 ^ 64 :=
    Nat.div_lt_of_lt_mul (by rw [hsize]; exact hstate)
  have hlow : state % longSize < 2 ^ 64 := Nat.mod_lt _ (by decide)
  have hturn : state >>> 122 < 64 := by
    rw [Nat.shiftRight_eq_div_pow]
    exact Nat.div_lt_of_lt_mul hstate
  unfold output at h
  dsimp only at h
  rw [hsize] at h hhigh hlow ⊢
  generalize state / 2 ^ 64 = high at h hhigh ⊢
  generalize state % 2 ^ 64 = low at h hlow ⊢
  generalize state >>> 122 = turn at h hturn
  have hplace := fun i => congrArg (Nat.testBit · i) h
  simp only [Nat.testBit_mod_two_pow, Nat.testBit_or, Nat.testBit_shiftRight,
    Nat.testBit_shiftLeft, Nat.zero_testBit, Nat.testBit_xor, Bool.and_eq_false_imp,
    decide_eq_true_eq, Bool.or_eq_false_iff] at hplace
  refine Nat.eq_of_testBit_eq fun i => ?_
  by_cases hi : i < 64
  · -- a bit turns up below the 64th place, on one side of the turn or the other
    by_cases hr : turn ≤ i
    · have hright := (hplace (i - turn) (by omega)).1
      rwa [Nat.add_sub_cancel' hr, bne_eq_false_iff_eq] at hright
    · have hleft := (hplace (i + (64 - turn)) (by omega)).2 (Nat.le_add_left _ _)
      rwa [Nat.add_sub_cancel, bne_eq_false_iff_eq] at hleft
  · have hbeyond : 2 ^ 64 ≤ 2 ^ i := Nat.pow_le_pow_right (by decide) (Nat.le_of_not_lt hi)
    rw [Nat.testBit_lt_two_pow (Nat.lt_of_lt_of_le hhigh hbeyond),
      Nat.testBit_lt_two_pow (Nat.lt_of_lt_of_le hlow hbeyond)]

theorem exists_half (h : g.Fit) (hzero : output g.state = 0) :
    ∃ n, n < 2 ^ 64 ∧ g.state = n * (2 ^ 64 + 1) := by
  have hequal := halves_of_output_zero h.state hzero
  have hstate := Nat.div_add_mod g.state longSize
  refine ⟨g.state % longSize, Nat.mod_lt _ (by decide), ?_⟩
  rw [hequal] at hstate
  rw [Nat.mul_add, Nat.mul_one, Nat.mul_comm]
  exact hstate.symm

/-- What the equal halves of one state and those of the next one have to do with each other. -/
theorem halves_step {a b : Nat} (ha : g.state = a * (2 ^ 64 + 1))
    (hb : g.step.state = b * (2 ^ 64 + 1)) :
    (2 ^ 128 : Int) ∣ (b - multiplier * a) * (2 ^ 64 + 1) - g.increment := by
  have hmod : (g.state * multiplier + g.increment) % stateSize = b * (2 ^ 64 + 1) := hb
  rw [ha] at hmod
  have hnat := Nat.div_add_mod (a * (2 ^ 64 + 1) * multiplier + g.increment) stateSize
  rw [hmod, show stateSize = 2 ^ 128 from rfl] at hnat
  generalize (a * (2 ^ 64 + 1) * multiplier + g.increment) / 2 ^ 128 = q at hnat
  have hint : ((2 ^ 128 * q + b * (2 ^ 64 + 1) : Nat) : Int) =
      ((a * (2 ^ 64 + 1) * multiplier + g.increment : Nat) : Int) := congrArg _ hnat
  push_cast at hint
  exact ⟨-q, by linear_combination hint⟩

/-- The differences of the halves of three states in turn are multiples of each other. -/
theorem differences_step {a b c : Nat} (ha : g.state = a * (2 ^ 64 + 1))
    (hb : g.step.state = b * (2 ^ 64 + 1)) (hc : g.step.step.state = c * (2 ^ 64 + 1)) :
    (2 ^ 128 : Int) ∣ (c - b) - multiplier * (b - a) := by
  have hdifference := dvd_sub (halves_step hb hc) (halves_step ha hb)
  have hodd : IsCoprime (2 ^ 128 : Int) (2 ^ 64 + 1) := ⟨1, -(2 ^ 64 - 1), by norm_num⟩
  refine hodd.dvd_of_dvd_mul_right ?_
  rw [step_increment] at hdifference
  convert hdifference using 1
  ring

/-- A relation between the powers of the multiplier is one between numbers each of which is the multiple
of the one before. -/
theorem relation_dvd {x y z u v w : Int} (hxy : (2 ^ 128 : Int) ∣ y - multiplier * x)
    (hyz : (2 ^ 128 : Int) ∣ z - multiplier * y)
    (hrelation : (2 ^ 128 : Int) ∣ u + v * multiplier + w * multiplier ^ 2) :
    (2 ^ 128 : Int) ∣ u * x + v * y + w * z := by
  have hsum : u * x + v * y + w * z = (u + v * multiplier + w * multiplier ^ 2) * x +
      (v + w * multiplier) * (y - multiplier * x) + w * (z - multiplier * y) := by ring
  rw [hsum]
  exact dvd_add (dvd_add (hrelation.mul_right _) (hxy.mul_left _)) (hyz.mul_left _)

/-- Of numbers that are multiples of each other in turn, three are below `2 ^ 64` only if they are zero:
the coefficients of three independent relations are so small that they hold of the numbers
themselves. -/
theorem zero_of_small_multiples {x y z : Int} (hx : |x| < 2 ^ 64) (hy : |y| < 2 ^ 64)
    (hz : |z| < 2 ^ 64) (hxy : (2 ^ 128 : Int) ∣ y - multiplier * x)
    (hyz : (2 ^ 128 : Int) ∣ z - multiplier * y) : x = 0 := by
  have hfirst := relation_dvd (u := 3709458184820) (v := -3407026015233) (w := -216482451975) hxy hyz
    (by norm_num [multiplier])
  have hsecond := relation_dvd (u := 541182700115) (v := 2768209973694) (w := 5929159180943) hxy hyz
    (by norm_num [multiplier])
  have hthird := relation_dvd (u := 8547423457889) (v := 6252280026349) (w := -2847898864018) hxy hyz
    (by norm_num [multiplier])
  clear hxy hyz
  rw [abs_lt] at hx hy hz
  replace hfirst := Int.eq_zero_of_abs_lt_dvd hfirst (abs_lt.2 ⟨by linarith, by linarith⟩)
  replace hsecond := Int.eq_zero_of_abs_lt_dvd hsecond (abs_lt.2 ⟨by linarith, by linarith⟩)
  replace hthird := Int.eq_zero_of_abs_lt_dvd hthird (abs_lt.2 ⟨by linarith, by linarith⟩)
  linarith

theorem not_four_zeros (h : g.Fit) : ¬ (output g.state = 0 ∧ output g.step.state = 0 ∧
    output g.step.step.state = 0 ∧ output g.step.step.step.state = 0) := by
  rintro ⟨hzero₀, hzero₁, hzero₂, hzero₃⟩
  obtain ⟨a, haSmall, ha⟩ := exists_half h hzero₀
  obtain ⟨b, hbSmall, hb⟩ := exists_half (fit_step h) hzero₁
  obtain ⟨c, hcSmall, hc⟩ := exists_half (fit_step (fit_step h)) hzero₂
  obtain ⟨d, hdSmall, hd⟩ := exists_half (fit_step (fit_step (fit_step h))) hzero₃
  have hsame : (b : Int) - a = 0 :=
    zero_of_small_multiples (abs_lt.2 ⟨by omega, by omega⟩) (abs_lt.2 ⟨by omega, by omega⟩)
      (abs_lt.2 ⟨by omega, by omega⟩) (differences_step ha hb hc) (differences_step hb hc hd)
  -- then the state stays the same, and the increment is a multiple of an even number
  have hstays := halves_step ha hb
  rw [sub_eq_zero.1 hsame] at hstays
  have heven : (2 : Int) ∣ (a - multiplier * a) * (2 ^ 64 + 1) - g.increment :=
    Dvd.dvd.trans (by norm_num) hstays
  have hodd := h.odd
  have hmultiplier : (a : Int) - multiplier * a = 2 * (-((multiplier - 1) / 2) * a) := by
    norm_num [multiplier]
    ring
  rw [hmultiplier] at heven
  omega

/-! ## Words that are kept -/

/-- One of so many words is not zero. -/
def Keeps : (count : Nat) → Generator → Prop
  | 0, _ => False
  | count + 1, g => g.next32.1 ≠ 0 ∨ Keeps count g.next32.2

/-- A number that is not zero gives a word that is not. -/
theorem keeps_of_step {count : Nat} (hhalf : g.half = none)
    (h : output g.step.state ≠ 0 ∨ g.step.Keeps count) : g.Keeps (count + 2) := by
  have hrest : g.step.keep none = g.step := by rw [← hhalf, ← step_half, keep_half]
  rw [Keeps, Keeps, next32_none hhalf]
  dsimp only
  rw [next32_keep, hrest]
  rcases h with hne | hlater
  · by_cases hlow : output g.step.state % wordSize = 0
    · refine .inr (.inl fun (hhigh : output g.step.state / wordSize = 0) => hne ?_)
      have hsum := Nat.div_add_mod (output g.step.state) wordSize
      rw [hlow, hhigh] at hsum
      exact hsum.symm
    · exact .inl hlow
  · exact .inr (.inr hlater)

theorem keeps_eight (h : g.Fit) (hhalf : g.half = none) : g.Keeps 8 := by
  have hhalf₁ := (step_half g).trans hhalf
  have hhalf₂ := (step_half g.step).trans hhalf₁
  have hhalf₃ := (step_half g.step.step).trans hhalf₂
  have hne := not_four_zeros (fit_step h)
  rw [not_and_or, not_and_or, not_and_or] at hne
  exact keeps_of_step hhalf (hne.imp_right fun hne => keeps_of_step hhalf₁ (hne.imp_right fun hne =>
    keeps_of_step hhalf₂ (hne.imp_right fun hne => keeps_of_step hhalf₃ (.inl hne))))

theorem keeps_succ {count : Nat} (h : g.Keeps count) : g.Keeps (count + 1) := by
  induction count generalizing g with
  | zero => exact h.elim
  | succ count ih => exact h.imp_right ih

/-- Of nine words one is kept: a half that was left over, and the halves of four numbers. -/
theorem keeps_nine (h : g.Fit) : g.Keeps 9 := by
  cases hhalf : g.half with
  | none => exact keeps_succ (keeps_eight h hhalf)
  | some n =>
    refine .inr ?_
    rw [next32_some hhalf]
    exact keeps_eight (fit_half h nofun) rfl

/-- The odd remainder holds the product of zero only. -/
theorem product_odd_remainder {n : Nat} (h : n < wordSize) :
    n * 3 % wordSize < (wordSize - 3) % 3 ↔ n = 0 := by
  have hcoprime : Nat.Coprime wordSize 3 := by decide
  rw [show (wordSize - 3) % 3 = 1 from rfl, Nat.lt_one_iff]
  constructor
  · intro hzero
    exact Nat.eq_zero_of_dvd_of_lt
      (hcoprime.dvd_of_dvd_mul_right (Nat.dvd_of_mod_eq_zero hzero)) h
  · intro hzero
    rw [hzero]
    rfl

/-- A word is drawn again if it is zero. -/
theorem belowThree_succ (h : g.Fit) (retries : Nat) :
    g.belowThree (retries + 1) =
      if g.next32.1 = 0 then g.next32.2.belowThree retries
      else (g.next32.1 * 3 / wordSize, g.next32.2) := by
  rw [belowThree]
  dsimp only
  rw [if_congr (product_odd_remainder (next32_lt h).1) rfl rfl]

theorem belowThree_of_keeps {count : Nat} (h : g.Fit) (hkeeps : g.Keeps count) (more : Nat) :
    g.belowThree (count + more) = g.belowThree count := by
  induction count generalizing g with
  | zero => exact hkeeps.elim
  | succ count ih =>
    rw [Nat.succ_add, belowThree_succ h, belowThree_succ h]
    split
    case isTrue hzero => exact ih (next32_lt h).2 (hkeeps.resolve_left (not_not.2 hzero))
    case isFalse => rfl

/-- More retries than nine change nothing: they are never used up. -/
theorem belowThree_enough (h : g.Fit) (more : Nat) : g.belowThree (9 + more) = g.belowThree 9 :=
  belowThree_of_keeps h (keeps_nine h) more

end Tradeflow.Random.Generator
