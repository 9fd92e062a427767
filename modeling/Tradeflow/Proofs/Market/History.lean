/-
  Historical series of two feeds that agree for a while. Bars are joined by their place in the list,
  so what a tick says depends on the bars at its own place only: `Together` says of the bars of all
  tokens that both feeds gave at least so many and the same ones up to there, and it is kept by
  fetching one token more and by taking the first bar of every token off.
  `historical_agree`: the first ticks of the two series are the same, and there are as many of them.
-/
import Mathlib.Data.List.Forall2
import Tradeflow.Market.Series

namespace Tradeflow

namespace PriceSeries

/-- Both feeds give valid bars for every one of some tokens, at least `k` of them, and the same ones
at the first `k` places. -/
def AgreeFirst (k : Nat) (feed feed' : PriceFeed) (start stop : Instant) (tokens : List String) :
    Prop :=
  ∀ token ∈ tokens, ∃ bars bars',
    (feed token start stop).bind bars? = some bars ∧
    (feed' token start stop).bind bars? = some bars' ∧
    k ≤ bars.length ∧ k ≤ bars'.length ∧ bars.take k = bars'.take k

/-- The bars of all tokens in two feeds, the same for the first `k` places. -/
def Together (k : Nat) (series series' : Assoc (List PricePoint)) : Prop :=
  List.Forall₂ (fun p q => p.1 = q.1 ∧ k ≤ p.2.length ∧ k ≤ q.2.length ∧ p.2.take k = q.2.take k)
    series series'

variable {k : Nat} {series series' : Assoc (List PricePoint)} {bars bars' : List PricePoint}

theorem Together.symm (h : Together k series series') : Together k series' series := by
  induction h with
  | nil => exact .nil
  | cons hpair _ ih => exact .cons ⟨hpair.1.symm, hpair.2.2.1, hpair.2.1, hpair.2.2.2.symm⟩ ih

theorem Together.le_length (h : Together k series series') : ∀ p ∈ series, k ≤ p.2.length := by
  induction h with
  | nil => exact fun p hp => absurd hp List.not_mem_nil
  | cons hpair _ ih =>
    intro p hp
    rcases List.mem_cons.1 hp with rfl | hp
    · exact hpair.2.1
    · exact ih p hp

theorem Together.set (h : Together k series series') (token : String) (hlen : k ≤ bars.length)
    (hlen' : k ≤ bars'.length) (hbars : bars.take k = bars'.take k) :
    Together k (Assoc.set series token bars) (Assoc.set series' token bars') := by
  induction h with
  | nil => exact .cons ⟨rfl, hlen, hlen', hbars⟩ .nil
  | @cons p q series series' hpair hrest ih =>
    obtain ⟨name, ps⟩ := p
    obtain ⟨name', qs⟩ := q
    obtain ⟨rfl, hpair⟩ : name = name' ∧ _ := hpair
    rw [Assoc.set, Assoc.set]
    split
    · exact .cons ⟨rfl, hlen, hlen', hbars⟩ hrest
    · exact .cons ⟨rfl, hpair⟩ ih

theorem fetch_together {feed feed' : PriceFeed} {start stop : Instant} {tokens : List String}
    (hagree : AgreeFirst k feed feed' start stop tokens) (h : Together k series series') :
    ∃ found found', fetch feed start stop tokens series = some found ∧
      fetch feed' start stop tokens series' = some found' ∧ Together k found found' := by
  induction tokens generalizing series series' with
  | nil => exact ⟨series, series', rfl, rfl, h⟩
  | cons token tokens ih =>
    obtain ⟨bars, bars', hbars, hbars', hlen, hlen', hsame⟩ := hagree token List.mem_cons_self
    rw [fetch, fetch, hbars, hbars']
    exact ih (fun t ht => hagree t (List.mem_cons_of_mem token ht)) (h.set token hlen hlen' hsame)

theorem fetch_ne_nil {feed : PriceFeed} {start stop : Instant} {tokens : List String}
    {found : Assoc (List PricePoint)} (htokens : tokens ≠ [] ∨ series ≠ [])
    (h : fetch feed start stop tokens series = some found) : found ≠ [] := by
  have hset : ∀ (m : Assoc (List PricePoint)) (token : String) (ps : List PricePoint),
      Assoc.set m token ps ≠ [] := by
    intro m token ps
    cases m with
    | nil => simp [Assoc.set]
    | cons p m =>
      rw [Assoc.set]
      split <;> simp
  induction tokens generalizing series with
  | nil =>
    cases h
    exact htokens.resolve_left fun hne => hne rfl
  | cons token tokens ih =>
    rw [fetch] at h
    split at h
    · cases h
    · exact ih (.inr (hset _ _ _)) h

/-- The first bars are the same, and what is left agrees at one place less. -/
theorem heads?_together (h : Together (k + 1) series series') :
    ∃ closes more more', heads? series = some (closes, more) ∧
      heads? series' = some (closes, more') ∧ closes.length = series.length ∧
      more.length = series.length ∧ Together k more more' := by
  induction h with
  | nil => exact ⟨[], [], [], rfl, rfl, rfl, rfl, .nil⟩
  | @cons p q series series' hpair hrest ih =>
    obtain ⟨closes, more, more', hheads, hheads', hcloses, hmore, htogether⟩ := ih
    obtain ⟨name, ps⟩ := p
    obtain ⟨name', qs⟩ := q
    obtain ⟨rfl, hlen, hlen', hsame⟩ : name = name' ∧ _ := hpair
    cases ps with
    | nil => exact absurd hlen (Nat.not_succ_le_zero k)
    | cons bar ps =>
      cases qs with
      | nil => exact absurd hlen' (Nat.not_succ_le_zero k)
      | cons bar' qs =>
        rw [List.take_succ_cons, List.take_succ_cons, List.cons.injEq] at hsame
        obtain ⟨rfl, hsame⟩ := hsame
        refine ⟨(name, bar) :: closes, (name, ps) :: more, (name, qs) :: more', ?_, ?_, ?_, ?_, ?_⟩
        · rw [heads?, hheads]
          rfl
        · rw [heads?, hheads']
          rfl
        · rw [List.length_cons, List.length_cons, hcloses]
        · rw [List.length_cons, List.length_cons, hmore]
        · exact .cons ⟨rfl, Nat.le_of_succ_le_succ hlen, Nat.le_of_succ_le_succ hlen', hsame⟩
            htogether

variable {R : Type} [Scalar R]

/-- Joined bars have the same first ticks, however many follow. -/
theorem join_together {count count' : Nat} (h : Together k series series') (hne : series ≠ [])
    (hcount : k ≤ count) (hcount' : k ≤ count') :
    k ≤ (join count series : List (PriceTick R)).length ∧
      (join count series : List (PriceTick R)).take k = (join count' series').take k := by
  induction k generalizing count count' series series' with
  | zero => exact ⟨Nat.zero_le _, rfl⟩
  | succ k ih =>
    obtain ⟨count, rfl⟩ : ∃ n, count = n + 1 := ⟨count - 1, by omega⟩
    obtain ⟨count', rfl⟩ : ∃ n, count' = n + 1 := ⟨count' - 1, by omega⟩
    obtain ⟨closes, more, more', hheads, hheads', hcloses, hlength, hmore⟩ := heads?_together h
    have hpos : 0 < series.length := List.length_pos_iff.2 hne
    have hmore_ne : more ≠ [] := List.length_pos_iff.1 (hlength ▸ hpos)
    obtain ⟨hlong, htake⟩ := ih hmore hmore_ne (Nat.le_of_succ_le_succ hcount)
      (Nat.le_of_succ_le_succ hcount')
    cases closes with
    | nil =>
      rw [← hcloses] at hpos
      exact absurd hpos (Nat.lt_irrefl 0)
    | cons close closes =>
      obtain ⟨token, bar⟩ := close
      rw [join, join, hheads, hheads']
      dsimp only
      rw [List.take_succ_cons, List.take_succ_cons, htake, List.length_cons]
      exact ⟨Nat.succ_le_succ hlong, rfl⟩

/-- A series of at least one token goes on for as long as all of its bars do. -/
theorem historical_eq {feed : PriceFeed} {tokens : List String} {run : SimulationConfig}
    {found : Assoc (List PricePoint)} (htokens : tokens ≠ [])
    (hfound : fetch feed run.startDate run.endDate tokens [] = some found)
    (hlen : ∀ p ∈ found, k ≤ p.2.length) :
    found ≠ [] ∧ ∃ count, k ≤ count ∧
      (historical feed tokens run : List (PriceTick R)) = join count found := by
  have hne : found ≠ [] := fetch_ne_nil (.inl htokens) hfound
  refine ⟨hne, ?_⟩
  rw [historical, hfound]
  cases found with
  | nil => exact absurd rfl hne
  | cons p found => exact ⟨p.2.length, hlen p List.mem_cons_self, rfl⟩

/-- Feeds that agree for `k` bars of every token give series that agree for `k` ticks. -/
theorem historical_agree {feed feed' : PriceFeed} {tokens : List String} {run : SimulationConfig}
    (htokens : tokens ≠ [])
    (hagree : AgreeFirst k feed feed' run.startDate run.endDate tokens) :
    k ≤ (historical feed tokens run : List (PriceTick R)).length ∧
      k ≤ (historical feed' tokens run : List (PriceTick R)).length ∧
      (historical feed tokens run : List (PriceTick R)).take k =
        (historical feed' tokens run).take k := by
  obtain ⟨found, found', hfound, hfound', htogether⟩ := fetch_together hagree .nil
  obtain ⟨hne, count, hcount, hseries⟩ := historical_eq (R := R) htokens hfound
    htogether.le_length
  obtain ⟨hne', count', hcount', hseries'⟩ := historical_eq (R := R) htokens hfound'
    htogether.symm.le_length
  obtain ⟨hlong, htake⟩ := join_together (R := R) htogether hne hcount hcount'
  obtain ⟨hlong', -⟩ := join_together (R := R) htogether.symm hne' hcount' hcount
  rw [hseries, hseries']
  exact ⟨hlong, hlong', htake⟩

end PriceSeries

end Tradeflow
