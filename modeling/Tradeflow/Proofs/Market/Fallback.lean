/-
  Feeds that fail. For a token a feed may fail, give nothing that has items, give an item that is no
  bar, or give no items at all: then its answer is `Unusable`, and those are all the ways in which no
  bar comes of it (`unusable_iff`).
  One unusable answer is enough for a whole historical series to be empty, whichever token it was given
  for and whatever was given for the others (`historical_of_unusable`). Otherwise there are as many
  ticks as the shortest answer has items, and each prices the tokens asked for, one by one in their
  order (`historical_of_usable`).
-/
import Mathlib.Data.Set.Finite.Lemmas
import Tradeflow.Proofs.Json.RoundTrip
import Tradeflow.Proofs.Market.History

namespace Tradeflow

/-! ## Readings of several items -/

theorem Except.both_eq_ok {α β γ : Type} {f : α → β → γ} {x : Except Fault α}
    {y : Unit → Except Fault β} {c : γ} (h : Except.both f x y = .ok c) :
    ∃ a b, x = .ok a ∧ y () = .ok b ∧ f a b = c := by
  unfold Except.both at h
  split at h
  case h_1 a =>
    obtain ⟨b, hb, rfl⟩ : ∃ b, y () = .ok b ∧ f a b = c := by
      cases hy : y () with
      | error e =>
        rw [hy] at h
        cases h
      | ok b =>
        rw [hy] at h
        exact ⟨b, rfl, Except.ok.inj h⟩
    exact ⟨a, b, rfl, hb, rfl⟩
  case h_2 =>
    split at h <;> cases h
  case h_3 => cases h

namespace Codec

variable {α : Type} {read : Json → Except Fault α} {items : List Json}

/-- Items that are read are read each, and none is left out. -/
theorem readItems_eq_ok {n : Nat} {as : List α} (h : readItems read n items = .ok as) :
    as.length = items.length ∧ ∀ item ∈ items, ∃ a, read item = .ok a := by
  induction items generalizing n as with
  | nil =>
    cases h
    exact ⟨rfl, fun _ hitem => absurd hitem List.not_mem_nil⟩
  | cons item items ih =>
    rw [readItems] at h
    obtain ⟨a, rest, hitem, hrest, rfl⟩ := Except.both_eq_ok h
    obtain ⟨hlength, hall⟩ := ih hrest
    have hread : read item = .ok a := by
      cases hx : read item with
      | error e =>
        rw [hx] at hitem
        cases hitem
      | ok b =>
        rw [hx] at hitem
        exact hitem
    exact ⟨congrArg Nat.succ hlength, List.forall_mem_cons.2 ⟨⟨a, hread⟩, hall⟩⟩

theorem exists_readItems (h : ∀ item ∈ items, ∃ a, read item = .ok a) (n : Nat) :
    ∃ as, readItems read n items = .ok as := by
  induction items generalizing n with
  | nil => exact ⟨[], rfl⟩
  | cons item items ih =>
    obtain ⟨⟨a, ha⟩, hall⟩ := List.forall_mem_cons.1 h
    obtain ⟨as, has⟩ := ih hall (n + 1)
    refine ⟨a :: as, ?_⟩
    rw [readItems, ha]
    show (readItems read (n + 1) items).map (List.cons a) = .ok (a :: as)
    rw [has]
    rfl

end Codec

namespace PriceSeries

/-! ## What a feed gives for a token -/

/-- What one comes across in going through a document: the items of a list, the characters of a text,
the keys of an object. Anything else cannot be gone through. -/
def items? : Json → Option (List Json)
  | .arr items => some items
  | .str s => some (s.toList.map fun c => .str (String.singleton c))
  | .obj pairs => some (pairs.map fun p => .str p.1)
  | _ => none

/-- An answer of a feed that no bars come of. -/
inductive Unusable : Option Json → Prop
  /-- The feed failed. -/
  | failed : Unusable none
  /-- It gave something that cannot be gone through, such as a null. -/
  | nothing {doc : Json} (h : items? doc = none) : Unusable (some doc)
  /-- It gave an item that is no bar. -/
  | malformed {doc item : Json} {items : List Json} (h : items? doc = some items)
      (hmem : item ∈ items) (hbar : ∀ p, PricePoint.codec.read item ≠ .ok p) : Unusable (some doc)
  /-- It gave no bars. -/
  | empty {doc : Json} (h : items? doc = some []) : Unusable (some doc)

/-- How many items an answer of a feed has. -/
def barCount (answer : Option Json) : Nat := ((answer.bind items?).getD []).length

/-- A text is no bar. -/
theorem read_str (s : String) : ∀ p, PricePoint.codec.read (.str s) ≠ .ok p := nofun

variable {doc : Json} {answer : Option Json}

/-- Bars are read off the items of a document, one off each. -/
theorem bars?_cases {ps : List PricePoint} (h : bars? doc = some ps) :
    ∃ items, items? doc = some items ∧ ps.length = items.length ∧
      ∀ item ∈ items, ∃ p, PricePoint.codec.read item = .ok p := by
  unfold bars? at h
  split at h
  case h_1 items =>
    split at h
    case h_1 hread =>
      cases h
      exact ⟨items, rfl, Codec.readItems_eq_ok hread⟩
    case h_2 => cases h
  case h_2 =>
    cases h
    exact ⟨[], rfl, rfl, nofun⟩
  case h_3 =>
    cases h
    exact ⟨[], rfl, rfl, nofun⟩
  case h_4 => cases h

/-- A document has its bars if every item is one. -/
theorem exists_bars? {items : List Json} (hitems : items? doc = some items)
    (h : ∀ item ∈ items, ∃ p, PricePoint.codec.read item = .ok p) : ∃ ps, bars? doc = some ps := by
  cases doc with
  | null => cases hitems
  | bool b => cases hitems
  | int n => cases hitems
  | num x => cases hitems
  | arr items =>
    cases hitems
    obtain ⟨ps, hps⟩ := Codec.exists_readItems h 0
    exact ⟨ps, by rw [bars?, hps]⟩
  | str s =>
    cases hitems
    cases hs : s.toList with
    | nil =>
      obtain rfl : s = "" := String.toList_eq_nil_iff.1 hs
      exact ⟨[], rfl⟩
    | cons c cs =>
      rw [hs] at h
      obtain ⟨p, hp⟩ := h _ List.mem_cons_self
      exact absurd hp (read_str _ p)
  | obj pairs =>
    cases hitems
    cases pairs with
    | nil => exact ⟨[], rfl⟩
    | cons pair pairs =>
      obtain ⟨p, hp⟩ := h _ List.mem_cons_self
      exact absurd hp (read_str _ p)

theorem bars_of_unusable (h : Unusable answer) :
    answer.bind bars? = none ∨ answer.bind bars? = some [] := by
  rcases hbars : answer.bind bars? with _ | _ | ⟨p, ps⟩
  · exact .inl rfl
  · exact .inr rfl
  · obtain ⟨doc, rfl, hdoc⟩ := Option.bind_eq_some_iff.1 hbars
    obtain ⟨items, hitems, hlength, hall⟩ := bars?_cases hdoc
    cases h with
    | nothing hnone =>
      rw [hitems] at hnone
      cases hnone
    | malformed hsome hmem hbar =>
      rw [hitems] at hsome
      cases hsome
      obtain ⟨p, hp⟩ := hall _ hmem
      exact absurd hp (hbar p)
    | empty hsome =>
      rw [hitems] at hsome
      cases hsome
      cases hlength

theorem bars_of_not_unusable (h : ¬ Unusable answer) :
    ∃ ps, answer.bind bars? = some ps ∧ ps.length = barCount answer ∧ ps ≠ [] := by
  cases answer with
  | none => exact absurd .failed h
  | some doc =>
    cases hitems : items? doc with
    | none => exact absurd (.nothing hitems) h
    | some items =>
      have hall : ∀ item ∈ items, ∃ p, PricePoint.codec.read item = .ok p := fun item hmem =>
        Classical.byContradiction fun hnot => h (.malformed hitems hmem (not_exists.1 hnot))
      obtain ⟨ps, hps⟩ := exists_bars? hitems hall
      obtain ⟨items', hitems', hlength, -⟩ := bars?_cases hps
      rw [hitems] at hitems'
      cases hitems'
      refine ⟨ps, hps, ?_, fun hnil => h (.empty ?_)⟩
      · rw [hlength, barCount, Option.bind_some, hitems]
        rfl
      · rw [hnil] at hlength
        rw [hitems, List.length_eq_zero_iff.1 hlength.symm]

/-- An answer is unusable exactly if no bar is read off it. -/
theorem unusable_iff : Unusable answer ↔ ∀ p ps, answer.bind bars? ≠ some (p :: ps) := by
  constructor
  · intro h p ps hbars
    rcases bars_of_unusable h with hnone | hnil
    · rw [hnone] at hbars
      cases hbars
    · rw [hnil] at hbars
      cases hbars
  · intro h
    refine Classical.byContradiction fun hnot => ?_
    obtain ⟨ps, hps, -, hne⟩ := bars_of_not_unusable hnot
    obtain ⟨p, rest, rfl⟩ := List.exists_cons_of_ne_nil hne
    exact h p rest hps

/-! ## The bars of all tokens -/

variable {feed : PriceFeed} {start stop : Instant} {tokens : List String}
  {found : Assoc (List PricePoint)}

/-- A token that fails makes the tokens before it and after it fail as well. -/
theorem fetch_of_fail {token : String} (hmem : token ∈ tokens)
    (h : (feed token start stop).bind bars? = none) : fetch feed start stop tokens found = none := by
  induction tokens generalizing found with
  | nil => cases hmem
  | cons first tokens ih =>
    rw [fetch]
    rcases List.mem_cons.1 hmem with rfl | hmem
    · rw [h]
    · split
      · rfl
      · exact ih hmem

/-- Bars of different tokens are listed in the order of the tokens. -/
theorem fetch_of_bars {bars : String → List PricePoint}
    (h : ∀ token ∈ tokens, (feed token start stop).bind bars? = some (bars token))
    (hnodup : (found.keys ++ tokens).Nodup) :
    fetch feed start stop tokens found = some (found ++ tokens.map fun token => (token, bars token)) := by
  induction tokens generalizing found with
  | nil => exact congrArg some (List.append_nil found).symm
  | cons token tokens ih =>
    obtain ⟨htoken, htokens⟩ := List.forall_mem_cons.1 h
    have hnew : token ∉ found.keys := fun hmem =>
      (List.disjoint_of_nodup_append hnodup) hmem List.mem_cons_self
    have hkeys : (Assoc.keys (found ++ [(token, bars token)]) ++ tokens).Nodup := by
      rw [Assoc.keys, List.map_append, List.append_assoc]
      exact hnodup
    rw [fetch, htoken]
    show fetch feed start stop tokens (Assoc.set found token (bars token)) = _
    rw [Assoc.set_of_notMem hnew, ih htokens hkeys, List.append_assoc]
    rfl

/-! ## Ticks -/

variable {R : Type} [Scalar R] {series more : Assoc (List PricePoint)}
  {closes : List (String × PricePoint)} {count : Nat}

theorem heads?_of_nil {token : String} (h : (token, []) ∈ series) : heads? series = none := by
  induction series with
  | nil => cases h
  | cons entry series ih =>
    obtain ⟨name, bars⟩ := entry
    cases bars with
    | nil => rfl
    | cons bar bars =>
      rcases List.mem_cons.1 h with heq | hmem
      · cases heq
      · rw [heads?, ih hmem]
        rfl

/-- Where every token has a bar, one is taken off each. -/
theorem heads?_cases (h : heads? series = some (closes, more)) :
    closes.map (·.1) = series.keys ∧ more = series.map (fun p => (p.1, p.2.tail)) ∧
      ∀ p ∈ series, 0 < p.2.length := by
  induction series generalizing closes more with
  | nil =>
    cases h
    exact ⟨rfl, rfl, nofun⟩
  | cons entry series ih =>
    obtain ⟨name, bars⟩ := entry
    cases bars with
    | nil => cases h
    | cons bar bars =>
      rw [heads?] at h
      obtain ⟨⟨closes', more'⟩, hrest, hpair⟩ := Option.map_eq_some_iff.1 h
      cases hpair
      obtain ⟨hcloses, hmore, hpos⟩ := ih hrest
      refine ⟨congrArg (name :: ·) hcloses, congrArg ((name, bars) :: ·) hmore, ?_⟩
      exact List.forall_mem_cons.2 ⟨Nat.succ_pos _, hpos⟩

theorem join_of_none (h : heads? series = none) : (join count series : List (PriceTick R)) = [] := by
  cases count with
  | zero => rfl
  | succ count => rw [join, h]

/-- Joined bars are at an end, or a tick of first bars and then the rest joined. -/
theorem join_cases (count : Nat) (series : Assoc (List PricePoint)) :
    (join count series : List (PriceTick R)) = [] ∨
      ∃ first closes left, count = left + 1 ∧
        heads? series = some (first :: closes, series.map fun p => (p.1, p.2.tail)) ∧
        (join count series : List (PriceTick R)) = historicalTick first.2 (first :: closes) ::
          join left (series.map fun p => (p.1, p.2.tail)) := by
  cases count with
  | zero => exact .inl rfl
  | succ left =>
    rw [join]
    split
    case h_1 token first closes more hheads =>
      obtain ⟨-, rfl, -⟩ := heads?_cases hheads
      exact .inr ⟨(token, first), closes, left, rfl, hheads, rfl⟩
    case h_2 => exact .inl rfl

/-- No token has fewer bars than there are ticks. -/
theorem length_join_le {entry : String × List PricePoint} (h : entry ∈ series) :
    (join count series : List (PriceTick R)).length ≤ entry.2.length := by
  induction count generalizing series entry with
  | zero => exact Nat.zero_le _
  | succ count ih =>
    rcases join_cases (R := R) (count + 1) series with hnil | ⟨first, closes, left, hleft, hheads, hcons⟩
    · rw [hnil]
      exact Nat.zero_le _
    · cases hleft
      obtain ⟨-, -, hpos⟩ := heads?_cases hheads
      have hpos : 0 < entry.2.length := hpos entry h
      have hrest := ih (List.mem_map_of_mem (f := fun p => (p.1, p.2.tail)) h)
      rw [List.length_tail] at hrest
      rw [hcons, List.length_cons]
      omega

/-- A tick prices every token, in their order. -/
theorem prices_join {tick : PriceTick R} (h : tick ∈ (join count series : List (PriceTick R))) :
    tick.prices.keys = series.keys := by
  induction count generalizing series with
  | zero => cases h
  | succ count ih =>
    rcases join_cases (R := R) (count + 1) series with hnil | ⟨first, closes, left, hleft, hheads, hcons⟩
    · rw [hnil] at h
      cases h
    · cases hleft
      rw [hcons] at h
      rcases List.mem_cons.1 h with rfl | hmem
      · obtain ⟨hcloses, -, -⟩ := heads?_cases hheads
        rw [← hcloses]
        exact List.map_map ..
      · rw [ih hmem]
        exact List.map_map ..

/-- Joined bars last as long as those of the token that has fewest. -/
theorem isLeast_length_join (h : ∃ p ∈ series, p.2.length ≤ count) :
    IsLeast (Set.image (·.2.length) {p | p ∈ series})
      (join count series : List (PriceTick R)).length := by
  obtain ⟨first, hfirst, hcount⟩ := h
  obtain ⟨shortest, hmem, hleast⟩ := Set.exists_min_image {p | p ∈ series} (·.2.length)
    series.finite_toSet ⟨first, hfirst⟩
  have htogether : Together shortest.2.length series series :=
    List.forall₂_same.2 fun p hp => ⟨rfl, hleast p hp, hleast p hp, rfl⟩
  have hcount : shortest.2.length ≤ count := Nat.le_trans (hleast first hfirst) hcount
  have hlong : shortest.2.length ≤ (join count series : List (PriceTick R)).length :=
    (join_together htogether (List.ne_nil_of_mem hmem) hcount hcount).1
  refine ⟨⟨shortest, hmem, Nat.le_antisymm hlong (length_join_le hmem)⟩, ?_⟩
  rintro _ ⟨p, hp, rfl⟩
  exact length_join_le hp

/-! ## The series of a period -/

variable {run : SimulationConfig}

/-- Of one unusable answer comes an empty series. -/
theorem historical_of_unusable (hnodup : tokens.Nodup)
    (h : ∃ token ∈ tokens, Unusable (feed token run.startDate run.endDate)) :
    (historical feed tokens run : List (PriceTick R)) = [] := by
  rw [historical]
  by_cases hfail : ∃ token ∈ tokens, (feed token run.startDate run.endDate).bind bars? = none
  · obtain ⟨token, hmem, hnone⟩ := hfail
    rw [fetch_of_fail hmem hnone]
  · -- then every token has its bars, and one of them none at all
    have hbars : ∀ token ∈ tokens, ∃ bars,
        (feed token run.startDate run.endDate).bind bars? = some bars := fun token hmem =>
      Option.ne_none_iff_exists'.1 fun hnone => hfail ⟨token, hmem, hnone⟩
    choose! bars hbars using hbars
    obtain ⟨token, hmem, hunusable⟩ := h
    have hnil : bars token = [] := by
      rcases bars_of_unusable hunusable with hnone | hnil
      · exact absurd ⟨token, hmem, hnone⟩ hfail
      · exact Option.some.inj ((hbars token hmem).symm.trans hnil)
    have hentry : (token, []) ∈ tokens.map fun token => (token, bars token) :=
      List.mem_map.2 ⟨token, hmem, by rw [hnil]⟩
    have hfetch : fetch feed run.startDate run.endDate tokens [] =
        some (tokens.map fun token => (token, bars token)) := fetch_of_bars hbars hnodup
    rw [hfetch]
    generalize tokens.map (fun token => (token, bars token)) = found at hentry
    cases found with
    | nil => rfl
    | cons entry found => exact join_of_none (heads?_of_nil hentry)

/-- Where no answer is unusable, there are as many ticks as the shortest has items, and every tick
prices the tokens asked for. -/
theorem historical_of_usable (htokens : tokens ≠ []) (hnodup : tokens.Nodup)
    (h : ∀ token ∈ tokens, ¬ Unusable (feed token run.startDate run.endDate)) :
    (historical feed tokens run : List (PriceTick R)) ≠ [] ∧
      IsLeast (Set.image (fun token => barCount (feed token run.startDate run.endDate))
        {token | token ∈ tokens}) (historical feed tokens run : List (PriceTick R)).length ∧
      ∀ tick ∈ (historical feed tokens run : List (PriceTick R)), tick.prices.keys = tokens := by
  have hbars := fun token hmem => bars_of_not_unusable (h token hmem)
  choose! bars hbars hlength hne using hbars
  have hfetch : fetch feed run.startDate run.endDate tokens [] =
      some (tokens.map fun token => (token, bars token)) := fetch_of_bars hbars hnodup
  obtain ⟨count, hcount, hseries⟩ : ∃ count,
      (∃ p ∈ tokens.map fun token => (token, bars token), p.2.length ≤ count) ∧
      (historical feed tokens run : List (PriceTick R)) =
        join count (tokens.map fun token => (token, bars token)) := by
    obtain ⟨first, rest, rfl⟩ := List.exists_cons_of_ne_nil htokens
    refine ⟨(bars first).length, ⟨_, List.mem_cons_self, Nat.le_refl _⟩, ?_⟩
    rw [historical, hfetch]
    rfl
  obtain ⟨⟨entry, hentry, hshort⟩, hleast⟩ := isLeast_length_join (R := R) hcount
  obtain ⟨shortest, hshortest, rfl⟩ := List.mem_map.1 hentry
  rw [hseries]
  refine ⟨?_, ⟨⟨shortest, hshortest, ?_⟩, ?_⟩, fun tick htick => ?_⟩
  · rw [← List.length_pos_iff, ← hshort]
    exact List.length_pos_iff.2 (hne shortest hshortest)
  · exact (hlength shortest hshortest).symm.trans hshort
  · rintro _ ⟨token, hmem, rfl⟩
    exact Nat.le_trans (hleast ⟨_, List.mem_map_of_mem hmem, rfl⟩) (hlength token hmem).le
  · rw [prices_join htick, Assoc.keys, List.map_map]
    exact List.map_id tokens

end PriceSeries

end Tradeflow
