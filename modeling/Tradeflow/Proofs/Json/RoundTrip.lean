/-
  Documents written as text and read again. A style that separates with a comma and a colon and
  blanks after them (`Style.Plain`) loses nothing of a well-formed document: one whose doubles are
  finite and whose objects have each key once. What follows a value does not go on with it, since
  that is a separator, a bracket or a blank; the reader's steps are bounded by twice the length of
  the text.
  `ofText_print`: the text of a well-formed document is read as that document.
  `print_injective`: so different documents have different texts.
-/
import Mathlib.Data.List.Nodup
import Tradeflow.Proofs.Json.Lexemes

namespace Tradeflow

/-! ## Keys that occur once -/

namespace Assoc

variable {α : Type}

theorem set_of_notMem {m : Assoc α} {key : String} (h : key ∉ m.keys) (value : α) :
    m.set key value = m ++ [(key, value)] := by
  induction m with
  | nil => rfl
  | cons p m ih =>
    obtain ⟨k, v⟩ := p
    have hne : k ≠ key := fun heq => h (heq ▸ List.mem_cons_self)
    rw [set, if_neg hne, ih fun hmem => h (List.mem_cons_of_mem _ hmem)]
    rfl

/-- Pairs with different keys are stored as they are. -/
theorem ofPairs_of_nodup {pairs : Assoc α} (h : pairs.keys.Nodup) : ofPairs pairs = pairs := by
  have hfold : ∀ (rest done : Assoc α), (done ++ rest).keys.Nodup →
      rest.foldl (fun m p => m.set p.1 p.2) done = done ++ rest := by
    intro rest
    induction rest with
    | nil => exact fun done _ => (List.append_nil done).symm
    | cons p rest ih =>
      intro done hdone
      have hfresh : p.1 ∉ Assoc.keys done := by
        have hnodup : (Assoc.keys done ++ p.1 :: Assoc.keys rest).Nodup := by
          rw [keys, List.map_append] at hdone
          exact hdone
        exact fun hmem => (List.disjoint_of_nodup_append hnodup) hmem List.mem_cons_self
      rw [List.foldl_cons, set_of_notMem hfresh, ih _ (by rwa [List.append_assoc]),
        List.append_assoc]
      rfl
  exact hfold pairs [] h

end Assoc

namespace Json

/-! ## Well-formed documents and plain styles -/

mutual

/-- Is every double finite, and does no object have a key twice? -/
def wellFormed : Json → Bool
  | .num x => Double.isFinite x
  | .arr items => wellFormedItems items
  | .obj pairs => decide (Assoc.keys pairs).Nodup && wellFormedPairs pairs
  | _ => true

def wellFormedItems : List Json → Bool
  | [] => true
  | x :: xs => wellFormed x && wellFormedItems xs

def wellFormedPairs : List (String × Json) → Bool
  | [] => true
  | p :: ps => wellFormedPair p && wellFormedPairs ps

def wellFormedPair : String × Json → Bool
  | (_, x) => wellFormed x

end

/-- Blanks only. -/
def Blank (cs : List Char) : Prop := ∀ c ∈ cs, isSpace c = true

/-- Items are separated by a comma, keys from values by a colon, each with blanks after it. -/
structure Style.Plain (style : Style) : Prop where
  item : ∃ blanks, style.itemSeparator.toList = ',' :: blanks ∧ Blank blanks
  key : ∃ blanks, style.keySeparator.toList = ':' :: blanks ∧ Blank blanks

theorem Style.plain_dense : Style.dense.Plain where
  item := ⟨[], rfl, fun _ h => absurd h List.not_mem_nil⟩
  key := ⟨[], rfl, fun _ h => absurd h List.not_mem_nil⟩

theorem Style.plain_indented : Style.indented.Plain where
  item := ⟨[], rfl, fun _ h => absurd h List.not_mem_nil⟩
  key := ⟨[' '], rfl, fun c h => by rw [List.mem_singleton.1 h]; decide⟩

/-! ## Blanks -/

theorem skipSpace_append {blanks : List Char} (h : Blank blanks) (rest : List Char) :
    skipSpace (blanks ++ rest) = skipSpace rest := List.dropWhile_append_of_pos h

theorem skipSpace_cons {c : Char} (h : isSpace c = false) (rest : List Char) :
    skipSpace (c :: rest) = c :: rest := List.dropWhile_cons_of_neg (by simp [h])

theorem blank_newline (style : Style) (level : Nat) : Blank (style.newline level) := by
  intro c hc
  unfold Style.newline at hc
  split at hc
  · exact absurd hc List.not_mem_nil
  · rcases List.mem_cons.1 hc with rfl | hc
    · decide
    · rw [List.eq_of_mem_replicate hc]
      decide

theorem ends_cons {c : Char} {rest : List Char}
    (h : isDigit c = false ∧ c ≠ '.' ∧ c ≠ 'e' ∧ c ≠ 'E') : Ends (c :: rest) := by
  intro d ds hds
  cases hds
  exact h

theorem ends_nil : Ends [] := fun _ _ h => by cases h

/-- A number ends before a blank, and before what follows blanks. -/
theorem Ends.blank_append {blanks rest : List Char} (hblank : Blank blanks) (h : Ends rest) :
    Ends (blanks ++ rest) := by
  cases blanks with
  | nil => exact h
  | cons c blanks =>
    apply ends_cons
    have hc := hblank c List.mem_cons_self
    simp only [isSpace, Bool.or_eq_true, beq_iff_eq] at hc
    rcases hc with ((rfl | rfl) | rfl) | rfl <;> decide

/-! ## How values start -/

/-- A character that a value may start with. -/
def Opens (c : Char) : Prop := isSpace c = false ∧ c ≠ ']' ∧ c ≠ '\x7d' ∧ c ≠ '\ufeff'

instance (c : Char) : Decidable (Opens c) := inferInstanceAs (Decidable (_ ∧ _))

theorem opens_of_isDigit {c : Char} (h : isDigit c = true) : Opens c := by
  refine ⟨?_, ?_, ?_, ?_⟩
  · by_contra hspace
    simp only [isSpace, Bool.not_eq_false, Bool.or_eq_true, beq_iff_eq] at hspace
    rcases hspace with ((rfl | rfl) | rfl) | rfl <;> exact absurd h (by decide)
  all_goals
    rintro rfl
    exact absurd h (by decide)

/-- What stands for a number is no literal. -/
theorem readAtom_of_readNumber {cs : List Char} {r : Json × List Char}
    (h : readNumber cs = .ok r) : readAtom cs = .ok r := by
  unfold readAtom
  split
  case h_7 => exact h
  all_goals cases h

/-- A value that is no string, array or object is a literal or a number. -/
theorem readValue_atom (fuel : Nat) {c : Char} {rest : List Char}
    (h : c ≠ '"' ∧ c ≠ '[' ∧ c ≠ '\x7b') :
    readValue (fuel + 1) (c :: rest) = readAtom (c :: rest) := by
  obtain ⟨hquote, hbracket, hbrace⟩ := h
  rw [readValue]
  · exact fun _ heq => hquote (List.cons.inj heq).1
  · exact fun _ heq => hbracket (List.cons.inj heq).1
  · exact fun _ heq => hbrace (List.cons.inj heq).1

/-- A number is read as a value. -/
theorem readValue_number (fuel : Nat) {cs : List Char} {r : Json × List Char}
    (h : readNumber cs = .ok r) : readValue (fuel + 1) cs = .ok r := by
  obtain ⟨c, rest, rfl, hstart⟩ := readNumber_start h
  rw [readValue_atom fuel, readAtom_of_readNumber h]
  rcases hstart with rfl | hdigit
  · decide
  · refine ⟨?_, ?_, ?_⟩ <;>
    · rintro rfl
      exact absurd hdigit (by decide)

/-- What is written for a value starts as a value may. -/
theorem write_start (style : Style) (level : Nat) (x : Json) (hx : wellFormed x = true) :
    ∃ c rest, write style level x = c :: rest ∧ Opens c := by
  have hnumber : ∀ {text : List Char} {r : Json × List Char}, readNumber (text ++ []) = .ok r →
      ∃ c rest, text = c :: rest ∧ Opens c := by
    intro text r h
    rw [List.append_nil] at h
    obtain ⟨c, rest, hcs, hstart⟩ := readNumber_start h
    refine ⟨c, rest, hcs, ?_⟩
    rcases hstart with rfl | hdigit
    · decide
    · exact opens_of_isDigit hdigit
  cases x with
  | null => exact ⟨_, _, rfl, by decide⟩
  | bool b => cases b <;> exact ⟨_, _, rfl, by decide⟩
  | int n => exact hnumber (readNumber_writeInt n ends_nil)
  | num x =>
    rw [wellFormed] at hx
    exact hnumber (readNumber_writeFloat hx ends_nil)
  | str s => exact ⟨_, _, rfl, by decide⟩
  | arr items => cases items <;> exact ⟨_, _, rfl, by decide⟩
  | obj pairs => cases pairs <;> exact ⟨_, _, rfl, by decide⟩

/-! ## Arrays and objects -/

/-- What is written for the document is read as it, when enough steps are left. -/
structure Reads (style : Style) (x : Json) : Prop where
  start : ∀ level, ∃ c rest, write style level x = c :: rest ∧ Opens c
  value : ∀ level fuel rest, Ends rest → 2 * (write style level x).length ≤ fuel →
    readValue fuel (write style level x ++ rest) = .ok (x, rest)

section Nested

variable {style : Style} (hstyle : style.Plain) (level : Nat)

/-- No blank is passed over before a value. -/
theorem Reads.skipSpace {x : Json} (h : Reads style x) (rest : List Char) :
    Json.skipSpace (write style level x ++ rest) = write style level x ++ rest := by
  obtain ⟨c, cs, hwrite, hopens⟩ := h.start level
  rw [hwrite, List.cons_append, skipSpace_cons hopens.1]

include hstyle in
theorem Style.Plain.between : ∃ blanks, style.between level = ',' :: blanks ∧ Blank blanks := by
  obtain ⟨blanks, hitem, hblank⟩ := hstyle.item
  refine ⟨blanks ++ style.newline level, by rw [Style.between, hitem]; rfl, fun c hc => ?_⟩
  rcases List.mem_append.1 hc with hc | hc
  · exact hblank c hc
  · exact blank_newline style level c hc

include hstyle in
/-- The items of an array are read up to its end. -/
theorem readItems_write {x : Json} {xs : List Json} (h : ∀ y ∈ x :: xs, Reads style y)
    {blanks : List Char} (hblank : Blank blanks) (rest : List Char) {fuel : Nat}
    (hfuel : 2 * ((write style level x).length + (writeItems style level xs).length) < fuel) :
    readItems fuel (write style level x ++ (writeItems style level xs ++ (blanks ++ ']' :: rest))) =
      .ok (x :: xs, rest) := by
  induction xs generalizing x fuel with
  | nil =>
    obtain ⟨fuel, rfl⟩ := Nat.exists_eq_add_one_of_ne_zero (Nat.ne_zero_of_lt hfuel)
    have hends : Ends (blanks ++ ']' :: rest) := Ends.blank_append hblank (ends_cons (by decide))
    rw [writeItems, List.length_nil] at hfuel
    rw [writeItems, List.nil_append, readItems,
      (h x List.mem_cons_self).value level fuel _ hends (by omega)]
    dsimp only
    rw [skipSpace_append hblank, skipSpace_cons (by decide)]
    rfl
  | cons y xs ih =>
    obtain ⟨fuel, rfl⟩ := Nat.exists_eq_add_one_of_ne_zero (Nat.ne_zero_of_lt hfuel)
    obtain ⟨gap, hgap, hgapBlank⟩ := hstyle.between level
    have htail := fun z hz => h z (List.mem_cons_of_mem x hz)
    rw [writeItems, hgap, List.length_append, List.length_append, List.length_cons] at hfuel
    have hread := ih htail
      (show 2 * ((write style level y).length + (writeItems style level xs).length) < fuel by omega)
    rw [writeItems, hgap, List.append_assoc, List.append_assoc, List.cons_append, readItems,
      (h x List.mem_cons_self).value level fuel _ (ends_cons (by decide)) (by omega)]
    dsimp only
    rw [skipSpace_cons (by decide)]
    simp only [skipSpace_append hgapBlank, (htail y List.mem_cons_self).skipSpace, hread]

/-- No blank is passed over before a pair, which starts with the quote of its key. -/
theorem skipSpace_writePair (style : Style) (level : Nat) (p : String × Json) (rest : List Char) :
    Json.skipSpace (writePair style level p ++ rest) = writePair style level p ++ rest := by
  obtain ⟨key, x⟩ := p
  exact skipSpace_cons (c := '"') (by decide) _

include hstyle in
/-- A key is read up to its colon, and the value behind it as it was written. -/
theorem readPair_write {p : String × Json} (h : Reads style p.2) {fuel : Nat} {rest : List Char}
    (hends : Ends rest) (hfuel : 2 * (writePair style level p).length ≤ fuel) :
    ∃ more, readString (writePair style level p ++ rest) = .ok (p.1, ':' :: more) ∧
      readValue fuel (Json.skipSpace more) = .ok (p.2, rest) := by
  obtain ⟨key, x⟩ := p
  obtain ⟨blanks, hcolon, hblank⟩ := hstyle.key
  refine ⟨blanks ++ (write style level x ++ rest), ?_, ?_⟩
  · rw [writePair, hcolon, List.append_assoc, List.append_assoc, readString_writeString]
    rfl
  · rw [writePair, List.length_append] at hfuel
    have hvalue := h.value level fuel rest hends (by dsimp only; omega)
    rw [skipSpace_append hblank, h.skipSpace, hvalue]

include hstyle in
/-- The pairs of an object are read up to its end. -/
theorem readPairs_write {p : String × Json} {ps : List (String × Json)}
    (h : ∀ q ∈ p :: ps, Reads style q.2) {blanks : List Char} (hblank : Blank blanks)
    (rest : List Char) {fuel : Nat}
    (hfuel : 2 * ((writePair style level p).length + (writePairs style level ps).length) < fuel) :
    readPairs fuel
        (writePair style level p ++ (writePairs style level ps ++ (blanks ++ '\x7d' :: rest))) =
      .ok (p :: ps, rest) := by
  induction ps generalizing p fuel with
  | nil =>
    obtain ⟨fuel, rfl⟩ := Nat.exists_eq_add_one_of_ne_zero (Nat.ne_zero_of_lt hfuel)
    have hends : Ends (blanks ++ '\x7d' :: rest) := Ends.blank_append hblank (ends_cons (by decide))
    rw [writePairs, List.length_nil] at hfuel
    obtain ⟨more, hkey, hvalue⟩ := readPair_write hstyle level (h p List.mem_cons_self) hends
      (show 2 * (writePair style level p).length ≤ fuel by omega)
    rw [writePairs, List.nil_append, readPairs, hkey]
    dsimp only
    rw [skipSpace_cons (by decide)]
    simp only [hvalue, skipSpace_append hblank, skipSpace_cons (c := '\x7d') (by decide)]
  | cons q ps ih =>
    obtain ⟨fuel, rfl⟩ := Nat.exists_eq_add_one_of_ne_zero (Nat.ne_zero_of_lt hfuel)
    obtain ⟨gap, hgap, hgapBlank⟩ := hstyle.between level
    have htail := fun r hr => h r (List.mem_cons_of_mem p hr)
    rw [writePairs, hgap, List.length_append, List.length_append, List.length_cons] at hfuel
    have hread := ih htail (show 2 * ((writePair style level q).length +
      (writePairs style level ps).length) < fuel by omega)
    rw [writePairs, hgap, List.append_assoc, List.append_assoc, List.cons_append]
    obtain ⟨more, hkey, hvalue⟩ := readPair_write hstyle level (h p List.mem_cons_self)
      (ends_cons (c := ',') (by decide)) (show 2 * (writePair style level p).length ≤ fuel by omega)
    rw [readPairs, hkey]
    dsimp only
    rw [skipSpace_cons (by decide)]
    simp only [hvalue, skipSpace_cons (c := ',') (by decide), skipSpace_append hgapBlank,
      skipSpace_writePair, hread]

end Nested

/-! ## Documents -/

/-- What holds of literals, numbers and strings, and of arrays and objects when it does of all that
is in them, holds of every document. -/
theorem induction {p : Json → Prop} (null : p .null) (bool : ∀ b, p (.bool b))
    (int : ∀ n, p (.int n)) (num : ∀ x, p (.num x)) (str : ∀ s, p (.str s))
    (arr : ∀ items, (∀ x ∈ items, p x) → p (.arr items))
    (obj : ∀ pairs, (∀ q ∈ pairs, p q.2) → p (.obj pairs)) (doc : Json) : p doc := by
  refine @Json.rec p (fun items => ∀ x ∈ items, p x) (fun pairs => ∀ q ∈ pairs, p q.2)
    (fun q => p q.2) null bool int num str arr obj ?_ ?_ ?_ ?_ ?_ doc
  · exact fun x hx => absurd hx List.not_mem_nil
  · exact fun x xs hx hxs => List.forall_mem_cons.2 ⟨hx, hxs⟩
  · exact fun q hq => absurd hq List.not_mem_nil
  · exact fun q qs hq hqs => List.forall_mem_cons.2 ⟨hq, hqs⟩
  · exact fun key x hx => hx

theorem wellFormedItems_iff {items : List Json} :
    wellFormedItems items = true ↔ ∀ x ∈ items, wellFormed x = true := by
  induction items with
  | nil => exact iff_of_true rfl fun x hx => absurd hx List.not_mem_nil
  | cons x xs ih => rw [wellFormedItems, Bool.and_eq_true, ih, List.forall_mem_cons]

theorem wellFormedPairs_iff {pairs : List (String × Json)} :
    wellFormedPairs pairs = true ↔ ∀ q ∈ pairs, wellFormed q.2 = true := by
  induction pairs with
  | nil => exact iff_of_true rfl fun q hq => absurd hq List.not_mem_nil
  | cons q qs ih =>
    obtain ⟨key, x⟩ := q
    rw [wellFormedPairs, wellFormedPair, Bool.and_eq_true, ih, List.forall_mem_cons]

theorem wellFormed_arr {items : List Json} :
    wellFormed (.arr items) = true ↔ ∀ x ∈ items, wellFormed x = true := by
  rw [wellFormed, wellFormedItems_iff]

theorem wellFormed_obj {pairs : List (String × Json)} :
    wellFormed (.obj pairs) = true ↔
      (Assoc.keys pairs).Nodup ∧ ∀ q ∈ pairs, wellFormed q.2 = true := by
  rw [wellFormed, Bool.and_eq_true, decide_eq_true_eq, wellFormedPairs_iff]

section

variable {style : Style}

/-- One step at least is left for a value, since something is written for it. -/
theorem Reads.of_step {x : Json} (hx : wellFormed x = true)
    (hvalue : ∀ level fuel rest, Ends rest → 2 * (write style level x).length ≤ fuel + 1 →
      readValue (fuel + 1) (write style level x ++ rest) = .ok (x, rest)) : Reads style x where
  start level := write_start style level x hx
  value level fuel rest hends hfuel := by
    obtain ⟨c, cs, hwrite, -⟩ := write_start style level x hx
    have hne : fuel ≠ 0 := by
      rw [hwrite, List.length_cons] at hfuel
      omega
    obtain ⟨fuel, rfl⟩ := Nat.exists_eq_add_one_of_ne_zero hne
    exact hvalue level fuel rest hends hfuel

theorem reads_str (s : String) : Reads style (.str s) := by
  refine .of_step rfl fun level fuel rest _ _ => ?_
  have hread := readString_writeString style.ascii s rest
  rw [write]
  unfold writeString at hread ⊢
  rw [List.append_assoc, List.cons_append] at hread ⊢
  rw [readValue, hread]

variable (hstyle : style.Plain)

include hstyle

/-- An array is read when its items are. -/
theorem reads_arr {items : List Json} (h : wellFormed (.arr items) = true)
    (hitems : ∀ x ∈ items, Reads style x) : Reads style (.arr items) := by
  refine .of_step h fun level fuel rest _ hfuel => ?_
  cases items with
  | nil => rfl
  | cons x xs =>
    have hroom : 2 * ((write style (level + 1) x).length +
        (writeItems style (level + 1) xs).length) < fuel := by
      simp only [write, List.length_append, List.length_cons, List.length_nil] at hfuel
      omega
    have hread := readItems_write hstyle (level + 1) hitems (blank_newline style level) rest hroom
    have htext : write style level (.arr (x :: xs)) ++ rest = '[' :: (style.newline (level + 1) ++
        (write style (level + 1) x ++ (writeItems style (level + 1) xs ++
          (style.newline level ++ ']' :: rest)))) := by
      simp only [write, List.append_assoc, List.cons_append, List.nil_append]
    have hfirst := hitems x List.mem_cons_self
    obtain ⟨c, cs, hwrite, hopens⟩ := hfirst.start (level + 1)
    rw [htext, readValue, skipSpace_append (blank_newline style _), hfirst.skipSpace]
    split
    case h_1 hclose =>
      rw [hwrite] at hclose
      exact absurd (List.cons.inj hclose).1 hopens.2.1
    case h_2 => rw [hread]

/-- An object is read when its values are. -/
theorem reads_obj {pairs : List (String × Json)} (h : wellFormed (.obj pairs) = true)
    (hpairs : ∀ q ∈ pairs, Reads style q.2) : Reads style (.obj pairs) := by
  refine .of_step h fun level fuel rest _ hfuel => ?_
  cases pairs with
  | nil => rfl
  | cons p ps =>
    have hroom : 2 * ((writePair style (level + 1) p).length +
        (writePairs style (level + 1) ps).length) < fuel := by
      simp only [write, List.length_append, List.length_cons, List.length_nil] at hfuel
      omega
    have hread := readPairs_write hstyle (level + 1) hpairs (blank_newline style level) rest hroom
    have htext : write style level (.obj (p :: ps)) ++ rest =
        '\x7b' :: (style.newline (level + 1) ++ (writePair style (level + 1) p ++
          (writePairs style (level + 1) ps ++ (style.newline level ++ '\x7d' :: rest)))) := by
      simp only [write, List.append_assoc, List.cons_append, List.nil_append]
    rw [htext, readValue, skipSpace_append (blank_newline style _), skipSpace_writePair]
    split
    case h_1 hclose =>
      obtain ⟨key, x⟩ := p
      have hquote : '"' = '\x7d' := Option.some.inj (congrArg List.head? hclose)
      exact absurd hquote (by decide)
    case h_2 =>
      rw [hread]
      dsimp only
      rw [Assoc.ofPairs_of_nodup (wellFormed_obj.1 h).1]

/-- A well-formed document is read as it was written. -/
theorem reads_of_wellFormed (doc : Json) (h : wellFormed doc = true) : Reads style doc := by
  induction doc using Json.induction with
  | null => exact .of_step h fun _ _ _ _ _ => rfl
  | bool b => cases b <;> exact .of_step h fun _ _ _ _ _ => rfl
  | int n =>
    exact .of_step h fun _ fuel _ hends _ => readValue_number fuel (readNumber_writeInt n hends)
  | num x =>
    have hfinite : Double.isFinite x = true := by rwa [wellFormed] at h
    exact .of_step h fun _ fuel _ hends _ =>
      readValue_number fuel (readNumber_writeFloat hfinite hends)
  | str s => exact reads_str s
  | arr items ih => exact reads_arr hstyle h fun x hx => ih x hx (wellFormed_arr.1 h x hx)
  | obj pairs ih => exact reads_obj hstyle h fun q hq => ih q hq ((wellFormed_obj.1 h).2 q hq)

end

/-- The text of a well-formed document is read as that document. -/
theorem ofText_print {style : Style} (hstyle : style.Plain) {doc : Json}
    (h : wellFormed doc = true) : ofText (print style doc) = .ok doc := by
  have hreads := reads_of_wellFormed hstyle doc h
  obtain ⟨c, cs, hwrite, hopens⟩ := hreads.start 0
  have hvalue := hreads.value 0 (2 * (write style 0 doc).length + 2) [] ends_nil (by omega)
  rw [List.append_nil, hwrite] at hvalue
  have hwhole : readWhole (c :: cs) = .ok doc := by
    rw [readWhole, skipSpace_cons hopens.1, hvalue]
    rfl
  unfold ofText print
  rw [String.toList_ofList, hwrite]
  split
  case h_1 hmark => exact absurd (List.cons.inj hmark).1 hopens.2.2.2
  case h_2 => rw [ofChars, hwhole, Except.mapError]

/-- Different well-formed documents have different texts. -/
theorem print_injective {style : Style} (hstyle : style.Plain) {x y : Json}
    (hx : wellFormed x = true) (hy : wellFormed y = true) (h : print style x = print style y) :
    x = y := by
  have hread := ofText_print hstyle hx
  rw [h, ofText_print hstyle hy] at hread
  exact (Except.ok.inj hread).symm

end Json

end Tradeflow
