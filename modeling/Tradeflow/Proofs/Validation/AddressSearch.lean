/-
  The search for addresses in the settings of blocks. The check does not look at the strings of the
  settings but at the text that is written for them, with escapes. An address is a capital `E` and
  47 more characters, none of which is a quote, a backslash, a separator or a bracket. So what breaks
  the text apart (`addressed_append`) also parts the addresses; nothing but a string writes a capital
  `E` (`addressed_quiet`); and within a string an escape starts with a backslash and goes on
  without a capital `E`, so that it neither hides an address nor makes one (`addressed_escaped`).
  `addressCheck_fails_iff`: the check fails exactly if an address stands in one of the strings.
-/
import Tradeflow.Proofs.Json.RoundTrip
import Tradeflow.Validation.Rules

namespace Tradeflow

/-! ## Addresses -/

/-- A letter, a digit, an underscore or a hyphen. -/
def AddressChar (c : Char) : Prop := c.isAlphanum = true ∨ c = '_' ∨ c = '-'

instance : DecidablePred AddressChar := fun _ => inferInstanceAs (Decidable (_ ∨ _ ∨ _))

/-- `EQ` and 46 characters more. -/
def IsAddress (cs : List Char) : Prop :=
  ∃ body, cs = 'E' :: 'Q' :: body ∧ body.length = 46 ∧ ∀ c ∈ body, AddressChar c

/-- An address stands somewhere in the characters. -/
def Addressed (cs : List Char) : Prop := ∃ a, IsAddress a ∧ a <:+: cs

theorem IsAddress.chars {a : List Char} (h : IsAddress a) : ∀ c ∈ a, AddressChar c := by
  obtain ⟨body, rfl, -, hbody⟩ := h
  exact List.forall_mem_cons.2 ⟨by decide, List.forall_mem_cons.2 ⟨by decide, hbody⟩⟩

theorem IsAddress.exists_cons {a : List Char} (h : IsAddress a) : ∃ rest, a = 'E' :: rest := by
  obtain ⟨body, rfl, -, -⟩ := h
  exact ⟨_, rfl⟩

theorem isAddressChar_iff (c : Char) : isAddressChar c = true ↔ AddressChar c := by
  have hupper : c.isUpper = ('A' ≤ c && c ≤ 'Z') := Bool.decide_and ..
  have hlower : c.isLower = ('a' ≤ c && c ≤ 'z') := rfl
  have hclass : isAddressChar c = (c.isAlphanum || c == '_' || c == '-') := by
    rw [isAddressChar, ← hupper, ← hlower]
    rfl
  rw [hclass, Bool.or_eq_true, Bool.or_eq_true, beq_iff_eq, beq_iff_eq, or_assoc]
  rfl

/-- The characters of addresses lie between the hyphen and the last letter. -/
theorem AddressChar.bounds {c : Char} (h : AddressChar c) : 0x2D ≤ c.toNat ∧ c.toNat ≤ 0x7A := by
  rw [← isAddressChar_iff, isAddressChar] at h
  simp only [Bool.or_eq_true, Bool.and_eq_true, decide_eq_true_eq, beq_iff_eq, Char.le_def,
    UInt32.le_iff_toNat_le] at h
  rcases h with (hletter | rfl) | rfl
  · change (((65 ≤ c.toNat ∧ c.toNat ≤ 90) ∨ (97 ≤ c.toNat ∧ c.toNat ≤ 122)) ∨
      (48 ≤ c.toNat ∧ c.toNat ≤ 57)) at hletter
    omega
  all_goals decide

theorem startsAddress_iff (cs : List Char) :
    startsAddress cs = true ↔ ∃ a, IsAddress a ∧ a <+: cs := by
  constructor
  · intro h
    unfold startsAddress at h
    split at h
    case h_1 rest =>
      simp only [Bool.and_eq_true, beq_iff_eq, List.all_eq_true, isAddressChar_iff] at h
      refine ⟨_, ⟨rest.take 46, rfl, h.1, h.2⟩, ?_⟩
      rw [List.cons_prefix_cons, List.cons_prefix_cons]
      exact ⟨rfl, rfl, List.take_prefix 46 rest⟩
    case h_2 => cases h
  · rintro ⟨_, ⟨body, rfl, hlength, hbody⟩, rest, rfl⟩
    have htake : (body ++ rest).take 46 = body := List.take_left' hlength
    simp only [List.cons_append, startsAddress, htake, hlength, Bool.and_eq_true, beq_iff_eq,
      List.all_eq_true, isAddressChar_iff, true_and]
    exact hbody

theorem addressed_nil : ¬ Addressed [] := by
  rintro ⟨a, ha, hinfix⟩
  obtain ⟨rest, rfl⟩ := ha.exists_cons
  cases List.infix_nil.1 hinfix

/-- An address stands at the start or behind the first character. -/
theorem addressed_cons (c : Char) (cs : List Char) :
    Addressed (c :: cs) ↔ (∃ a, IsAddress a ∧ a <+: c :: cs) ∨ Addressed cs := by
  simp only [Addressed, List.infix_cons_iff, and_or_left, exists_or]

theorem holdsAddress_iff (cs : List Char) : holdsAddress cs = true ↔ Addressed cs := by
  induction cs with
  | nil => exact iff_of_false (by decide) addressed_nil
  | cons c cs ih => rw [holdsAddress, Bool.or_eq_true, startsAddress_iff, ih, addressed_cons]

/-! ## What parts addresses -/

/-- An address does not go beyond a character that it cannot have. -/
theorem prefix_of_break {a xs ys : List Char} {c : Char} (ha : ∀ x ∈ a, AddressChar x)
    (hc : ¬ AddressChar c) (h : a <+: xs ++ c :: ys) : a <+: xs := by
  rcases Nat.le_total a.length xs.length with hle | hle
  · exact List.prefix_of_prefix_length_le h (List.prefix_append xs _) hle
  · obtain ⟨rest, rfl⟩ := List.prefix_of_prefix_length_le (List.prefix_append xs (c :: ys)) h hle
    rw [List.prefix_append_right_inj] at h
    cases rest with
    | nil => rw [List.append_nil]
    | cons d rest =>
      obtain ⟨rfl, -⟩ := List.cons_prefix_cons.1 h
      exact absurd (ha d (List.mem_append_right xs List.mem_cons_self)) hc

theorem addressed_break {c : Char} (hc : ¬ AddressChar c) (xs ys : List Char) :
    Addressed (xs ++ c :: ys) ↔ Addressed xs ∨ Addressed ys := by
  induction xs with
  | nil =>
    rw [List.nil_append, addressed_cons, or_comm]
    refine or_congr_right (iff_of_false ?_ addressed_nil) |>.trans or_comm
    rintro ⟨a, ha, hprefix⟩
    obtain ⟨rest, rfl⟩ := ha.exists_cons
    have hnil : _ <+: [] := prefix_of_break ha.chars hc hprefix
    cases List.prefix_nil.1 hnil
  | cons x xs ih =>
    rw [List.cons_append, addressed_cons, ih, addressed_cons, or_assoc]
    refine or_congr_left (exists_congr fun a => and_congr_right fun ha => ⟨fun h => ?_, fun h => ?_⟩)
    · exact prefix_of_break ha.chars hc h
    · exact h.trans (List.prefix_append (x :: xs) _)

theorem addressed_cons_break {c : Char} (hc : ¬ AddressChar c) (ys : List Char) :
    Addressed (c :: ys) ↔ Addressed ys :=
  (addressed_break hc [] ys).trans (or_iff_right addressed_nil)

/-- What starts with a character that no address has, or is empty, is parted from what comes before. -/
theorem addressed_append {ys : List Char} (h : ∀ c rest, ys = c :: rest → ¬ AddressChar c)
    (xs : List Char) : Addressed (xs ++ ys) ↔ Addressed xs ∨ Addressed ys := by
  cases ys with
  | nil => rw [List.append_nil, or_iff_left addressed_nil]
  | cons c ys => rw [addressed_break (h c ys rfl), addressed_cons_break (h c ys rfl)]

/-- Before what no address can start in, none is lost. -/
theorem addressed_quiet {xs : List Char} (h : 'E' ∉ xs) (ys : List Char) :
    Addressed (xs ++ ys) ↔ Addressed ys := by
  induction xs with
  | nil => rw [List.nil_append]
  | cons x xs ih =>
    rw [List.cons_append, addressed_cons, ih fun hmem => h (List.mem_cons_of_mem x hmem)]
    refine or_iff_right ?_
    rintro ⟨a, ha, hprefix⟩
    obtain ⟨rest, rfl⟩ := ha.exists_cons
    obtain ⟨rfl, -⟩ := List.cons_prefix_cons.1 hprefix
    exact h List.mem_cons_self

theorem not_addressed_of_quiet {xs : List Char} (h : 'E' ∉ xs) : ¬ Addressed xs := by
  rw [← List.append_nil xs, addressed_quiet h]
  exact addressed_nil

namespace Json

open Text

/-! ## Strings -/

theorem ne_digitChar : ∀ k < 16, 'E' ≠ Nat.digitChar k := by decide

theorem quiet_unitEscapes (c : Char) : 'E' ∉ unitEscapes c := by
  intro hmem
  obtain ⟨u, hu, hmem⟩ := List.mem_flatMap.1 hmem
  have hu := unit_lt hu
  rw [hexPadded_four hu] at hmem
  have hletters : ('E' : Char) ≠ '\\' ∧ ('E' : Char) ≠ 'u' := by decide
  simp only [List.mem_cons, List.not_mem_nil, or_false, hletters.1, hletters.2, false_or] at hmem
  rcases hmem with hmem | hmem | hmem | hmem <;> exact ne_digitChar _ (by omega) hmem

theorem unitEscapes_cons (c : Char) : ∃ tail, unitEscapes c = '\\' :: tail := by
  obtain ⟨hunits, -⟩ | ⟨high, low, hunits, -⟩ := unitsOfChar_cases c
  · rw [unitEscapes, hunits, List.flatMap_singleton]
    exact ⟨_, rfl⟩
  · rw [unitEscapes, hunits, List.flatMap_cons]
    exact ⟨_, rfl⟩

/-- A character is written as it is, or it is none of an address and what is written for it starts
with a backslash and has no capital `E`. -/
theorem writeChar_cases (c : Char) :
    writeChar true c = [c] ∨
    ¬ AddressChar c ∧ ∃ tail, writeChar true c = '\\' :: tail ∧ 'E' ∉ tail := by
  unfold writeChar
  split
  case isTrue h => exact .inr ⟨by rw [h]; decide, _, rfl, by decide⟩
  split
  case isTrue h => exact .inr ⟨by rw [h]; decide, _, rfl, by decide⟩
  split
  case isTrue h => exact .inr ⟨by rw [h]; decide, _, rfl, by decide⟩
  split
  case isTrue h => exact .inr ⟨by rw [h]; decide, _, rfl, by decide⟩
  split
  case isTrue h => exact .inr ⟨by rw [h]; decide, _, rfl, by decide⟩
  split
  case isTrue h => exact .inr ⟨by rw [h]; decide, _, rfl, by decide⟩
  split
  case isTrue h => exact .inr ⟨by rw [h]; decide, _, rfl, by decide⟩
  split
  case isTrue h =>
    refine .inr ⟨fun hc => ?_, ?_⟩
    · have hbounds := hc.bounds
      omega
    · obtain ⟨tail, htail⟩ := unitEscapes_cons c
      refine ⟨tail, htail, fun hmem => quiet_unitEscapes c ?_⟩
      rw [htail]
      exact List.mem_cons_of_mem _ hmem
  case isFalse => exact .inl rfl

/-- Characters of an address that start what is written start the string. -/
theorem prefix_escaped {a : List Char} (ha : ∀ x ∈ a, AddressChar x) (cs : List Char) :
    a <+: cs.flatMap (writeChar true) ↔ a <+: cs := by
  induction cs generalizing a with
  | nil => rw [List.flatMap_nil]
  | cons c cs ih =>
    cases a with
    | nil => exact iff_of_true List.nil_prefix List.nil_prefix
    | cons x a =>
      obtain ⟨hx, ha⟩ := List.forall_mem_cons.1 ha
      rw [List.flatMap_cons, List.cons_prefix_cons]
      rcases writeChar_cases c with hplain | ⟨hc, tail, hescape, -⟩
      · rw [hplain, List.singleton_append, List.cons_prefix_cons, ih ha]
      · rw [hescape, List.cons_append, List.cons_prefix_cons]
        refine iff_of_false ?_ ?_
        · rintro ⟨rfl, -⟩
          exact absurd hx (by decide)
        · rintro ⟨rfl, -⟩
          exact hc hx

/-- Addresses in what is written for a string are those in the string. -/
theorem addressed_escaped (cs : List Char) :
    Addressed (cs.flatMap (writeChar true)) ↔ Addressed cs := by
  induction cs with
  | nil => rw [List.flatMap_nil]
  | cons c cs ih =>
    have hstart : ∀ a, IsAddress a → (a <+: (c :: cs).flatMap (writeChar true) ↔ a <+: c :: cs) :=
      fun a ha => prefix_escaped ha.chars (c :: cs)
    rcases writeChar_cases c with hplain | ⟨hc, tail, hescape, hquiet⟩
    · rw [List.flatMap_cons, hplain, List.singleton_append] at hstart ⊢
      rw [addressed_cons, addressed_cons, ih]
      exact or_congr_left (exists_congr fun a => and_congr_right fun ha => hstart a ha)
    · rw [List.flatMap_cons, hescape, List.cons_append, addressed_cons_break (by decide),
        addressed_quiet hquiet, ih, addressed_cons_break hc]

theorem addressed_writeString (s : String) :
    Addressed (writeString true s) ↔ Addressed s.toList := by
  rw [writeString, List.cons_append, addressed_cons_break (by decide), addressed_break (by decide),
    or_iff_left addressed_nil, addressed_escaped]

/-! ## Numbers -/

theorem quiet_of_isDigit {cs : List Char} (h : ∀ c ∈ cs, isDigit c = true) : 'E' ∉ cs :=
  fun hmem => absurd (h 'E' hmem) (by decide)

theorem quiet_writeInt (n : Int) : 'E' ∉ writeInt n := by
  have hdigits : ∀ k : Nat, 'E' ∉ (toString k).toList := by
    intro k
    show 'E' ∉ (Nat.repr k).toList
    rw [Nat.repr_eq_ofList_toDigits, String.toList_ofList]
    exact quiet_of_isDigit fun c hc => isDigit_digitsOf hc
  cases n with
  | ofNat k => exact hdigits k
  | negSucc k =>
    show 'E' ∉ ("-" ++ Nat.repr (k + 1)).toList
    rw [String.toList_append, List.mem_append]
    exact not_or.2 ⟨by decide, hdigits (k + 1)⟩

/-- The letter of an exponent is a small one. -/
theorem quiet_write (d : Decimal) : 'E' ∉ floatLayout.write d := by
  have hdigits : ∀ n, 'E' ∉ Decimal.digitsOf n := fun n =>
    quiet_of_isDigit fun c hc => isDigit_digitsOf hc
  have hzeros : ∀ n, 'E' ∉ Decimal.zeros n := fun n => quiet_of_isDigit fun c hc => isDigit_zeros hc
  have htake : ∀ (n : Nat) {cs : List Char}, 'E' ∉ cs → 'E' ∉ cs.take n :=
    fun n cs h hmem => h (List.mem_of_mem_take hmem)
  have hdrop : ∀ (n : Nat) {cs : List Char}, 'E' ∉ cs → 'E' ∉ cs.drop n :=
    fun n cs h hmem => h (List.mem_of_mem_drop hmem)
  have happend : ∀ {cs ds : List Char}, 'E' ∉ cs → 'E' ∉ ds → 'E' ∉ cs ++ ds :=
    fun hcs hds => List.mem_append.not.2 (not_or.2 ⟨hcs, hds⟩)
  have hcons : ∀ {c : Char} {cs : List Char}, 'E' ≠ c → 'E' ∉ cs → 'E' ∉ c :: cs :=
    fun hc hcs => List.mem_cons.not.2 (not_or.2 ⟨hc, hcs⟩)
  unfold Decimal.Layout.write
  dsimp only
  generalize (if d.digits = 0 then (0 : Int) else _) = lead
  split
  · refine happend (happend (htake 1 (hdigits _)) ?_) (hcons (by decide) (hcons ?_ ?_))
    · split
      · exact List.not_mem_nil
      · exact hcons (by decide) (hdrop 1 (hdigits _))
    · split <;> decide
    · split
      · exact hcons (by decide) (hdigits _)
      · exact hdigits _
  · split
    · exact happend (hcons (by decide) (hcons (by decide) (hzeros _))) (hdigits _)
    · refine happend (htake _ (happend (hdigits _) (hzeros _))) (hcons (by decide) ?_)
      split
      · decide
      · exact hdrop _ (happend (hdigits _) (hzeros _))

theorem quiet_writeFloat (x : Float) : 'E' ∉ writeFloat x := by
  unfold writeFloat Decimal.Layout.text
  split
  · decide
  · split <;> decide
  case h_3 negative m e _ =>
    rw [String.toList_ofList, List.mem_append]
    refine not_or.2 ⟨?_, quiet_write _⟩
    cases negative <;> decide

/-! ## Documents -/

/-- A string stands somewhere in a document, as a value or as a key. -/
inductive Mentions (t : String) : Json → Prop
  | value : Mentions t (.str t)
  | item {x : Json} {items : List Json} (hmem : x ∈ items) (h : Mentions t x) :
    Mentions t (.arr items)
  | key {x : Json} {pairs : List (String × Json)} (hmem : (t, x) ∈ pairs) : Mentions t (.obj pairs)
  | field {key : String} {x : Json} {pairs : List (String × Json)} (hmem : (key, x) ∈ pairs)
    (h : Mentions t x) : Mentions t (.obj pairs)

/-- An address stands in a string of the document. -/
def Exposes (doc : Json) : Prop := ∃ t, Mentions t doc ∧ Addressed t.toList

theorem exposes_str (s : String) : Exposes (.str s) ↔ Addressed s.toList := by
  constructor
  · rintro ⟨t, ⟨⟩, ht⟩
    exact ht
  · exact fun hs => ⟨s, .value, hs⟩

theorem exposes_arr (items : List Json) : Exposes (.arr items) ↔ ∃ x ∈ items, Exposes x := by
  constructor
  · rintro ⟨t, hmentions, ht⟩
    cases hmentions with
    | item hmem h => exact ⟨_, hmem, t, h, ht⟩
  · rintro ⟨x, hmem, t, h, ht⟩
    exact ⟨t, .item hmem h, ht⟩

theorem exposes_obj (pairs : List (String × Json)) :
    Exposes (.obj pairs) ↔ ∃ p ∈ pairs, Addressed p.1.toList ∨ Exposes p.2 := by
  constructor
  · rintro ⟨t, hmentions, ht⟩
    cases hmentions with
    | key hmem => exact ⟨_, hmem, .inl ht⟩
    | field hmem h => exact ⟨_, hmem, .inr ⟨t, h, ht⟩⟩
  · rintro ⟨⟨key, x⟩, hmem, hkey | ⟨t, h, ht⟩⟩
    · exact ⟨key, .key hmem, hkey⟩
    · exact ⟨t, .field hmem h, ht⟩

/-- Items after the first start with a separator, if there are any. -/
theorem parted_writeItems (level : Nat) (xs : List Json) :
    ∀ c rest, writeItems .line level xs = c :: rest → ¬ AddressChar c := by
  intro c rest h
  cases xs with
  | nil => cases h
  | cons x xs =>
    cases h
    decide

theorem parted_writePairs (level : Nat) (ps : List (String × Json)) :
    ∀ c rest, writePairs .line level ps = c :: rest → ¬ AddressChar c := by
  intro c rest h
  cases ps with
  | nil => cases h
  | cons p ps =>
    cases h
    decide

theorem between_line (level : Nat) : Style.line.between level = [',', ' '] := rfl

theorem addressed_writeItems (level : Nat) (xs : List Json) :
    Addressed (writeItems .line level xs) ↔ ∃ x ∈ xs, Addressed (write .line level x) := by
  induction xs with
  | nil => simp [writeItems, addressed_nil]
  | cons x xs ih =>
    rw [writeItems, between_line, List.append_assoc, addressed_quiet (by decide),
      addressed_append (parted_writeItems level xs), ih, List.exists_mem_cons_iff]

theorem addressed_writePair (level : Nat) (p : String × Json) :
    Addressed (writePair .line level p) ↔
      Addressed p.1.toList ∨ Addressed (write .line level p.2) := by
  obtain ⟨key, x⟩ := p
  have hcolon : Style.line.keySeparator.toList = [':', ' '] := by decide
  rw [writePair, hcolon, List.append_assoc, List.cons_append, addressed_break (by decide)]
  exact or_congr (addressed_writeString key) (addressed_cons_break (by decide) _)

theorem addressed_writePairs (level : Nat) (ps : List (String × Json)) :
    Addressed (writePairs .line level ps) ↔ ∃ p ∈ ps, Addressed (writePair .line level p) := by
  induction ps with
  | nil => simp [writePairs, addressed_nil]
  | cons p ps ih =>
    rw [writePairs, between_line, List.append_assoc, addressed_quiet (by decide),
      addressed_append (parted_writePairs level ps), ih, List.exists_mem_cons_iff]

theorem newline_line (level : Nat) : Style.line.newline level = [] := rfl

/-- Literals and numbers hold no string, and no capital `E` is written for them. -/
theorem addressed_silent {level : Nat} {x : Json} (hnone : ∀ t, ¬ Mentions t x)
    (hquiet : 'E' ∉ write .line level x) : Addressed (write .line level x) ↔ x.Exposes :=
  iff_of_false (not_addressed_of_quiet hquiet) fun ⟨t, hmentions, _⟩ => hnone t hmentions

/-- Brackets around a text make no difference. -/
theorem addressed_bracketed {opening closing : Char} (hopen : ¬ AddressChar opening)
    (hclose : ¬ AddressChar closing) (cs : List Char) :
    Addressed (opening :: cs ++ [closing]) ↔ Addressed cs := by
  rw [addressed_break hclose, or_iff_left addressed_nil, addressed_cons_break hopen]

theorem addressed_write_arr (level : Nat) (items : List Json) :
    Addressed (write .line level (.arr items)) ↔
      ∃ x ∈ items, Addressed (write .line (level + 1) x) := by
  cases items with
  | nil => exact iff_of_false (not_addressed_of_quiet (show 'E' ∉ ['[', ']'] by decide)) (by simp)
  | cons x xs =>
    have hopen : ¬ AddressChar '[' := by decide
    have hclose : ¬ AddressChar ']' := by decide
    rw [write, newline_line, newline_line, List.append_nil, List.singleton_append, List.cons_append,
      addressed_bracketed hopen hclose, addressed_append (parted_writeItems (level + 1) xs),
      addressed_writeItems, List.exists_mem_cons_iff]

theorem addressed_write_obj (level : Nat) (pairs : List (String × Json)) :
    Addressed (write .line level (.obj pairs)) ↔
      ∃ p ∈ pairs, Addressed p.1.toList ∨ Addressed (write .line (level + 1) p.2) := by
  simp only [← addressed_writePair]
  cases pairs with
  | nil =>
    exact iff_of_false (not_addressed_of_quiet (show 'E' ∉ ['\x7b', '\x7d'] by decide)) (by simp)
  | cons p ps =>
    have hopen : ¬ AddressChar '\x7b' := by decide
    have hclose : ¬ AddressChar '\x7d' := by decide
    rw [write, newline_line, newline_line, List.append_nil, List.singleton_append, List.cons_append,
      addressed_bracketed hopen hclose, addressed_append (parted_writePairs (level + 1) ps),
      addressed_writePairs, List.exists_mem_cons_iff]

/-- Addresses in the text of a document are those in its strings. -/
theorem addressed_write (level : Nat) (doc : Json) :
    Addressed (write .line level doc) ↔ doc.Exposes := by
  induction doc using Json.induction generalizing level with
  | null => exact addressed_silent (by rintro t ⟨⟩) (show 'E' ∉ "null".toList by decide)
  | bool b =>
    cases b
    · exact addressed_silent (by rintro t ⟨⟩) (show 'E' ∉ "false".toList by decide)
    · exact addressed_silent (by rintro t ⟨⟩) (show 'E' ∉ "true".toList by decide)
  | int n => exact addressed_silent (by rintro t ⟨⟩) (quiet_writeInt n)
  | num x => exact addressed_silent (by rintro t ⟨⟩) (quiet_writeFloat x)
  | str s => exact (addressed_writeString s).trans (exposes_str s).symm
  | arr items ih =>
    rw [addressed_write_arr, exposes_arr]
    exact exists_congr fun x => and_congr_right fun hx => ih x hx (level + 1)
  | obj pairs ih =>
    rw [addressed_write_obj, exposes_obj]
    exact exists_congr fun p => and_congr_right fun hp => or_congr_right (ih p hp (level + 1))

/-- The letter of an escape may stand right before an address. -/
example : Addressed (write .line 0 (.str ("\nEQ" ++ String.ofList (List.replicate 46 'a')))) :=
  (holdsAddress_iff _).1 (by decide +kernel)

end Json

/-! ## The check -/

theorem Block.holdsAddress_iff (b : Block) :
    b.holdsAddress = true ↔ (Json.obj b.config).Exposes := by
  rw [Block.holdsAddress, Tradeflow.holdsAddress_iff, Json.addressed_write]

/-- There is one check for addresses, and it fails exactly if `EQ` and 46 letters, digits, underscores
or hyphens stand one after the other in a string that occurs in the settings of a block, as a key or
as a value at any depth. -/
theorem Strategy.addressCheck_fails_iff (R : Type) [Scalar R] (config : ValidationConfig)
    (s : Strategy) :
    ∃ check, (s.securityChecks R config).filter (·.name == "No hardcoded addresses") = [check] ∧
      (check.passed = false ↔
        ∃ b ∈ s.blocks, ∃ t, Json.Mentions t (.obj b.config) ∧
          ∃ a, IsAddress a ∧ a <:+: t.toList) := by
  refine ⟨.make "No hardcoded addresses" (!s.blocks.any Block.holdsAddress)
    "Strategy contains hardcoded addresses - use variables instead", rfl, ?_⟩
  show (!s.blocks.any Block.holdsAddress) = false ↔ _
  rw [Bool.not_eq_false', List.any_eq_true]
  exact exists_congr fun b => and_congr_right fun _ => b.holdsAddress_iff

end Tradeflow
