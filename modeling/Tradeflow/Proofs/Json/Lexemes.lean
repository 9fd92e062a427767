/-
  Strings and numbers in documents: what is written is read back, whatever follows a string, and
  whatever follows a number that does not go on with it (`Ends`). A character is written as it is,
  as an escape of one letter, or as the escapes of its one or two code units; reading undoes each
  (`readChars_writeChar`). A double is written in one of three layouts, whose digits and exponent
  stand for its shortest decimal (`readsAs_write`).
  `readString_writeString`, `readNumber_writeInt`, `readNumber_writeFloat`: the three kinds of
  lexemes.
-/
import Tradeflow.Json.Printer
import Tradeflow.Json.Reader
import Tradeflow.Proofs.Number.Shortest

namespace Tradeflow

/-! ## Hexadecimal digits -/

namespace Text

theorem hexDigit?_digitChar : ∀ k < 16, hexDigit? (Nat.digitChar k) = some k := by decide

theorem hexPadded_four {n : Nat} (h : n < 65536) :
    hexPadded 4 n = [Nat.digitChar (n / 4096), Nat.digitChar (n / 256 % 16),
      Nat.digitChar (n / 16 % 16), Nat.digitChar (n % 16)] := by
  have hstep : ∀ k, 16 ≤ k → Nat.toDigits 16 k = Nat.toDigits 16 (k / 16) ++ [(k % 16).digitChar] :=
    fun k hk => Nat.toDigits_of_base_le (by decide) hk
  have hlast : ∀ k < 16, Nat.toDigits 16 k = [k.digitChar] := fun k hk => Nat.toDigits_of_lt_base hk
  unfold hexPadded hex
  dsimp only
  rcases Nat.lt_or_ge n 16 with h1 | h1
  · rw [hlast n h1, show n / 4096 = 0 by omega, show n / 256 % 16 = 0 by omega,
      show n / 16 % 16 = 0 by omega, Nat.mod_eq_of_lt h1]
    rfl
  · rcases Nat.lt_or_ge n 256 with h2 | h2
    · rw [hstep n h1, hlast (n / 16) (by omega), show n / 4096 = 0 by omega,
        show n / 256 % 16 = 0 by omega, show n / 16 % 16 = n / 16 by omega]
      rfl
    · rcases Nat.lt_or_ge n 4096 with h3 | h3
      · rw [hstep n h1, hstep (n / 16) (by omega), hlast (n / 16 / 16) (by omega),
          show n / 4096 = 0 by omega, show n / 256 % 16 = n / 16 / 16 by omega]
        rfl
      · rw [hstep n h1, hstep (n / 16) (by omega), hstep (n / 16 / 16) (by omega),
          hlast (n / 16 / 16 / 16) (by omega), show n / 4096 = n / 16 / 16 / 16 by omega,
          show n / 256 % 16 = n / 16 / 16 % 16 by omega]
        rfl

/-- Four hexadecimal digits have the value they were written for. -/
theorem hexValue?_hexPadded {n : Nat} (h : n < 65536) : hexValue? (hexPadded 4 n) = some n := by
  rw [hexPadded_four h]
  simp only [hexValue?, List.foldl, hexDigit?_digitChar (n / 4096) (by omega),
    hexDigit?_digitChar (n / 256 % 16) (by omega), hexDigit?_digitChar (n / 16 % 16) (by omega),
    hexDigit?_digitChar (n % 16) (by omega)]
  congr 1
  omega

end Text

namespace Json

open Text

/-! ## Strings -/

/-- Four digits are read when something follows them. -/
theorem hex4?_hexPadded {n : Nat} (h : n < 65536) {rest : List Char} (hrest : rest ≠ []) :
    hex4? (hexPadded 4 n ++ rest) = some n := by
  obtain ⟨c, rest, rfl⟩ := List.exists_cons_of_ne_nil hrest
  have hvalue := hexValue?_hexPadded h
  rw [hexPadded_four h] at hvalue ⊢
  exact hvalue

theorem length_hexPadded {n : Nat} (h : n < 65536) : (hexPadded 4 n).length = 4 := by
  rw [hexPadded_four h]
  rfl

theorem readChars_skip (opening done : List Char) (cs rest : List Char) :
    readChars opening cs.length done (cs ++ rest) = readChars opening 0 done rest := by
  induction cs with
  | nil => rfl
  | cons c cs ih =>
    rw [List.length_cons, List.cons_append, readChars]
    exact ih

theorem drop_hexPadded {n : Nat} (h : n < 65536) (rest : List Char) :
    (hexPadded 4 n ++ rest).drop 4 = rest :=
  List.drop_left' (length_hexPadded h)

/-- A code unit that is not half of a pair is read as its character. -/
theorem readEscape_unit {n : Nat} (h : n < 65536) (hwhole : n < 0xD800 ∨ 0xE000 ≤ n)
    (opening : List Char) {rest : List Char} (hrest : rest ≠ []) :
    readEscape opening ('u' :: (hexPadded 4 n ++ rest)) = .ok (Char.ofNat n, 5) := by
  have hlow : lowHalf? n rest = .ok none := by
    unfold lowHalf?
    split
    · rw [if_neg (by omega)]
    · rfl
  rw [readEscape, hex4?_hexPadded h hrest, drop_hexPadded h]
  dsimp only
  rw [hlow]
  dsimp only
  rw [charOf, if_neg (by omega)]

/-- A pair of code units is read as its character. -/
theorem readEscape_pair {high low : Nat} (hhigh : 0xD800 ≤ high ∧ high < 0xDC00)
    (hlow : 0xDC00 ≤ low ∧ low < 0xE000) (opening : List Char) {rest : List Char}
    (hrest : rest ≠ []) :
    readEscape opening ('u' :: (hexPadded 4 high ++ '\\' :: 'u' :: (hexPadded 4 low ++ rest))) =
      .ok (Char.ofNat (0x10000 + (high - 0xD800) * 0x400 + (low - 0xDC00)), 11) := by
  have hhalf : lowHalf? high ('\\' :: 'u' :: (hexPadded 4 low ++ rest)) = .ok (some low) := by
    rw [lowHalf?, drop_hexPadded (by omega), hex4?_hexPadded (by omega) hrest]
    have hsome : (!rest.isEmpty) = true := by
      obtain ⟨c, rest, rfl⟩ := List.exists_cons_of_ne_nil hrest
      rfl
    rw [if_pos ⟨hhigh.1, hhigh.2, hsome⟩]
    dsimp only
    rw [if_pos hlow]
  rw [readEscape, hex4?_hexPadded (by omega) (List.cons_ne_nil _ _), drop_hexPadded (by omega)]
  dsimp only
  rw [hhalf]

/-- An escape is passed over and its character added. -/
theorem readChars_escape {opening done cs rest : List Char} {c : Char}
    (h : readEscape opening (cs ++ rest) = .ok (c, cs.length)) :
    readChars opening 0 done ('\\' :: (cs ++ rest)) = readChars opening 0 (c :: done) rest := by
  rw [readChars, if_neg (by decide), if_pos rfl, h]
  exact readChars_skip opening (c :: done) cs rest

theorem readChars_unitEscapes (opening done : List Char) (c : Char) {rest : List Char}
    (hrest : rest ≠ []) :
    readChars opening 0 done (unitEscapes c ++ rest) = readChars opening 0 (c :: done) rest := by
  obtain ⟨hunits, hone, hwhole⟩ | ⟨high, low, hunits, hh, hl, hnat⟩ := unitsOfChar_cases c
  · have hescape : unitEscapes c = '\\' :: 'u' :: hexPadded 4 c.toNat := by
      rw [unitEscapes, hunits, List.flatMap_singleton]
    have hunit := readEscape_unit hone hwhole opening hrest
    rw [Char.ofNat_toNat] at hunit
    have hlength : ('u' :: hexPadded 4 c.toNat).length = 5 := by
      rw [List.length_cons, length_hexPadded hone]
    rw [← hlength] at hunit
    rw [hescape]
    exact readChars_escape hunit
  · have hescape : unitEscapes c =
        '\\' :: ('u' :: hexPadded 4 high ++ '\\' :: 'u' :: hexPadded 4 low) := by
      rw [unitEscapes, hunits, List.flatMap_cons, List.flatMap_singleton]
      rfl
    have hpair := readEscape_pair hh hl opening hrest
    rw [hnat, Char.ofNat_toNat] at hpair
    rw [hescape, List.cons_append]
    refine readChars_escape ?_
    rw [List.append_assoc, List.cons_append, List.cons_append, List.cons_append, hpair,
      List.length_append, List.length_cons, List.length_cons, List.length_cons,
      length_hexPadded (by omega), length_hexPadded (by omega)]

/-- A written character is read as it was. -/
theorem readChars_writeChar (ascii : Bool) (opening done : List Char) (c : Char)
    {rest : List Char} (hrest : rest ≠ []) :
    readChars opening 0 done (writeChar ascii c ++ rest) =
      readChars opening 0 (c :: done) rest := by
  have hletter : ∀ x : Char, readEscape opening ([x] ++ rest) = .ok (c, [x].length) →
      readChars opening 0 done (['\\', x] ++ rest) = readChars opening 0 (c :: done) rest :=
    fun x h => readChars_escape h
  unfold writeChar
  split
  case isTrue h => exact hletter '"' (by rw [h]; rfl)
  case isFalse hquote =>
    split
    case isTrue h => exact hletter '\\' (by rw [h]; rfl)
    case isFalse hslash =>
      split
      case isTrue h => exact hletter 'n' (by rw [h]; rfl)
      split
      case isTrue h => exact hletter 'r' (by rw [h]; rfl)
      split
      case isTrue h => exact hletter 't' (by rw [h]; rfl)
      split
      case isTrue h => exact hletter 'f' (by rw [h]; rfl)
      split
      case isTrue h => exact hletter 'b' (by rw [h]; rfl)
      split
      case isTrue => exact readChars_unitEscapes opening done c hrest
      case isFalse hplain =>
        rw [List.singleton_append, readChars, if_neg hquote, if_neg hslash,
          if_neg fun hcontrol => hplain (.inl hcontrol)]

theorem readChars_flatMap (ascii : Bool) (opening : List Char) (s done rest : List Char) :
    readChars opening 0 done (s.flatMap (writeChar ascii) ++ '"' :: rest) =
      .ok (String.ofList (done.reverse ++ s), rest) := by
  induction s generalizing done with
  | nil =>
    rw [List.flatMap_nil, List.nil_append, readChars, if_pos rfl, List.append_nil]
  | cons c s ih =>
    have hne : s.flatMap (writeChar ascii) ++ '"' :: rest ≠ [] :=
      List.append_ne_nil_of_right_ne_nil _ (List.cons_ne_nil _ _)
    rw [List.flatMap_cons, List.append_assoc, readChars_writeChar ascii opening done c hne, ih,
      List.reverse_cons, List.append_assoc, List.singleton_append]

/-- A written string is read as it was. -/
theorem readString_writeString (ascii : Bool) (s : String) (rest : List Char) :
    readString (writeString ascii s ++ rest) = .ok (s, rest) := by
  unfold writeString
  rw [List.append_assoc, List.cons_append, readString, List.singleton_append, readChars_flatMap,
    List.reverse_nil, List.nil_append, String.ofList_toList]

/-! ## Runs of digits -/

section Digits

open Decimal (digitsOf zeros)

theorem isDigit_of_isDigit {c : Char} (h : c.isDigit = true) : isDigit c = true := by
  rw [Char.isDigit, Bool.and_eq_true, decide_eq_true_eq, decide_eq_true_eq] at h
  rw [isDigit, Bool.and_eq_true, decide_eq_true_eq, decide_eq_true_eq]
  exact h

theorem isDigit_digitsOf {n : Nat} {c : Char} (h : c ∈ digitsOf n) : isDigit c = true :=
  isDigit_of_isDigit (Nat.isDigit_of_mem_toDigits (by decide) (by decide) h)

theorem isDigit_zeros {n : Nat} {c : Char} (h : c ∈ zeros n) : isDigit c = true := by
  rw [List.eq_of_mem_replicate h]
  decide

theorem digitsValue_eq (cs : List Char) : digitsValue cs = Nat.ofDigitChars 10 cs 0 := by
  have hstep : (fun (n : Nat) (c : Char) => n * 10 + (c.toNat - 48)) =
      fun n c => 10 * n + (c.toNat - '0'.toNat) := by
    funext n c
    rw [Nat.mul_comm]
    rfl
  rw [digitsValue, hstep]
  rfl

theorem digitsValue_digitsOf (n : Nat) : digitsValue (digitsOf n) = n := by
  rw [digitsValue_eq]
  exact Nat.ofDigitChars_ten_toDigits

theorem digitsValue_append_zeros (cs : List Char) (n : Nat) :
    digitsValue (cs ++ zeros n) = digitsValue cs * 10 ^ n := by
  rw [digitsValue_eq, digitsValue_eq, Nat.ofDigitChars_append, zeros,
    Nat.ofDigitChars_replicate_zero, Nat.mul_comm]

theorem digitsValue_zeros_append (n : Nat) (cs : List Char) :
    digitsValue (zeros n ++ cs) = digitsValue cs := by
  rw [digitsValue_eq, digitsValue_eq, Nat.ofDigitChars_append, zeros,
    Nat.ofDigitChars_replicate_zero, Nat.mul_zero]

theorem digitsOf_zero : digitsOf 0 = ['0'] := Nat.toDigits_zero 10

/-- The digits of a positive number do not start with zero. -/
theorem digitsOf_head {n : Nat} (h : n ≠ 0) : ∃ c cs, digitsOf n = c :: cs ∧ c ≠ '0' := by
  induction n using Nat.strongRecOn with
  | _ n ih =>
    rcases Nat.lt_or_ge n 10 with hlt | hge
    · refine ⟨n.digitChar, [], Nat.toDigits_of_lt_base hlt, ?_⟩
      have hall : ∀ k < 10, k ≠ 0 → Nat.digitChar k ≠ '0' := by decide
      exact hall n hlt h
    · obtain ⟨c, cs, hhead, hc⟩ := ih (n / 10) (by omega) (by omega)
      refine ⟨c, cs ++ [(n % 10).digitChar], ?_, hc⟩
      rw [digitsOf, Nat.toDigits_of_base_le (by decide) hge]
      rw [digitsOf] at hhead
      rw [hhead, List.cons_append]

theorem digitsOf_ne_nil (n : Nat) : digitsOf n ≠ [] := Nat.toDigits_ne_nil

end Digits

/-! ## Numbers -/

/-- A text that does not start with a digit. -/
def NoDigit (rest : List Char) : Prop := ∀ c cs, rest = c :: cs → isDigit c = false

/-- What does not go on with a number. -/
def Ends (rest : List Char) : Prop :=
  ∀ c cs, rest = c :: cs → isDigit c = false ∧ c ≠ '.' ∧ c ≠ 'e' ∧ c ≠ 'E'

theorem Ends.noDigit {rest : List Char} (h : Ends rest) : NoDigit rest :=
  fun c cs hrest => (h c cs hrest).1

theorem noDigit_cons {c : Char} {rest : List Char} (h : isDigit c = false) :
    NoDigit (c :: rest) := by
  intro d ds hds
  cases hds
  exact h

theorem takeWhile_digits {ds rest : List Char} (hds : ∀ c ∈ ds, isDigit c = true)
    (hrest : NoDigit rest) : (ds ++ rest).takeWhile isDigit = ds ∧
      (ds ++ rest).dropWhile isDigit = rest := by
  have hstop : rest.takeWhile isDigit = [] ∧ rest.dropWhile isDigit = rest := by
    cases rest with
    | nil => exact ⟨rfl, rfl⟩
    | cons c rest =>
      have hc := hrest c rest rfl
      exact ⟨List.takeWhile_cons_of_neg (by simp [hc]), List.dropWhile_cons_of_neg (by simp [hc])⟩
  rw [List.takeWhile_append_of_pos hds, List.dropWhile_append_of_pos hds, hstop.1, hstop.2,
    List.append_nil]
  exact ⟨rfl, rfl⟩

/-- Digits that may stand before a point: a zero alone, or digits that do not start with zero. -/
structure WholePart (ds : List Char) : Prop where
  digits : ∀ c ∈ ds, isDigit c = true
  form : ds = ['0'] ∨ ∃ c cs, ds = c :: cs ∧ c ≠ '0'

theorem wholePart_cons {c : Char} {cs : List Char} (hdigits : ∀ d ∈ c :: cs, isDigit d = true)
    (hc : c ≠ '0') : WholePart (c :: cs) := ⟨hdigits, .inr ⟨c, cs, rfl, hc⟩⟩

theorem wholePart_digitsOf (n : Nat) : WholePart (Decimal.digitsOf n) where
  digits _ hc := isDigit_digitsOf hc
  form := by
    rcases Nat.eq_zero_or_pos n with rfl | hn
    · exact .inl digitsOf_zero
    · exact .inr (digitsOf_head (Nat.ne_of_gt hn))

theorem wholePart_zero : WholePart ['0'] := wholePart_digitsOf 0

theorem wholePart_append_zeros {n : Nat} (h : n ≠ 0) (fill : Nat) :
    WholePart (Decimal.digitsOf n ++ Decimal.zeros fill) := by
  obtain ⟨c, cs, hcs, hc⟩ := digitsOf_head h
  have hall := (wholePart_digitsOf n).digits
  rw [hcs] at hall ⊢
  exact wholePart_cons (List.forall_mem_append.2 ⟨hall, fun x hx => isDigit_zeros hx⟩) hc

theorem wholeDigits_append {ds rest : List Char} (h : WholePart ds) (hrest : NoDigit rest) :
    wholeDigits (ds ++ rest) = some (ds, rest) := by
  obtain ⟨htake, hdrop⟩ := takeWhile_digits h.digits hrest
  rcases h.form with rfl | ⟨c, cs, rfl, hc⟩
  · rfl
  · unfold wholeDigits
    split
    case h_1 hzero =>
      rw [List.cons_append] at hzero
      exact absurd (List.cons.inj hzero).1 hc
    case h_2 =>
      dsimp only
      rw [htake, hdrop]
      rfl

theorem fractionDigits_append {ds rest : List Char} (hds : ∀ c ∈ ds, isDigit c = true)
    (hne : ds ≠ []) (hrest : NoDigit rest) :
    fractionDigits ('.' :: (ds ++ rest)) = (ds, rest) := by
  obtain ⟨htake, hdrop⟩ := takeWhile_digits hds hrest
  rw [fractionDigits, htake, hdrop, if_neg (by simpa using hne)]

theorem fractionDigits_none {rest : List Char} (h : ∀ cs, rest ≠ '.' :: cs) :
    fractionDigits rest = ([], rest) := by
  unfold fractionDigits
  split
  case h_1 cs => exact absurd rfl (h cs)
  case h_2 => rfl

theorem exponentPart_none {rest : List Char} (h : Ends rest) :
    exponentPart rest = (none, rest) := by
  unfold exponentPart
  split
  · rfl
  case h_2 c cs =>
    obtain ⟨-, -, he, hE⟩ := h c cs rfl
    rw [if_neg (by simp [he, hE])]

theorem exponentPart_append (negative : Bool) {ds rest : List Char}
    (hds : ∀ c ∈ ds, isDigit c = true) (hne : ds ≠ []) (hrest : NoDigit rest) :
    exponentPart ('e' :: (if negative then '-' else '+') :: (ds ++ rest)) =
      (some (if negative then -(digitsValue ds : Int) else digitsValue ds), rest) := by
  obtain ⟨htake, hdrop⟩ := takeWhile_digits hds hrest
  cases negative <;>
    simp [exponentPart, htake, hdrop, hne]

/-- The reading of a number from behind its sign on; `text` has the sign. -/
def readUnsigned (text : List Char) (negative : Bool) (body : List Char) : Step Json :=
  match wholeDigits body with
  | none => .error ⟨.value, text⟩
  | some (whole, rest) =>
    let (fraction, rest) := fractionDigits rest
    let (exponent, rest) := exponentPart rest
    if fraction.isEmpty ∧ exponent.isNone then
      let n : Int := digitsValue whole
      .ok (.int (if negative then -n else n), rest)
    else
      let e : Int := exponent.getD 0 - fraction.length
      .ok (.num (Double.ofDecimal negative (digitsValue (whole ++ fraction)) e), rest)

theorem readNumber_unsigned {body : List Char} (h : ∀ cs, body ≠ '-' :: cs) :
    readNumber body = readUnsigned body false body := by
  unfold readNumber
  split
  case h_1 negative body' hsign =>
    split at hsign
    case h_1 cs => exact absurd rfl (h cs)
    case h_2 =>
      cases hsign
      rfl

theorem wholeDigits_none {c : Char} (h : isDigit c = false) (cs : List Char) :
    wholeDigits (c :: cs) = none := by
  unfold wholeDigits
  split
  case h_1 hzero =>
    cases hzero
    exact absurd h (by decide)
  case h_2 =>
    dsimp only
    rw [List.takeWhile_cons_of_neg (by simp [h])]
    rfl

/-- A sign is read first, and no number starts with two. -/
theorem readNumber_sign (negative : Bool) {body : List Char} {p : List Char × List Char}
    (h : wholeDigits body = some p) :
    readNumber ((if negative then ['-'] else []) ++ body) =
      readUnsigned ((if negative then ['-'] else []) ++ body) negative body := by
  cases negative with
  | true => rfl
  | false =>
    show readNumber body = readUnsigned body false body
    refine readNumber_unsigned fun cs hcs => ?_
    rw [hcs, wholeDigits_none (by decide)] at h
    cases h

/-- A number starts with a minus or a digit. -/
theorem readNumber_start {cs : List Char} {r : Json × List Char} (h : readNumber cs = .ok r) :
    ∃ c rest, cs = c :: rest ∧ (c = '-' ∨ isDigit c = true) := by
  cases cs with
  | nil => cases h
  | cons c rest =>
    refine ⟨c, rest, rfl, ?_⟩
    by_contra hstart
    obtain ⟨hminus, hdigit⟩ := not_or.1 hstart
    rw [readNumber_unsigned fun cs hcs => hminus (List.cons.inj hcs).1, readUnsigned,
      wholeDigits_none (Bool.eq_false_iff.2 hdigit)] at h
    cases h

/-- A number without point or exponent is a whole one. -/
theorem readNumber_whole (negative : Bool) {body whole rest : List Char}
    (hwhole : wholeDigits body = some (whole, rest)) (hrest : Ends rest) :
    readNumber ((if negative then ['-'] else []) ++ body) =
      .ok (.int (if negative then -(digitsValue whole : Int) else digitsValue whole), rest) := by
  have hfraction := fractionDigits_none fun cs hcs => (hrest _ _ hcs).2.1 rfl
  have hexponent := exponentPart_none hrest
  rw [readNumber_sign negative hwhole, readUnsigned, hwhole]
  dsimp only
  rw [hfraction]
  dsimp only
  rw [hexponent]
  rfl

/-- A number with a point or an exponent is a double. -/
theorem readNumber_double (negative : Bool) {body whole fraction rest₁ rest₂ rest : List Char}
    {exponent : Option Int} (hwhole : wholeDigits body = some (whole, rest₁))
    (hfraction : fractionDigits rest₁ = (fraction, rest₂))
    (hexponent : exponentPart rest₂ = (exponent, rest))
    (hdouble : fraction ≠ [] ∨ exponent ≠ none) :
    readNumber ((if negative then ['-'] else []) ++ body) =
      .ok (.num (Double.ofDecimal negative (digitsValue (whole ++ fraction))
        (exponent.getD 0 - fraction.length)), rest) := by
  have hkind : ¬ (fraction.isEmpty ∧ exponent.isNone) := by
    rw [List.isEmpty_iff, Option.isNone_iff_eq_none]
    exact not_and_or.2 hdouble
  rw [readNumber_sign negative hwhole, readUnsigned, hwhole]
  dsimp only
  rw [hfraction]
  dsimp only
  rw [hexponent]
  dsimp only
  rw [if_neg hkind]

theorem readNumber_writeInt (n : Int) {rest : List Char} (hrest : Ends rest) :
    readNumber (writeInt n ++ rest) = .ok (.int n, rest) := by
  have hdigits : ∀ k : Nat, wholeDigits (Decimal.digitsOf k ++ rest) =
      some (Decimal.digitsOf k, rest) :=
    fun k => wholeDigits_append (wholePart_digitsOf k) hrest.noDigit
  cases n with
  | ofNat k =>
    have hread := readNumber_whole false (hdigits k) hrest
    rw [digitsValue_digitsOf] at hread
    have htext : writeInt (Int.ofNat k) = Decimal.digitsOf k := by
      show (Nat.repr k).toList = _
      rw [Nat.repr_eq_ofList_toDigits, String.toList_ofList]
      rfl
    rw [htext]
    exact hread
  | negSucc k =>
    have hread := readNumber_whole true (hdigits (k + 1)) hrest
    rw [digitsValue_digitsOf] at hread
    have htext : writeInt (Int.negSucc k) = '-' :: Decimal.digitsOf (k + 1) := by
      show ("-" ++ Nat.repr (k + 1)).toList = _
      rw [String.toList_append, Nat.repr_eq_ofList_toDigits, String.toList_ofList,
        String.toList_ofList]
      rfl
    rw [htext]
    exact hread

/-! ## Doubles -/

section Doubles

open Decimal (digitsOf zeros)

theorem noDigit_mark {rest : List Char} : NoDigit ('e' :: rest) := noDigit_cons (by decide)

theorem noDigit_point {rest : List Char} : NoDigit ('.' :: rest) := noDigit_cons (by decide)

/-- One digit, a fraction if there are more, and an exponent. -/
theorem readNumber_scientific (negative down : Bool) {c : Char} {cs ds rest : List Char}
    (hc : isDigit c = true) (hzero : c ≠ '0') (hcs : ∀ d ∈ cs, isDigit d = true)
    (hds : ∀ d ∈ ds, isDigit d = true) (hne : ds ≠ []) (hrest : Ends rest) :
    readNumber ((if negative then ['-'] else []) ++ ([c] ++
        ((if cs.isEmpty then [] else '.' :: cs) ++
          'e' :: (if down then '-' else '+') :: (ds ++ rest)))) =
      .ok (.num (Double.ofDecimal negative (digitsValue (c :: cs))
        ((if down then -(digitsValue ds : Int) else digitsValue ds) - cs.length)), rest) := by
  have hexponent := exponentPart_append down hds hne hrest.noDigit
  have hone : WholePart [c] := wholePart_cons (by rwa [List.forall_mem_singleton]) hzero
  cases cs with
  | nil =>
    exact readNumber_double negative (wholeDigits_append hone noDigit_mark)
      (fractionDigits_none (by simp)) hexponent (.inr (Option.some_ne_none _))
  | cons d cs =>
    exact readNumber_double negative (wholeDigits_append hone noDigit_point)
      (fractionDigits_append hcs (List.cons_ne_nil _ _) noDigit_mark) hexponent
      (.inr (Option.some_ne_none _))

/-- Digits, a point, and digits. -/
theorem readNumber_positional (negative : Bool) {whole fraction rest : List Char}
    (hwhole : WholePart whole) (hfraction : ∀ c ∈ fraction, isDigit c = true)
    (hne : fraction ≠ []) (hrest : Ends rest) :
    readNumber ((if negative then ['-'] else []) ++ (whole ++ '.' :: (fraction ++ rest))) =
      .ok (.num (Double.ofDecimal negative (digitsValue (whole ++ fraction))
        (-(fraction.length : Int))), rest) := by
  have hread := readNumber_double negative (wholeDigits_append hwhole noDigit_point)
    (fractionDigits_append hfraction hne hrest.noDigit) (exponentPart_none hrest) (.inl hne)
  rwa [Option.getD_none, Int.zero_sub] at hread

/-- The digits of an exponent, at least two of them. -/
theorem exponentDigits (size : Nat) {ds : List Char}
    (hds : ds = if size < 10 then '0' :: digitsOf size else digitsOf size) :
    (∀ c ∈ ds, isDigit c = true) ∧ ds ≠ [] ∧ digitsValue ds = size := by
  split at hds
  · subst hds
    refine ⟨fun c hc => ?_, List.cons_ne_nil _ _, ?_⟩
    · rcases List.mem_cons.1 hc with rfl | hc
      · decide
      · exact isDigit_digitsOf hc
    · exact (digitsValue_zeros_append 1 _).trans (digitsValue_digitsOf size)
  · subst hds
    exact ⟨fun c hc => isDigit_digitsOf hc, digitsOf_ne_nil size, digitsValue_digitsOf size⟩

/-- A text before `rest` is read as a double, from digits and an exponent of the value of a
decimal. -/
def ReadsAs (negative : Bool) (text rest : List Char) (d : Decimal) : Prop :=
  ∃ (digits : Nat) (exponent : Int), -400 ≤ exponent ∧ (digits : Rat) * 10 ^ exponent = d.value ∧
    readNumber ((if negative then ['-'] else []) ++ (text ++ rest)) =
      .ok (.num (Double.ofDecimal negative digits exponent), rest)

/-- The exponent of the first digit of a decimal. -/
def leadOf (d : Decimal) : Int :=
  if d.digits = 0 then 0 else d.exponent + ((digitsOf d.digits).length : Int) - 1

theorem digits_ne_zero_of_leadOf {d : Decimal} (h : leadOf d ≠ 0) : d.digits ≠ 0 :=
  fun hzero => h (if_pos hzero)

theorem leadOf_eq {d : Decimal} (h : d.digits ≠ 0) :
    leadOf d = d.exponent + ((digitsOf d.digits).length : Int) - 1 := if_neg h

/-- Without an exponent, and not below one: digits, zeros up to the point, and what is left. -/
theorem write_positional {d : Decimal} (hlead : ¬ (leadOf d < -4 ∨ 16 ≤ leadOf d))
    (hpos : ¬ leadOf d < 0) :
    floatLayout.write d =
      (digitsOf d.digits ++ zeros ((leadOf d).toNat + 1 - (digitsOf d.digits).length)).take
          ((leadOf d).toNat + 1) ++
        '.' :: (if ((digitsOf d.digits ++ zeros ((leadOf d).toNat + 1 -
            (digitsOf d.digits).length)).drop ((leadOf d).toNat + 1)).isEmpty then ['0']
          else (digitsOf d.digits ++ zeros ((leadOf d).toNat + 1 -
            (digitsOf d.digits).length)).drop ((leadOf d).toNat + 1)) :=
  (if_neg hlead).trans (if_neg hpos)

variable (negative : Bool) (d : Decimal) (hd : -400 ≤ d.exponent) {rest : List Char}

include hd in
/-- An exponent is written. -/
theorem readsAs_scientific (hlead : leadOf d < -4 ∨ 16 ≤ leadOf d) (hrest : Ends rest) :
    ReadsAs negative (floatLayout.write d) rest d := by
  have hdigits : d.digits ≠ 0 := digits_ne_zero_of_leadOf (by omega)
  obtain ⟨c, cs, hcs, hc⟩ := digitsOf_head hdigits
  obtain ⟨hexponent, hne, hsize⟩ := exponentDigits (leadOf d).natAbs rfl
  have hall : ∀ x ∈ c :: cs, isDigit x = true := fun x hx => isDigit_digitsOf (hcs ▸ hx)
  have hread := readNumber_scientific negative (decide (leadOf d < 0)) (hall c List.mem_cons_self)
    hc (fun x hx => hall x (List.mem_cons_of_mem c hx)) hexponent hne hrest
  have hsum : (if leadOf d < 0 then -((leadOf d).natAbs : Int) else (leadOf d).natAbs) -
      (cs.length : Int) = d.exponent := by
    have hlead := leadOf_eq hdigits
    rw [hcs, List.length_cons] at hlead
    split <;> omega
  have hwrite : floatLayout.write d = [c] ++ ((if cs.isEmpty then [] else '.' :: cs) ++
      'e' :: (if leadOf d < 0 then '-' else '+') :: (if (leadOf d).natAbs < 10
        then '0' :: digitsOf (leadOf d).natAbs else digitsOf (leadOf d).natAbs)) := by
    unfold Decimal.Layout.write floatLayout
    dsimp only
    rw [show (if d.digits = 0 then 0 else d.exponent + ((digitsOf d.digits).length : Int) - 1) =
      leadOf d from rfl, if_pos hlead, hcs]
    simp
  rw [hsize, ← hcs, digitsValue_digitsOf] at hread
  simp only [decide_eq_true_eq, hsum] at hread
  refine ⟨d.digits, d.exponent, hd, rfl, ?_⟩
  rw [hwrite]
  simpa using hread

include hd in
/-- Zeros are written after the point. -/
theorem readsAs_small (hlead : ¬ (leadOf d < -4 ∨ 16 ≤ leadOf d)) (hneg : leadOf d < 0)
    (hrest : Ends rest) : ReadsAs negative (floatLayout.write d) rest d := by
  have hdigits : d.digits ≠ 0 := digits_ne_zero_of_leadOf (by omega)
  generalize hfraction : zeros ((leadOf d).natAbs - 1) ++ digitsOf d.digits = fraction
  have hall : ∀ c ∈ fraction, isDigit c = true := by
    intro c hc
    rw [← hfraction] at hc
    rcases List.mem_append.1 hc with hc | hc
    · exact isDigit_zeros hc
    · exact isDigit_digitsOf hc
  have hne : fraction ≠ [] := by
    rw [← hfraction]
    exact List.append_ne_nil_of_right_ne_nil _ (digitsOf_ne_nil _)
  have hread := readNumber_positional negative wholePart_zero hall hne hrest
  have hvalue : digitsValue (['0'] ++ fraction) = d.digits := by
    rw [← hfraction]
    exact (digitsValue_zeros_append 1 _).trans
      ((digitsValue_zeros_append _ _).trans (digitsValue_digitsOf _))
  have hexponent : -((fraction.length : Nat) : Int) = d.exponent := by
    have hlead := leadOf_eq hdigits
    rw [← hfraction, List.length_append, zeros, List.length_replicate]
    omega
  have hwrite : floatLayout.write d = ['0'] ++ '.' :: fraction := by
    rw [← hfraction]
    exact (if_neg hlead).trans (if_pos hneg)
  rw [hvalue, hexponent] at hread
  exact ⟨d.digits, d.exponent, hd, rfl, by rw [hwrite]; exact hread⟩

/-- Zeros fill up the whole part, and one more stands after the point. -/
theorem readsAs_filled (hlead : ¬ (leadOf d < -4 ∨ 16 ≤ leadOf d)) (hpos : ¬ leadOf d < 0)
    (hshort : (digitsOf d.digits).length ≤ (leadOf d).toNat + 1) (hrest : Ends rest) :
    ReadsAs negative (floatLayout.write d) rest d := by
  generalize hfill : (leadOf d).toNat + 1 - (digitsOf d.digits).length = fill
  generalize hpadded : digitsOf d.digits ++ zeros fill = padded
  have hlength : padded.length = (leadOf d).toNat + 1 := by
    rw [← hpadded, List.length_append, zeros, List.length_replicate]
    omega
  have hwrite : floatLayout.write d = padded ++ '.' :: ['0'] := by
    rw [write_positional hlead hpos, hfill, hpadded, List.take_of_length_le hlength.le,
      List.drop_of_length_le hlength.le]
    rfl
  have hwhole : WholePart padded := by
    rw [← hpadded]
    rcases Nat.eq_zero_or_pos d.digits with hzero | hdigits
    · have hnone : fill = 0 := by
        rw [← hfill, hzero, digitsOf_zero, show leadOf d = 0 from if_pos hzero]
        rfl
      rw [hnone]
      exact (List.append_nil (digitsOf d.digits)).symm ▸ wholePart_digitsOf d.digits
    · exact wholePart_append_zeros (Nat.ne_of_gt hdigits) fill
  have hread := readNumber_positional negative hwhole wholePart_zero.digits
    (List.cons_ne_nil _ _) hrest
  refine ⟨digitsValue (padded ++ ['0']), -1, by decide, ?_, ?_⟩
  · have hvalue : digitsValue (padded ++ ['0']) = d.digits * 10 ^ fill * 10 := by
      refine (digitsValue_append_zeros padded 1).trans ?_
      rw [← hpadded, digitsValue_append_zeros, digitsValue_digitsOf, pow_one]
    rw [hvalue, Decimal.value]
    rcases Nat.eq_zero_or_pos d.digits with hzero | hdigits
    · rw [hzero]
      simp
    · have hexponent : d.exponent = (fill : Int) := by
        have hlead := leadOf_eq (Nat.ne_of_gt hdigits)
        omega
      rw [hexponent, zpow_natCast]
      push_cast
      rw [zpow_neg_one]
      field_simp
  · rw [hwrite, List.append_assoc]
    exact hread

include hd in
/-- The point is written among the digits. -/
theorem readsAs_pointed (hlead : ¬ (leadOf d < -4 ∨ 16 ≤ leadOf d)) (hpos : ¬ leadOf d < 0)
    (hlong : (leadOf d).toNat + 1 < (digitsOf d.digits).length) (hrest : Ends rest) :
    ReadsAs negative (floatLayout.write d) rest d := by
  generalize hwhole : (leadOf d).toNat + 1 = whole at hlong
  have hdigits : d.digits ≠ 0 := by
    intro hzero
    rw [hzero, digitsOf_zero, ← hwhole] at hlong
    exact absurd hlong (by simp)
  have hall := (wholePart_digitsOf d.digits).digits
  have hlength : ((digitsOf d.digits).drop whole).length = (digitsOf d.digits).length - whole :=
    List.length_drop
  have hne : (digitsOf d.digits).drop whole ≠ [] := by
    intro hnil
    rw [hnil, List.length_nil] at hlength
    omega
  have hwrite : floatLayout.write d =
      (digitsOf d.digits).take whole ++ '.' :: (digitsOf d.digits).drop whole := by
    rw [write_positional hlead hpos, hwhole, show whole - (digitsOf d.digits).length = 0 by omega,
      show digitsOf d.digits ++ zeros 0 = digitsOf d.digits from List.append_nil _,
      if_neg fun hempty => hne (List.isEmpty_iff.1 hempty)]
  have htake : WholePart ((digitsOf d.digits).take whole) := by
    obtain ⟨c, cs, hcs, hc⟩ := digitsOf_head hdigits
    rw [hcs] at hall ⊢
    rw [← hwhole, List.take_succ_cons]
    refine wholePart_cons (fun x hx => hall x ?_) hc
    rw [← List.take_succ_cons] at hx
    exact List.mem_of_mem_take hx
  have hread := readNumber_positional negative htake
    (fun c hc => hall c (List.mem_of_mem_drop hc)) hne hrest
  have hexponent : -(((digitsOf d.digits).drop whole).length : Int) = d.exponent := by
    have hlead := leadOf_eq hdigits
    omega
  rw [List.take_append_drop, hexponent, digitsValue_digitsOf] at hread
  refine ⟨d.digits, d.exponent, hd, rfl, ?_⟩
  rw [hwrite, List.append_assoc]
  exact hread

include hd in
/-- A written decimal is read as a double, from digits and an exponent of the same value. -/
theorem readsAs_write (hrest : Ends rest) : ReadsAs negative (floatLayout.write d) rest d := by
  by_cases hlead : leadOf d < -4 ∨ 16 ≤ leadOf d
  · exact readsAs_scientific negative d hd hlead hrest
  · by_cases hneg : leadOf d < 0
    · exact readsAs_small negative d hd hlead hneg hrest
    · by_cases hshort : (digitsOf d.digits).length ≤ (leadOf d).toNat + 1
      · exact readsAs_filled negative d hlead hneg hshort hrest
      · exact readsAs_pointed negative d hd hlead hneg (Nat.lt_of_not_le hshort) hrest

/-- A finite double is read as it was. -/
theorem readNumber_writeFloat {x : Float} (hx : Double.isFinite x = true) (hrest : Ends rest) :
    readNumber (writeFloat x ++ rest) = .ok (.num x, rest) := by
  unfold Double.isFinite at hx
  split at hx
  case h_1 negative m e hview =>
    obtain ⟨hcanonical, -⟩ := Double.assemble_view hview
    have hbound : -400 ≤ (Decimal.shortest m e).exponent := by
      rcases Nat.eq_zero_or_pos m with rfl | hm
      · exact (by decide : (-400 : Int) ≤ 0)
      · exact (Decimal.shortest_roundsTo hm hcanonical).2
    obtain ⟨digits, exponent, hexponent, hvalue, hread⟩ :=
      readsAs_write negative (Decimal.shortest m e) hbound hrest
    rw [Decimal.ofDecimal_shortest hview hexponent hvalue] at hread
    have htext : writeFloat x =
        (if negative then ['-'] else []) ++ floatLayout.write (Decimal.shortest m e) := by
      rw [writeFloat, Decimal.Layout.text, hview]
      exact String.toList_ofList
    rw [htext, List.append_assoc]
    exact hread
  case h_2 => cases hx

end Doubles

end Json

end Tradeflow
