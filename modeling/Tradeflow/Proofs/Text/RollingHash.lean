/-
  The rolling hash in closed form. A text is hashed as bytes. Two bytes join to the code unit they are
  of (`join_unitBytes`), and the units are those that a reader takes back to the characters
  (`charsOfUnits_units16`). A masked step is a multiplication by 31 and an addition modulo 2 ^ 32
  (`hashStep_eq`), so a run over the bytes of units multiplies what was before by a power of 31 and
  adds the polynomial of the units (`rollBytes_units`). The sign is that of two's complement
  (`signed32_eq`), and the text is that of the magnitude (`isHexadecimal_hex`).
  `contentHash_is_polynomial`: the hash text shows the magnitude of the polynomial of the units, and
  the unsigned values of two texts give that of the one after the other.
-/
import Mathlib.Algebra.BigOperators.Fin
import Mathlib.Data.Nat.ModEq
import Mathlib.Tactic.Ring
import Tradeflow.Proofs.Json.Lexemes
import Tradeflow.Text.Encoding

namespace Tradeflow.Text

/-! ## Hexadecimal texts -/

/-- Lower-case hexadecimal digits whose value is a number. The first is a zero only if no other
follows. -/
structure IsHexadecimal (n : Nat) (cs : List Char) : Prop where
  lower : ∀ c ∈ cs, c ∈ "0123456789abcdef".toList
  value : hexValue? cs = some n
  first : ∃ c rest, cs = c :: rest ∧ (c = '0' → rest = [])

theorem digitChar_lower : ∀ k < 16, Nat.digitChar k ∈ "0123456789abcdef".toList := by decide

/-- One more digit. -/
theorem hexValue?_snoc {cs : List Char} {n k : Nat} (h : hexValue? cs = some n) (hk : k < 16) :
    hexValue? (cs ++ [k.digitChar]) = some (n * 16 + k) := by
  unfold hexValue? at h ⊢
  rw [List.foldl_append, h, List.foldl_cons, List.foldl_nil, hexDigit?_digitChar k hk]

theorem isHexadecimal_digit {k : Nat} (h : k < 16) : IsHexadecimal k [k.digitChar] where
  lower := List.forall_mem_singleton.2 (digitChar_lower k h)
  value := by
    have hnone : hexValue? [] = some 0 := rfl
    have hvalue := hexValue?_snoc hnone h
    rwa [Nat.zero_mul, Nat.zero_add] at hvalue
  first := ⟨_, _, rfl, fun _ => rfl⟩

/-- A digit may follow a text unless it is that of zero. -/
theorem IsHexadecimal.snoc {n k : Nat} {cs : List Char} (h : IsHexadecimal n cs) (hn : n ≠ 0)
    (hk : k < 16) : IsHexadecimal (n * 16 + k) (cs ++ [k.digitChar]) := by
  obtain ⟨c, rest, rfl, hfirst⟩ := h.first
  have hzero : c ≠ '0' := by
    rintro rfl
    have hvalue := h.value
    rw [hfirst rfl] at hvalue
    exact hn (Option.some.inj hvalue).symm
  refine ⟨?_, hexValue?_snoc h.value hk, c, rest ++ [k.digitChar], rfl, fun hc => absurd hc hzero⟩
  exact List.forall_mem_append.2 ⟨h.lower, List.forall_mem_singleton.2 (digitChar_lower k hk)⟩

theorem isHexadecimal_hex (n : Nat) : IsHexadecimal n (hex n) := by
  induction n using Nat.strong_induction_on with
  | _ n ih =>
    rcases Nat.lt_or_ge n 16 with hone | hmore
    · have hdigits : hex n = [n.digitChar] := Nat.toDigits_of_lt_base hone
      rw [hdigits]
      exact isHexadecimal_digit hone
    · have hdigits : hex n = hex (n / 16) ++ [(n % 16).digitChar] :=
        Nat.toDigits_of_base_le (by decide) hmore
      have hshorter := (ih (n / 16) (by omega)).snoc (by omega) (Nat.mod_lt n (by decide))
      rw [Nat.div_add_mod'] at hshorter
      rw [hdigits]
      exact hshorter

/-! ## Code units -/

theorem CodePoint.unit_lt {p : CodePoint} {u : Nat} (h : u ∈ p.units) : u < 0x10000 := by
  cases p with
  | char c => exact Text.unit_lt h
  | half n =>
    rw [List.mem_singleton.1 h]
    omega

theorem units16_lt {points : List CodePoint} {u : Nat} (h : u ∈ units16 points) : u < 0x10000 := by
  obtain ⟨p, -, hu⟩ := List.mem_flatMap.1 h
  exact p.unit_lt hu

/-- The units of a character are read as it, whatever follows. -/
theorem charsOfUnits_append (c : Char) (us : List Nat) :
    charsOfUnits (unitsOfChar c ++ us) = c :: charsOfUnits us := by
  obtain ⟨hunits, -, hwhole⟩ | ⟨high, low, hunits, hhigh, hlow, hnat⟩ := unitsOfChar_cases c
  · have hchar : charOf c.toNat = c := by
      rw [charOf, if_neg (by omega), Char.ofNat_toNat]
    rw [hunits, List.singleton_append]
    cases us with
    | nil => exact congrArg (· :: charsOfUnits []) hchar
    | cons u us => rw [charsOfUnits, if_neg (by omega), hchar]
  · rw [hunits, List.cons_append, List.singleton_append, charsOfUnits, if_pos (by omega), hnat,
      Char.ofNat_toNat]

/-- The units of a text are read as its characters. -/
theorem charsOfUnits_units16 (text : String) :
    charsOfUnits (units16 (points text)) = text.toList := by
  have hchars : ∀ cs : List Char, charsOfUnits (units16 (cs.map .char)) = cs := by
    intro cs
    induction cs with
    | nil => rfl
    | cons c cs ih => exact (charsOfUnits_append c _).trans (congrArg _ ih)
  exact hchars text.toList

/-- The bytes of a unit, joined. -/
theorem join_unitBytes {u : Nat} (h : u < 0x10000) :
    u.toUInt8.toNat ||| ((u >>> 8).toUInt8.toNat <<< 8) = u := by
  have hlow : u.toUInt8.toNat = u % 256 := UInt8.toNat_ofNat'
  have hhigh : (u >>> 8).toUInt8.toNat = u / 256 := by
    rw [Nat.toUInt8_eq, UInt8.toNat_ofNat', Nat.shiftRight_eq_div_pow]
    omega
  rw [hlow, hhigh, Nat.or_comm, ← Nat.shiftLeft_add_eq_or_of_lt (by omega), Nat.shiftLeft_eq]
  omega

/-! ## The rolling value -/

/-- The units, each times a power of 31 that falls to 1 at the last. -/
def polynomial (us : List Nat) : Nat := ∑ k : Fin us.length, us[k] * 31 ^ (us.length - 1 - k)

theorem polynomial_nil : polynomial [] = 0 := rfl

theorem polynomial_cons (u : Nat) (us : List Nat) :
    polynomial (u :: us) = u * 31 ^ us.length + polynomial us := by
  have htail : ∀ k : Fin us.length, us.length + 1 - 1 - (k.succ : Nat) = us.length - 1 - k := by
    intro k
    rw [Fin.val_succ]
    omega
  calc polynomial (u :: us)
      = u * 31 ^ us.length +
          ∑ k : Fin us.length, us[k] * 31 ^ (us.length + 1 - 1 - (k.succ : Nat)) :=
        Fin.sum_univ_succ _
    _ = u * 31 ^ us.length + polynomial us := by
        simp only [htail]
        rfl

theorem polynomial_append (us vs : List Nat) :
    polynomial (us ++ vs) = polynomial us * 31 ^ vs.length + polynomial vs := by
  induction us with
  | nil => rw [List.nil_append, polynomial_nil, Nat.zero_mul, Nat.zero_add]
  | cons u us ih =>
    rw [List.cons_append, polynomial_cons, polynomial_cons, ih, List.length_append]
    ring

theorem hashStep_eq (value unit : Nat) : hashStep value unit = (31 * value + unit) % 2 ^ 32 := by
  have hmask : 0xFFFFFFFF = 2 ^ 32 - 1 := rfl
  rw [hashStep, hmask, Nat.and_two_pow_sub_one_eq_mod, Nat.shiftLeft_eq]
  omega

/-- A run over the bytes of units. What is dropped beyond 32 bits before it makes no difference. -/
theorem rollBytes_units (us : List Nat) (h : ∀ u ∈ us, u < 0x10000) (value : Nat) :
    rollBytes (value % 2 ^ 32) (us.flatMap unitBytes) =
      (value * 31 ^ us.length + polynomial us) % 2 ^ 32 := by
  induction us generalizing value with
  | nil => rw [polynomial_nil, List.length_nil, pow_zero, Nat.mul_one, Nat.add_zero]; rfl
  | cons u us ih =>
    obtain ⟨hu, hus⟩ := List.forall_mem_cons.1 h
    have hstep : hashStep (value % 2 ^ 32) u = (31 * value + u) % 2 ^ 32 := by
      rw [hashStep_eq]
      omega
    calc rollBytes (value % 2 ^ 32) ((u :: us).flatMap unitBytes)
        = rollBytes (hashStep (value % 2 ^ 32) u) (us.flatMap unitBytes) := by
          rw [List.flatMap_cons, unitBytes, List.cons_append, List.cons_append, rollBytes,
            join_unitBytes hu]
          rfl
      _ = ((31 * value + u) * 31 ^ us.length + polynomial us) % 2 ^ 32 := by rw [hstep, ih hus]
      _ = (value * 31 ^ (u :: us).length + polynomial (u :: us)) % 2 ^ 32 := by
          rw [polynomial_cons, List.length_cons]
          ring_nf

theorem rollingValue_eq (points : List CodePoint) :
    rollingValue points = polynomial (units16 points) % 2 ^ 32 := by
  have hrun := rollBytes_units (units16 points) (fun _ => units16_lt) 0
  rw [Nat.zero_mul, Nat.zero_add] at hrun
  exact hrun

theorem rollingValue_append (s t : List CodePoint) : rollingValue (s ++ t) =
    (rollingValue s * 31 ^ (units16 t).length + rollingValue t) % 2 ^ 32 := by
  have hunits : units16 (s ++ t) = units16 s ++ units16 t := List.flatMap_append
  have hs : polynomial (units16 s) ≡ rollingValue s [MOD 2 ^ 32] := by
    rw [rollingValue_eq]
    exact (Nat.mod_modEq _ _).symm
  have ht : polynomial (units16 t) ≡ rollingValue t [MOD 2 ^ 32] := by
    rw [rollingValue_eq]
    exact (Nat.mod_modEq _ _).symm
  rw [rollingValue_eq (s ++ t), hunits, polynomial_append]
  exact (hs.mul_right _).add ht

/-! ## The sign -/

/-- A value that is kept in 32 bits is read in two's complement. -/
theorem signed32_eq (n : Nat) : signed32 (n % 2 ^ 32) = (BitVec.ofNat 32 n).toInt := by
  rw [BitVec.toInt_eq_toNat_cond, BitVec.toNat_ofNat, signed32]
  split <;> split <;> omega

/-- The polynomial of the units of a text, read as a signed number of 32 bits. -/
def signedPolynomial (points : List CodePoint) : Int :=
  (BitVec.ofNat 32 (polynomial (units16 points))).toInt

theorem isHexadecimal_hashOfPoints (points : List CodePoint) :
    IsHexadecimal (signedPolynomial points).natAbs (hashOfPoints points).toList := by
  rw [hashOfPoints, String.toList_ofList, rollingValue_eq, signed32_eq]
  exact isHexadecimal_hex _

theorem natAbs_signedPolynomial_le (points : List CodePoint) :
    (signedPolynomial points).natAbs ≤ 2 ^ 31 := by
  have hlow := BitVec.le_toInt (BitVec.ofNat 32 (polynomial (units16 points)))
  have hhigh := BitVec.toInt_lt (x := BitVec.ofNat 32 (polynomial (units16 points)))
  rw [signedPolynomial]
  omega

/-- The hash text of code points is the hexadecimal text of the magnitude of their polynomial, which is
taken in 32 bits and read as a signed number, so that it is at most 2 ^ 31. The hash of a text is that
of code points whose units are read as its characters. The unsigned value is the polynomial in 32 bits.
Where `t` follows `s` it is the value of `s`, times 31 for each unit of `t`, plus the value of `t`. -/
theorem contentHash_is_polynomial (s t : List CodePoint) (text : String) :
    IsHexadecimal (signedPolynomial s).natAbs (hashOfPoints s).toList ∧
    (signedPolynomial s).natAbs ≤ 2 ^ 31 ∧
    IsHexadecimal (signedPolynomial (points text)).natAbs (contentHash text).toList ∧
    charsOfUnits (units16 (points text)) = text.toList ∧
    rollingValue s = polynomial (units16 s) % 2 ^ 32 ∧
    rollingValue (s ++ t) =
      (rollingValue s * 31 ^ (units16 t).length + rollingValue t) % 2 ^ 32 :=
  ⟨isHexadecimal_hashOfPoints s, natAbs_signedPolynomial_le s,
    isHexadecimal_hashOfPoints (points text), charsOfUnits_units16 text, rollingValue_eq s,
    rollingValue_append s t⟩

/-- The largest magnitude is reached. -/
example : contentHash "polygenelubricants" = "80000000" := by decide +kernel

end Tradeflow.Text
