import Mathlib

/-!
# Double precision numbers

A word of 64 bits is read as a number of the binary64 format.  A finite number is a significand of
53 bits and a power of two, so it is an exact fraction; comparing two numbers and dropping the
fractional part of one are exact as well.
-/

namespace Sitos.Binary64

/-- A finite number, and what makes it one of the format. -/
structure Finite where
  significand : ℤ
  exponent : ℤ
  significand_lt : |significand| < 2 ^ 53
  le_exponent : -1074 ≤ exponent
  exponent_le : exponent ≤ 971

inductive Double where
  | nan
  | infinite (negative : Bool)
  | finite (number : Finite)

def Finite.value (number : Finite) : ℚ := number.significand * 2 ^ number.exponent

/-- The whole part of a fraction, towards zero. -/
def truncate (q : ℚ) : ℤ := if 0 ≤ q then ⌊q⌋ else ⌈q⌉

/-! ## Words -/

def exponentBits (bits : UInt64) : ℕ := bits.toNat / 2 ^ 52 % 2 ^ 11

def fractionBits (bits : UInt64) : ℕ := bits.toNat % 2 ^ 52

def isNegative (bits : UInt64) : Bool := 2 ^ 63 ≤ bits.toNat

/-- The number without its sign: a leading one is understood unless the exponent is zero. -/
def magnitudeBits (bits : UInt64) : ℕ :=
  if exponentBits bits = 0 then fractionBits bits else 2 ^ 52 + fractionBits bits

theorem magnitudeBits_lt (bits : UInt64) : magnitudeBits bits < 2 ^ 53 := by
  have hfraction : fractionBits bits < 2 ^ 52 := Nat.mod_lt _ (by norm_num)
  unfold magnitudeBits
  split_ifs
  · omega
  · omega

def significandOf (bits : UInt64) : ℤ :=
  if isNegative bits then -(magnitudeBits bits : ℤ) else magnitudeBits bits

def exponentOf (bits : UInt64) : ℤ :=
  if exponentBits bits = 0 then -1074 else (exponentBits bits : ℤ) - 1075

def ofBits (bits : UInt64) : Double :=
  if hspecial : exponentBits bits = 2047 then
    if fractionBits bits = 0 then .infinite (isNegative bits) else .nan
  else
    .finite
      { significand := significandOf bits
        exponent := exponentOf bits
        significand_lt := by
          have hmagnitude := magnitudeBits_lt bits
          unfold significandOf
          split_ifs
          · rw [abs_neg, Nat.abs_cast]
            exact_mod_cast hmagnitude
          · rw [Nat.abs_cast]
            exact_mod_cast hmagnitude
        le_exponent := by
          unfold exponentOf
          split_ifs
          · exact le_rfl
          · omega
        exponent_le := by
          have hexponent : exponentBits bits < 2 ^ 11 := Nat.mod_lt _ (by norm_num)
          unfold exponentOf
          split_ifs
          · norm_num
          · omega }

/-! ## Operations -/

/-- `2` to a power that the format reaches, and infinity beyond. -/
def powerOfTwo (power : ℕ) : Double :=
  if hpower : power ≤ 1023 then
    .finite
      { significand := 2 ^ 52
        exponent := power - 52
        significand_lt := by norm_num
        le_exponent := by omega
        exponent_le := by omega }
  else .infinite false

def Finite.neg (number : Finite) : Finite :=
  { number with
    significand := -number.significand
    significand_lt := by
      rw [abs_neg]
      exact number.significand_lt }

def Finite.trunc (number : Finite) : Finite :=
  if 0 ≤ number.exponent then number
  else
    { significand := number.significand.tdiv (2 ^ (-number.exponent).toNat)
      exponent := 0
      significand_lt := by
        refine lt_of_le_of_lt ?_ number.significand_lt
        rw [Int.abs_eq_natAbs, Int.abs_eq_natAbs, Int.natAbs_tdiv]
        exact_mod_cast Nat.div_le_self _ _
      le_exponent := by norm_num
      exponent_le := by norm_num }

namespace Double

def isFinite : Double → Bool
  | .finite _ => true
  | .nan | .infinite _ => false

def neg : Double → Double
  | .nan => .nan
  | .infinite negative => .infinite !negative
  | .finite number => .finite number.neg

def trunc : Double → Double
  | .finite number => .finite number.trunc
  | v => v

/-- A comparison, which fails if either side is no number. -/
def lt : Double → Double → Bool
  | .nan, _ | _, .nan => false
  | .infinite negative, .infinite negative' => negative && !negative'
  | .infinite negative, .finite _ => negative
  | .finite _, .infinite negative => !negative
  | .finite number, .finite number' => number.value < number'.value

/-- Whether the left side is at least the right one. -/
def ge : Double → Double → Bool
  | .nan, _ | _, .nan => false
  | v, w => !v.lt w

end Double

/-! ## Their values -/

variable {number : Finite}

theorem value_neg (number : Finite) : number.neg.value = -number.value := by
  simp only [Finite.value, Finite.neg, Int.cast_neg, neg_mul]

theorem value_powerOfTwo {power : ℕ} (hpower : power ≤ 1023) :
    ∃ number, powerOfTwo power = .finite number ∧ number.value = 2 ^ power := by
  refine ⟨_, dif_pos hpower, ?_⟩
  have htwo : (2 : ℚ) ≠ 0 := by norm_num
  simp only [Finite.value, Int.cast_pow, Int.cast_ofNat]
  rw [← zpow_natCast 2 52, ← zpow_add₀ htwo, ← zpow_natCast 2 power]
  congr 1
  push_cast
  ring

theorem truncate_intCast (n : ℤ) : truncate n = n := by
  unfold truncate
  split_ifs
  · exact Int.floor_intCast n
  · exact Int.ceil_intCast n

theorem truncate_div (n : ℤ) {d : ℕ} (hd : 0 < d) : truncate ((n : ℚ) / d) = n.tdiv d := by
  have hpos : (0 : ℚ) < d := by exact_mod_cast hd
  unfold truncate
  split_ifs with hsign
  · have hn : 0 ≤ n := by
      have hcast : (0 : ℚ) ≤ n := by simpa using (le_div_iff₀ hpos).mp hsign
      exact_mod_cast hcast
    rw [Int.tdiv_eq_ediv_of_nonneg hn]
    exact_mod_cast Rat.floor_intCast_div_natCast n d
  · have hn : n ≤ 0 := by
      by_contra hlt
      have hcast : (0 : ℚ) ≤ n := by exact_mod_cast (not_le.mp hlt).le
      exact hsign (div_nonneg hcast hpos.le)
    obtain ⟨m, rfl⟩ : ∃ m : ℤ, n = -m := ⟨-n, (neg_neg n).symm⟩
    have hm : 0 ≤ m := by omega
    rw [Int.neg_tdiv, Int.tdiv_eq_ediv_of_nonneg hm, Int.cast_neg, neg_div, Int.ceil_neg]
    congr 1
    exact_mod_cast Rat.floor_intCast_div_natCast m d

/-- The whole part is a number of the format. -/
theorem value_trunc (number : Finite) : number.trunc.value = truncate number.value := by
  have htwo : (2 : ℚ) ≠ 0 := by norm_num
  unfold Finite.trunc
  split_ifs with hexponent
  · obtain ⟨power, hpower⟩ := Int.eq_ofNat_of_zero_le hexponent
    have hvalue : number.value = ((number.significand * 2 ^ power : ℤ) : ℚ) := by
      rw [Finite.value, hpower, zpow_natCast]
      push_cast
      ring
    rw [hvalue, truncate_intCast]
  · obtain ⟨power, hpower⟩ := Int.eq_ofNat_of_zero_le (by omega : 0 ≤ -number.exponent)
    have hvalue : number.value = (number.significand : ℚ) / ((2 ^ power : ℕ) : ℚ) := by
      have hexponent' : number.exponent = -(power : ℤ) := by
        rw [← neg_neg number.exponent, hpower]
      rw [Finite.value, hexponent', zpow_neg, zpow_natCast, Nat.cast_pow, Nat.cast_ofNat,
        div_eq_mul_inv]
    rw [hvalue, truncate_div _ (by positivity)]
    simp only [Finite.value, hpower, Int.toNat_natCast, zpow_zero, mul_one]
    push_cast
    rfl

end Sitos.Binary64
