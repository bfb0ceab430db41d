import Sitos.Core.Binary64
import Sitos.Wire.AckResult
import Sitos.Wire.ParamValue

/-!
# Integers in parameter values

A value holds a whole number of 64 bits or a double precision number, and a caller asks for it as
an integer type of its own.  A conversion of a double that no integer of that type stands for is
undefined, so the range is tested before it, on numbers of the format.
-/

namespace Sitos.IntegralValue

open Sitos.AckResult
open Sitos.Binary64
open Sitos.Bytes
open Sitos.Value

/-! ## Integer types -/

/-- A standard integer type. -/
structure IntegralType where
  signed : Bool
  width : ℕ
  le_width : 8 ≤ width
  width_le : width ≤ 64

namespace IntegralType

/-- `std::numeric_limits<T>::digits`. -/
def digits (type : IntegralType) : ℕ := if type.signed then type.width - 1 else type.width

def min (type : IntegralType) : ℤ := if type.signed then -2 ^ type.digits else 0

def max (type : IntegralType) : ℤ := 2 ^ type.digits - 1

/-- `std::in_range<T>`. -/
def inRange (type : IntegralType) (v : ℤ) : Bool := type.min ≤ v && v ≤ type.max

/-- A conversion between integer types keeps the low bits. -/
def wrap (type : IntegralType) (v : ℤ) : ℤ :=
  if type.signed then v.bmod (2 ^ type.width) else v % 2 ^ type.width

end IntegralType

def int64 : IntegralType := ⟨true, 64, by norm_num, by norm_num⟩

/-! ## Extraction -/

/-- What an extraction comes to. -/
inductive Extraction where
  | value (v : ℤ)
  | nothing
  | undefined
  deriving DecidableEq

def isOutsideIntegralRangeS64 (type : IntegralType) (v : Int64) : Bool := !type.inRange v.toInt

def isOutsideIntegralRangeDp (type : IntegralType) (v : Double) : Bool :=
  if !v.isFinite then true
  else
    let truncated := v.trunc
    let upperBound := powerOfTwo type.digits
    if type.signed && truncated.lt upperBound.neg then true
    else if !type.signed && truncated.lt (ofBits 0) then true
    else truncated.ge upperBound

/-- A conversion of a double, which the language leaves undefined where the whole part is not a
value of the type. -/
def castDp (type : IntegralType) : Double → Extraction
  | .finite number =>
      if type.inRange (truncate number.value) then .value (truncate number.value) else .undefined
  | .nan | .infinite _ => .undefined

/-- `As<T>` for an integer type. -/
def asIntegral (type : IntegralType) : ParamValue → Extraction
  | .bool value => .value (type.wrap (if value then 1 else 0))
  | .s64 v => if isOutsideIntegralRangeS64 type v then .nothing else .value (type.wrap v.toInt)
  | .dp bits =>
      let v := ofBits bits
      if isOutsideIntegralRangeDp type v then .nothing else castDp type v
  | .str _ | .bytes _ => .nothing

/-! ## Making a value -/

/-- What a value is made from. -/
inductive ParamInput where
  | boolean (value : Bool)
  | integral (type : IntegralType) (value : { v : ℤ // type.inRange v = true })
  | double (bits : UInt64)
  | nullText
  | text (value : ByteString)
  | byte (value : UInt8)
  | bytes (value : ByteString)

/-- The constructor of `ParamValue`. -/
def construct : ParamInput → ParamValue
  | .boolean value => .bool value
  | .integral _ value => .s64 (Int64.ofInt value)
  | .double bits => .dp bits
  | .nullText => .str []
  | .text value => .str value
  | .byte value => .bytes [value]
  | .bytes value => .bytes value

def makeParamValue : ParamInput → Except (Status × ByteString) ParamValue
  | .nullText => .error (.invalidArgument, ascii "null string argument")
  | .integral type value =>
      if !int64.inRange value then
        .error (.invalidArgument, ascii "integral value is outside payload range")
      else .ok (construct (.integral type value))
  | input => .ok (construct input)

/-! ## The range -/

variable {type : IntegralType}

theorem digits_pos (type : IntegralType) : 0 < type.digits := by
  have hwidth := type.le_width
  unfold IntegralType.digits
  split_ifs
  · omega
  · omega

theorem digits_le (type : IntegralType) : type.digits ≤ 1023 := by
  have hwidth := type.width_le
  unfold IntegralType.digits
  split_ifs
  · omega
  · omega

theorem inRange_signed (hsigned : type.signed = true) (v : ℤ) :
    type.inRange v = true ↔ -2 ^ type.digits ≤ v ∧ v < 2 ^ type.digits := by
  simp only [IntegralType.inRange, IntegralType.min, IntegralType.max, hsigned, if_true,
    Bool.and_eq_true, decide_eq_true_eq, Int.le_sub_one_iff]

theorem inRange_unsigned (hunsigned : type.signed = false) (v : ℤ) :
    type.inRange v = true ↔ 0 ≤ v ∧ v < 2 ^ type.digits := by
  simp only [IntegralType.inRange, IntegralType.min, IntegralType.max, hunsigned,
    Bool.and_eq_true, decide_eq_true_eq, Int.le_sub_one_iff, Bool.false_eq_true, if_false]

/-- A value of the type is converted to itself. -/
theorem wrap_of_inRange {v : ℤ} (hrange : type.inRange v = true) : type.wrap v = v := by
  have hwidth := type.le_width
  cases hsigned : type.signed with
  | true =>
      obtain ⟨hlower, hupper⟩ := (inRange_signed hsigned v).mp hrange
      have hdigits : type.digits + 1 = type.width := by
        simp only [IntegralType.digits, hsigned, if_true]
        omega
      have hpow : ((2 ^ type.width : ℕ) : ℤ) = 2 ^ type.digits * 2 := by
        rw [← hdigits, pow_succ]
        push_cast
        ring
      simp only [IntegralType.wrap, hsigned, if_true]
      exact Int.bmod_eq_of_le_mul_two (by omega) (by omega)
  | false =>
      obtain ⟨hlower, hupper⟩ := (inRange_unsigned hsigned v).mp hrange
      simp only [IntegralType.digits, hsigned, Bool.false_eq_true, if_false] at hupper
      simp only [IntegralType.wrap, hsigned, Bool.false_eq_true, if_false]
      exact Int.emod_eq_of_lt hlower hupper

theorem ofBits_zero : ∃ zero, ofBits 0 = .finite zero ∧ zero.value = 0 :=
  ⟨_, rfl, by norm_num [Finite.value, significandOf, magnitudeBits, fractionBits, exponentBits,
    isNegative]⟩

/-- The test on a finite double is exact: its bounds are powers of two, which the format has. -/
theorem isOutsideIntegralRangeDp_finite (type : IntegralType) (number : Finite) :
    isOutsideIntegralRangeDp type (.finite number) = !type.inRange (truncate number.value) := by
  obtain ⟨bound, hbound, hvalue⟩ := value_powerOfTwo (digits_le type)
  obtain ⟨zero, hzero, hzeroValue⟩ := ofBits_zero
  have htrunc := value_trunc number
  generalize truncate number.value = t at htrunc
  have hlow : ((t : ℚ) < -2 ^ type.digits) ↔ t < -2 ^ type.digits := by exact_mod_cast Iff.rfl
  have hhigh : ((t : ℚ) < 2 ^ type.digits) ↔ t < 2 ^ type.digits := by exact_mod_cast Iff.rfl
  have hsign : ((t : ℚ) < 0) ↔ t < 0 := by exact_mod_cast Iff.rfl
  simp only [isOutsideIntegralRangeDp, Double.isFinite, Double.trunc, hbound, hzero, Double.neg,
    Double.lt, Double.ge, htrunc, value_neg, hvalue, hzeroValue, hlow, hhigh, hsign]
  cases hsigned : type.signed with
  | true =>
      have hrange := inRange_signed hsigned t
      by_cases hbelow : t < -2 ^ type.digits
      · have hout : type.inRange t = false := by
          rw [Bool.eq_false_iff, Ne, hrange]
          omega
        simp [hbelow, hout]
      · by_cases habove : t < 2 ^ type.digits
        · have hin : type.inRange t = true := hrange.mpr ⟨not_lt.mp hbelow, habove⟩
          simp [hbelow, habove, hin]
        · have hout : type.inRange t = false := by
            rw [Bool.eq_false_iff, Ne, hrange]
            omega
          simp [hbelow, habove, hout]
  | false =>
      have hrange := inRange_unsigned hsigned t
      by_cases hbelow : t < 0
      · have hout : type.inRange t = false := by
          rw [Bool.eq_false_iff, Ne, hrange]
          omega
        simp [hbelow, hout]
      · by_cases habove : t < 2 ^ type.digits
        · have hin : type.inRange t = true := hrange.mpr ⟨not_lt.mp hbelow, habove⟩
          simp [hbelow, habove, hin]
        · have hout : type.inRange t = false := by
            rw [Bool.eq_false_iff, Ne, hrange]
            omega
          simp [hbelow, habove, hout]

theorem asIntegral_s64 (type : IntegralType) (v : Int64) :
    asIntegral type (.s64 v) =
      if type.inRange v.toInt then .value v.toInt else .nothing := by
  simp only [asIntegral, isOutsideIntegralRangeS64, Bool.not_eq_true']
  by_cases hrange : type.inRange v.toInt = true
  · simp [hrange, wrap_of_inRange hrange]
  · simp [hrange]

theorem asIntegral_finite (type : IntegralType) {bits : UInt64} {number : Finite}
    (hbits : ofBits bits = .finite number) :
    asIntegral type (.dp bits) =
      if type.inRange (truncate number.value) then .value (truncate number.value)
      else .nothing := by
  simp only [asIntegral, hbits, isOutsideIntegralRangeDp_finite, castDp]
  by_cases hrange : type.inRange (truncate number.value) = true
  · simp [hrange]
  · simp [hrange]

theorem asIntegral_special (type : IntegralType) {bits : UInt64}
    (hbits : (ofBits bits).isFinite = false) : asIntegral type (.dp bits) = .nothing := by
  simp [asIntegral, isOutsideIntegralRangeDp, hbits]

/-- An integer is extracted exactly when it is one of the type's, from a whole number and from the
whole part of a double alike, and no conversion is undefined; what is made from an integer that
the payload has room for is extracted as that integer. -/
theorem integer_extraction_exact (type : IntegralType) :
    (∀ v : Int64, asIntegral type (.s64 v) =
      if type.inRange v.toInt then .value v.toInt else .nothing) ∧
    (∀ bits number, ofBits bits = .finite number → asIntegral type (.dp bits) =
      if type.inRange (truncate number.value) then .value (truncate number.value)
      else .nothing) ∧
    (∀ bits, (ofBits bits).isFinite = false → asIntegral type (.dp bits) = .nothing) ∧
    (∀ value, asIntegral type value ≠ .undefined) ∧
    ∀ v : { v : ℤ // type.inRange v = true },
      ((∃ value, makeParamValue (.integral type v) = .ok value) ↔
        -2 ^ 63 ≤ v.val ∧ v.val < 2 ^ 63) ∧
      ∀ value, makeParamValue (.integral type v) = .ok value → asIntegral type value = .value v := by
  refine ⟨asIntegral_s64 type, fun bits number => asIntegral_finite type,
    fun bits => asIntegral_special type, ?_, fun v => ⟨?_, ?_⟩⟩
  · intro value
    cases value with
    | bool value => exact nofun
    | s64 v =>
        rw [asIntegral_s64]
        split_ifs
        · exact nofun
        · exact nofun
    | dp bits =>
        cases hbits : ofBits bits with
        | finite number =>
            rw [asIntegral_finite type hbits]
            split_ifs
            · exact nofun
            · exact nofun
        | nan =>
            rw [asIntegral_special type (by rw [hbits]; rfl)]
            exact nofun
        | infinite negative =>
            rw [asIntegral_special type (by rw [hbits]; rfl)]
            exact nofun
    | str value => exact nofun
    | bytes value => exact nofun
  · have hrange : int64.inRange v.val = true ↔ -2 ^ 63 ≤ v.val ∧ v.val < 2 ^ 63 :=
      inRange_signed rfl v.val
    rw [← hrange]
    by_cases hfits : int64.inRange v.val = true
    · simp [makeParamValue, hfits]
    · simp [makeParamValue, hfits]
  · intro value hvalue
    by_cases hfits : int64.inRange v.val = true
    · have hmade : value = .s64 (Int64.ofInt v.val) := by
        simp only [makeParamValue, hfits, Bool.not_true, Bool.false_eq_true, if_false,
          Except.ok.injEq] at hvalue
        exact hvalue.symm
      obtain ⟨hlower, hupper⟩ := (@inRange_signed int64 rfl v.val).mp hfits
      have hround : (Int64.ofInt v.val).toInt = v.val :=
        Int64.toInt_ofInt_of_le hlower hupper
      rw [hmade, asIntegral_s64, hround, if_pos v.property]
    · simp [makeParamValue, hfits] at hvalue

end Sitos.IntegralValue
