import Sitos.Core.Bytes

/-!
# Parameter values

The payload-v1 value codec: a type tag and a body.  Doubles are their 64-bit
patterns; encoding turns every NaN into one canonical pattern, and that is the
only way a value changes on its way through the codec.
-/

namespace Sitos.Value

open Sitos.Bytes

inductive ParamValue where
  | bool (value : Bool)
  | s64 (value : Int64)
  | dp (bits : UInt64)
  | str (value : ByteString)
  | bytes (value : ByteString)
  deriving DecidableEq

/-- An all-ones exponent with a nonzero fraction. -/
def isNan (bits : UInt64) : Bool :=
  bits.toNat / 2 ^ 52 % 2 ^ 11 == 2047 && bits.toNat % 2 ^ 52 != 0

def canonicalNan : UInt64 := 0x7FF8000000000000

def kCanonicalNanBody : ByteString := [0x00, 0x00, 0x00, 0x00, 0x00, 0x00, 0xF8, 0x7F]

def typeTag : ParamValue → UInt8
  | .bool _ => 0
  | .s64 _ => 1
  | .dp _ => 2
  | .str _ => 3
  | .bytes _ => 4

def leU64 (bits : UInt64) : ByteString := leBytes 8 bits.toNat

def encodeBody : ParamValue → ByteString
  | .bool value => [if value then 0x01 else 0x00]
  | .s64 value => leU64 value.toUInt64
  | .dp bits => if isNan bits then kCanonicalNanBody else leU64 bits
  | .str value => value
  | .bytes value => value

def encode (value : ParamValue) : ByteString :=
  typeTag value :: encodeBody value

def decodeBody (tag : UInt8) (body : ByteString) : Option ParamValue :=
  match tag with
  | 0 =>
      match body with
      | [byte] => some (.bool (byte != 0))
      | _ => none
  | 1 => if body.length ≠ 8 then none else some (.s64 (UInt64.ofNat (leValue body)).toInt64)
  | 2 => if body.length ≠ 8 then none else some (.dp (UInt64.ofNat (leValue body)))
  | 3 => some (.str body)
  | 4 => some (.bytes body)
  | _ => none

def decode : ByteString → Option ParamValue
  | [] => none
  | tag :: body => decodeBody tag body

/-- A value as every reader sees it: all NaNs are one. -/
def canonical : ParamValue → ParamValue
  | .dp bits => .dp (if isNan bits then canonicalNan else bits)
  | value => value

theorem canonical_canonical (value : ParamValue) :
    canonical (canonical value) = canonical value := by
  cases value with
  | dp bits =>
      by_cases hnan : isNan bits
      · simp only [canonical, hnan, if_true]
        rfl
      · simp [canonical, hnan]
  | _ => rfl

theorem leValue_leU64 (bits : UInt64) : leValue (leU64 bits) = bits.toNat := by
  apply leValue_leBytes
  exact bits.toNat_lt

@[simp]
theorem length_leU64 (bits : UInt64) : (leU64 bits).length = 8 :=
  length_leBytes 8 _

theorem decodeBody_encodeBody (value : ParamValue) :
    decodeBody (typeTag value) (encodeBody value) = some (canonical value) := by
  cases value with
  | bool value => cases value <;> rfl
  | s64 value => simp [typeTag, encodeBody, decodeBody, canonical, leValue_leU64]
  | dp bits =>
      by_cases hnan : isNan bits
      · simp only [typeTag, encodeBody, decodeBody, canonical, hnan, if_true]
        rfl
      · simp [typeTag, encodeBody, decodeBody, canonical, hnan, leValue_leU64]
  | str value => rfl
  | bytes value => rfl

/-- A stored value is read back up to its NaN pattern. -/
theorem decode_encode (value : ParamValue) : decode (encode value) = some (canonical value) :=
  decodeBody_encodeBody value

end Sitos.Value
