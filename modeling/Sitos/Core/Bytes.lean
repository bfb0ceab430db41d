import Mathlib

/-!
# Byte strings and little-endian words

Keys, payloads and catalog texts are byte sequences, never Unicode strings, so
every text of the model is a list of bytes.  The word codec below is the
shift-and-mask loop written with quotients and remainders: byte `i` of a word
holds bits `8*i .. 8*i+7`.
-/

namespace Sitos.Bytes

abbrev ByteString := List UInt8

/-- Bytes compare as unsigned numbers, and byte strings as `std::string` compares them. -/
instance linearOrderByte : LinearOrder UInt8 where
  le_refl := UInt8.le_refl
  le_trans _ _ _ := UInt8.le_trans
  le_antisymm _ _ := UInt8.le_antisymm
  le_total := UInt8.le_total
  lt_iff_le_not_ge first second := by
    rw [UInt8.lt_iff_toNat_lt, UInt8.le_iff_toNat_le, UInt8.le_iff_toNat_le]
    omega
  toDecidableLE := inferInstance

/-- Named, so that no definition has to carry the proof. -/
instance lawfulBEqByteString : LawfulBEq ByteString := inferInstance

/-- The bytes of a source literal.  Every literal of the source is ASCII. -/
def ascii (text : String) : ByteString :=
  text.toList.map fun character => UInt8.ofNat character.toNat

/-- The `width` little-endian bytes of `value`, higher bits cut off. -/
def leBytes : ℕ → ℕ → ByteString
  | 0, _ => []
  | width + 1, value => UInt8.ofNat (value % 256) :: leBytes width (value / 256)

def leValue : ByteString → ℕ
  | [] => 0
  | byte :: bytes => byte.toNat + 256 * leValue bytes

@[simp]
theorem length_leBytes (width value : ℕ) :
    (leBytes width value).length = width := by
  induction width generalizing value with
  | zero => rfl
  | succ width ih => simp [leBytes, ih]

theorem leValue_lt (bytes : ByteString) :
    leValue bytes < 256 ^ bytes.length := by
  induction bytes with
  | nil => simp [leValue]
  | cons byte bytes ih =>
      have hbyte := byte.toNat_lt
      rw [leValue, List.length_cons, pow_succ]
      omega

/-- A word that fits its width survives the codec unchanged. -/
theorem leValue_leBytes {width value : ℕ} (hvalue : value < 256 ^ width) :
    leValue (leBytes width value) = value := by
  induction width generalizing value with
  | zero =>
      have hzero : value = 0 := by simpa using hvalue
      rw [hzero, leBytes, leValue]
  | succ width ih =>
      have hquotient : value / 256 < 256 ^ width := by
        rw [pow_succ] at hvalue
        exact Nat.div_lt_of_lt_mul (by omega)
      have hbyte : (UInt8.ofNat (value % 256)).toNat = value % 256 := by
        simp
      rw [leBytes, leValue, ih hquotient, hbyte]
      omega

theorem leBytes_leValue (bytes : ByteString) :
    leBytes bytes.length (leValue bytes) = bytes := by
  induction bytes with
  | nil => rfl
  | cons byte bytes ih =>
      have hbyte := byte.toNat_lt
      have hremainder : (byte.toNat + 256 * leValue bytes) % 256 = byte.toNat := by
        omega
      have hquotient : (byte.toNat + 256 * leValue bytes) / 256 = leValue bytes := by
        omega
      rw [leValue, List.length_cons, leBytes, hremainder, hquotient, ih]
      simp

end Sitos.Bytes
