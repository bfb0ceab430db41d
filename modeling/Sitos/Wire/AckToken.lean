import Sitos.Core.Bytes

/-!
# Version 4 tokens

Acknowledgement tokens, session generations, publisher ids and instance ids
are all 16 random bytes with the version and variant bits of RFC 4122 set.  A
token has one spelling: 32 lower-case digits in five groups.
-/

namespace Sitos.Token

open Sitos.Bytes

structure AckToken where
  bytes : ByteString
  length_bytes : bytes.length = 16
  deriving DecidableEq, Repr

/-- The code of `-`. -/
def hyphen : UInt8 := 0x2D

/-- The lower-case hexadecimal digit of a number below 16. -/
def hexDigit (value : ℕ) : UInt8 :=
  if value < 10 then UInt8.ofNat (0x30 + value) else UInt8.ofNat (0x57 + value)

/-- Upper-case digits have no value. -/
def hexValue (c : UInt8) : Option ℕ :=
  if 0x30 ≤ c ∧ c ≤ 0x39 then some (c.toNat - 0x30)
  else if 0x61 ≤ c ∧ c ≤ 0x66 then some (c.toNat - 0x57)
  else none

/-- The version and variant bits. -/
def isValidBytes (bytes : ByteString) : Bool :=
  bytes.getD 6 0 &&& 0xF0 == 0x40 && bytes.getD 8 0 &&& 0xC0 == 0x80

def isValidAckToken (token : AckToken) : Bool := isValidBytes token.bytes

/-- The random bytes with the version and variant bits forced. -/
def generateAckToken (random : AckToken) : AckToken where
  bytes := (random.bytes.modify 6 fun byte => byte &&& 0x0F ||| 0x40).modify 8
    fun byte => byte &&& 0x3F ||| 0x80
  length_bytes := by simp [random.length_bytes]

/-- The text of the bytes from index `i` on. -/
def formatFrom : ℕ → ByteString → ByteString
  | _, [] => []
  | i, byte :: bytes =>
      (if i = 4 ∨ i = 6 ∨ i = 8 ∨ i = 10 then [hyphen] else []) ++
        hexDigit (byte.toNat / 16) :: hexDigit (byte.toNat % 16) :: formatFrom (i + 1) bytes

def formatAckToken (token : AckToken) : ByteString := formatFrom 0 token.bytes

/-- The bytes spelled from text position `i` on. -/
def parseFrom : ℕ → ByteString → Option ByteString
  | _, [] => some []
  | i, c :: rest =>
      if i = 8 ∨ i = 13 ∨ i = 18 ∨ i = 23 then
        if c ≠ hyphen then none else parseFrom (i + 1) rest
      else
        match rest with
        | [] => none
        | d :: rest => do
            let hi ← hexValue c
            let lo ← hexValue d
            let bytes ← parseFrom (i + 2) rest
            some (UInt8.ofNat (16 * hi + lo) :: bytes)

def parseAckToken (text : ByteString) : Option AckToken := do
  if text.length ≠ 36 then none
  else
    let bytes ← parseFrom 0 text
    if hlength : bytes.length = 16 then
      if isValidBytes bytes then some ⟨bytes, hlength⟩ else none
    else none

theorem hexValue_hexDigit {value : ℕ} (hvalue : value < 16) :
    hexValue (hexDigit value) = some value := by
  interval_cases value <;> rfl

theorem ofNat_nibbles (byte : UInt8) :
    UInt8.ofNat (16 * (byte.toNat / 16) + byte.toNat % 16) = byte := by
  rw [Nat.div_add_mod, UInt8.ofNat_toNat]

theorem hexValue_high (byte : UInt8) :
    hexValue (hexDigit (byte.toNat / 16)) = some (byte.toNat / 16) := by
  have hbyte := byte.toNat_lt
  exact hexValue_hexDigit (by omega)

theorem hexValue_low (byte : UInt8) :
    hexValue (hexDigit (byte.toNat % 16)) = some (byte.toNat % 16) :=
  hexValue_hexDigit (Nat.mod_lt _ (by norm_num))

/-- Where the text of byte `i` starts, hyphens counted. -/
def textPosition (i : ℕ) : ℕ :=
  2 * i + (if 4 < i then 1 else 0) + (if 6 < i then 1 else 0) + (if 8 < i then 1 else 0) +
    (if 10 < i then 1 else 0)

theorem textPosition_succ (i : ℕ) :
    textPosition (i + 1) =
      textPosition i + 2 + if i = 4 ∨ i = 6 ∨ i = 8 ∨ i = 10 then 1 else 0 := by
  unfold textPosition
  split_ifs <;> omega

/-- The hyphens the formatter writes stand where the parser expects them. -/
theorem textPosition_hyphen_iff (i : ℕ) :
    (textPosition i = 8 ∨ textPosition i = 13 ∨ textPosition i = 18 ∨ textPosition i = 23) ↔
      (i = 4 ∨ i = 6 ∨ i = 8 ∨ i = 10) := by
  unfold textPosition
  split_ifs <;> omega

theorem textPosition_add_length_formatFrom (i : ℕ) (bytes : ByteString) :
    textPosition i + (formatFrom i bytes).length = textPosition (i + bytes.length) := by
  induction bytes generalizing i with
  | nil => simp [formatFrom]
  | cons byte bytes ih =>
      have hrest := ih (i + 1)
      rw [textPosition_succ] at hrest
      rw [List.length_cons, ← Nat.add_assoc, Nat.add_right_comm, ← hrest, formatFrom]
      split_ifs <;> simp only [List.length_append, List.length_cons, List.length_nil] <;> omega

@[simp]
theorem length_formatAckToken (token : AckToken) : (formatAckToken token).length = 36 := by
  have hlength := textPosition_add_length_formatFrom 0 token.bytes
  rw [token.length_bytes] at hlength
  simpa [textPosition, formatAckToken] using hlength

/-- One byte, once its hyphen is out of the way. -/
theorem parseFrom_digits {position : ℕ} (byte : UInt8) (rest : ByteString)
    (hposition : ¬(position = 8 ∨ position = 13 ∨ position = 18 ∨ position = 23)) :
    parseFrom position (hexDigit (byte.toNat / 16) :: hexDigit (byte.toNat % 16) :: rest) =
      (parseFrom (position + 2) rest).map (byte :: ·) := by
  rw [parseFrom, if_neg hposition]
  simp only [hexValue_high, hexValue_low, Option.bind_eq_bind, Option.bind_some, ofNat_nibbles]
  cases parseFrom (position + 2) rest <;> rfl

theorem parseFrom_formatFrom (i : ℕ) (bytes : ByteString) :
    parseFrom (textPosition i) (formatFrom i bytes) = some bytes := by
  induction bytes generalizing i with
  | nil => rfl
  | cons byte bytes ih =>
      have hrest := ih (i + 1)
      rw [textPosition_succ] at hrest
      by_cases hi : i = 4 ∨ i = 6 ∨ i = 8 ∨ i = 10
      · have hhyphen := (textPosition_hyphen_iff i).mpr hi
        rw [if_pos hi] at hrest
        have hdigits : ¬(textPosition i + 1 = 8 ∨ textPosition i + 1 = 13 ∨
            textPosition i + 1 = 18 ∨ textPosition i + 1 = 23) := by
          omega
        rw [formatFrom, if_pos hi, List.singleton_append, parseFrom, if_pos hhyphen,
          if_neg (fun h => h rfl), parseFrom_digits byte _ hdigits, Nat.add_right_comm, hrest]
        rfl
      · have hdigits := (not_congr (textPosition_hyphen_iff i)).mpr hi
        rw [if_neg hi, Nat.add_zero] at hrest
        rw [formatFrom, if_neg hi, List.nil_append, parseFrom_digits byte _ hdigits, hrest]
        rfl

/-- A valid token is read back from its text. -/
theorem parseAckToken_formatAckToken {token : AckToken} (hvalid : isValidAckToken token = true) :
    parseAckToken (formatAckToken token) = some token := by
  have hparsed : parseFrom 0 (formatAckToken token) = some token.bytes :=
    parseFrom_formatFrom 0 token.bytes
  have hbytes : isValidBytes token.bytes = true := hvalid
  simp [parseAckToken, hparsed, hbytes, token.length_bytes]

theorem hexDigit_of_hexValue {c : UInt8} {value : ℕ} (hc : hexValue c = some value) :
    value < 16 ∧ hexDigit value = c := by
  have hdigit : ∀ c : UInt8, ∀ value ∈ hexValue c, value < 16 ∧ hexDigit value = c := by
    decide +kernel
  exact hdigit c value hc

theorem nibbles_ofNat {hi lo : ℕ} (hhi : hi < 16) (hlo : lo < 16) :
    (UInt8.ofNat (16 * hi + lo)).toNat / 16 = hi ∧ (UInt8.ofNat (16 * hi + lo)).toNat % 16 = lo := by
  have hvalue : (UInt8.ofNat (16 * hi + lo)).toNat = 16 * hi + lo := by
    rw [UInt8.toNat_ofNat']
    exact Nat.mod_eq_of_lt (by omega)
  omega

theorem parseFrom_hyphen {position : ℕ} (c : UInt8) (rest : ByteString)
    (hposition : position = 8 ∨ position = 13 ∨ position = 18 ∨ position = 23) :
    parseFrom position (c :: rest) =
      if c ≠ hyphen then none else parseFrom (position + 1) rest := by
  rw [parseFrom.eq_def]
  exact if_pos hposition

/-- What one byte was read from. -/
theorem eq_of_parseFrom_digits {position : ℕ} {text bytes : ByteString}
    (hposition : ¬(position = 8 ∨ position = 13 ∨ position = 18 ∨ position = 23))
    (htext : text ≠ []) (hparsed : parseFrom position text = some bytes) :
    ∃ byte rest later, bytes = byte :: later ∧
      text = hexDigit (byte.toNat / 16) :: hexDigit (byte.toNat % 16) :: rest ∧
      parseFrom (position + 2) rest = some later := by
  obtain ⟨c, text, rfl⟩ := List.exists_cons_of_ne_nil htext
  rw [parseFrom.eq_def] at hparsed
  simp only [if_neg hposition] at hparsed
  cases text with
  | nil => cases hparsed
  | cons d rest =>
      simp only [Option.bind_eq_bind, Option.bind_eq_some_iff] at hparsed
      obtain ⟨hi, hhi, lo, hlo, later, hlater, hbytes⟩ := hparsed
      obtain ⟨hhiLt, rfl⟩ := hexDigit_of_hexValue hhi
      obtain ⟨hloLt, rfl⟩ := hexDigit_of_hexValue hlo
      obtain ⟨hhigh, hlow⟩ := nibbles_ofNat hhiLt hloLt
      obtain rfl := Option.some.inj hbytes
      exact ⟨_, rest, later, rfl, by rw [hhigh, hlow], hlater⟩

/-- Only the formatter's text is read. -/
theorem eq_formatFrom_of_parseFrom {i : ℕ} {text bytes : ByteString}
    (hparsed : parseFrom (textPosition i) text = some bytes)
    (hlength : textPosition i + text.length = 36) : text = formatFrom i bytes := by
  induction bytes generalizing i text with
  | nil =>
      cases text with
      | nil => rfl
      | cons c text =>
          by_cases hi : textPosition i = 8 ∨ textPosition i = 13 ∨ textPosition i = 18 ∨
              textPosition i = 23
          · -- a hyphen alone leaves digits to read
            have hafter : ¬(textPosition i + 1 = 8 ∨ textPosition i + 1 = 13 ∨
                textPosition i + 1 = 18 ∨ textPosition i + 1 = 23) := by
              omega
            rw [parseFrom_hyphen c text hi] at hparsed
            split_ifs at hparsed
            rw [List.length_cons] at hlength
            have htext : text ≠ [] := List.ne_nil_of_length_pos (by omega)
            obtain ⟨_, _, _, hbytes, _⟩ := eq_of_parseFrom_digits hafter htext hparsed
            cases hbytes
          · obtain ⟨_, _, _, hbytes, _⟩ :=
              eq_of_parseFrom_digits hi (List.cons_ne_nil _ _) hparsed
            cases hbytes
  | cons byte bytes ih =>
      have hstep := textPosition_succ i
      by_cases hi : i = 4 ∨ i = 6 ∨ i = 8 ∨ i = 10
      · have hhyphen := (textPosition_hyphen_iff i).mpr hi
        have hafter : ¬(textPosition i + 1 = 8 ∨ textPosition i + 1 = 13 ∨
            textPosition i + 1 = 18 ∨ textPosition i + 1 = 23) := by
          omega
        rw [if_pos hi] at hstep
        cases text with
        | nil => cases hparsed
        | cons c text =>
            rw [parseFrom_hyphen c text hhyphen] at hparsed
            split_ifs at hparsed with hc
            rw [List.length_cons] at hlength
            have htext : text ≠ [] := List.ne_nil_of_length_pos (by omega)
            obtain ⟨_, rest, _, hbytes, rfl, hrest⟩ := eq_of_parseFrom_digits hafter htext hparsed
            obtain ⟨rfl, rfl⟩ := List.cons.inj hbytes
            have hposition : textPosition i + 1 + 2 = textPosition (i + 1) := by omega
            rw [hposition] at hrest
            have hlater := ih hrest (by simp only [List.length_cons] at hlength; omega)
            rw [formatFrom, if_pos hi, ← hlater, not_not.mp hc, List.singleton_append]
      · have hdigits := (not_congr (textPosition_hyphen_iff i)).mpr hi
        rw [if_neg hi, Nat.add_zero] at hstep
        have htext : text ≠ [] := by
          rintro rfl
          cases hparsed
        obtain ⟨_, rest, _, hbytes, rfl, hrest⟩ := eq_of_parseFrom_digits hdigits htext hparsed
        obtain ⟨rfl, rfl⟩ := List.cons.inj hbytes
        rw [← hstep] at hrest
        have hlater := ih hrest (by simp only [List.length_cons] at hlength; omega)
        rw [formatFrom, if_neg hi, ← hlater, List.nil_append]

/-- A token has one spelling. -/
theorem parseAckToken_eq_some_iff {text : ByteString} {token : AckToken} :
    parseAckToken text = some token ↔
      isValidAckToken token = true ∧ text = formatAckToken token := by
  constructor
  · intro hparsed
    rw [parseAckToken] at hparsed
    split_ifs at hparsed with hlength
    simp only [Option.bind_eq_bind, Option.bind_eq_some_iff] at hparsed
    obtain ⟨bytes, hbytes, hparsed⟩ := hparsed
    split_ifs at hparsed with hsize hvalid
    obtain rfl := Option.some.inj hparsed
    exact ⟨hvalid, eq_formatFrom_of_parseFrom (i := 0) hbytes (by simpa [textPosition] using hlength)⟩
  · rintro ⟨hvalid, rfl⟩
    exact parseAckToken_formatAckToken hvalid

theorem isValidAckToken_generateAckToken (random : AckToken) :
    isValidAckToken (generateAckToken random) = true := by
  have hversion : ∀ byte : UInt8, (byte &&& 0x0F ||| 0x40) &&& 0xF0 = 0x40 := by decide +kernel
  have hvariant : ∀ byte : UInt8, (byte &&& 0x3F ||| 0x80) &&& 0xC0 = 0x80 := by decide +kernel
  have hlength := random.length_bytes
  simp [isValidAckToken, isValidBytes, generateAckToken, hlength, hversion, hvariant]

end Sitos.Token
