import Sitos.Client.SessionMetadataReader
import Sitos.Wire.Utf8

/-!
# The tokens of the metadata parser

White space, numbers and strings: what the parser takes of each is what the grammar says.  The
parser takes the bytes `F8` to `FC` for the leading bytes `F0` to `F4`, so a text must have none of
them.
-/

namespace Sitos.SessionMetadata

open Sitos.AckResult
open Sitos.Bytes
open Sitos.Cursor
open Sitos.FlatJson (take)
open Sitos.Json

/-- The bytes that lead no character and are taken for ones that do. -/
def isAlias (c : UInt8) : Bool := 0xF8 ≤ c && c ≤ 0xFC

/-- No byte of the text is an alias. -/
def Clean (text : ByteString) : Prop := ∀ c ∈ text, isAlias c = false

/-! ## White space -/

section Spaces

variable {text rest : ByteString} {c : UInt8}

theorem spaces_skipWhitespace (text : ByteString) : Spaces text (skipWhitespace text) :=
  ⟨text.takeWhile isSpace, fun _ hc => List.mem_takeWhile_imp hc,
    (List.takeWhile_append_dropWhile).symm⟩

/-- The parser stops where no more white space follows. -/
theorem skipWhitespace_eq (hspaces : Spaces text rest)
    (hrest : ∀ c ∈ rest.head?, isSpace c = false) :
    skipWhitespace text = rest := by
  obtain ⟨space, hspace, rfl⟩ := hspaces
  rw [skipWhitespace, List.dropWhile_append_of_pos hspace]
  cases rest with
  | nil => rfl
  | cons c rest => rw [List.dropWhile_cons_of_neg (by simp [hrest c rfl])]

theorem take_skipWhitespace_iff (hc : isSpace c = false) :
    take c (skipWhitespace text) = some rest ↔ Spaces text (c :: rest) := by
  constructor
  · intro htake
    have hspaces := spaces_skipWhitespace text
    rw [FlatJson.eq_cons_of_take htake] at hspaces
    exact hspaces
  · intro hspaces
    rw [skipWhitespace_eq hspaces fun c' hc' => Option.some.inj hc' ▸ hc, FlatJson.take_cons]

theorem take_skipWhitespace_eq_none (other : UInt8) (hc : isSpace c = false) (hne : c ≠ other)
    (hspaces : Spaces text (c :: rest)) : take other (skipWhitespace text) = none := by
  rw [skipWhitespace_eq hspaces fun c' hc' => Option.some.inj hc' ▸ hc, FlatJson.take_ne _ hne]

theorem suffix_of_spaces (hspaces : Spaces text rest) : rest <:+ text := by
  obtain ⟨space, -, rfl⟩ := hspaces
  exact List.suffix_append space rest

end Spaces

/-! ## Numbers -/

section Numbers

variable {text rest : ByteString}

/-- Nothing that could go on with a number. -/
def EndsNumber (rest : ByteString) : Prop :=
  ∀ c ∈ rest.head?, isDigit c = false ∧ c ≠ decimalPoint ∧ c ≠ 0x65 ∧ c ≠ 0x45

theorem dropWhile_digits {digits : ByteString} (hdigits : ∀ c ∈ digits, isDigit c = true)
    (hrest : ∀ c ∈ rest.head?, isDigit c = false) :
    (digits ++ rest).dropWhile isDigit = rest := by
  rw [List.dropWhile_append_of_pos hdigits]
  cases rest with
  | nil => rfl
  | cons c rest => rw [List.dropWhile_cons_of_neg (by simp [hrest c rfl])]

theorem digits_of_head (hhead : text.head?.any isDigit = true) :
    Digits text (text.dropWhile isDigit) := by
  refine ⟨text.takeWhile isDigit, ?_, fun _ hc => List.mem_takeWhile_imp hc,
    (List.takeWhile_append_dropWhile).symm⟩
  cases text with
  | nil => cases hhead
  | cons c text => simp_all

theorem head_of_digits (hdigits : Digits text rest) : text.head?.any isDigit = true := by
  obtain ⟨digits, hne, hall, rfl⟩ := hdigits
  cases digits with
  | nil => exact absurd rfl hne
  | cons c digits => simpa using hall c List.mem_cons_self

theorem requireDigits_of_digits (hdigits : Digits text rest)
    (hrest : ∀ c ∈ rest.head?, isDigit c = false) : requireDigits text = some rest := by
  rw [requireDigits, if_pos (head_of_digits hdigits)]
  obtain ⟨digits, -, hall, rfl⟩ := hdigits
  rw [dropWhile_digits hall hrest]

theorem digits_of_requireDigits (hread : requireDigits text = some rest) : Digits text rest := by
  rw [requireDigits] at hread
  split_ifs at hread with hhead
  obtain rfl := Option.some.inj hread
  exact digits_of_head hhead

theorem isDigit_iff (c : UInt8) : isDigit c = true ↔ 0x30 ≤ c.toNat ∧ c.toNat ≤ 0x39 := by
  rw [isDigit, Bool.and_eq_true, decide_eq_true_iff, decide_eq_true_iff, UInt8.le_iff_toNat_le,
    UInt8.le_iff_toNat_le]
  rfl

theorem head_dropWhile_isDigit (text : ByteString) :
    ∀ c ∈ (text.dropWhile isDigit).head?, isDigit c = false := by
  intro c hc
  have hnot := List.head?_dropWhile_not isDigit text
  rw [hc] at hnot
  simpa using hnot

/-- A digit that is not zero. -/
theorem isDigit_of_range (c : UInt8) (hrange : ¬(c < 0x31 ∨ 0x39 < c)) :
    isDigit c = true ∧ c ≠ zero := by
  simp only [not_or, UInt8.not_lt, UInt8.le_iff_toNat_le] at hrange
  have hlow : 0x31 ≤ c.toNat := hrange.1
  refine ⟨(isDigit_iff c).mpr ⟨by omega, hrange.2⟩, ?_⟩
  rintro rfl
  exact absurd hlow (by decide)

theorem range_of_isDigit (c : UInt8) (hdigit : isDigit c = true) (hne : c ≠ zero) :
    ¬(c < 0x31 ∨ 0x39 < c) := by
  obtain ⟨hlow, hhigh⟩ := (isDigit_iff c).mp hdigit
  simp only [not_or, UInt8.not_lt, UInt8.le_iff_toNat_le]
  have hvalue : c.toNat ≠ 0x30 := fun heq => hne (UInt8.toNat_inj.mp heq)
  exact ⟨show 0x31 ≤ c.toNat by omega, hhigh⟩

theorem skipInt_iff :
    skipInt text = some rest ↔ Int text rest ∧ ∀ c ∈ rest.head?, isDigit c = false := by
  constructor
  · intro hread
    cases text with
    | nil => cases hread
    | cons first text =>
        rw [skipInt] at hread
        split_ifs at hread with hzero hdigit hrange
        · obtain rfl := Option.some.inj hread
          refine ⟨.inl (by rw [hzero]), fun c hc => ?_⟩
          rw [hc, Option.any_some] at hdigit
          simpa using hdigit
        · obtain rfl := Option.some.inj hread
          have hfirst := isDigit_of_range first hrange
          refine ⟨.inr ⟨by simpa using hfirst.2, digits_of_head (by simpa using hfirst.1)⟩,
            head_dropWhile_isDigit _⟩
  · rintro ⟨rfl | ⟨hhead, hdigits⟩, hrest⟩
    · rw [skipInt, if_pos rfl, if_neg]
      cases hnext : rest.head? with
      | none => simp
      | some c => simp [hrest c hnext]
    · have hfirst := head_of_digits hdigits
      obtain ⟨digits, -, hall, htext⟩ := hdigits
      cases text with
      | nil => cases hfirst
      | cons first text =>
          have hne : first ≠ zero := by simpa using hhead
          have hdigit : isDigit first = true := by simpa using hfirst
          rw [skipInt, if_neg hne, if_neg (range_of_isDigit first hdigit hne), htext,
            dropWhile_digits hall hrest]

theorem frac_of_skipFraction (hread : skipFraction text = some rest) : Frac text rest := by
  rw [skipFraction] at hread
  cases htake : take decimalPoint text with
  | none =>
      rw [htake] at hread
      exact .inl (Option.some.inj hread)
  | some digits =>
      rw [htake] at hread
      exact .inr ⟨digits, FlatJson.eq_cons_of_take htake, digits_of_requireDigits hread⟩

theorem skipFraction_of_frac (hfrac : Frac text rest)
    (hrest : ∀ c ∈ rest.head?, isDigit c = false ∧ c ≠ decimalPoint) :
    skipFraction text = some rest := by
  rw [skipFraction]
  rcases hfrac with rfl | ⟨digits, rfl, hdigits⟩
  · cases text with
    | nil => rfl
    | cons c text => rw [FlatJson.take_ne _ (hrest c rfl).2]
  · rw [FlatJson.take_cons]
    exact requireDigits_of_digits hdigits fun c hc => (hrest c hc).1

theorem sign_skipSign (text : ByteString) : Sign text (skipSign text) := by
  rw [skipSign]
  split_ifs with hsign
  · cases text with
    | nil => simp at hsign
    | cons c text =>
        simp only [List.head?_cons, Option.some.injEq] at hsign
        rcases hsign with rfl | rfl
        · exact .inr (.inl rfl)
        · exact .inr (.inr rfl)
  · exact .inl rfl

theorem skipSign_of_sign (hsign : Sign text rest) (hrest : rest.head?.any isDigit = true) :
    skipSign text = rest := by
  rw [skipSign]
  rcases hsign with rfl | rfl | rfl
  · rw [if_neg]
    rintro (hplus | hminus)
    · rw [hplus] at hrest
      revert hrest
      decide
    · rw [hminus] at hrest
      revert hrest
      decide
  · rw [if_pos (.inl rfl)]
    rfl
  · rw [if_pos (.inr rfl)]
    rfl

theorem exp_of_skipExponent (hread : skipExponent text = some rest) : Exp text rest := by
  rw [skipExponent] at hread
  split_ifs at hread with he
  · cases text with
    | nil => simp at he
    | cons e text =>
        simp only [List.head?_cons, Option.some.injEq] at he
        exact .inr ⟨e, text, skipSign text, he, rfl, sign_skipSign text,
          digits_of_requireDigits hread⟩
  · exact .inl (Option.some.inj hread)

theorem skipExponent_of_exp (hexp : Exp text rest) (hrest : EndsNumber rest) :
    skipExponent text = some rest := by
  rw [skipExponent]
  rcases hexp with rfl | ⟨e, sign, digits, he, rfl, hsign, hdigits⟩
  · rw [if_neg]
    rintro (he | he)
    · exact (hrest _ he).2.2.1 rfl
    · exact (hrest _ he).2.2.2 rfl
  · rw [if_pos (by simpa using he), List.drop_succ_cons, List.drop_zero,
      skipSign_of_sign hsign (head_of_digits hdigits)]
    exact requireDigits_of_digits hdigits fun c hc => (hrest c hc).1

theorem number_of_skipNumber (hread : skipNumber text = some rest) : Number text rest := by
  rw [skipNumber] at hread
  split_ifs at hread with hbegin hminus
  · simp only [Option.bind_eq_bind, Option.bind_eq_some_iff] at hread
    obtain ⟨frac, hint, exp, hfrac, hexp⟩ := hread
    cases text with
    | nil => cases hminus
    | cons c text =>
        obtain rfl : c = minus := by simpa using hminus
        exact ⟨text, frac, exp, .inr rfl, (skipInt_iff.mp hint).1, frac_of_skipFraction hfrac,
          exp_of_skipExponent hexp⟩
  · simp only [Option.bind_eq_bind, Option.bind_eq_some_iff] at hread
    obtain ⟨frac, hint, exp, hfrac, hexp⟩ := hread
    exact ⟨text, frac, exp, .inl rfl, (skipInt_iff.mp hint).1, frac_of_skipFraction hfrac,
      exp_of_skipExponent hexp⟩

/-- An integer begins with a digit. -/
theorem head_of_int (hint : Int text rest) : text.head?.any isDigit = true := by
  rcases hint with rfl | ⟨-, hdigits⟩
  · show Option.any isDigit (some zero) = true
    decide
  · exact head_of_digits hdigits

theorem skipNumber_of_number (hnumber : Number text rest) (hrest : EndsNumber rest) :
    skipNumber text = some rest := by
  obtain ⟨int, frac, exp, hminus, hint, hfrac, hexp⟩ := hnumber
  -- neither an exponent nor what is behind it goes on with the digits before
  have hends : ∀ c ∈ exp.head?, isDigit c = false ∧ c ≠ decimalPoint := by
    rcases hexp with rfl | ⟨e, sign, digits, he, rfl, -, -⟩
    · exact fun c hc => ⟨(hrest c hc).1, (hrest c hc).2.1⟩
    · rintro c ⟨⟩
      rcases he with rfl | rfl <;> decide
  have hfracEnds : ∀ c ∈ frac.head?, isDigit c = false := by
    rcases hfrac with rfl | ⟨digits, rfl, -⟩
    · exact fun c hc => (hends c hc).1
    · rintro c ⟨⟩
      decide
  have hread : (skipInt int >>= fun text => skipFraction text >>= skipExponent) = some rest := by
    rw [skipInt_iff.mpr ⟨hint, hfracEnds⟩]
    show skipFraction frac >>= skipExponent = some rest
    rw [skipFraction_of_frac hfrac hends]
    exact skipExponent_of_exp hexp hrest
  have hhead := head_of_int hint
  rcases hminus with rfl | rfl
  · have hne : ¬text.head? = some minus := by
      intro heq
      rw [heq] at hhead
      revert hhead
      decide
    rw [skipNumber, if_neg (by simp [hhead]), if_neg hne]
    exact hread
  · rw [skipNumber, if_neg (by simp), if_pos List.head?_cons]
    exact hread

/-- A number begins with a sign or a digit. -/
theorem head_of_number (hnumber : Number text rest) :
    ∃ c tail, text = c :: tail ∧ (c = minus ∨ isDigit c = true) := by
  obtain ⟨int, _, _, hminus, hint, -, -⟩ := hnumber
  have hhead := head_of_int hint
  rcases hminus with rfl | rfl
  · cases text with
    | nil => cases hhead
    | cons c tail => exact ⟨c, tail, rfl, .inr (by simpa using hhead)⟩
  · exact ⟨minus, int, rfl, .inl rfl⟩

end Numbers

/-! ## Characters -/

section Characters

variable {text rest : ByteString}

theorem hexValue_eq (c : UInt8) : hexValue c = hexDigitValue c := rfl

theorem readHex4_iff {value : ℕ} : readHex4 text = some (value, rest) ↔ Hex4 text value rest := by
  constructor
  · intro hread
    rcases text with _ | ⟨c1, _ | ⟨c2, _ | ⟨c3, _ | ⟨c4, text⟩⟩⟩⟩
    · cases hread
    · cases hread
    · cases hread
    · cases hread
    · simp only [readHex4, Option.bind_eq_bind, Option.bind_eq_some_iff] at hread
      obtain ⟨d1, h1, d2, h2, d3, h3, d4, h4, hsome⟩ := hread
      obtain ⟨hvalue, rfl⟩ := Prod.mk.inj (Option.some.inj hsome)
      exact ⟨c1, c2, c3, c4, d1, d2, d3, d4, rfl, h1, h2, h3, h4, hvalue.symm⟩
  · rintro ⟨c1, c2, c3, c4, d1, d2, d3, d4, rfl, h1, h2, h3, h4, rfl⟩
    simp only [readHex4, hexValue_eq, h1, h2, h3, h4, Option.bind_eq_bind, Option.bind_some]

theorem hexDigitValue_lt (c : UInt8) {digit : ℕ} (hdigit : hexDigitValue c = some digit) :
    digit < 16 := by
  rw [hexDigitValue] at hdigit
  simp only [UInt8.le_iff_toNat_le] at hdigit
  split_ifs at hdigit with hdecimal hlower hupper <;> obtain rfl := Option.some.inj hdigit
  · have hbound : c.toNat ≤ 0x39 := hdecimal.2
    omega
  · have hbound : c.toNat ≤ 0x66 := hlower.2
    omega
  · have hbound : c.toNat ≤ 0x46 := hupper.2
    omega

theorem lt_of_hex4 {value : ℕ} (hhex : Hex4 text value rest) : value < 0x10000 := by
  obtain ⟨c1, c2, c3, c4, d1, d2, d3, d4, -, h1, h2, h3, h4, rfl⟩ := hhex
  have hlt1 := hexDigitValue_lt c1 h1
  have hlt2 := hexDigitValue_lt c2 h2
  have hlt3 := hexDigitValue_lt c3 h3
  have hlt4 := hexDigitValue_lt c4 h4
  omega

/-- A scalar value is appended in its encoding. -/
theorem appendCodePoint_eq (c : Char) : appendCodePoint c.val.toNat = encode c := by
  have hmax : c.val.toNat < 0x110000 := by
    have hvalid : c.val.toNat < 0xD800 ∨ 0xDFFF < c.val.toNat ∧ c.val.toNat < 0x110000 := c.valid
    omega
  rw [appendCodePoint, encode, String.utf8EncodeChar]
  generalize c.val.toNat = v at hmax
  split_ifs
  · rfl
  · rw [show v / 64 % 32 + 0xC0 = 0xC0 + v / 64 by omega, Nat.add_comm (v % 64)]
  · rw [show v / 4096 % 16 + 0xE0 = 0xE0 + v / 4096 by omega, Nat.add_comm (v / 64 % 64),
      Nat.add_comm (v % 64)]
  · rw [show v / 262144 % 8 + 0xF0 = 0xF0 + v / 262144 by omega, Nat.add_comm (v / 4096 % 64),
      Nat.add_comm (v / 64 % 64), Nat.add_comm (v % 64)]

theorem exists_char {value : ℕ} (hvalue : value < 0xD800 ∨ 0xDFFF < value ∧ value < 0x110000) :
    ∃ c : Char, c.val.toNat = value :=
  ⟨Char.ofNatAux value hvalue, rfl⟩

/-- The character behind an escaped `u`. -/
theorem character_of_parseUnicodeEscape {piece : ByteString}
    (hread : parseUnicodeEscape text = some (piece, rest)) :
    Character (reverseSolidus :: unicodeMark :: text) piece rest := by
  simp only [parseUnicodeEscape, Option.bind_eq_bind, Option.bind_eq_some_iff, Prod.exists] at hread
  obtain ⟨first, afterFirst, hfirst, hread⟩ := hread
  rw [readHex4_iff] at hfirst
  have hlt := lt_of_hex4 hfirst
  split_ifs at hread with hlow hhigh
  · simp only [Option.bind_eq_some_iff, Prod.exists] at hread
    obtain ⟨afterEscape, htake1, afterMark, htake2, second, afterSecond, hsecond, hread⟩ := hread
    rw [readHex4_iff] at hsecond
    split_ifs at hread with hsecondLow
    obtain ⟨rfl, rfl⟩ := Prod.mk.inj (Option.some.inj hread)
    rw [FlatJson.eq_cons_of_take htake1, FlatJson.eq_cons_of_take htake2] at hfirst
    obtain ⟨c, hc⟩ : ∃ c : Char,
        c.val.toNat = 0x10000 + (first - 0xD800) * 0x400 + (second - 0xDC00) :=
      exists_char (by omega)
    rw [← hc, appendCodePoint_eq]
    exact .surrogates c first second hfirst hsecond hhigh (by omega) hc
  · obtain ⟨rfl, rfl⟩ := Prod.mk.inj (Option.some.inj hread)
    obtain ⟨c, hc⟩ : ∃ c : Char, c.val.toNat = first := exists_char (by omega)
    rw [← hc, appendCodePoint_eq]
    exact .unicode c (hc ▸ hfirst)

theorem continuations_eq (count codePoint : ℕ) (text : ByteString) :
    continuations count codePoint text = Utf8.follow count codePoint text := by
  induction count generalizing codePoint text with
  | zero => rfl
  | succ count ih =>
      cases text with
      | nil => rfl
      | cons c text =>
          rw [continuations, Utf8.follow, ih]
          cases isContinuation c <;> rfl

theorem le_of_follow {count codePoint result : ℕ}
    (hfollow : Utf8.follow count codePoint text = some (result, rest)) :
    codePoint * 64 ^ count ≤ result := by
  induction count generalizing codePoint text with
  | zero =>
      obtain ⟨rfl, -⟩ := Prod.mk.inj (Option.some.inj hfollow)
      omega
  | succ count ih =>
      cases text with
      | nil => cases hfollow
      | cons c text =>
          rw [Utf8.follow] at hfollow
          split_ifs at hfollow
          calc codePoint * 64 ^ (count + 1)
              = codePoint * 64 * 64 ^ count := by ring
            _ ≤ (codePoint * 64 + continuationBits c) * 64 ^ count :=
                Nat.mul_le_mul_right _ (Nat.le_add_right _ _)
            _ ≤ result := ih hfollow

/-- What the width of a leading byte says, and what it says of the other bytes. -/
theorem lead_of_width (value : UInt8) (hascii : ¬value < 0x80) (halias : isAlias value = false) :
    (width value = 0 ∧ Utf8.lead value = none) ∨
    (∃ count, width value = count + 1 ∧ 1 ≤ count ∧
      Utf8.lead value = some (count, leadBits value) ∧ (count = 1 → 2 ≤ leadBits value)) ∨
    (width value = 4 ∧ Utf8.lead value = none ∧ 5 ≤ leadBits value) := by
  have hcheck : ∀ value : UInt8, ¬value < 0x80 → isAlias value = false →
      (width value = 0 ∧ Utf8.lead value = none) ∨
      (∃ count ∈ [1, 2, 3], width value = count + 1 ∧
        Utf8.lead value = some (count, leadBits value) ∧ (count = 1 → 2 ≤ leadBits value)) ∨
      (width value = 4 ∧ Utf8.lead value = none ∧ 5 ≤ leadBits value) := by
    decide +kernel
  rcases hcheck value hascii halias with hnone | ⟨count, hcount, hwidth, hlead⟩ | hbeyond
  · exact .inl hnone
  · refine .inr (.inl ⟨count, hwidth, ?_, hlead⟩)
    simp only [List.mem_cons, List.not_mem_nil, or_false] at hcount
    omega
  · exact .inr (.inr hbeyond)

theorem isRefused_eq {count codePoint : ℕ} (hcount : 1 ≤ count ∧ count ≤ 3)
    (hone : count = 1 → 0x80 ≤ codePoint) :
    isRefused (count + 1) codePoint = !Utf8.inRange count codePoint := by
  rw [Bool.eq_iff_iff, Bool.not_eq_true', ← Bool.not_eq_true, Utf8.inRange_iff, isRefused, minimum]
  simp only [Bool.or_eq_true, Bool.and_eq_true, decide_eq_true_iff]
  split_ifs <;> omega

/-- The leading byte of an encoded character and the bytes behind it. -/
theorem lead_of_encode {value : UInt8} {c : Char} (htext : value :: text = encode c ++ rest) :
    ∃ count bits, Utf8.lead value = some (count, bits) ∧
      Utf8.follow count bits text = some (c.val.toNat, rest) ∧
        Utf8.inRange count c.val.toNat = true := by
  obtain ⟨c0, tail, count, bits, hencode, hlead, hfollow, hrange⟩ :=
    Utf8.exists_lead_of_encode c rest
  rw [encode, hencode, List.cons_append] at htext
  obtain ⟨rfl, rfl⟩ := List.cons.inj htext
  exact ⟨count, bits, hlead, hfollow, hrange⟩

/-- A character outside ASCII. -/
theorem multibyte_iff {value : UInt8} {piece : ByteString} (hascii : ¬value < 0x80)
    (halias : isAlias value = false) :
    multibyte value text = some (piece, rest) ↔
      ∃ c : Char, value :: text = encode c ++ rest ∧ piece = encode c := by
  rw [multibyte]
  simp only [continuations_eq, Option.bind_eq_bind]
  have hnone (hlead : Utf8.lead value = none) :
      ¬∃ c : Char, value :: text = encode c ++ rest ∧ piece = encode c := by
    rintro ⟨c, htext, -⟩
    obtain ⟨count, bits, hsome, -⟩ := lead_of_encode htext
    rw [hlead] at hsome
    cases hsome
  rcases lead_of_width value hascii halias with
    ⟨hwidth, hlead⟩ | ⟨count, hwidth, hcount, hlead, hone⟩ | ⟨hwidth, hlead, hbits⟩
  · rw [if_pos hwidth]
    exact iff_of_false (by simp) (hnone hlead)
  · have hthree : count ≤ 3 := by
      have hle := width_le value
      omega
    rw [if_neg (by omega), hwidth, Nat.add_sub_cancel]
    -- the continuation bytes leave at least the bits of the leading byte
    have hrefused : ∀ codePoint after,
        Utf8.follow count (leadBits value) text = some (codePoint, after) →
          isRefused (count + 1) codePoint = !Utf8.inRange count codePoint := by
      intro codePoint after hfollow
      have hle := le_of_follow hfollow
      refine isRefused_eq ⟨hcount, hthree⟩ fun heq => ?_
      have htwo := hone heq
      rw [heq] at hle
      omega
    constructor
    · intro hread
      obtain ⟨⟨codePoint, after⟩, hfollow, hread⟩ := Option.bind_eq_some_iff.mp hread
      simp only [hrefused codePoint after hfollow, Bool.not_eq_true'] at hread
      split_ifs at hread with hrange
      obtain ⟨rfl, rfl⟩ := Prod.mk.inj (Option.some.inj hread)
      rw [Bool.not_eq_false] at hrange
      obtain ⟨c, htext⟩ := Utf8.exists_encode_of_lead hlead hfollow hrange
      obtain ⟨count', bits, hlead', hfollow', -⟩ := lead_of_encode htext
      obtain ⟨rfl, rfl⟩ := Prod.mk.inj (Option.some.inj (hlead.symm.trans hlead'))
      have hcode := (Prod.mk.inj (Option.some.inj (hfollow.symm.trans hfollow'))).1
      exact ⟨c, htext, by rw [hcode, appendCodePoint_eq]⟩
    · rintro ⟨c, htext, rfl⟩
      obtain ⟨count', bits, hlead', hfollow, hrange⟩ := lead_of_encode htext
      obtain ⟨rfl, rfl⟩ := Prod.mk.inj (Option.some.inj (hlead.symm.trans hlead'))
      rw [hfollow, Option.bind_some]
      simp only [hrefused _ _ hfollow, hrange, appendCodePoint_eq]
      simp
  · refine iff_of_false ?_ (hnone hlead)
    rw [if_neg (by omega), hwidth]
    intro hread
    obtain ⟨⟨codePoint, after⟩, hfollow, hread⟩ := Option.bind_eq_some_iff.mp hread
    have hle := le_of_follow hfollow
    have hbeyond : isRefused 4 codePoint = true := by
      simp only [isRefused, Bool.or_eq_true, decide_eq_true_iff]
      omega
    simp [hbeyond] at hread

/-- The first byte of a character. -/
theorem head_of_encode (c : Char) : ∃ first tail, encode c = first :: tail ∧
    (c.val.toNat < 0x80 → first.toNat = c.val.toNat ∧ tail = []) ∧
    (0x80 ≤ c.val.toNat → 0x80 ≤ first.toNat) := by
  obtain ⟨first, tail, count, bits, hencode, hlead, hfollow, hrange⟩ :=
    Utf8.exists_lead_of_encode c []
  rw [List.append_nil] at hfollow
  have hle := le_of_follow hfollow
  obtain ⟨htwo, hthree, -, -⟩ := Utf8.inRange_iff.mp hrange
  refine ⟨first, tail, hencode, fun hascii => ?_, fun hwide => ?_⟩
  · rcases Utf8.lead_eq_some_iff.mp hlead with ⟨-, rfl, rfl⟩ | ⟨hlow, hhigh, rfl, rfl⟩ |
      ⟨-, -, rfl, -⟩ | ⟨-, -, rfl, -⟩
    · obtain ⟨hvalue, rfl⟩ := Prod.mk.inj (Option.some.inj hfollow)
      exact ⟨hvalue, rfl⟩
    · omega
    · have hbound := htwo rfl
      omega
    · have hbound := hthree rfl
      omega
  · rcases Utf8.lead_eq_some_iff.mp hlead with ⟨hsmall, rfl, rfl⟩ | ⟨hlow, -, -, -⟩ |
      ⟨hlow, -, -, -⟩ | ⟨hlow, -, -, -⟩
    · obtain ⟨hvalue, -⟩ := Prod.mk.inj (Option.some.inj hfollow)
      omega
    · omega
    · omega
    · omega

/-- The escapes of two bytes, as the parser lists them. -/
theorem escapeOf_iff : ∀ escaped value : UInt8,
    escaped ≠ unicodeMark → (escapeOf escaped = some value ↔ (escaped, value) ∈ shortEscapes) := by
  have hcheck : ∀ escaped : UInt8, escaped ≠ unicodeMark →
      (shortEscapes.filter fun pair => pair.1 = escaped).map Prod.snd =
        (escapeOf escaped).toList := by
    decide +kernel
  intro escaped value hmark
  have hlist := hcheck escaped hmark
  have hmem : value ∈ (escapeOf escaped).toList ↔ (escaped, value) ∈ shortEscapes := by
    rw [← hlist, List.mem_map]
    simp [List.mem_filter]
  rw [← hmem, Option.mem_toList]

theorem not_mem_shortEscapes (value : UInt8) : (unicodeMark, value) ∉ shortEscapes := by
  simp [shortEscapes, unicodeMark]

theorem toNat_reverseSolidus : reverseSolidus.toNat = 0x5C := rfl

theorem toNat_quotationMark : quotationMark.toNat = 0x22 := rfl

/-- A byte that begins an unescaped character. -/
theorem character_unescaped_iff {value : UInt8} {piece : ByteString}
    (hquotation : value ≠ quotationMark) (hescape : value ≠ reverseSolidus)
    (halias : isAlias value = false) :
    character value text = some (piece, rest) ↔
      ∃ c : Char, 0x20 ≤ c.val.toNat ∧ value :: text = encode c ++ rest ∧ piece = encode c := by
  rw [character]
  split_ifs with hcontrol hascii
  · refine iff_of_false (by simp) ?_
    rintro ⟨c, hprintable, htext, -⟩
    obtain ⟨first, tail, hencode, hsmall, hwide⟩ := head_of_encode c
    rw [hencode, List.cons_append] at htext
    obtain ⟨rfl, -⟩ := List.cons.inj htext
    have hvalue : value.toNat < 0x20 := UInt8.lt_iff_toNat_lt.mp hcontrol
    by_cases hc : c.val.toNat < 0x80
    · have heq := (hsmall hc).1
      omega
    · have hle := hwide (by omega)
      omega
  · have hvalue : value.toNat < 0x80 := UInt8.lt_iff_toNat_lt.mp hascii
    have hprintable : 0x20 ≤ value.toNat := by
      rw [UInt8.not_lt, UInt8.le_iff_toNat_le] at hcontrol
      exact hcontrol
    constructor
    · intro hread
      obtain ⟨rfl, rfl⟩ := Prod.mk.inj (Option.some.inj hread)
      obtain ⟨c, hc⟩ : ∃ c : Char, c.val.toNat = value.toNat := exists_char (by omega)
      obtain ⟨first, tail, hencode, hsmall, -⟩ := head_of_encode c
      obtain ⟨hfirst, rfl⟩ := hsmall (by omega)
      obtain rfl : first = value := UInt8.toNat_inj.mp (hfirst.trans hc)
      exact ⟨c, by omega, by rw [hencode]; rfl, hencode.symm⟩
    · rintro ⟨c, -, htext, rfl⟩
      obtain ⟨first, tail, hencode, hsmall, hwide⟩ := head_of_encode c
      rw [hencode, List.cons_append] at htext
      obtain ⟨rfl, rfl⟩ := List.cons.inj htext
      have hc : c.val.toNat < 0x80 := by
        by_contra hlarge
        have hle := hwide (by omega)
        omega
      obtain ⟨-, rfl⟩ := hsmall hc
      rw [hencode]
      rfl
  · rw [multibyte_iff hascii halias]
    constructor
    · rintro ⟨c, htext, rfl⟩
      refine ⟨c, ?_, htext, rfl⟩
      obtain ⟨first, tail, hencode, hsmall, -⟩ := head_of_encode c
      rw [hencode, List.cons_append] at htext
      obtain ⟨rfl, -⟩ := List.cons.inj htext
      rw [UInt8.lt_iff_toNat_lt] at hascii
      by_contra hc
      have heq := (hsmall (by omega)).1
      exact hascii (by rw [heq]; show _ < 0x80; omega)
    · rintro ⟨c, -, htext, rfl⟩
      exact ⟨c, htext, rfl⟩

/-- An ASCII byte is a character of its own. -/
theorem eq_of_encode {value : UInt8} {c : Char} (hascii : value.toNat < 0x80)
    (htext : value :: text = encode c ++ rest) : c.val.toNat = value.toNat := by
  obtain ⟨first, tail, hencode, hsmall, hwide⟩ := head_of_encode c
  rw [hencode, List.cons_append] at htext
  obtain ⟨rfl, -⟩ := List.cons.inj htext
  by_cases hc : c.val.toNat < 0x80
  · exact (hsmall hc).1.symm
  · have hle := hwide (by omega)
    omega

/-- The characters whose code is written down. -/
theorem parseUnicodeEscape_of_character {piece : ByteString}
    (hcharacter : Character (reverseSolidus :: unicodeMark :: text) piece rest) :
    parseUnicodeEscape text = some (piece, rest) := by
  generalize hwhole : reverseSolidus :: unicodeMark :: text = whole at hcharacter
  cases hcharacter with
  | unescaped c hcontrol hquotation hescape =>
      exact absurd (eq_of_encode (by decide) hwhole) hescape
  | short mark value hshort =>
      obtain ⟨rfl, -⟩ := List.cons.inj (List.cons.inj hwhole).2
      exact absurd hshort (not_mem_shortEscapes value)
  | unicode c hcode =>
      obtain ⟨-, rfl⟩ := List.cons.inj (List.cons.inj hwhole).2
      have hvalid : c.val.toNat < 0xD800 ∨ 0xDFFF < c.val.toNat ∧ c.val.toNat < 0x110000 := c.valid
      rw [parseUnicodeEscape, readHex4_iff.mpr hcode, Option.bind_eq_bind, Option.bind_some]
      dsimp only
      rw [if_neg (by omega), if_neg (by omega), appendCodePoint_eq]
  | surrogates c high low hfirst hsecond hhigh hlow hcode =>
      obtain ⟨-, rfl⟩ := List.cons.inj (List.cons.inj hwhole).2
      rw [parseUnicodeEscape, readHex4_iff.mpr hfirst, Option.bind_eq_bind, Option.bind_some]
      dsimp only
      rw [if_neg (by omega), if_pos hhigh, FlatJson.take_cons, Option.bind_eq_bind,
        Option.bind_some, FlatJson.take_cons, Option.bind_some, readHex4_iff.mpr hsecond,
        Option.bind_some]
      dsimp only
      rw [if_neg (by omega), ← hcode, appendCodePoint_eq]

/-- One character, whatever its spelling. -/
theorem character_iff {value : UInt8} {piece : ByteString} (hquotation : value ≠ quotationMark)
    (halias : isAlias value = false) :
    character value text = some (piece, rest) ↔ Character (value :: text) piece rest := by
  by_cases hescape : value = reverseSolidus
  · subst hescape
    rw [character, if_neg (by decide), if_neg (not_not.mpr rfl)]
    constructor
    · intro hread
      cases text with
      | nil => cases hread
      | cons escaped text =>
          rw [escape] at hread
          split_ifs at hread with hmark
          · rw [hmark]
            exact character_of_parseUnicodeEscape hread
          · obtain ⟨value, hvalue, hsome⟩ := Option.map_eq_some_iff.mp hread
            obtain ⟨rfl, rfl⟩ := Prod.mk.inj hsome
            exact .short escaped value ((escapeOf_iff escaped value hmark).mp hvalue)
    · intro hcharacter
      have hcopy := hcharacter
      generalize hwhole : reverseSolidus :: text = whole at hcharacter
      cases hcharacter with
      | unescaped c hcontrol hquotation hescape =>
          exact absurd (eq_of_encode (by decide) hwhole) hescape
      | short mark value hshort =>
          obtain ⟨-, rfl⟩ := List.cons.inj hwhole
          have hmark : mark ≠ unicodeMark := fun heq => not_mem_shortEscapes value (heq ▸ hshort)
          rw [escape, if_neg hmark, (escapeOf_iff mark value hmark).mpr hshort]
          rfl
      | unicode c hcode =>
          obtain ⟨-, rfl⟩ := List.cons.inj hwhole
          rw [escape, if_pos rfl]
          exact parseUnicodeEscape_of_character hcopy
      | surrogates c high low hfirst hsecond hhigh hlow hcode =>
          obtain ⟨-, rfl⟩ := List.cons.inj hwhole
          rw [escape, if_pos rfl]
          exact parseUnicodeEscape_of_character hcopy
  · rw [character_unescaped_iff hquotation hescape halias]
    constructor
    · rintro ⟨c, hprintable, htext, rfl⟩
      have hne : ∀ other : UInt8, other.toNat < 0x80 → value ≠ other →
          c.val.toNat ≠ other.toNat := by
        intro other hother hne heq
        obtain ⟨first, tail, hencode, hsmall, -⟩ := head_of_encode c
        rw [hencode, List.cons_append] at htext
        obtain ⟨rfl, -⟩ := List.cons.inj htext
        exact hne (UInt8.toNat_inj.mp ((hsmall (by omega)).1.trans heq))
      rw [htext]
      exact .unescaped c hprintable (hne quotationMark (by decide) hquotation)
        (hne reverseSolidus (by decide) hescape)
    · intro hcharacter
      generalize hwhole : value :: text = whole at hcharacter
      cases hcharacter with
      | unescaped c hcontrol => exact ⟨c, hcontrol, rfl, rfl⟩
      | short => exact absurd (List.cons.inj hwhole).1 hescape
      | unicode => exact absurd (List.cons.inj hwhole).1 hescape
      | surrogates => exact absurd (List.cons.inj hwhole).1 hescape

end Characters

/-! ## Strings -/

section Strings

variable {text rest : ByteString}

/-- A phrase that takes something: the text goes on behind its first byte. -/
def Behind (text rest : ByteString) : Prop := ∃ first tail, text = first :: tail ∧ rest <:+ tail

theorem Behind.suffix (hbehind : Behind text rest) : rest <:+ text := by
  obtain ⟨first, tail, rfl, htail⟩ := hbehind
  exact htail.trans (List.suffix_cons first tail)

theorem Behind.length_lt (hbehind : Behind text rest) : rest.length < text.length := by
  obtain ⟨first, tail, rfl, htail⟩ := hbehind
  exact Nat.lt_succ_of_le htail.length_le

theorem Behind.of_suffix {middle : ByteString} (hbehind : Behind text middle)
    (hsuffix : rest <:+ middle) : Behind text rest := by
  obtain ⟨first, tail, rfl, htail⟩ := hbehind
  exact ⟨first, tail, rfl, hsuffix.trans htail⟩

theorem Clean.suffix (hclean : Clean text) (hsuffix : rest <:+ text) : Clean rest :=
  fun c hc => hclean c (hsuffix.mem hc)

theorem suffix_of_hex4 {value : ℕ} (hhex : Hex4 text value rest) : rest <:+ text := by
  obtain ⟨c1, c2, c3, c4, _, _, _, _, rfl, -⟩ := hhex
  exact ⟨[c1, c2, c3, c4], rfl⟩

/-- A character begins with a byte that does not end the string. -/
theorem head_of_character {piece : ByteString} (hcharacter : Character text piece rest) :
    ∃ first tail, text = first :: tail ∧ first ≠ quotationMark ∧ rest <:+ tail := by
  cases hcharacter with
  | unescaped c hcontrol hquotation hescape =>
      obtain ⟨first, tail, hencode, hsmall, hwide⟩ := head_of_encode c
      refine ⟨first, tail ++ rest, by rw [hencode]; rfl, ?_, List.suffix_append tail rest⟩
      rintro rfl
      rw [toNat_quotationMark] at hsmall hwide hquotation
      by_cases hc : c.val.toNat < 0x80
      · exact hquotation (hsmall hc).1.symm
      · have hle := hwide (by omega)
        omega
  | short mark value hshort => exact ⟨_, _, rfl, by decide, List.suffix_cons mark rest⟩
  | unicode c hcode =>
      exact ⟨_, _, rfl, by decide, (suffix_of_hex4 hcode).trans (List.suffix_cons _ _)⟩
  | surrogates c high low hfirst hsecond =>
      have hmiddle := (suffix_of_hex4 hsecond).trans
        ((List.suffix_cons unicodeMark _).trans (List.suffix_cons reverseSolidus _))
      exact ⟨_, _, rfl, by decide,
        (hmiddle.trans (suffix_of_hex4 hfirst)).trans (List.suffix_cons _ _)⟩

theorem behind_of_character {piece : ByteString} (hcharacter : Character text piece rest) :
    Behind text rest := by
  obtain ⟨first, tail, htext, -, hsuffix⟩ := head_of_character hcharacter
  exact ⟨first, tail, htext, hsuffix⟩

theorem characters_of_read {rounds : ℕ} {value : ByteString} (hclean : Clean text)
    (hread : characters rounds text = some (value, rest)) :
    Characters text value (quotationMark :: rest) := by
  induction rounds generalizing text value with
  | zero => cases hread
  | succ rounds ih =>
      cases text with
      | nil => cases hread
      | cons first text =>
          rw [characters] at hread
          split_ifs at hread with hquotation
          · obtain ⟨rfl, rfl⟩ := Prod.mk.inj (Option.some.inj hread)
            rw [hquotation]
            exact .nil
          · obtain ⟨⟨piece, middle⟩, hfirst, hread⟩ := Option.bind_eq_some_iff.mp hread
            obtain ⟨⟨output, after⟩, hothers, hread⟩ := Option.bind_eq_some_iff.mp hread
            obtain ⟨rfl, rfl⟩ := Prod.mk.inj (Option.some.inj hread)
            rw [character_iff hquotation (hclean first List.mem_cons_self)] at hfirst
            exact .cons hfirst (ih (hclean.suffix (behind_of_character hfirst).suffix) hothers)

theorem read_of_characters {rounds : ℕ} {value : ByteString} (hclean : Clean text)
    (hcharacters : Characters text value (quotationMark :: rest)) (hrounds : text.length < rounds) :
    characters rounds text = some (value, rest) := by
  generalize hend : quotationMark :: rest = close at hcharacters
  induction hcharacters generalizing rounds with
  | nil =>
      subst hend
      obtain ⟨rounds, rfl⟩ := Nat.exists_eq_succ_of_ne_zero (Nat.ne_zero_of_lt hrounds)
      rw [characters, if_pos rfl]
  | cons hfirst hothers ih =>
      obtain ⟨first, tail, rfl, hquotation, hsuffix⟩ := head_of_character hfirst
      obtain ⟨rounds, rfl⟩ := Nat.exists_eq_succ_of_ne_zero (Nat.ne_zero_of_lt hrounds)
      have hread := (character_iff hquotation (hclean first List.mem_cons_self)).mpr hfirst
      have hlt := (behind_of_character hfirst).length_lt
      have hnext := ih (hclean.suffix (behind_of_character hfirst).suffix)
        (Nat.lt_of_lt_of_le hlt (Nat.le_of_lt_succ hrounds)) hend
      rw [characters, if_neg hquotation, hread, Option.bind_eq_bind, Option.bind_some]
      dsimp only
      rw [hnext, Option.bind_some]

theorem take_eq_some_iff {c : UInt8} : take c text = some rest ↔ text = c :: rest :=
  ⟨FlatJson.eq_cons_of_take, fun htext => htext ▸ FlatJson.take_cons c rest⟩

/-- A string. -/
theorem parseString_iff {value : ByteString} (hclean : Clean text) :
    parseString text = some (value, rest) ↔ Quoted text value rest := by
  rw [parseString, Option.bind_eq_bind, Option.bind_eq_some_iff]
  refine exists_congr fun inner => ?_
  rw [take_eq_some_iff]
  refine and_congr_right fun htext => ?_
  have hinner : Clean inner := hclean.suffix (htext ▸ List.suffix_cons _ _)
  exact ⟨characters_of_read hinner, fun hread => read_of_characters hinner hread (by omega)⟩

theorem suffix_of_characters {value : ByteString} (hcharacters : Characters text value rest) :
    rest <:+ text := by
  induction hcharacters with
  | nil => exact List.suffix_rfl
  | cons hfirst hothers ih => exact ih.trans (behind_of_character hfirst).suffix

theorem behind_of_quoted {value : ByteString} (hstring : Quoted text value rest) :
    Behind text rest := by
  obtain ⟨inner, rfl, hcharacters⟩ := hstring
  exact ⟨quotationMark, inner, rfl,
    (List.suffix_cons _ _).trans (suffix_of_characters hcharacters)⟩

end Strings

end Sitos.SessionMetadata
