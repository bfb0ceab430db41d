import Sitos.Core.Cursor
import Sitos.Wire.AckResult

/-!
# The UTF-8 check

The check walks the bytes of a message and rebuilds each code point.  It accepts exactly the
encodings of sequences of Unicode scalar values, and it never looks past the end of the message.
-/

namespace Sitos.Utf8

open Sitos.AckResult
open Sitos.Bytes
open Sitos.Cursor

/-- The encoding of some characters. -/
def IsUtf8 (text : ByteString) : Prop :=
  ∃ characters : List Char, text = characters.flatMap String.utf8EncodeChar

/-! ## One character -/

/-- How many bytes follow a leading byte, and its own bits of the code point. -/
def lead (c0 : UInt8) : Option (ℕ × ℕ) :=
  if c0 < 0x80 then some (0, c0.toNat)
  else if 0xC2 ≤ c0 ∧ c0 ≤ 0xDF then some (1, c0.toNat % 32)
  else if 0xE0 ≤ c0 ∧ c0 ≤ 0xEF then some (2, c0.toNat % 16)
  else if 0xF0 ≤ c0 ∧ c0 ≤ 0xF4 then some (3, c0.toNat % 8)
  else none

/-- The code point with the bits of the bytes that follow, and what is left. -/
def follow : ℕ → ℕ → ByteString → Option (ℕ × ByteString)
  | 0, codePoint, rest => some (codePoint, rest)
  | _ + 1, _, [] => none
  | count + 1, codePoint, byte :: rest =>
      if isContinuation byte then follow count (codePoint * 64 + continuationBits byte) rest else none

/-- No overlong form, no surrogate, nothing above `U+10FFFF`. -/
def inRange (count codePoint : ℕ) : Bool :=
  !(count == 2 && decide (codePoint < 0x800)) && !(count == 3 && decide (codePoint < 0x10000)) &&
    !(decide (0xD800 ≤ codePoint) && decide (codePoint ≤ 0xDFFF)) && decide (codePoint ≤ 0x10FFFF)

section Characters

variable {c0 : UInt8} {count bits : ℕ} {rest : ByteString}

theorem isContinuation_iff (byte : UInt8) :
    isContinuation byte = true ↔ 0x80 ≤ byte.toNat ∧ byte.toNat < 0xC0 := by
  rw [isContinuation, Bool.and_eq_true, decide_eq_true_iff, decide_eq_true_iff,
    UInt8.le_iff_toNat_le, UInt8.lt_iff_toNat_lt]
  rfl

theorem lead_eq_some_iff :
    lead c0 = some (count, bits) ↔
      (c0.toNat < 0x80 ∧ count = 0 ∧ bits = c0.toNat) ∨
      (0xC2 ≤ c0.toNat ∧ c0.toNat ≤ 0xDF ∧ count = 1 ∧ bits = c0.toNat % 32) ∨
      (0xE0 ≤ c0.toNat ∧ c0.toNat ≤ 0xEF ∧ count = 2 ∧ bits = c0.toNat % 16) ∨
      (0xF0 ≤ c0.toNat ∧ c0.toNat ≤ 0xF4 ∧ count = 3 ∧ bits = c0.toNat % 8) := by
  have hnat (byte : UInt8) : (c0 < byte ↔ c0.toNat < byte.toNat) ∧ (byte ≤ c0 ↔ byte.toNat ≤ c0.toNat) ∧
      (c0 ≤ byte ↔ c0.toNat ≤ byte.toNat) :=
    ⟨UInt8.lt_iff_toNat_lt, UInt8.le_iff_toNat_le, UInt8.le_iff_toNat_le⟩
  unfold lead
  simp only [hnat, UInt8.reduceToNat]
  split_ifs
  all_goals simp only [Option.some.injEq, Prod.mk.injEq, false_iff]
  all_goals omega

theorem inRange_iff {codePoint : ℕ} :
    inRange count codePoint = true ↔
      (count = 2 → 0x800 ≤ codePoint) ∧ (count = 3 → 0x10000 ≤ codePoint) ∧
        (codePoint < 0xD800 ∨ 0xDFFF < codePoint) ∧ codePoint ≤ 0x10FFFF := by
  simp only [inRange, Bool.and_eq_true, Bool.not_eq_true', Bool.and_eq_false_iff, beq_eq_false_iff_ne,
    decide_eq_false_iff_not, decide_eq_true_iff]
  omega

theorem inRange_three {codePoint : ℕ} (hlt : codePoint < 0x10000) :
    inRange 2 codePoint = (decide (0x800 ≤ codePoint) &&
      !(decide (0xD800 ≤ codePoint) && decide (codePoint ≤ 0xDFFF))) := by
  rw [Bool.eq_iff_iff, inRange_iff]
  simp only [Bool.and_eq_true, Bool.not_eq_true', Bool.and_eq_false_iff, decide_eq_false_iff_not,
    decide_eq_true_iff]
  exact ⟨fun h => ⟨h.1 trivial, by omega⟩, fun h => ⟨fun _ => h.1, nofun, by omega⟩⟩

theorem inRange_four (codePoint : ℕ) :
    inRange 3 codePoint = (decide (0x10000 ≤ codePoint) && decide (codePoint ≤ 0x10FFFF)) := by
  rw [Bool.eq_iff_iff, inRange_iff]
  simp only [Bool.and_eq_true, decide_eq_true_iff]
  exact ⟨fun h => ⟨h.2.1 trivial, h.2.2.2⟩, fun h => ⟨nofun, fun _ => h.1, by omega⟩⟩

/-- One character, and then the others. -/
theorem isValidUtf8_cons (c0 : UInt8) (rest : ByteString) :
    isValidUtf8 (c0 :: rest) =
      match lead c0 with
      | none => false
      | some (count, bits) =>
          match follow count bits rest with
          | none => false
          | some (codePoint, rest) => inRange count codePoint && isValidUtf8 rest := by
  rw [isValidUtf8.eq_def, lead]
  simp only
  split_ifs with hone htwo hthree hfour
  · have hrange : inRange 0 c0.toNat = true := by
      have hlt : c0.toNat < 0x80 := UInt8.lt_iff_toNat_lt.mp hone
      exact inRange_iff.mpr (by omega)
    simp only [follow, hrange, Bool.true_and]
  · rcases rest with _ | ⟨c1, rest⟩
    · rfl
    by_cases hc1 : isContinuation c1 = true
    · have hrange : inRange 1 (c0.toNat % 32 * 64 + continuationBits c1) = true := by
        have hlt : c0.toNat % 32 < 32 := Nat.mod_lt _ (by decide)
        have hbits : continuationBits c1 < 64 := Nat.mod_lt _ (by decide)
        exact inRange_iff.mpr (by omega)
      simp only [follow, hc1, if_true, hrange, Bool.true_and]
    · simp [follow, hc1]
  · rcases rest with _ | ⟨c1, _ | ⟨c2, rest⟩⟩
    · rfl
    · by_cases hc1 : isContinuation c1 = true
      · simp [follow, hc1]
      · simp [follow, hc1]
    by_cases hc1 : isContinuation c1 = true
    · by_cases hc2 : isContinuation c2 = true
      · have hlt : c0.toNat % 16 < 16 := Nat.mod_lt _ (by decide)
        have hbits1 : continuationBits c1 < 64 := Nat.mod_lt _ (by decide)
        have hbits2 : continuationBits c2 < 64 := Nat.mod_lt _ (by decide)
        simp only [follow, hc1, hc2, if_true, Bool.true_and]
        rw [inRange_three (by omega)]
      · simp [follow, hc1, hc2]
    · simp [follow, hc1]
  · rcases rest with _ | ⟨c1, _ | ⟨c2, _ | ⟨c3, rest⟩⟩⟩
    · rfl
    · by_cases hc1 : isContinuation c1 = true
      · simp [follow, hc1]
      · simp [follow, hc1]
    · by_cases hc1 : isContinuation c1 = true
      · by_cases hc2 : isContinuation c2 = true
        · simp [follow, hc1, hc2]
        · simp [follow, hc1, hc2]
      · simp [follow, hc1]
    by_cases hc1 : isContinuation c1 = true
    · by_cases hc2 : isContinuation c2 = true
      · by_cases hc3 : isContinuation c3 = true
        · simp only [follow, hc1, hc2, hc3, if_true, Bool.true_and]
          rw [inRange_four]
        · simp [follow, hc1, hc2, hc3]
      · simp [follow, hc1, hc2]
    · simp [follow, hc1]
  · rfl

theorem toNat_ofNat_of_lt {value : ℕ} (hvalue : value < 256) :
    (UInt8.ofNat value).toNat = value := by
  rw [UInt8.toNat_ofNat']
  exact Nat.mod_eq_of_lt hvalue

theorem follow_continuation (codePoint value : ℕ) :
    follow (count + 1) codePoint (UInt8.ofNat (value % 64 + 0x80) :: rest) =
      follow count (codePoint * 64 + value % 64) rest := by
  have hbyte : (UInt8.ofNat (value % 64 + 0x80)).toNat = value % 64 + 0x80 :=
    toNat_ofNat_of_lt (by omega)
  have hcontinuation : isContinuation (UInt8.ofNat (value % 64 + 0x80)) = true := by
    rw [isContinuation_iff, hbyte]
    omega
  have hbits : continuationBits (UInt8.ofNat (value % 64 + 0x80)) = value % 64 := by
    rw [continuationBits, hbyte]
    omega
  rw [follow, if_pos hcontinuation, hbits]

/-- The check takes an encoded character off. -/
theorem exists_lead_of_encode (c : Char) (rest : ByteString) :
    ∃ c0 tail count bits, String.utf8EncodeChar c = c0 :: tail ∧ lead c0 = some (count, bits) ∧
      follow count bits (tail ++ rest) = some (c.val.toNat, rest) ∧
        inRange count c.val.toNat = true := by
  have hvalid : c.val.toNat < 0xD800 ∨ 0xDFFF < c.val.toNat ∧ c.val.toNat < 0x110000 := c.valid
  generalize hv : c.val.toNat = v at hvalid
  unfold String.utf8EncodeChar
  simp only [hv]
  split_ifs with h1 h2 h3
  · refine ⟨_, _, 0, v, rfl, lead_eq_some_iff.mpr ?_, rfl, inRange_iff.mpr (by omega)⟩
    rw [toNat_ofNat_of_lt (by omega)]
    omega
  · refine ⟨_, _, 1, v / 64 % 32, rfl, lead_eq_some_iff.mpr ?_, ?_, inRange_iff.mpr (by omega)⟩
    · rw [toNat_ofNat_of_lt (by omega)]
      omega
    · rw [List.cons_append, List.nil_append, follow_continuation, follow,
        show v / 64 % 32 * 64 + v % 64 = v by omega]
  · refine ⟨_, _, 2, v / 4096 % 16, rfl, lead_eq_some_iff.mpr ?_, ?_, inRange_iff.mpr (by omega)⟩
    · rw [toNat_ofNat_of_lt (by omega)]
      omega
    · rw [List.cons_append, List.cons_append, List.nil_append, follow_continuation,
        follow_continuation, follow,
        show (v / 4096 % 16 * 64 + v / 64 % 64) * 64 + v % 64 = v by omega]
  · refine ⟨_, _, 3, v / 262144 % 8, rfl, lead_eq_some_iff.mpr ?_, ?_, inRange_iff.mpr (by omega)⟩
    · rw [toNat_ofNat_of_lt (by omega)]
      omega
    · rw [List.cons_append, List.cons_append, List.cons_append, List.nil_append,
        follow_continuation, follow_continuation, follow_continuation, follow,
        show ((v / 262144 % 8 * 64 + v / 4096 % 64) * 64 + v / 64 % 64) * 64 + v % 64 = v by omega]

theorem exists_of_follow {codePoint result : ℕ} {after : ByteString}
    (hfollow : follow (count + 1) codePoint rest = some (result, after)) :
    ∃ low < 64, ∃ rest', rest = UInt8.ofNat (low + 0x80) :: rest' ∧
      follow count (codePoint * 64 + low) rest' = some (result, after) := by
  cases rest with
  | nil => cases hfollow
  | cons byte rest' =>
      rw [follow] at hfollow
      split_ifs at hfollow with hcontinuation
      have hrange := (isContinuation_iff byte).mp hcontinuation
      refine ⟨continuationBits byte, Nat.mod_lt _ (by decide), rest', ?_, hfollow⟩
      have hbyte : byte.toNat = byte.toNat % 64 + 0x80 := by omega
      rw [continuationBits, ← hbyte, UInt8.ofNat_toNat]

theorem exists_encode_of_lead {codePoint : ℕ} {after : ByteString}
    (hlead : lead c0 = some (count, bits)) (hfollow : follow count bits rest = some (codePoint, after))
    (hrange : inRange count codePoint = true) :
    ∃ c : Char, c0 :: rest = String.utf8EncodeChar c ++ after := by
  obtain ⟨hthree, hfour, hscalar, hmax⟩ := inRange_iff.mp hrange
  have hvalid : codePoint.isValidChar := by
    rw [Nat.isValidChar]
    omega
  refine ⟨Char.ofNatAux codePoint hvalid, ?_⟩
  unfold String.utf8EncodeChar
  rw [show (Char.ofNatAux codePoint hvalid).val.toNat = codePoint from rfl]
  have hbyte (value : ℕ) (heq : c0.toNat = value) : UInt8.ofNat value = c0 := by
    rw [← heq, UInt8.ofNat_toNat]
  rcases lead_eq_some_iff.mp hlead with ⟨hascii, rfl, rfl⟩ | ⟨hlow, hhigh, rfl, rfl⟩ |
    ⟨hlow, hhigh, rfl, rfl⟩ | ⟨hlow, hhigh, rfl, rfl⟩
  · obtain ⟨rfl, rfl⟩ := Prod.mk.inj (Option.some.inj hfollow)
    simp only [if_pos (by omega : c0.toNat ≤ 0x7f), UInt8.ofNat_toNat, List.cons_append,
      List.nil_append]
  · obtain ⟨low1, hlow1, rest1, rfl, hend⟩ := exists_of_follow hfollow
    obtain ⟨rfl, rfl⟩ := Prod.mk.inj (Option.some.inj hend)
    simp only [if_neg (by omega : ¬c0.toNat % 32 * 64 + low1 ≤ 0x7f),
      if_pos (by omega : c0.toNat % 32 * 64 + low1 ≤ 0x7ff), List.cons_append, List.nil_append]
    rw [hbyte ((c0.toNat % 32 * 64 + low1) / 64 % 32 + 0xC0) (by omega),
      show (c0.toNat % 32 * 64 + low1) % 64 = low1 by omega]
  · obtain ⟨low1, hlow1, rest1, rfl, hfollow1⟩ := exists_of_follow hfollow
    obtain ⟨low2, hlow2, rest2, rfl, hend⟩ := exists_of_follow hfollow1
    obtain ⟨rfl, rfl⟩ := Prod.mk.inj (Option.some.inj hend)
    have hthree := hthree rfl
    generalize hv : (c0.toNat % 16 * 64 + low1) * 64 + low2 = v at *
    simp only [if_neg (by omega : ¬v ≤ 0x7f), if_neg (by omega : ¬v ≤ 0x7ff),
      if_pos (by omega : v ≤ 0xffff), List.cons_append, List.nil_append]
    rw [hbyte (v / 4096 % 16 + 0xE0) (by omega), show v / 64 % 64 = low1 by omega, show v % 64 = low2 by omega]
  · obtain ⟨low1, hlow1, rest1, rfl, hfollow1⟩ := exists_of_follow hfollow
    obtain ⟨low2, hlow2, rest2, rfl, hfollow2⟩ := exists_of_follow hfollow1
    obtain ⟨low3, hlow3, rest3, rfl, hend⟩ := exists_of_follow hfollow2
    obtain ⟨rfl, rfl⟩ := Prod.mk.inj (Option.some.inj hend)
    have hfour := hfour rfl
    generalize hv : ((c0.toNat % 8 * 64 + low1) * 64 + low2) * 64 + low3 = v at *
    simp only [if_neg (by omega : ¬v ≤ 0x7f), if_neg (by omega : ¬v ≤ 0x7ff),
      if_neg (by omega : ¬v ≤ 0xffff), List.cons_append, List.nil_append]
    rw [hbyte (v / 262144 % 8 + 0xF0) (by omega), show v / 4096 % 64 = low1 by omega, show v / 64 % 64 = low2 by omega,
      show v % 64 = low3 by omega]

end Characters

/-- The check accepts the encodings of characters, and nothing else. -/
theorem isValidUtf8_iff (text : ByteString) : isValidUtf8 text = true ↔ IsUtf8 text := by
  constructor
  · intro hvalid
    induction hlength : text.length using Nat.strong_induction_on generalizing text with
    | _ length ih =>
        cases text with
        | nil => exact ⟨[], rfl⟩
        | cons c0 rest =>
            rw [isValidUtf8_cons] at hvalid
            split at hvalid
            · cases hvalid
            next count bits hlead =>
              split at hvalid
              · cases hvalid
              next codePoint after hfollow =>
                obtain ⟨hrange, hafter⟩ := Bool.and_eq_true_iff.mp hvalid
                obtain ⟨c, htext⟩ := exists_encode_of_lead hlead hfollow hrange
                have hshorter : after.length < length := by
                  rw [← hlength, htext, List.length_append]
                  have hpos := List.length_pos_iff.mpr (String.utf8EncodeChar_ne_nil (c := c))
                  omega
                obtain ⟨characters, hcharacters⟩ := ih after.length hshorter after hafter rfl
                exact ⟨c :: characters, by rw [htext, hcharacters, List.flatMap_cons]⟩
  · rintro ⟨characters, rfl⟩
    induction characters with
    | nil => rw [List.flatMap_nil, isValidUtf8]
    | cons c characters ih =>
        obtain ⟨c0, tail, count, bits, hencode, hlead, hfollow, hrange⟩ :=
          exists_lead_of_encode c (characters.flatMap String.utf8EncodeChar)
        rw [List.flatMap_cons, hencode, List.cons_append, isValidUtf8_cons, hlead]
        simp only [hfollow, hrange, ih, Bool.and_self]

/-! ## The check at an offset -/

def followAt (text : Span UInt8) (offset codePoint : ℕ) : ℕ → Checked (Option ℕ)
  | 0 => pure (some codePoint)
  | count + 1 => do
      let byte ← text.at offset
      if isContinuation byte then
        followAt text (offset + 1) (codePoint * 64 + continuationBits byte) count
      else pure none

/-- The loop, with a bound on its rounds that is never reached. -/
def isValidUtf8At (text : Span UInt8) : ℕ → ℕ → Checked Bool
  | 0, _ => fault .outside
  | rounds + 1, i =>
      if i < text.size then do
        let c0 ← text.at i
        match lead c0 with
        | none => pure false
        | some (count, bits) => do
            let stop ← advance i (count + 1)
            if stop > text.size then pure false
            else
              match ← followAt text (i + 1) bits count with
              | none => pure false
              | some codePoint =>
                  if inRange count codePoint then isValidUtf8At text rounds stop else pure false
      else pure true

section Offsets

variable {text : Span UInt8} {offset count codePoint : ℕ}

theorem follow_eq_none {rest : ByteString} (hshort : rest.length < count) :
    follow count codePoint rest = none := by
  induction count generalizing codePoint rest with
  | zero => exact absurd hshort (Nat.not_lt_zero _)
  | succ count ih =>
      cases rest with
      | nil => rfl
      | cons byte rest =>
          rw [List.length_cons] at hshort
          rw [follow, ih (by omega), ite_self]

theorem followAt_eq (hfits : offset + count ≤ text.size) :
    (∃ result, followAt text offset codePoint count = pure (some result) ∧
      follow count codePoint (text.data.drop offset) =
        some (result, text.data.drop (offset + count))) ∨
    (followAt text offset codePoint count = pure none ∧
      follow count codePoint (text.data.drop offset) = none) := by
  induction count generalizing offset codePoint with
  | zero => exact .inl ⟨codePoint, rfl, rfl⟩
  | succ count ih =>
      have hlt : offset < text.data.length := by
        rw [Span.size] at hfits
        omega
      rw [followAt, Span.at_eq (List.getElem?_eq_getElem hlt), pure_bind,
        List.drop_eq_getElem_cons hlt, follow]
      split_ifs with hcontinuation
      · rw [show offset + (count + 1) = offset + 1 + count by omega]
        exact ih (by omega)
      · exact .inr ⟨rfl, rfl⟩

/-- The loop agrees with the check on what is left, and reads nothing past the end. -/
theorem isValidUtf8At_eq {rounds i : ℕ} (hrounds : text.size < i + rounds) (hi : i ≤ text.size) :
    isValidUtf8At text rounds i = pure (isValidUtf8 (text.data.drop i)) := by
  induction rounds generalizing i with
  | zero => omega
  | succ rounds ih =>
      rw [isValidUtf8At]
      split_ifs with hlt
      · have hbyte : text.data[i]? = some text.data[i] := List.getElem?_eq_getElem hlt
        rw [Span.at_eq hbyte, pure_bind, List.drop_eq_getElem_cons hlt, isValidUtf8_cons]
        have hsize := text.length_lt
        rw [show text.data.length = text.size from rfl] at hsize
        cases hlead : lead text.data[i] with
        | none => rfl
        | some pair =>
            obtain ⟨count, bits⟩ := pair
            have hcount : count < 4 := by
              have hcases := lead_eq_some_iff.mp hlead
              omega
            have hadvance : advance i (count + 1) = pure (i + (count + 1)) :=
              advance_eq (by omega)
            simp only [hadvance, pure_bind]
            split_ifs with hshort
            · have hfollow : follow count bits (text.data.drop (i + 1)) = none := by
                refine follow_eq_none ?_
                rw [List.length_drop, show text.data.length = text.size from rfl]
                omega
              rw [hfollow]
            · rcases followAt_eq (by omega : i + 1 + count ≤ text.size) with
                ⟨codePoint, hread, hfollow⟩ | ⟨hread, hfollow⟩
              · rw [hread, hfollow, pure_bind, show i + 1 + count = i + (count + 1) by omega]
                simp only
                split_ifs with hrange
                · rw [ih (by omega) (by omega), hrange, Bool.true_and]
                · rw [Bool.eq_false_iff.mpr hrange, Bool.false_and]
              · rw [hread, hfollow, pure_bind]
      · rw [List.drop_eq_nil_of_le (not_lt.mp hlt), isValidUtf8]

end Offsets

end Sitos.Utf8
