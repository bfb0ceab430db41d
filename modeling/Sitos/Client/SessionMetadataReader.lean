import Sitos.Client.SessionMetadata

/-!
# The metadata parser stays inside its text

The reader at an offset follows the one that takes phrases off the front: they reject together, and
otherwise return the same and stop at the same place.  No access leaves the text and no bound on
the rounds is reached.
-/

namespace Sitos.SessionMetadata

open Sitos.AckResult
open Sitos.Bytes
open Sitos.Cursor
open Sitos.FenceWire
open Sitos.FlatJson (take takeAt takeWord takeWordAt follows_take follows_takeWord)
open Sitos.Json

variable {text : Span UInt8} {at_ : ℕ}

/-! ## Steps that take nothing or one byte -/

/-- A byte stands at an offset inside the text. -/
theorem exists_byte (hlt : at_ < text.size) :
    ∃ value, text.at at_ = pure value ∧ text.data.drop at_ = value :: text.data.drop (at_ + 1) ∧
      advance at_ 1 = pure (at_ + 1) := by
  have hdata : at_ < text.data.length := hlt
  have hsize := text.length_lt
  exact ⟨text.data[at_], Span.at_eq (List.getElem?_eq_getElem hdata),
    List.drop_eq_getElem_cons hdata, advance_eq (by omega)⟩

theorem drop_of_le (hend : ¬at_ < text.size) : text.data.drop at_ = [] :=
  List.drop_eq_nil_of_le (not_lt.mp hend)

theorem length_drop_le (text : Span UInt8) (at_ : ℕ) : (text.data.drop at_).length ≤ text.size := by
  rw [List.length_drop, Span.size]
  omega

theorem peekAt_eq (at_ : ℕ) : peekAt text at_ = pure (text.data.drop at_).head? := by
  rw [peekAt]
  by_cases hlt : at_ < text.size
  · obtain ⟨value, hread, hdrop, -⟩ := exists_byte hlt
    rw [if_pos hlt, hread, hdrop, List.head?_cons, map_pure]
  · rw [if_neg hlt, drop_of_le hlt, List.head?_nil]

/-- A loop over bytes of one kind stops where they end. -/
theorem skipSpacesAt_eq {rounds : ℕ} (hrounds : text.size < at_ + rounds) (hat : at_ ≤ text.size) :
    ∃ stop ≤ text.size, skipSpacesAt text rounds at_ = pure stop ∧
      skipWhitespace (text.data.drop at_) = text.data.drop stop := by
  induction rounds generalizing at_ with
  | zero => omega
  | succ rounds ih =>
      rw [skipSpacesAt, peekAt_eq, pure_bind]
      by_cases hlt : at_ < text.size
      · obtain ⟨value, -, hdrop, hadvance⟩ := exists_byte hlt
        rw [hdrop, List.head?_cons, skipWhitespace, List.dropWhile_cons]
        simp only
        by_cases hspace : isSpace value = true
        · rw [if_pos hspace, if_pos hspace, hadvance, pure_bind]
          exact ih (by omega) hlt
        · rw [if_neg hspace, if_neg hspace]
          exact ⟨at_, hat, rfl, hdrop.symm⟩
      · rw [drop_of_le hlt]
        exact ⟨at_, hat, rfl, (drop_of_le hlt).symm⟩

theorem skipWhitespaceAt_eq (hat : at_ ≤ text.size) :
    ∃ stop ≤ text.size, skipWhitespaceAt text at_ = pure stop ∧
      skipWhitespace (text.data.drop at_) = text.data.drop stop :=
  skipSpacesAt_eq (by omega) hat

theorem drop_length_takeWhile (p : UInt8 → Bool) (list : ByteString) :
    list.drop (list.takeWhile p).length = list.dropWhile p := by
  induction list with
  | nil => rfl
  | cons c list ih =>
      by_cases hc : p c = true
      · rw [List.takeWhile_cons, List.dropWhile_cons, if_pos hc, if_pos hc, List.length_cons,
          List.drop_succ_cons, ih]
      · rw [List.takeWhile_cons, List.dropWhile_cons, if_neg hc, if_neg hc]
        rfl

theorem skipDigitsAt_eq (hat : at_ ≤ text.size) :
    ∃ stop ≤ text.size, at_ ≤ stop ∧ skipDigitsAt text at_ = pure stop ∧
      (text.data.drop at_).dropWhile isDigit = text.data.drop stop ∧
      (stop = at_ ↔ (text.data.drop at_).head?.any isDigit = false) := by
  have hlength : ((text.data.drop at_).takeWhile isDigit).length ≤ (text.data.drop at_).length :=
    (List.takeWhile_sublist isDigit).length_le
  rw [List.length_drop, show text.data.length = text.size from rfl] at hlength
  refine ⟨at_ + ((text.data.drop at_).takeWhile isDigit).length, by omega, by omega, ?_, ?_, ?_⟩
  · exact FlatJson.skipDigits_eq (by omega) hat
  · rw [← List.drop_drop]
    exact (drop_length_takeWhile _ _).symm
  · rw [Nat.add_eq_left, List.length_eq_zero_iff]
    cases text.data.drop at_ with
    | nil => simp
    | cons value rest => cases hdigit : isDigit value <;> simp [hdigit]

/-! ## Strings -/

theorem hexDigitsAt_eq {count result : ℕ} (hfits : at_ + count ≤ text.size) :
    hexDigitsAt text at_ count result =
      (((text.data.drop at_).take count).foldlM
        (fun result digit => (hexValue digit).map (result * 16 + ·)) result).elim reject pure := by
  induction count generalizing at_ result with
  | zero => rw [hexDigitsAt, List.take_zero]; rfl
  | succ count ih =>
      obtain ⟨value, hread, hdrop, -⟩ := exists_byte (by omega : at_ < text.size)
      rw [hexDigitsAt, hread, pure_bind, hdrop, List.take_succ_cons, List.foldlM_cons]
      cases hexValue value with
      | none => rfl
      | some digit => exact ih (by omega)

theorem readHex4_of_short {rest : ByteString} (hshort : rest.length < 4) :
    readHex4 rest = none := by
  rcases rest with _ | ⟨c1, _ | ⟨c2, _ | ⟨c3, _ | ⟨c4, rest⟩⟩⟩⟩
  · rfl
  · rfl
  · rfl
  · rfl
  · simp only [List.length_cons] at hshort
    omega

theorem follows_readHex4 (hat : at_ ≤ text.size) :
    Follows text (readHex4At text at_) (readHex4 (text.data.drop at_)) := by
  have hsize := text.length_lt
  have hadvance : advance at_ 4 = pure (at_ + 4) := advance_eq (by rw [Span.size] at hat; omega)
  rw [readHex4At, hadvance, pure_bind]
  by_cases hfits : at_ + 4 ≤ text.size
  · rw [if_neg (by omega), hexDigitsAt_eq hfits]
    obtain ⟨c1, -, hdrop1, -⟩ := exists_byte (by omega : at_ < text.size)
    obtain ⟨c2, -, hdrop2, -⟩ := exists_byte (by omega : at_ + 1 < text.size)
    obtain ⟨c3, -, hdrop3, -⟩ := exists_byte (by omega : at_ + 1 + 1 < text.size)
    obtain ⟨c4, -, hdrop4, -⟩ := exists_byte (by omega : at_ + 1 + 1 + 1 < text.size)
    rw [hdrop1, hdrop2, hdrop3, hdrop4, readHex4]
    simp only [List.take_succ_cons, List.take_zero, List.foldlM_cons, List.foldlM_nil,
      Option.bind_eq_bind, Nat.zero_mul, Nat.zero_add]
    cases hexValue c1 <;> cases hexValue c2 <;> cases hexValue c3 <;> cases hexValue c4 <;>
      try exact follows_reject
    exact follows_pure hfits
  · rw [if_pos (by omega)]
    rw [readHex4_of_short
      (by rw [List.length_drop, show text.data.length = text.size from rfl]; omega)]
    exact follows_reject

theorem follows_parseUnicodeEscape (hat : at_ ≤ text.size) :
    Follows text (parseUnicodeEscapeAt text at_) (parseUnicodeEscape (text.data.drop at_)) := by
  refine (follows_readHex4 hat).bind fun first at_ hat => ?_
  simp only
  split_ifs with hlow hhigh
  · exact follows_reject
  · have hsize := text.length_lt
    have hadvance : advance at_ 2 = pure (at_ + 2) := advance_eq (by rw [Span.size] at hat; omega)
    rw [hadvance, pure_bind]
    by_cases hfits : at_ + 2 ≤ text.size
    · obtain ⟨c1, hread1, hdrop1, -⟩ := exists_byte (by omega : at_ < text.size)
      obtain ⟨c2, hread2, hdrop2, -⟩ := exists_byte (by omega : at_ + 1 < text.size)
      rw [if_neg (by omega), hread1, pure_bind, hdrop1, take]
      by_cases hfirst : c1 = reverseSolidus
      · rw [if_neg (not_not.mpr hfirst), if_pos hfirst, hread2, pure_bind, hdrop2]
        simp only [Option.bind_eq_bind, Option.bind_some, take]
        by_cases hsecond : c2 = unicodeMark
        · rw [if_neg (not_not.mpr hsecond), if_pos hsecond]
          refine (follows_readHex4 hfits).bind fun second at_ hat => ?_
          split_ifs
          · exact follows_reject
          · exact follows_pure hat
        · rw [if_pos hsecond, if_neg hsecond]
          exact follows_reject
      · rw [if_pos hfirst, if_neg hfirst]
        exact follows_reject
    · have hshort : (text.data.drop at_).length < 2 := by
        rw [List.length_drop, show text.data.length = text.size from rfl]
        omega
      rw [if_pos (by omega)]
      generalize text.data.drop at_ = rest at hshort
      rcases rest with _ | ⟨c1, _ | ⟨c2, rest⟩⟩
      · exact follows_reject
      · rw [take]
        split_ifs <;> exact follows_reject
      · simp only [List.length_cons] at hshort
        omega
  · exact follows_pure hat

theorem follows_continuations {count codePoint : ℕ} (hfits : at_ + count ≤ text.size) :
    Follows text (continuationsAt text at_ count codePoint)
      (continuations count codePoint (text.data.drop at_)) := by
  induction count generalizing at_ codePoint with
  | zero => exact follows_pure hfits
  | succ count ih =>
      obtain ⟨value, hread, hdrop, hadvance⟩ := exists_byte (by omega : at_ < text.size)
      rw [continuationsAt, hread, pure_bind, hadvance, pure_bind, hdrop, continuations]
      split_ifs
      · exact follows_reject
      · exact ih (by omega)

theorem continuations_of_short {count codePoint : ℕ} {rest : ByteString}
    (hshort : rest.length < count) : continuations count codePoint rest = none := by
  induction count generalizing codePoint rest with
  | zero => exact absurd hshort (Nat.not_lt_zero _)
  | succ count ih =>
      cases rest with
      | nil => rfl
      | cons value rest =>
          rw [List.length_cons] at hshort
          rw [continuations, ih (by omega), ite_self]

theorem width_le (value : UInt8) : width value ≤ 4 := by
  unfold width
  split_ifs <;> omega

theorem follows_multibyte (value : UInt8) (hat : at_ ≤ text.size) :
    Follows text (multibyteAt text value at_) (multibyte value (text.data.drop at_)) := by
  have hsize := text.length_lt
  have hwidth := width_le value
  have hadvance : advance at_ (width value - 1) = pure (at_ + (width value - 1)) :=
    advance_eq (by rw [Span.size] at hat; omega)
  rw [multibyteAt, multibyte]
  split_ifs with hzero
  · exact follows_reject
  · rw [hadvance, pure_bind]
    by_cases hfits : at_ + (width value - 1) ≤ text.size
    · rw [if_neg (by omega)]
      refine (follows_continuations hfits).bind fun codePoint at_ hat => ?_
      dsimp only
      split_ifs
      · exact follows_reject
      · exact follows_pure hat
    · rw [if_pos (by omega), continuations_of_short]
      · exact follows_reject
      · rw [List.length_drop, show text.data.length = text.size from rfl]
        omega

theorem follows_escape (at_ : ℕ) :
    Follows text (escapeAt text at_) (escape (text.data.drop at_)) := by
  rw [escapeAt]
  by_cases hlt : at_ < text.size
  · obtain ⟨escaped, hread, hdrop, hadvance⟩ := exists_byte hlt
    rw [if_neg (by omega), hread, pure_bind, hadvance, pure_bind, hdrop, escape]
    split_ifs
    · exact follows_parseUnicodeEscape hlt
    · cases escapeOf escaped with
      | none => exact follows_reject
      | some value => exact follows_pure hlt
  · rw [if_pos (by omega), drop_of_le hlt]
    exact follows_reject

theorem follows_character (value : UInt8) (hat : at_ ≤ text.size) :
    Follows text (characterAt text value at_) (character value (text.data.drop at_)) := by
  rw [characterAt, character]
  split_ifs
  · exact follows_reject
  · exact follows_pure hat
  · exact follows_multibyte value hat
  · exact follows_escape at_

/-! ## What is left is shorter -/

section Lengths

variable {rest after : ByteString}

theorem length_of_take {expected : UInt8} (htake : take expected rest = some after) :
    after.length + 1 = rest.length := by
  rw [FlatJson.eq_cons_of_take htake, List.length_cons]

theorem length_skipWhitespace_le (rest : ByteString) :
    (skipWhitespace rest).length ≤ rest.length :=
  (List.dropWhile_suffix isSpace).length_le

theorem length_of_readHex4 {value : ℕ} (hread : readHex4 rest = some (value, after)) :
    after.length ≤ rest.length := by
  rcases rest with _ | ⟨c1, _ | ⟨c2, _ | ⟨c3, _ | ⟨c4, rest⟩⟩⟩⟩
  · cases hread
  · cases hread
  · cases hread
  · cases hread
  · simp only [readHex4, Option.bind_eq_bind, Option.bind_eq_some_iff] at hread
    obtain ⟨d1, -, d2, -, d3, -, d4, -, hsome⟩ := hread
    obtain ⟨-, rfl⟩ := Prod.mk.inj (Option.some.inj hsome)
    simp only [List.length_cons]
    omega

theorem length_of_parseUnicodeEscape {piece : ByteString}
    (hparse : parseUnicodeEscape rest = some (piece, after)) : after.length ≤ rest.length := by
  simp only [parseUnicodeEscape, Option.bind_eq_bind, Option.bind_eq_some_iff,
    Prod.exists] at hparse
  obtain ⟨first, afterFirst, hfirst, hparse⟩ := hparse
  have hlength := length_of_readHex4 hfirst
  split_ifs at hparse
  · simp only [Option.bind_eq_some_iff, Prod.exists] at hparse
    obtain ⟨second, htake1, third, htake2, low, afterSecond, hsecond, hparse⟩ := hparse
    have hlength1 := length_of_take htake1
    have hlength2 := length_of_take htake2
    have hlength3 := length_of_readHex4 hsecond
    split_ifs at hparse
    obtain ⟨-, rfl⟩ := Prod.mk.inj (Option.some.inj hparse)
    omega
  · obtain ⟨-, rfl⟩ := Prod.mk.inj (Option.some.inj hparse)
    exact hlength

theorem length_of_continuations {count codePoint result : ℕ}
    (hread : continuations count codePoint rest = some (result, after)) :
    after.length ≤ rest.length := by
  induction count generalizing codePoint rest with
  | zero =>
      obtain ⟨-, rfl⟩ := Prod.mk.inj (Option.some.inj hread)
      exact le_refl _
  | succ count ih =>
      cases rest with
      | nil => cases hread
      | cons value rest =>
          rw [continuations] at hread
          split_ifs at hread
          exact (ih hread).trans (Nat.le_succ _)

theorem length_of_character {value : UInt8} {piece : ByteString}
    (hread : character value rest = some (piece, after)) : after.length ≤ rest.length := by
  rw [character] at hread
  split_ifs at hread
  · obtain ⟨-, rfl⟩ := Prod.mk.inj (Option.some.inj hread)
    exact le_refl _
  · rw [multibyte] at hread
    split_ifs at hread
    simp only [Option.bind_eq_bind, Option.bind_eq_some_iff, Prod.exists] at hread
    obtain ⟨codePoint, afterLast, hcontinuations, hread⟩ := hread
    split_ifs at hread
    obtain ⟨-, rfl⟩ := Prod.mk.inj (Option.some.inj hread)
    exact length_of_continuations hcontinuations
  · cases rest with
    | nil => cases hread
    | cons escaped rest =>
        rw [escape] at hread
        split_ifs at hread
        · exact (length_of_parseUnicodeEscape hread).trans (Nat.le_succ _)
        · obtain ⟨_, -, hsome⟩ := Option.map_eq_some_iff.mp hread
          obtain ⟨-, rfl⟩ := Prod.mk.inj hsome
          exact Nat.le_succ _

theorem length_of_characters {rounds : ℕ} {output : ByteString}
    (hread : characters rounds rest = some (output, after)) : after.length < rest.length := by
  induction rounds generalizing rest output with
  | zero => cases hread
  | succ rounds ih =>
      cases rest with
      | nil => cases hread
      | cons value rest =>
          rw [characters] at hread
          split_ifs at hread
          · obtain ⟨-, rfl⟩ := Prod.mk.inj (Option.some.inj hread)
            exact Nat.lt_succ_self _
          · simp only [Option.bind_eq_bind, Option.bind_eq_some_iff, Prod.exists] at hread
            obtain ⟨piece, afterPiece, hpiece, others, afterOthers, hothers, hsome⟩ := hread
            obtain ⟨-, rfl⟩ := Prod.mk.inj (Option.some.inj hsome)
            have hlength := length_of_character hpiece
            have hlengthOthers := ih hothers
            rw [List.length_cons]
            omega

theorem length_of_parseString {output : ByteString}
    (hparse : parseString rest = some (output, after)) : after.length + 2 ≤ rest.length := by
  simp only [parseString, Option.bind_eq_bind, Option.bind_eq_some_iff] at hparse
  obtain ⟨inner, htake, hread⟩ := hparse
  have hlength := length_of_take htake
  have hlengthInner := length_of_characters hread
  omega

end Lengths

/-- A round takes a byte. -/
theorem follows_characters {rounds turns : ℕ} (hat : at_ ≤ text.size)
    (hrounds : (text.data.drop at_).length < rounds)
    (hturns : (text.data.drop at_).length < turns) :
    Follows text (charactersAt text rounds at_) (characters turns (text.data.drop at_)) := by
  induction rounds generalizing turns at_ with
  | zero => exact absurd hrounds (Nat.not_lt_zero _)
  | succ rounds ih =>
      obtain ⟨turns, rfl⟩ : ∃ fewer, turns = fewer + 1 := ⟨turns - 1, by omega⟩
      rw [charactersAt]
      by_cases hlt : at_ < text.size
      · obtain ⟨value, hread, hdrop, hadvance⟩ := exists_byte hlt
        rw [hdrop, List.length_cons] at hrounds hturns
        rw [if_pos hlt, hread, pure_bind, hadvance, pure_bind, hdrop, characters]
        split_ifs
        · exact follows_pure hlt
        · have hnext : at_ + 1 ≤ text.size := hlt
          rcases (follows_character value hnext).outcome with
            ⟨hmodel, hreader⟩ | ⟨piece, stop, hstop, hmodel, hreader⟩
          · rw [hreader, hmodel]
            exact follows_reject
          · have hlength := length_of_character hmodel
            rw [hreader, hmodel, pure_bind]
            have hothers : Follows text (charactersAt text rounds stop)
                (characters turns (text.data.drop stop)) := ih hstop (by omega) (by omega)
            simp only [Option.bind_eq_bind, Option.bind_some]
            exact hothers.bind fun output at_ hat => follows_pure hat
      · rw [if_neg hlt, drop_of_le hlt]
        exact follows_reject

theorem follows_parseString (at_ : ℕ) :
    Follows text (parseStringAt text at_) (parseString (text.data.drop at_)) := by
  rw [parseStringAt, parseString]
  rcases (follows_take quotationMark at_).token with
    ⟨hmodel, hreader⟩ | ⟨stop, hstop, hmodel, hreader⟩
  · rw [hreader, hmodel]
    exact follows_reject
  · rw [hreader, hmodel, pure_bind]
    exact follows_characters hstop (Nat.lt_succ_of_le (length_drop_le text stop))
      (Nat.lt_succ_self _)

/-! ## Numbers -/

/-- A reader that takes a token off follows a function that returns what is left. -/
abbrev FollowsToken (text : Span UInt8) (reader : Checked (Unit × ℕ)) (model : Option ByteString) :
    Prop :=
  Follows text reader (model.map (Prod.mk ()))

theorem FollowsToken.bind {reader : Checked (Unit × ℕ)} {model : Option ByteString}
    {β : Type} {next : Unit × ℕ → Checked (β × ℕ)}
    {nextModel : ByteString → Option (β × ByteString)}
    (hreader : FollowsToken text reader model)
    (hnext : ∀ offset, offset ≤ text.size →
      Follows text (next ((), offset)) (nextModel (text.data.drop offset))) :
    Follows text (reader >>= next) (model >>= nextModel) := by
  rcases hreader.token with ⟨hmodel, hread⟩ | ⟨stop, hstop, hmodel, hread⟩
  · rw [hmodel, hread]
    exact follows_reject
  · rw [hmodel, hread, pure_bind]
    exact hnext stop hstop

/-- One token and then another. -/
theorem FollowsToken.andThen {reader : Checked (Unit × ℕ)} {model : Option ByteString}
    {next : Unit × ℕ → Checked (Unit × ℕ)} {nextModel : ByteString → Option ByteString}
    (hreader : FollowsToken text reader model)
    (hnext : ∀ offset, offset ≤ text.size →
      FollowsToken text (next ((), offset)) (nextModel (text.data.drop offset))) :
    FollowsToken text (reader >>= next) (model >>= nextModel) := by
  rcases hreader.token with ⟨hmodel, hread⟩ | ⟨stop, hstop, hmodel, hread⟩
  · rw [hmodel, hread]
    exact follows_reject
  · rw [hmodel, hread, pure_bind]
    exact hnext stop hstop

theorem follows_requireDigits (hat : at_ ≤ text.size) :
    FollowsToken text (requireDigitsAt text at_) (requireDigits (text.data.drop at_)) := by
  obtain ⟨stop, hstop, -, hread, hdrop, hnone⟩ := skipDigitsAt_eq hat
  rw [requireDigitsAt, hread, pure_bind, requireDigits]
  by_cases hdigit : (text.data.drop at_).head?.any isDigit = true
  · rw [if_neg (by rw [hnone, hdigit]; simp), if_pos hdigit, hdrop]
    exact follows_pure hstop
  · rw [if_pos (hnone.mpr (by simpa using hdigit)), if_neg hdigit]
    exact follows_reject

theorem follows_skipInt (at_ : ℕ) :
    FollowsToken text (skipIntAt text at_) (skipInt (text.data.drop at_)) := by
  rw [skipIntAt]
  by_cases hlt : at_ < text.size
  · obtain ⟨first, hread, hdrop, hadvance⟩ := exists_byte hlt
    rw [if_neg (by omega), hread, pure_bind, hdrop, skipInt]
    split_ifs with hzero hdigit hrange
    · rw [hadvance, pure_bind, peekAt_eq, pure_bind]
      cases hhead : (text.data.drop (at_ + 1)).head? with
      | none => simp [hhead] at hdigit
      | some next =>
          rw [hhead, Option.any_some] at hdigit
          simp only [hdigit, if_true]
          exact follows_reject
    · rw [hadvance, pure_bind, peekAt_eq, pure_bind]
      cases hhead : (text.data.drop (at_ + 1)).head? with
      | none => exact follows_pure hlt
      | some next =>
          rw [hhead, Option.any_some] at hdigit
          simp only [hdigit]
          exact follows_pure hlt
    · exact follows_reject
    · obtain ⟨stop, hstop, -, hread, hafter, -⟩ := skipDigitsAt_eq hlt.le
      rw [hread, pure_bind, ← hdrop, hafter]
      exact follows_pure hstop
  · rw [if_pos (by omega), drop_of_le hlt]
    exact follows_reject

theorem follows_skipFraction (hat : at_ ≤ text.size) :
    FollowsToken text (skipFractionAt text at_) (skipFraction (text.data.drop at_)) := by
  rw [skipFractionAt, peekAt_eq, pure_bind, skipFraction]
  by_cases hlt : at_ < text.size
  · obtain ⟨value, -, hdrop, hadvance⟩ := exists_byte hlt
    rw [hdrop, List.head?_cons, take]
    by_cases hpoint : value = decimalPoint
    · simp only [hpoint, if_true, hadvance, pure_bind]
      exact follows_requireDigits hlt
    · simp only [hpoint, if_false]
      rw [← hdrop]
      exact follows_pure hat
  · rw [drop_of_le hlt]
    exact ⟨at_, hat, rfl, (drop_of_le hlt).symm⟩

theorem skipSignAt_eq (hat : at_ ≤ text.size) :
    ∃ stop ≤ text.size, skipSignAt text at_ = pure stop ∧
      skipSign (text.data.drop at_) = text.data.drop stop := by
  rw [skipSignAt, peekAt_eq, pure_bind, skipSign]
  by_cases hlt : at_ < text.size
  · obtain ⟨value, -, hdrop, hadvance⟩ := exists_byte hlt
    rw [hdrop, List.head?_cons]
    by_cases hsign : value = plus ∨ value = minus
    · rw [if_pos (by simpa using hsign)]
      simp only [hsign, if_true, hadvance]
      exact ⟨at_ + 1, hlt, rfl, rfl⟩
    · rw [if_neg (by simpa using hsign)]
      simp only [hsign, if_false]
      exact ⟨at_, hat, rfl, hdrop.symm⟩
  · rw [drop_of_le hlt]
    exact ⟨at_, hat, rfl, (drop_of_le hlt).symm⟩

theorem follows_skipExponent (hat : at_ ≤ text.size) :
    FollowsToken text (skipExponentAt text at_) (skipExponent (text.data.drop at_)) := by
  rw [skipExponentAt, peekAt_eq, pure_bind, skipExponent]
  by_cases hlt : at_ < text.size
  · obtain ⟨value, -, hdrop, hadvance⟩ := exists_byte hlt
    rw [hdrop, List.head?_cons]
    by_cases he : value = 0x65 ∨ value = 0x45
    · rw [if_pos (by simpa using he)]
      simp only [he, if_true, hadvance, pure_bind, List.drop_succ_cons, List.drop_zero]
      obtain ⟨stop, hstop, hread, hdropped⟩ := skipSignAt_eq (by omega : at_ + 1 ≤ text.size)
      rw [hread, pure_bind, hdropped]
      exact follows_requireDigits hstop
    · rw [if_neg (by simpa using he)]
      simp only [he, if_false]
      rw [← hdrop]
      exact follows_pure hat
  · rw [drop_of_le hlt]
    exact ⟨at_, hat, rfl, (drop_of_le hlt).symm⟩

theorem follows_skipNumber {first : UInt8} {rest : ByteString} (hlt : at_ < text.size)
    (hdrop : text.data.drop at_ = first :: rest) :
    FollowsToken text (skipNumberAt text first at_) (skipNumber (first :: rest)) := by
  obtain ⟨first', -, hdrop', hadvance⟩ := exists_byte hlt
  obtain ⟨rfl, rfl⟩ := List.cons.inj (hdrop.symm.trans hdrop')
  simp only [skipNumberAt, skipNumber, List.head?_cons, Option.any_some, ne_eq, Option.some.injEq]
  split_ifs with hbegins hminus
  · exact follows_reject
  · rw [hadvance, pure_bind]
    exact (follows_skipInt (at_ + 1)).andThen fun stop hstop =>
      (follows_skipFraction hstop).andThen fun stop hstop => follows_skipExponent hstop
  · rw [pure_bind, ← hdrop]
    exact (follows_skipInt at_).andThen fun stop hstop =>
      (follows_skipFraction hstop).andThen fun stop hstop => follows_skipExponent hstop

/-! ## Values -/

theorem skipLiteralAt_eq (words : List ByteString) (hat : at_ ≤ text.size) :
    (∃ stop ≤ text.size, skipLiteralAt text at_ words = pure (some stop) ∧
      skipLiteral (text.data.drop at_) words = some (text.data.drop stop)) ∨
    (skipLiteralAt text at_ words = pure none ∧ skipLiteral (text.data.drop at_) words = none) := by
  induction words with
  | nil => exact .inr ⟨rfl, rfl⟩
  | cons word words ih =>
      rw [skipLiteralAt, skipLiteral]
      rcases (follows_takeWord word hat).token with ⟨hmodel, hread⟩ | ⟨stop, hstop, hmodel, hread⟩
      · rw [hread, attempt_reject, pure_bind, hmodel, Option.none_or]
        exact ih
      · rw [hread, attempt_pure, pure_bind, hmodel, Option.some_or]
        exact .inl ⟨stop, hstop, rfl, rfl⟩

section Lengths

variable {rest after : ByteString}

theorem length_of_requireDigits (hread : requireDigits rest = some after) :
    after.length ≤ rest.length := by
  rw [requireDigits] at hread
  split_ifs at hread
  obtain rfl := Option.some.inj hread
  exact (List.dropWhile_suffix isDigit).length_le

theorem length_of_skipInt (hread : skipInt rest = some after) : after.length < rest.length := by
  cases rest with
  | nil => cases hread
  | cons first rest =>
      rw [skipInt] at hread
      split_ifs at hread with hzero hdigit hrange
      · obtain rfl := Option.some.inj hread
        exact Nat.lt_succ_self _
      · obtain rfl := Option.some.inj hread
        have hfirst : isDigit first = true := by
          rw [not_or, UInt8.not_lt, UInt8.not_lt] at hrange
          have hlow : (0x30 : UInt8) ≤ first := UInt8.le_trans (by decide) hrange.1
          simp [isDigit, hlow, hrange.2]
        rw [List.dropWhile_cons, if_pos hfirst, List.length_cons]
        exact Nat.lt_succ_of_le (List.dropWhile_suffix isDigit).length_le

theorem length_of_skipFraction (hread : skipFraction rest = some after) :
    after.length ≤ rest.length := by
  rw [skipFraction] at hread
  cases htake : take decimalPoint rest with
  | none =>
      rw [htake] at hread
      obtain rfl := Option.some.inj hread
      exact le_refl _
  | some digits =>
      rw [htake] at hread
      have hlength := length_of_take htake
      have hlengthDigits := length_of_requireDigits hread
      omega

theorem length_skipSign_le (rest : ByteString) : (skipSign rest).length ≤ rest.length := by
  rw [skipSign]
  split_ifs
  · exact (List.drop_suffix 1 rest).length_le
  · exact le_refl _

theorem length_of_skipExponent (hread : skipExponent rest = some after) :
    after.length ≤ rest.length := by
  rw [skipExponent] at hread
  split_ifs at hread
  · have hlength := length_of_requireDigits hread
    have hsign := length_skipSign_le (rest.drop 1)
    have hdrop : (rest.drop 1).length ≤ rest.length := (List.drop_suffix 1 rest).length_le
    omega
  · obtain rfl := Option.some.inj hread
    exact le_refl _

theorem length_of_skipNumber (hread : skipNumber rest = some after) :
    after.length < rest.length := by
  rw [skipNumber] at hread
  have hdrop : (rest.drop 1).length ≤ rest.length := (List.drop_suffix 1 rest).length_le
  split_ifs at hread
  all_goals
    simp only [Option.bind_eq_bind, Option.bind_eq_some_iff] at hread
    obtain ⟨fraction, hint, exponent, hfraction, hexponent⟩ := hread
    have hlength1 := length_of_skipInt hint
    have hlength2 := length_of_skipFraction hfraction
    have hlength3 := length_of_skipExponent hexponent
    omega

theorem length_of_skipLiteral {words : List ByteString} (hwords : [] ∉ words)
    (hread : skipLiteral rest words = some after) : after.length < rest.length := by
  induction words with
  | nil => cases hread
  | cons word words ih =>
      rw [List.mem_cons, not_or] at hwords
      rw [skipLiteral, Option.or_eq_some_iff] at hread
      rcases hread with hword | ⟨-, hread⟩
      · rw [takeWord] at hword
        split_ifs at hword with hlisted
        obtain rfl := Option.some.inj hword
        have hle := (List.isPrefixOf_iff_prefix.mp hlisted).length_le
        have hpos := List.length_pos_iff.mpr (Ne.symm hwords.1)
        rw [List.length_drop]
        omega
      · exact ih hwords.2 hread

/-- What a skipped value, or the inside of one, leaves. -/
theorem length_of_skip (rounds : ℕ) :
    (∀ depth rest after, skipValue rounds depth rest = some after → after.length < rest.length) ∧
    (∀ depth rest after, skipMembers rounds depth rest = some after → after.length < rest.length) ∧
    ∀ depth rest after, skipElements rounds depth rest = some after →
      after.length < rest.length := by
  induction rounds with
  | zero => exact ⟨by simp [skipValue], by simp [skipMembers], by simp [skipElements]⟩
  | succ rounds ih =>
      obtain ⟨ihValue, ihMembers, ihElements⟩ := ih
      refine ⟨fun depth rest after hread => ?_, fun depth rest after hread => ?_,
        fun depth rest after hread => ?_⟩
      · cases rest with
        | nil => cases hread
        | cons first rest =>
            have hspace := length_skipWhitespace_le rest
            rw [skipValue] at hread
            split_ifs at hread
            · obtain ⟨⟨output, after⟩, hparse, rfl⟩ := Option.map_eq_some_iff.mp hread
              have hlength := length_of_parseString hparse
              dsimp only
              omega
            · rw [List.length_cons]
              cases htake : take endObject (skipWhitespace rest) with
              | some closed =>
                  simp only [htake, Option.some.injEq] at hread
                  have hlength := length_of_take htake
                  rw [← hread]
                  omega
              | none =>
                  simp only [htake] at hread
                  have hlength := ihMembers _ _ _ hread
                  omega
            · rw [List.length_cons]
              cases htake : take endArray (skipWhitespace rest) with
              | some closed =>
                  simp only [htake, Option.some.injEq] at hread
                  have hlength := length_of_take htake
                  rw [← hread]
                  omega
              | none =>
                  simp only [htake] at hread
                  have hlength := ihElements _ _ _ hread
                  omega
            · rw [Option.or_eq_some_iff] at hread
              rcases hread with hliteral | ⟨-, hnumber⟩
              · exact length_of_skipLiteral (by decide) hliteral
              · exact length_of_skipNumber hnumber
      · simp only [skipMembers, Option.bind_eq_bind, Option.bind_eq_some_iff, Prod.exists] at hread
        obtain ⟨name, a, hname, b, hcolon, c, hvalue, hread⟩ := hread
        have hlengthName := length_of_parseString hname
        have hspaceName := length_skipWhitespace_le a
        have hlengthColon := length_of_take hcolon
        have hspaceColon := length_skipWhitespace_le b
        have hlengthValue := ihValue _ _ _ hvalue
        have hspaceValue := length_skipWhitespace_le c
        cases htake : take endObject (skipWhitespace c) with
        | some closed =>
            simp only [htake, Option.some.injEq] at hread
            have hlength := length_of_take htake
            rw [← hread]
            omega
        | none =>
            simp only [htake, Option.bind_eq_some_iff] at hread
            obtain ⟨d, hcomma, hothers⟩ := hread
            have hlengthComma := length_of_take hcomma
            have hspaceComma := length_skipWhitespace_le d
            have hlength := ihMembers _ _ _ hothers
            omega
      · simp only [skipElements, Option.bind_eq_bind, Option.bind_eq_some_iff] at hread
        obtain ⟨c, hvalue, hread⟩ := hread
        have hlengthValue := ihValue _ _ _ hvalue
        have hspaceValue := length_skipWhitespace_le c
        cases htake : take endArray (skipWhitespace c) with
        | some closed =>
            simp only [htake, Option.some.injEq] at hread
            have hlength := length_of_take htake
            rw [← hread]
            omega
        | none =>
            simp only [htake, Option.bind_eq_some_iff] at hread
            obtain ⟨d, hcomma, hothers⟩ := hread
            have hlengthComma := length_of_take hcomma
            have hspaceComma := length_skipWhitespace_le d
            have hlength := ihElements _ _ _ hothers
            omega

end Lengths

/-- Behind a value the loop is left, or goes on after a comma. -/
theorem follows_rest {closing : UInt8} {again : ℕ → Checked (Unit × ℕ)}
    {againModel : ByteString → Option ByteString} (hat : at_ ≤ text.size)
    (hagain : ∀ stop ≤ text.size, (text.data.drop stop).length < (text.data.drop at_).length →
      FollowsToken text (again stop) (againModel (text.data.drop stop))) :
    FollowsToken text
      (do
        let at_ ← skipWhitespaceAt text at_
        match ← attempt (takeAt text closing at_) with
        | some closed => pure closed
        | none => do
            let (_, at_) ← takeAt text valueSeparator at_
            let at_ ← skipWhitespaceAt text at_
            again at_)
      (match take closing (skipWhitespace (text.data.drop at_)) with
      | some text => some text
      | none => (take valueSeparator (skipWhitespace (text.data.drop at_))).bind fun text =>
          againModel (skipWhitespace text)) := by
  obtain ⟨close, hclose, hskip, hskipped⟩ := skipWhitespaceAt_eq hat
  have hspace := length_skipWhitespace_le (text.data.drop at_)
  rw [hskip, pure_bind, hskipped]
  rw [hskipped] at hspace
  rcases (follows_take closing close).token with ⟨hmodel, hread⟩ | ⟨stop, hstop, hmodel, hread⟩
  · rw [hread, hmodel, attempt_reject, pure_bind]
    dsimp only
    rcases (follows_take valueSeparator close).token with
      ⟨hmodel, hread⟩ | ⟨afterComma, hat, hmodel, hread⟩
    · rw [hread, hmodel]
      exact follows_reject
    · have hlengthComma := length_of_take hmodel
      rw [hread, hmodel, pure_bind, Option.bind_some]
      obtain ⟨next, hnext, hskip, hskipped⟩ := skipWhitespaceAt_eq hat
      have hspaceComma := length_skipWhitespace_le (text.data.drop afterComma)
      rw [hskipped] at hspaceComma ⊢
      dsimp only
      rw [hskip, pure_bind]
      exact hagain next hnext (by omega)
  · rw [hread, hmodel, attempt_pure, pure_bind]
    exact follows_pure hstop

/-- The recursion and its loops, with enough rounds for what is left. -/
theorem follows_skip (rounds : ℕ) :
    (∀ depth at_, at_ ≤ text.size → 2 * (text.data.drop at_).length < rounds →
      FollowsToken text (skipValueAt text rounds depth at_)
        (skipValue rounds depth (text.data.drop at_))) ∧
    (∀ depth at_, at_ ≤ text.size → 2 * (text.data.drop at_).length + 1 < rounds →
      FollowsToken text (skipMembersAt text rounds depth at_)
        (skipMembers rounds depth (text.data.drop at_))) ∧
    ∀ depth at_, at_ ≤ text.size → 2 * (text.data.drop at_).length + 1 < rounds →
      FollowsToken text (skipElementsAt text rounds depth at_)
        (skipElements rounds depth (text.data.drop at_)) := by
  induction rounds with
  | zero =>
      exact ⟨fun _ _ _ hrounds => absurd hrounds (Nat.not_lt_zero _),
        fun _ _ _ hrounds => absurd hrounds (Nat.not_lt_zero _),
        fun _ _ _ hrounds => absurd hrounds (Nat.not_lt_zero _)⟩
  | succ rounds ih =>
      obtain ⟨ihValue, ihMembers, ihElements⟩ := ih
      refine ⟨fun depth at_ hat hrounds => ?_, fun depth at_ hat hrounds => ?_,
        fun depth at_ hat hrounds => ?_⟩
      · rw [skipValueAt]
        by_cases hlt : at_ < text.size
        · obtain ⟨first, hread, hdrop, hadvance⟩ := exists_byte hlt
          have hnext : at_ + 1 ≤ text.size := hlt
          rw [hdrop, List.length_cons] at hrounds
          rw [hdrop, skipValue]
          have hspace := length_skipWhitespace_le (text.data.drop (at_ + 1))
          obtain ⟨inner, hinner, hskip, hskipped⟩ := skipWhitespaceAt_eq hnext
          rw [hskipped] at hspace
          by_cases hdepth : depth > kSkipDepthMax
          · rw [if_pos (.inl hdepth), if_pos hdepth]
            exact follows_reject
          rw [if_neg (by omega), if_neg hdepth, hread, pure_bind]
          split_ifs
          · rw [← hdrop, FollowsToken, Option.map_map]
            exact (follows_parseString at_).map fun _ => ()
          · rw [hadvance, pure_bind, hskip, pure_bind, hskipped]
            rcases (follows_take endObject inner).token with
              ⟨hmodel, hread⟩ | ⟨stop, hstop, hmodel, hread⟩
            · rw [hread, hmodel, attempt_reject, pure_bind]
              exact ihMembers depth inner hinner (by omega)
            · rw [hread, hmodel, attempt_pure, pure_bind]
              exact follows_pure hstop
          · rw [hadvance, pure_bind, hskip, pure_bind, hskipped]
            rcases (follows_take endArray inner).token with
              ⟨hmodel, hread⟩ | ⟨stop, hstop, hmodel, hread⟩
            · rw [hread, hmodel, attempt_reject, pure_bind]
              exact ihElements depth inner hinner (by omega)
            · rw [hread, hmodel, attempt_pure, pure_bind]
              exact follows_pure hstop
          · rw [← hdrop]
            rcases skipLiteralAt_eq literals hat with ⟨stop, hstop, hread, hmodel⟩ | ⟨hread, hmodel⟩
            · rw [hread, pure_bind, hmodel, Option.some_or]
              exact follows_pure hstop
            · rw [hread, pure_bind, hmodel, Option.none_or, hdrop]
              exact follows_skipNumber hlt hdrop
        · rw [if_pos (.inr (by omega)), drop_of_le hlt]
          exact follows_reject
      · rw [skipMembersAt, skipMembers]
        rcases (follows_parseString at_).outcome with
          ⟨hmodel, hread⟩ | ⟨name, afterName, hat, hmodel, hread⟩
        · rw [hread, hmodel]
          exact follows_reject
        have hlengthName := length_of_parseString hmodel
        rw [hread, hmodel, pure_bind]
        simp only [Option.bind_eq_bind, Option.bind_some]
        obtain ⟨colon, hcolon, hskip, hskipped⟩ := skipWhitespaceAt_eq hat
        have hspace := length_skipWhitespace_le (text.data.drop afterName)
        rw [hskip, pure_bind, hskipped]
        rw [hskipped] at hspace
        rcases (follows_take nameSeparator colon).token with
          ⟨hmodel, hread⟩ | ⟨afterColon, hat, hmodel, hread⟩
        · rw [hread, hmodel]
          exact follows_reject
        have hlengthColon := length_of_take hmodel
        rw [hread, hmodel, pure_bind, Option.bind_some]
        obtain ⟨value, hvalue, hskip, hskipped⟩ := skipWhitespaceAt_eq hat
        have hspaceColon := length_skipWhitespace_le (text.data.drop afterColon)
        rw [hskip, pure_bind, hskipped]
        rw [hskipped] at hspaceColon
        rcases (ihValue (depth + 1) value hvalue (by omega)).token with
          ⟨hmodel, hread⟩ | ⟨afterValue, hat, hmodel, hread⟩
        · rw [hread, hmodel]
          exact follows_reject
        have hlengthValue := (length_of_skip rounds).1 _ _ _ hmodel
        rw [hread, hmodel, pure_bind, Option.bind_some]
        refine follows_rest hat fun stop hstop hlength => ihMembers depth stop hstop ?_
        dsimp only at hlength
        omega
      · rw [skipElementsAt, skipElements]
        rcases (ihValue (depth + 1) at_ hat (by omega)).token with
          ⟨hmodel, hread⟩ | ⟨afterValue, hat, hmodel, hread⟩
        · rw [hread, hmodel]
          exact follows_reject
        have hlengthValue := (length_of_skip rounds).1 _ _ _ hmodel
        rw [hread, hmodel, pure_bind]
        simp only [Option.bind_eq_bind, Option.bind_some]
        refine follows_rest hat fun stop hstop hlength => ihElements depth stop hstop ?_
        omega

/-! ## The document -/

theorem follows_parseContent {bound : ℕ} (fields : Fields) (key : ByteString)
    (hat : at_ ≤ text.size) (hbound : bound = skipRounds text.size) :
    Follows text (parseContentAt text fields key at_)
      (parseContent bound fields key (text.data.drop at_)) := by
  rw [parseContentAt, parseContent]
  split_ifs
  · exact follows_reject
  · exact (follows_parseString at_).map (fields.set key)
  · have hlength := length_drop_le text at_
    have hvalue : FollowsToken text (skipValueAt text bound 0 at_)
        (skipValue bound 0 (text.data.drop at_)) :=
      (follows_skip bound).1 0 at_ hat (by rw [hbound, skipRounds]; omega)
    rw [← hbound]
    have hmapped := hvalue.map fun _ => fields
    rw [Option.map_map] at hmapped
    exact hmapped

theorem length_of_parseContent {bound : ℕ} {fields fields' : Fields} {key rest after : ByteString}
    (hread : parseContent bound fields key rest = some (fields', after)) :
    after.length < rest.length := by
  rw [parseContent] at hread
  split_ifs at hread
  · obtain ⟨⟨value, rest'⟩, hparse, hsome⟩ := Option.map_eq_some_iff.mp hread
    obtain ⟨-, rfl⟩ := Prod.mk.inj hsome
    have hlength := length_of_parseString hparse
    dsimp only
    omega
  · obtain ⟨rest', hskip, hsome⟩ := Option.map_eq_some_iff.mp hread
    obtain ⟨-, rfl⟩ := Prod.mk.inj hsome
    exact (length_of_skip bound).1 _ _ _ hskip

/-- A round takes a byte. -/
theorem follows_parseMembers {bound rounds : ℕ} {fields : Fields} (hat : at_ ≤ text.size)
    (hbound : bound = skipRounds text.size) (hrounds : (text.data.drop at_).length < rounds) :
    Follows text (parseMembersAt text rounds fields at_)
      (parseMembers bound rounds fields (text.data.drop at_)) := by
  induction rounds generalizing fields at_ with
  | zero => exact absurd hrounds (Nat.not_lt_zero _)
  | succ rounds ih =>
      rw [parseMembersAt, parseMembers]
      rcases (follows_parseString at_).outcome with
        ⟨hmodel, hread⟩ | ⟨key, afterName, hat, hmodel, hread⟩
      · rw [hread, hmodel]
        exact follows_reject
      have hlengthName := length_of_parseString hmodel
      rw [hread, hmodel, pure_bind]
      simp only [Option.bind_eq_bind, Option.bind_some]
      obtain ⟨colon, hcolon, hskip, hskipped⟩ := skipWhitespaceAt_eq hat
      have hspace := length_skipWhitespace_le (text.data.drop afterName)
      rw [hskip, pure_bind, hskipped]
      rw [hskipped] at hspace
      rcases (follows_take nameSeparator colon).token with
        ⟨hmodel, hread⟩ | ⟨afterColon, hat, hmodel, hread⟩
      · rw [hread, hmodel]
        exact follows_reject
      have hlengthColon := length_of_take hmodel
      rw [hread, hmodel, pure_bind, Option.bind_some]
      obtain ⟨value, hvalue, hskip, hskipped⟩ := skipWhitespaceAt_eq hat
      have hspaceColon := length_skipWhitespace_le (text.data.drop afterColon)
      rw [hskip, pure_bind, hskipped]
      rw [hskipped] at hspaceColon
      rcases (follows_parseContent fields key hvalue hbound).outcome with
        ⟨hmodel, hread⟩ | ⟨fields', afterValue, hat, hmodel, hread⟩
      · rw [hread, hmodel]
        exact follows_reject
      have hlengthValue := length_of_parseContent hmodel
      rw [hread, hmodel, pure_bind, Option.bind_some]
      dsimp only
      obtain ⟨close, hclose, hskip, hskipped⟩ := skipWhitespaceAt_eq hat
      have hspaceValue := length_skipWhitespace_le (text.data.drop afterValue)
      rw [hskip, pure_bind, hskipped]
      rw [hskipped] at hspaceValue
      rcases (follows_take endObject close).token with
        ⟨hmodel, hread⟩ | ⟨stop, hstop, hmodel, hread⟩
      · rw [hread, hmodel, attempt_reject, pure_bind]
        dsimp only
        rcases (follows_take valueSeparator close).token with
          ⟨hmodel, hread⟩ | ⟨afterComma, hat, hmodel, hread⟩
        · rw [hread, hmodel]
          exact follows_reject
        have hlengthComma := length_of_take hmodel
        rw [hread, hmodel, pure_bind, Option.bind_some]
        obtain ⟨next, hnext, hskip, hskipped⟩ := skipWhitespaceAt_eq hat
        have hspaceComma := length_skipWhitespace_le (text.data.drop afterComma)
        rw [hskipped] at hspaceComma
        rw [hskip, pure_bind, hskipped]
        exact ih hnext (by omega)
      · rw [hread, hmodel, attempt_pure, pure_bind]
        exact follows_pure hstop

theorem follows_parseObject (text : Span UInt8) :
    Follows text (parseObjectAt text) (parseObject text.data) := by
  rw [parseObjectAt, parseObject]
  obtain ⟨begin, hbegin, hskip, hskipped⟩ := skipWhitespaceAt_eq (Nat.zero_le text.size)
  rw [List.drop_zero] at hskipped
  rw [hskip, pure_bind, hskipped]
  rcases (follows_take beginObject begin).token with
    ⟨hmodel, hread⟩ | ⟨afterBegin, hat, hmodel, hread⟩
  · rw [hread, hmodel]
    exact follows_reject
  rw [hread, hmodel, pure_bind]
  simp only [Option.bind_eq_bind, Option.bind_some]
  obtain ⟨inner, hinner, hskip, hskipped⟩ := skipWhitespaceAt_eq hat
  rw [hskip, pure_bind, hskipped]
  rcases (follows_take endObject inner).token with ⟨hmodel, hread⟩ | ⟨stop, hstop, hmodel, hread⟩
  · rw [hread, hmodel, attempt_reject, pure_bind, if_neg (by simp)]
    dsimp only
    have hlength := length_drop_le text inner
    have hmembers : Follows text (parseMembersAt text (text.size + 1) Fields.unseen inner)
        (parseMembers (skipRounds text.data.length) (text.data.length + 1) Fields.unseen
          (text.data.drop inner)) := follows_parseMembers hinner rfl (by omega)
    refine hmembers.bind fun fields at_ hat => ?_
    obtain ⟨stop, hstop, hskip, hskipped⟩ := skipWhitespaceAt_eq hat
    dsimp only
    rw [hskip, pure_bind, hskipped]
    exact follows_pure hstop
  · rw [hread, hmodel, attempt_pure, pure_bind, if_pos (by simp)]
    exact follows_reject

/-- The parser accepts what the reader of the rest accepts; it ends and stays inside its text. -/
theorem parseAt_eq (text : Span UInt8) : parseAt text = (parse text.data).elim reject pure := by
  rw [parseAt, parse]
  rw [show text.data.length = text.size from rfl]
  split_ifs
  · rfl
  · rcases (follows_parseObject text).outcome with
      ⟨hmodel, hread⟩ | ⟨fields, stop, hstop, hmodel, hread⟩
    · rw [hread, hmodel]
      rfl
    · rw [hread, hmodel, pure_bind]
      simp only [Option.bind_eq_bind, Option.bind_some]
      by_cases hend : stop = text.size
      · rw [if_neg (not_not.mpr hend), if_neg]
        · cases fields.result <;> rfl
        · rw [hend]
          simp [Span.size]
      · rw [if_pos hend, if_pos]
        · rfl
        · have hlt : stop < text.data.length := lt_of_le_of_ne hstop hend
          simpa [List.isEmpty_iff, List.drop_eq_nil_iff] using hlt

end Sitos.SessionMetadata
