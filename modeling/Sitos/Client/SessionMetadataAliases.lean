import Sitos.Client.SessionMetadataLanguage

/-!
# The leading bytes that the metadata parser mistakes

The parser reads a text with the bytes `F8` to `FC` as the one in which they are put right.
-/

namespace Sitos.SessionMetadata

open Sitos.AckResult
open Sitos.Bytes
open Sitos.Cursor
open Sitos.FenceWire
open Sitos.FlatJson (take takeWord)
open Sitos.Json

/-- The byte that an alias is taken for. -/
def unaliased (c : UInt8) : UInt8 := if isAlias c then c - 8 else c

section Aliases

variable {text : ByteString}

/-- The parser cannot tell an alias from the byte it is taken for. -/
theorem classes_unaliased (c : UInt8) :
    isSpace (unaliased c) = isSpace c ∧ isDigit (unaliased c) = isDigit c ∧
      hexValue (unaliased c) = hexValue c ∧ width (unaliased c) = width c ∧
      leadBits (unaliased c) = leadBits c ∧ isContinuation (unaliased c) = isContinuation c ∧
      (isContinuation c = true → unaliased c = c) ∧ escapeOf (unaliased c) = escapeOf c ∧
      (unaliased c < 0x31 ∨ 0x39 < unaliased c ↔ c < 0x31 ∨ 0x39 < c) ∧
      (unaliased c = c ∨ (0xF0 ≤ unaliased c ∧ 0xF0 ≤ c)) ∧ isAlias (unaliased c) = false := by
  have hcheck : ∀ c : UInt8,
      isSpace (unaliased c) = isSpace c ∧ isDigit (unaliased c) = isDigit c ∧
        hexValue (unaliased c) = hexValue c ∧ width (unaliased c) = width c ∧
        leadBits (unaliased c) = leadBits c ∧ isContinuation (unaliased c) = isContinuation c ∧
        (isContinuation c = true → unaliased c = c) ∧ escapeOf (unaliased c) = escapeOf c ∧
        (unaliased c < 0x31 ∨ 0x39 < unaliased c ↔ c < 0x31 ∨ 0x39 < c) ∧
        (unaliased c = c ∨ (0xF0 ≤ unaliased c ∧ 0xF0 ≤ c)) ∧
        isAlias (unaliased c) = false := by
    decide +kernel
  exact hcheck c

theorem unaliased_or (c : UInt8) : unaliased c = c ∨ (0xF0 ≤ unaliased c ∧ 0xF0 ≤ c) := by
  obtain ⟨-, -, -, -, -, -, -, -, -, hor, -⟩ := classes_unaliased c
  exact hor

theorem unaliased_eq_iff {mark : UInt8} (hmark : mark < 0xF0) (c : UInt8) :
    unaliased c = mark ↔ c = mark := by
  rcases unaliased_or c with heq | ⟨hunaliased, hc⟩
  · rw [heq]
  · refine iff_of_false ?_ ?_
    · rintro rfl
      exact absurd hmark (UInt8.not_lt.mpr hunaliased)
    · rintro rfl
      exact absurd hmark (UInt8.not_lt.mpr hc)

theorem unaliased_lt_iff {mark : UInt8} (hmark : mark ≤ 0xF0) (c : UInt8) :
    unaliased c < mark ↔ c < mark := by
  rcases unaliased_or c with heq | ⟨hunaliased, hc⟩
  · rw [heq]
  · refine iff_of_false ?_ ?_
    · exact UInt8.not_lt.mpr (UInt8.le_trans hmark hunaliased)
    · exact UInt8.not_lt.mpr (UInt8.le_trans hmark hc)

theorem take_map {mark : UInt8} (hmark : mark < 0xF0) (text : ByteString) :
    take mark (text.map unaliased) = (take mark text).map (List.map unaliased) := by
  cases text with
  | nil => rfl
  | cons c text =>
      rw [List.map_cons, take, take, apply_ite (Option.map _)]
      simp only [unaliased_eq_iff hmark]
      rfl

theorem skipWhitespace_map (text : ByteString) :
    skipWhitespace (text.map unaliased) = (skipWhitespace text).map unaliased := by
  have hspace : isSpace ∘ unaliased = isSpace := funext fun c => (classes_unaliased c).1
  rw [skipWhitespace, skipWhitespace, List.dropWhile_map, hspace]

/-- What a reader of strings read, with the aliases in the rest put right. -/
abbrev Fixed {α : Type} (read : Option (α × ByteString)) : Option (α × ByteString) :=
  read.map (Prod.map id (List.map unaliased))

theorem readHex4_map (text : ByteString) :
    readHex4 (text.map unaliased) = Fixed (readHex4 text) := by
  rcases text with _ | ⟨c1, _ | ⟨c2, _ | ⟨c3, _ | ⟨c4, text⟩⟩⟩⟩
  · rfl
  · rfl
  · rfl
  · rfl
  · have hhex (c : UInt8) : hexValue (unaliased c) = hexValue c := (classes_unaliased c).2.2.1
    simp only [List.map_cons, readHex4, hhex, Option.bind_eq_bind, Fixed, Option.map_bind,
      Function.comp_def, Option.map_some, Prod.map_apply, id_eq]

theorem parseUnicodeEscape_map (text : ByteString) :
    parseUnicodeEscape (text.map unaliased) = Fixed (parseUnicodeEscape text) := by
  rw [parseUnicodeEscape, parseUnicodeEscape, readHex4_map]
  cases readHex4 text with
  | none => simp only [Fixed, Option.map_none, Option.bind_eq_bind, Option.bind_none]
  | some read =>
      obtain ⟨first, after⟩ := read
      simp only [Fixed, Option.map_some, Prod.map_apply, id_eq, Option.bind_eq_bind,
        Option.bind_some, apply_ite (Option.map _), Option.map_none]
      refine ite_congr rfl (fun _ => rfl) fun _ => ite_congr rfl (fun _ => ?_) fun _ => rfl
      simp only [take_map (show reverseSolidus < 0xF0 by decide), Option.bind_map,
        Option.map_bind, Function.comp_def]
      refine congrArg _ (funext fun text => ?_)
      simp only [take_map (show unicodeMark < 0xF0 by decide), Option.bind_map,
        Function.comp_def]
      refine congrArg _ (funext fun text => ?_)
      rw [readHex4_map]
      cases readHex4 text with
      | none => simp only [Fixed, Option.map_none, Option.bind_none]
      | some read =>
          obtain ⟨second, after⟩ := read
          rw [Fixed, Option.map_some, Option.bind_some, Option.bind_some, apply_ite (Option.map _)]
          refine ite_congr rfl (fun _ => rfl) fun _ => ?_
          rw [Option.map_some, Prod.map_apply, Prod.map_apply, id_eq, id_eq]

theorem continuations_map (count codePoint : ℕ) (text : ByteString) :
    continuations count codePoint (text.map unaliased) =
      Fixed (continuations count codePoint text) := by
  induction count generalizing codePoint text with
  | zero => rfl
  | succ count ih =>
      cases text with
      | nil => rfl
      | cons c text =>
          obtain ⟨-, -, -, -, -, hcontinuation, hsame, -⟩ := classes_unaliased c
          rw [List.map_cons, continuations, continuations, hcontinuation]
          by_cases hc : isContinuation c = true
          · rw [if_neg (by simp [hc]), if_neg (by simp [hc]), hsame hc, ih]
          · rw [if_pos (by simpa using hc), if_pos (by simpa using hc)]
            rfl

theorem multibyte_map (value : UInt8) (text : ByteString) :
    multibyte (unaliased value) (text.map unaliased) = Fixed (multibyte value text) := by
  obtain ⟨-, -, -, hwidth, hbits, -⟩ := classes_unaliased value
  simp only [multibyte, hwidth, hbits, continuations_map, Option.bind_eq_bind, Fixed,
    Option.map_bind, Option.bind_map, Function.comp_def, Prod.map_fst, Prod.map_snd, id_eq,
    apply_ite (Option.map _), Option.map_some, Option.map_none, Prod.map_apply]

theorem escapeOf_unaliased (c : UInt8) : escapeOf (unaliased c) = escapeOf c := by
  obtain ⟨-, -, -, -, -, -, -, hescape, -⟩ := classes_unaliased c
  exact hescape

theorem escape_map (text : ByteString) : escape (text.map unaliased) = Fixed (escape text) := by
  cases text with
  | nil => rfl
  | cons escaped text =>
      simp only [List.map_cons, escape, unaliased_eq_iff (show unicodeMark < 0xF0 by decide),
        escapeOf_unaliased, parseUnicodeEscape_map, Fixed, apply_ite (Option.map _),
        Option.map_map, Function.comp_def, Prod.map_apply, id_eq]

theorem character_map (value : UInt8) (text : ByteString) :
    character (unaliased value) (text.map unaliased) = Fixed (character value text) := by
  have hascii (hvalue : value < 0x80) : unaliased value = value := by
    rcases unaliased_or value with heq | ⟨-, hlarge⟩
    · exact heq
    · exact absurd (UInt8.lt_of_lt_of_le hvalue (by decide : (0x80 : UInt8) ≤ 0xF0))
        (UInt8.not_lt.mpr hlarge)
  rw [character, character]
  simp only [ne_eq, unaliased_lt_iff (show (0x20 : UInt8) ≤ 0xF0 by decide),
    unaliased_lt_iff (show (0x80 : UInt8) ≤ 0xF0 by decide),
    unaliased_eq_iff (show reverseSolidus < 0xF0 by decide), multibyte_map, escape_map, Fixed,
    apply_ite (Option.map _), Option.map_some, Option.map_none, Prod.map_apply, id_eq]
  refine ite_congr rfl (fun _ => rfl) fun _ => ite_congr rfl (fun _ => ?_) fun _ => rfl
  exact ite_congr rfl (fun hvalue => by rw [hascii hvalue]) fun _ => rfl

theorem characters_map (rounds : ℕ) (text : ByteString) :
    characters rounds (text.map unaliased) = Fixed (characters rounds text) := by
  induction rounds generalizing text with
  | zero => rfl
  | succ rounds ih =>
      cases text with
      | nil => rfl
      | cons value text =>
          simp only [List.map_cons, characters,
            unaliased_eq_iff (show quotationMark < 0xF0 by decide), character_map, ih,
            Option.bind_eq_bind, Fixed, Option.map_bind, Option.bind_map, Function.comp_def,
            Prod.map_fst, Prod.map_snd, id_eq, apply_ite (Option.map _), Option.map_some,
            Prod.map_apply]

theorem parseString_map (text : ByteString) :
    parseString (text.map unaliased) = Fixed (parseString text) := by
  simp only [parseString, take_map (show quotationMark < 0xF0 by decide), characters_map,
    List.length_map, Option.bind_eq_bind, Fixed, Option.map_bind, Option.bind_map,
    Function.comp_def]

/-! ### Skipped values -/

theorem dropWhile_isDigit_map (text : ByteString) :
    (text.map unaliased).dropWhile isDigit = (text.dropWhile isDigit).map unaliased := by
  have hdigit : isDigit ∘ unaliased = isDigit := funext fun c => (classes_unaliased c).2.1
  rw [List.dropWhile_map, hdigit]

theorem any_head_map (text : ByteString) :
    (text.map unaliased).head?.any isDigit = text.head?.any isDigit := by
  cases text with
  | nil => rfl
  | cons c text => exact (classes_unaliased c).2.1

theorem head_map_eq_iff {mark : UInt8} (hmark : mark < 0xF0) (text : ByteString) :
    (text.map unaliased).head? = some mark ↔ text.head? = some mark := by
  cases text with
  | nil => rfl
  | cons c text => simpa using unaliased_eq_iff hmark c

theorem skipInt_map (text : ByteString) :
    skipInt (text.map unaliased) = (skipInt text).map (List.map unaliased) := by
  cases text with
  | nil => rfl
  | cons first text =>
      have hdrop := dropWhile_isDigit_map (first :: text)
      have hrange : unaliased first < 0x31 ∨ 0x39 < unaliased first ↔
          first < 0x31 ∨ 0x39 < first := by
        obtain ⟨-, -, -, -, -, -, -, -, hrange, -⟩ := classes_unaliased first
        exact hrange
      rw [List.map_cons] at hdrop
      simp only [List.map_cons, skipInt, unaliased_eq_iff (show zero < 0xF0 by decide), hrange,
        hdrop, any_head_map, apply_ite (Option.map _), Option.map_some, Option.map_none]

theorem requireDigits_map (text : ByteString) :
    requireDigits (text.map unaliased) = (requireDigits text).map (List.map unaliased) := by
  simp only [requireDigits, any_head_map, dropWhile_isDigit_map, apply_ite (Option.map _),
    Option.map_some, Option.map_none]

theorem skipFraction_map (text : ByteString) :
    skipFraction (text.map unaliased) = (skipFraction text).map (List.map unaliased) := by
  rw [skipFraction, skipFraction, take_map (by decide)]
  cases take decimalPoint text with
  | none => rfl
  | some text => exact requireDigits_map text

theorem skipSign_map (text : ByteString) :
    skipSign (text.map unaliased) = (skipSign text).map unaliased := by
  simp only [skipSign, head_map_eq_iff (show plus < 0xF0 by decide),
    head_map_eq_iff (show minus < 0xF0 by decide), ← List.map_drop, apply_ite (List.map _)]

theorem skipExponent_map (text : ByteString) :
    skipExponent (text.map unaliased) = (skipExponent text).map (List.map unaliased) := by
  simp only [skipExponent, head_map_eq_iff (show (0x65 : UInt8) < 0xF0 by decide),
    head_map_eq_iff (show (0x45 : UInt8) < 0xF0 by decide), ← List.map_drop, skipSign_map,
    requireDigits_map, apply_ite (Option.map _), Option.map_some]

theorem skipNumber_map (text : ByteString) :
    skipNumber (text.map unaliased) = (skipNumber text).map (List.map unaliased) := by
  have hminus := head_map_eq_iff (show minus < 0xF0 by decide) text
  have hinner :
      (if text.head? = some minus then (text.map unaliased).drop 1 else text.map unaliased) =
        (if text.head? = some minus then text.drop 1 else text).map unaliased := by
    rw [apply_ite (List.map _), List.map_drop]
  simp only [skipNumber, ne_eq, hminus, any_head_map, hinner, skipInt_map, skipFraction_map,
    skipExponent_map, Option.bind_eq_bind, Option.map_bind, Option.bind_map, Function.comp_def,
    apply_ite (Option.map _), Option.map_none]

theorem takeWord_map {word : ByteString} (hword : ∀ c ∈ word, c < 0xF0) (text : ByteString) :
    takeWord word (text.map unaliased) = (takeWord word text).map (List.map unaliased) := by
  have hprefix : word.isPrefixOf (text.map unaliased) = word.isPrefixOf text := by
    induction word generalizing text with
    | nil => rfl
    | cons mark word ih =>
        cases text with
        | nil => rfl
        | cons c text =>
            have hmark : (mark == unaliased c) = (mark == c) := by
              rw [Bool.eq_iff_iff, beq_iff_eq, beq_iff_eq, eq_comm,
                unaliased_eq_iff (hword mark List.mem_cons_self), eq_comm]
            rw [List.map_cons, List.isPrefixOf_cons_cons, List.isPrefixOf_cons_cons, hmark,
              ih (fun c hc => hword c (List.mem_cons_of_mem mark hc))]
  simp only [takeWord, hprefix, ← List.map_drop, apply_ite (Option.map _), Option.map_some,
    Option.map_none]

theorem skipLiteral_map {words : List ByteString} (hwords : ∀ word ∈ words, ∀ c ∈ word, c < 0xF0)
    (text : ByteString) :
    skipLiteral (text.map unaliased) words = (skipLiteral text words).map (List.map unaliased) := by
  induction words with
  | nil => rfl
  | cons word words ih =>
      rw [skipLiteral, skipLiteral, takeWord_map (hwords word List.mem_cons_self),
        ih fun other hother => hwords other (List.mem_cons_of_mem word hother), Option.map_or]

def FixesValues (rounds : ℕ) : Prop := ∀ depth text,
  skipValue rounds depth (text.map unaliased) =
    (skipValue rounds depth text).map (List.map unaliased)

def FixesMembers (rounds : ℕ) : Prop := ∀ depth text,
  skipMembers rounds depth (text.map unaliased) =
    (skipMembers rounds depth text).map (List.map unaliased)

def FixesElements (rounds : ℕ) : Prop := ∀ depth text,
  skipElements rounds depth (text.map unaliased) =
    (skipElements rounds depth text).map (List.map unaliased)

theorem fixesMembers_succ {rounds : ℕ} (hvalues : FixesValues rounds)
    (hmembers : FixesMembers rounds) : FixesMembers (rounds + 1) := by
  intro depth text
  simp only [skipMembers, parseString_map, skipWhitespace_map,
    take_map (show nameSeparator < 0xF0 by decide), hvalues (depth + 1), Option.bind_eq_bind,
    Fixed, Option.map_bind, Option.bind_map, Function.comp_def, Prod.map_snd]
  refine congrArg _ (funext fun name => congrArg _ (funext fun b => congrArg _
    (funext fun d => ?_)))
  rw [take_map (by decide)]
  cases take endObject (skipWhitespace d) with
  | some after => rfl
  | none =>
      simp only [Option.map_none, take_map (show valueSeparator < 0xF0 by decide),
        hmembers depth, Option.map_bind, Option.bind_map, Function.comp_def, skipWhitespace_map]

theorem fixesElements_succ {rounds : ℕ} (hvalues : FixesValues rounds)
    (helements : FixesElements rounds) : FixesElements (rounds + 1) := by
  intro depth text
  simp only [skipElements, hvalues (depth + 1), skipWhitespace_map, Option.bind_eq_bind,
    Option.map_bind, Option.bind_map, Function.comp_def]
  refine congrArg _ (funext fun d => ?_)
  rw [take_map (by decide)]
  cases take endArray (skipWhitespace d) with
  | some after => rfl
  | none =>
      simp only [Option.map_none, take_map (show valueSeparator < 0xF0 by decide),
        helements depth, Option.map_bind, Option.bind_map, Function.comp_def, skipWhitespace_map]

theorem fixesValues_succ {rounds : ℕ} (hmembers : FixesMembers rounds)
    (helements : FixesElements rounds) : FixesValues (rounds + 1) := by
  intro depth text
  cases text with
  | nil => rfl
  | cons first text =>
      have hstring := parseString_map (first :: text)
      have hliteral := skipLiteral_map (fun _ => lt_of_mem_literal) (first :: text)
      have hnumber := skipNumber_map (first :: text)
      simp only [List.map_cons] at hstring hliteral hnumber
      simp only [List.map_cons, skipValue, unaliased_eq_iff (show quotationMark < 0xF0 by decide),
        unaliased_eq_iff (show beginObject < 0xF0 by decide),
        unaliased_eq_iff (show beginArray < 0xF0 by decide), skipWhitespace_map,
        take_map (show endObject < 0xF0 by decide), take_map (show endArray < 0xF0 by decide),
        hstring, hliteral, hnumber, hmembers depth, helements depth, Fixed,
        apply_ite (Option.map _), Option.map_none, Option.map_or, Option.map_map,
        Function.comp_def, Prod.map_snd]
      refine ite_congr rfl (fun _ => rfl) fun _ => ite_congr rfl (fun _ => rfl) fun _ =>
        ite_congr rfl (fun _ => ?_) fun _ => ite_congr rfl (fun _ => ?_) fun _ => rfl
      · cases take endObject (skipWhitespace text) <;> rfl
      · cases take endArray (skipWhitespace text) <;> rfl

theorem fixes_skip (rounds : ℕ) :
    FixesValues rounds ∧ FixesMembers rounds ∧ FixesElements rounds := by
  induction rounds with
  | zero => exact ⟨fun _ _ => by simp [skipValue], fun _ _ => by simp [skipMembers],
      fun _ _ => by simp [skipElements]⟩
  | succ rounds ih =>
      obtain ⟨hvalues, hmembers, helements⟩ := ih
      exact ⟨fixesValues_succ hmembers helements, fixesMembers_succ hvalues hmembers,
        fixesElements_succ hvalues helements⟩

/-! ### The document -/

theorem parseContent_map (bound : ℕ) (fields : Fields) (key text : ByteString) :
    parseContent bound fields key (text.map unaliased) =
      Fixed (parseContent bound fields key text) := by
  simp only [parseContent, parseString_map, (fixes_skip bound).1 0 text, Fixed,
    apply_ite (Option.map _), Option.map_none, Option.map_map, Function.comp_def, Prod.map_apply,
    Prod.map_fst, Prod.map_snd, id_eq]

theorem parseMembers_map (bound rounds : ℕ) (fields : Fields) (text : ByteString) :
    parseMembers bound rounds fields (text.map unaliased) =
      Fixed (parseMembers bound rounds fields text) := by
  induction rounds generalizing fields text with
  | zero => rfl
  | succ rounds ih =>
      simp only [parseMembers, parseString_map, skipWhitespace_map,
        take_map (show nameSeparator < 0xF0 by decide), parseContent_map, Option.bind_eq_bind,
        Fixed, Option.map_bind, Option.bind_map, Function.comp_def, Prod.map_fst, Prod.map_snd,
        id_eq]
      refine congrArg _ (funext fun name => congrArg _ (funext fun b => congrArg _
        (funext fun read => ?_)))
      rw [take_map (by decide)]
      cases take endObject (skipWhitespace read.2) with
      | some after => rfl
      | none =>
          simp only [Option.map_none, take_map (show valueSeparator < 0xF0 by decide), ih,
            Option.map_bind, Option.bind_map, Function.comp_def, skipWhitespace_map]

theorem parseObject_map (text : ByteString) :
    parseObject (text.map unaliased) = Fixed (parseObject text) := by
  simp only [parseObject, skipWhitespace_map, take_map (show beginObject < 0xF0 by decide),
    take_map (show endObject < 0xF0 by decide), parseMembers_map, List.length_map,
    Option.bind_eq_bind, Fixed, Option.map_bind, Option.bind_map, Function.comp_def,
    Option.isSome_map, apply_ite (Option.map _), Option.map_none, Option.map_some, Prod.map_fst,
    Prod.map_snd, Prod.map_apply, id_eq]

theorem parse_map (text : ByteString) : parse (text.map unaliased) = parse text := by
  simp only [parse, List.length_map, parseObject_map, Fixed, Option.bind_eq_bind, Option.bind_map,
    Function.comp_def, Prod.map_fst, Prod.map_snd, List.isEmpty_map, id_eq]

theorem clean_map (text : ByteString) : Clean (text.map unaliased) := by
  intro c hc
  obtain ⟨source, -, rfl⟩ := List.mem_map.mp hc
  obtain ⟨-, -, -, -, -, -, -, -, -, -, halias⟩ := classes_unaliased source
  exact halias

theorem map_unaliased_of_clean (hclean : Clean text) : text.map unaliased = text := by
  calc text.map unaliased
      = text.map id := List.map_congr_left fun c hc => by
          rw [unaliased, hclean c hc, if_neg Bool.false_ne_true, id_eq]
    _ = text := List.map_id text

end Aliases

/-! ## What the parser accepts -/

theorem clean_of_narrow {text : ByteString} (hnarrow : Narrow text) : Clean text := by
  intro c hc
  rw [isAlias, decide_eq_false (UInt8.not_le.mpr (hnarrow c hc)), Bool.false_and]

theorem clean_of_isMetadata {text : ByteString} {generation : FenceUuid}
    (hmetadata : IsMetadata text generation) : Clean text := by
  obtain ⟨members, created, htext, -⟩ := hmetadata.document
  exact clean_of_narrow (narrow_of_objectText htext)

theorem parse_iff {text : ByteString} {generation : FenceUuid} :
    parse text = some generation ↔ IsMetadata (text.map unaliased) generation := by
  rw [← parse_map, parse_iff_of_clean (clean_map text)]

theorem parse_of_isMetadata {text : ByteString} {generation : FenceUuid}
    (hmetadata : IsMetadata text generation) : parse text = some generation :=
  (parse_iff_of_clean (clean_of_isMetadata hmetadata)).mpr hmetadata

/-- The parser stays inside its text and reads exactly the documents that name a generation, the
aliases in the text put right: one that names none is refused, and one that names one as it stands
is read. -/
theorem parseAt_exact (text : Span UInt8) (generation : FenceUuid) :
    (parseAt text = pure generation ↔ IsMetadata (text.data.map unaliased) generation) ∧
      ((∀ other, ¬IsMetadata (text.data.map unaliased) other) → parseAt text = reject) ∧
      (IsMetadata text.data generation → parseAt text = pure generation) := by
  have hpure : ∀ read : Option FenceUuid,
      read.elim reject pure = (pure generation : Checked FenceUuid) ↔ read = some generation := by
    intro read
    cases read with
    | none =>
        refine iff_of_false (fun heq => ?_) (by simp)
        have hok : (Except.ok none : Except Fault (Option FenceUuid)) = .ok (some generation) := heq
        cases hok
    | some other =>
        constructor
        · intro heq
          have hok : (Except.ok (some other) : Except Fault (Option FenceUuid)) =
            .ok (some generation) := heq
          exact Except.ok.inj hok
        · rintro heq
          rw [heq]
          rfl
  rw [parseAt_eq, hpure, parse_iff]
  refine ⟨Iff.rfl, fun hnone => ?_, fun hmetadata => parse_iff.mp (parse_of_isMetadata hmetadata)⟩
  cases hread : parse text.data with
  | none => rfl
  | some other => exact absurd (parse_iff.mp hread) (hnone other)

end Sitos.SessionMetadata
