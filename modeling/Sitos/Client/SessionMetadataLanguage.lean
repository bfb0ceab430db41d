import Sitos.Client.SessionMetadataTokens
import Sitos.Wire.FenceRoute

/-!
# The language of the metadata parser

The parser accepts the JSON objects in which each of the three members it knows stands once, as a
string, and in which the other values are nested no deeper than it skips.
-/

namespace Sitos.SessionMetadata

open Sitos.AckResult
open Sitos.Bytes
open Sitos.Cursor
open Sitos.FenceWire
open Sitos.FlatJson (take takeWord)
open Sitos.Json

/-! ## The language -/

/-- The values of a known member. -/
def valuesOf (name : ByteString) (members : List Member) : List ByteString :=
  members.filterMap fun member => if member.1 = name then member.2 else none

/-- A text that names a generation. -/
structure IsMetadata (text : ByteString) (generation : FenceUuid) : Prop where
  short : text.length ≤ kMetadataMax
  valid : isValidFenceUuid generation = true
  document : ∃ members created, ObjectText knownMembers kSkipDepthMax members text ∧
    valuesOf kState members = [ascii "active"] ∧ valuesOf kCreatedAt members = [created] ∧
    valuesOf kGenerationUuid members = [formatFenceUuid generation]

/-! ## Values -/

section Values

variable {text rest : ByteString}

theorem takeWord_append (word text : ByteString) : takeWord word (word ++ text) = some text := by
  rw [takeWord, if_pos (List.isPrefixOf_iff_prefix.mpr (List.prefix_append word text)),
    List.drop_left]

theorem takeWord_ne {c other : UInt8} (word text : ByteString) (hne : c ≠ other) :
    takeWord (c :: word) (other :: text) = none := by
  simp [takeWord, hne]

theorem skipLiteral_iff {words : List ByteString}
    (hwords : words.Pairwise fun a b => ∀ tail, takeWord a (b ++ tail) = none) :
    skipLiteral text words = some rest ↔ ∃ word ∈ words, text = word ++ rest := by
  induction words with
  | nil => simp [skipLiteral]
  | cons word words ih =>
      obtain ⟨hfirst, hothers⟩ := List.pairwise_cons.mp hwords
      rw [skipLiteral, Option.or_eq_some_iff, ih hothers]
      constructor
      · rintro (htake | ⟨-, other, hother, htext⟩)
        · exact ⟨word, List.mem_cons_self, FlatJson.eq_append_of_takeWord htake⟩
        · exact ⟨other, List.mem_cons_of_mem word hother, htext⟩
      · rintro ⟨other, hother, rfl⟩
        rcases List.mem_cons.mp hother with rfl | hother
        · exact .inl (takeWord_append other rest)
        · exact .inr ⟨hfirst other hother rest, other, hother, rfl⟩

theorem pairwise_literals :
    literals.Pairwise fun a b => ∀ tail, takeWord a (b ++ tail) = none := by
  simp only [literals, List.pairwise_cons, List.mem_cons, List.not_mem_nil, or_false]
  refine ⟨?_, ?_, fun _ hword => hword.elim, .nil⟩
  · rintro word (rfl | rfl) tail
    · exact takeWord_ne (ascii "rue") (ascii "alse" ++ tail) (by decide)
    · exact takeWord_ne (ascii "rue") (ascii "ull" ++ tail) (by decide)
  · rintro word rfl tail
    exact takeWord_ne (ascii "alse") (ascii "ull" ++ tail) (by decide)

/-- The bytes that a value can begin with. -/
def startsValue (c : UInt8) : Bool :=
  c == quotationMark || c == beginObject || c == beginArray || c == 0x74 || c == 0x66 ||
    c == 0x6E || c == minus || isDigit c

/-- What the first bytes of values are not. -/
theorem classes_of_values (c : UInt8) :
    (startsValue c = true → isSpace c = false ∧ c ≠ endObject ∧ c ≠ endArray) ∧
    (isSpace c = true ∨ c = valueSeparator ∨ c = endObject ∨ c = endArray →
      isDigit c = false ∧ c ≠ decimalPoint ∧ c ≠ 0x65 ∧ c ≠ 0x45) ∧
    (c = minus ∨ isDigit c = true ∨ c = 0x74 ∨ c = 0x66 ∨ c = 0x6E →
      c ≠ quotationMark ∧ c ≠ beginObject ∧ c ≠ beginArray) ∧
    (c = minus ∨ isDigit c = true → c ≠ 0x74 ∧ c ≠ 0x66 ∧ c ≠ 0x6E) := by
  have hcheck : ∀ c : UInt8,
      (startsValue c = true → isSpace c = false ∧ c ≠ endObject ∧ c ≠ endArray) ∧
      (isSpace c = true ∨ c = valueSeparator ∨ c = endObject ∨ c = endArray →
        isDigit c = false ∧ c ≠ decimalPoint ∧ c ≠ 0x65 ∧ c ≠ 0x45) ∧
      (c = minus ∨ isDigit c = true ∨ c = 0x74 ∨ c = 0x66 ∨ c = 0x6E →
        c ≠ quotationMark ∧ c ≠ beginObject ∧ c ≠ beginArray) ∧
      (c = minus ∨ isDigit c = true → c ≠ 0x74 ∧ c ≠ 0x66 ∧ c ≠ 0x6E) := by
    decide +kernel
  exact hcheck c

theorem of_startsValue (c : UInt8) (hstarts : startsValue c = true) :
    isSpace c = false ∧ c ≠ endObject ∧ c ≠ endArray :=
  (classes_of_values c).1 hstarts

theorem head_of_literal {word : ByteString} (hword : word ∈ literals) :
    ∃ first tail, word = first :: tail ∧ (first = 0x74 ∨ first = 0x66 ∨ first = 0x6E) := by
  simp only [literals, List.mem_cons, List.not_mem_nil, or_false] at hword
  rcases hword with rfl | rfl | rfl
  · exact ⟨0x74, ascii "rue", rfl, .inl rfl⟩
  · exact ⟨0x66, ascii "alse", rfl, .inr (.inl rfl)⟩
  · exact ⟨0x6E, ascii "ull", rfl, .inr (.inr rfl)⟩

theorem head_of_quoted {value : ByteString} (hstring : Quoted text value rest) :
    ∃ tail, text = quotationMark :: tail := by
  obtain ⟨inner, rfl, -⟩ := hstring
  exact ⟨inner, rfl⟩

theorem head_of_phrase {part : Part} {room : ℕ} (hphrase : Phrase part room text rest) :
    ∃ first tail, text = first :: tail ∧ startsValue first = true := by
  induction hphrase with
  | string hstring =>
      obtain ⟨tail, rfl⟩ := head_of_quoted hstring
      exact ⟨_, tail, rfl, rfl⟩
  | number hnumber =>
      obtain ⟨first, tail, rfl, hfirst⟩ := head_of_number hnumber
      refine ⟨first, tail, rfl, ?_⟩
      rcases hfirst with rfl | hdigit
      · rfl
      · simp [startsValue, hdigit]
  | literal hword =>
      obtain ⟨first, tail, rfl, hfirst⟩ := head_of_literal hword
      refine ⟨first, tail ++ _, rfl, ?_⟩
      rcases hfirst with rfl | rfl | rfl <;> rfl
  | emptyObject => exact ⟨_, _, rfl, rfl⟩
  | object => exact ⟨_, _, rfl, rfl⟩
  | emptyArray => exact ⟨_, _, rfl, rfl⟩
  | array => exact ⟨_, _, rfl, rfl⟩
  | lastMember hname =>
      obtain ⟨tail, rfl⟩ := head_of_quoted hname
      exact ⟨_, tail, rfl, rfl⟩
  | member hname =>
      obtain ⟨tail, rfl⟩ := head_of_quoted hname
      exact ⟨_, tail, rfl, rfl⟩
  | lastElement hvalue hspace ih => exact ih
  | element hvalue hspace hnext hothers ihvalue ihothers => exact ihvalue

theorem skipWhitespace_of_phrase {text' : ByteString} {part : Part} {room : ℕ}
    (hspaces : Spaces text' text) (hphrase : Phrase part room text rest) :
    skipWhitespace text' = text := by
  obtain ⟨first, tail, rfl, hstarts⟩ := head_of_phrase hphrase
  exact skipWhitespace_eq hspaces fun c hc => Option.some.inj hc ▸ (of_startsValue first hstarts).1

theorem endsNumber_of_spaces {c : UInt8} (hspaces : Spaces text (c :: rest))
    (hc : c = valueSeparator ∨ c = endObject ∨ c = endArray) : EndsNumber text := by
  obtain ⟨space, hspace, rfl⟩ := hspaces
  intro first hfirst
  apply (classes_of_values first).2.1
  cases space with
  | nil => exact .inr (Option.some.inj hfirst ▸ hc)
  | cons head space => exact .inl (hspace first (Option.some.inj hfirst ▸ List.mem_cons_self))

/-! ### What a phrase takes -/

theorem behind_of_digits (hdigits : Digits text rest) : Behind text rest := by
  obtain ⟨digits, hne, -, rfl⟩ := hdigits
  cases digits with
  | nil => exact absurd rfl hne
  | cons first digits => exact ⟨first, digits ++ rest, rfl, List.suffix_append digits rest⟩

theorem behind_of_number (hnumber : Number text rest) : Behind text rest := by
  obtain ⟨int, frac, exp, hminus, hint, hfrac, hexp⟩ := hnumber
  have hend : rest <:+ exp := by
    rcases hexp with rfl | ⟨e, sign, digits, -, rfl, hsign, hdigits⟩
    · exact List.suffix_rfl
    · have hdigits := (behind_of_digits hdigits).suffix
      rcases hsign with rfl | rfl | rfl
      · exact hdigits.trans (List.suffix_cons e _)
      · exact (hdigits.trans (List.suffix_cons plus _)).trans (List.suffix_cons e _)
      · exact (hdigits.trans (List.suffix_cons minus _)).trans (List.suffix_cons e _)
  have hmiddle : exp <:+ frac := by
    rcases hfrac with rfl | ⟨digits, rfl, hdigits⟩
    · exact List.suffix_rfl
    · exact (behind_of_digits hdigits).suffix.trans (List.suffix_cons decimalPoint _)
  have hbegin : Behind int frac := by
    rcases hint with rfl | ⟨-, hdigits⟩
    · exact ⟨zero, frac, rfl, List.suffix_rfl⟩
    · exact behind_of_digits hdigits
  have hunsigned : Behind int rest := hbegin.of_suffix (hend.trans hmiddle)
  rcases hminus with rfl | rfl
  · exact hunsigned
  · exact ⟨minus, int, rfl, hunsigned.suffix⟩

theorem behind_of_phrase {part : Part} {room : ℕ} (hphrase : Phrase part room text rest) :
    Behind text rest := by
  induction hphrase with
  | string hstring => exact behind_of_quoted hstring
  | number hnumber => exact behind_of_number hnumber
  | literal hword =>
      obtain ⟨first, tail, rfl, -⟩ := head_of_literal hword
      exact ⟨first, tail ++ _, rfl, List.suffix_append tail _⟩
  | emptyObject hspace =>
      exact ⟨_, _, rfl, (List.suffix_cons _ _).trans (suffix_of_spaces hspace)⟩
  | object hspace hmembers ih =>
      exact ⟨_, _, rfl, (List.suffix_cons _ _).trans (ih.suffix.trans (suffix_of_spaces hspace))⟩
  | emptyArray hspace =>
      exact ⟨_, _, rfl, (List.suffix_cons _ _).trans (suffix_of_spaces hspace)⟩
  | array hspace helements ih =>
      exact ⟨_, _, rfl, (List.suffix_cons _ _).trans (ih.suffix.trans (suffix_of_spaces hspace))⟩
  | lastMember hname hbefore hafter hvalue hspace ih =>
      have hcolon := (List.suffix_cons nameSeparator _).trans (suffix_of_spaces hbefore)
      exact (behind_of_quoted hname).of_suffix ((suffix_of_spaces hspace).trans
        (ih.suffix.trans ((suffix_of_spaces hafter).trans hcolon)))
  | member hname hbefore hafter hvalue hspace hnext hothers ihvalue ihothers =>
      have hcolon := (List.suffix_cons nameSeparator _).trans (suffix_of_spaces hbefore)
      have hcomma := (List.suffix_cons valueSeparator _).trans (suffix_of_spaces hspace)
      have hvalueEnd := ihvalue.suffix.trans ((suffix_of_spaces hafter).trans hcolon)
      exact (behind_of_quoted hname).of_suffix (ihothers.suffix.trans
        ((suffix_of_spaces hnext).trans (hcomma.trans hvalueEnd)))
  | lastElement hvalue hspace ih => exact ih.of_suffix (suffix_of_spaces hspace)
  | element hvalue hspace hnext hothers ihvalue ihothers =>
      have hcomma := (List.suffix_cons valueSeparator _).trans (suffix_of_spaces hspace)
      exact ihvalue.of_suffix (ihothers.suffix.trans ((suffix_of_spaces hnext).trans hcomma))

end Values

/-! ### What the parser skips is a value -/

section SkipSound

variable {rounds : ℕ}

def ReadsValues (rounds : ℕ) : Prop :=
  ∀ depth text rest, Clean text → skipValue rounds depth text = some rest →
    depth ≤ kSkipDepthMax ∧ Phrase .value (kSkipDepthMax - depth) text rest

/-- The members are one level deeper than their object. -/
def ReadsMembers (rounds : ℕ) : Prop :=
  ∀ depth text rest, Clean text → skipMembers rounds depth text = some rest →
    depth < kSkipDepthMax ∧
      Phrase .members (kSkipDepthMax - (depth + 1)) text (endObject :: rest)

def ReadsElements (rounds : ℕ) : Prop :=
  ∀ depth text rest, Clean text → skipElements rounds depth text = some rest →
    depth < kSkipDepthMax ∧
      Phrase .elements (kSkipDepthMax - (depth + 1)) text (endArray :: rest)

theorem readsMembers_succ (hvalues : ReadsValues rounds) (hmembers : ReadsMembers rounds) :
    ReadsMembers (rounds + 1) := by
  intro depth text rest hclean hread
  simp only [skipMembers, Option.bind_eq_bind, Option.bind_eq_some_iff, Prod.exists] at hread
  obtain ⟨name, a, hname, b, hbefore, d, hvalue, hread⟩ := hread
  rw [parseString_iff hclean] at hname
  rw [take_skipWhitespace_iff (by decide)] at hbefore
  have hb : Clean b := (hclean.suffix (behind_of_quoted hname).suffix).suffix
    ((List.suffix_cons _ _).trans (suffix_of_spaces hbefore))
  have hafter := spaces_skipWhitespace b
  have hc := hb.suffix (suffix_of_spaces hafter)
  obtain ⟨hdepth, hphrase⟩ := hvalues (depth + 1) _ d hc hvalue
  have hd := hc.suffix (behind_of_phrase hphrase).suffix
  refine ⟨hdepth, ?_⟩
  cases hend : take endObject (skipWhitespace d) with
  | some after =>
      rw [hend] at hread
      obtain rfl := Option.some.inj hread
      rw [take_skipWhitespace_iff (by decide)] at hend
      exact .lastMember hname hbefore hafter hphrase hend
  | none =>
      rw [hend] at hread
      obtain ⟨e, hcomma, hread⟩ := Option.bind_eq_some_iff.mp hread
      rw [take_skipWhitespace_iff (by decide)] at hcomma
      have hnext := spaces_skipWhitespace e
      have he := hd.suffix ((List.suffix_cons _ _).trans (suffix_of_spaces hcomma))
      have hothers := hmembers depth _ rest (he.suffix (suffix_of_spaces hnext)) hread
      exact .member hname hbefore hafter hphrase hcomma hnext hothers.2

theorem readsElements_succ (hvalues : ReadsValues rounds) (helements : ReadsElements rounds) :
    ReadsElements (rounds + 1) := by
  intro depth text rest hclean hread
  simp only [skipElements, Option.bind_eq_bind, Option.bind_eq_some_iff] at hread
  obtain ⟨d, hvalue, hread⟩ := hread
  obtain ⟨hdepth, hphrase⟩ := hvalues (depth + 1) _ d hclean hvalue
  have hd := hclean.suffix (behind_of_phrase hphrase).suffix
  refine ⟨hdepth, ?_⟩
  cases hend : take endArray (skipWhitespace d) with
  | some after =>
      rw [hend] at hread
      obtain rfl := Option.some.inj hread
      rw [take_skipWhitespace_iff (by decide)] at hend
      exact .lastElement hphrase hend
  | none =>
      rw [hend] at hread
      obtain ⟨e, hcomma, hread⟩ := Option.bind_eq_some_iff.mp hread
      rw [take_skipWhitespace_iff (by decide)] at hcomma
      have hnext := spaces_skipWhitespace e
      have he := hd.suffix ((List.suffix_cons _ _).trans (suffix_of_spaces hcomma))
      have hothers := helements depth _ rest (he.suffix (suffix_of_spaces hnext)) hread
      exact .element hphrase hcomma hnext hothers.2

theorem readsValues_succ (hmembers : ReadsMembers rounds) (helements : ReadsElements rounds) :
    ReadsValues (rounds + 1) := by
  intro depth text rest hclean hread
  cases text with
  | nil => cases hread
  | cons first text =>
      have htext := hclean.suffix (List.suffix_cons first text)
      have hspace := spaces_skipWhitespace text
      have hinner := htext.suffix (suffix_of_spaces hspace)
      rw [skipValue] at hread
      split_ifs at hread with hdeep hquotation hobject harray
      · obtain ⟨⟨value, after⟩, hstring, rfl⟩ := Option.map_eq_some_iff.mp hread
        exact ⟨Nat.not_lt.mp hdeep, .string ((parseString_iff hclean).mp hstring)⟩
      · rw [hobject]
        cases hend : take endObject (skipWhitespace text) with
        | some after =>
            rw [hend] at hread
            obtain rfl := Option.some.inj hread
            rw [take_skipWhitespace_iff (by decide)] at hend
            exact ⟨Nat.not_lt.mp hdeep, .emptyObject hend⟩
        | none =>
            rw [hend] at hread
            obtain ⟨hdepth, hphrase⟩ := hmembers depth _ rest hinner hread
            refine ⟨hdepth.le, ?_⟩
            rw [show kSkipDepthMax - depth = kSkipDepthMax - (depth + 1) + 1 by omega]
            exact .object hspace hphrase
      · rw [harray]
        cases hend : take endArray (skipWhitespace text) with
        | some after =>
            rw [hend] at hread
            obtain rfl := Option.some.inj hread
            rw [take_skipWhitespace_iff (by decide)] at hend
            exact ⟨Nat.not_lt.mp hdeep, .emptyArray hend⟩
        | none =>
            rw [hend] at hread
            obtain ⟨hdepth, hphrase⟩ := helements depth _ rest hinner hread
            refine ⟨hdepth.le, ?_⟩
            rw [show kSkipDepthMax - depth = kSkipDepthMax - (depth + 1) + 1 by omega]
            exact .array hspace hphrase
      · refine ⟨Nat.not_lt.mp hdeep, ?_⟩
        rcases Option.or_eq_some_iff.mp hread with hword | ⟨-, hnumber⟩
        · obtain ⟨word, hword, htext⟩ := (skipLiteral_iff pairwise_literals).mp hword
          rw [htext]
          exact .literal hword
        · exact .number (number_of_skipNumber hnumber)

/-- What `SkipValue` skips is a value that is nested no deeper than it may be. -/
theorem phrase_of_skip (rounds : ℕ) :
    ReadsValues rounds ∧ ReadsMembers rounds ∧ ReadsElements rounds := by
  induction rounds with
  | zero =>
      refine ⟨?_, ?_, ?_⟩ <;>
      · intro depth text rest hclean hread
        cases hread
  | succ rounds ih =>
      obtain ⟨hvalues, hmembers, helements⟩ := ih
      exact ⟨readsValues_succ hmembers helements, readsMembers_succ hvalues hmembers,
        readsElements_succ hvalues helements⟩

end SkipSound

/-! ### Every value is skipped -/

section SkipComplete

variable {text rest : ByteString}

/-- What the parser does with a phrase of the grammar, given rounds enough. -/
def Skips : Part → ℕ → ByteString → ByteString → Prop
  | .value, room, text, rest => ∀ rounds depth, Clean text → depth + room ≤ kSkipDepthMax →
      2 * text.length < rounds → EndsNumber rest → skipValue rounds depth text = some rest
  | .members, room, text, rest => ∀ rounds depth after, Clean text →
      depth + 1 + room ≤ kSkipDepthMax → 2 * text.length < rounds → rest = endObject :: after →
        skipMembers rounds depth text = some after
  | .elements, room, text, rest => ∀ rounds depth after, Clean text →
      depth + 1 + room ≤ kSkipDepthMax → 2 * text.length + 1 < rounds → rest = endArray :: after →
        skipElements rounds depth text = some after

theorem skips_of_string {room : ℕ} {value : ByteString} (hstring : Quoted text value rest) :
    Skips .value room text rest := by
  intro rounds depth hclean hdepth hrounds hends
  have hread := (parseString_iff hclean).mpr hstring
  obtain ⟨tail, rfl⟩ := head_of_quoted hstring
  obtain ⟨rounds, rfl⟩ := Nat.exists_eq_succ_of_ne_zero (Nat.ne_zero_of_lt hrounds)
  rw [skipValue, if_neg (by omega), if_pos rfl, hread]
  rfl

theorem skips_of_number {room : ℕ} (hnumber : Number text rest) : Skips .value room text rest := by
  intro rounds depth hclean hdepth hrounds hends
  have hread := skipNumber_of_number hnumber hends
  obtain ⟨first, tail, rfl, hfirst⟩ := head_of_number hnumber
  obtain ⟨-, -, hvalue, hword⟩ := classes_of_values first
  obtain ⟨hquotation, hobject, harray⟩ :=
    hvalue (hfirst.imp_right Or.inl)
  obtain ⟨ht, hf, hn⟩ := hword hfirst
  have hliteral : skipLiteral (first :: tail) literals = none := by
    rw [Option.eq_none_iff_forall_ne_some]
    intro after hafter
    obtain ⟨word, hword, htext⟩ := (skipLiteral_iff pairwise_literals).mp hafter
    obtain ⟨other, _, rfl, hother⟩ := head_of_literal hword
    obtain rfl := (List.cons.inj htext).1
    rcases hother with rfl | rfl | rfl
    · exact ht rfl
    · exact hf rfl
    · exact hn rfl
  obtain ⟨rounds, rfl⟩ := Nat.exists_eq_succ_of_ne_zero (Nat.ne_zero_of_lt hrounds)
  rw [skipValue, if_neg (by omega), if_neg hquotation, if_neg hobject, if_neg harray, hliteral,
    Option.none_or, hread]

theorem skips_of_literal {room : ℕ} {word : ByteString} (hword : word ∈ literals) :
    Skips .value room (word ++ rest) rest := by
  intro rounds depth hclean hdepth hrounds hends
  have hread : skipLiteral (word ++ rest) literals = some rest :=
    (skipLiteral_iff pairwise_literals).mpr ⟨word, hword, rfl⟩
  obtain ⟨first, tail, rfl, hfirst⟩ := head_of_literal hword
  obtain ⟨hquotation, hobject, harray⟩ :=
    (classes_of_values first).2.2.1 (.inr (.inr hfirst))
  obtain ⟨rounds, rfl⟩ := Nat.exists_eq_succ_of_ne_zero (Nat.ne_zero_of_lt hrounds)
  rw [List.cons_append] at hread
  rw [List.cons_append, skipValue, if_neg (by omega), if_neg hquotation, if_neg hobject,
    if_neg harray, hread, Option.some_or]

theorem skips_of_emptyObject {room : ℕ} (hspace : Spaces text (endObject :: rest)) :
    Skips .value room (beginObject :: text) rest := by
  intro rounds depth hclean hdepth hrounds hends
  obtain ⟨rounds, rfl⟩ := Nat.exists_eq_succ_of_ne_zero (Nat.ne_zero_of_lt hrounds)
  rw [skipValue, if_neg (by omega), if_neg (by decide), if_pos rfl,
    (take_skipWhitespace_iff (by decide)).mpr hspace]

theorem skips_of_emptyArray {room : ℕ} (hspace : Spaces text (endArray :: rest)) :
    Skips .value room (beginArray :: text) rest := by
  intro rounds depth hclean hdepth hrounds hends
  obtain ⟨rounds, rfl⟩ := Nat.exists_eq_succ_of_ne_zero (Nat.ne_zero_of_lt hrounds)
  rw [skipValue, if_neg (by omega), if_neg (by decide), if_neg (by decide), if_pos rfl,
    (take_skipWhitespace_iff (by decide)).mpr hspace]

theorem skips_of_object {room : ℕ} {inner : ByteString} (hspace : Spaces text inner)
    (hmembers : Phrase .members room inner (endObject :: rest))
    (ih : Skips .members room inner (endObject :: rest)) :
    Skips .value (room + 1) (beginObject :: text) rest := by
  intro rounds depth hclean hdepth hrounds hends
  obtain ⟨rounds, rfl⟩ := Nat.exists_eq_succ_of_ne_zero (Nat.ne_zero_of_lt hrounds)
  have hinner := skipWhitespace_of_phrase hspace hmembers
  have hlength := (suffix_of_spaces hspace).length_le
  rw [List.length_cons] at hrounds
  obtain ⟨first, tail, rfl, hstarts⟩ := head_of_phrase hmembers
  rw [skipValue, if_neg (by omega), if_neg (by decide), if_pos rfl, hinner,
    FlatJson.take_ne tail (of_startsValue first hstarts).2.1]
  exact ih rounds depth rest ((hclean.suffix (List.suffix_cons _ _)).suffix
    (suffix_of_spaces hspace)) (by omega) (by omega) rfl

theorem skips_of_array {room : ℕ} {inner : ByteString} (hspace : Spaces text inner)
    (helements : Phrase .elements room inner (endArray :: rest))
    (ih : Skips .elements room inner (endArray :: rest)) :
    Skips .value (room + 1) (beginArray :: text) rest := by
  intro rounds depth hclean hdepth hrounds hends
  obtain ⟨rounds, rfl⟩ := Nat.exists_eq_succ_of_ne_zero (Nat.ne_zero_of_lt hrounds)
  have hinner := skipWhitespace_of_phrase hspace helements
  have hlength := (suffix_of_spaces hspace).length_le
  rw [List.length_cons] at hrounds
  obtain ⟨first, tail, rfl, hstarts⟩ := head_of_phrase helements
  rw [skipValue, if_neg (by omega), if_neg (by decide), if_neg (by decide), if_pos rfl, hinner,
    FlatJson.take_ne tail (of_startsValue first hstarts).2.2]
  exact ih rounds depth rest ((hclean.suffix (List.suffix_cons _ _)).suffix
    (suffix_of_spaces hspace)) (by omega) (by omega) rfl

theorem skips_of_lastMember {room : ℕ} {name a b c d : ByteString} (hname : Quoted text name a)
    (hbefore : Spaces a (nameSeparator :: b)) (hafter : Spaces b c)
    (hvalue : Phrase .value room c d) (hspace : Spaces d rest) (ih : Skips .value room c d) :
    Skips .members room text rest := by
  rintro rounds depth after hclean hdepth hrounds rfl
  obtain ⟨rounds, rfl⟩ := Nat.exists_eq_succ_of_ne_zero (Nat.ne_zero_of_lt hrounds)
  have hc : c <:+ a :=
    (suffix_of_spaces hafter).trans ((List.suffix_cons _ _).trans (suffix_of_spaces hbefore))
  have hlength := hc.length_le
  have hlt := (behind_of_quoted hname).length_lt
  have hread := ih rounds (depth + 1)
    ((hclean.suffix (behind_of_quoted hname).suffix).suffix hc) (by omega) (by omega)
    (endsNumber_of_spaces hspace (.inr (.inl rfl)))
  simp only [skipMembers, (parseString_iff hclean).mpr hname,
    (take_skipWhitespace_iff (c := nameSeparator) (by decide)).mpr hbefore,
    skipWhitespace_of_phrase hafter hvalue, hread,
    (take_skipWhitespace_iff (c := endObject) (by decide)).mpr hspace, Option.bind_eq_bind,
    Option.bind_some]

theorem skips_of_member {room : ℕ} {name a b c d e f : ByteString} (hname : Quoted text name a)
    (hbefore : Spaces a (nameSeparator :: b)) (hafter : Spaces b c)
    (hvalue : Phrase .value room c d) (hspace : Spaces d (valueSeparator :: e))
    (hnext : Spaces e f) (hothers : Phrase .members room f rest) (ihvalue : Skips .value room c d)
    (ihothers : Skips .members room f rest) : Skips .members room text rest := by
  intro rounds depth after hclean hdepth hrounds hrest
  obtain ⟨rounds, rfl⟩ := Nat.exists_eq_succ_of_ne_zero (Nat.ne_zero_of_lt hrounds)
  have ha := hclean.suffix (behind_of_quoted hname).suffix
  have hc : c <:+ a :=
    (suffix_of_spaces hafter).trans ((List.suffix_cons _ _).trans (suffix_of_spaces hbefore))
  have hf : f <:+ c := (suffix_of_spaces hnext).trans ((List.suffix_cons _ _).trans
    ((suffix_of_spaces hspace).trans (behind_of_phrase hvalue).suffix))
  have hcLength := hc.length_le
  have hfLength := hf.length_le
  have hlt := (behind_of_quoted hname).length_lt
  have hread := ihvalue rounds (depth + 1) (ha.suffix hc) (by omega) (by omega)
    (endsNumber_of_spaces hspace (.inl rfl))
  have hreadOthers := ihothers rounds depth after ((ha.suffix hc).suffix hf) hdepth (by omega) hrest
  simp only [skipMembers, (parseString_iff hclean).mpr hname,
    (take_skipWhitespace_iff (c := nameSeparator) (by decide)).mpr hbefore,
    skipWhitespace_of_phrase hafter hvalue, hread,
    take_skipWhitespace_eq_none endObject (by decide) (by decide) hspace,
    (take_skipWhitespace_iff (c := valueSeparator) (by decide)).mpr hspace,
    skipWhitespace_of_phrase hnext hothers, hreadOthers, Option.bind_eq_bind, Option.bind_some]

theorem skips_of_lastElement {room : ℕ} {d : ByteString} (hspace : Spaces d rest)
    (ih : Skips .value room text d) : Skips .elements room text rest := by
  rintro rounds depth after hclean hdepth hrounds rfl
  obtain ⟨rounds, rfl⟩ := Nat.exists_eq_succ_of_ne_zero (Nat.ne_zero_of_lt hrounds)
  have hread := ih rounds (depth + 1) hclean (by omega) (by omega)
    (endsNumber_of_spaces hspace (.inr (.inr rfl)))
  simp only [skipElements, hread,
    (take_skipWhitespace_iff (c := endArray) (by decide)).mpr hspace, Option.bind_eq_bind,
    Option.bind_some]

theorem skips_of_element {room : ℕ} {d e f : ByteString} (hvalue : Phrase .value room text d)
    (hspace : Spaces d (valueSeparator :: e)) (hnext : Spaces e f)
    (hothers : Phrase .elements room f rest) (ihvalue : Skips .value room text d)
    (ihothers : Skips .elements room f rest) : Skips .elements room text rest := by
  intro rounds depth after hclean hdepth hrounds hrest
  obtain ⟨rounds, rfl⟩ := Nat.exists_eq_succ_of_ne_zero (Nat.ne_zero_of_lt hrounds)
  have hlt := (behind_of_phrase hvalue).length_lt
  have hf : f <:+ d := (suffix_of_spaces hnext).trans ((List.suffix_cons _ _).trans
    (suffix_of_spaces hspace))
  have hlength := hf.length_le
  have hread := ihvalue rounds (depth + 1) hclean (by omega) (by omega)
    (endsNumber_of_spaces hspace (.inl rfl))
  have hreadOthers := ihothers rounds depth after
    ((hclean.suffix (behind_of_phrase hvalue).suffix).suffix hf) hdepth (by omega) hrest
  simp only [skipElements, hread,
    take_skipWhitespace_eq_none endArray (by decide) (by decide) hspace,
    (take_skipWhitespace_iff (c := valueSeparator) (by decide)).mpr hspace,
    skipWhitespace_of_phrase hnext hothers, hreadOthers, Option.bind_eq_bind, Option.bind_some]

theorem skips_of_phrase {part : Part} {room : ℕ} (hphrase : Phrase part room text rest) :
    Skips part room text rest := by
  induction hphrase with
  | string hstring => exact skips_of_string hstring
  | number hnumber => exact skips_of_number hnumber
  | literal hword => exact skips_of_literal hword
  | emptyObject hspace => exact skips_of_emptyObject hspace
  | object hspace hmembers ih => exact skips_of_object hspace hmembers ih
  | emptyArray hspace => exact skips_of_emptyArray hspace
  | array hspace helements ih => exact skips_of_array hspace helements ih
  | lastMember hname hbefore hafter hvalue hspace ih =>
      exact skips_of_lastMember hname hbefore hafter hvalue hspace ih
  | member hname hbefore hafter hvalue hspace hnext hothers ihvalue ihothers =>
      exact skips_of_member hname hbefore hafter hvalue hspace hnext hothers ihvalue ihothers
  | lastElement hvalue hspace ih => exact skips_of_lastElement hspace ih
  | element hvalue hspace hnext hothers ihvalue ihothers =>
      exact skips_of_element hvalue hspace hnext hothers ihvalue ihothers

end SkipComplete

/-! ## Members -/

/-- What is known of the members once one more was read; no known member comes twice. -/
def record (fields : Fields) (member : Member) : Option Fields :=
  match member.2 with
  | none => some fields
  | some value =>
      if fields.seen member.1 then none else some (fields.set member.1 value)

section Members

variable {text rest : ByteString} {bound : ℕ} {fields fields' : Fields}

theorem behind_of_content {key : ByteString} {content : Option ByteString}
    (hcontent : Content knownMembers kSkipDepthMax key content text rest) : Behind text rest := by
  cases hcontent with
  | known hknown hstring => exact behind_of_quoted hstring
  | other hother hvalue => exact behind_of_phrase hvalue

theorem skipWhitespace_of_content {text' key : ByteString} {content : Option ByteString}
    (hspaces : Spaces text' text)
    (hcontent : Content knownMembers kSkipDepthMax key content text rest) :
    skipWhitespace text' = text := by
  cases hcontent with
  | known hknown hstring =>
      exact skipWhitespace_of_phrase hspaces (Phrase.string hstring : Phrase .value 0 text rest)
  | other hother hvalue => exact skipWhitespace_of_phrase hspaces hvalue

theorem head_of_members {members : List Member}
    (hmembers : Members knownMembers kSkipDepthMax members text rest) :
    ∃ tail, text = quotationMark :: tail := by
  cases hmembers with
  | last hname => exact head_of_quoted hname
  | next hname => exact head_of_quoted hname

theorem skipWhitespace_of_members {text' : ByteString} {members : List Member}
    (hspaces : Spaces text' text)
    (hmembers : Members knownMembers kSkipDepthMax members text rest) :
    skipWhitespace text' = text := by
  obtain ⟨tail, rfl⟩ := head_of_members hmembers
  exact skipWhitespace_eq hspaces fun c hc => Option.some.inj hc ▸ rfl

theorem content_of_parseContent {key : ByteString} (hclean : Clean text)
    (hread : parseContent bound fields key text = some (fields', rest)) :
    ∃ content, Content knownMembers kSkipDepthMax key content text rest ∧
      record fields (key, content) = some fields' := by
  rw [parseContent] at hread
  split_ifs at hread with hknown hseen
  · obtain ⟨⟨value, after⟩, hstring, hpair⟩ := Option.map_eq_some_iff.mp hread
    obtain ⟨rfl, rfl⟩ := Prod.mk.inj hpair
    exact ⟨some value, .known hknown ((parseString_iff hclean).mp hstring), if_neg hseen⟩
  · obtain ⟨after, hvalue, hpair⟩ := Option.map_eq_some_iff.mp hread
    obtain ⟨rfl, rfl⟩ := Prod.mk.inj hpair
    exact ⟨none, .other hknown ((phrase_of_skip bound).1 0 text after hclean hvalue).2, rfl⟩

theorem parseContent_of_content {key : ByteString} {content : Option ByteString}
    (hclean : Clean text) (hbound : skipRounds text.length ≤ bound) (hends : EndsNumber rest)
    (hcontent : Content knownMembers kSkipDepthMax key content text rest)
    (hrecord : record fields (key, content) = some fields') :
    parseContent bound fields key text = some (fields', rest) := by
  cases hcontent with
  | known hknown hstring =>
      rw [record] at hrecord
      split_ifs at hrecord with hseen
      obtain rfl := Option.some.inj hrecord
      rw [parseContent, if_pos hknown, if_neg hseen, (parseString_iff hclean).mpr hstring]
      rfl
  | other hother hvalue =>
      obtain rfl := Option.some.inj hrecord
      have hskip := skips_of_phrase hvalue bound 0 hclean (Nat.zero_add _).le hbound hends
      rw [parseContent, if_neg hother, hskip]
      rfl

theorem members_of_parseMembers {rounds : ℕ} (hclean : Clean text)
    (hread : parseMembers bound rounds fields text = some (fields', rest)) :
    ∃ members, Members knownMembers kSkipDepthMax members text (endObject :: rest) ∧
      members.foldlM record fields = some fields' := by
  induction rounds generalizing text fields with
  | zero => cases hread
  | succ rounds ih =>
      simp only [parseMembers, Option.bind_eq_bind, Option.bind_eq_some_iff, Prod.exists] at hread
      obtain ⟨name, a, hname, b, hbefore, middle, d, hcontent, hread⟩ := hread
      rw [parseString_iff hclean] at hname
      rw [take_skipWhitespace_iff (by decide)] at hbefore
      have hb : Clean b := (hclean.suffix (behind_of_quoted hname).suffix).suffix
        ((List.suffix_cons _ _).trans (suffix_of_spaces hbefore))
      have hafter := spaces_skipWhitespace b
      have hc := hb.suffix (suffix_of_spaces hafter)
      obtain ⟨content, hcontent, hrecord⟩ := content_of_parseContent hc hcontent
      have hd := hc.suffix (behind_of_content hcontent).suffix
      cases hend : take endObject (skipWhitespace d) with
      | some after =>
          rw [hend] at hread
          obtain ⟨rfl, rfl⟩ := Prod.mk.inj (Option.some.inj hread)
          rw [take_skipWhitespace_iff (by decide)] at hend
          exact ⟨[(name, content)], .last hname hbefore hafter hcontent hend, by simp [hrecord]⟩
      | none =>
          rw [hend] at hread
          obtain ⟨e, hcomma, hread⟩ := Option.bind_eq_some_iff.mp hread
          rw [take_skipWhitespace_iff (by decide)] at hcomma
          have hnext := spaces_skipWhitespace e
          have he := hd.suffix ((List.suffix_cons _ _).trans (suffix_of_spaces hcomma))
          obtain ⟨others, hothers, hfold⟩ := ih (he.suffix (suffix_of_spaces hnext)) hread
          exact ⟨(name, content) :: others,
            .next hname hbefore hafter hcontent hcomma hnext hothers, by simp [hrecord, hfold]⟩

theorem parseMembers_of_members {rounds : ℕ} {members : List Member} {close : ByteString}
    (hmembers : Members knownMembers kSkipDepthMax members text close) (hclean : Clean text)
    (hrounds : text.length < rounds) (hbound : skipRounds text.length ≤ bound)
    (hclose : close = endObject :: rest) (hfold : members.foldlM record fields = some fields') :
    parseMembers bound rounds fields text = some (fields', rest) := by
  induction hmembers generalizing rounds fields with
  | last hname hbefore hafter hcontent hspace =>
      obtain ⟨rounds, rfl⟩ := Nat.exists_eq_succ_of_ne_zero (Nat.ne_zero_of_lt hrounds)
      subst hclose
      have ha := hclean.suffix (behind_of_quoted hname).suffix
      have hc := (suffix_of_spaces hafter).trans
        ((List.suffix_cons _ _).trans (suffix_of_spaces hbefore))
      have hlength := hc.length_le
      have hlt := (behind_of_quoted hname).length_lt
      rw [skipRounds] at hbound
      have hread : parseContent bound fields _ _ = some (fields', _) :=
        parseContent_of_content (ha.suffix hc) (by rw [skipRounds]; omega)
          (endsNumber_of_spaces hspace (.inr (.inl rfl))) hcontent (by simpa using hfold)
      simp only [parseMembers, (parseString_iff hclean).mpr hname,
        (take_skipWhitespace_iff (c := nameSeparator) (by decide)).mpr hbefore,
        skipWhitespace_of_content hafter hcontent, hread,
        (take_skipWhitespace_iff (c := endObject) (by decide)).mpr hspace, Option.bind_eq_bind,
        Option.bind_some]
  | next hname hbefore hafter hcontent hspace hnext hothers ih =>
      obtain ⟨rounds, rfl⟩ := Nat.exists_eq_succ_of_ne_zero (Nat.ne_zero_of_lt hrounds)
      rw [List.foldlM_cons, Option.bind_eq_bind] at hfold
      obtain ⟨middle, hrecord, hfold⟩ := Option.bind_eq_some_iff.mp hfold
      have ha := hclean.suffix (behind_of_quoted hname).suffix
      have hc := (suffix_of_spaces hafter).trans
        ((List.suffix_cons _ _).trans (suffix_of_spaces hbefore))
      have hf := (suffix_of_spaces hnext).trans ((List.suffix_cons _ _).trans
        ((suffix_of_spaces hspace).trans (behind_of_content hcontent).suffix))
      have hcLength := hc.length_le
      have hfLength := hf.length_le
      have hlt := (behind_of_quoted hname).length_lt
      rw [skipRounds] at hbound
      have hread : parseContent bound fields _ _ = some (middle, _) :=
        parseContent_of_content (ha.suffix hc) (by rw [skipRounds]; omega)
          (endsNumber_of_spaces hspace (.inl rfl)) hcontent hrecord
      have hothersRead : parseMembers bound rounds middle _ = some (fields', rest) :=
        ih ((ha.suffix hc).suffix hf) (by omega) (by rw [skipRounds]; omega) hclose hfold
      simp only [parseMembers, (parseString_iff hclean).mpr hname,
        (take_skipWhitespace_iff (c := nameSeparator) (by decide)).mpr hbefore,
        skipWhitespace_of_content hafter hcontent, hread,
        take_skipWhitespace_eq_none endObject (by decide) (by decide) hspace,
        (take_skipWhitespace_iff (c := valueSeparator) (by decide)).mpr hspace,
        skipWhitespace_of_members hnext hothers, hothersRead, Option.bind_eq_bind,
        Option.bind_some]

end Members

/-! ## The object -/

section Object

variable {text : ByteString} {fields : Fields}

theorem skipWhitespace_eq_nil_iff : skipWhitespace text = [] ↔ Spaces text [] :=
  ⟨fun hnil => hnil ▸ spaces_skipWhitespace text,
    fun hspaces => skipWhitespace_eq hspaces (by simp)⟩

theorem parseObject_iff (hclean : Clean text) :
    parseObject text = some (fields, []) ↔
      ∃ members, ObjectText knownMembers kSkipDepthMax members text ∧
        members.foldlM record Fields.unseen = some fields := by
  rw [parseObject]
  constructor
  · intro hread
    simp only [Option.bind_eq_bind, Option.bind_eq_some_iff] at hread
    obtain ⟨a, hopen, hread⟩ := hread
    rw [take_skipWhitespace_iff (by decide)] at hopen
    split_ifs at hread with hempty
    simp only [Option.bind_eq_some_iff, Prod.exists] at hread
    obtain ⟨fields', c, hread, hpair⟩ := hread
    obtain ⟨rfl, hrest⟩ := Prod.mk.inj (Option.some.inj hpair)
    have hnext := spaces_skipWhitespace a
    have ha := hclean.suffix ((List.suffix_cons _ _).trans (suffix_of_spaces hopen))
    obtain ⟨members, hmembers, hfold⟩ :=
      members_of_parseMembers (ha.suffix (suffix_of_spaces hnext)) hread
    exact ⟨members, ⟨a, _, c, [], hopen, hnext, hmembers, skipWhitespace_eq_nil_iff.mp hrest, rfl⟩,
      hfold⟩
  · rintro ⟨members, ⟨a, b, c, d, hopen, hnext, hmembers, hclose, rfl⟩, hfold⟩
    have hb : b <:+ text := (suffix_of_spaces hnext).trans
      ((List.suffix_cons _ _).trans (suffix_of_spaces hopen))
    have hlength := hb.length_le
    have hread : parseMembers (skipRounds text.length) (text.length + 1) Fields.unseen b =
        some (fields, c) :=
      parseMembers_of_members hmembers (hclean.suffix hb) (by omega)
        (by rw [skipRounds, skipRounds]; omega) rfl hfold
    rw [(take_skipWhitespace_iff (by decide)).mpr hopen, Option.bind_eq_bind, Option.bind_some,
      skipWhitespace_of_members hnext hmembers, if_neg, Option.bind_eq_bind, hread,
      Option.bind_some]
    · dsimp only
      rw [skipWhitespace_eq_nil_iff.mpr hclose]
    · obtain ⟨tail, rfl⟩ := head_of_members hmembers
      rw [FlatJson.take_ne tail (by decide)]
      simp

/-- The value of a known member. -/
def Fields.get (fields : Fields) (key : ByteString) : Option ByteString :=
  if key = kState then fields.state
  else if key = kCreatedAt then fields.createdAt
  else fields.generation

theorem Fields.seen_eq (fields : Fields) (key : ByteString) :
    fields.seen key = (fields.get key).isSome := by
  rw [Fields.seen, Fields.get]
  split_ifs <;> rfl

theorem Fields.get_set (fields : Fields) {key other : ByteString} (value : ByteString)
    (hkey : key ∈ knownMembers) (hother : other ∈ knownMembers) :
    (fields.set key value).get other = if other = key then some value else fields.get other := by
  simp only [knownMembers, List.mem_cons, List.not_mem_nil, or_false] at hkey hother
  rcases hkey with rfl | rfl | rfl <;> rcases hother with rfl | rfl | rfl <;> rfl

theorem Fields.ext_get {fields fields' : Fields}
    (hget : ∀ key ∈ knownMembers, fields.get key = fields'.get key) : fields = fields' := by
  have hstate : fields.state = fields'.state := hget kState (by simp [knownMembers])
  have hcreated : fields.createdAt = fields'.createdAt := hget kCreatedAt (by simp [knownMembers])
  have hgeneration : fields.generation = fields'.generation :=
    hget kGenerationUuid (by simp [knownMembers])
  cases fields
  cases fields'
  simp_all

theorem valuesOf_cons (name : ByteString) (member : Member) (members : List Member) :
    valuesOf name (member :: members) =
      (if member.1 = name then member.2 else none).toList ++ valuesOf name members := by
  rw [valuesOf, valuesOf, List.filterMap_cons]
  cases (if member.1 = name then member.2 else none) <;> rfl

/-- The members are kept when none of the known ones comes twice. -/
theorem foldlM_record_iff {fields' : Fields} {members : List Member}
    (hknown : ∀ member ∈ members, member.2.isSome = true → member.1 ∈ knownMembers) :
    members.foldlM record fields = some fields' ↔
      ∀ key ∈ knownMembers,
        (fields.get key).toList ++ valuesOf key members = (fields'.get key).toList := by
  induction members generalizing fields with
  | nil =>
      constructor
      · intro hfold key _
        rw [Option.some.inj hfold]
        exact List.append_nil _
      · intro hvalues
        refine congrArg some (Fields.ext_get fun key hkey => ?_)
        have hlist := hvalues key hkey
        rw [show valuesOf key [] = [] from rfl, List.append_nil] at hlist
        simpa using congrArg List.head? hlist
  | cons member members ih =>
      have hothers := fun other hother => hknown other (List.mem_cons_of_mem member hother)
      obtain ⟨name, content⟩ := member
      rw [List.foldlM_cons, Option.bind_eq_bind]
      cases content with
      | none =>
          rw [show record fields (name, none) = some fields from rfl, Option.bind_some, ih hothers]
          refine forall₂_congr fun key _ => ?_
          rw [valuesOf_cons]
          simp
      | some value =>
          have hname : name ∈ knownMembers := hknown (name, some value) List.mem_cons_self rfl
          have hrecord : record fields (name, some value) =
              if fields.seen name then none else some (fields.set name value) := rfl
          rw [hrecord, Fields.seen_eq]
          cases hseen : fields.get name with
          | some earlier =>
              -- a second value would stand behind the first one
              refine iff_of_false (by simp) fun hvalues => ?_
              have hlist := congrArg List.length (hvalues name hname)
              rw [valuesOf_cons, hseen, if_pos rfl] at hlist
              have hle : (fields'.get name).toList.length ≤ 1 := Option.length_toList_le
              simp only [Option.toList_some, List.length_append, List.length_singleton] at hlist
              omega
          | none =>
              rw [Option.isSome_none, if_neg (by decide), Option.bind_some, ih hothers]
              refine forall₂_congr fun key hkey => ?_
              rw [Fields.get_set fields value hname hkey, valuesOf_cons]
              by_cases heq : key = name
              · subst heq
                rw [if_pos rfl, if_pos rfl, hseen]
                rfl
              · rw [if_neg heq, if_neg (Ne.symm heq)]
                rfl

theorem known_of_content {key rest : ByteString} {content : Option ByteString}
    (hcontent : Content knownMembers kSkipDepthMax key content text rest)
    (hsome : content.isSome = true) : key ∈ knownMembers := by
  cases hcontent with
  | known hknown hstring => exact hknown
  | other hother hvalue => cases hsome

theorem known_of_members {members : List Member} {rest : ByteString}
    (hmembers : Members knownMembers kSkipDepthMax members text rest) :
    ∀ member ∈ members, member.2.isSome = true → member.1 ∈ knownMembers := by
  induction hmembers with
  | last hname hbefore hafter hcontent hspace =>
      intro member hmember
      rw [List.mem_singleton] at hmember
      subst hmember
      exact known_of_content hcontent
  | next hname hbefore hafter hcontent hspace hnext hothers ih =>
      intro member hmember
      rcases List.mem_cons.mp hmember with rfl | hmember
      · exact known_of_content hcontent
      · exact ih member hmember

theorem Fields.result_eq_some_iff {generation : FenceUuid} :
    fields.result = some generation ↔
      isValidFenceUuid generation = true ∧ fields.state = some (ascii "active") ∧
        (∃ created, fields.createdAt = some created) ∧
        fields.generation = some (formatFenceUuid generation) := by
  obtain ⟨state, createdAt, text⟩ := fields
  cases state with
  | none => simp [Fields.result]
  | some state =>
      cases createdAt with
      | none => simp [Fields.result]
      | some created =>
          cases text with
          | none => simp [Fields.result]
          | some text =>
              simp only [Fields.result, Option.some.injEq, exists_eq', true_and]
              by_cases hstate : state = ascii "active"
              · rw [if_neg (not_not.mpr hstate)]
                cases hparse : parseFenceUuid text with
                | none =>
                    refine iff_of_false (by simp) ?_
                    rintro ⟨hvalid, -, htext⟩
                    rw [parseFenceUuid_eq_some_iff.mpr ⟨hvalid, htext⟩] at hparse
                    cases hparse
                | some parsed =>
                    obtain ⟨hvalid, htext⟩ := parseFenceUuid_eq_some_iff.mp hparse
                    dsimp only
                    rw [if_neg (not_not.mpr htext.symm), Option.some.injEq]
                    constructor
                    · rintro rfl
                      exact ⟨hvalid, hstate, htext⟩
                    · rintro ⟨hvalid', -, htext'⟩
                      have hsome := parseFenceUuid_eq_some_iff.mpr ⟨hvalid', htext'⟩
                      exact Option.some.inj (hparse.symm.trans hsome)
              · rw [if_pos hstate]
                exact iff_of_false (by simp) fun hall => hstate hall.2.1

/-- A text of bytes that lead what they may lead is read as the grammar reads it. -/
theorem parse_iff_of_clean {generation : FenceUuid} (hclean : Clean text) :
    parse text = some generation ↔ IsMetadata text generation := by
  have hfields : ∀ members : List Member, ∀ fields : Fields,
      ObjectText knownMembers kSkipDepthMax members text →
      members.foldlM record Fields.unseen = some fields →
        (∀ key ∈ knownMembers, valuesOf key members = (fields.get key).toList) := by
    rintro members fields ⟨_, _, _, _, -, -, hmembers, -⟩ hfold key hkey
    have hvalues := (foldlM_record_iff (known_of_members hmembers)).mp hfold key hkey
    rwa [show (Fields.unseen.get key).toList = [] by rw [Fields.get]; split_ifs <;> rfl,
      List.nil_append] at hvalues
  rw [parse]
  constructor
  · intro hread
    split_ifs at hread with hlength
    obtain ⟨⟨fields, rest⟩, hobject, hread⟩ := Option.bind_eq_some_iff.mp hread
    dsimp only at hread
    split_ifs at hread with hrest
    obtain rfl : rest = [] := by simpa using hrest
    obtain ⟨members, htext, hfold⟩ := (parseObject_iff hclean).mp hobject
    obtain ⟨hvalid, hstate, ⟨created, hcreated⟩, hgeneration⟩ :=
      Fields.result_eq_some_iff.mp hread
    have hvalues := hfields members fields htext hfold
    refine ⟨Nat.not_lt.mp hlength, hvalid, members, created, htext, ?_, ?_, ?_⟩
    · rw [hvalues kState (by simp [knownMembers])]
      exact congrArg Option.toList hstate
    · rw [hvalues kCreatedAt (by simp [knownMembers])]
      exact congrArg Option.toList hcreated
    · rw [hvalues kGenerationUuid (by simp [knownMembers])]
      exact congrArg Option.toList hgeneration
  · rintro ⟨hlength, hvalid, members, created, htext, hstate, hcreated, hgeneration⟩
    have hfold : members.foldlM record Fields.unseen =
        some ⟨some (ascii "active"), some created, some (formatFenceUuid generation)⟩ := by
      obtain ⟨_, _, _, _, -, -, hmembers, -⟩ := htext
      rw [foldlM_record_iff (known_of_members hmembers)]
      intro key hkey
      simp only [knownMembers, List.mem_cons, List.not_mem_nil, or_false] at hkey
      rcases hkey with rfl | rfl | rfl
      · rw [hstate]
        rfl
      · rw [hcreated]
        rfl
      · rw [hgeneration]
        rfl
    rw [if_neg (Nat.not_lt.mpr hlength), (parseObject_iff hclean).mpr ⟨members, htext, hfold⟩,
      Option.bind_eq_bind, Option.bind_some]
    dsimp only
    rw [if_neg (by simp)]
    exact Fields.result_eq_some_iff.mpr ⟨hvalid, rfl, ⟨created, rfl⟩, rfl⟩

end Object

end Sitos.SessionMetadata
