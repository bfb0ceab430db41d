import Sitos.Catalog.FlatJson
import Sitos.Wire.AckToken
import Sitos.Wire.Key

/-!
# Session catalog records

One catalog record per session id: its generation, its lifecycle state and the
times of the transitions that led there.  The text of a record is one flat JSON
object with fifteen members in fixed order, and the decoder accepts no other
spelling.  Everything a start of the node knows about earlier sessions has gone
through this codec.
-/

namespace Sitos.Catalog

open Sitos.Bytes Sitos.FlatJson Sitos.Token

inductive SessionLifecycleState where
  | active
  | retained
  | orphaned
  | deleting
  | deleteFailed
  | deleted
  deriving DecidableEq, Repr

/-- Diagnostics of an incomplete deletion. -/
structure SessionCatalogFailure where
  operation : ByteString
  category : ByteString
  code : Int32
  deriving DecidableEq, Repr

/-- An empty time is an absent one. -/
structure SessionCatalogRecord where
  sid : ByteString
  generationUuid : ByteString
  state : SessionLifecycleState := .active
  ownerInstanceId : ByteString
  durable : Bool := true
  ephemeral : Bool := false
  createdAt : ByteString
  retainedAt : ByteString := []
  orphanedAt : ByteString := []
  deletingAt : ByteString := []
  deletedAt : ByteString := []
  failure : Option SessionCatalogFailure := none
  deriving DecidableEq, Repr

def lifecycleName : SessionLifecycleState → ByteString
  | .active => ascii "active"
  | .retained => ascii "retained"
  | .orphaned => ascii "orphaned"
  | .deleting => ascii "deleting"
  | .deleteFailed => ascii "delete_failed"
  | .deleted => ascii "deleted"

def parseLifecycle (text : ByteString) : Option SessionLifecycleState :=
  [.active, .retained, .orphaned, .deleting, .deleteFailed, .deleted].find?
    fun state => lifecycleName state == text

/-! ## Field rules -/

def isCanonicalUuid (text : ByteString) : Bool :=
  match parseAckToken text with
  | some token => formatAckToken token == text
  | none => false

/-- The number spelled by the `width` digits at `position`. -/
def numberAt (text : ByteString) (position width : ℕ) : ℕ :=
  digitsValue ((text.drop position).take width)

/-- `width` digits at `position` with a value between `low` and `high`. -/
def digitsInRange (text : ByteString) (position width low high : ℕ) : Bool :=
  position + width ≤ text.length && ((text.drop position).take width).all isDigit &&
    low ≤ numberAt text position width && numberAt text position width ≤ high

def isLeapYear (year : ℕ) : Bool :=
  year % 4 == 0 && (year % 100 != 0 || year % 400 == 0)

def daysInMonth (year month : ℕ) : ℕ :=
  if month = 2 then if isLeapYear year then 29 else 28
  else if month = 4 ∨ month = 6 ∨ month = 9 ∨ month = 11 then 30
  else 31

/-- `year_month_day::ok`. -/
def isDate (year month day : ℕ) : Bool :=
  1 ≤ month && month ≤ 12 && 1 ≤ day && day ≤ daysInMonth year month

/-- The length of `YYYY-MM-DDTHH:MM:SS`. -/
def kSeconds : ℕ := 19

/-- ISO-8601 in UTC: `YYYY-MM-DDTHH:MM:SS`, perhaps a point and one to nine
digits, and `Z`. -/
def isTimestamp (text : ByteString) : Bool :=
  let fraction := (text.drop kSeconds).take (text.length - kSeconds - 1)
  kSeconds + 1 ≤ text.length && text.getLast? == some 0x5A &&
    (digitsInRange text 0 4 0 9999 && text[4]? == some 0x2D &&
      digitsInRange text 5 2 1 12 && text[7]? == some 0x2D &&
      digitsInRange text 8 2 1 31 && text[10]? == some 0x54 &&
      digitsInRange text 11 2 0 23 && text[13]? == some 0x3A &&
      digitsInRange text 14 2 0 59 && text[16]? == some 0x3A &&
      digitsInRange text 17 2 0 60) &&
    isDate (numberAt text 0 4) (numberAt text 5 2) (numberAt text 8 2) &&
    (fraction.isEmpty ||
      (2 ≤ fraction.length && fraction.length ≤ 10 && fraction.head? == some 0x2E &&
        (fraction.drop 1).all isDigit))

/-- One to 32 lower-case letters and underscores. -/
def isDiagnosticWord (text : ByteString) : Bool :=
  !text.isEmpty && text.length ≤ 32 &&
    text.all fun c => (0x61 ≤ c && c ≤ 0x7A) || c == 0x5F

/-- Each state carries the times of the transitions that reached it, and only a
pending or failed deletion carries diagnostics. -/
def hasLifecycleMetadata (record : SessionCatalogRecord) : Bool :=
  let retained := !record.retainedAt.isEmpty
  let orphaned := !record.orphanedAt.isEmpty
  let deleting := !record.deletingAt.isEmpty
  let deleted := !record.deletedAt.isEmpty
  let failure := record.failure.isSome
  match record.state with
  | .active => !retained && !orphaned && !deleting && !deleted && !failure
  | .retained => retained && !deleting && !deleted && !failure
  | .orphaned => orphaned && !deleting && !deleted && !failure
  | .deleting => deleting && !deleted
  | .deleteFailed => deleting && !deleted && failure
  | .deleted => deleting && deleted && !failure

/-! ## Codec -/

def nullableText (text : ByteString) : ByteString :=
  if text.isEmpty then ascii "null" else quote text

def boolText (value : Bool) : ByteString := if value then ascii "true" else ascii "false"

def encodeSessionRecord (record : SessionCatalogRecord) : ByteString :=
  List.flatten
    [ascii "\x7b\"schema_version\":1,\"sid\":", quote record.sid,
      ascii ",\"generation_uuid\":", quote record.generationUuid,
      ascii ",\"state\":", quote (lifecycleName record.state),
      ascii ",\"owner_instance_id\":", quote record.ownerInstanceId,
      ascii ",\"durable\":", boolText record.durable,
      ascii ",\"ephemeral\":", boolText record.ephemeral,
      ascii ",\"created_at\":", quote record.createdAt,
      ascii ",\"retained_at\":", nullableText record.retainedAt,
      ascii ",\"orphaned_at\":", nullableText record.orphanedAt,
      ascii ",\"deleting_at\":", nullableText record.deletingAt,
      ascii ",\"deleted_at\":", nullableText record.deletedAt,
      ascii ",\"failure_operation\":",
      (record.failure.elim (ascii "null") fun failure => quote failure.operation),
      ascii ",\"failure_category\":",
      (record.failure.elim (ascii "null") fun failure => quote failure.category),
      ascii ",\"failure_code\":",
      (record.failure.elim (ascii "null") fun failure => toDecimal failure.code.toInt),
      ascii "\x7d"]

def kRecordMembers : List ByteString :=
  [ascii "schema_version", ascii "sid", ascii "generation_uuid", ascii "state",
    ascii "owner_instance_id", ascii "durable", ascii "ephemeral", ascii "created_at",
    ascii "retained_at", ascii "orphaned_at", ascii "deleting_at", ascii "deleted_at",
    ascii "failure_operation", ascii "failure_category", ascii "failure_code"]

def asText : JsonValue → Option ByteString
  | .text value => some value
  | _ => none

def asInteger : JsonValue → Option ℤ
  | .integer value => some value
  | _ => none

def asBoolean : JsonValue → Option Bool
  | .boolean value => some value
  | _ => none

/-- Null is absence, so an empty text is no second spelling of it. -/
def textOrNull : JsonValue → Option ByteString
  | .null => some []
  | .text value => if value.isEmpty then none else some value
  | _ => none

def timestampOrNull (value : JsonValue) : Option ByteString := do
  let text ← textOrNull value
  if !text.isEmpty && !isTimestamp text then none else some text

def decodeFailure (operation category code : JsonValue) : Option (Option SessionCatalogFailure) :=
  if operation = .null ∧ category = .null ∧ code = .null then some none
  else do
    let operation ← asText operation
    let category ← asText category
    let code ← asInteger code
    if isDiagnosticWord operation && isDiagnosticWord category &&
        -2 ^ 31 ≤ code && code ≤ 2 ^ 31 - 1 then
      some (some { operation, category, code := Int32.ofInt code })
    else none

/-- The fifteen values, once their names have been checked. -/
def decodeMembers (sid : ByteString) : List JsonValue → Option SessionCatalogRecord
  | [schema, recordSid, generation, stateText, owner, durable, ephemeral, created, retained,
      orphaned, deleting, deleted, operation, category, code] => do
      let schema ← asInteger schema
      let recordSid ← asText recordSid
      let generationUuid ← asText generation
      let stateText ← asText stateText
      let ownerInstanceId ← asText owner
      let durable ← asBoolean durable
      let ephemeral ← asBoolean ephemeral
      let createdAt ← asText created
      if schema ≠ 1 ∨ recordSid ≠ sid ∨ !Key.isValidSessionId recordSid ∨
          !isCanonicalUuid generationUuid ∨ !isCanonicalUuid ownerInstanceId ∨ !durable ∨
          !isTimestamp createdAt then none
      else
        let state ← parseLifecycle stateText
        let retainedAt ← timestampOrNull retained
        let orphanedAt ← timestampOrNull orphaned
        let deletingAt ← timestampOrNull deleting
        let deletedAt ← timestampOrNull deleted
        let failure ← decodeFailure operation category code
        let record : SessionCatalogRecord :=
          { sid := recordSid, generationUuid, state, ownerInstanceId, durable, ephemeral,
            createdAt, retainedAt, orphanedAt, deletingAt, deletedAt, failure }
        if hasLifecycleMetadata record then some record else none
  | _ => none

def decodeSessionRecord (sid text : ByteString) : Option SessionCatalogRecord := do
  let members ← parseFlatObject text
  if members.map (·.name) ≠ kRecordMembers then none
  else decodeMembers sid (members.map (·.value))

/-! ## What the codec keeps -/

/-- The rules the decoder checks, field by field. -/
structure Valid (record : SessionCatalogRecord) : Prop where
  sid : Key.isValidSessionId record.sid = true
  generation : isCanonicalUuid record.generationUuid = true
  owner : isCanonicalUuid record.ownerInstanceId = true
  durable : record.durable = true
  created : isTimestamp record.createdAt = true
  times : ∀ time ∈ [record.retainedAt, record.orphanedAt, record.deletingAt, record.deletedAt],
    time = [] ∨ isTimestamp time = true
  failure : ∀ failure ∈ record.failure,
    isDiagnosticWord failure.operation = true ∧ isDiagnosticWord failure.category = true
  lifecycle : hasLifecycleMetadata record = true

def nullable (text : ByteString) : JsonValue := if text.isEmpty then .null else .text text

/-- The values the encoder writes, in order. -/
def recordValues (record : SessionCatalogRecord) : List JsonValue :=
  [.integer 1, .text record.sid, .text record.generationUuid, .text (lifecycleName record.state),
    .text record.ownerInstanceId, .boolean record.durable, .boolean record.ephemeral,
    .text record.createdAt, nullable record.retainedAt, nullable record.orphanedAt,
    nullable record.deletingAt, nullable record.deletedAt,
    record.failure.elim .null fun failure => .text failure.operation,
    record.failure.elim .null fun failure => .text failure.category,
    record.failure.elim .null fun failure => .integer failure.code.toInt]

def recordMembers (record : SessionCatalogRecord) : List JsonMember :=
  kRecordMembers.zipWith JsonMember.mk (recordValues record)

theorem renderValue_nullable (text : ByteString) :
    renderValue (nullable text) = nullableText text := by
  unfold nullable nullableText
  split_ifs <;> rfl

theorem renderValue_boolean (value : Bool) :
    renderValue (.boolean value) = boolText value := by
  cases value <;> rfl

set_option maxRecDepth 4000 in
/-- The format string of the encoder is the renderer at these members. -/
theorem encodeSessionRecord_eq (record : SessionCatalogRecord) :
    encodeSessionRecord record = renderObject (recordMembers record) := by
  have hfailure : ∀ render : SessionCatalogFailure → JsonValue,
      renderValue (record.failure.elim .null render) =
        record.failure.elim (ascii "null") fun failure => renderValue (render failure) := by
    intro render
    cases record.failure <;> rfl
  simp only [encodeSessionRecord, recordMembers, kRecordMembers, recordValues, List.zipWith,
    renderObject, renderMembers, renderMember, renderValue_nullable, renderValue_boolean,
    hfailure, List.flatten, List.append_assoc, List.cons_append]
  rfl

/-! ## Accepted fields are plain text -/

theorem isPlainText_of_all {text : ByteString} {p : UInt8 → Bool}
    (hp : ∀ c, p c = true → isPlain c = true) (htext : text.all p = true) :
    isPlainText text = true := by
  rw [isPlainText, List.all_eq_true]
  intro c hc
  exact hp c (List.all_eq_true.mp htext c hc)

theorem isPlain_of_isDigit : ∀ c, isDigit c = true → isPlain c = true := by
  decide +kernel

theorem isPlainText_of_isValidSessionId {sid : ByteString}
    (hsid : Key.isValidSessionId sid = true) : isPlainText sid = true := by
  rw [Key.isValidSessionId, Key.isValidId, Bool.and_eq_true] at hsid
  exact isPlainText_of_all (by decide +kernel) hsid.2

theorem isPlainText_of_isDiagnosticWord {word : ByteString}
    (hword : isDiagnosticWord word = true) : isPlainText word = true := by
  rw [isDiagnosticWord, Bool.and_eq_true] at hword
  exact isPlainText_of_all (by decide +kernel) hword.2

theorem isPlain_hexDigit {value : ℕ} (hvalue : value < 16) :
    isPlain (hexDigit value) = true := by
  interval_cases value <;> rfl

theorem isPlainText_formatFrom (i : ℕ) (bytes : ByteString) :
    isPlainText (formatFrom i bytes) = true := by
  induction bytes generalizing i with
  | nil => rfl
  | cons byte bytes ih =>
      have hbyte := byte.toNat_lt
      have hhigh : isPlain (hexDigit (byte.toNat / 16)) = true := isPlain_hexDigit (by omega)
      have hlow : isPlain (hexDigit (byte.toNat % 16)) = true := isPlain_hexDigit (by omega)
      have hhyphen : isPlain hyphen = true := by decide
      have hrest : (formatFrom (i + 1) bytes).all isPlain = true := ih (i + 1)
      rw [isPlainText, formatFrom]
      split_ifs <;> simp [hhigh, hlow, hhyphen, hrest]

theorem isPlainText_of_isCanonicalUuid {text : ByteString}
    (htext : isCanonicalUuid text = true) : isPlainText text = true := by
  unfold isCanonicalUuid at htext
  cases hparsed : parseAckToken text with
  | none => simp [hparsed] at htext
  | some token =>
      rw [hparsed] at htext
      rw [← eq_of_beq htext]
      exact isPlainText_formatFrom 0 token.bytes

/-- A generated token is spelled canonically. -/
theorem isCanonicalUuid_formatAckToken {token : AckToken} (hvalid : isValidAckToken token = true) :
    isCanonicalUuid (formatAckToken token) = true := by
  simp [isCanonicalUuid, parseAckToken_formatAckToken hvalid]

theorem plain_of_digitsInRange {text : ByteString} {position width low high i : ℕ}
    (hdigits : digitsInRange text position width low high = true) (hlow : position ≤ i)
    (hhigh : i < position + width) : ∀ c ∈ text[i]?, isPlain c = true := by
  intro c hc
  simp only [digitsInRange, Bool.and_eq_true, List.all_eq_true] at hdigits
  apply isPlain_of_isDigit
  apply hdigits.1.1.2
  apply List.mem_of_getElem? (i := i - position)
  rw [List.getElem?_take_of_lt (by omega), List.getElem?_drop, Nat.add_sub_cancel' hlow]
  exact hc

theorem plain_of_separator {text : ByteString} {i : ℕ} {separator : UInt8}
    (hseparator : (text[i]? == some separator) = true) (hplain : isPlain separator = true) :
    ∀ c ∈ text[i]?, isPlain c = true := by
  intro c hc
  rw [eq_of_beq hseparator, Option.mem_def, Option.some.injEq] at hc
  rw [← hc]
  exact hplain

/-- Every position of a timestamp is checked, so nothing but digits, separators
and the letters `T` and `Z` can occur. -/
theorem isPlainText_of_isTimestamp {text : ByteString} (htext : isTimestamp text = true) :
    isPlainText text = true := by
  simp only [isTimestamp, kSeconds, Bool.and_eq_true] at htext
  obtain ⟨⟨⟨⟨-, hlast⟩, hfields⟩, -⟩, hfraction⟩ := htext
  obtain ⟨⟨⟨⟨⟨⟨⟨⟨⟨⟨hyear, hdash⟩, hmonth⟩, hdash'⟩, hday⟩, htee⟩, hhour⟩, hcolon⟩, hminute⟩, hcolon'⟩,
    hsecond⟩ := hfields
  have hdate : ∀ i < 19, ∀ c ∈ text[i]?, isPlain c = true := by
    intro i hi
    rcases (by omega : i < 4 ∨ i = 4 ∨ (5 ≤ i ∧ i < 7) ∨ i = 7 ∨ (8 ≤ i ∧ i < 10) ∨ i = 10 ∨
      (11 ≤ i ∧ i < 13) ∨ i = 13 ∨ (14 ≤ i ∧ i < 16) ∨ i = 16 ∨ (17 ≤ i ∧ i < 19)) with
      h | rfl | h | rfl | h | rfl | h | rfl | h | rfl | h
    · exact plain_of_digitsInRange hyear (Nat.zero_le i) (by omega)
    · exact plain_of_separator hdash (by decide)
    · exact plain_of_digitsInRange hmonth h.1 h.2
    · exact plain_of_separator hdash' (by decide)
    · exact plain_of_digitsInRange hday h.1 h.2
    · exact plain_of_separator htee (by decide)
    · exact plain_of_digitsInRange hhour h.1 h.2
    · exact plain_of_separator hcolon (by decide)
    · exact plain_of_digitsInRange hminute h.1 h.2
    · exact plain_of_separator hcolon' (by decide)
    · exact plain_of_digitsInRange hsecond h.1 h.2
  have hend : ∀ c ∈ text[text.length - 1]?, isPlain c = true := by
    rw [List.getLast?_eq_getElem?] at hlast
    exact plain_of_separator hlast (by decide)
  have htail : ∀ i, 19 ≤ i → i < text.length - 1 → ∀ c ∈ text[i]?, isPlain c = true := by
    intro i hlow hhigh c hc
    have hposition : ((text.drop 19).take (text.length - 19 - 1))[i - 19]? = some c := by
      rw [List.getElem?_take_of_lt (by omega), List.getElem?_drop, Nat.add_sub_cancel' hlow]
      exact hc
    rw [Bool.or_eq_true] at hfraction
    rcases hfraction with hempty | hdigits
    · rw [List.isEmpty_iff] at hempty
      simp [hempty] at hposition
    · simp only [Bool.and_eq_true] at hdigits
      obtain ⟨⟨-, hpoint⟩, hall⟩ := hdigits
      rcases Nat.eq_zero_or_pos (i - 19) with hzero | hpos
      · rw [hzero, ← List.head?_eq_getElem?, eq_of_beq hpoint] at hposition
        rw [← Option.some.inj hposition]
        decide
      · apply isPlain_of_isDigit
        apply List.all_eq_true.mp hall
        apply List.mem_of_getElem? (i := i - 19 - 1)
        rw [List.getElem?_drop, Nat.add_sub_cancel' hpos]
        exact hposition
  rw [isPlainText, List.all_eq_true]
  intro c hc
  obtain ⟨i, hi⟩ := List.mem_iff_getElem?.mp hc
  have hbound : i < text.length := (List.getElem?_eq_some_iff.mp hi).1
  rcases (by omega : i < 19 ∨ (19 ≤ i ∧ i < text.length - 1) ∨ i = text.length - 1) with
    h | h | rfl
  · exact hdate i h c hi
  · exact htail i h.1 h.2 c hi
  · exact hend c hi

/-! ## Round trip -/

theorem isPlainText_lifecycleName (state : SessionLifecycleState) :
    isPlainText (lifecycleName state) = true := by
  cases state <;> decide

theorem parseLifecycle_lifecycleName (state : SessionLifecycleState) :
    parseLifecycle (lifecycleName state) = some state := by
  cases state <;> decide

theorem isFlatValue_nullable {text : ByteString} (htext : text = [] ∨ isTimestamp text = true) :
    IsFlatValue (nullable text) := by
  unfold nullable
  split_ifs with hempty
  · trivial
  · rcases htext with rfl | htimestamp
    · exact absurd rfl hempty
    · exact isPlainText_of_isTimestamp htimestamp

theorem timestampOrNull_nullable {text : ByteString}
    (htext : text = [] ∨ isTimestamp text = true) :
    timestampOrNull (nullable text) = some text := by
  rcases htext with rfl | htimestamp
  · rfl
  · by_cases hempty : text = []
    · rw [hempty]
      rfl
    · simp [timestampOrNull, nullable, textOrNull, hempty, htimestamp]

theorem decodeFailure_failure {failure : Option SessionCatalogFailure}
    (hfailure : ∀ f ∈ failure,
      isDiagnosticWord f.operation = true ∧ isDiagnosticWord f.category = true) :
    decodeFailure (failure.elim .null fun f => .text f.operation)
      (failure.elim .null fun f => .text f.category)
      (failure.elim .null fun f => .integer f.code.toInt) = some failure := by
  cases failure with
  | none => rfl
  | some f =>
      obtain ⟨hoperation, hcategory⟩ := hfailure f rfl
      have hlow : -2147483648 ≤ f.code.toInt := f.code.le_toInt
      have hhigh : f.code.toInt ≤ 2147483647 := Int.le_sub_one_of_lt f.code.toInt_lt
      simp [decodeFailure, asText, asInteger, hoperation, hcategory, hlow, hhigh]

section Members

variable {record : SessionCatalogRecord} (hvalid : Valid record)
include hvalid

theorem Valid.isFlatValue {value : JsonValue} (hvalue : value ∈ recordValues record) :
    IsFlatValue value := by
  have htime : ∀ time ∈ [record.retainedAt, record.orphanedAt, record.deletingAt,
      record.deletedAt], IsFlatValue (nullable time) :=
    fun time htime => isFlatValue_nullable (hvalid.times time htime)
  have hfailure : ∀ render : SessionCatalogFailure → JsonValue,
      (∀ failure ∈ record.failure, IsFlatValue (render failure)) →
        IsFlatValue (record.failure.elim .null render) := by
    intro render hrender
    cases hrecord : record.failure with
    | none => trivial
    | some failure => exact hrender failure hrecord
  simp only [recordValues, List.mem_cons, List.not_mem_nil, or_false] at hvalue
  simp only [List.forall_mem_cons, List.not_mem_nil, IsEmpty.forall_iff, implies_true,
    and_true] at htime
  rcases hvalue with rfl | rfl | rfl | rfl | rfl | rfl | rfl | rfl | rfl | rfl | rfl | rfl | rfl |
    rfl | rfl
  · exact ⟨by norm_num, by norm_num⟩
  · exact isPlainText_of_isValidSessionId hvalid.sid
  · exact isPlainText_of_isCanonicalUuid hvalid.generation
  · exact isPlainText_lifecycleName record.state
  · exact isPlainText_of_isCanonicalUuid hvalid.owner
  · trivial
  · trivial
  · exact isPlainText_of_isTimestamp hvalid.created
  · exact htime.1
  · exact htime.2.1
  · exact htime.2.2.1
  · exact htime.2.2.2
  · exact hfailure _ fun failure hmem =>
      isPlainText_of_isDiagnosticWord (hvalid.failure failure hmem).1
  · exact hfailure _ fun failure hmem =>
      isPlainText_of_isDiagnosticWord (hvalid.failure failure hmem).2
  · refine hfailure _ fun failure _ => ?_
    have hlow := failure.code.le_toInt
    have hhigh := failure.code.toInt_lt
    exact ⟨by omega, by omega⟩

theorem Valid.decodeMembers : decodeMembers record.sid (recordValues record) = some record := by
  have htimes := hvalid.times
  simp only [List.forall_mem_cons, List.not_mem_nil, IsEmpty.forall_iff, implies_true,
    and_true] at htimes
  obtain ⟨hretained, horphaned, hdeleting, hdeleted⟩ := htimes
  have hrecord : { record with durable := true } = record := by rw [← hvalid.durable]
  simp [Catalog.decodeMembers, recordValues, asText, asInteger, asBoolean, hvalid.sid,
    hvalid.generation, hvalid.owner, hvalid.durable, hvalid.created,
    parseLifecycle_lifecycleName, timestampOrNull_nullable hretained,
    timestampOrNull_nullable horphaned, timestampOrNull_nullable hdeleting,
    timestampOrNull_nullable hdeleted, decodeFailure_failure hvalid.failure, hrecord,
    hvalid.lifecycle]

/-- A record that keeps the field rules is decoded back from its own text. -/
theorem Valid.decode_encode :
    decodeSessionRecord record.sid (encodeSessionRecord record) = some record := by
  have hplain : ∀ name ∈ kRecordMembers, isPlainText name = true := by decide
  have hmembers : ∀ member ∈ recordMembers record,
      isPlainText member.name = true ∧ IsFlatValue member.value := by
    intro member hmember
    rw [recordMembers, ← List.map_uncurry_zip_eq_zipWith] at hmember
    obtain ⟨⟨name, value⟩, hzip, rfl⟩ := List.mem_map.mp hmember
    exact ⟨hplain _ (List.of_mem_zip hzip).1, hvalid.isFlatValue (List.of_mem_zip hzip).2⟩
  have hnames : (recordMembers record).map (·.name) = kRecordMembers := rfl
  have hvalues : (recordMembers record).map (·.value) = recordValues record := rfl
  rw [decodeSessionRecord, encodeSessionRecord_eq, parseFlatObject_renderObject hmembers]
  simp only [Option.bind_eq_bind, Option.bind_some, hnames, hvalues, ne_eq, not_true_eq_false,
    if_false]
  exact hvalid.decodeMembers

end Members

end Sitos.Catalog
