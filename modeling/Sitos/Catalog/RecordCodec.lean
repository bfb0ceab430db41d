import Sitos.Catalog.FlatReader
import Sitos.Catalog.Record

/-!
# The record codec is canonical

A record that keeps the field rules is read back from its own text, and no other text is read as
that record.
-/

namespace Sitos.Catalog

open Sitos.Bytes Sitos.Cursor Sitos.FlatJson Sitos.Token

theorem eq_text_of_asText {value : JsonValue} {text : ByteString} (hvalue : asText value = some text) :
    value = .text text := by
  cases value with
  | text other => rw [Option.some.inj hvalue]
  | _ => cases hvalue

theorem eq_integer_of_asInteger {value : JsonValue} {number : ℤ}
    (hvalue : asInteger value = some number) : value = .integer number := by
  cases value with
  | integer other => rw [Option.some.inj hvalue]
  | _ => cases hvalue

theorem eq_boolean_of_asBoolean {value : JsonValue} {flag : Bool}
    (hvalue : asBoolean value = some flag) : value = .boolean flag := by
  cases value with
  | boolean other => rw [Option.some.inj hvalue]
  | _ => cases hvalue

theorem eq_lifecycleName_of_parseLifecycle {text : ByteString} {state : SessionLifecycleState}
    (hstate : parseLifecycle text = some state) : text = lifecycleName state := by
  rw [parseLifecycle] at hstate
  have hfound := List.find?_some hstate
  exact (eq_of_beq hfound).symm

theorem eq_nullable_of_timestampOrNull {value : JsonValue} {text : ByteString}
    (hvalue : timestampOrNull value = some text) :
    value = nullable text ∧ (text = [] ∨ isTimestamp text = true) := by
  cases value with
  | null =>
      obtain rfl := Option.some.inj hvalue
      exact ⟨rfl, .inl rfl⟩
  | text other =>
      simp only [timestampOrNull, textOrNull, Option.bind_eq_bind, Option.bind_eq_some_iff] at hvalue
      obtain ⟨present, hpresent, hvalue⟩ := hvalue
      split_ifs at hpresent with hempty
      obtain rfl := Option.some.inj hpresent
      split_ifs at hvalue with hstamp
      obtain rfl := Option.some.inj hvalue
      refine ⟨by rw [nullable, if_neg hempty], .inr ?_⟩
      simpa [hempty] using hstamp
  | _ => cases hvalue

theorem eq_of_decodeFailure {operation category code : JsonValue}
    {failure : Option SessionCatalogFailure}
    (hfailure : decodeFailure operation category code = some failure) :
    operation = (failure.elim .null fun f => .text f.operation) ∧
    category = (failure.elim .null fun f => .text f.category) ∧
    code = (failure.elim .null fun f => .integer f.code.toInt) ∧
    ∀ f ∈ failure, isDiagnosticWord f.operation = true ∧ isDiagnosticWord f.category = true := by
  unfold decodeFailure at hfailure
  split_ifs at hfailure with habsent
  · obtain rfl := Option.some.inj hfailure
    exact ⟨habsent.1, habsent.2.1, habsent.2.2, fun f hf => (nomatch hf)⟩
  · simp only [Option.bind_eq_bind, Option.bind_eq_some_iff] at hfailure
    obtain ⟨word, hword, other, hother, number, hnumber, hfailure⟩ := hfailure
    split_ifs at hfailure with hvalid
    obtain rfl := Option.some.inj hfailure
    simp only [Bool.and_eq_true, decide_eq_true_iff] at hvalid
    obtain ⟨⟨⟨hoperation, hcategory⟩, hlow⟩, hhigh⟩ := hvalid
    have hcode : (Int32.ofInt number).toInt = number :=
      Int32.toInt_ofInt_of_le (by omega) (by omega)
    refine ⟨eq_text_of_asText hword, eq_text_of_asText hother, ?_, ?_⟩
    · rw [eq_integer_of_asInteger hnumber, Option.elim_some, hcode]
    · intro f hf
      obtain rfl := Option.some.inj hf
      exact ⟨hoperation, hcategory⟩

/-- The values that are accepted are the ones the encoder writes. -/
theorem eq_recordValues_of_decodeMembers {sid : ByteString} {values : List JsonValue}
    {record : SessionCatalogRecord} (hdecoded : decodeMembers sid values = some record) :
    values = recordValues record ∧ record.sid = sid ∧ Valid record := by
  unfold decodeMembers at hdecoded
  split at hdecoded
  · obtain ⟨schema, hschema, hdecoded⟩ := Option.bind_eq_some_iff.mp hdecoded
    obtain ⟨recordSid, hsid, hdecoded⟩ := Option.bind_eq_some_iff.mp hdecoded
    obtain ⟨generation, hgeneration, hdecoded⟩ := Option.bind_eq_some_iff.mp hdecoded
    obtain ⟨stateText, hstateText, hdecoded⟩ := Option.bind_eq_some_iff.mp hdecoded
    obtain ⟨owner, howner, hdecoded⟩ := Option.bind_eq_some_iff.mp hdecoded
    obtain ⟨durable, hdurable, hdecoded⟩ := Option.bind_eq_some_iff.mp hdecoded
    obtain ⟨ephemeral, hephemeral, hdecoded⟩ := Option.bind_eq_some_iff.mp hdecoded
    obtain ⟨created, hcreated, hdecoded⟩ := Option.bind_eq_some_iff.mp hdecoded
    by_cases hrefused : schema ≠ 1 ∨ recordSid ≠ sid ∨ (!Key.isValidSessionId recordSid) = true ∨
        (!isCanonicalUuid generation) = true ∨ (!isCanonicalUuid owner) = true ∨
        (!durable) = true ∨ (!isTimestamp created) = true
    · rw [if_pos hrefused] at hdecoded
      cases hdecoded
    rw [if_neg hrefused] at hdecoded
    obtain ⟨state, hstate, hdecoded⟩ := Option.bind_eq_some_iff.mp hdecoded
    obtain ⟨retained, hretained, hdecoded⟩ := Option.bind_eq_some_iff.mp hdecoded
    obtain ⟨orphaned, horphaned, hdecoded⟩ := Option.bind_eq_some_iff.mp hdecoded
    obtain ⟨deleting, hdeleting, hdecoded⟩ := Option.bind_eq_some_iff.mp hdecoded
    obtain ⟨deleted, hdeleted, hdecoded⟩ := Option.bind_eq_some_iff.mp hdecoded
    obtain ⟨failure, hfailure, hdecoded⟩ := Option.bind_eq_some_iff.mp hdecoded
    simp only at hdecoded
    split_ifs at hdecoded with hlifecycle
    obtain rfl := Option.some.inj hdecoded
    simp only [not_or, not_not, Bool.not_eq_true', Bool.not_eq_false] at hrefused
    obtain ⟨rfl, rfl, hsidOk, hgenerationOk, hownerOk, rfl, hcreatedOk⟩ := hrefused
    obtain ⟨rfl, hretainedOk⟩ := eq_nullable_of_timestampOrNull hretained
    obtain ⟨rfl, horphanedOk⟩ := eq_nullable_of_timestampOrNull horphaned
    obtain ⟨rfl, hdeletingOk⟩ := eq_nullable_of_timestampOrNull hdeleting
    obtain ⟨rfl, hdeletedOk⟩ := eq_nullable_of_timestampOrNull hdeleted
    obtain ⟨rfl, rfl, rfl, hfailureOk⟩ := eq_of_decodeFailure hfailure
    refine ⟨?_, rfl, hsidOk, hgenerationOk, hownerOk, rfl, hcreatedOk, ?_, hfailureOk, hlifecycle⟩
    · rw [eq_integer_of_asInteger hschema, eq_text_of_asText hsid, eq_text_of_asText hgeneration,
        eq_text_of_asText hstateText, eq_lifecycleName_of_parseLifecycle hstate,
        eq_text_of_asText howner, eq_boolean_of_asBoolean hdurable,
        eq_boolean_of_asBoolean hephemeral, eq_text_of_asText hcreated]
      rfl
    · intro time htime
      simp only [List.mem_cons, List.not_mem_nil, or_false] at htime
      rcases htime with rfl | rfl | rfl | rfl
      · exact hretainedOk
      · exact horphanedOk
      · exact hdeletingOk
      · exact hdeletedOk
  · cases hdecoded

theorem eq_zipWith_of_map {members : List JsonMember} {names : List ByteString}
    {values : List JsonValue} (hnames : members.map (·.name) = names)
    (hvalues : members.map (·.value) = values) : members = names.zipWith JsonMember.mk values := by
  subst hnames hvalues
  induction members with
  | nil => rfl
  | cons member members ih =>
      rw [List.map_cons, List.map_cons, List.zipWith_cons_cons, ← ih]

/-- An accepted text is the encoding of its record. -/
theorem encode_of_decode {sid text : ByteString} {record : SessionCatalogRecord}
    (hdecoded : decodeSessionRecord sid text = some record) :
    record.sid = sid ∧ encodeSessionRecord record = text ∧ Valid record := by
  simp only [decodeSessionRecord, Option.bind_eq_bind, Option.bind_eq_some_iff] at hdecoded
  obtain ⟨members, hparsed, hdecoded⟩ := hdecoded
  split_ifs at hdecoded with hnames
  obtain ⟨hvalues, hsid, hvalid⟩ := eq_recordValues_of_decodeMembers hdecoded
  refine ⟨hsid, ?_, hvalid⟩
  rw [encodeSessionRecord_eq, recordMembers, ← eq_zipWith_of_map (not_not.mp hnames) hvalues]
  exact renderObject_of_parseFlatObject hparsed

/-- Records are read back from their texts, each from one text only, and the parser stays inside
whatever it is given. -/
theorem recordCodec_canonical :
    (∀ record, Valid record →
      decodeSessionRecord record.sid (encodeSessionRecord record) = some record) ∧
    (∀ sid text record, decodeSessionRecord sid text = some record →
      record.sid = sid ∧ encodeSessionRecord record = text) ∧
    ∀ text : Span UInt8,
      parseFlatObjectAt text = (parseFlatObject text.data).elim reject pure := by
  refine ⟨fun record hvalid => hvalid.decode_encode, ?_, parseFlatObjectAt_eq⟩
  intro sid text record hdecoded
  obtain ⟨hsid, htext, -⟩ := encode_of_decode hdecoded
  exact ⟨hsid, htext⟩

theorem recordCodec_canonical_created :
    let uuid := formatAckToken (generateAckToken ⟨List.replicate 16 0, rfl⟩)
    let record : SessionCatalogRecord :=
      { sid := ascii "s", generationUuid := uuid, ownerInstanceId := uuid,
        createdAt := ascii "2026-01-02T03:04:05Z" }
    decodeSessionRecord record.sid (encodeSessionRecord record) = some record := by
  intro uuid record
  have huuid : isCanonicalUuid uuid = true :=
    isCanonicalUuid_formatAckToken (isValidAckToken_generateAckToken _)
  have hsid : Key.isValidSessionId (ascii "s") = true := by decide
  have hcreated : isTimestamp (ascii "2026-01-02T03:04:05Z") = true := by decide
  refine recordCodec_canonical.1 record ?_
  exact
    { sid := hsid
      generation := huuid
      owner := huuid
      durable := rfl
      created := hcreated
      times := fun time htime => .inl (by simpa [record] using htime)
      failure := fun failure hfailure => (nomatch hfailure)
      lifecycle := rfl }

end Sitos.Catalog
