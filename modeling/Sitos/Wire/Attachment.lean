import Sitos.Wire.Fence

/-!
# Attachments of samples

Two formats share the attachment of a sample: the token of an acknowledged write, and the lane
metadata of a covered one.  They are told apart by the length and the first byte.  Of a lane
attachment that is malformed, whatever can still be read is kept.
-/

namespace Sitos.Attachment

open Sitos.Bytes
open Sitos.FenceWire
open Sitos.Token

def kAttachmentSchemaVersion : UInt8 := 1

def kAckAttachmentV1Size : ℕ := 17

def kFenceLaneAttachmentV1Size : ℕ := 25

inductive AckAttachmentObservation where
  | absent
  | malformed
  | token (token : AckToken)
  deriving DecidableEq

structure AttachmentObservations where
  ack : AckAttachmentObservation := .absent
  lane : FenceLaneObservation := .absent
  deriving DecidableEq

def encodeAckAttachment (token : AckToken) : ByteString := kAttachmentSchemaVersion :: token.bytes

def encodeFenceLaneAttachment (publisherUuid : FenceUuid) (sequence : Sequence) : ByteString :=
  kFenceSchemaVersion :: (publisherUuid.bytes ++ leBytes 8 sequence.val.toNat)

/-- The sixteen bytes after the first. -/
def tokenAt (bytes : ByteString) (hsize : 17 ≤ bytes.length) : AckToken where
  bytes := (bytes.drop 1).take 16
  length_bytes := by
    rw [List.length_take, List.length_drop]
    omega

def observeAckAttachment (attachment : Option ByteString) : AckAttachmentObservation :=
  match attachment with
  | none => .absent
  | some bytes =>
      if hsize : bytes.length = kAckAttachmentV1Size then
        if bytes.head? ≠ some kAttachmentSchemaVersion then .malformed
        else
          let token := tokenAt bytes (by rw [hsize]; decide)
          if isValidAckToken token then .token token else .malformed
      else .malformed

def readSequence (bytes : ByteString) : UInt64 := UInt64.ofNat (leValue bytes)

/-- The UUID that a lane attachment of any length shows. -/
def publisherUuidOf (attachment : ByteString) : Option FenceUuid :=
  if hsize : 17 ≤ attachment.length then
    let candidate := tokenAt attachment hsize
    if isValidFenceUuid candidate then some candidate else none
  else none

/-- The sequence that a candidate of version one shows. -/
def sequenceOf (attachment : ByteString) : Option Sequence :=
  if attachment.head? = some kFenceSchemaVersion ∧
      kFenceLaneAttachmentV1Size ≤ attachment.length then
    let candidate := readSequence ((attachment.drop 17).take 8)
    if hzero : candidate ≠ 0 then some ⟨candidate, hzero⟩ else none
  else none

def observeFenceLaneAttachment (attachment : ByteString) : FenceLaneObservation :=
  let exactSize := attachment.length = kFenceLaneAttachmentV1Size
  let versionOneCandidate := attachment.head? = some kFenceSchemaVersion
  if ¬exactSize ∧ ¬versionOneCandidate then .absent
  else
    match publisherUuidOf attachment, sequenceOf attachment with
    | some publisherUuid, some sequence =>
        if exactSize ∧ versionOneCandidate then .metadata publisherUuid sequence
        else .malformed (some publisherUuid) (some sequence)
    | publisherUuid, sequence => .malformed publisherUuid sequence

def classifyAttachment (attachment : Option ByteString) : AttachmentObservations :=
  match attachment with
  | none => {}
  | some bytes =>
      if bytes.length = kAckAttachmentV1Size then { ack := observeAckAttachment (some bytes) }
      else if bytes.length = kFenceLaneAttachmentV1Size ∨
          bytes.head? = some kFenceSchemaVersion then
        { lane := observeFenceLaneAttachment bytes }
      else {}

/-! ## What the encoders write -/

section Encoders

variable (token : AckToken) (publisherUuid : FenceUuid) (sequence : Sequence)

@[simp]
theorem length_encodeAckAttachment : (encodeAckAttachment token).length = kAckAttachmentV1Size := by
  simp [encodeAckAttachment, kAckAttachmentV1Size, token.length_bytes]

@[simp]
theorem length_encodeFenceLaneAttachment :
    (encodeFenceLaneAttachment publisherUuid sequence).length = kFenceLaneAttachmentV1Size := by
  simp [encodeFenceLaneAttachment, kFenceLaneAttachmentV1Size, publisherUuid.length_bytes]

theorem eq_of_bytes {first second : AckToken} (hbytes : first.bytes = second.bytes) :
    first = second := by
  cases first
  cases second
  congr

/-- The bytes of a token are read back whatever stands before and after them. -/
theorem tokenAt_cons_append (first : UInt8) (tail : ByteString)
    (hsize : 17 ≤ (first :: (token.bytes ++ tail)).length) :
    tokenAt (first :: (token.bytes ++ tail)) hsize = token := by
  apply eq_of_bytes
  exact List.take_left' token.length_bytes

theorem tokenAt_encodeAckAttachment (hsize : 17 ≤ (encodeAckAttachment token).length) :
    tokenAt (encodeAckAttachment token) hsize = token := by
  apply eq_of_bytes
  exact List.take_of_length_le token.length_bytes.le

theorem readSequence_encodeFenceLaneAttachment :
    readSequence (((encodeFenceLaneAttachment publisherUuid sequence).drop 17).take 8) =
      sequence.val := by
  have hdrop : (encodeFenceLaneAttachment publisherUuid sequence).drop 17 =
      leBytes 8 sequence.val.toNat := by
    rw [encodeFenceLaneAttachment, List.drop_succ_cons,
      List.drop_left' publisherUuid.length_bytes]
  have htake : (leBytes 8 sequence.val.toNat).take 8 = leBytes 8 sequence.val.toNat :=
    List.take_of_length_le (by simp)
  rw [hdrop, htake, readSequence, leValue_leBytes (by simpa using sequence.val.toNat_lt),
    UInt64.ofNat_toNat]

end Encoders

theorem observeAckAttachment_encode {token : AckToken} (hvalid : isValidAckToken token = true) :
    observeAckAttachment (some (encodeAckAttachment token)) = .token token := by
  have hsize := length_encodeAckAttachment token
  have hhead : ¬(encodeAckAttachment token).head? ≠ some kAttachmentSchemaVersion := by
    simp [encodeAckAttachment]
  simp only [observeAckAttachment]
  rw [dif_pos hsize, if_neg hhead, tokenAt_encodeAckAttachment, if_pos hvalid]

theorem observeFenceLaneAttachment_encode {publisherUuid : FenceUuid} {sequence : Sequence}
    (hvalid : isValidFenceUuid publisherUuid = true) :
    observeFenceLaneAttachment (encodeFenceLaneAttachment publisherUuid sequence) =
      .metadata publisherUuid sequence := by
  have hhead : (encodeFenceLaneAttachment publisherUuid sequence).head? =
      some kFenceSchemaVersion := rfl
  have hlength := length_encodeFenceLaneAttachment publisherUuid sequence
  have hsize : 17 ≤ (encodeFenceLaneAttachment publisherUuid sequence).length := by
    rw [hlength]
    decide
  have huuid : publisherUuidOf (encodeFenceLaneAttachment publisherUuid sequence) =
      some publisherUuid := by
    simp only [publisherUuidOf]
    rw [dif_pos hsize, show tokenAt _ hsize = publisherUuid from
      tokenAt_cons_append publisherUuid _ _ hsize, if_pos hvalid]
  have hsequence : sequenceOf (encodeFenceLaneAttachment publisherUuid sequence) =
      some sequence := by
    simp only [sequenceOf, readSequence_encodeFenceLaneAttachment]
    rw [if_pos ⟨hhead, hlength.ge⟩, dif_pos sequence.property]
  simp only [observeFenceLaneAttachment, huuid, hsequence]
  rw [if_neg fun h => h.2 hhead, if_pos ⟨hlength, hhead⟩]

/-! ## What the observations tell -/

section Observations

variable {bytes : ByteString}

/-- An attachment of the right length and version is its own encoding. -/
theorem eq_encodeAckAttachment (hsize : bytes.length = kAckAttachmentV1Size)
    (hhead : bytes.head? = some kAttachmentSchemaVersion) :
    bytes = encodeAckAttachment (tokenAt bytes (by rw [hsize]; decide)) := by
  obtain ⟨tail, rfl⟩ := List.head?_eq_some_iff.mp hhead
  have hlength : tail.length ≤ 16 := by
    rw [List.length_cons, kAckAttachmentV1Size] at hsize
    omega
  exact congrArg (kAttachmentSchemaVersion :: ·) (List.take_of_length_le hlength).symm

theorem observeAckAttachment_eq_token {token : AckToken}
    (hobserved : observeAckAttachment (some bytes) = .token token) :
    isValidAckToken token = true ∧ bytes = encodeAckAttachment token := by
  simp only [observeAckAttachment] at hobserved
  split_ifs at hobserved with hsize hhead hvalid
  obtain rfl := AckAttachmentObservation.token.inj hobserved
  exact ⟨hvalid, eq_encodeAckAttachment hsize (not_not.mp hhead)⟩

/-- A UUID that is kept is valid and stands after the first byte. -/
theorem of_publisherUuidOf {publisherUuid : FenceUuid}
    (hkept : publisherUuidOf bytes = some publisherUuid) :
    isValidFenceUuid publisherUuid = true ∧ (bytes.drop 1).take 16 = publisherUuid.bytes := by
  simp only [publisherUuidOf] at hkept
  split_ifs at hkept with hsize hvalid
  obtain rfl := Option.some.inj hkept
  exact ⟨hvalid, rfl⟩

/-- A sequence that is kept is the word after the UUID, in an attachment of version one. -/
theorem of_sequenceOf {sequence : Sequence} (hkept : sequenceOf bytes = some sequence) :
    bytes.head? = some kFenceSchemaVersion ∧ kFenceLaneAttachmentV1Size ≤ bytes.length ∧
      leValue ((bytes.drop 17).take 8) = sequence.val.toNat := by
  simp only [sequenceOf] at hkept
  split_ifs at hkept with hcandidate hzero
  obtain rfl := Option.some.inj hkept
  refine ⟨hcandidate.1, hcandidate.2, ?_⟩
  have hlength : ((bytes.drop 17).take 8).length = 8 := by
    have hsize := hcandidate.2
    rw [kFenceLaneAttachmentV1Size] at hsize
    rw [List.length_take, List.length_drop]
    omega
  have hlt := leValue_lt ((bytes.drop 17).take 8)
  rw [hlength] at hlt
  exact (UInt64.toNat_ofNat_of_lt' (by simpa using hlt)).symm

theorem observeFenceLaneAttachment_eq_metadata {publisherUuid : FenceUuid} {sequence : Sequence}
    (hobserved : observeFenceLaneAttachment bytes = .metadata publisherUuid sequence) :
    isValidFenceUuid publisherUuid = true ∧
      bytes = encodeFenceLaneAttachment publisherUuid sequence := by
  simp only [observeFenceLaneAttachment] at hobserved
  split_ifs at hobserved with habsent hexact
  all_goals split at hobserved
  · rename_i hpublisher hsequence
    obtain ⟨rfl, rfl⟩ := FenceLaneObservation.metadata.inj hobserved
    obtain ⟨hvalid, huuid⟩ := of_publisherUuidOf hpublisher
    obtain ⟨hhead, -, hvalue⟩ := of_sequenceOf hsequence
    refine ⟨hvalid, ?_⟩
    obtain ⟨tail, rfl⟩ := List.head?_eq_some_iff.mp hhead
    have hwidth : (tail.drop 16).length = 8 := by
      have hsize := hexact.1
      rw [List.length_cons, kFenceLaneAttachmentV1Size] at hsize
      rw [List.length_drop]
      omega
    have hrest : (tail.drop 16).take 8 = tail.drop 16 := List.take_of_length_le hwidth.le
    have hword : leBytes 8 (leValue (tail.drop 16)) = tail.drop 16 := by
      rw [← hwidth]
      exact leBytes_leValue _
    rw [List.drop_succ_cons, hrest] at hvalue
    rw [encodeFenceLaneAttachment, ← huuid, ← hvalue, hword]
    exact congrArg _ (List.take_append_drop 16 tail).symm
  all_goals cases hobserved

theorem observeFenceLaneAttachment_eq_malformed {publisherUuid : Option FenceUuid}
    {sequence : Option Sequence}
    (hobserved : observeFenceLaneAttachment bytes = .malformed publisherUuid sequence) :
    publisherUuidOf bytes = publisherUuid ∧ sequenceOf bytes = sequence := by
  simp only [observeFenceLaneAttachment] at hobserved
  split_ifs at hobserved with habsent hexact
  all_goals split at hobserved
  · cases hobserved
  · exact FenceLaneObservation.malformed.inj hobserved
  · rename_i hpublisher hsequence
    obtain ⟨rfl, rfl⟩ := FenceLaneObservation.malformed.inj hobserved
    exact ⟨hpublisher, hsequence⟩
  · exact FenceLaneObservation.malformed.inj hobserved

end Observations

/-! ## Classification -/

/-- At most one of the two formats is observed. -/
theorem classifyAttachment_disjoint (attachment : Option ByteString) :
    (classifyAttachment attachment).ack = .absent ∨
      (classifyAttachment attachment).lane = .absent := by
  cases attachment with
  | none => exact .inl rfl
  | some bytes =>
      rw [classifyAttachment]
      split_ifs
      · exact .inr rfl
      · exact .inl rfl
      · exact .inl rfl

theorem classifyAttachment_ack {bytes : ByteString}
    (hpresent : (classifyAttachment (some bytes)).ack ≠ .absent) :
    (classifyAttachment (some bytes)).ack = observeAckAttachment (some bytes) := by
  rw [classifyAttachment] at hpresent ⊢
  split_ifs at hpresent ⊢ with hack hlane
  · rfl
  · exact absurd rfl hpresent
  · exact absurd rfl hpresent

theorem classifyAttachment_lane {bytes : ByteString}
    (hpresent : (classifyAttachment (some bytes)).lane ≠ .absent) :
    (classifyAttachment (some bytes)).lane = observeFenceLaneAttachment bytes := by
  rw [classifyAttachment] at hpresent ⊢
  split_ifs at hpresent ⊢ with hack hlane
  · exact absurd rfl hpresent
  · rfl
  · exact absurd rfl hpresent

/-- Classification inverts both encoders and keeps them apart; what it recovers from a malformed
lane attachment stands in the attachment. -/
theorem attachment_classification :
    (∀ token, isValidAckToken token = true →
      classifyAttachment (some (encodeAckAttachment token)) = { ack := .token token }) ∧
    (∀ publisherUuid sequence, isValidFenceUuid publisherUuid = true →
      classifyAttachment (some (encodeFenceLaneAttachment publisherUuid sequence)) =
        { lane := .metadata publisherUuid sequence }) ∧
    ∀ bytes,
      ((classifyAttachment (some bytes)).ack = .absent ∨
        (classifyAttachment (some bytes)).lane = .absent) ∧
      (∀ token, (classifyAttachment (some bytes)).ack = .token token →
        isValidAckToken token = true ∧ bytes = encodeAckAttachment token) ∧
      (∀ publisherUuid sequence,
        (classifyAttachment (some bytes)).lane = .metadata publisherUuid sequence →
        isValidFenceUuid publisherUuid = true ∧
          bytes = encodeFenceLaneAttachment publisherUuid sequence) ∧
      ∀ publisherUuid sequence,
        (classifyAttachment (some bytes)).lane = .malformed publisherUuid sequence →
        (∀ uuid, publisherUuid = some uuid →
          isValidFenceUuid uuid = true ∧ (bytes.drop 1).take 16 = uuid.bytes) ∧
        ∀ value, sequence = some value → bytes.head? = some kFenceSchemaVersion ∧
          kFenceLaneAttachmentV1Size ≤ bytes.length ∧ value.val ≠ 0 ∧
            leValue ((bytes.drop 17).take 8) = value.val.toNat := by
  refine ⟨fun token hvalid => ?_, fun publisherUuid sequence hvalid => ?_, fun bytes => ?_⟩
  · rw [classifyAttachment, if_pos (length_encodeAckAttachment token),
      observeAckAttachment_encode hvalid]
  · have hsize := length_encodeFenceLaneAttachment publisherUuid sequence
    have hother : (encodeFenceLaneAttachment publisherUuid sequence).length ≠
        kAckAttachmentV1Size := by
      rw [hsize]
      decide
    rw [classifyAttachment, if_neg hother, if_pos (.inl hsize),
      observeFenceLaneAttachment_encode hvalid]
  · refine ⟨classifyAttachment_disjoint (some bytes), fun token htoken => ?_,
      fun publisherUuid sequence hlane => ?_, fun publisherUuid sequence hlane => ?_⟩
    · have hobserved := classifyAttachment_ack (by rw [htoken]; nofun)
      exact observeAckAttachment_eq_token (hobserved.symm.trans htoken)
    · have hobserved := classifyAttachment_lane (by rw [hlane]; nofun)
      exact observeFenceLaneAttachment_eq_metadata (hobserved.symm.trans hlane)
    · have hobserved := classifyAttachment_lane (by rw [hlane]; nofun)
      obtain ⟨rfl, rfl⟩ := observeFenceLaneAttachment_eq_malformed (hobserved.symm.trans hlane)
      refine ⟨fun uuid huuid => of_publisherUuidOf huuid, fun value hvalue => ?_⟩
      obtain ⟨hhead, hsize, hword⟩ := of_sequenceOf hvalue
      exact ⟨hhead, hsize, value.property, hword⟩

end Sitos.Attachment
