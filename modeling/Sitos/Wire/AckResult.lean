import Sitos.Core.Bytes

/-!
# Acknowledgement results

The v1 result vocabulary shared by acknowledged writes and Fence markers:
statuses, operation kinds, durability targets, the result record and its
validation.  A result that fails validation is withheld from queries, so every
producer of results is checked against `validateAckResult`.
-/

namespace Sitos.AckResult

open Sitos.Bytes

inductive Status where
  | ok
  | notFound
  | typeMismatch
  | timeout
  | disconnected
  | readOnly
  | invalidKey
  | invalidArgument
  | error
  | outcomeUnknown
  | stateLost
  | catalogUnavailable
  deriving DecidableEq, Repr

inductive AckOperationKind where
  | put
  | batch
  | fence
  deriving DecidableEq, Repr

inductive AckDurability where
  | applied
  | synced
  deriving DecidableEq, Repr

def kAckNoFailedIndex : UInt32 := 0xFFFFFFFF
def kAckNoFailedSequence : UInt64 := 0xFFFFFFFFFFFFFFFF
def kAckResultMaxMessageLength : ℕ := 1024

structure AckResultV1 where
  operationKind : AckOperationKind
  status : Status
  durability : AckDurability
  appliedCount : UInt32
  failedIndex : UInt32
  throughSequence : UInt64
  failedSequence : UInt64
  message : ByteString
  deriving DecidableEq, Repr

/-- The `Fence` result with no failed sequence and no message. -/
def fenceResult (status : Status) (durability : AckDurability)
    (throughSequence : UInt64) : AckResultV1 :=
  { operationKind := .fence, status, durability, appliedCount := 0,
    failedIndex := kAckNoFailedIndex, throughSequence,
    failedSequence := kAckNoFailedSequence, message := [] }

/-- `Timeout` exists on the client only and never travels. -/
def isWireStatus : Status → Bool
  | .timeout => false
  | _ => true

def isContinuation (byte : UInt8) : Bool :=
  0x80 ≤ byte && byte < 0xC0

/-- The low six bits of a continuation byte. -/
def continuationBits (byte : UInt8) : ℕ := byte.toNat % 64

/-- Strict RFC 3629 UTF-8: overlong forms, surrogates, code points above
`U+10FFFF`, truncated sequences and stray continuation bytes are rejected. -/
def isValidUtf8 : ByteString → Bool
  | [] => true
  | c0 :: rest =>
      if c0 < 0x80 then isValidUtf8 rest
      else if 0xC2 ≤ c0 ∧ c0 ≤ 0xDF then
        match rest with
        | c1 :: rest => isContinuation c1 && isValidUtf8 rest
        | _ => false
      else if 0xE0 ≤ c0 ∧ c0 ≤ 0xEF then
        match rest with
        | c1 :: c2 :: rest =>
            let codePoint := (c0.toNat % 16 * 64 + continuationBits c1) * 64 +
              continuationBits c2
            isContinuation c1 && isContinuation c2 && decide (0x800 ≤ codePoint) &&
              !(decide (0xD800 ≤ codePoint) && decide (codePoint ≤ 0xDFFF)) &&
              isValidUtf8 rest
        | _ => false
      else if 0xF0 ≤ c0 ∧ c0 ≤ 0xF4 then
        match rest with
        | c1 :: c2 :: c3 :: rest =>
            let codePoint := ((c0.toNat % 8 * 64 + continuationBits c1) * 64 +
              continuationBits c2) * 64 + continuationBits c3
            isContinuation c1 && isContinuation c2 && isContinuation c3 &&
              decide (0x10000 ≤ codePoint) && decide (codePoint ≤ 0x10FFFF) &&
              isValidUtf8 rest
        | _ => false
      else false

/-- The per-operation field rules.  Both fields of a `Put` or `Batch` that
only a Fence uses must carry their "not applicable" values. -/
def validateAckResult (r : AckResultV1) : Except String Unit :=
  let ok := r.status = .ok
  let noIndex := r.failedIndex = kAckNoFailedIndex
  let sequencesNa := r.throughSequence = 0 ∧ r.failedSequence = kAckNoFailedSequence
  if !isWireStatus r.status then .error "ack result status is not a v1 wire status"
  else if r.message.length > kAckResultMaxMessageLength then
    .error "ack result message exceeds 1024 bytes"
  else if !isValidUtf8 r.message then .error "ack result message is not valid UTF-8"
  else match r.operationKind with
  | .put =>
      if r.durability ≠ .applied then .error "put durability must be applied"
      else if ¬ sequencesNa then .error "put sequence fields are not applicable"
      else if ok then
        if r.appliedCount ≠ 1 then .error "put success applied_count must be 1"
        else if ¬ noIndex then .error "put success has no failed_index"
        else .ok ()
      else if r.appliedCount ≠ 0 then .error "put failure applied_count must be 0"
      else if r.failedIndex ≠ 0 then .error "put failure failed_index must be 0"
      else .ok ()
  | .batch =>
      if r.durability ≠ .applied then .error "batch durability must be applied"
      else if ¬ sequencesNa then .error "batch sequence fields are not applicable"
      else if ok then
        if ¬ noIndex then .error "batch success has no failed_index" else .ok ()
      else if noIndex then
        if r.appliedCount ≠ 0 then
          .error "batch envelope failure applied_count must be 0"
        else .ok ()
      else if r.status = .outcomeUnknown ∧ r.appliedCount ≠ r.failedIndex then
        .error "batch OutcomeUnknown applied_count must equal failed_index"
      else if r.appliedCount ≠ 0 ∧ r.appliedCount ≠ r.failedIndex then
        .error "batch applied_count must be 0 or equal failed_index"
      else .ok ()
  | .fence =>
      if r.appliedCount ≠ 0 then .error "fence applied_count must be 0"
      else if ¬ noIndex then .error "fence has no failed_index"
      else if r.failedSequence ≠ kAckNoFailedSequence ∧ r.failedSequence = 0 then
        .error "fence failed_sequence must be nonzero"
      else if r.failedSequence ≠ kAckNoFailedSequence ∧
          r.failedSequence > r.throughSequence then
        .error "fence failed_sequence exceeds through_sequence"
      else .ok ()

/-- A text is a legal result message when it is short enough and strict
UTF-8. -/
def IsMessage (text : ByteString) : Prop :=
  text.length ≤ kAckResultMaxMessageLength ∧ isValidUtf8 text = true

theorem isMessage_nil : IsMessage [] := by
  simp [IsMessage, isValidUtf8]

/-- The whole validity of a Fence result: the wire status, the message, and a
failed sequence that is either absent or one of `1 .. through`. -/
theorem validateAckResult_fence {r : AckResultV1} (hkind : r.operationKind = .fence)
    (hstatus : isWireStatus r.status = true) (hmessage : IsMessage r.message)
    (hcount : r.appliedCount = 0) (hindex : r.failedIndex = kAckNoFailedIndex)
    (hsequence : r.failedSequence = kAckNoFailedSequence ∨
      (r.failedSequence ≠ 0 ∧ r.failedSequence ≤ r.throughSequence)) :
    validateAckResult r = .ok () := by
  obtain ⟨hlength, hutf8⟩ := hmessage
  have hshort : ¬ r.message.length > kAckResultMaxMessageLength := by omega
  have hzero : ¬ (r.failedSequence ≠ kAckNoFailedSequence ∧ r.failedSequence = 0) := by
    rcases hsequence with hna | ⟨hne, _⟩
    · simp [hna]
    · simp [hne]
  have hrange : ¬ (r.failedSequence ≠ kAckNoFailedSequence ∧
      r.failedSequence > r.throughSequence) := by
    rcases hsequence with hna | ⟨_, hle⟩
    · simp [hna]
    · rintro ⟨_, hgt⟩
      exact absurd hle (UInt64.not_le.mpr hgt)
  simp [validateAckResult, hkind, hstatus, hshort, hutf8, hcount, hindex, hzero, hrange]

end Sitos.AckResult
