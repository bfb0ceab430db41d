import Sitos.Wire.Utf8

/-!
# The acknowledgement result codec

The `sitos.v1.ack` payload: a header of 32 bytes and a message.  The decoder casts the bytes of the
header to enumerations before anything is checked, so a result here carries the numbers, and the
results that pass the check are the ones of `AckResultV1`.
-/

namespace Sitos.AckCodec

open Sitos.AckResult
open Sitos.Bytes
open Sitos.Cursor
open Sitos.Utf8

/-- An `AckResultV1` whose enumerations are whatever their underlying types hold. -/
structure RawAckResult where
  operationKind : UInt8
  status : Int32
  durability : UInt8
  appliedCount : UInt32
  failedIndex : UInt32
  throughSequence : UInt64
  failedSequence : UInt64
  message : ByteString
  deriving DecidableEq

def kindCode : AckOperationKind → UInt8
  | .put => 1
  | .batch => 2
  | .fence => 3

def statusCode : Status → Int32
  | .ok => 0
  | .notFound => 1
  | .typeMismatch => 2
  | .timeout => 3
  | .disconnected => 4
  | .readOnly => 5
  | .invalidKey => 6
  | .invalidArgument => 7
  | .error => 8
  | .outcomeUnknown => 9
  | .stateLost => 10
  | .catalogUnavailable => 11

def durabilityCode : AckDurability → UInt8
  | .applied => 1
  | .synced => 2

def raw (r : AckResultV1) : RawAckResult :=
  { operationKind := kindCode r.operationKind
    status := statusCode r.status
    durability := durabilityCode r.durability
    appliedCount := r.appliedCount
    failedIndex := r.failedIndex
    throughSequence := r.throughSequence
    failedSequence := r.failedSequence
    message := r.message }

/-! ## The check -/

def isWireStatusCode (status : Int32) : Bool :=
  [0, 1, 2, 4, 5, 6, 7, 8, 9, 10, 11].contains status

def validate (r : RawAckResult) : Except String Unit :=
  let ok := r.status = statusCode .ok
  let noIndex := r.failedIndex = kAckNoFailedIndex
  let sequencesNa := r.throughSequence = 0 ∧ r.failedSequence = kAckNoFailedSequence
  if !isWireStatusCode r.status then .error "ack result status is not a v1 wire status"
  else if r.durability ≠ durabilityCode .applied ∧ r.durability ≠ durabilityCode .synced then
    .error "ack result durability is unknown"
  else if r.message.length > kAckResultMaxMessageLength then
    .error "ack result message exceeds 1024 bytes"
  else if !isValidUtf8 r.message then .error "ack result message is not valid UTF-8"
  else if r.operationKind = kindCode .put then
    if r.durability ≠ durabilityCode .applied then .error "put durability must be applied"
    else if ¬ sequencesNa then .error "put sequence fields are not applicable"
    else if ok then
      if r.appliedCount ≠ 1 then .error "put success applied_count must be 1"
      else if ¬ noIndex then .error "put success has no failed_index"
      else .ok ()
    else if r.appliedCount ≠ 0 then .error "put failure applied_count must be 0"
    else if r.failedIndex ≠ 0 then .error "put failure failed_index must be 0"
    else .ok ()
  else if r.operationKind = kindCode .batch then
    if r.durability ≠ durabilityCode .applied then .error "batch durability must be applied"
    else if ¬ sequencesNa then .error "batch sequence fields are not applicable"
    else if ok then
      if ¬ noIndex then .error "batch success has no failed_index" else .ok ()
    else if noIndex then
      if r.appliedCount ≠ 0 then .error "batch envelope failure applied_count must be 0"
      else .ok ()
    else if r.status = statusCode .outcomeUnknown ∧ r.appliedCount ≠ r.failedIndex then
      .error "batch OutcomeUnknown applied_count must equal failed_index"
    else if r.appliedCount ≠ 0 ∧ r.appliedCount ≠ r.failedIndex then
      .error "batch applied_count must be 0 or equal failed_index"
    else .ok ()
  else if r.operationKind = kindCode .fence then
    if r.appliedCount ≠ 0 then .error "fence applied_count must be 0"
    else if ¬ noIndex then .error "fence has no failed_index"
    else if r.failedSequence ≠ kAckNoFailedSequence ∧ r.failedSequence = 0 then
      .error "fence failed_sequence must be nonzero"
    else if r.failedSequence ≠ kAckNoFailedSequence ∧ r.failedSequence > r.throughSequence then
      .error "fence failed_sequence exceeds through_sequence"
    else .ok ()
  else .error "ack result operation_kind is unknown"

/-! ## The codec -/

def kResultSchemaVersion : UInt8 := 1
def kAckResultV1HeaderSize : ℕ := 32

def statusByte (status : Int32) : UInt8 := status.toUInt32.toUInt8

/-- The cast of a byte of the header. -/
def statusOfByte (byte : UInt8) : Int32 := byte.toUInt32.toInt32

/-- The fields in their places. -/
def render (r : RawAckResult) : ByteString :=
  kResultSchemaVersion :: r.operationKind :: statusByte r.status :: r.durability ::
    (leBytes 4 r.appliedCount.toNat ++ (leBytes 4 r.failedIndex.toNat ++
      (leBytes 8 r.throughSequence.toNat ++ (leBytes 8 r.failedSequence.toNat ++
        (leBytes 4 r.message.length ++ r.message)))))

def encodeAckResult (r : RawAckResult) : Except String ByteString := do
  validate r
  pure (render r)

def readLe (payload : ByteString) (offset size : ℕ) : ℕ :=
  leValue ((payload.drop offset).take size)

/-- The fields, as they are cast from the header. -/
def fields (payload : ByteString) (messageLength : ℕ) : RawAckResult :=
  { operationKind := payload.getD 1 0
    status := statusOfByte (payload.getD 2 0)
    durability := payload.getD 3 0
    appliedCount := UInt32.ofNat (readLe payload 4 4)
    failedIndex := UInt32.ofNat (readLe payload 8 4)
    throughSequence := UInt64.ofNat (readLe payload 12 8)
    failedSequence := UInt64.ofNat (readLe payload 20 8)
    message := (payload.drop kAckResultV1HeaderSize).take messageLength }

def decodeAckResult (payload : ByteString) : Except String RawAckResult :=
  if payload.length < kAckResultV1HeaderSize then
    .error "ack result is shorter than the 32-byte header"
  else if payload.getD 0 0 ≠ kResultSchemaVersion then
    .error "ack result schema_version is unknown"
  else
    let messageLength := readLe payload 28 4
    if messageLength > kAckResultMaxMessageLength then
      .error "ack result message exceeds 1024 bytes"
    else if payload.length ≠ kAckResultV1HeaderSize + messageLength then
      .error "ack result length does not match message_length"
    else do
      validate (fields payload messageLength)
      pure (fields payload messageLength)

def readLeAt (payload : Span UInt8) (offset size : ℕ) : Checked ℕ := do
  let bytes ← payload.collect offset size
  pure (leValue bytes)

/-- The decoder at its accesses. -/
def decodeAckResultAt (payload : Span UInt8) : Checked RawAckResult := do
  if payload.size < kAckResultV1HeaderSize then reject
  else if (← payload.at 0) ≠ kResultSchemaVersion then reject
  else
    let operationKind ← payload.at 1
    let status ← payload.at 2
    let durability ← payload.at 3
    let appliedCount ← readLeAt payload 4 4
    let failedIndex ← readLeAt payload 8 4
    let throughSequence ← readLeAt payload 12 8
    let failedSequence ← readLeAt payload 20 8
    let messageLength ← readLeAt payload 28 4
    if messageLength > kAckResultMaxMessageLength then reject
    else
      let expected ← advance kAckResultV1HeaderSize messageLength
      if payload.size ≠ expected then reject
      else
        let message ← payload.subspan kAckResultV1HeaderSize messageLength
        let r : RawAckResult :=
          { operationKind, status := statusOfByte status, durability
            appliedCount := UInt32.ofNat appliedCount
            failedIndex := UInt32.ofNat failedIndex
            throughSequence := UInt64.ofNat throughSequence
            failedSequence := UInt64.ofNat failedSequence
            message }
        match validate r with
        | .error _ => reject
        | .ok () => pure r

/-! ## The format -/

/-- The rows of the result table. -/
inductive FollowsTable (r : AckResultV1) : Prop where
  | putSuccess (kind : r.operationKind = .put) (status : r.status = .ok)
      (durability : r.durability = .applied) (count : r.appliedCount = 1)
      (index : r.failedIndex = kAckNoFailedIndex) (through : r.throughSequence = 0)
      (failed : r.failedSequence = kAckNoFailedSequence)
  | putFailure (kind : r.operationKind = .put) (status : r.status ≠ .ok)
      (durability : r.durability = .applied) (count : r.appliedCount = 0)
      (index : r.failedIndex = 0) (through : r.throughSequence = 0)
      (failed : r.failedSequence = kAckNoFailedSequence)
  | batchSuccess (kind : r.operationKind = .batch) (status : r.status = .ok)
      (durability : r.durability = .applied) (index : r.failedIndex = kAckNoFailedIndex)
      (through : r.throughSequence = 0) (failed : r.failedSequence = kAckNoFailedSequence)
  | batchEnvelope (kind : r.operationKind = .batch) (status : r.status ≠ .ok)
      (durability : r.durability = .applied) (count : r.appliedCount = 0)
      (index : r.failedIndex = kAckNoFailedIndex) (through : r.throughSequence = 0)
      (failed : r.failedSequence = kAckNoFailedSequence)
  -- an entry that is not applied is refused for sure, so its outcome is known
  | batchValidation (kind : r.operationKind = .batch) (status : r.status ≠ .ok)
      (known : r.status ≠ .outcomeUnknown) (durability : r.durability = .applied)
      (count : r.appliedCount = 0) (index : r.failedIndex ≠ kAckNoFailedIndex)
      (through : r.throughSequence = 0) (failed : r.failedSequence = kAckNoFailedSequence)
  | batchApplication (kind : r.operationKind = .batch) (status : r.status ≠ .ok)
      (durability : r.durability = .applied) (count : r.appliedCount = r.failedIndex)
      (index : r.failedIndex ≠ kAckNoFailedIndex) (through : r.throughSequence = 0)
      (failed : r.failedSequence = kAckNoFailedSequence)
  | fence (kind : r.operationKind = .fence) (count : r.appliedCount = 0)
      (index : r.failedIndex = kAckNoFailedIndex)
      (failed : r.failedSequence = kAckNoFailedSequence ∨
        (r.failedSequence ≠ 0 ∧ r.failedSequence ≤ r.throughSequence))

/-- The payload of a result: known enumerators that travel, a message of at most 1024 bytes of
UTF-8, a row of the table, and the fields in their places with nothing left over. -/
structure IsAckResult (payload : ByteString) (r : AckResultV1) : Prop where
  layout : payload = render (raw r)
  status : r.status ≠ .timeout
  message_le : r.message.length ≤ kAckResultMaxMessageLength
  message : IsUtf8 r.message
  table : FollowsTable r

section Validation

theorem ok_of_guard {condition : Prop} [Decidable condition] {message : String}
    {rest : Except String Unit}
    (hok : (if condition then .error message else rest) = .ok ()) : ¬condition ∧ rest = .ok () := by
  split_ifs at hok with hcondition
  exact ⟨hcondition, hok⟩

theorem isWireStatusCode_statusCode (status : Status) :
    isWireStatusCode (statusCode status) = isWireStatus status := by
  cases status <;> decide

theorem exists_statusCode {status : Int32} (hstatus : isWireStatusCode status = true) :
    ∃ known, known ≠ .timeout ∧ statusCode known = status := by
  simp only [isWireStatusCode, List.contains_eq_mem, decide_eq_true_iff, List.mem_cons,
    List.not_mem_nil, or_false] at hstatus
  rcases hstatus with rfl | rfl | rfl | rfl | rfl | rfl | rfl | rfl | rfl | rfl | rfl
  · exact ⟨.ok, nofun, rfl⟩
  · exact ⟨.notFound, nofun, rfl⟩
  · exact ⟨.typeMismatch, nofun, rfl⟩
  · exact ⟨.disconnected, nofun, rfl⟩
  · exact ⟨.readOnly, nofun, rfl⟩
  · exact ⟨.invalidKey, nofun, rfl⟩
  · exact ⟨.invalidArgument, nofun, rfl⟩
  · exact ⟨.error, nofun, rfl⟩
  · exact ⟨.outcomeUnknown, nofun, rfl⟩
  · exact ⟨.stateLost, nofun, rfl⟩
  · exact ⟨.catalogUnavailable, nofun, rfl⟩

theorem statusCode_eq_iff (first second : Status) :
    statusCode first = statusCode second ↔ first = second := by
  cases first <;> cases second <;> decide

theorem kindCode_eq_iff (first second : AckOperationKind) :
    kindCode first = kindCode second ↔ first = second := by
  cases first <;> cases second <;> decide

/-- On known enumerators the check is the one of the results. -/
theorem validate_raw (r : AckResultV1) : validate (raw r) = validateAckResult r := by
  obtain ⟨kind, status, durability, count, index, through, failed, message⟩ := r
  have hdurability : ¬(durabilityCode durability ≠ durabilityCode .applied ∧
      durabilityCode durability ≠ durabilityCode .synced) := by
    cases durability <;> decide
  have happlied : durabilityCode durability ≠ durabilityCode .applied ↔ durability ≠ .applied := by
    cases durability <;> decide
  simp only [validate, raw, isWireStatusCode_statusCode, if_neg hdurability, statusCode_eq_iff,
    kindCode_eq_iff, validateAckResult]
  simp only [happlied]
  cases kind with
  | put =>
      simp only [if_true]
      congr!
  | batch =>
      simp only [reduceCtorEq, if_true, if_false]
      congr!
  | fence =>
      simp only [reduceCtorEq, if_true, if_false]
      congr!

theorem followsTable_of_validate {r : AckResultV1} (hvalid : validateAckResult r = .ok ()) :
    FollowsTable r := by
  obtain ⟨kind, status, durability, count, index, through, failed, message⟩ := r
  cases kind with
  | put =>
      simp only [validateAckResult] at hvalid
      split_ifs at hvalid with _ _ _ happlied hsequences hok hcount hindex hcount hindex
      · exact .putSuccess rfl hok (not_not.mp happlied) (not_not.mp hcount) hindex
          hsequences.1 hsequences.2
      · exact .putFailure rfl hok (not_not.mp happlied) (not_not.mp hcount) (not_not.mp hindex)
          hsequences.1 hsequences.2
  | batch =>
      simp only [validateAckResult] at hvalid
      split_ifs at hvalid with _ _ _ happlied hsequences hok hindex hindex hcount hunknown hcount
      · exact .batchSuccess rfl hok (not_not.mp happlied) hindex
          hsequences.1 hsequences.2
      · exact .batchEnvelope rfl hok (not_not.mp happlied) (not_not.mp hcount) hindex
          hsequences.1 hsequences.2
      · by_cases happlication : count = index
        · exact .batchApplication rfl hok (not_not.mp happlied) happlication hindex
            hsequences.1 hsequences.2
        · have hzero : count = 0 := not_not.mp fun h => hcount ⟨h, happlication⟩
          exact .batchValidation rfl hok (fun h => hunknown ⟨h, happlication⟩) (not_not.mp happlied)
            hzero hindex hsequences.1 hsequences.2
  | fence =>
      simp only [validateAckResult] at hvalid
      split_ifs at hvalid with _ _ _ hcount hindex hzero hrange
      refine .fence rfl (not_not.mp hcount) hindex ?_
      by_cases hnone : failed = kAckNoFailedSequence
      · exact .inl hnone
      · exact .inr ⟨fun h => hzero ⟨hnone, h⟩, UInt64.not_lt.mp fun h => hrange ⟨hnone, h⟩⟩

theorem validate_of_followsTable {r : AckResultV1} (hstatus : isWireStatus r.status = true)
    (hmessage : IsMessage r.message) (htable : FollowsTable r) : validateAckResult r = .ok () := by
  have hshort : ¬r.message.length > kAckResultMaxMessageLength := not_lt.mpr hmessage.1
  have hutf8 := hmessage.2
  cases htable with
  | putSuccess kind status durability count index through failed =>
      simp [validateAckResult, hshort, hutf8, kind, status, durability, count, index, through,
        failed, isWireStatus]
  | putFailure kind status durability count index through failed =>
      simp [validateAckResult, hstatus, hshort, hutf8, kind, status, durability, count, index,
        through, failed]
  | batchSuccess kind status durability index through failed =>
      simp [validateAckResult, hshort, hutf8, kind, status, durability, index, through,
        failed, isWireStatus]
  | batchEnvelope kind status durability count index through failed =>
      simp [validateAckResult, hstatus, hshort, hutf8, kind, status, durability, count, index,
        through, failed]
  | batchValidation kind status known durability count index through failed =>
      simp [validateAckResult, hstatus, hshort, hutf8, kind, status, known, durability, count,
        index, through, failed]
  | batchApplication kind status durability count index through failed =>
      simp [validateAckResult, hstatus, hshort, hutf8, kind, status, durability, count, index,
        through, failed]
  | fence kind count index failed =>
      exact validateAckResult_fence kind hstatus hmessage count index failed

theorem validateAckResult_iff (r : AckResultV1) :
    validateAckResult r = .ok () ↔
      r.status ≠ .timeout ∧ IsMessage r.message ∧ FollowsTable r := by
  constructor
  · intro hvalid
    refine ⟨?_, ?_, followsTable_of_validate hvalid⟩
    · intro hstatus
      simp [validateAckResult, hstatus, isWireStatus] at hvalid
    · obtain ⟨-, hvalid⟩ := ok_of_guard hvalid
      obtain ⟨hlength, hvalid⟩ := ok_of_guard hvalid
      obtain ⟨hutf8, -⟩ := ok_of_guard hvalid
      exact ⟨not_lt.mp hlength, by simpa using hutf8⟩
  · rintro ⟨hstatus, hmessage, htable⟩
    refine validate_of_followsTable ?_ hmessage htable
    revert hstatus
    cases r.status <;> decide

/-- What passes the check is a result. -/
theorem exists_raw_of_validate {r : RawAckResult} (hvalid : validate r = .ok ()) :
    ∃ known, raw known = r := by
  obtain ⟨kind, status, durability, count, index, through, failed, message⟩ := r
  obtain ⟨hstatus, hvalid⟩ := ok_of_guard hvalid
  obtain ⟨hdurability, hvalid⟩ := ok_of_guard hvalid
  obtain ⟨-, hvalid⟩ := ok_of_guard hvalid
  obtain ⟨-, hvalid⟩ := ok_of_guard hvalid
  obtain ⟨status, -, rfl⟩ := exists_statusCode (by simpa using hstatus)
  obtain ⟨durability, rfl⟩ : ∃ known, durabilityCode known = durability := by
    by_cases happlied : durability = durabilityCode .applied
    · exact ⟨.applied, happlied.symm⟩
    · exact ⟨.synced, (not_not.mp fun h => hdurability ⟨happlied, h⟩).symm⟩
  obtain ⟨kind, rfl⟩ : ∃ known, kindCode known = kind := by
    by_cases hput : kind = kindCode .put
    · exact ⟨.put, hput.symm⟩
    by_cases hbatch : kind = kindCode .batch
    · exact ⟨.batch, hbatch.symm⟩
    by_cases hfence : kind = kindCode .fence
    · exact ⟨.fence, hfence.symm⟩
    simp only [if_neg hput, if_neg hbatch, if_neg hfence] at hvalid
    cases hvalid
  exact ⟨⟨kind, status, durability, count, index, through, failed, message⟩, rfl⟩

end Validation

section Layout

variable {payload tail : ByteString} {offset size value : ℕ}

theorem readLe_eq (hpayload : payload.drop offset = leBytes size value ++ tail)
    (hvalue : value < 256 ^ size) :
    readLe payload offset size = value ∧ payload.drop (offset + size) = tail := by
  have hlength : (leBytes size value).length = size := length_leBytes size value
  rw [readLe, hpayload, List.take_left' hlength, leValue_leBytes hvalue]
  refine ⟨rfl, ?_⟩
  rw [← List.drop_drop, hpayload, List.drop_left' hlength]

theorem drop_eq_leBytes (hfits : offset + size ≤ payload.length) :
    payload.drop offset = leBytes size (readLe payload offset size) ++ payload.drop (offset + size) := by
  have hlength : ((payload.drop offset).take size).length = size := by
    rw [List.length_take, List.length_drop]
    omega
  have hbytes := leBytes_leValue ((payload.drop offset).take size)
  rw [hlength] at hbytes
  rw [readLe, hbytes, ← List.drop_drop, List.take_append_drop]

theorem readLe_lt (payload : ByteString) (offset size : ℕ) : readLe payload offset size < 256 ^ size := by
  refine lt_of_lt_of_le (leValue_lt _) (Nat.pow_le_pow_right (by decide) ?_)
  rw [List.length_take]
  exact min_le_left _ _

theorem length_render (r : RawAckResult) :
    (render r).length = kAckResultV1HeaderSize + r.message.length := by
  simp only [render, List.length_cons, List.length_append, length_leBytes, kAckResultV1HeaderSize]
  omega

theorem toNat_uint32 {value : ℕ} (hvalue : value < 256 ^ 4) :
    (UInt32.ofNat value).toNat = value := by
  rw [UInt32.toNat_ofNat']
  exact Nat.mod_eq_of_lt hvalue

theorem toNat_uint64 {value : ℕ} (hvalue : value < 256 ^ 8) :
    (UInt64.ofNat value).toNat = value := by
  rw [UInt64.toNat_ofNat']
  exact Nat.mod_eq_of_lt hvalue

/-- The fields are read back from where they are written. -/
theorem fields_render {r : RawAckResult} (hstatus : statusOfByte (statusByte r.status) = r.status)
    (hmessage : r.message.length < 256 ^ 4) :
    fields (render r) r.message.length = r ∧ readLe (render r) 28 4 = r.message.length := by
  -- each field starts where the one before it ends
  have hstart : (render r).drop 4 = leBytes 4 r.appliedCount.toNat ++ _ := rfl
  obtain ⟨hcount, hafter⟩ := readLe_eq hstart r.appliedCount.toNat_lt
  obtain ⟨hindex, hafter⟩ := readLe_eq hafter r.failedIndex.toNat_lt
  obtain ⟨hthrough, hafter⟩ := readLe_eq hafter r.throughSequence.toNat_lt
  obtain ⟨hfailed, hafter⟩ := readLe_eq hafter r.failedSequence.toNat_lt
  obtain ⟨hsize, hafter⟩ := readLe_eq hafter hmessage
  have htext : ((render r).drop kAckResultV1HeaderSize).take r.message.length = r.message := by
    rw [show kAckResultV1HeaderSize = 4 + 4 + 4 + 8 + 8 + 4 from rfl, hafter, List.take_length]
  refine ⟨?_, hsize⟩
  rw [fields, show (render r).getD 1 0 = r.operationKind from rfl,
    show (render r).getD 2 0 = statusByte r.status from rfl,
    show (render r).getD 3 0 = r.durability from rfl, hstatus, hcount, hindex, hthrough, hfailed,
    htext]
  simp only [UInt32.ofNat_toNat, UInt64.ofNat_toNat]

/-- The fields of a payload are written as the payload. -/
theorem render_fields (hversion : payload.getD 0 0 = kResultSchemaVersion)
    (hlength : payload.length = kAckResultV1HeaderSize + readLe payload 28 4) :
    render (fields payload (readLe payload 28 4)) = payload := by
  rw [kAckResultV1HeaderSize] at hlength
  have htext : (payload.drop 32).take (readLe payload 28 4) = payload.drop 32 := by
    rw [List.take_of_length_le]
    rw [List.length_drop]
    omega
  have hsize : (payload.drop 32).length = readLe payload 28 4 := by
    rw [List.length_drop]
    omega
  have hstatus (byte : UInt8) : statusByte (statusOfByte byte) = byte := by
    simp [statusByte, statusOfByte]
  rw [render, fields, hstatus, kAckResultV1HeaderSize, htext, hsize]
  rw [toNat_uint32 (readLe_lt ..), toNat_uint32 (readLe_lt ..), toNat_uint64 (readLe_lt ..),
    toNat_uint64 (readLe_lt ..)]
  rw [← drop_eq_leBytes (by omega : 28 + 4 ≤ payload.length),
    ← drop_eq_leBytes (by omega : 20 + 8 ≤ payload.length),
    ← drop_eq_leBytes (by omega : 12 + 8 ≤ payload.length),
    ← drop_eq_leBytes (by omega : 8 + 4 ≤ payload.length),
    ← drop_eq_leBytes (by omega : 4 + 4 ≤ payload.length), ← hversion]
  match payload, hlength with
  | _ :: _ :: _ :: _ :: _, _ => rfl

/-- The decoder checks what the encoder has written. -/
theorem decodeAckResult_render {r : RawAckResult} (hstatus : statusOfByte (statusByte r.status) = r.status)
    (hmessage : r.message.length ≤ kAckResultMaxMessageLength) (hvalid : validate r = .ok ()) :
    decodeAckResult (render r) = .ok r := by
  have hlength := length_render r
  obtain ⟨hfields, hsize⟩ := fields_render hstatus (lt_of_le_of_lt hmessage (by decide))
  have hheader : ¬(render r).length < kAckResultV1HeaderSize := by omega
  have hversion : ¬(render r).getD 0 0 ≠ kResultSchemaVersion := not_not.mpr rfl
  unfold decodeAckResult
  simp only [if_neg hheader, if_neg hversion, hsize, if_neg (not_lt.mpr hmessage),
    if_neg (not_not.mpr hlength), hfields, hvalid]
  rfl

/-- What is decoded is written as the payload. -/
theorem render_of_decodeAckResult {r : RawAckResult} (hdecoded : decodeAckResult payload = .ok r) :
    validate r = .ok () ∧ render r = payload := by
  unfold decodeAckResult at hdecoded
  simp only at hdecoded
  split_ifs at hdecoded with hheader hversion hlong hlength
  cases hvalid : validate (fields payload (readLe payload 28 4)) with
  | error message =>
      rw [hvalid] at hdecoded
      cases hdecoded
  | ok _ =>
      rw [hvalid] at hdecoded
      obtain rfl := Except.ok.inj hdecoded
      exact ⟨hvalid, render_fields (not_not.mp hversion) (not_not.mp hlength)⟩

end Layout


/-! ## The accesses of the decoder -/

section Accesses

variable {payload : Span UInt8}

theorem at_eq_getD {index : ℕ} (hindex : index < payload.size) :
    payload.at index = pure (payload.data.getD index 0) := by
  rw [Span.size] at hindex
  rw [Span.at_eq (List.getElem?_eq_getElem hindex), List.getD_eq_getElem _ _ hindex]

theorem readLeAt_eq {offset size : ℕ} (hfits : offset + size ≤ payload.size) :
    readLeAt payload offset size = pure (readLe payload.data offset size) := by
  rw [readLeAt, Span.collect_eq hfits, pure_bind, readLe]

/-- The decoder reads inside the payload. -/
theorem decodeAckResultAt_eq (payload : Span UInt8) :
    decodeAckResultAt payload = (decodeAckResult payload.data).toOption.elim reject pure := by
  have hsize : payload.data.length = payload.size := rfl
  unfold decodeAckResultAt decodeAckResult
  rw [hsize]
  by_cases hheader : payload.size < kAckResultV1HeaderSize
  · rw [if_pos hheader, if_pos hheader]
    rfl
  have hlong : 32 ≤ payload.size := not_lt.mp hheader
  rw [if_neg hheader, if_neg hheader, at_eq_getD (by omega), pure_bind]
  by_cases hversion : payload.data.getD 0 0 ≠ kResultSchemaVersion
  · rw [if_pos hversion, if_pos hversion]
    rfl
  rw [if_neg hversion, if_neg hversion, at_eq_getD (by omega), at_eq_getD (by omega),
    at_eq_getD (by omega), readLeAt_eq (by omega), readLeAt_eq (by omega), readLeAt_eq (by omega),
    readLeAt_eq (by omega), readLeAt_eq (by omega)]
  simp only [pure_bind]
  by_cases hmessage : readLe payload.data 28 4 > kAckResultMaxMessageLength
  · rw [if_pos hmessage, if_pos hmessage]
    rfl
  have hshort : readLe payload.data 28 4 ≤ 1024 := not_lt.mp hmessage
  rw [if_neg hmessage, if_neg hmessage,
    advance_eq (by rw [kAckResultV1HeaderSize]; omega), pure_bind]
  by_cases hexact : payload.size ≠ kAckResultV1HeaderSize + readLe payload.data 28 4
  · rw [if_pos hexact, if_pos hexact]
    rfl
  have hfits : readLe payload.data 28 4 ≤ payload.size - kAckResultV1HeaderSize := by
    rw [not_not.mp hexact]
    omega
  rw [if_neg hexact, if_neg hexact, Span.subspan_eq (not_lt.mp hheader) hfits, pure_bind]
  rw [show ({
    operationKind := payload.data.getD 1 0, status := statusOfByte (payload.data.getD 2 0),
    durability := payload.data.getD 3 0, appliedCount := UInt32.ofNat (readLe payload.data 4 4),
    failedIndex := UInt32.ofNat (readLe payload.data 8 4),
    throughSequence := UInt64.ofNat (readLe payload.data 12 8),
    failedSequence := UInt64.ofNat (readLe payload.data 20 8),
    message := (payload.data.drop kAckResultV1HeaderSize).take (readLe payload.data 28 4) } :
      RawAckResult) = fields payload.data (readLe payload.data 28 4) from rfl]
  cases validate (fields payload.data (readLe payload.data 28 4)) with
  | error message => rfl
  | ok _ => rfl

end Accesses

theorem statusOfByte_statusByte {status : Int32} (hstatus : isWireStatusCode status = true) :
    statusOfByte (statusByte status) = status := by
  obtain ⟨known, -, rfl⟩ := exists_statusCode hstatus
  cases known <;> decide

theorem encodeAckResult_eq_ok_iff {r : RawAckResult} {bytes : ByteString} :
    encodeAckResult r = .ok bytes ↔ validate r = .ok () ∧ render r = bytes := by
  rw [encodeAckResult]
  cases hvalid : validate r with
  | error message => exact ⟨nofun, fun h => (nomatch h.1)⟩
  | ok _ => exact ⟨fun h => ⟨rfl, Except.ok.inj h⟩, fun h => congrArg Except.ok h.2⟩

theorem decode_of_encode {r : RawAckResult} {bytes : ByteString}
    (hencoded : encodeAckResult r = .ok bytes) : decodeAckResult bytes = .ok r := by
  obtain ⟨hvalid, rfl⟩ := encodeAckResult_eq_ok_iff.mp hencoded
  obtain ⟨hstatus, hrest⟩ := ok_of_guard hvalid
  obtain ⟨-, hrest⟩ := ok_of_guard hrest
  obtain ⟨hmessage, -⟩ := ok_of_guard hrest
  exact decodeAckResult_render (statusOfByte_statusByte (by simpa using hstatus)) (not_lt.mp hmessage)
    hvalid

/-- The decoder accepts the payloads of results, and nothing else. -/
theorem decodeAckResult_eq_ok_iff {payload : ByteString} {r : RawAckResult} :
    decodeAckResult payload = .ok r ↔ ∃ known, raw known = r ∧ IsAckResult payload known := by
  constructor
  · intro hdecoded
    obtain ⟨hvalid, hrender⟩ := render_of_decodeAckResult hdecoded
    obtain ⟨known, rfl⟩ := exists_raw_of_validate hvalid
    rw [validate_raw] at hvalid
    obtain ⟨hstatus, hmessage, htable⟩ := (validateAckResult_iff known).mp hvalid
    exact ⟨known, rfl, hrender.symm, hstatus, hmessage.1, (isValidUtf8_iff _).mp hmessage.2, htable⟩
  · rintro ⟨known, rfl, hresult⟩
    have hmessage : IsMessage known.message :=
      ⟨hresult.message_le, (isValidUtf8_iff _).mpr hresult.message⟩
    have hvalid := (validateAckResult_iff known).mpr ⟨hresult.status, hmessage, hresult.table⟩
    rw [← validate_raw] at hvalid
    exact decode_of_encode (encodeAckResult_eq_ok_iff.mpr ⟨hvalid, hresult.layout.symm⟩)

/-- Exactly the valid results are encoded, and they are read back; what is decoded is valid and is
encoded as it was; what is accepted is the payload of a result; and neither the decoder nor the
UTF-8 check leaves the bytes it is given. -/
theorem ackResultCodec_exact :
    (∀ r, (∃ bytes, encodeAckResult r = .ok bytes) ↔ validate r = .ok ()) ∧
    (∀ r bytes, encodeAckResult r = .ok bytes → decodeAckResult bytes = .ok r) ∧
    (∀ bytes r, decodeAckResult bytes = .ok r →
      validate r = .ok () ∧ encodeAckResult r = .ok bytes) ∧
    (∀ bytes r, decodeAckResult bytes = .ok r ↔ ∃ known, raw known = r ∧ IsAckResult bytes known) ∧
    (∀ payload : Span UInt8,
      decodeAckResultAt payload = (decodeAckResult payload.data).toOption.elim reject pure) ∧
    ∀ text : Span UInt8, isValidUtf8At text (text.size + 1) 0 = pure (isValidUtf8 text.data) := by
  refine ⟨?_, fun _ _ => decode_of_encode, ?_, fun _ _ => decodeAckResult_eq_ok_iff,
    decodeAckResultAt_eq, ?_⟩
  · intro r
    constructor
    · rintro ⟨bytes, hencoded⟩
      exact (encodeAckResult_eq_ok_iff.mp hencoded).1
    · intro hvalid
      exact ⟨render r, encodeAckResult_eq_ok_iff.mpr ⟨hvalid, rfl⟩⟩
  · intro bytes r hdecoded
    obtain ⟨hvalid, hrender⟩ := render_of_decodeAckResult hdecoded
    exact ⟨hvalid, encodeAckResult_eq_ok_iff.mpr ⟨hvalid, hrender⟩⟩
  · intro text
    exact isValidUtf8At_eq (by omega) (Nat.zero_le _)

theorem ackResultCodec_exact_put :
    decodeAckResult (render ⟨1, 0, 1, 1, kAckNoFailedIndex, 0, kAckNoFailedSequence, []⟩) =
      .ok ⟨1, 0, 1, 1, kAckNoFailedIndex, 0, kAckNoFailedSequence, []⟩ :=
  ackResultCodec_exact.2.1 _ _ (by decide)

end Sitos.AckCodec
