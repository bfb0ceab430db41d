import Sitos.Wire.AckResult
import Sitos.Wire.Sample

/-!
# Parameter application at the node

How the node turns one parameter sample into engine calls and a typed result.
Engines are outside the node: a call acts on the caller's state and ends by
returning a flag or by throwing, which leaves the function at that point.  The
progress record is what an unwinding caller can still read.
-/

namespace Sitos.Apply

open Sitos.Bytes
open Sitos.AckResult
open Sitos.Batch
open Sitos.Key
open Sitos.Sample
open Sitos.Value

inductive LogLevel where
  | warning
  | error
  deriving DecidableEq, Repr

abbrev SubscriberDiagnostics := List (LogLevel × String)

def kUnsupportedSubscriberKey := "unsupported subscriber key"
def kUnknownSubscriberEncoding := "unknown subscriber encoding; wrapped as bytes"
def kSubscriberPutFailed := "subscriber PUT failed"
def kSubscriberDeleteFailed := "subscriber DELETE failed"
def kMalformedBatchPayload := "malformed batch payload"
def kInvalidBatchEntry := "invalid batch entry key"
def kInvalidBatchOperation := "invalid batch operation or encoding"
def kReadOnlySnapshotKey := "read-only snapshot key"
def kUnknownSession := "unknown session"
def kSessionStateLost := "session parameter state was released; write rejected"
def kInvalidAckPayload := "invalid sitos.v1 payload; sample rejected"
def kAckUnsupportedOperation :=
  "acknowledgement not supported for this operation; sample rejected"

/-- The engine a write goes to. -/
inductive Target where
  | base
  | overlay (sid : ByteString)
  deriving DecidableEq, Repr

inductive CallEnd where
  | returned (ok : Bool)
  | threw
  deriving DecidableEq, Repr

structure Engines (State : Type) where
  put : State → Target → ByteString → ByteString → State × CallEnd
  delete : State → Target → ByteString → State × CallEnd

/-- What `AcquireSession` finds: no admissible record, a record without its
parameter state, or an active one. -/
inductive SessionAccess where
  | unknown
  | stateLost
  | active
  deriving DecidableEq, Repr

structure AckApplyProgress where
  kind : AckOperationKind
  engineInvoked : Bool
  appliedCount : UInt32
  currentIndex : UInt32
  deriving DecidableEq, Repr

def makeAckResult (kind : AckOperationKind) (status : Status)
    (appliedCount failedIndex : UInt32) : AckResultV1 :=
  { operationKind := kind, status, durability := .applied, appliedCount, failedIndex,
    throughSequence := 0, failedSequence := kAckNoFailedSequence, message := [] }

def putFailure (status : Status) : AckResultV1 := makeAckResult .put status 0 0

/-- How an application ended.  The progress record exists for acknowledged
samples only; the result is absent when an exception left the function. -/
structure Applied (State : Type) where
  state : State
  progress : Option AckApplyProgress
  diagnostics : SubscriberDiagnostics
  result : Option AckResultV1

variable {State : Type}

def AckApplyProgress.invoke (progress : AckApplyProgress) : AckApplyProgress :=
  { progress with engineInvoked := true }

/-- The tail of a single write: the engine call and its verdict. -/
def finishWrite (call : State × CallEnd) (progress : Option AckApplyProgress)
    (diagnostics : SubscriberDiagnostics) (failed : String) : Applied State :=
  match call with
  | (state, .threw) => ⟨state, progress, diagnostics, none⟩
  | (state, .returned true) =>
      ⟨state, progress, diagnostics, some (makeAckResult .put .ok 1 kAckNoFailedIndex)⟩
  | (state, .returned false) =>
      ⟨state, progress, diagnostics ++ [(.error, failed)], some (putFailure .outcomeUnknown)⟩

def applyWrite (engines : Engines State) (state : State) (target : Target)
    (relativeKey : ByteString) (sample : TransportSample)
    (progress : Option AckApplyProgress) : Applied State :=
  if sample.kind = .delete then
    finishWrite (engines.delete state target relativeKey)
      (progress.map AckApplyProgress.invoke) [] kSubscriberDeleteFailed
  else if sample.encodingId ≠ kSitosV1 then
    finishWrite (engines.put state target relativeKey (encode (.bytes sample.payload)))
      (progress.map AckApplyProgress.invoke) [(.warning, kUnknownSubscriberEncoding)]
      kSubscriberPutFailed
  else if progress.isSome ∧ decode sample.payload = none then
    -- only an acknowledged write is decoded; the others pass through as they are
    ⟨state, progress, [(.warning, kInvalidAckPayload)], some (putFailure .invalidArgument)⟩
  else
    finishWrite (engines.put state target relativeKey sample.payload)
      (progress.map AckApplyProgress.invoke) [] kSubscriberPutFailed

structure EncodedBatchEntry where
  key : ByteString
  value : ByteString
  deriving DecidableEq, Repr

/-- Validates and encodes the entries from `index` on, or names the first
invalid one. -/
def materialize : ℕ → List BatchEntry → Except ℕ (List EncodedBatchEntry)
  | _, [] => .ok []
  | index, entry :: entries =>
      if !isValidKey entry.key then .error index
      else
        (materialize (index + 1) entries).map fun encoded =>
          ⟨entry.key, encode entry.value⟩ :: encoded

/-- Puts the entries in caller order and stops at the first failure. -/
def putEntries (engines : Engines State) (target : Target) :
    ℕ → List EncodedBatchEntry → State → Option AckApplyProgress → Applied State
  | index, [], state, progress =>
      ⟨state, progress, [],
        some (makeAckResult .batch .ok (UInt32.ofNat index) kAckNoFailedIndex)⟩
  | index, entry :: entries, state, progress =>
      let progress := progress.map fun p =>
        { p with currentIndex := UInt32.ofNat index, engineInvoked := true }
      match engines.put state target entry.key entry.value with
      | (state, .threw) => ⟨state, progress, [], none⟩
      | (state, .returned false) =>
          ⟨state, progress, [(.error, kSubscriberPutFailed)],
            some (makeAckResult .batch .outcomeUnknown (UInt32.ofNat index)
              (UInt32.ofNat index))⟩
      | (state, .returned true) =>
          putEntries engines target (index + 1) entries state
            (progress.map fun p => { p with appliedCount := UInt32.ofNat (index + 1) })

def applyBatch (engines : Engines State) (state : State) (target : Target)
    (payload : ByteString) (progress : Option AckApplyProgress) : Applied State :=
  match decodeBatch payload with
  | none =>
      ⟨state, progress, [(.warning, kMalformedBatchPayload)],
        some (makeAckResult .batch .invalidArgument 0 kAckNoFailedIndex)⟩
  | some decoded =>
      match materialize 0 decoded with
      | .error index =>
          ⟨state, progress, [(.warning, kInvalidBatchEntry)],
            some (makeAckResult .batch .invalidArgument 0 (UInt32.ofNat index))⟩
      | .ok entries => putEntries engines target 0 entries state progress

def isBatchPut (sample : TransportSample) : Bool :=
  sample.kind == .put && sample.encodingId == kSitosV1Batch

/-- Refuses without touching an engine. -/
def reject (state : State) (progress : Option AckApplyProgress) (level : LogLevel)
    (message : String) (result : AckResultV1) : Applied State :=
  ⟨state, progress, [(level, message)], some result⟩

def applyBatchSample (engines : Engines State) (access : ByteString → SessionAccess)
    (state : State) (parsed : ParsedKey) (sample : TransportSample)
    (progress : Option AckApplyProgress) : Applied State :=
  let progress := progress.map fun p => { p with kind := .batch }
  if !isBatchPut sample then
    reject state progress .warning kInvalidBatchOperation
      (makeAckResult .batch .invalidArgument 0 kAckNoFailedIndex)
  else if parsed.kind = .base then
    applyBatch engines state .base sample.payload progress
  else
    match access parsed.sid with
    | .unknown =>
        reject state progress .warning kUnknownSession
          (makeAckResult .batch .notFound 0 kAckNoFailedIndex)
    | .stateLost =>
        reject state progress .warning kSessionStateLost
          (makeAckResult .batch .stateLost 0 kAckNoFailedIndex)
    | .active => applyBatch engines state (.overlay parsed.sid) sample.payload progress

/-- The parameter part of the application.  An acknowledgement-free buffer
sample goes to `applyBuffer`, which the buffer modules define. -/
def applyParameterSample (engines : Engines State) (access : ByteString → SessionAccess)
    (applyBuffer : State → ParsedKey → TransportSample → Applied State)
    (keyPrefix : ByteString) (state : State) (sample : TransportSample)
    (progress : Option AckApplyProgress) : Applied State :=
  match parseKey keyPrefix sample.key with
  | none =>
      reject state progress .warning kUnsupportedSubscriberKey (putFailure .invalidKey)
  | some parsed =>
      if parsed.isBatch then applyBatchSample engines access state parsed sample progress
      else if progress.isSome ∧ sample.kind = .delete then
        reject state progress .warning kAckUnsupportedOperation (putFailure .invalidArgument)
      else
        match parsed.kind with
        | .buffer =>
            if progress.isSome then
              reject state progress .warning kAckUnsupportedOperation
                (putFailure .invalidArgument)
            else applyBuffer state parsed sample
        | .base => applyWrite engines state .base parsed.relativeKey sample progress
        | .session =>
            match access parsed.sid with
            | .unknown =>
                reject state progress .warning kUnknownSession (putFailure .notFound)
            | .stateLost =>
                reject state progress .warning kSessionStateLost (putFailure .stateLost)
            | .active =>
                applyWrite engines state (.overlay parsed.sid) parsed.relativeKey sample
                  progress
        | .snapshot =>
            reject state progress .warning kReadOnlySnapshotKey (putFailure .readOnly)
        | .metaSession | .metaAck =>
            reject state progress .warning kUnsupportedSubscriberKey (putFailure .invalidKey)

/-! ## What every application preserves -/

section Preserves

variable {Invariant : State → Prop} {engines : Engines State}

theorem finishWrite_state (call : State × CallEnd) (progress : Option AckApplyProgress)
    (diagnostics : SubscriberDiagnostics) (failed : String) :
    (finishWrite call progress diagnostics failed).state = call.1 := by
  obtain ⟨state, callEnd⟩ := call
  cases callEnd with
  | threw => rfl
  | returned ok => cases ok <;> rfl

theorem putEntries_preserves
    (hput : ∀ state target key value, Invariant state →
      Invariant (engines.put state target key value).1)
    (target : Target) (index : ℕ) (entries : List EncodedBatchEntry) {state : State}
    (progress : Option AckApplyProgress) (hstate : Invariant state) :
    Invariant (putEntries engines target index entries state progress).state := by
  induction entries generalizing index state progress with
  | nil => exact hstate
  | cons entry entries ih =>
      have hnext := hput state target entry.key entry.value hstate
      simp only [putEntries]
      split
      · next hcall =>
          rw [hcall] at hnext
          exact hnext
      · next hcall =>
          rw [hcall] at hnext
          exact hnext
      · next hcall =>
          rw [hcall] at hnext
          exact ih _ _ hnext

theorem applyBatch_preserves
    (hput : ∀ state target key value, Invariant state →
      Invariant (engines.put state target key value).1)
    (target : Target) (payload : ByteString) {state : State}
    (progress : Option AckApplyProgress) (hstate : Invariant state) :
    Invariant (applyBatch engines state target payload progress).state := by
  unfold applyBatch
  split
  · exact hstate
  · split
    · exact hstate
    · exact putEntries_preserves hput target 0 _ progress hstate

theorem applyWrite_preserves
    (hput : ∀ state target key value, Invariant state →
      Invariant (engines.put state target key value).1)
    (hdelete : ∀ state target key, Invariant state →
      Invariant (engines.delete state target key).1)
    (target : Target) (relativeKey : ByteString) (sample : TransportSample) {state : State}
    (progress : Option AckApplyProgress) (hstate : Invariant state) :
    Invariant (applyWrite engines state target relativeKey sample progress).state := by
  unfold applyWrite
  split_ifs
  · rw [finishWrite_state]
    exact hdelete _ _ _ hstate
  · rw [finishWrite_state]
    exact hput _ _ _ _ hstate
  · exact hstate
  · rw [finishWrite_state]
    exact hput _ _ _ _ hstate

/-- What the engine calls preserve, a whole application preserves. -/
theorem applyParameterSample_preserves
    (hput : ∀ state target key value, Invariant state →
      Invariant (engines.put state target key value).1)
    (hdelete : ∀ state target key, Invariant state →
      Invariant (engines.delete state target key).1)
    {applyBuffer : State → ParsedKey → TransportSample → Applied State}
    (hbuffer : ∀ state parsed sample, Invariant state →
      Invariant (applyBuffer state parsed sample).state)
    (access : ByteString → SessionAccess) (keyPrefix : ByteString) (sample : TransportSample)
    {state : State} (progress : Option AckApplyProgress) (hstate : Invariant state) :
    Invariant (applyParameterSample engines access applyBuffer keyPrefix state sample
      progress).state := by
  unfold applyParameterSample
  split
  · exact hstate
  · split
    · unfold applyBatchSample
      split_ifs
      · exact hstate
      · exact applyBatch_preserves hput _ _ _ hstate
      · split
        · exact hstate
        · exact hstate
        · exact applyBatch_preserves hput _ _ _ hstate
    · split
      · exact hstate
      · split
        · split
          · exact hstate
          · exact hbuffer _ _ _ hstate
        · exact applyWrite_preserves hput hdelete _ _ _ _ hstate
        · split
          · exact hstate
          · exact hstate
          · exact applyWrite_preserves hput hdelete _ _ _ _ hstate
        · exact hstate
        · exact hstate
        · exact hstate

end Preserves

end Sitos.Apply
