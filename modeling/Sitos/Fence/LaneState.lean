import Sitos.Core.Machine
import Sitos.Fence.Diagnostic

/-!
# One Fence receiver lane

A lane keeps a constant-size proof about one publisher's sequence: what was
reserved, what was completed, the highest sequence seen, and the first failure.
A marker is answered from that proof alone.

Latching the first failure copies its diagnostic, which allocates.  The memory
argument of each operation says whether that allocation succeeds; a call that
runs out of memory leaves the object as the exception found it.
-/

namespace Sitos.LaneState

open Sitos.Bytes
open Sitos.AckResult
open Sitos.Diagnostic
open Sitos.Machine

def kFenceLaneLaterFailureCountMax : UInt8 := 255

structure FenceFirstFailure where
  status : Status
  sequence : UInt64
  message : ByteString
  deriving DecidableEq, Repr

structure FenceLaneState where
  completedThrough : UInt64
  highestObserved : UInt64
  reservedThrough : UInt64
  reservationExhausted : Bool
  firstFailure : Option FenceFirstFailure
  laterFailureCount : UInt8
  deriving DecidableEq, Repr

/-- A lane that has seen nothing. -/
def FenceLaneState.empty : FenceLaneState :=
  { completedThrough := 0, highestObserved := 0, reservedThrough := 0,
    reservationExhausted := false, firstFailure := none, laterFailureCount := 0 }

/-- What a call leaves behind: the object, and the returned value unless an
allocation failure left the call by exception. -/
structure Call (Value : Type) where
  lane : FenceLaneState
  returned : Option Value
  deriving DecidableEq, Repr

/-- The sanitized diagnostic is copied only for the first failure; later ones
only count. -/
def latch (memory : Memory) (lane : FenceLaneState) (status : Status)
    (sequence : UInt64) (diagnostic : ByteString) : Call Unit :=
  match lane.firstFailure with
  | none =>
      match memory with
      | .available =>
          let failure : FenceFirstFailure :=
            ⟨status, sequence, sanitizeFenceDiagnostic diagnostic⟩
          ⟨{ lane with firstFailure := some failure }, some ()⟩
      | .exhausted => ⟨lane, none⟩
  | some _ =>
      if lane.laterFailureCount < kFenceLaneLaterFailureCountMax then
        ⟨{ lane with laterFailureCount := lane.laterFailureCount + 1 }, some ()⟩
      else ⟨lane, some ()⟩

/-- Raises the watermark of observed sequences. -/
def observe (lane : FenceLaneState) (sequence : UInt64) : FenceLaneState :=
  if sequence > lane.highestObserved then { lane with highestObserved := sequence }
  else lane

/-- Latches and then refuses. -/
def refuse (call : Call Unit) : Call Bool :=
  ⟨call.lane, call.returned.map fun _ => false⟩

/-- Reserves the exact next sequence; everything else is latched evidence. -/
def admitSequence (memory : Memory) (lane : FenceLaneState) (sequence : UInt64) : Call Bool :=
  if sequence = 0 then
    refuse (latch memory lane .error kAckNoFailedSequence
      (ascii "buffer sequence is zero"))
  else
    let lane := observe lane sequence
    if lane.reservationExhausted ∨ sequence ≤ lane.reservedThrough then
      refuse (latch memory lane .error sequence
        (ascii "duplicate or stale buffer sequence"))
    else if sequence > lane.reservedThrough + 1 then
      refuse (latch memory lane .outcomeUnknown (lane.reservedThrough + 1)
        (ascii "buffer sequence gap"))
    else
      ⟨{ lane with
          reservedThrough := sequence
          reservationExhausted :=
            lane.reservationExhausted || sequence == 0xFFFFFFFFFFFFFFFF },
        some true⟩

/-- The watermark moves before a failed outcome is latched. -/
def complete (memory : Memory) (lane : FenceLaneState) (sequence : UInt64)
    (failure : Option Status) : Call Unit :=
  if sequence ≠ lane.completedThrough + 1 ∨ sequence > lane.reservedThrough then
    latch memory lane .error (if sequence = 0 then kAckNoFailedSequence else sequence)
      (ascii "buffer completion sequence mismatch")
  else
    let lane := { lane with completedThrough := sequence }
    match failure with
    | none => ⟨lane, some ()⟩
    | some status =>
        if status ≠ .ok then
          latch memory lane status sequence (ascii "covered buffer application failed")
        else ⟨lane, some ()⟩

def recordRejected (memory : Memory) (lane : FenceLaneState) (observed : UInt64)
    (status : Status) (failed : UInt64) (diagnostic : ByteString) : Call Unit :=
  latch memory (observe lane observed) status failed diagnostic

def recordOverflow (memory : Memory) (lane : FenceLaneState) (observed : UInt64) :
    Call Unit :=
  let lane := observe lane observed
  if lane.reservationExhausted ∨ observed ≤ lane.reservedThrough then
    latch memory lane .error observed
      (ascii "buffer dispatch overflow on an observed sequence")
  else
    latch memory lane .outcomeUnknown (lane.reservedThrough + 1)
      (ascii "buffer dispatch capacity exceeded")

def recordMalformed (memory : Memory) (lane : FenceLaneState)
    (sequence : Option UInt64) : Call Unit :=
  match sequence with
  | some observed =>
      latch memory (observe lane observed) .error observed
        (ascii "malformed buffer lane sequence")
  | none =>
      latch memory lane .error kAckNoFailedSequence
        (ascii "malformed buffer lane metadata")

/-- The verdict of the watermarks, once no failure answers the marker. -/
def evaluateWatermarks (lane : FenceLaneState) (result : AckResultV1) : AckResultV1 :=
  let through := result.throughSequence
  if lane.completedThrough > through ∨ lane.highestObserved > through then
    { result with status := .outcomeUnknown }
  else if lane.completedThrough < through then
    { result with
      status := .outcomeUnknown
      failedSequence := lane.completedThrough + 1 }
  else result

def evaluate (lane : FenceLaneState) (through : UInt64) (durability : AckDurability) :
    AckResultV1 :=
  let result := fenceResult .ok durability through
  match lane.firstFailure with
  | none => evaluateWatermarks lane result
  | some failure =>
      if failure.sequence = kAckNoFailedSequence then
        { result with status := failure.status, message := failure.message }
      else if failure.sequence ≤ through then
        { result with
          status := failure.status
          failedSequence := failure.sequence
          message := failure.message }
      else evaluateWatermarks lane result

/-! ## What each part of an operation changes -/

section Fields

variable (memory : Memory) (lane : FenceLaneState) (status : Status)
variable (sequence : UInt64) (diagnostic : ByteString)

@[simp]
theorem latch_completedThrough :
    (latch memory lane status sequence diagnostic).lane.completedThrough =
      lane.completedThrough := by
  unfold latch
  split
  · split <;> rfl
  · split_ifs <;> rfl

@[simp]
theorem latch_highestObserved :
    (latch memory lane status sequence diagnostic).lane.highestObserved =
      lane.highestObserved := by
  unfold latch
  split
  · split <;> rfl
  · split_ifs <;> rfl

@[simp]
theorem latch_reservedThrough :
    (latch memory lane status sequence diagnostic).lane.reservedThrough =
      lane.reservedThrough := by
  unfold latch
  split
  · split <;> rfl
  · split_ifs <;> rfl

@[simp]
theorem latch_reservationExhausted :
    (latch memory lane status sequence diagnostic).lane.reservationExhausted =
      lane.reservationExhausted := by
  unfold latch
  split
  · split <;> rfl
  · split_ifs <;> rfl

/-- With memory the first failure is retained, and only the first. -/
@[simp]
theorem latch_available_firstFailure :
    (latch .available lane status sequence diagnostic).lane.firstFailure =
      some (lane.firstFailure.getD
        ⟨status, sequence, sanitizeFenceDiagnostic diagnostic⟩) := by
  unfold latch
  cases hfailure : lane.firstFailure with
  | none => rfl
  | some failure =>
      simp only [Option.getD_some]
      split_ifs <;> simp [hfailure]

/-- With or without memory, latching keeps an earlier failure and otherwise
adds at most the one it was given. -/
theorem latch_firstFailure :
    (latch memory lane status sequence diagnostic).lane.firstFailure =
        lane.firstFailure ∨
      (lane.firstFailure = none ∧
        (latch memory lane status sequence diagnostic).lane.firstFailure =
          some ⟨status, sequence, sanitizeFenceDiagnostic diagnostic⟩) := by
  unfold latch
  cases hfailure : lane.firstFailure with
  | none =>
      cases memory with
      | available => exact .inr ⟨rfl, rfl⟩
      | exhausted => exact .inl hfailure
  | some failure =>
      left
      simp only
      split_ifs <;> simp [hfailure]

@[simp]
theorem observe_completedThrough :
    (observe lane sequence).completedThrough = lane.completedThrough := by
  unfold observe
  split_ifs <;> rfl

@[simp]
theorem observe_reservedThrough :
    (observe lane sequence).reservedThrough = lane.reservedThrough := by
  unfold observe
  split_ifs <;> rfl

@[simp]
theorem observe_reservationExhausted :
    (observe lane sequence).reservationExhausted = lane.reservationExhausted := by
  unfold observe
  split_ifs <;> rfl

@[simp]
theorem observe_firstFailure :
    (observe lane sequence).firstFailure = lane.firstFailure := by
  unfold observe
  split_ifs <;> rfl

theorem le_observe_highestObserved :
    lane.highestObserved ≤ (observe lane sequence).highestObserved ∧
      sequence ≤ (observe lane sequence).highestObserved := by
  unfold observe
  split_ifs with hgreater
  · exact ⟨UInt64.le_of_lt hgreater, UInt64.le_refl _⟩
  · exact ⟨UInt64.le_refl _, UInt64.not_lt.mp hgreater⟩

theorem observe_highestObserved_cases :
    (observe lane sequence).highestObserved = lane.highestObserved ∨
      (observe lane sequence).highestObserved = sequence := by
  unfold observe
  split_ifs
  · exact .inr rfl
  · exact .inl rfl

end Fields

end Sitos.LaneState
