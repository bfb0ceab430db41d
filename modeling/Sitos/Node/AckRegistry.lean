import Sitos.Core.Machine
import Sitos.Core.Ring
import Sitos.Wire.AckResult

/-!
# The acknowledgement registry

One registry of tokens per node: a token is Processing from its claim to its
completion, then Completed until the completion ring drops it.  Tokens and
fingerprints are compared and never inspected, so both stay abstract.
-/

namespace Sitos.Registry

open Sitos.AckResult
open Sitos.Machine
open Sitos.Ring

variable {Token Fingerprint : Type} [DecidableEq Token] [DecidableEq Fingerprint]

inductive ClaimOutcome where
  | admitted
  | duplicateProcessing
  | duplicateCompleted
  | collision
  | laneBusy
  deriving DecidableEq, Repr

/-- The result is absent while the token is Processing. -/
structure Entry (Fingerprint : Type) where
  fingerprint : Fingerprint
  lane : Option UInt64
  result : Option AckResultV1
  deriving DecidableEq

/-- The ring holds `completion_order_`, `next_completion_slot_` and
`capacity_`. -/
structure AckRegistry (Token Fingerprint : Type) where
  entries : Token → Option (Entry Fingerprint)
  processingByLane : UInt64 → Option Token
  completionOrder : OverwriteRing Token

omit [DecidableEq Token] [DecidableEq Fingerprint] in
theorem effectiveCapacity_pos (capacity : ℕ) : 0 < if capacity = 0 then 1 else capacity := by
  split_ifs with hzero
  · exact Nat.one_pos
  · exact Nat.pos_of_ne_zero hzero

def create (capacity : ℕ) : AckRegistry Token Fingerprint :=
  { entries := fun _ => none
    processingByLane := fun _ => none
    completionOrder := Ring.empty (if capacity = 0 then 1 else capacity)
      (effectiveCapacity_pos capacity) }

/-- Erases whatever the ring is about to overwrite. -/
def retainCompletedLocked (registry : AckRegistry Token Fingerprint) (token : Token) :
    AckRegistry Token Fingerprint :=
  { registry with
    entries :=
      match oldest registry.completionOrder with
      | none => registry.entries
      | some evicted => Function.update registry.entries evicted none
    completionOrder := push registry.completionOrder token }

def occupyLane (processingByLane : UInt64 → Option Token) (token : Token)
    (lane : Option UInt64) : UInt64 → Option Token :=
  match lane with
  | none => processingByLane
  | some lane => Function.update processingByLane lane (some token)

/-- A claim that runs out of memory after the entry insert takes the entry back
and throws. -/
def claimLocked (memory : Memory) (registry : AckRegistry Token Fingerprint)
    (token : Token) (fingerprint : Fingerprint) (lane : Option UInt64)
    (laneBusyResult : Option AckResultV1) :
    AckRegistry Token Fingerprint × Option ClaimOutcome :=
  match registry.entries token with
  | some entry =>
      if entry.fingerprint ≠ fingerprint then (registry, some .collision)
      else if entry.result.isSome then (registry, some .duplicateCompleted)
      else (registry, some .duplicateProcessing)
  | none =>
      if (lane.bind registry.processingByLane).isSome then
        match laneBusyResult with
        | none => (registry, some .laneBusy)
        | some result =>
            let entry : Entry Fingerprint := ⟨fingerprint, lane, some result⟩
            let inserted :=
              { registry with
                entries := Function.update registry.entries token (some entry) }
            (retainCompletedLocked inserted token, some .laneBusy)
      else
        let entry : Entry Fingerprint := ⟨fingerprint, lane, none⟩
        let inserted :=
          { registry with entries := Function.update registry.entries token (some entry) }
        match memory with
        | .exhausted =>
            ({ inserted with entries := Function.update inserted.entries token none }, none)
        | .available =>
            ({ inserted with
                processingByLane := occupyLane registry.processingByLane token lane },
              some .admitted)

def claim (memory : Memory) (registry : AckRegistry Token Fingerprint) (token : Token)
    (fingerprint : Fingerprint) (lane : UInt64) :
    AckRegistry Token Fingerprint × Option ClaimOutcome :=
  claimLocked memory registry token fingerprint (some lane) none

def claimIndependent (memory : Memory) (registry : AckRegistry Token Fingerprint)
    (token : Token) (fingerprint : Fingerprint) :
    AckRegistry Token Fingerprint × Option ClaimOutcome :=
  claimLocked memory registry token fingerprint none none

def claimOrReject (memory : Memory) (registry : AckRegistry Token Fingerprint)
    (token : Token) (fingerprint : Fingerprint) (lane : UInt64)
    (laneBusyResult : AckResultV1) :
    AckRegistry Token Fingerprint × Option ClaimOutcome :=
  claimLocked memory registry token fingerprint (some lane) (some laneBusyResult)

/-- Frees the lane of an entry if the lane still names the token. -/
def releaseLane (processingByLane : UInt64 → Option Token) (token : Token)
    (lane : Option UInt64) : UInt64 → Option Token :=
  match lane with
  | none => processingByLane
  | some lane =>
      if processingByLane lane = some token then
        Function.update processingByLane lane none
      else processingByLane

def complete (registry : AckRegistry Token Fingerprint) (token : Token)
    (result : AckResultV1) : AckRegistry Token Fingerprint × Bool :=
  match registry.entries token with
  | none => (registry, false)
  | some entry =>
      if entry.result.isSome then (registry, false)
      else
        let completed :=
          { registry with
            entries := Function.update registry.entries token
              (some { entry with result := some result })
            processingByLane :=
              releaseLane registry.processingByLane token entry.lane }
        (retainCompletedLocked completed token, true)

def recordRejected (registry : AckRegistry Token Fingerprint) (token : Token)
    (fingerprint : Fingerprint) (result : AckResultV1) :
    AckRegistry Token Fingerprint × Bool :=
  if (registry.entries token).isSome then (registry, false)
  else
    let entry : Entry Fingerprint := ⟨fingerprint, none, some result⟩
    let inserted :=
      { registry with entries := Function.update registry.entries token (some entry) }
    (retainCompletedLocked inserted token, true)

def find (registry : AckRegistry Token Fingerprint) (token : Token) :
    Option AckResultV1 :=
  (registry.entries token).bind Entry.result

def clear (registry : AckRegistry Token Fingerprint) : AckRegistry Token Fingerprint :=
  { entries := fun _ => none
    processingByLane := fun _ => none
    completionOrder := Ring.empty registry.completionOrder.capacity
      registry.completionOrder.capacity_pos }

end Sitos.Registry
