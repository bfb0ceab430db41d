import Sitos.Core.Machine
import Sitos.Core.Tasks
import Sitos.Fence.Publisher

/-!
# Waiters of a Fence publisher

The publisher once more, with every block that takes one of its locks a step of its own.
Callers of `SubmitData`, `BeginFence`, `Wait`, `Complete` and `Close` run side by side; the clock
advances and the transport replaces its generation at any time.  What a waiter ends with is
decided in three places, between which any other caller may win: a completion reserves the waiter,
validates the generation without the lock, and commits.

Waiting for other operations to leave the publisher only delays a caller, and is left out.
-/

namespace Sitos.Waiter

open Sitos.Bytes
open Sitos.AckResult
open Sitos.FenceWire
open Sitos.Key
open Sitos.Publisher
open Sitos.Tasks
open Sitos.Token

inductive FencePublisherTarget where
  | cache
  | buffer
  deriving DecidableEq, Repr

structure FencePublisherBinding where
  target : FencePublisherTarget
  keyPrefix : ByteString
  sid : ByteString
  receiverGeneration : FenceUuid
  publisherUuid : FenceUuid
  bufferClass : Option BufferClass
  durability : AckDurability
  syncedAllowed : Bool
  transportGeneration : UInt64
  deriving DecidableEq

/-- The last field notes the generation that the final validation of a completion sampled. -/
structure FenceWaiterState where
  terminal : Bool
  completedOnBoundGeneration : Bool
  result : Option AckResultV1
  completedAt : Option ℕ
  reserved : Bool
  finalSample : Option UInt64
  deriving DecidableEq

def FenceWaiterState.fresh : FenceWaiterState :=
  { terminal := false, completedOnBoundGeneration := false, result := none, completedAt := none,
    reserved := false, finalSample := none }

/-- A handle with the deadline that its caller was given. -/
structure TimedHandle extends FenceHandle where
  deadline : ℕ
  deriving DecidableEq

/-- The end of the steady clock, and its ticks in a millisecond. -/
def kMaxTime : ℕ := 2 ^ 63 - 1
def kTicks : ℕ := 1000000

def saturatingFenceDeadline (now requested : ℕ) : ℕ :=
  let remaining := (kMaxTime - now) / kTicks
  if requested > remaining then kMaxTime else now + requested * kTicks

/-- A result counts with the instant at which it was final, and only before the deadline. -/
def terminalResultBefore (state : FenceWaiterState) (deadline : ℕ) : Option AckResultV1 :=
  if state.terminal ∧ state.completedAt.any (· < deadline) then state.result else none

def terminalResultPublishedOnBoundGenerationBefore (state : FenceWaiterState) (deadline : ℕ) :
    Bool :=
  state.terminal && state.completedOnBoundGeneration && state.result.isSome &&
    state.completedAt.any (· < deadline)

/-- The publisher, the clock and the transport.  Waiters are numbered in the order they are made.
The last fields note which handles and results there have been: what was issued, what a caller was
handed, what it waits for or has waited for, what a cancellation took, and what was offered under
which token. -/
structure Shared where
  now : ℕ
  generation : UInt64
  lane : Bool
  lastSequence : UInt64
  exhausted : Bool
  acceptingOperations : Bool
  disconnected : Bool
  generationMismatch : Bool
  pending : Option FenceHandle
  waiters : ℕ → FenceWaiterState
  issued : List FenceHandle
  handed : List TimedHandle
  waited : List ℕ
  returned : List ℕ
  taken : List ℕ
  offered : List (AckToken × AckResultV1)

/-- Where a caller goes on after the pending waiter was cancelled. -/
inductive Resume where
  | leave
  | close
  | stale (handle : TimedHandle)
  | wait (handle : TimedHandle)
  deriving DecidableEq

/-- Who publishes a result. -/
inductive Origin where
  | complete
  | poll (handle : TimedHandle) (malformed : Bool)
  deriving DecidableEq

/-- Where a caller goes on after it has recorded a mismatch. -/
inductive Marked where
  | wait (handle : TimedHandle)
  | complete
  | poll (handle : TimedHandle) (result : AckResultV1) (malformed : Bool)
  deriving DecidableEq

/-- The next block of a caller. -/
inductive Task where
  | idle
  -- SubmitData
  | submit
  | submitLane
  | submitPut
  | submitCheck (status : Status)
  -- BeginFence
  | begin (budget : ℤ)
  | beginLane (budget : ℕ)
  | beginPending (budget : ℕ)
  | register (budget : ℕ)
  | putMarker (handle : FenceHandle) (budget : ℕ)
  | beginCheck (handle : TimedHandle)
  | stale (handle : TimedHandle)
  | began (handle : TimedHandle)
  -- Close
  | close
  | closeLane
  -- Disconnect and CancelPendingWaiter
  | disconnect (resume : Resume)
  | cancel (resume : Resume)
  | cancelled (handle : FenceHandle) (resume : Resume)
  -- MarkGenerationMismatch
  | mark (marked : Marked)
  | stop (marked : Marked)
  -- PublishWaiterResult
  | sample (handle : FenceHandle) (result : AckResultV1) (origin : Origin)
  | reserve (handle : FenceHandle) (result : AckResultV1) (mismatch : Bool) (origin : Origin)
  | validate (handle : FenceHandle) (result : AckResultV1) (mismatch : Bool) (origin : Origin)
  | commit (handle : FenceHandle) (result : AckResultV1) (mismatch : Bool)
      (sampled : Option UInt64) (origin : Origin)
  -- Complete
  | complete (token : AckToken) (result : AckResultV1)
  | unregister (handle : FenceHandle) (mismatch : Bool)
  | completed (published : Bool)
  -- Wait
  | wait (handle : TimedHandle)
  | waitAdmission (handle : TimedHandle)
  | waitRefused (handle : TimedHandle)
  | waitSample (handle : TimedHandle)
  | waitTarget (handle : TimedHandle)
  | blocked (handle : TimedHandle)
  | poll (handle : TimedHandle)
  | pollClock (handle : TimedHandle)
  | query (handle : TimedHandle) (observed : Option AckResultV1) (malformed : Bool)
  | queried (handle : TimedHandle) (observed : Option AckResultV1) (malformed : Bool)
  | pollPause (handle : TimedHandle)
  | settle (handle : TimedHandle) (outcome : Except Status AckResultV1)
  | resetPending (handle : TimedHandle) (outcome : Except Status AckResultV1)
  | waited (handle : TimedHandle) (outcome : Except Status AckResultV1)
  -- a call that returned a status alone
  | left (status : Status)

/-- What a block finds outside itself.  `missed` is whether the mismatch flag was read before it
was set; it is never cleared, so reading it earlier can only miss it. -/
structure Choice where
  missed : Bool
  supported : Bool
  putStatus : Status
  random : AckToken
  reply : Option (Option AckResultV1)

namespace Shared

def setWaiter (shared : Shared) (waiter : ℕ) (state : FenceWaiterState) : Shared :=
  { shared with waiters := Function.update shared.waiters waiter state }

def mismatched (binding : FencePublisherBinding) (shared : Shared) (choice : Choice) : Bool :=
  (shared.generationMismatch && !choice.missed) ||
    shared.generation != binding.transportGeneration

end Shared

def disconnectedResult (binding : FencePublisherBinding) (through : UInt64) : AckResultV1 :=
  fenceResult .disconnected binding.durability through

def markerKey (binding : FencePublisherBinding) (through : UInt64) : Option ByteString :=
  match binding.target with
  | .cache =>
      buildCacheFenceMarkerKey binding.keyPrefix binding.sid binding.receiverGeneration
        binding.publisherUuid through
  | .buffer => do
      let bufferClass ← binding.bufferClass
      buildBufferFenceMarkerKey binding.keyPrefix binding.sid binding.receiverGeneration
        bufferClass binding.publisherUuid binding.durability through

/-- `CheckGeneration` by the holder of the lane: the caller goes on, leaves, or disconnects the
publisher first. -/
def checkGeneration (binding : FencePublisherBinding) (shared : Shared) (choice : Choice)
    (passed : Shared × Task) (refused : Shared × Task) (resume : Resume) : Shared × Task :=
  if shared.disconnected then refused
  else if !shared.mismatched binding choice then passed
  else ({ shared with disconnected := true, lane := true }, .disconnect resume)

def resumed (shared : Shared) : Resume → Shared × Task
  | .leave => ({ shared with lane := false }, .left .disconnected)
  | .close => ({ shared with lane := false }, .left .ok)
  | .stale handle => ({ shared with lane := false }, .stale handle)
  | .wait handle => (shared, .waitTarget handle)

def notPublished (result : AckResultV1) : Origin → Task
  | .complete => .completed false
  | .poll handle malformed => .query handle (some result) malformed

def published (handle : FenceHandle) (result : AckResultV1) (mismatch : Bool) : Origin → Task
  | .complete => .unregister handle mismatch
  | .poll waited malformed =>
      if mismatch then .mark (.poll waited result malformed)
      else .query waited (some result) malformed

/-! ## Sending -/

def submitBlock (binding : FencePublisherBinding) (shared : Shared) (choice : Choice) :
    Task → Option (Shared × Task)
  | .submit =>
      some (shared, if shared.acceptingOperations then .submitLane else .left .disconnected)
  | .submitLane =>
      if shared.lane then none
      else
        some (checkGeneration binding shared choice ({ shared with lane := true }, .submitPut)
          (shared, .left .disconnected) .leave)
  | .submitPut =>
      if !choice.supported ∨ shared.exhausted then
        some ({ shared with lane := false }, .left .invalidArgument)
      else
        let sequence := shared.lastSequence + 1
        some
          ({ shared with
              lastSequence := sequence
              exhausted := shared.exhausted || sequence == 0xFFFFFFFFFFFFFFFF },
            .submitCheck choice.putStatus)
  | .submitCheck status =>
      some (checkGeneration binding shared choice ({ shared with lane := false }, .left status)
        ({ shared with lane := false }, .left .disconnected) .leave)
  | _ => none

def beginBlock (binding : FencePublisherBinding) (shared : Shared) (choice : Choice) :
    Task → Option (Shared × Task)
  | .begin budget =>
      if !shared.acceptingOperations then some (shared, .left .disconnected)
      else if budget ≤ 0 then some (shared, .left .invalidArgument)
      else some (shared, .beginLane budget.toNat)
  | .beginLane budget =>
      if shared.lane then none
      else
        some (checkGeneration binding shared choice
          ({ shared with lane := true }, .beginPending budget) (shared, .left .disconnected) .leave)
  | .beginPending budget =>
      if !choice.supported ∨
          (binding.target = .buffer ∧ binding.durability = .synced ∧ !binding.syncedAllowed) ∨
          shared.pending.isSome ∨ markerKey binding shared.lastSequence = none then
        some ({ shared with lane := false }, .left .invalidArgument)
      else some (shared, .register budget)
  | .register budget =>
      let token := generateAckToken choice.random
      -- a token is drawn once
      if shared.issued.any (·.token == token) then none
      else
        let handle : FenceHandle := ⟨token, shared.lastSequence, shared.issued.length⟩
        some
          ({ shared with
              pending := some handle
              issued := shared.issued ++ [handle] },
            .putMarker handle budget)
  | .putMarker handle budget =>
      some (shared, .beginCheck ⟨handle, saturatingFenceDeadline shared.now budget⟩)
  | .beginCheck handle =>
      some (checkGeneration binding shared choice
        ({ shared with lane := false, handed := shared.handed ++ [handle] }, .began handle)
        ({ shared with lane := false }, .stale handle) (.stale handle))
  | .stale handle =>
      if terminalResultPublishedOnBoundGenerationBefore (shared.waiters handle.waiter)
          handle.deadline then
        some ({ shared with handed := shared.handed ++ [handle] }, .began handle)
      else some (shared, .left .disconnected)
  | _ => none

/-! ## Disconnecting -/

def closeBlock (binding : FencePublisherBinding) (shared : Shared) : Task → Option (Shared × Task)
  | .close => some ({ shared with acceptingOperations := false }, .closeLane)
  | .closeLane =>
      if shared.lane then none
      else some ({ shared with lane := true, disconnected := true }, .disconnect .close)
  | .disconnect resume => some ({ shared with acceptingOperations := false }, .cancel resume)
  | .cancel resume =>
      match shared.pending with
      | none => some (resumed shared resume)
      | some handle =>
          some
            ({ shared with pending := none, taken := shared.taken ++ [handle.waiter] },
              .cancelled handle resume)
  | .cancelled handle resume =>
      let state := shared.waiters handle.waiter
      if state.terminal then some (resumed shared resume)
      else
        some (resumed
          (shared.setWaiter handle.waiter
            { state with
              result := some (disconnectedResult binding handle.throughSequence)
              completedOnBoundGeneration := false
              completedAt := some shared.now
              terminal := true }) resume)
  | .mark marked => some ({ shared with generationMismatch := true }, .stop marked)
  | .stop marked =>
      let shared := { shared with acceptingOperations := false }
      some
        (shared,
          match marked with
          | .wait handle => .cancel (.wait handle)
          | .complete => .completed true
          | .poll handle result malformed => .query handle (some result) malformed)
  | _ => none

/-! ## Completing -/

def publishBlock (binding : FencePublisherBinding) (shared : Shared) (choice : Choice) :
    Task → Option (Shared × Task)
  | .sample handle result origin =>
      some (shared, .reserve handle result (shared.mismatched binding choice) origin)
  | .reserve handle result mismatch origin =>
      let state := shared.waiters handle.waiter
      if state.terminal ∨ state.reserved then some (shared, notPublished result origin)
      else
        some
          (shared.setWaiter handle.waiter
            { state with
              reserved := true
              result := some
                (if mismatch then disconnectedResult binding handle.throughSequence else result)
              completedOnBoundGeneration := !mismatch },
            .validate handle result mismatch origin)
  | .validate handle result mismatch origin =>
      if mismatch then some (shared, .commit handle result true none origin)
      else
        some (shared, .commit handle result (shared.mismatched binding choice)
          (some shared.generation) origin)
  | .commit handle result mismatch sampled origin =>
      let state := { shared.waiters handle.waiter with reserved := false }
      if state.terminal then
        some (shared.setWaiter handle.waiter state, notPublished result origin)
      else
        let state :=
          if mismatch then
            { state with
              result := some (disconnectedResult binding handle.throughSequence)
              completedOnBoundGeneration := false }
          else state
        -- the completion instant is the final validation, never the earlier sample
        some
          (shared.setWaiter handle.waiter
            { state with
              completedAt := some shared.now
              terminal := true
              finalSample := sampled },
            published handle result mismatch origin)
  | .complete token result =>
      match shared.pending with
      | none => some (shared, .completed false)
      | some handle =>
          if handle.token ≠ token then some (shared, .completed false)
          else some (shared, .sample handle result .complete)
  | .unregister handle mismatch =>
      let shared :=
        if shared.pending.any fun pending =>
            pending.token == handle.token && pending.waiter == handle.waiter then
          { shared with pending := none }
        else shared
      some (shared, if mismatch then .mark .complete else .completed true)
  | _ => none

/-! ## Waiting -/

/-- The result a wait may return, or the error it returns otherwise. -/
def outcomeBefore (state : FenceWaiterState) (deadline : ℕ) (status : Status) :
    Except Status AckResultV1 :=
  match terminalResultBefore state deadline with
  | some result => .ok result
  | none => .error status

def waitBlock (binding : FencePublisherBinding) (shared : Shared) (choice : Choice) :
    Task → Option (Shared × Task)
  | .wait handle =>
      match terminalResultBefore (shared.waiters handle.waiter) handle.deadline with
      | some result =>
          some ({ shared with returned := shared.returned ++ [handle.waiter] },
            .waited handle (.ok result))
      | none => some (shared, .waitAdmission handle)
  | .waitAdmission handle =>
      some (shared,
        if shared.acceptingOperations then .waitSample handle else .waitRefused handle)
  | .waitRefused handle =>
      let state := shared.waiters handle.waiter
      if state.terminal then
        some (shared, .resetPending handle (outcomeBefore state handle.deadline .timeout))
      else if shared.now < handle.deadline then
        let retained := disconnectedResult binding handle.throughSequence
        some
          (shared.setWaiter handle.waiter
            { state with
              terminal := true
              result := some retained
              completedAt := some shared.now },
            .resetPending handle (.ok retained))
      else
        some (shared.setWaiter handle.waiter { state with terminal := true },
          .resetPending handle (.error .timeout))
  | .waitSample handle =>
      some (shared,
        if shared.mismatched binding choice then .mark (.wait handle) else .waitTarget handle)
  | .waitTarget handle =>
      match binding.target with
      | .cache => some (shared, .blocked handle)
      | .buffer =>
          match buildMetaAckKey binding.keyPrefix (formatAckToken handle.token) with
          | none => some (shared, .settle handle (.error .invalidArgument))
          | some _ => some (shared, .poll handle)
  | .blocked handle =>
      let state := shared.waiters handle.waiter
      if state.terminal then
        some (shared, .resetPending handle (outcomeBefore state handle.deadline .timeout))
      else if handle.deadline ≤ shared.now then
        -- the timeout wins against a completion that has not committed
        let state := { state with terminal := true }
        some (shared.setWaiter handle.waiter state,
          .resetPending handle (outcomeBefore state handle.deadline .timeout))
      else none
  | .poll handle =>
      match terminalResultBefore (shared.waiters handle.waiter) handle.deadline with
      | some result => some (shared, .settle handle (.ok result))
      | none => some (shared, .pollClock handle)
  | .pollClock handle =>
      some (shared,
        if handle.deadline ≤ shared.now then .settle handle (.error .timeout)
        else .query handle none false)
  | .query handle observed malformed =>
      match choice.reply with
      | none => some (shared, .queried handle observed malformed)
      | some none => some (shared, .query handle observed true)
      | some (some result) =>
          some ({ shared with offered := shared.offered ++ [(handle.token, result)] },
            .sample handle.toFenceHandle result (.poll handle malformed))
  | .queried handle observed malformed =>
      match terminalResultBefore (shared.waiters handle.waiter) handle.deadline with
      | some result => some (shared, .settle handle (.ok result))
      | none =>
          if malformed then some (shared, .settle handle (.error .error))
          else
            match observed with
            | some result => some (shared, .settle handle (.ok result))
            | none => some (shared, .pollPause handle)
  | .pollPause handle =>
      some (shared,
        if handle.deadline ≤ shared.now then .settle handle (.error .timeout) else .poll handle)
  | .settle handle outcome =>
      let state := shared.waiters handle.waiter
      match outcome with
      | .ok result =>
          if state.terminal then
            some (shared, .resetPending handle (outcomeBefore state handle.deadline .timeout))
          else if shared.now < handle.deadline then
            some
              (shared.setWaiter handle.waiter
                { state with
                  result := some result
                  completedAt := some shared.now
                  terminal := true },
                .resetPending handle (.ok result))
          else some (shared, .resetPending handle (.error .timeout))
      | .error status =>
          some (shared, .resetPending handle (outcomeBefore state handle.deadline status))
  | .resetPending handle outcome =>
      let shared := { shared with returned := shared.returned ++ [handle.waiter] }
      if shared.pending.any (·.token == handle.token) then
        some ({ shared with pending := none }, .waited handle outcome)
      else some (shared, .waited handle outcome)
  | _ => none

/-! ## Runs -/

inductive Call where
  | submitData
  | beginFence (budget : ℤ)
  | wait (handle : TimedHandle)
  | complete (token : AckToken) (result : AckResultV1)
  | close
  deriving DecidableEq

inductive Action where
  | advance (now : ℕ)
  | replaceGeneration (generation : UInt64)
  | call (task : ℕ) (call : Call)
  | block (task : ℕ) (choice : Choice)

/-- A caller waits once for a handle that it was handed, and only a cache completes. -/
def enter (binding : FencePublisherBinding) (shared : Shared) : Call → Option (Shared × Task)
  | .submitData => some (shared, .submit)
  | .beginFence budget => some (shared, .begin budget)
  | .wait handle =>
      if handle ∈ shared.handed ∧ handle.waiter ∉ shared.waited then
        some ({ shared with waited := shared.waited ++ [handle.waiter] }, .wait handle)
      else none
  | .complete token result =>
      if binding.target = .cache then
        some ({ shared with offered := shared.offered ++ [(token, result)] },
          .complete token result)
      else none
  | .close => some (shared, .close)

def block (binding : FencePublisherBinding) (shared : Shared) (choice : Choice) (task : Task) :
    Option (Shared × Task) :=
  submitBlock binding shared choice task <|> beginBlock binding shared choice task <|>
    closeBlock binding shared task <|> publishBlock binding shared choice task <|>
    waitBlock binding shared choice task

abbrev State := Config Shared Task

def start (binding : FencePublisherBinding) : State where
  shared :=
    { now := 0, generation := binding.transportGeneration, lane := false, lastSequence := 0,
      exhausted := false, acceptingOperations := true, disconnected := false,
      generationMismatch := false, pending := none, waiters := fun _ => .fresh, issued := [],
      handed := [], waited := [], returned := [], taken := [], offered := [] }
  tasks := fun _ => .idle

def step (binding : FencePublisherBinding) (state : State) : Action → Option State
  | .advance now =>
      if state.shared.now ≤ now then some { state with shared := { state.shared with now } }
      else none
  | .replaceGeneration generation =>
      some { state with shared := { state.shared with generation } }
  | .call task call =>
      match state.tasks task with
      | .idle => (enter binding state.shared call).map fun (shared, next) =>
          state.replace task shared next
      | _ => none
  | .block task choice =>
      (block binding state.shared choice (state.tasks task)).map fun (shared, next) =>
        state.replace task shared next

end Sitos.Waiter
