import Sitos.Core.Machine
import Sitos.Core.Tasks
import Sitos.Wire.AckResult

/-!
# Completion of a query

The replies of a query arrive in callbacks of the transport.  Each callback holds a lease while it
runs; under one lock the replies are converted and handed to the sink, and under another the state
of the request is kept.  The caller waits until the transport has dropped the query and the last
lease is gone.

Every block under the lock of the state is a step, and so are the conversion of a reply and the
beginning and the end of each call of the sink.
-/

namespace Sitos.GetCompletion

open Sitos.AckResult
open Sitos.Bytes
open Sitos.Machine
open Sitos.Tasks

/-- An error code: none, one of the transport, or that of a status. -/
inductive ErrorCode where
  | none
  | native (value : ℤ)
  | sitos (status : Status)
  deriving DecidableEq

/-- A success has no code; it counts as an error. -/
def makeErrorCode (status : Status) : ErrorCode :=
  .sitos (if status = .ok then .error else status)

inductive FailureKind where
  | replyConversion
  | typedErrorReply
  | callbackException
  deriving DecidableEq

structure Failure where
  kind : FailureKind
  status : Status
  cause : ErrorCode
  deriving DecidableEq

inductive DeliveryState where
  | active
  | stoppedBySink
  | failed (failure : Failure)
  deriving DecidableEq

/-- What `WaitForResult` returns. -/
inductive WaitResult where
  | ok
  | error (status : Status) (message : String) (cause : ErrorCode)
  deriving DecidableEq

structure Shared where
  sink : Bool
  dropped : Bool
  inFlight : ℕ
  deliveryState : DeliveryState
  deliveredKeys : List ByteString
  deliveryLocked : Bool

/-- What becomes of a reply that is converted. -/
inductive Conversion where
  | reply (key : ByteString)
  | failed (status : Status) (cause : ErrorCode)
  | threw

inductive Answer where
  | more
  | stop
  | threw
  deriving DecidableEq

/-- What the code around the request does in a block. -/
structure Choice where
  conversion : Conversion
  memory : Memory
  answer : Answer

/-- The next block of a callback or of a call. -/
inductive Task where
  | idle
  | leased (enrolled : Bool)
  -- ProcessReply
  | lock
  | isActive
  | convert
  | accept (key : ByteString)
  | deliver (key : ByteString)
  | calling (key : ByteString)
  | stop
  | fail (failure : Failure)
  | unlock
  -- WaitForResult
  | wait
  deriving DecidableEq

inductive Event where
  | entered (task : ℕ)
  | called (task : ℕ) (key : ByteString)
  | answered (task : ℕ) (answer : Answer)
  | stopped (task : ℕ)
  | failure (task : ℕ) (failure : Failure)
  | returned (task : ℕ) (result : WaitResult)
  deriving DecidableEq

def isQueryErrorStatus (status : Status) : Bool :=
  status = .stateLost || status = .catalogUnavailable

/-- Only a typed error reply keeps its status. -/
def conversionFailure (status : Status) (cause : ErrorCode) : Failure :=
  if isQueryErrorStatus status then ⟨.typedErrorReply, status, cause⟩
  else ⟨.replyConversion, .error, cause⟩

def unexpectedFailure : Failure := ⟨.callbackException, .error, makeErrorCode .error⟩

/-- A failure as it is kept. -/
def Failure.recorded (failure : Failure) : Failure :=
  { failure with
    cause := if failure.cause = .none then makeErrorCode failure.status else failure.cause }

namespace Shared

def recordFailure (shared : Shared) (failure : Failure) : Shared :=
  if shared.deliveryState = .active then
    { shared with deliveryState := .failed failure.recorded }
  else shared

def stopBySink (shared : Shared) : Shared :=
  if shared.deliveryState = .active then { shared with deliveryState := .stoppedBySink } else shared

end Shared

def FailureKind.message : FailureKind → String
  | .replyConversion => "failed to process zenoh get reply"
  | .typedErrorReply => "storage node refused the query"
  | .callbackException => "get reply callback failed"

def resultOf : DeliveryState → WaitResult
  | .failed failure => .error failure.status failure.kind.message failure.cause
  | .active | .stoppedBySink => .ok

/-! ## Blocks -/

structure Move where
  shared : Shared
  task : Task
  events : List Event

def processReplyBlock (shared : Shared) (choice : Choice) (task : ℕ) : Task → Option Move
  | .lock =>
      if shared.deliveryLocked then none
      else some ⟨{ shared with deliveryLocked := true }, .isActive, []⟩
  | .isActive =>
      some ⟨shared, if shared.deliveryState = .active then .convert else .unlock, []⟩
  | .convert =>
      match choice.conversion with
      | .reply key => some ⟨shared, .accept key, []⟩
      | .failed status cause => some ⟨shared, .fail (conversionFailure status cause), []⟩
      | .threw => some ⟨shared, .fail unexpectedFailure, []⟩
  | .accept key =>
      if shared.deliveryState ≠ .active then some ⟨shared, .unlock, []⟩
      else
        match choice.memory with
        | .exhausted => some ⟨shared, .fail unexpectedFailure, []⟩
        | .available =>
            if key ∈ shared.deliveredKeys then some ⟨shared, .unlock, []⟩
            else
              some ⟨{ shared with deliveredKeys := key :: shared.deliveredKeys },
                .deliver key, []⟩
  | .deliver key =>
      if shared.sink then some ⟨shared, .calling key, [.called task key]⟩
      else some ⟨shared, .unlock, []⟩
  | .calling _ =>
      match choice.answer with
      | .more => some ⟨shared, .unlock, [.answered task .more]⟩
      | .stop => some ⟨shared, .stop, [.answered task .stop]⟩
      | .threw => some ⟨shared, .fail unexpectedFailure, [.answered task .threw]⟩
  | .stop => some ⟨shared.stopBySink, .unlock, [.stopped task]⟩
  | .fail failure => some ⟨shared.recordFailure failure, .unlock, [.failure task failure]⟩
  | .unlock => some ⟨{ shared with deliveryLocked := false }, .leased true, []⟩
  | _ => none

def waitForResultBlock (shared : Shared) (task : ℕ) : Task → Option Move
  | .wait =>
      if shared.dropped ∧ shared.inFlight = 0 then
        some ⟨shared, .idle, [.returned task (resultOf shared.deliveryState)]⟩
      else none
  | _ => none

/-! ## Runs -/

inductive Action where
  | acquireCallbackLease (task : ℕ)
  | releaseLease (task : ℕ)
  | processReply (task : ℕ)
  | recordCallbackFailure (task : ℕ)
  | markDropped
  | waitForResult (task : ℕ)
  | block (task : ℕ) (choice : Choice)

abbrev State := Config Shared Task

def acquireCallbackLease (shared : Shared) : Move :=
  if shared.dropped then ⟨shared, .leased false, []⟩
  else ⟨{ shared with inFlight := shared.inFlight + 1 }, .leased true, []⟩

/-- The end of a callback. -/
def releaseLease (shared : Shared) (enrolled : Bool) : Move :=
  if enrolled then ⟨{ shared with inFlight := shared.inFlight - 1 }, .idle, []⟩
  else ⟨shared, .idle, []⟩

/-- What an action of a task does, if the task is where it can.  A reply is processed under a lease
that is enrolled. -/
def move (shared : Shared) (task : Task) : Action → Option Move
  | .acquireCallbackLease _ =>
      match task with
      | .idle => some (acquireCallbackLease shared)
      | _ => none
  | .releaseLease _ =>
      match task with
      | .leased enrolled => some (releaseLease shared enrolled)
      | _ => none
  | .processReply name =>
      match task with
      | .leased true => some ⟨shared, .lock, [.entered name]⟩
      | _ => none
  | .recordCallbackFailure name =>
      match task with
      | .idle =>
          some ⟨shared.recordFailure unexpectedFailure, .idle, [.failure name unexpectedFailure]⟩
      | .leased enrolled =>
          some ⟨shared.recordFailure unexpectedFailure, .leased enrolled,
            [.failure name unexpectedFailure]⟩
      | _ => none
  | .waitForResult _ =>
      match task with
      | .idle => some ⟨shared, .wait, []⟩
      | _ => none
  | .block name choice =>
      (processReplyBlock shared choice name task).or (waitForResultBlock shared name task)
  | .markDropped => none

def Action.task : Action → Option ℕ
  | .acquireCallbackLease task | .releaseLease task | .processReply task
  | .recordCallbackFailure task | .waitForResult task | .block task _ => some task
  | .markDropped => none

def step (state : State) (action : Action) : Option State :=
  match action.task with
  | none => some { state with shared := { state.shared with dropped := true } }
  | some task =>
      (move state.shared (state.tasks task) action).map fun made =>
        state.replace task made.shared made.task

def emits (state : State) (action : Action) : List Event :=
  match action.task with
  | none => []
  | some task => ((move state.shared (state.tasks task) action).map Move.events).getD []

/-- A request whose sink is there or not. -/
def start (sink : Bool) : State :=
  ⟨⟨sink, false, 0, .active, [], false⟩, fun _ => .idle⟩

end Sitos.GetCompletion
