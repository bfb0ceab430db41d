import Sitos.Core.Machine
import Sitos.Core.Tasks
import Sitos.Client.ParamSubscription

/-!
# Delivery of a subscription

A native callback copies its sample, queues it and, when nobody else does, drains the queue: it
decodes one sample after the other and calls the user for each change.  Samples that arrive while
the subscriber is being declared are staged for the thread that declares it.  `Close` refuses
further samples and waits until nothing is left to deliver.

Every block under the lock of the subscription is a step, and so is the beginning and the end of
each call of the user.  Calls on one thread may interleave here like any others; this includes
that a native callback runs inside a call of the user.
-/

namespace Sitos.Drain

open Sitos.Bytes
open Sitos.Sample
open Sitos.Subscription
open Sitos.Tasks

structure Settings where
  keyPrefix : ByteString
  scope : Scope
  listPrefix : ByteString

/-- What the user is called for. -/
def changesOf (settings : Settings) (sample : TransportSample) : List ParamChange :=
  ((decodeChanges settings.keyPrefix settings.scope settings.listPrefix sample).changes).getD []

/-- An item of work, named after the native callback that made it. -/
structure WorkItem where
  call : ℕ
  sample : TransportSample

/-- The last fields note how the declaration went, and that the subscription was handed out. -/
structure Shared where
  queue : List WorkItem
  accepting : Bool
  staging : Bool
  closeStarted : Bool
  closeFinished : Bool
  drainer : Bool
  drainerId : Option ℕ
  nativeInFlight : ℕ
  complete : ℕ → Bool
  declared : Option Bool
  returned : Bool

/-- Who drains: a native callback, or the thread that activates the subscription. -/
inductive Origin where
  | native
  | activation
  deriving DecidableEq

/-- The next block of a call. -/
inductive Task where
  | idle
  -- OnSample
  | native (thread : ℕ) (sample : TransportSample)
  | enqueue (thread : ℕ) (sample : TransportSample)
  | await
  | leave
  | left
  -- Drain and Deliver
  | drain (origin : Origin)
  | deliver (origin : Origin) (item : WorkItem)
  | changes (origin : Origin) (item : WorkItem) (rest : List ParamChange)
  | calling (origin : Origin) (item : WorkItem) (change : ParamChange) (rest : List ParamChange)
  -- Subscribe
  | declare (thread : ℕ)
  | activate (thread : ℕ)
  | handOut
  | subscribed
  | fail
  | failWait
  | failed
  -- CloseState
  | close
  | closeAwait
  | closeReset
  | closeWait
  | closed

def onSampleBlock (shared : Shared) (call : ℕ) : Task → Option (Shared × Task)
  | .native thread sample =>
      if !shared.accepting then some (shared, .left)
      else
        some ({ shared with nativeInFlight := shared.nativeInFlight + 1 },
          .enqueue thread sample)
  | .enqueue thread sample =>
      let shared := { shared with queue := shared.queue ++ [⟨call, sample⟩] }
      if shared.staging then some (shared, .leave)
      else if !shared.drainer then
        some ({ shared with drainer := true, drainerId := some thread }, .drain .native)
      else if shared.drainerId = some thread then some (shared, .leave)
      else some (shared, .await)
  | .await => if shared.complete call then some (shared, .leave) else none
  | .leave => some ({ shared with nativeInFlight := shared.nativeInFlight - 1 }, .left)
  | _ => none

/-- Whether a call of the user returned or threw, the next change follows. -/
def drainBlock (settings : Settings) (shared : Shared) : Task → Option (Shared × Task)
  | .drain origin =>
      match shared.queue with
      | [] =>
          some ({ shared with drainer := false, drainerId := none },
            match origin with
            | .native => .leave
            | .activation => .handOut)
      | item :: queue => some ({ shared with queue }, .deliver origin item)
  | .deliver origin item =>
      some (shared, .changes origin item (changesOf settings item.sample))
  | .changes origin item (change :: rest) => some (shared, .calling origin item change rest)
  | .calling origin item _ rest => some (shared, .changes origin item rest)
  | .changes origin item [] =>
      some ({ shared with complete := Function.update shared.complete item.call true },
        .drain origin)
  | _ => none

def subscribeBlock (shared : Shared) (declared : Bool) : Task → Option (Shared × Task)
  | .declare thread =>
      some ({ shared with declared := some declared },
        if declared then .activate thread else .fail)
  | .activate thread =>
      let shared := { shared with staging := false }
      if shared.queue.isEmpty then some (shared, .handOut)
      else
        some ({ shared with drainer := true, drainerId := some thread }, .drain .activation)
  | .handOut => some ({ shared with returned := true }, .subscribed)
  | .fail => some ({ shared with accepting := false }, .failWait)
  | .failWait =>
      if shared.nativeInFlight = 0 then
        some ({ shared with queue := [], staging := false }, .failed)
      else none
  | _ => none

def closeBlock (shared : Shared) : Task → Option (Shared × Task)
  | .close =>
      if shared.closeFinished then some (shared, .closed)
      else if shared.closeStarted then some (shared, .closeAwait)
      else
        some ({ shared with closeStarted := true, accepting := false, staging := false },
          .closeReset)
  | .closeAwait => if shared.closeFinished then some (shared, .closed) else none
  | .closeReset => some (shared, .closeWait)
  | .closeWait =>
      if shared.nativeInFlight = 0 ∧ shared.queue.isEmpty ∧ !shared.drainer then
        some ({ shared with closeFinished := true }, .closed)
      else none
  | _ => none

/-! ## Runs -/

inductive Action where
  | sample (call thread : ℕ) (sample : TransportSample)
  | close (call : ℕ)
  | block (call : ℕ) (declared : Bool)

abbrev State := Config Shared Task

def block (settings : Settings) (shared : Shared) (call : ℕ) (declared : Bool) (task : Task) :
    Option (Shared × Task) :=
  onSampleBlock shared call task <|> drainBlock settings shared task <|>
    subscribeBlock shared declared task <|> closeBlock shared task

/-- The first call is `Subscribe`. -/
def start (thread : ℕ) : State where
  shared :=
    { queue := [], accepting := true, staging := true, closeStarted := false,
      closeFinished := false, drainer := false, drainerId := none, nativeInFlight := 0,
      complete := fun _ => false, declared := none, returned := false }
  tasks := Function.update (fun _ => .idle) 0 (.declare thread)

/-- Only a subscription that was handed out can be closed. -/
def step (settings : Settings) (state : State) : Action → Option State
  | .sample call thread sample =>
      match state.tasks call with
      | .idle => some (state.replace call state.shared (.native thread sample))
      | _ => none
  | .close call =>
      match state.tasks call with
      | .idle =>
          if state.shared.returned then some (state.replace call state.shared .close) else none
      | _ => none
  | .block call declared =>
      (block settings state.shared call declared (state.tasks call)).map fun (shared, next) =>
        state.replace call shared next

end Sitos.Drain
