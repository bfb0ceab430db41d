import Sitos.Cache.Mutations
import Sitos.Core.Tasks
import Sitos.Fence.LaneHistory
import Sitos.Fence.Publisher

/-!
# Local delivery

One attachment of a parameter cache with its own Fence publisher and its own
receiver lane.  Callbacks, writers, waiters and the attaching thread run side by
side; each block is what the source does under one lock, or between two of them.
Whatever a block cannot decide itself (whether memory is left, whether something
throws, what the transport answers) is chosen freely.

A sample passes through admission, application and completion in three different
places, and every one of them may be left by an exception.
-/

namespace Sitos.Delivery

open Sitos.Bytes
open Sitos.AckResult
open Sitos.Batch
open Sitos.FenceWire
open Sitos.Key
open Sitos.LaneHistory
open Sitos.LaneState
open Sitos.Machine
open Sitos.Mutations
open Sitos.Publisher
open Sitos.Sample
open Sitos.Tasks
open Sitos.Token
open Sitos.Value

inductive Phase where
  | buffering
  | live
  | stopping
  deriving DecidableEq, Repr

/-- What stays fixed while a cache is attached.  Without a dispatcher callbacks
run as the transport makes them. -/
structure Attachment where
  keyPrefix : ByteString
  sid : ByteString
  attachGeneration : FenceUuid
  publisherUuid : FenceUuid
  hasDispatcher : Bool

/-- A sequence of the lane and the mutations applied for it. -/
abbrev Delivered := UInt64 × List Mutation

/-- `queue` holds the tasks with a dispatch entry, oldest first.  The last three
fields only note what was submitted on the lane, what has been applied for it and
what waits for the drain. -/
structure Shared where
  phase : Phase
  accepting : Bool
  registered : Bool
  queue : List ℕ
  receiver : History
  snapshotBaseline : ValueMap
  effectiveMap : ValueMap
  buffered : List Mutation
  bufferedFenceObservations : List UInt64
  publisher : FencePublisher
  submitted : List TransportSample
  applied : List Delivered
  held : List Delivered

/-- The next block of a task. -/
inductive Task where
  | idle
  -- DispatchSample and OnSample
  | dispatch (sample : FenceSample)
  | waitTurn (sample : FenceSample) (marker : Bool)
  | onSample (sample : FenceSample) (preadmitted ticketed : Bool)
  | process (sample : FenceSample) (preadmitted ticketed : Bool)
  | evaluate (sample : FenceSample) (token : AckToken) (through : UInt64) (ticketed : Bool)
  | complete (token : AckToken) (result : AckResultV1) (ticketed : Bool)
  | reserve (handle : FenceHandle) (result : AckResultV1) (ticketed : Bool)
  | publish (handle : FenceHandle) (ticketed : Bool)
  | settle (handle : FenceHandle) (mismatch ticketed : Bool)
  | release (ticketed : Bool)
  -- the way out of an exception
  | unwind (sample : FenceSample) (ticketed started : Bool)
  | retainFailure (sample : FenceSample) (admitted started : Bool)
  | closeRegistration
  -- Put and PutBatch
  | applyLocally (mutations : List Mutation)
  -- WaitForLocalDelivery; `covered` counts the submissions before its Fence
  | wait (handle : FenceHandle) (covered : ℕ)
  | delivered (covered : ℕ)
  deriving DecidableEq

/-- How taking a dispatch entry ends after the sample was prepared. -/
inductive Entry where
  | entered
  | refused
  | threw
  deriving DecidableEq, Repr

/-- What a block finds outside itself.  `stops` is after how many mutations an
exception ends their application. -/
structure Choice where
  memory : Memory
  throws : Bool
  hasCapacity : Bool
  entry : Entry
  stops : Option ℕ
  mismatch : Bool
  ending : FencePublisher.WaitEnd
  inTime : Bool

namespace Shared

/-- One call of the receiver lane. -/
def tell (shared : Shared) (memory : Memory) (operation : Operation) : Shared :=
  { shared with receiver := apply memory shared.receiver operation }

/-- Whether that call returns. -/
def returns (shared : Shared) (memory : Memory) : Operation → Bool
  | .admitSequence sequence =>
      (admitSequence memory shared.receiver.lane sequence).returned.isSome
  | .complete sequence failure =>
      (complete memory shared.receiver.lane sequence failure).returned.isSome
  | .recordOverflow observed =>
      (recordOverflow memory shared.receiver.lane observed).returned.isSome
  | .recordMalformed sequence =>
      (recordMalformed memory shared.receiver.lane sequence).returned.isSome
  | .recordRejected observed status diagnostic =>
      (recordRejected memory shared.receiver.lane observed status observed
        diagnostic).returned.isSome

/-- What `Admit` answers; `none` when it throws. -/
def admits (shared : Shared) (memory : Memory) (sequence : UInt64) : Option Bool :=
  (admitSequence memory shared.receiver.lane sequence).returned

end Shared

section Callback

variable (attachment : Attachment)

/-- Data of this attachment's own lane. -/
inductive OwnLane where
  | sequence (sequence : Sequence)
  | malformed (sequence : Option Sequence)

def ownLane : FenceLaneObservation → Option OwnLane
  | .metadata publisher sequence =>
      if publisher = attachment.publisherUuid then some (.sequence sequence) else none
  | .malformed (some publisher) sequence =>
      if publisher = attachment.publisherUuid then some (.malformed sequence) else none
  | _ => none

def isSessionKey (fullKey : ByteString) : Bool :=
  (parseKey attachment.keyPrefix fullKey).any fun parsed =>
    parsed.kind == .session && parsed.sid == attachment.sid

/-- A marker for this attachment takes part in the dispatch order. -/
def isOwnMarker (sample : FenceSample) : Bool :=
  (markerRoute attachment.keyPrefix sample.key).any fun marker =>
    marker.1.target == .cache && marker.1.sid == attachment.sid &&
      marker.1.receiverGeneration == attachment.attachGeneration

/-- Data of the lane takes part in it too. -/
def participatingLane (sample : FenceSample) : Option OwnLane :=
  if isSessionKey attachment sample.key then ownLane attachment sample.lane else none

def mutationsOf (sample : TransportSample) : Option (List Mutation) :=
  decodeSample attachment.keyPrefix attachment.sid sample

/-! ## Dispatch -/

/-- What `prepare` and `overflow` tell the lane. -/
def malformedOperation (sequence : Option Sequence) : Operation :=
  .recordMalformed (sequence.map (·.1))

/-- A call that may throw, and the way on after it. -/
def tellThen (shared : Shared) (choice : Choice) (operation : Operation)
    (returned threw : Task) : Shared × Task :=
  (shared.tell choice.memory operation,
    if shared.returns choice.memory operation then returned else threw)

def enter (shared : Shared) (task : ℕ) (sample : FenceSample) (marker : Bool) (choice : Choice) :
    Shared × Task :=
  match choice.entry with
  | .entered => ({ shared with queue := shared.queue ++ [task] }, .waitTurn sample marker)
  | .refused => (shared, .idle)
  | .threw => (shared, .retainFailure sample false false)

/-- Under the dispatcher's admission lock. -/
def dispatchOwn (shared : Shared) (task : ℕ) (sample : FenceSample) (choice : Choice) :
    OwnLane → Shared × Task
  | .sequence sequence =>
      if !choice.hasCapacity then
        tellThen shared choice (.recordOverflow sequence) .idle (.retainFailure sample false false)
      else
        let prepared := shared.tell choice.memory (.admitSequence sequence)
        match shared.admits choice.memory sequence with
        | none => (prepared, .retainFailure sample false false)
        | some false => (prepared, .idle)
        | some true => enter prepared task sample false choice
  | .malformed sequence =>
      tellThen shared choice (malformedOperation sequence) .idle
        (.retainFailure sample false false)

/-- Up to the dispatch entry. -/
def dispatchSample (shared : Shared) (task : ℕ) (sample : FenceSample) (choice : Choice) :
    Shared × Task :=
  if choice.throws then (shared, .retainFailure sample false false)
  else if isOwnMarker attachment sample then
    if !attachment.hasDispatcher then (shared, .onSample sample false false)
    else if !shared.registered ∨ !choice.hasCapacity then (shared, .idle)
    else enter shared task sample true choice
  else
    match participatingLane attachment sample with
    | none => (shared, .onSample sample false false)
    | some lane =>
        if !attachment.hasDispatcher then (shared, .onSample sample false false)
        else if !shared.registered then (shared, .idle)
        else dispatchOwn shared task sample choice lane

/-! ## OnSample -/

/-- Up to `sequence_mutex`. -/
def onSample (shared : Shared) (sample : FenceSample) (preadmitted ticketed : Bool)
    (choice : Choice) : Shared × Task :=
  if !shared.accepting then (shared, .release ticketed)
  else if choice.throws then (shared, .unwind sample ticketed false)
  else
    match markerRoute attachment.keyPrefix sample.key with
    | some (⟨.cache, sid, receiver, _, publisher, _, through⟩, wellFormed) =>
        if sid ≠ attachment.sid ∨ receiver ≠ attachment.attachGeneration ∨
            publisher ≠ attachment.publisherUuid then (shared, .release ticketed)
        else
          match sample.ack with
          | none => (shared, .release ticketed)
          | some token =>
              if wellFormed && isFenceMarker sample then
                (shared, .evaluate sample token through ticketed)
              else (shared, .complete token (fenceResult .error .applied through) ticketed)
    | _ => (shared, .process sample preadmitted ticketed)

inductive CacheFenceAdmission where
  | bypass
  | apply
  | reject
  deriving DecidableEq, Repr

/-- `none` when the lane throws. -/
def admitFenceObservation (shared : Shared) (lane : FenceLaneObservation)
    (processingValid : Bool) (memory : Memory) : Shared × Option CacheFenceAdmission :=
  match ownLane attachment lane with
  | none => (shared, some .bypass)
  | some (.malformed sequence) =>
      (shared.tell memory (malformedOperation sequence),
        if shared.returns memory (malformedOperation sequence) then some .reject else none)
  | some (.sequence sequence) =>
      let admitted := shared.tell memory (.admitSequence sequence)
      match shared.admits memory sequence with
      | none => (admitted, none)
      | some false => (admitted, some .reject)
      | some true =>
          if processingValid then (admitted, some .apply)
          else
            let failure : Operation := .complete sequence (some .error)
            (admitted.tell memory failure,
              if admitted.returns memory failure then some .reject else none)

/-- The mutations that are reached before an exception. -/
def reached (mutations : List Mutation) (choice : Choice) : List Mutation :=
  choice.stops.elim mutations mutations.take

def noteFor (sequence : Option UInt64) (mutations : List Mutation) : List Delivered :=
  sequence.toList.map fun sequence => (sequence, mutations)

/-- The mutations of a sample are buffered, or applied and completed. -/
def takeIn (shared : Shared) (sample : FenceSample) (sequence : Option UInt64)
    (mutations : List Mutation) (ticketed : Bool) (choice : Choice) : Shared × Task :=
  let taken := reached mutations choice
  let thrown : Task := .unwind sample ticketed (ticketed && !taken.isEmpty)
  match shared.phase with
  | .buffering =>
      let buffering :=
        { shared with
          buffered := shared.buffered ++ taken
          held := shared.held ++ noteFor sequence taken }
      if choice.stops.isSome then (buffering, thrown)
      else
        ({ buffering with
            bufferedFenceObservations :=
              shared.bufferedFenceObservations ++ sequence.toList }, .release ticketed)
  | .live =>
      let applying :=
        { shared with
          effectiveMap := applyMutations shared.snapshotBaseline shared.effectiveMap taken
          applied := shared.applied ++ noteFor sequence taken }
      if choice.stops.isSome then (applying, thrown)
      else
        match sequence with
        | none => (applying, .release ticketed)
        | some sequence =>
            tellThen applying choice (.complete sequence none) (.release ticketed) thrown
  | .stopping => (shared, .release ticketed)

def ownSequence (lane : FenceLaneObservation) : Option UInt64 :=
  match ownLane attachment lane with
  | some (.sequence sequence) => some sequence
  | _ => none

/-- Under `sequence_mutex`. -/
def process (shared : Shared) (sample : FenceSample) (preadmitted ticketed : Bool)
    (choice : Choice) : Shared × Task :=
  match preadmitted, mutationsOf attachment sample.toTransportSample with
  | true, none =>
      match ownSequence attachment sample.lane with
      | none => (shared, .release ticketed)
      | some sequence =>
          tellThen shared choice (.complete sequence (some .error)) (.release ticketed)
            (.unwind sample ticketed false)
  | true, some mutations =>
      takeIn shared sample (ownSequence attachment sample.lane) mutations ticketed choice
  | false, mutations =>
      match admitFenceObservation attachment shared sample.lane mutations.isSome choice.memory,
          mutations with
      | (admitted, none), _ => (admitted, .unwind sample ticketed false)
      | (admitted, some .apply), some mutations =>
          takeIn admitted sample (ownSequence attachment sample.lane) mutations ticketed choice
      | (admitted, some .bypass), some mutations =>
          takeIn admitted sample none mutations ticketed choice
      | (admitted, some _), _ => (admitted, .release ticketed)

/-- Under `sequence_mutex`. -/
def evaluateMarker (shared : Shared) (sample : FenceSample) (token : AckToken)
    (through : UInt64) (ticketed : Bool) (choice : Choice) : Shared × Task :=
  if choice.throws then (shared, .unwind sample ticketed false)
  else (shared, .complete token (evaluate shared.receiver.lane through .applied) ticketed)

/-! ## Failures of the callback -/

/-- Once the dispatch entry has been released. -/
def retainCacheDispatchFailure (shared : Shared) (sample : FenceSample)
    (admitted started : Bool) (choice : Choice) : Shared × Task :=
  match ownLane attachment sample.lane with
  | none => (shared, .idle)
  | some lane =>
      if choice.throws then (shared, .closeRegistration)
      else if !isSessionKey attachment sample.key then (shared, .idle)
      else
        let diagnostic := ascii "covered buffer application failed"
        match lane with
        | .sequence sequence =>
            if started then
              tellThen shared choice (.recordRejected sequence .outcomeUnknown diagnostic) .idle
                .closeRegistration
            else if admitted then
              tellThen shared choice (.recordRejected sequence .error diagnostic) .idle
                .closeRegistration
            else
              tellThen shared choice (.recordOverflow sequence) .idle .closeRegistration
        | .malformed sequence =>
            tellThen shared choice (malformedOperation sequence) .idle .closeRegistration

end Callback

/-! ## Blocks -/

def releaseEntry (shared : Shared) (task : ℕ) (ticketed : Bool) : Shared :=
  if ticketed then { shared with queue := shared.queue.erase task } else shared

/-- `Complete`, up to the waiter's slot. -/
def completeFence (shared : Shared) (token : AckToken) (result : AckResultV1) (ticketed : Bool) :
    Shared × Task :=
  match shared.publisher.pending with
  | none => (shared, .release ticketed)
  | some handle =>
      if handle.token = token then (shared, .reserve handle result ticketed)
      else (shared, .release ticketed)

def reserveWaiter (shared : Shared) (handle : FenceHandle) (result : AckResultV1)
    (ticketed : Bool) (choice : Choice) : Shared × Task :=
  match shared.publisher.reserve handle result choice.mismatch with
  | none => (shared, .release ticketed)
  | some publisher => ({ shared with publisher }, .publish handle ticketed)

def publishWaiter (shared : Shared) (handle : FenceHandle) (ticketed : Bool) (choice : Choice) :
    Shared × Task :=
  ({ shared with publisher := shared.publisher.publish handle choice.mismatch },
    if (shared.publisher.waiters handle.waiter).terminal then .release ticketed
    else .settle handle choice.mismatch ticketed)

def settleFence (shared : Shared) (handle : FenceHandle) (mismatch ticketed : Bool) :
    Shared × Task :=
  let publisher := shared.publisher.resetPending handle.token
  ({ shared with
      publisher := if mismatch then publisher.markGenerationMismatch else publisher },
    .release ticketed)

/-- The answer of `WaitForLocalDelivery` once its wait is over. -/
def answer (handle : FenceHandle) (covered : ℕ) (result : Option AckResultV1) : Task :=
  match result with
  | none => .idle
  | some result =>
      if result.operationKind ≠ .fence ∨ result.durability ≠ .applied ∨
          result.throughSequence ≠ handle.throughSequence then .idle
      else if result.status = .ok then .delivered covered
      else .idle

/-- `BeginFence` itself may still report that the lane was disconnected. -/
def waitFence (shared : Shared) (handle : FenceHandle) (covered : ℕ) (choice : Choice) :
    Option (Shared × Task) :=
  if choice.throws then some (shared, .idle)
  else
    (shared.publisher.wait handle choice.ending choice.inTime).map fun (publisher, result) =>
      ({ shared with publisher }, answer handle covered result)

/-- The next block of a task; `none` while it waits. -/
def block (attachment : Attachment) (shared : Shared) (task : ℕ) (choice : Choice) :
    Task → Option (Shared × Task)
  | .idle | .delivered _ => none
  | .dispatch sample => some (dispatchSample attachment shared task sample choice)
  | .waitTurn sample marker =>
      if shared.queue.head? = some task then some (shared, .onSample sample (!marker) true)
      else none
  | .onSample sample preadmitted ticketed =>
      some (onSample attachment shared sample preadmitted ticketed choice)
  | .process sample preadmitted ticketed =>
      some (process attachment shared sample preadmitted ticketed choice)
  | .evaluate sample token through ticketed =>
      some (evaluateMarker shared sample token through ticketed choice)
  | .complete token result ticketed => some (completeFence shared token result ticketed)
  | .reserve handle result ticketed => some (reserveWaiter shared handle result ticketed choice)
  | .publish handle ticketed => some (publishWaiter shared handle ticketed choice)
  | .settle handle mismatch ticketed => some (settleFence shared handle mismatch ticketed)
  | .release ticketed => some (releaseEntry shared task ticketed, .idle)
  | .unwind sample ticketed started =>
      some (releaseEntry shared task ticketed, .retainFailure sample ticketed started)
  | .retainFailure sample admitted started =>
      some (retainCacheDispatchFailure attachment shared sample admitted started choice)
  | .closeRegistration => some ({ shared with registered := false }, .idle)
  | .applyLocally mutations =>
      if shared.phase ≠ .live then some (shared, .idle)
      else
        some ({ shared with
          effectiveMap := applyMutations shared.snapshotBaseline shared.effectiveMap mutations },
          .idle)
  | .wait handle covered => waitFence shared handle covered choice

/-! ## Steps -/

/-- A write of the cache's user. -/
inductive Call where
  | put (key : ByteString) (value : ParamValue)
  | putBatch (entries : List BatchEntry)
  deriving DecidableEq

def sessionScope (attachment : Attachment) : ByteString := ascii "session/" ++ attachment.sid

/-- The sample that a call submits, unless it is refused. -/
def Call.sample (attachment : Attachment) : Call → Option TransportSample
  | .put key value =>
      (buildKey attachment.keyPrefix (sessionScope attachment) key).map fun fullKey =>
        ⟨.put, fullKey, kSitosV1, encode value⟩
  | .putBatch entries =>
      if entries.isEmpty ∨ !entries.all (isValidKey ·.key) then none
      else
        (buildBatchKey attachment.keyPrefix (sessionScope attachment)).map fun fullKey =>
          ⟨.put, fullKey, kSitosV1Batch, encodeBatch entries⟩

def Call.mutations : Call → List Mutation
  | .put key value => [.put key value]
  | .putBatch entries => entries.map fun entry => .put entry.key entry.value

inductive Action where
  | deliver (task : ℕ) (sample : FenceSample)
  | advance (task : ℕ) (choice : Choice)
  | write (task : ℕ) (call : Call) (answers : FencePublisher.Answers)
  | beginFence (task : ℕ) (token : AckToken) (answers : FencePublisher.Answers)
  | drain (snapshot overlay : ValueMap)
  | noticeMismatch
  | closePublisher
  | closeGate
  | closeRegistration
  | stop (clears : Bool)

abbrev State := Config Shared Task

/-- What the transport may deliver on the lane: copies of what was submitted, and
samples that were spoiled on the way so that they no longer decode. -/
def isGenuine (attachment : Attachment) (shared : Shared) (sample : FenceSample) : Bool :=
  (ownSequence attachment sample.lane).all fun sequence =>
    (mutationsOf attachment sample.toTransportSample).isNone ||
      shared.submitted[sequence.toNat - 1]? == some sample.toTransportSample

/-- The map that a drain starts from. -/
def overlaid (baseline overlay : ValueMap) : ValueMap := fun key =>
  match overlay key with
  | some value => some value
  | none => baseline key

/-- A drain that throws leaves no attachment behind; this one completes every
observation it has buffered. -/
def drain (shared : Shared) (snapshot overlay : ValueMap) : Shared :=
  let completed := shared.bufferedFenceObservations.foldl
    (fun history sequence => apply .available history (.complete sequence none)) shared.receiver
  { shared with
    snapshotBaseline := snapshot
    effectiveMap := applyMutations snapshot (overlaid snapshot overlay) shared.buffered
    receiver := completed
    applied := shared.applied ++ shared.held
    held := []
    buffered := []
    bufferedFenceObservations := []
    phase := .live }

/-- Writers and waiters are let in from the start, although a State is published
only once it is live. -/
def step (attachment : Attachment) (state : State) : Action → Option State
  | .deliver task sample =>
      if state.tasks task ≠ .idle ∨ !isGenuine attachment state.shared sample then none
      else some (state.replace task state.shared (.dispatch sample))
  | .advance task choice =>
      (block attachment state.shared task choice (state.tasks task)).map fun result =>
        state.replace task result.1 result.2
  | .write task call answers =>
      if state.tasks task ≠ .idle ∨ !state.shared.accepting then none
      else
        match call.sample attachment with
        | none => some state
        | some sample =>
            match state.shared.publisher.submitData answers with
            | (publisher, none) => some { state with shared := { state.shared with publisher } }
            | (publisher, some _) =>
                some <| state.replace task
                  { state.shared with
                    publisher
                    submitted := state.shared.submitted ++ [sample] }
                  (if answers.putOk && !publisher.disconnected then
                    .applyLocally call.mutations
                  else .idle)
  | .beginFence task token answers =>
      if state.tasks task ≠ .idle ∨ !state.shared.accepting then none
      else
        match state.shared.publisher.beginFence token answers with
        | (publisher, none) => some { state with shared := { state.shared with publisher } }
        | (publisher, some handle) =>
            some <| state.replace task { state.shared with publisher }
              (.wait handle state.shared.submitted.length)
  | .drain snapshot overlay =>
      if state.shared.phase ≠ .buffering then none
      else some { state with shared := drain state.shared snapshot overlay }
  | .noticeMismatch =>
      some { state with
        shared := { state.shared with
          publisher := state.shared.publisher.markGenerationMismatch.cancelPendingWaiter } }
  | .closePublisher =>
      some { state with
        shared := { state.shared with publisher := state.shared.publisher.disconnect } }
  | .closeGate => some { state with shared := { state.shared with accepting := false } }
  | .closeRegistration => some { state with shared := { state.shared with registered := false } }
  | .stop clears =>
      if state.shared.accepting then none
      else
        let stopped := { state.shared with phase := .stopping }
        some { state with
          shared :=
            if clears ∨ state.shared.phase = .buffering then
              { stopped with
                snapshotBaseline := fun _ => none
                effectiveMap := fun _ => none
                buffered := []
                bufferedFenceObservations := []
                held := [] }
            else stopped }

/-- A candidate whose subscribers have just been declared. -/
def start : State where
  shared :=
    { phase := .buffering
      accepting := true
      registered := true
      queue := []
      receiver := .empty
      snapshotBaseline := fun _ => none
      effectiveMap := fun _ => none
      buffered := []
      bufferedFenceObservations := []
      publisher := .bound .applied
      submitted := []
      applied := []
      held := [] }
  tasks := fun _ => .idle

end Sitos.Delivery
