import Sitos.Client.AckClient
import Sitos.Client.SessionDiscovery
import Sitos.Fence.Diagnostic
import Sitos.Wire.Fence

/-!
# Buffer publishers

One publisher of a session's buffer, used by one caller at a time.  `Push` puts a value under the
next sequence of the publisher's lane; `Fence` puts a marker that covers everything pushed so far
and asks for its acknowledgement until the deadline.  What the transport and the clock do is free at
every point where the source asks them.

The publisher's calls are serialized, so its blocks are functions of the publisher, and at most one
waiter is in use.
-/

namespace Sitos.BufferPublisher

open Sitos.AckClient
open Sitos.AckCodec
open Sitos.AckResult
open Sitos.Bytes
open Sitos.Diagnostic
open Sitos.FenceWire
open Sitos.Key
open Sitos.Token

variable {Cause : Type}

/-- A caller can cast any number to the enumeration. -/
abbrev FenceDurability := Int32

def kApplied : FenceDurability := 0
def kSynced : FenceDurability := 1

structure FenceReceipt where
  throughPublishSequence : UInt64
  durability : FenceDurability
  deriving DecidableEq

structure FenceLaneMetadata where
  publisherUuid : FenceUuid
  sequence : UInt64
  deriving DecidableEq

structure PutOptions where
  ackToken : Option AckToken
  fenceLane : Option FenceLaneMetadata
  deriving DecidableEq

/-- What the transport is asked for. -/
inductive Sent where
  | put (key payload encodingId : ByteString) (options : PutOptions)
  | polled (event : AckClient.Event)

/-- What an unsuccessful call returns, with the status as it is cast. -/
structure PublisherError (Cause : Type) where
  status : Int32
  message : ByteString
  cause : Option Cause

structure Done (Cause Value : Type) where
  sent : List Sent
  returned : Except (PublisherError Cause) Value

def kDisconnected : PublisherError Cause := ⟨statusCode .disconnected, [], none⟩

def invalidArgument (message : ByteString) : PublisherError Cause :=
  ⟨statusCode .invalidArgument, message, none⟩

def kNoFenceProfile : ByteString := ascii "Transport does not support Fence"
def kSequenceExhausted : ByteString := ascii "Fence sequence exhausted"
def kDeadlineMustBePositive : ByteString := ascii "Fence deadline must be positive"
def kSyncedNeedsBarrier : ByteString := ascii "synchronized Fence requires the #105 barrier"
def kFencePending : ByteString := ascii "Fence already pending"
def kInvalidBinding : ByteString := ascii "invalid Fence binding"
def kInvalidBufferKey : ByteString := ascii "invalid buffer key"
def kInvalidDurability : ByteString := ascii "invalid fence durability"
def kSyncedNeedsDurable : ByteString := ascii "synchronized Fence requires a durable buffer"
def kFingerprintMismatch : ByteString := ascii "Fence acknowledgement fingerprint mismatch"

/-! ## The publisher -/

/-- What a publisher is bound to when it is opened. -/
structure Binding where
  keyPrefix : ByteString
  sid : ByteString
  receiverGeneration : FenceUuid
  publisherUuid : FenceUuid
  bufferClass : BufferClass
  transportGeneration : UInt64

structure FenceWaiterState where
  terminal : Bool
  reserved : Bool
  result : Option RawAckResult
  completedOnBoundGeneration : Bool
  completedAt : Option ℤ

def FenceWaiterState.fresh : FenceWaiterState :=
  { terminal := false, reserved := false, result := none, completedOnBoundGeneration := false,
    completedAt := none }

structure FenceHandle (Cause : Type) where
  token : AckToken
  throughSequence : UInt64
  deadline : ℤ
  timeoutDiagnostic : Option (ErrorInfo Cause)

/-- `waiter` is the one of the handle that was made last. -/
structure FencePublisher (Cause : Type) where
  durability : AckDurability
  lastSequence : UInt64
  exhausted : Bool
  acceptingOperations : Bool
  disconnected : Bool
  generationMismatch : Bool
  syncedAllowed : Bool
  mayHaveSubmitted : Bool
  firstSubmissionError : Option (ErrorInfo Cause)
  pending : Option (FenceHandle Cause)
  waiter : FenceWaiterState

/-- A publisher as it is made, before any call. -/
def FencePublisher.start (syncedAllowed : Bool) : FencePublisher Cause :=
  { durability := .applied, lastSequence := 0, exhausted := false, acceptingOperations := true,
    disconnected := false, generationMismatch := false, syncedAllowed, mayHaveSubmitted := false,
    firstSubmissionError := none, pending := none, waiter := .fresh }

/-- The transport's generation and the clock, where a call looks at them. -/
structure Sample where
  generation : UInt64
  now : ℤ

/-- What a call on the lane meets: the samples before and after its `Put`, whether the transport
supports Fences, and how the `Put` fails if it does. -/
structure Lane (Cause : Type) where
  before : Sample
  supported : Bool
  put : Option (ErrorInfo Cause)
  after : Sample

/-- A pass of the polling loop, with the samples and the instant of the result that it publishes if
its query observes one. -/
structure WaitRound (Cause : Type) where
  before : ℤ
  after : ℤ
  replies : List Reply
  get : Option (ErrorInfo Cause)
  sampled : UInt64
  validated : UInt64
  completedAt : ℤ

/-- What a wait meets: the sample at its start, its passes, the clock at its end, and the clock of a
wait that is refused. -/
structure WaitLink (Cause : Type) where
  sample : Sample
  rounds : List (WaitRound Cause)
  settledAt : ℤ
  refusedAt : ℤ

def terminalResultBefore (waiter : FenceWaiterState) (deadline : ℤ) : Option RawAckResult :=
  if waiter.terminal ∧ waiter.completedAt.any (· < deadline) then waiter.result else none

def terminalResultPublishedOnBoundGenerationBefore (waiter : FenceWaiterState) (deadline : ℤ) :
    Bool :=
  waiter.terminal && waiter.completedOnBoundGeneration && waiter.result.isSome &&
    waiter.completedAt.any (· < deadline)

def ErrorInfo.sanitized (error : ErrorInfo Cause) : ErrorInfo Cause :=
  { error with message := sanitizeFenceDiagnostic error.message }

namespace FencePublisher

def disconnectedResult (publisher : FencePublisher Cause) (through : UInt64) : RawAckResult :=
  raw (fenceResult .disconnected publisher.durability through)

def cancelPendingWaiter (publisher : FencePublisher Cause) (now : ℤ) : FencePublisher Cause :=
  match publisher.pending with
  | none => publisher
  | some handle =>
      let publisher := { publisher with pending := none }
      if publisher.waiter.terminal then publisher
      else
        { publisher with
          waiter := { publisher.waiter with
            result := some (publisher.disconnectedResult handle.throughSequence)
            completedOnBoundGeneration := false
            completedAt := some now
            terminal := true } }

def disconnect (publisher : FencePublisher Cause) (now : ℤ) : FencePublisher Cause :=
  cancelPendingWaiter { publisher with disconnected := true, acceptingOperations := false } now

def markGenerationMismatch (publisher : FencePublisher Cause) : FencePublisher Cause :=
  { publisher with generationMismatch := true, acceptingOperations := false }

def close (publisher : FencePublisher Cause) (now : ℤ) : FencePublisher Cause :=
  disconnect { publisher with acceptingOperations := false } now

def setDurability (publisher : FencePublisher Cause) (durability : AckDurability) :
    FencePublisher Cause :=
  { publisher with durability }

variable (binding : Binding)

/-- The publisher, and whether it may go on. -/
def checkGeneration (publisher : FencePublisher Cause) (sample : Sample) :
    FencePublisher Cause × Bool :=
  if publisher.disconnected then (publisher, false)
  else if !publisher.generationMismatch && sample.generation == binding.transportGeneration then
    (publisher, true)
  else (publisher.disconnect sample.now, false)

def noteSubmissionError (publisher : FencePublisher Cause) :
    Option (ErrorInfo Cause) → FencePublisher Cause
  | none => publisher
  | some error =>
      { publisher with
        mayHaveSubmitted := true
        firstSubmissionError :=
          publisher.firstSubmissionError <|> some (ErrorInfo.sanitized error) }

/-- The publisher once its next sequence was put, whatever the `Put` returned. -/
def submitted (publisher : FencePublisher Cause) (put : Option (ErrorInfo Cause)) :
    FencePublisher Cause :=
  let sequence := publisher.lastSequence + 1
  noteSubmissionError
    { publisher with
      lastSequence := sequence
      exhausted := publisher.exhausted || sequence == 0xFFFFFFFFFFFFFFFF } put

/-- What a `Put` returned, passed on. -/
def putResult : Option (ErrorInfo Cause) → Except (PublisherError Cause) Unit
  | none => .ok ()
  | some error => .error ⟨statusCode error.status, error.message, some error.cause⟩

def submitData (publisher : FencePublisher Cause) (key payload encodingId : ByteString)
    (lane : Lane Cause) : FencePublisher Cause × Done Cause Unit :=
  if !publisher.acceptingOperations then (publisher, ⟨[], .error kDisconnected⟩)
  else
    match publisher.checkGeneration binding lane.before with
    | (publisher, false) => (publisher, ⟨[], .error kDisconnected⟩)
    | (publisher, true) =>
        if !lane.supported then (publisher, ⟨[], .error (invalidArgument kNoFenceProfile)⟩)
        else if publisher.exhausted then
          (publisher, ⟨[], .error (invalidArgument kSequenceExhausted)⟩)
        else
          let sequence := publisher.lastSequence + 1
          let sent :=
            [Sent.put key payload encodingId ⟨none, some ⟨binding.publisherUuid, sequence⟩⟩]
          match (publisher.submitted lane.put).checkGeneration binding lane.after with
          | (publisher, false) =>
              ({ publisher with mayHaveSubmitted := true }, ⟨sent, .error kDisconnected⟩)
          | (publisher, true) => (publisher, ⟨sent, putResult lane.put⟩)

def kFenceMarker : ByteString := [kFenceSchemaVersion]

/-- The publisher once the marker of a handle was put.  The handle is pending without its
diagnostic, and the errors recorded so far have gone into it. -/
def marked (publisher : FencePublisher Cause) (handle : FenceHandle Cause)
    (put : Option (ErrorInfo Cause)) : FencePublisher Cause :=
  { publisher with
    pending := some { handle with timeoutDiagnostic := none }
    waiter := .fresh
    firstSubmissionError := none
    mayHaveSubmitted := publisher.mayHaveSubmitted || put.isSome }

/-- The waiter is published before the marker is submitted, and the deadline starts between the
two. -/
def beginFence (publisher : FencePublisher Cause) (totalDeadline : ℤ) (random : AckToken)
    (started : ℤ) (lane : Lane Cause) :
    FencePublisher Cause × Done Cause (FenceHandle Cause) :=
  if totalDeadline ≤ 0 then
    if !publisher.acceptingOperations then (publisher, ⟨[], .error kDisconnected⟩)
    else (publisher, ⟨[], .error (invalidArgument kDeadlineMustBePositive)⟩)
  else if !publisher.acceptingOperations then (publisher, ⟨[], .error kDisconnected⟩)
  else
    match publisher.checkGeneration binding lane.before with
    | (publisher, false) => (publisher, ⟨[], .error kDisconnected⟩)
    | (publisher, true) =>
        if !lane.supported then (publisher, ⟨[], .error (invalidArgument kNoFenceProfile)⟩)
        else if publisher.durability = .synced ∧ !publisher.syncedAllowed then
          (publisher, ⟨[], .error (invalidArgument kSyncedNeedsBarrier)⟩)
        else if publisher.pending.isSome then
          (publisher, ⟨[], .error (invalidArgument kFencePending)⟩)
        else
          match buildBufferFenceMarkerKey binding.keyPrefix binding.sid binding.receiverGeneration
              binding.bufferClass binding.publisherUuid publisher.durability
              publisher.lastSequence with
          | none => (publisher, ⟨[], .error (invalidArgument kInvalidBinding)⟩)
          | some key =>
              let token := generateAckToken random
              let deadline := saturatingDeadlineAt started totalDeadline
              -- the errors recorded so far belong to this Fence alone
              let diagnostic := publisher.firstSubmissionError <|> lane.put.map ErrorInfo.sanitized
              let handle : FenceHandle Cause :=
                ⟨token, publisher.lastSequence, deadline, diagnostic⟩
              let sent := [Sent.put key kFenceMarker kSitosV1Fence ⟨some token, none⟩]
              match (publisher.marked handle lane.put).checkGeneration binding lane.after with
              | (publisher, true) => (publisher, ⟨sent, .ok handle⟩)
              | (publisher, false) =>
                  let publisher := { publisher with mayHaveSubmitted := true }
                  if terminalResultPublishedOnBoundGenerationBefore publisher.waiter deadline then
                    (publisher, ⟨sent, .ok handle⟩)
                  else (publisher, ⟨sent, .error kDisconnected⟩)

/-! ## Waiting -/

/-- Nothing else runs between the reservation of the waiter and its final result. -/
def publishWaiterResult (publisher : FencePublisher Cause) (through : UInt64)
    (result : RawAckResult) (sampled validated : UInt64) (completedAt : ℤ) :
    FencePublisher Cause × Option Bool :=
  let mismatch := publisher.generationMismatch || sampled != binding.transportGeneration
  if publisher.waiter.terminal ∨ publisher.waiter.reserved then (publisher, none)
  else
    let mismatch := mismatch || validated != binding.transportGeneration
    ({ publisher with
        waiter :=
          { terminal := true
            reserved := false
            result := some (if mismatch then publisher.disconnectedResult through else result)
            completedOnBoundGeneration := !mismatch
            completedAt := some completedAt } },
      some mismatch)

/-- What the wait does with a result that its query observed. -/
def observe (publisher : FencePublisher Cause) (through : UInt64) (result : RawAckResult)
    (round : WaitRound Cause) : FencePublisher Cause :=
  match publisher.publishWaiterResult binding through result round.sampled round.validated
      round.completedAt with
  | (publisher, some true) => publisher.markGenerationMismatch
  | (publisher, _) => publisher

/-- The publisher after the query of a pass, if the pass gets to it. -/
def afterRound (publisher : FencePublisher Cause) (handle : FenceHandle Cause)
    (queryKey : ByteString) (round : WaitRound Cause) : FencePublisher Cause :=
  if (terminalResultBefore publisher.waiter handle.deadline).isSome ∨
      ceilMilliseconds (handle.deadline - round.before) ≤ 0 then publisher
  else
    match (deliver queryKey round.replies ⟨none, none⟩).observed with
    | none => publisher
    | some result => publisher.observe binding handle.throughSequence result round

/-- The pass as the polling loop sees it: it is cancelled by a result of the waiter. -/
def asRound (publisher : FencePublisher Cause) (handle : FenceHandle Cause)
    (queryKey : ByteString) (round : WaitRound Cause) : Round Cause :=
  { before := round.before
    after := round.after
    cancelledBefore := terminalResultBefore publisher.waiter handle.deadline
    cancelledAfter := terminalResultBefore
      (publisher.afterRound binding handle queryKey round).waiter handle.deadline
    replies := round.replies
    get := round.get }

def pollPass (publisher : FencePublisher Cause) (handle : FenceHandle Cause)
    (queryKey : ByteString) (latest : Latest Cause) (round : WaitRound Cause) :
    FencePublisher Cause × Pass Cause :=
  (publisher.afterRound binding handle queryKey round,
    pass ⟨true, true⟩ queryKey handle.deadline latest
      (publisher.asRound binding handle queryKey round))

/-- The polling loop, through as many passes as it is given. -/
def pollRounds (handle : FenceHandle Cause) (queryKey : ByteString) :
    List (WaitRound Cause) → FencePublisher Cause → Latest Cause →
      FencePublisher Cause × Outcome Cause
  | [], publisher, _ => (publisher, ⟨[], none⟩)
  | round :: rounds, publisher, latest =>
      let (publisher, done) := publisher.pollPass binding handle queryKey latest round
      match done.next with
      | .inl result => (publisher, ⟨done.events, some result⟩)
      | .inr latest =>
          let (publisher, rest) := pollRounds handle queryKey rounds publisher latest
          (publisher, ⟨done.events ++ rest.events, rest.returned⟩)

def pollAcknowledgement (publisher : FencePublisher Cause) (handle : FenceHandle Cause)
    (rounds : List (WaitRound Cause)) : FencePublisher Cause × Outcome Cause :=
  match buildMetaAckKey binding.keyPrefix (formatAckToken handle.token) with
  | none => (publisher, ⟨[], some (.error ⟨.invalidArgument, kInvalidPrefix, none⟩)⟩)
  | some queryKey =>
      pollRounds binding handle queryKey rounds publisher (.start handle.timeoutDiagnostic)

def resetPending (publisher : FencePublisher Cause) (token : AckToken) : FencePublisher Cause :=
  if publisher.pending.any (·.token == token) then { publisher with pending := none }
  else publisher

def asError (failure : Failure Cause) : PublisherError Cause :=
  ⟨statusCode failure.status, failure.message, failure.cause⟩

def kTimeout : PublisherError Cause := ⟨statusCode .timeout, [], none⟩

/-- The result of a wait, decided under the waiter's lock after the loop has ended. -/
def settle (publisher : FencePublisher Cause) (deadline now : ℤ) :
    Except (Failure Cause) RawAckResult →
      FencePublisher Cause × Except (PublisherError Cause) RawAckResult
  | .ok result =>
      if !publisher.waiter.terminal then
        if now < deadline then
          ({ publisher with
              waiter := { publisher.waiter with
                result := some result
                completedAt := some now
                terminal := true } }, .ok result)
        else (publisher, .error kTimeout)
      else
        match terminalResultBefore publisher.waiter deadline with
        | some result => (publisher, .ok result)
        | none => (publisher, .error kTimeout)
  | .error failure =>
      match terminalResultBefore publisher.waiter deadline with
      | some result => (publisher, .ok result)
      | none => (publisher, .error (asError failure))

/-- The wait of a publisher that takes no more operations. -/
def waitRefused (publisher : FencePublisher Cause) (handle : FenceHandle Cause) (now : ℤ) :
    FencePublisher Cause × Except (PublisherError Cause) RawAckResult :=
  match terminalResultBefore publisher.waiter handle.deadline with
  | some result => (publisher, .ok result)
  | none =>
      if publisher.waiter.terminal then (publisher, .error kTimeout)
      else if now < handle.deadline then
        let retained := publisher.disconnectedResult handle.throughSequence
        ({ publisher with
            waiter := { publisher.waiter with
              terminal := true
              result := some retained
              completedAt := some now } }, .ok retained)
      else
        ({ publisher with waiter := { publisher.waiter with terminal := true } }, .error kTimeout)

/-- A wait that asks for the acknowledgement; it returns nothing while it goes on. -/
def waitPolled (publisher : FencePublisher Cause) (handle : FenceHandle Cause)
    (link : WaitLink Cause) :
    FencePublisher Cause × List AckClient.Event ×
      Option (Except (PublisherError Cause) RawAckResult) :=
  let polled := publisher.pollAcknowledgement binding handle link.rounds
  match polled.2.returned with
  | none => (polled.1, polled.2.events, none)
  | some outcome =>
      let settled := polled.1.settle handle.deadline link.settledAt outcome
      (settled.1.resetPending handle.token, polled.2.events, some settled.2)

def wait (publisher : FencePublisher Cause) (handle : FenceHandle Cause) (link : WaitLink Cause) :
    FencePublisher Cause × List AckClient.Event ×
      Option (Except (PublisherError Cause) RawAckResult) :=
  match terminalResultBefore publisher.waiter handle.deadline with
  | some result => (publisher, [], some (.ok result))
  | none =>
      if !publisher.acceptingOperations then
        let (publisher, result) := publisher.waitRefused handle link.refusedAt
        (publisher.resetPending handle.token, [], some result)
      else
        let current := !publisher.generationMismatch &&
          link.sample.generation == binding.transportGeneration
        let publisher :=
          if current then publisher
          else publisher.markGenerationMismatch.cancelPendingWaiter link.sample.now
        publisher.waitPolled binding handle link

end FencePublisher

/-! ## The calls of a caller -/

open FencePublisher

variable (binding : Binding)

def push (publisher : FencePublisher Cause) (key value : ByteString) (lane : Lane Cause) :
    FencePublisher Cause × Done Cause Unit :=
  if !publisher.acceptingOperations then (publisher, ⟨[], .error kDisconnected⟩)
  else
    match buildBufferKey binding.keyPrefix binding.sid binding.bufferClass key with
    | none => (publisher, ⟨[], .error ⟨statusCode .invalidKey, kInvalidBufferKey, none⟩⟩)
    | some fullKey => publisher.submitData binding fullKey value (ascii "zenoh/bytes") lane

/-- What a Fence meets. -/
structure FenceLink (Cause : Type) where
  lane : Lane Cause
  random : AckToken
  started : ℤ
  wait : WaitLink Cause
  closedAt : ℤ

def toAckDurability (durability : FenceDurability) : AckDurability :=
  if durability = kSynced then .synced else .applied

/-- What is made of an acknowledgement; every answer but a receipt closes the publisher. -/
def judgeAcknowledgement (durability : FenceDurability) (through : UInt64)
    (acknowledgement : RawAckResult) : Except (PublisherError Cause) FenceReceipt :=
  if acknowledgement.operationKind ≠ kindCode .fence ∨
      acknowledgement.durability ≠ durabilityCode (toAckDurability durability) ∨
      acknowledgement.throughSequence ≠ through then
    .error ⟨statusCode .typeMismatch, kFingerprintMismatch, none⟩
  else if acknowledgement.status ≠ statusCode .ok then
    .error ⟨acknowledgement.status, acknowledgement.message, none⟩
  else .ok ⟨acknowledgement.throughSequence, durability⟩

/-- A Fence: what it sends, and what it returns once its wait has ended. -/
structure Fenced (Cause : Type) where
  sent : List Sent
  returned : Option (Except (PublisherError Cause) FenceReceipt)

/-- What is made of a wait. -/
def conclude (durability : FenceDurability) (through : UInt64) (closedAt : ℤ) (sent : List Sent) :
    FencePublisher Cause × List AckClient.Event ×
      Option (Except (PublisherError Cause) RawAckResult) → FencePublisher Cause × Fenced Cause
  | (publisher, events, none) => (publisher, ⟨sent ++ events.map .polled, none⟩)
  | (publisher, events, some (.error failure)) =>
      (publisher.close closedAt, ⟨sent ++ events.map .polled, some (.error failure)⟩)
  | (publisher, events, some (.ok acknowledgement)) =>
      let judged := judgeAcknowledgement durability through acknowledgement
      (if judged.isOk then publisher else publisher.close closedAt,
        ⟨sent ++ events.map .polled, some judged⟩)

/-- A Fence that has no handle to wait for ends at once. -/
def afterBegin (durability : FenceDurability) (link : FenceLink Cause) :
    FencePublisher Cause × Done Cause (FenceHandle Cause) → FencePublisher Cause × Fenced Cause
  | (publisher, ⟨sent, .error failure⟩) => (publisher, ⟨sent, some (.error failure)⟩)
  | (publisher, ⟨sent, .ok handle⟩) =>
      conclude durability handle.throughSequence link.closedAt sent
        (publisher.wait binding handle link.wait)

def fence (publisher : FencePublisher Cause) (durability : FenceDurability) (timeout : ℤ)
    (link : FenceLink Cause) : FencePublisher Cause × Fenced Cause :=
  if !publisher.acceptingOperations then (publisher, ⟨[], some (.error kDisconnected)⟩)
  else if durability ≠ kApplied ∧ durability ≠ kSynced then
    (publisher, ⟨[], some (.error (invalidArgument kInvalidDurability))⟩)
  else if durability = kSynced ∧ binding.bufferClass = .ephemeral then
    (publisher, ⟨[], some (.error (invalidArgument kSyncedNeedsDurable))⟩)
  else
    let publisher := publisher.setDurability (toAckDurability durability)
    afterBegin binding durability link
      (publisher.beginFence binding timeout link.random link.started link.lane)

/-! ## Opening -/

structure ClientConfig where
  keyPrefix : ByteString
  zenohConfigJson : Option ByteString
  queryTimeout : ℤ

open SessionDiscovery (discoverSessionGeneration)

def kInvalidClientPrefix : SessionDiscovery.ErrorInfo :=
  ⟨.invalidKey, ascii "invalid client prefix"⟩

def kQueryTimeoutNotPositive : SessionDiscovery.ErrorInfo :=
  ⟨.invalidArgument, ascii "query timeout must be positive"⟩

def kEmptyConfiguration : SessionDiscovery.ErrorInfo :=
  ⟨.invalidArgument, ascii "zenoh configuration must not be empty"⟩

def kInjectedTransport : SessionDiscovery.ErrorInfo :=
  ⟨.invalidArgument, ascii "injected transport cannot apply zenoh configuration"⟩

def kTransportWithoutFence : SessionDiscovery.ErrorInfo := ⟨.invalidArgument, kNoFenceProfile⟩

def validateClientConfig (config : ClientConfig) : Except SessionDiscovery.ErrorInfo Unit :=
  if !isValidPrefix config.keyPrefix then .error kInvalidClientPrefix
  else if config.queryTimeout ≤ 0 then .error kQueryTimeoutNotPositive
  else if config.zenohConfigJson = some [] then .error kEmptyConfiguration
  else .ok ()

/-- `get` is the transport's answer to a query with the timeout of the configuration. -/
def openWithTransport (config : ClientConfig) (sid : ByteString) (bufferClass : BufferClass)
    (supported : Bool)
    (get : ByteString → ℤ → Option SessionDiscovery.ErrorInfo × List Query.Reply)
    (random : AckToken) (transportGeneration : UInt64) :
    Except SessionDiscovery.ErrorInfo (Binding × FencePublisher Cause) := do
  validateClientConfig config
  if config.zenohConfigJson.isSome then throw kInjectedTransport
  if !isValidSessionId sid then throw SessionDiscovery.kInvalidSessionId
  if !supported then throw kTransportWithoutFence
  let generation ← discoverSessionGeneration config.keyPrefix sid fun key =>
    get key config.queryTimeout
  pure
    ({ keyPrefix := config.keyPrefix, sid, receiverGeneration := generation,
       publisherUuid := generateAckToken random, bufferClass, transportGeneration },
      FencePublisher.start true)

/-! ## Runs -/

inductive Call (Cause : Type) where
  | push (key value : ByteString) (lane : Lane Cause)
  | fence (durability : FenceDurability) (timeout : ℤ) (link : FenceLink Cause)

inductive Returned (Cause : Type) where
  | pushed (result : Except (PublisherError Cause) Unit)
  | fenced (result : Except (PublisherError Cause) FenceReceipt)

/-- A call that has returned, with what it sent. -/
structure Entry (Cause : Type) where
  call : Call Cause
  sent : List Sent
  returned : Returned Cause

/-- A call that returns. -/
def step (publisher : FencePublisher Cause) :
    Call Cause → Option (FencePublisher Cause × Entry Cause)
  | .push key value lane =>
      let (next, done) := push binding publisher key value lane
      some (next, ⟨.push key value lane, done.sent, .pushed done.returned⟩)
  | .fence durability timeout link =>
      let (next, fenced) := fence binding publisher durability timeout link
      fenced.returned.map fun returned =>
        (next, ⟨.fence durability timeout link, fenced.sent, .fenced returned⟩)

/-- Calls one after the other, each of which returns. -/
def run (publisher : FencePublisher Cause) :
    List (Call Cause) → Option (FencePublisher Cause × List (Entry Cause))
  | [] => some (publisher, [])
  | call :: calls => do
      let (publisher, entry) ← step binding publisher call
      let (publisher, entries) ← run publisher calls
      pure (publisher, entry :: entries)

end Sitos.BufferPublisher
