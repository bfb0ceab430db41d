import Sitos.Core.Tasks
import Sitos.Fence.LaneJournal
import Sitos.Fence.ReceiverRuns
import Sitos.Node.AckApply
import Sitos.Node.AckFingerprint
import Sitos.Node.DurableWrite
import Sitos.Wire.Attachment

/-!
# Buffer samples and their markers at the node

What a started node does with the samples that a transport delivers, any number of them side by
side, while sessions are created and closed.  A call goes through `DispatchSample`, waits for its
turn and runs `OnSample`; the block of a call is what the source does under one lock, or between
two of them.  The order in which calls get their turn is left open, and so is what the outside
does: how an engine call ends, whether the dispatch lane has room, and whether the block throws.
The receiver registry itself never runs out of memory here.

Session records are numbered in the order they are made.  Beside the registry the state keeps, for
each lane, everything the lane was told and the data that was applied for it; no block reads these.
-/

namespace Sitos.BufferFence

open Sitos.AckApply (kParameterLane laneBusyResult operationKind)
open Sitos.AckFingerprint (AckOperation)
open Sitos.AckResult
open Sitos.Attachment
open Sitos.Bytes
open Sitos.Core
open Sitos.DurableWrite
open Sitos.FenceWire
open Sitos.Key
open Sitos.LaneHistory
open Sitos.Machine
open Sitos.Receiver
open Sitos.Registry
open Sitos.Sample
open Sitos.Tasks
open Sitos.Token

/-- A sample as the transport hands it over. -/
structure Delivered where
  sample : TransportSample
  observations : AttachmentObservations
  deriving DecidableEq

/-! ## Sessions -/

inductive Phase where
  | creating
  | active
  | closing
  | closed
  deriving DecidableEq, Repr

/-- The engine of a session's durable buffers, and what of its contents outlives a loss of power. -/
structure Engine where
  contents : Store
  lasting : Store
  powerLossDurable : Bool

theorem length_zeros : (List.replicate 16 (0 : UInt8)).length = 16 := rfl

def noUuid : FenceUuid := ⟨_, length_zeros⟩

/-- `admitted` and `accepting` are those of the two dispatch registrations, `leases` counts the
admissions of the record itself. -/
structure SessionRecord where
  sid : ByteString
  generation : FenceUuid := noUuid
  durableBuffers : Bool
  ephemeralBuffers : Bool
  engine : Option Engine := none
  dispatch : Bool := true
  catalogued : Bool := false
  reconciled : Bool := false
  phase : Phase := .creating
  accepting : BufferClass → Bool := fun _ => true
  admitted : BufferClass → ℕ := fun _ => 0
  leases : ℕ := 0

def SessionRecord.lane (record : SessionRecord) (bufferClass : BufferClass)
    (publisherUuid : FenceUuid) : LaneId :=
  ⟨record.sid, record.generation, bufferClass, publisherUuid⟩

/-- The node's fixed surroundings; `dispatcher` is whether the transport orders samples. -/
structure Node (Fingerprint : Type) where
  keyPrefix : ByteString
  dispatcher : Bool
  fingerprintOf : AckOperation → Fingerprint

/-- A datum that was applied: its sequence and its sample. -/
abbrev Datum := UInt64 × TransportSample

/-- `unavailable` is the latch of the catalog, `applying` whether the application lane is held. -/
structure Shared (Fingerprint : Type) where
  accepting : Bool
  unavailable : Bool
  applying : Bool
  sessions : SortedMap ByteString ℕ
  records : ℕ → SessionRecord
  allocated : ℕ
  receivers : FenceReceiverRegistry
  acks : AckRegistry AckToken Fingerprint
  histories : LaneId → History
  applied : LaneId → List Datum

/-! ## Calls under way -/

/-- The class of a session that has admitted a call to its dispatch. -/
abbrev Ticket := ℕ × BufferClass

/-- A call that applies a sample of a parameter or a buffer. -/
structure DataCall where
  sample : TransportSample
  lane : FenceLaneObservation
  ticket : Option Ticket
  preadmitted : Bool
  deriving DecidableEq

/-- A call that applies a Fence marker; `serialized` is whether it holds the application lane. -/
structure MarkerCall where
  sample : TransportSample
  token : AckToken
  route : FenceMarkerRoute
  routeValid : Bool
  serialized : Bool
  ticket : Option Ticket
  deriving DecidableEq

/-- The next block of a call.  A record stands for its admission lease. -/
inductive Task where
  | idle
  -- DispatchSample
  | arrived (delivered : Delivered)
  | failed (delivered : Delivered)
  -- OnSample
  | entering (delivered : Delivered) (ticket : Option Ticket) (preadmitted : Bool)
  | unwinding (call : DataCall) (record : Option ℕ) (started : Bool)
  | caught (call : DataCall) (started : Bool)
  -- ApplyParameterSample
  | selecting (call : DataCall)
  | admitting (call : DataCall) (record : ℕ) (bufferClass : BufferClass) (relativeKey : ByteString)
  | writing (call : DataCall) (record : ℕ) (bufferClass : BufferClass) (relativeKey : ByteString)
  | completing (call : DataCall) (record : ℕ) (bufferClass : BufferClass)
      (failure : Option Status)
  -- ApplyAcknowledgedSample
  | acknowledging (sample : TransportSample) (token : AckToken) (ticket : Option Ticket)
  | publishing (sample : TransportSample) (token : AckToken) (ticket : Option Ticket)
  -- ApplyBufferFenceMarker
  | looking (call : MarkerCall)
  | claiming (call : MarkerCall) (record : Option ℕ) (status : Status)
  | evaluating (call : MarkerCall) (record : Option ℕ) (status : Status)
  | retaining (call : MarkerCall) (record : Option ℕ) (result : AckResultV1)

inductive SyncEnd where
  | done
  | failed (status : Status) (message : ByteString)
  | threw
  deriving DecidableEq

/-- How the call of `DispatchSample` that threw keeps what it was about. -/
inductive Recovery where
  | recorded
  | closed
  | lost
  deriving DecidableEq, Repr

/-- What a block finds outside itself. -/
structure Choice where
  throws : Bool := false
  room : Bool := true
  recovery : Recovery := .recorded
  reentrant : Bool := false
  readEnd : ReadEnd := .served
  writeEnd : WriteEnd := .done
  syncEnd : SyncEnd := .done
  memory : Memory := .available
  result : AckResultV1 := Apply.putFailure .invalidArgument

variable {Fingerprint : Type} [DecidableEq Fingerprint]

namespace Shared

variable (shared : Shared Fingerprint)

def modify (record : ℕ) (change : SessionRecord → SessionRecord) : Shared Fingerprint :=
  { shared with
    records := Function.update shared.records record (change (shared.records record)) }

/-! ## The receiver registry -/

/-- What a lane is told by a call of the registry. -/
def told : Receiver.Operation → Option (LaneId × LaneHistory.Operation)
  | .admission lane sequence => some (lane, .admitSequence sequence)
  | .complete lane sequence failure => some (lane, .complete sequence failure)
  | .overflow lane sequence => some (lane, .recordOverflow sequence)
  | .malformed sid sessionGeneration bufferClass part =>
      part.publisherUuid.map fun publisherUuid =>
        (⟨sid, sessionGeneration, bufferClass, publisherUuid⟩, .recordMalformed part.sequence)
  | .record _ _ _ | .erase _ | .clear => none

/-- A call of the registry, which a lane hears of if there is a place for it. -/
def receive (operation : Receiver.Operation) : Shared Fingerprint × Bool :=
  let call := shared.receivers.perform (.available, operation)
  ({ shared with
      receivers := call.registry
      histories :=
        match told operation with
        | none => shared.histories
        | some (lane, heard) =>
            if (call.registry.find lane).isSome then
              Function.update shared.histories lane
                (LaneHistory.apply .available (shared.histories lane) heard)
            else shared.histories },
    call.returned == some true)

def admitBufferObservation (lane : LaneId) (sequence : Sequence) : Shared Fingerprint × Bool :=
  shared.receive (.admission lane sequence.val)

def completeBufferObservation (lane : LaneId) (sequence : Sequence) (failure : Option Status) :
    Shared Fingerprint :=
  (shared.receive (.complete lane sequence.val failure)).1

def recordMalformedBuffer (record : ℕ) (bufferClass : BufferClass)
    (publisherUuid : Option FenceUuid) (sequence : Option Sequence) : Shared Fingerprint :=
  (shared.receive (.malformed (shared.records record).sid (shared.records record).generation
    bufferClass ⟨publisherUuid, sequence.map Subtype.val⟩)).1

def recordBufferOverflow (lane : LaneId) (sequence : Sequence) : Shared Fingerprint :=
  (shared.receive (.overflow lane sequence.val)).1

/-- The lanes of a session are dropped, and what was known of them. -/
def eraseSession (sid : ByteString) : Shared Fingerprint :=
  { shared with
    receivers := shared.receivers.eraseSession sid
    histories := fun lane => if lane.sid = sid then .empty else shared.histories lane
    applied := fun lane => if lane.sid = sid then [] else shared.applied lane }

/-! ## Locks and leases -/

def lane (record : ℕ) (bufferClass : BufferClass) (publisherUuid : FenceUuid) : LaneId :=
  (shared.records record).lane bufferClass publisherUuid

def enterDispatch (ticket : Ticket) : Shared Fingerprint :=
  shared.modify ticket.1 fun record =>
    { record with
      admitted := Function.update record.admitted ticket.2 (record.admitted ticket.2 + 1) }

def leaveDispatch : Option Ticket → Shared Fingerprint
  | none => shared
  | some ticket =>
      shared.modify ticket.1 fun record =>
        { record with
          admitted := Function.update record.admitted ticket.2 (record.admitted ticket.2 - 1) }

def acquire (record : ℕ) : Shared Fingerprint :=
  shared.modify record fun session => { session with leases := session.leases + 1 }

def release : Option ℕ → Shared Fingerprint
  | none => shared
  | some record =>
      shared.modify record fun session => { session with leases := session.leases - 1 }

def lock : Shared Fingerprint := { shared with applying := true }

def unlock : Shared Fingerprint := { shared with applying := false }

def closeDispatch (record : ℕ) (bufferClass : BufferClass) : Shared Fingerprint :=
  shared.modify record fun session =>
    { session with accepting := Function.update session.accepting bufferClass false }

def isActive (record : ℕ) : Bool := (shared.records record).phase = .active

end Shared

/-! ## DispatchSample -/

/-- What a dispatched sample is about; a marker has its route, which may be malformed. -/
structure Destination where
  sid : ByteString
  bufferClass : Option BufferClass
  marker : Option (FenceMarkerRoute × Bool)

def destination (keyPrefix : ByteString) (delivered : Delivered) : Option Destination :=
  match (markerRoute keyPrefix delivered.sample.key).filter (·.1.target = .buffer) with
  | some (route, routeValid) => some ⟨route.sid, route.bufferClass, some (route, routeValid)⟩
  | none =>
      match parseKey keyPrefix delivered.sample.key with
      | none => none
      | some parsed =>
          if parsed.kind = .buffer ∧ delivered.observations.lane ≠ .absent then
            some ⟨parsed.sid, parsed.bufferClass, none⟩
          else none

/-- What the dispatcher calls before it admits a sample. -/
def prepare (shared : Shared Fingerprint) (record : ℕ) (bufferClass : BufferClass)
    (marker : Bool) (lane : FenceLaneObservation) : Shared Fingerprint × Bool :=
  if marker then (shared, true)
  else
    match lane with
    | .metadata publisherUuid sequence =>
        shared.admitBufferObservation (shared.lane record bufferClass publisherUuid) sequence
    | .malformed publisherUuid sequence =>
        (shared.recordMalformedBuffer record bufferClass publisherUuid sequence, false)
    | .absent => (shared, false)

/-- What is kept of a sample that is not dispatched. -/
def overflow (shared : Shared Fingerprint) (record : ℕ) (bufferClass : BufferClass)
    (lane : FenceLaneObservation) : Shared Fingerprint :=
  match lane with
  | .metadata publisherUuid sequence =>
      shared.recordBufferOverflow (shared.lane record bufferClass publisherUuid) sequence
  | .malformed publisherUuid sequence =>
      shared.recordMalformedBuffer record bufferClass publisherUuid sequence
  | .absent => shared

/-- A marker without a token is ignored. -/
def markerCall (delivered : Delivered) (route : FenceMarkerRoute) (routeValid serialized : Bool)
    (ticket : Option Ticket) : Option MarkerCall :=
  match delivered.observations.ack with
  | .token token => some ⟨delivered.sample, token, route, routeValid, serialized, ticket⟩
  | _ => none

def MarkerCall.isValid (call : MarkerCall) : Bool :=
  call.routeValid && call.sample.kind == .put && call.sample.encodingId == kSitosV1Fence &&
    decodeFenceMarker call.sample.payload

/-- A marker of a class that no longer dispatches is answered without its turn. -/
def closedMarker (shared : Shared Fingerprint) (delivered : Delivered)
    (marker : Option (FenceMarkerRoute × Bool)) : Task :=
  match marker with
  | none => .idle
  | some (route, routeValid) =>
      if !shared.accepting then .idle
      else
        match markerCall delivered route routeValid false none with
        | none => .idle
        | some call => .claiming call none (if call.isValid then .invalidArgument else .error)

def dispatch (shared : Shared Fingerprint) (choice : Choice) (delivered : Delivered) (record : ℕ)
    (bufferClass : BufferClass) (marker : Option (FenceMarkerRoute × Bool)) :
    Shared Fingerprint × Task :=
  if !(shared.records record).accepting bufferClass then
    (shared, closedMarker shared delivered marker)
  else if !choice.room then
    (if marker.isSome then shared
      else overflow shared record bufferClass delivered.observations.lane, .idle)
  else
    match prepare shared record bufferClass marker.isSome delivered.observations.lane with
    | (shared, false) => (shared, .idle)
    | (shared, true) =>
        (shared.enterDispatch (record, bufferClass),
          .entering delivered (some (record, bufferClass)) marker.isNone)

variable (node : Node Fingerprint)

def dispatchSample (shared : Shared Fingerprint) (choice : Choice) (delivered : Delivered) :
    Shared Fingerprint × Task :=
  if choice.throws then (shared, .failed delivered)
  else
    match destination node.keyPrefix delivered with
    | none => (shared, .entering delivered none false)
    | some ⟨sid, bufferClass, marker⟩ =>
        match shared.sessions.find sid, bufferClass with
        | some record, some bufferClass =>
            if !node.dispatcher ∨ !(shared.records record).dispatch then
              (shared, .entering delivered none false)
            else dispatch shared choice delivered record bufferClass marker
        | _, _ => (shared, if marker.isSome then .entering delivered none false else .idle)

/-- The session and class whose data a sample is. -/
def bufferOf (shared : Shared Fingerprint) (sample : TransportSample) :
    Option (ℕ × BufferClass) := do
  let parsed ← parseKey node.keyPrefix sample.key
  guard (parsed.kind = .buffer)
  let bufferClass ← parsed.bufferClass
  let record ← shared.sessions.find parsed.sid
  pure (record, bufferClass)

/-- The catch of `DispatchSample`: the sample is kept as evidence, or its class is closed. -/
def recoverSample (shared : Shared Fingerprint) (choice : Choice) (delivered : Delivered) :
    Shared Fingerprint :=
  match bufferOf node shared delivered.sample with
  | none => shared
  | some (record, bufferClass) =>
      if !(shared.records record).dispatch then shared
      else
        match choice.recovery, delivered.observations.lane with
        | .lost, _ => shared
        | .recorded, .metadata publisherUuid sequence =>
            shared.recordBufferOverflow (shared.lane record bufferClass publisherUuid) sequence
        | .recorded, .malformed publisherUuid sequence =>
            shared.recordMalformedBuffer record bufferClass publisherUuid sequence
        | _, _ =>
            if node.dispatcher then shared.closeDispatch record bufferClass else shared

/-! ## OnSample -/

/-- A call returns, without or with the application lane. -/
def leave (shared : Shared Fingerprint) (ticket : Option Ticket) : Shared Fingerprint × Task :=
  (shared.leaveDispatch ticket, .idle)

def finish (shared : Shared Fingerprint) (ticket : Option Ticket) : Shared Fingerprint × Task :=
  leave shared.unlock ticket

/-- Below these keys there is nothing but markers. -/
def isFenceKey (key : ByteString) : Bool :=
  (node.keyPrefix ++ ascii "/meta/fence/buffer/").isPrefixOf key ||
    (node.keyPrefix ++ ascii "/meta/fence/cache/").isPrefixOf key

def fingerprint (kind : AckOperationKind) (sample : TransportSample) : Fingerprint :=
  node.fingerprintOf ⟨kind, sample.key, sample.encodingId, sample.payload⟩

/-- A sample delivered from inside an engine call. -/
def rejectReentrantSample (shared : Shared Fingerprint) (delivered : Delivered) :
    Shared Fingerprint :=
  match delivered.observations.ack with
  | .token token =>
      let kind := operationKind node.keyPrefix delivered.sample
      { shared with
        acks := (recordRejected shared.acks token (fingerprint node kind delivered.sample)
          (laneBusyResult kind)).1 }
  | _ => shared

def onSample (shared : Shared Fingerprint) (choice : Choice) (delivered : Delivered)
    (ticket : Option Ticket) (preadmitted : Bool) : Option (Shared Fingerprint × Task) :=
  let call : DataCall := ⟨delivered.sample, delivered.observations.lane, ticket, preadmitted⟩
  if !shared.accepting then some (leave shared ticket)
  else if choice.throws then some (shared, .caught call false)
  else
    match markerRoute node.keyPrefix delivered.sample.key with
    | some (route, routeValid) =>
        if route.target ≠ .buffer ∨ choice.reentrant then some (leave shared ticket)
        else if shared.applying then none
        else
          match markerCall delivered route routeValid true ticket with
          | none => some (leave shared ticket)
          | some call => some (shared.lock, .looking call)
    | none =>
        if isFenceKey node delivered.sample.key ∨ delivered.observations.ack = .malformed then
          some (leave shared ticket)
        else if choice.reentrant then
          some (leave (rejectReentrantSample node shared delivered) ticket)
        else if shared.applying then none
        else
          match delivered.observations.ack with
          | .token token => some (shared.lock, .acknowledging delivered.sample token ticket)
          | _ => some (shared.lock, .selecting call)

/-- The catch of `OnSample`, once the locks are released. -/
def onSampleCaught (shared : Shared Fingerprint) (choice : Choice) (call : DataCall)
    (started : Bool) : Shared Fingerprint × Task :=
  let shared :=
    match call.lane, bufferOf node shared call.sample with
    | .metadata publisherUuid sequence, some (record, bufferClass) =>
        if call.preadmitted && !choice.throws then
          shared.completeBufferObservation (shared.lane record bufferClass publisherUuid) sequence
            (some (if started then .outcomeUnknown else .error))
        else shared
    | _, _ => shared
  leave shared call.ticket

/-! ## ApplyParameterSample -/

/-- A sample of a parameter is applied elsewhere and is of no account here. -/
def selectSession (shared : Shared Fingerprint) (choice : Choice) (call : DataCall) :
    Shared Fingerprint × Task :=
  if choice.throws then (shared, .unwinding call none false)
  else
    match parseKey node.keyPrefix call.sample.key with
    | none => finish shared call.ticket
    | some parsed =>
        if parsed.kind ≠ .buffer then finish shared call.ticket
        else
          match shared.sessions.find parsed.sid, parsed.bufferClass, call.lane with
          | some record, some bufferClass, lane =>
              if shared.isActive record then
                (shared.acquire record, .admitting call record bufferClass parsed.relativeKey)
              else
                match lane, call.preadmitted with
                | .metadata publisherUuid sequence, true =>
                    finish (shared.completeBufferObservation
                      (shared.lane record bufferClass publisherUuid) sequence
                      (some .invalidArgument)) call.ticket
                | _, _ => finish shared call.ticket
          | _, _, _ => finish shared call.ticket

def admitData (shared : Shared Fingerprint) (call : DataCall) (record : ℕ)
    (bufferClass : BufferClass) (relativeKey : ByteString) : Shared Fingerprint × Task :=
  match call.lane with
  | .absent => (shared, .writing call record bufferClass relativeKey)
  | .malformed publisherUuid sequence =>
      finish ((shared.recordMalformedBuffer record bufferClass publisherUuid sequence).release
        (some record)) call.ticket
  | .metadata publisherUuid sequence =>
      if call.preadmitted then (shared, .writing call record bufferClass relativeKey)
      else
        match shared.admitBufferObservation (shared.lane record bufferClass publisherUuid)
            sequence with
        | (shared, true) => (shared, .writing call record bufferClass relativeKey)
        | (shared, false) => finish (shared.release (some record)) call.ticket

/-- What a write comes to: the failure that the lane is told of, and whether the engine may have
been changed. -/
structure Written (Fingerprint : Type) where
  shared : Shared Fingerprint
  failure : Option Status
  started : Bool

def failureOf : BufferWriteOutcome → Option Status × Bool
  | .conflict => (some .invalidArgument, false)
  | .readFailed => (some .error, false)
  | .writeFailed => (some .outcomeUnknown, true)
  | .stored => (none, true)

def isBufferBytes (sample : TransportSample) : Bool :=
  sample.kind == .put && sample.encodingId == ascii "zenoh/bytes"

def writeData (shared : Shared Fingerprint) (choice : Choice) (call : DataCall) (record : ℕ)
    (bufferClass : BufferClass) (relativeKey : ByteString) : Written Fingerprint :=
  let session := shared.records record
  if !isBufferBytes call.sample then ⟨shared, some .invalidArgument, false⟩
  else
    match bufferClass with
    | .ephemeral =>
        if !session.ephemeralBuffers then ⟨shared, some .invalidArgument, false⟩
        else ⟨shared, none, true⟩
    | .durable =>
        match session.engine with
        | none => ⟨shared, some .invalidArgument, false⟩
        | some engine =>
            if !session.durableBuffers then ⟨shared, some .invalidArgument, false⟩
            else if session.catalogued && shared.unavailable then
              ⟨shared, some .catalogUnavailable, false⟩
            else if session.reconciled then ⟨shared, some .invalidArgument, false⟩
            else
              let (contents, outcome) := applyDurableBufferWrite engine.contents
                ⟨relativeKey, call.sample.payload, choice.readEnd, choice.writeEnd⟩
              let (failure, started) := failureOf outcome
              ⟨shared.modify record fun session =>
                  { session with engine := some { engine with contents } }, failure, started⟩

def applyData (shared : Shared Fingerprint) (choice : Choice) (call : DataCall) (record : ℕ)
    (bufferClass : BufferClass) (relativeKey : ByteString) : Shared Fingerprint × Task :=
  let written := writeData shared choice call record bufferClass relativeKey
  (written.shared,
    if choice.throws then .unwinding call (some record) written.started
    else .completing call record bufferClass written.failure)

/-- A datum that was applied is kept beside its lane. -/
def noteApplied (shared : Shared Fingerprint) (lane : LaneId) (datum : Datum)
    (failure : Option Status) : Shared Fingerprint :=
  if failure = none then
    { shared with applied := Function.update shared.applied lane (shared.applied lane ++ [datum]) }
  else shared

def completeData (shared : Shared Fingerprint) (call : DataCall) (record : ℕ)
    (bufferClass : BufferClass) (failure : Option Status) : Shared Fingerprint × Task :=
  let shared :=
    match call.lane with
    | .metadata publisherUuid sequence =>
        let lane := shared.lane record bufferClass publisherUuid
        noteApplied (shared.completeBufferObservation lane sequence failure) lane
          (sequence.val, call.sample) failure
    | _ => shared
  finish (shared.release (some record)) call.ticket

/-! ## ApplyAcknowledgedSample -/

def claimParameter (shared : Shared Fingerprint) (choice : Choice) (sample : TransportSample)
    (token : AckToken) (ticket : Option Ticket) : Shared Fingerprint × Task :=
  let kind := operationKind node.keyPrefix sample
  match claimOrReject choice.memory shared.acks token (fingerprint node kind sample)
      kParameterLane (laneBusyResult kind) with
  | (acks, some .admitted) => ({ shared with acks }, .publishing sample token ticket)
  | (acks, _) => finish { shared with acks } ticket

def publishParameter (shared : Shared Fingerprint) (choice : Choice) (sample : TransportSample)
    (token : AckToken) (ticket : Option Ticket) : Shared Fingerprint × Task :=
  let result := { choice.result with operationKind := operationKind node.keyPrefix sample }
  finish { shared with acks := (complete shared.acks token result).1 } ticket

/-! ## ApplyBufferFenceMarker -/

/-- A marker returns. -/
def finishMarker (shared : Shared Fingerprint) (call : MarkerCall) (record : Option ℕ) :
    Shared Fingerprint × Task :=
  let shared := shared.release record
  leave (if call.serialized then shared.unlock else shared) call.ticket

def lookSession (shared : Shared Fingerprint) (call : MarkerCall) : Shared Fingerprint × Task :=
  if !call.isValid then (shared, .claiming call none .error)
  else
    match shared.sessions.find call.route.sid with
    | none => (shared, .claiming call none .notFound)
    | some record =>
        if !shared.isActive record then (shared, .claiming call none .invalidArgument)
        -- a stale session generation is rejected before the token is claimed
        else if (shared.records record).generation ≠ call.route.receiverGeneration then
          finishMarker shared call none
        else (shared.acquire record, .claiming call (some record) .error)

def claimMarker (shared : Shared Fingerprint) (choice : Choice) (call : MarkerCall)
    (record : Option ℕ) (status : Status) : Shared Fingerprint × Task :=
  match claimIndependent choice.memory shared.acks call.token
      (fingerprint node .fence call.sample) with
  | (acks, some .admitted) => ({ shared with acks }, .evaluating call record status)
  | (acks, _) => finishMarker { shared with acks } call record

/-- The answer when the durability barrier fails. -/
def syncFailure (result : AckResultV1) (status : Status) (message : ByteString) : AckResultV1 :=
  let result :=
    { result with
      -- a failed result is never `Ok`
      status := if status = .ok then .error else status
      message := message.take kAckResultMaxMessageLength }
  if validateAckResult result = .ok () then result
  else
    let result := { result with message := ascii "durability synchronization failed" }
    if validateAckResult result = .ok () then result else { result with status := .error }

def synchronize (engine : Engine) (result : AckResultV1) : SyncEnd → Engine × AckResultV1
  | .done => ({ engine with lasting := engine.contents }, result)
  | .failed status message => (engine, syncFailure result status message)
  | .threw => (engine, { result with status := .outcomeUnknown })

def isEnabled (session : SessionRecord) : BufferClass → Bool
  | .durable => session.durableBuffers
  | .ephemeral => session.ephemeralBuffers

def evaluateMarker (shared : Shared Fingerprint) (choice : Choice) (route : FenceMarkerRoute)
    (record : Option ℕ) (status : Status) : Shared Fingerprint × AckResultV1 :=
  let result := fenceResult status route.durability route.throughSequence
  if !shared.accepting then (shared, { result with status := .error })
  else
    match record with
    | none => (shared, result)
    | some record =>
        let session := shared.records record
        if session.catalogued && shared.unavailable then
          (shared, { result with status := .catalogUnavailable })
        else
          match route.bufferClass with
          | none => (shared, { result with status := .invalidArgument })
          | some bufferClass =>
              -- a store reopened at Start accepts no buffer fences
              if session.reconciled then (shared, { result with status := .invalidArgument })
              else
                let result := shared.receivers.evaluateBuffer route.sid route.receiverGeneration
                  bufferClass route.publisherUuid route.durability route.throughSequence
                let refused := { result with status := .invalidArgument }
                if result.status ≠ .ok then (shared, result)
                else if !isEnabled session bufferClass then (shared, refused)
                else if route.durability ≠ .synced then (shared, result)
                else
                  match session.engine with
                  | none => (shared, refused)
                  | some engine =>
                      if !engine.powerLossDurable then (shared, refused)
                      else if route.throughSequence = 0 then (shared, result)
                      else
                        let (engine, result) := synchronize engine result choice.syncEnd
                        (shared.modify record fun session =>
                          { session with engine := some engine }, result)

/-- The guard of a claimed marker answers with the status from before the claim. -/
def answerMarker (shared : Shared Fingerprint) (choice : Choice) (call : MarkerCall)
    (record : Option ℕ) (status : Status) : Shared Fingerprint × Task :=
  if choice.throws then
    (shared, .retaining call record
      (fenceResult status call.route.durability call.route.throughSequence))
  else
    let (shared, result) := evaluateMarker shared choice call.route record status
    (shared, .retaining call record result)

def retainResult (shared : Shared Fingerprint) (call : MarkerCall) (record : Option ℕ)
    (result : AckResultV1) : Shared Fingerprint × Task :=
  finishMarker { shared with acks := (complete shared.acks call.token result).1 } call record

/-! ## Steps -/

def block (shared : Shared Fingerprint) (choice : Choice) :
    Task → Option (Shared Fingerprint × Task)
  | .idle => none
  | .arrived delivered => some (dispatchSample node shared choice delivered)
  | .failed delivered => some (recoverSample node shared choice delivered, .idle)
  | .entering delivered ticket preadmitted =>
      onSample node shared choice delivered ticket preadmitted
  | .unwinding call record started =>
      some ((shared.release record).unlock, .caught call started)
  | .caught call started => some (onSampleCaught node shared choice call started)
  | .selecting call => some (selectSession node shared choice call)
  | .admitting call record bufferClass relativeKey =>
      some (admitData shared call record bufferClass relativeKey)
  | .writing call record bufferClass relativeKey =>
      some (applyData shared choice call record bufferClass relativeKey)
  | .completing call record bufferClass failure =>
      some (completeData shared call record bufferClass failure)
  | .acknowledging sample token ticket =>
      some (claimParameter node shared choice sample token ticket)
  | .publishing sample token ticket =>
      some (publishParameter node shared choice sample token ticket)
  | .looking call => some (lookSession shared call)
  | .claiming call record status => some (claimMarker node shared choice call record status)
  | .evaluating call record status => some (answerMarker shared choice call record status)
  | .retaining call record result => some (retainResult shared call record result)

/-- What can happen: a delivery, a block of a call, or a block of the calls that create and close
sessions. -/
inductive Action where
  | deliver (call : ℕ) (delivered : Delivered)
  | block (call : ℕ) (choice : Choice)
  | publish (sid : ByteString) (generation : FenceUuid) (durableBuffers ephemeralBuffers : Bool)
  | install (sid : ByteString) (engine : Engine)
  | activate (record : ℕ) (engine : Option Engine) (catalogued : Bool)
  | beginClose (record : ℕ)
  | closeDispatch (record : ℕ) (bufferClass : BufferClass)
  | drop (record : ℕ)
  | unmap (record : ℕ)
  | latch
  | deactivate

namespace Shared

variable (shared : Shared Fingerprint)

def create (record : SessionRecord) : Option (Shared Fingerprint) :=
  if !isValidSessionId record.sid ∨ (shared.sessions.find record.sid).isSome then none
  else
    some
      { shared with
        sessions := shared.sessions.insertOrAssign record.sid shared.allocated
        records := Function.update shared.records shared.allocated record
        allocated := shared.allocated + 1 }

/-- The record is still published when it becomes active. -/
def activate (record : ℕ) (engine : Option Engine) (catalogued : Bool) :
    Option (Shared Fingerprint) :=
  let session := shared.records record
  if shared.allocated ≤ record ∨ session.phase ≠ .creating ∨
      engine.isSome ≠ session.durableBuffers then none
  else
    some (shared.modify record fun session => { session with engine, catalogued, phase := .active })

/-- Of a record that is being created it is the creator that gives up. -/
def beginClose (record : ℕ) : Option (Shared Fingerprint) :=
  let phase := (shared.records record).phase
  if shared.allocated ≤ record ∨ (phase ≠ .creating ∧ phase ≠ .active) then none
  else some (shared.modify record fun session => { session with phase := .closing })

/-- Both registrations of a record are drained, and its leases. -/
def isDrained (record : ℕ) : Bool :=
  let session := shared.records record
  session.admitted .durable = 0 && session.admitted .ephemeral = 0 && session.leases = 0

/-- What a closer does once nothing is under way: the engine is released and the lanes go. -/
def dropRecord (record : ℕ) : Option (Shared Fingerprint) :=
  let session := shared.records record
  if shared.allocated ≤ record ∨ session.phase ≠ .closing ∨ !shared.isDrained record then none
  else if node.dispatcher ∧ session.dispatch ∧
      (session.accepting .durable ∨ session.accepting .ephemeral) then none
  else
    some ((shared.modify record fun session =>
      { session with engine := none, generation := noUuid, phase := .closed }).eraseSession
        session.sid)

def unmap (record : ℕ) : Option (Shared Fingerprint) :=
  let session := shared.records record
  if session.phase ≠ .closed ∨ shared.sessions.find session.sid ≠ some record then none
  else some { shared with sessions := shared.sessions.erase session.sid }

end Shared

abbrev State (Fingerprint : Type) := Config (Shared Fingerprint) Task

def start (laneCapacity ackCapacity : ℕ) : State Fingerprint where
  shared :=
    { accepting := true
      unavailable := false
      applying := false
      sessions := .empty
      records := fun _ =>
        { sid := [], durableBuffers := false, ephemeralBuffers := false, phase := .closed }
      allocated := 0
      receivers := .create laneCapacity
      acks := create ackCapacity
      histories := fun _ => .empty
      applied := fun _ => [] }
  tasks := fun _ => .idle

def step (state : State Fingerprint) : Action → Option (State Fingerprint)
  | .deliver call delivered =>
      match state.tasks call with
      | .idle => some (state.replace call state.shared (.arrived delivered))
      | _ => none
  | .block call choice =>
      (block node state.shared choice (state.tasks call)).map fun (shared, task) =>
        state.replace call shared task
  | .publish sid generation durableBuffers ephemeralBuffers =>
      (state.shared.create { sid, generation, durableBuffers, ephemeralBuffers }).map fun shared =>
        { state with shared }
  | .install sid engine =>
      (state.shared.create
        { sid, durableBuffers := true, ephemeralBuffers := false,
          engine := some engine, dispatch := false, catalogued := true, reconciled := true,
          phase := .active }).map fun shared =>
        { state with shared }
  | .activate record engine catalogued =>
      (state.shared.activate record engine catalogued).map fun shared => { state with shared }
  | .beginClose record =>
      (state.shared.beginClose record).map fun shared => { state with shared }
  | .closeDispatch record bufferClass =>
      some { state with shared := state.shared.closeDispatch record bufferClass }
  | .drop record => (state.shared.dropRecord node record).map fun shared => { state with shared }
  | .unmap record => (state.shared.unmap record).map fun shared => { state with shared }
  | .latch => some { state with shared := { state.shared with unavailable := true } }
  | .deactivate => some { state with shared := { state.shared with accepting := false } }

end Sitos.BufferFence
