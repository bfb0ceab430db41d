import Sitos.Node.BufferFenceLanes

/-!
# Markers vouch for what was applied

The invariant behind the answers to Fence markers.  A call that is to complete an observation owns
it: the observation was admitted, was not applied yet, and no other call owns it.  While calls are
under way on a record, the record keeps its session and its lanes.
-/

namespace Sitos.BufferFence

open Sitos.AckResult
open Sitos.Attachment
open Sitos.Bytes
open Sitos.Core
open Sitos.DurableWrite
open Sitos.FenceWire
open Sitos.Key
open Sitos.LaneHistory
open Sitos.Machine
open Sitos.Receiver
open Sitos.Registry
open Sitos.Sample
open Sitos.Tasks
open Sitos.Token

variable {Fingerprint : Type} {node : Node Fingerprint} {steady : Prop} {Sent : Delivered → Prop}
  {shared next final : Shared Fingerprint} {task after : Task}

/-! ## What calls hold -/

/-- An observation that a call is to complete. -/
structure Claim where
  record : ℕ
  bufferClass : BufferClass
  publisherUuid : FenceUuid
  sequence : UInt64

def Claim.lane (claim : Claim) (shared : Shared Fingerprint) : LaneId :=
  shared.lane claim.record claim.bufferClass claim.publisherUuid

/-- What a call that was admitted to its dispatch is to complete. -/
def DataCall.claim (call : DataCall) : Option Claim :=
  match call.preadmitted, call.ticket, call.lane with
  | true, some (record, bufferClass), .metadata publisherUuid sequence =>
      some ⟨record, bufferClass, publisherUuid, sequence.val⟩
  | _, _, _ => none

/-- What a call that applies a sample to a class of a record is to complete. -/
def DataCall.claimOn (call : DataCall) (record : ℕ) (bufferClass : BufferClass) : Option Claim :=
  match call.lane with
  | .metadata publisherUuid sequence => some ⟨record, bufferClass, publisherUuid, sequence.val⟩
  | _ => none

namespace Task

def claim : Task → Option Claim
  | .entering delivered ticket preadmitted =>
      DataCall.claim ⟨delivered.sample, delivered.observations.lane, ticket, preadmitted⟩
  | .unwinding call _ _ | .caught call _ | .selecting call | .admitting call _ _ _ => call.claim
  | .writing call record bufferClass _ | .completing call record bufferClass _ =>
      call.claimOn record bufferClass
  | _ => none

def ticket : Task → Option Ticket
  | .entering _ ticket _ | .acknowledging _ _ ticket | .publishing _ _ ticket => ticket
  | .unwinding call _ _ | .caught call _ | .selecting call | .admitting call _ _ _
  | .writing call _ _ _ | .completing call _ _ _ => call.ticket
  | .looking call | .claiming call _ _ | .evaluating call _ _ | .retaining call _ _ => call.ticket
  | _ => none

def lease : Task → Option ℕ
  | .unwinding _ record _ | .claiming _ record _ | .evaluating _ record _
  | .retaining _ record _ => record
  | .admitting _ record _ _ | .writing _ record _ _ | .completing _ record _ _ => some record
  | _ => none

end Task

/-! ## The invariant -/

/-- The record serves its session, or is still closing. -/
def Shared.IsLive (shared : Shared Fingerprint) (record : ℕ) : Prop :=
  (shared.records record).phase ≠ .closed

/-- The engine holds a sample under its key. -/
def Keeps (node : Node Fingerprint) (contents : Store) (sample : TransportSample) : Prop :=
  ∃ parsed, parseKey node.keyPrefix sample.key = some parsed ∧
    contents parsed.relativeKey = some sample.payload

/-- A sample is data of a class of a session. -/
def IsData (node : Node Fingerprint) (sample : TransportSample) (sid : ByteString)
    (bufferClass : BufferClass) (relativeKey : ByteString) : Prop :=
  ∃ parsed, parseKey node.keyPrefix sample.key = some parsed ∧ parsed.kind = .buffer ∧
    parsed.sid = sid ∧ parsed.bufferClass = some bufferClass ∧ parsed.relativeKey = relativeKey

/-- A datum came with a delivery of the lane's publisher. -/
def Came (node : Node Fingerprint) (Sent : Delivered → Prop) (lane : LaneId) (datum : Datum) :
    Prop :=
  ∃ delivered sequence, Sent delivered ∧ delivered.sample = datum.2 ∧
    delivered.observations.lane = .metadata lane.publisherUuid sequence ∧
    sequence.val = datum.1 ∧
    ∃ relativeKey, IsData node datum.2 lane.sid lane.bufferClass relativeKey

structure Holds (node : Node Fingerprint) (steady : Prop) (Sent : Delivered → Prop)
    (shared : Shared Fingerprint) : Prop where
  known : Known shared
  bound : ∀ sid record, shared.sessions.find sid = some record →
    record < shared.allocated ∧ (shared.records record).sid = sid
  mapped : ∀ record, shared.IsLive record →
    shared.sessions.find (shared.records record).sid = some record
  valid : ∀ record, record < shared.allocated →
    isValidSessionId (shared.records record).sid = true
  closed : ∀ record, (shared.records record).phase = .closed →
    (∀ bufferClass, (shared.records record).admitted bufferClass = 0) ∧
      (shared.records record).leases = 0
  unopened : ∀ record, (shared.records record).phase = .creating →
    (shared.records record).engine = none
  refuses : ∀ record, (shared.records record).phase = .closed → record < shared.allocated →
    node.dispatcher = true → (shared.records record).dispatch = true →
    ∀ bufferClass, (shared.records record).accepting bufferClass = false
  journal : ∀ lane, Journal (shared.histories lane) ((shared.applied lane).map Prod.fst) []
  owned : ∀ lane, shared.applied lane ≠ [] → ∃ record, shared.IsLive record ∧
    (shared.records record).phase ≠ .creating ∧ lane.sid = (shared.records record).sid ∧
    lane.sessionGeneration = (shared.records record).generation
  came : ∀ lane, ∀ datum ∈ shared.applied lane, Came node Sent lane datum
  stored : steady → ∀ record, shared.IsLive record → ∀ publisherUuid,
    ∀ datum ∈ shared.applied (shared.lane record .durable publisherUuid),
      ∃ engine, (shared.records record).engine = some engine ∧ Keeps node engine.contents datum.2

/-- What a call that applies data may rely on. -/
structure DataFacts (node : Node Fingerprint) (Sent : Delivered → Prop)
    (shared : Shared Fingerprint) (call : DataCall) : Prop where
  sent : ∃ delivered, Sent delivered ∧ delivered.sample = call.sample ∧
    delivered.observations.lane = call.lane
  preadmitted : call.preadmitted = true → ∃ record bufferClass relativeKey,
    call.ticket = some (record, bufferClass) ∧
      IsData node call.sample (shared.records record).sid bufferClass relativeKey

structure MarkerFacts (node : Node Fingerprint) (Sent : Delivered → Prop) (call : MarkerCall) :
    Prop where
  sent : ∃ delivered, Sent delivered ∧ delivered.sample = call.sample ∧
    delivered.observations.ack = .token call.token
  route : markerRoute node.keyPrefix call.sample.key = some (call.route, call.routeValid)

/-- A sample that was applied without a failure. -/
def Effective (node : Node Fingerprint) (steady : Prop) (session : SessionRecord)
    (bufferClass : BufferClass) (sample : TransportSample) : Prop :=
  bufferClass = .durable → steady →
    ∃ engine, session.engine = some engine ∧ Keeps node engine.contents sample

def Facts (node : Node Fingerprint) (steady : Prop) (Sent : Delivered → Prop)
    (shared : Shared Fingerprint) : Task → Prop
  | .arrived delivered | .failed delivered => Sent delivered
  | .entering delivered ticket preadmitted =>
      Sent delivered ∧
        DataFacts node Sent shared
          ⟨delivered.sample, delivered.observations.lane, ticket, preadmitted⟩
  | .unwinding call _ _ | .caught call _ | .selecting call => DataFacts node Sent shared call
  | .admitting call record bufferClass relativeKey =>
      DataFacts node Sent shared call ∧
        IsData node call.sample (shared.records record).sid bufferClass relativeKey ∧
        (call.preadmitted = true → call.ticket = some (record, bufferClass))
  | .writing call record bufferClass relativeKey =>
      DataFacts node Sent shared call ∧
        IsData node call.sample (shared.records record).sid bufferClass relativeKey ∧
        (call.preadmitted = true → call.ticket = some (record, bufferClass))
  | .completing call record bufferClass failure =>
      DataFacts node Sent shared call ∧
        (∃ relativeKey,
          IsData node call.sample (shared.records record).sid bufferClass relativeKey) ∧
        failure ≠ some .ok ∧
        (failure = none → Effective node steady (shared.records record) bufferClass call.sample)
  | .looking call => MarkerFacts node Sent call
  | .claiming call record status | .evaluating call record status =>
      MarkerFacts node Sent call ∧ status ≠ .ok ∧
        ∀ served, record = some served → call.isValid = true ∧
          (shared.records served).sid = call.route.sid ∧
          (shared.records served).generation = call.route.receiverGeneration
  | .retaining call _ result => MarkerFacts node Sent call ∧ result.operationKind = .fence
  | .idle | .acknowledging _ _ _ | .publishing _ _ _ => True

/-- What a call relies on where it stands. -/
structure At (node : Node Fingerprint) (steady : Prop) (Sent : Delivered → Prop)
    (shared : Shared Fingerprint) (task : Task) : Prop where
  ticket : ∀ record bufferClass, task.ticket = some (record, bufferClass) → shared.IsLive record
  lease : ∀ record, task.lease = some record →
    shared.IsLive record ∧ (shared.records record).phase ≠ .creating
  claim : ∀ claim, task.claim = some claim →
    claim.sequence ∈ (shared.histories (claim.lane shared)).admitted ∧
      claim.sequence ∉ (shared.applied (claim.lane shared)).map Prod.fst
  facts : Facts node steady Sent shared task

/-- No two calls are to complete the same observation. -/
def Apart (first second : Task) : Prop :=
  ∀ claim, first.claim = some claim → second.claim ≠ some claim

theorem Apart.symm (hapart : Apart task after) : Apart after task :=
  fun claim hafter htask => hapart claim htask hafter

/-- The counters of a record count the calls that it has admitted. -/
structure Counted (state : State Fingerprint) : Prop where
  admitted : ∀ record bufferClass,
    { call | decide ((state.tasks call).ticket = some (record, bufferClass)) = true }.encard =
      ((state.shared.records record).admitted bufferClass : ℕ∞)
  leases : ∀ record,
    { call | decide ((state.tasks call).lease = some record) = true }.encard =
      ((state.shared.records record).leases : ℕ∞)

structure Sound (node : Node Fingerprint) (steady : Prop) (Sent : Delivered → Prop)
    (state : State Fingerprint) : Prop where
  invariant : Invariant (Holds node steady Sent) (At node steady Sent) Apart state
  counted : Counted state

theorem ticket_of_claim {call : DataCall} {claim : Claim} (hclaim : call.claim = some claim) :
    call.ticket = some (claim.record, claim.bufferClass) := by
  obtain ⟨sample, lane, ticket, preadmitted⟩ := call
  cases preadmitted with
  | false => cases hclaim
  | true =>
      cases ticket with
      | none => cases hclaim
      | some ticket =>
          cases lane with
          | metadata publisherUuid sequence =>
              obtain rfl := Option.some.inj hclaim
              rfl
          | absent => cases hclaim
          | malformed publisherUuid sequence => cases hclaim

theorem record_of_claimOn {call : DataCall} {record : ℕ} {bufferClass : BufferClass}
    {claim : Claim} (hclaim : call.claimOn record bufferClass = some claim) :
    claim.record = record := by
  unfold DataCall.claimOn at hclaim
  split at hclaim
  · obtain rfl := Option.some.inj hclaim
    rfl
  · cases hclaim

/-- A call has a record by its ticket or by its lease. -/
def Task.On (task : Task) (record : ℕ) : Prop :=
  (∃ bufferClass, task.ticket = some (record, bufferClass)) ∨ task.lease = some record

/-- A call that is to complete an observation has its record. -/
theorem on_of_claim {claim : Claim} (hclaim : task.claim = some claim) :
    task.On claim.record := by
  cases task with
  | entering delivered ticket preadmitted => exact .inl ⟨_, ticket_of_claim hclaim⟩
  | unwinding call record started => exact .inl ⟨_, ticket_of_claim hclaim⟩
  | caught call started => exact .inl ⟨_, ticket_of_claim hclaim⟩
  | selecting call => exact .inl ⟨_, ticket_of_claim hclaim⟩
  | admitting call record bufferClass relativeKey => exact .inl ⟨_, ticket_of_claim hclaim⟩
  | writing call record bufferClass relativeKey =>
      exact .inr (congrArg some (record_of_claimOn hclaim)).symm
  | completing call record bufferClass failure =>
      exact .inr (congrArg some (record_of_claimOn hclaim)).symm
  | _ => cases hclaim

theorem At.isLive_of_on (hat : At node steady Sent shared task) {record : ℕ}
    (hon : task.On record) : shared.IsLive record := by
  rcases hon with ⟨bufferClass, hticket⟩ | hlease
  · exact hat.ticket record bufferClass hticket
  · exact (hat.lease record hlease).1

/-- A call that is to complete an observation stands on a live record. -/
theorem At.live (hat : At node steady Sent shared task) {claim : Claim}
    (hclaim : task.claim = some claim) : shared.IsLive claim.record :=
  hat.isLive_of_on (on_of_claim hclaim)

/-! ## What a block changes -/

/-- The record with other counters. -/
def SessionRecord.recount (record other : SessionRecord) : SessionRecord :=
  { record with accepting := other.accepting, admitted := other.admitted, leases := other.leases }

/-- Nothing changed but who is under way, who still may be, and what acknowledgements are kept. -/
structure Quiet (shared next : Shared Fingerprint) : Prop where
  sessions : next.sessions = shared.sessions
  allocated : next.allocated = shared.allocated
  receivers : next.receivers = shared.receivers
  histories : next.histories = shared.histories
  applied : next.applied = shared.applied
  records : ∀ record, next.records record =
    (shared.records record).recount (next.records record)
  idle : ∀ record, (shared.records record).phase = .closed →
    (next.records record).admitted = (shared.records record).admitted ∧
      (next.records record).leases = (shared.records record).leases
  refuses : ∀ record bufferClass, (shared.records record).accepting bufferClass = false →
    (next.records record).accepting bufferClass = false

namespace Quiet

theorem refl (shared : Shared Fingerprint) : Quiet shared shared :=
  ⟨rfl, rfl, rfl, rfl, rfl, fun _ => rfl, fun _ _ => ⟨rfl, rfl⟩, fun _ _ h => h⟩

theorem phase (hquiet : Quiet shared next) (record : ℕ) :
    (next.records record).phase = (shared.records record).phase := by
  rw [hquiet.records record]
  rfl

theorem sid (hquiet : Quiet shared next) (record : ℕ) :
    (next.records record).sid = (shared.records record).sid := by
  rw [hquiet.records record]
  rfl

theorem generation (hquiet : Quiet shared next) (record : ℕ) :
    (next.records record).generation = (shared.records record).generation := by
  rw [hquiet.records record]
  rfl

theorem engine (hquiet : Quiet shared next) (record : ℕ) :
    (next.records record).engine = (shared.records record).engine := by
  rw [hquiet.records record]
  rfl

theorem dispatch (hquiet : Quiet shared next) (record : ℕ) :
    (next.records record).dispatch = (shared.records record).dispatch := by
  rw [hquiet.records record]
  rfl

theorem isLive (hquiet : Quiet shared next) {record : ℕ} :
    next.IsLive record ↔ shared.IsLive record := by
  rw [Shared.IsLive, Shared.IsLive, hquiet.phase]

theorem lane (hquiet : Quiet shared next) (record : ℕ) (bufferClass : BufferClass)
    (publisherUuid : FenceUuid) :
    next.lane record bufferClass publisherUuid = shared.lane record bufferClass publisherUuid := by
  simp only [Shared.lane, SessionRecord.lane, hquiet.sid, hquiet.generation]

theorem trans (hfirst : Quiet shared next) (hsecond : Quiet next final) : Quiet shared final where
  sessions := hsecond.sessions.trans hfirst.sessions
  allocated := hsecond.allocated.trans hfirst.allocated
  receivers := hsecond.receivers.trans hfirst.receivers
  histories := hsecond.histories.trans hfirst.histories
  applied := hsecond.applied.trans hfirst.applied
  records record := by
    rw [hsecond.records record, hfirst.records record]
    rfl
  idle record hclosed := by
    obtain ⟨hadmitted, hleases⟩ := hfirst.idle record hclosed
    obtain ⟨hadmitted', hleases'⟩ := hsecond.idle record ((hfirst.phase record).trans hclosed)
    exact ⟨hadmitted'.trans hadmitted, hleases'.trans hleases⟩
  refuses record bufferClass hrefuses :=
    hsecond.refuses record bufferClass (hfirst.refuses record bufferClass hrefuses)

/-- A change of the counters of a live record. -/
theorem modify {record : ℕ} {change : SessionRecord → SessionRecord}
    (hlive : shared.IsLive record)
    (hchange : change (shared.records record) =
      (shared.records record).recount (change (shared.records record)))
    (haccepting : (change (shared.records record)).accepting = (shared.records record).accepting) :
    Quiet shared (shared.modify record change) := by
  have hother : ∀ other, other ≠ record →
      (shared.modify record change).records other = shared.records other :=
    fun other hne => Function.update_of_ne hne ..
  have hself : (shared.modify record change).records record = change (shared.records record) :=
    Function.update_self ..
  refine ⟨rfl, rfl, rfl, rfl, rfl, fun other => ?_, fun other hclosed => ?_,
    fun other bufferClass hrefuses => ?_⟩
  · by_cases hsame : other = record
    · subst hsame
      rw [hself]
      exact hchange
    · rw [hother other hsame]
      rfl
  · by_cases hsame : other = record
    · subst hsame
      exact absurd hclosed hlive
    · rw [hother other hsame]
      exact ⟨rfl, rfl⟩
  · by_cases hsame : other = record
    · subst hsame
      rw [hself, haccepting]
      exact hrefuses
    · rw [hother other hsame]
      exact hrefuses

theorem enterDispatch {record : ℕ} (hlive : shared.IsLive record) (bufferClass : BufferClass) :
    Quiet shared (shared.enterDispatch (record, bufferClass)) := modify hlive rfl rfl

theorem leaveDispatch {ticket : Option Ticket}
    (hlive : ∀ record bufferClass, ticket = some (record, bufferClass) → shared.IsLive record) :
    Quiet shared (shared.leaveDispatch ticket) := by
  cases ticket with
  | none => exact refl shared
  | some ticket =>
      have hticket := hlive ticket.1 ticket.2 rfl
      rw [Shared.leaveDispatch]
      exact modify hticket rfl rfl

theorem acquire {record : ℕ} (hlive : shared.IsLive record) :
    Quiet shared (shared.acquire record) := modify hlive rfl rfl

theorem release {record : Option ℕ}
    (hlive : ∀ served, record = some served → shared.IsLive served) :
    Quiet shared (shared.release record) := by
  cases record with
  | none => exact refl shared
  | some record =>
      have hrecord := hlive record rfl
      rw [Shared.release]
      exact modify hrecord rfl rfl

theorem closeDispatch (record : ℕ) (bufferClass : BufferClass) :
    Quiet shared (shared.closeDispatch record bufferClass) := by
  have hself : (shared.closeDispatch record bufferClass).records record =
      { shared.records record with
        accepting := Function.update (shared.records record).accepting bufferClass false } :=
    Function.update_self ..
  have hother : ∀ other, other ≠ record →
      (shared.closeDispatch record bufferClass).records other = shared.records other :=
    fun other hne => Function.update_of_ne hne ..
  refine ⟨rfl, rfl, rfl, rfl, rfl, fun other => ?_, fun other _ => ?_,
    fun other asked hrefuses => ?_⟩
  · by_cases hsame : other = record
    · rw [hsame, hself]
      rfl
    · rw [hother other hsame]
      rfl
  · by_cases hsame : other = record
    · rw [hsame, hself]
      exact ⟨rfl, rfl⟩
    · rw [hother other hsame]
      exact ⟨rfl, rfl⟩
  · by_cases hsame : other = record
    · rw [hsame] at hrefuses ⊢
      rw [hself]
      by_cases hclass : asked = bufferClass
      · simp [hclass]
      · simpa [hclass] using hrefuses
    · rw [hother other hsame]
      exact hrefuses

theorem flags (accepting unavailable applying : Bool) (acks : AckRegistry AckToken Fingerprint) :
    Quiet shared { shared with accepting, unavailable, applying, acks } :=
  ⟨rfl, rfl, rfl, rfl, rfl, fun _ => rfl, fun _ _ => ⟨rfl, rfl⟩, fun _ _ h => h⟩

end Quiet

theorem Holds.quiet (hholds : Holds node steady Sent shared) (hquiet : Quiet shared next) :
    Holds node steady Sent next where
  known := by
    refine ⟨?_, ?_, ?_⟩
    · rw [hquiet.receivers, hquiet.histories]
      exact hholds.known.found
    · rw [hquiet.receivers, hquiet.histories]
      exact hholds.known.absent
    · rw [hquiet.histories]
      exact hholds.known.recorded
  bound sid record := by
    rw [hquiet.sessions, hquiet.allocated, hquiet.sid]
    exact hholds.bound sid record
  mapped record hlive := by
    rw [hquiet.sessions, hquiet.sid]
    exact hholds.mapped record (hquiet.isLive.mp hlive)
  valid record := by
    rw [hquiet.allocated, hquiet.sid]
    exact hholds.valid record
  closed record hclosed := by
    rw [hquiet.phase] at hclosed
    obtain ⟨hadmitted, hleases⟩ := hquiet.idle record hclosed
    rw [hadmitted, hleases]
    exact hholds.closed record hclosed
  unopened record hcreating := by
    rw [hquiet.phase] at hcreating
    rw [hquiet.engine]
    exact hholds.unopened record hcreating
  refuses record hclosed hrecord hdispatcher hdispatch bufferClass := by
    rw [hquiet.phase] at hclosed
    rw [hquiet.allocated] at hrecord
    rw [hquiet.dispatch] at hdispatch
    exact hquiet.refuses record bufferClass
      (hholds.refuses record hclosed hrecord hdispatcher hdispatch bufferClass)
  journal lane := by
    rw [hquiet.histories, hquiet.applied]
    exact hholds.journal lane
  owned lane happlied := by
    rw [hquiet.applied] at happlied
    obtain ⟨record, hlive, hphase, hsid, hgeneration⟩ := hholds.owned lane happlied
    refine ⟨record, hquiet.isLive.mpr hlive, ?_, ?_, ?_⟩
    · rwa [hquiet.phase]
    · rwa [hquiet.sid]
    · rwa [hquiet.generation]
  came lane datum := by
    rw [hquiet.applied]
    exact hholds.came lane datum
  stored hsteady record hlive publisherUuid := by
    rw [hquiet.applied, hquiet.lane, hquiet.engine]
    exact hholds.stored hsteady record (hquiet.isLive.mp hlive) publisherUuid

/-- What other calls rely on still stands. -/
structure Later (steady : Prop) (shared next : Shared Fingerprint) : Prop where
  live : ∀ record, shared.IsLive record → next.IsLive record
  begun : ∀ record, shared.IsLive record → (shared.records record).phase ≠ .creating →
    (next.records record).phase ≠ .creating
  sid : ∀ record, shared.IsLive record →
    (next.records record).sid = (shared.records record).sid
  generation : ∀ record, shared.IsLive record →
    (next.records record).generation = (shared.records record).generation
  admitted : ∀ lane, ∀ sequence ∈ (shared.histories lane).admitted,
    sequence ∈ (next.histories lane).admitted
  keeps : steady → ∀ record, shared.IsLive record → ∀ engine,
    (shared.records record).engine = some engine → ∃ kept : Engine,
      (next.records record).engine = some kept ∧
        ∀ key value, engine.contents key = some value → kept.contents key = some value

namespace Later

theorem trans (hfirst : Later steady shared next) (hsecond : Later steady next final) :
    Later steady shared final where
  live record hlive := hsecond.live record (hfirst.live record hlive)
  begun record hlive hbegun :=
    hsecond.begun record (hfirst.live record hlive) (hfirst.begun record hlive hbegun)
  sid record hlive :=
    (hsecond.sid record (hfirst.live record hlive)).trans (hfirst.sid record hlive)
  generation record hlive :=
    (hsecond.generation record (hfirst.live record hlive)).trans (hfirst.generation record hlive)
  admitted lane sequence hmem := hsecond.admitted lane sequence (hfirst.admitted lane sequence hmem)
  keeps hsteady record hlive engine hengine := by
    obtain ⟨middle, hmiddle, hkept⟩ := hfirst.keeps hsteady record hlive engine hengine
    obtain ⟨last, hlast, hkept'⟩ :=
      hsecond.keeps hsteady record (hfirst.live record hlive) middle hmiddle
    exact ⟨last, hlast, fun key value hvalue => hkept' key value (hkept key value hvalue)⟩

theorem lane (hlater : Later steady shared next) {record : ℕ} (hlive : shared.IsLive record)
    (bufferClass : BufferClass) (publisherUuid : FenceUuid) :
    next.lane record bufferClass publisherUuid = shared.lane record bufferClass publisherUuid := by
  simp only [Shared.lane, SessionRecord.lane, hlater.sid record hlive,
    hlater.generation record hlive]

theorem effective (hlater : Later steady shared next) {record : ℕ} {bufferClass : BufferClass}
    {sample : TransportSample} (hlive : shared.IsLive record)
    (heffective : Effective node steady (shared.records record) bufferClass sample) :
    Effective node steady (next.records record) bufferClass sample := by
  intro hclass hsteady
  obtain ⟨engine, hengine, parsed, hparsed, hvalue⟩ := heffective hclass hsteady
  obtain ⟨kept, hkept, hsame⟩ := hlater.keeps hsteady record hlive engine hengine
  exact ⟨kept, hkept, parsed, hparsed, hsame _ _ hvalue⟩

end Later

theorem Quiet.later (hquiet : Quiet shared next) : Later steady shared next where
  live record hlive := hquiet.isLive.mpr hlive
  begun record _ hbegun := by rwa [hquiet.phase]
  sid record _ := hquiet.sid record
  generation record _ := hquiet.generation record
  admitted lane sequence hmem := by rwa [hquiet.histories]
  keeps _ record _ engine hengine :=
    ⟨engine, (hquiet.engine record).trans hengine, fun _ _ hvalue => hvalue⟩

/-- At most the observation that a call was to complete has been applied. -/
def Adds (claim : Option Claim) (shared next : Shared Fingerprint) : Prop :=
  ∀ lane, next.applied lane = shared.applied lane ∨
    ∃ held sample, claim = some held ∧ lane = held.lane shared ∧
      next.applied lane = shared.applied lane ++ [(held.sequence, sample)]

theorem adds_of_applied {claim : Option Claim} (happlied : next.applied = shared.applied) :
    Adds claim shared next := fun lane => .inl (by rw [happlied])

/-- Live records of one session are the same. -/
theorem Holds.record_eq (hholds : Holds node steady Sent shared) {first second : ℕ}
    (hfirst : shared.IsLive first) (hsecond : shared.IsLive second)
    (hsid : (shared.records first).sid = (shared.records second).sid) : first = second := by
  have hmapped := hholds.mapped first hfirst
  rw [hsid] at hmapped
  exact Option.some.inj (hmapped.symm.trans (hholds.mapped second hsecond))

theorem Holds.claim_eq (hholds : Holds node steady Sent shared) {first second : Claim}
    (hfirst : shared.IsLive first.record) (hsecond : shared.IsLive second.record)
    (hlane : first.lane shared = second.lane shared)
    (hsequence : first.sequence = second.sequence) : first = second := by
  obtain ⟨record, bufferClass, publisherUuid, sequence⟩ := first
  obtain ⟨record', bufferClass', publisherUuid', sequence'⟩ := second
  obtain ⟨hsid, -, hclass, huuid⟩ := LaneId.mk.inj hlane
  obtain rfl := hholds.record_eq hfirst hsecond hsid
  obtain rfl : bufferClass = bufferClass' := hclass
  obtain rfl : publisherUuid = publisherUuid' := huuid
  obtain rfl : sequence = sequence' := hsequence
  rfl

/-- A record is of the session that it was of, and its engine has what it had. -/
structure Stays (node : Node Fingerprint) (steady : Prop) (session next : SessionRecord) :
    Prop where
  sid : next.sid = session.sid
  generation : next.generation = session.generation
  effective : ∀ bufferClass sample, Effective node steady session bufferClass sample →
    Effective node steady next bufferClass sample

theorem Later.stays (hlater : Later steady shared next) {record : ℕ}
    (hlive : shared.IsLive record) :
    Stays node steady (shared.records record) (next.records record) :=
  ⟨hlater.sid record hlive, hlater.generation record hlive, fun _ _ => hlater.effective hlive⟩

theorem DataFacts.stays {call : DataCall} (hfacts : DataFacts node Sent shared call)
    (hstays : ∀ record bufferClass, call.ticket = some (record, bufferClass) →
      Stays node steady (shared.records record) (next.records record)) :
    DataFacts node Sent next call where
  sent := hfacts.sent
  preadmitted hpreadmitted := by
    obtain ⟨record, bufferClass, relativeKey, hsome, hdata⟩ := hfacts.preadmitted hpreadmitted
    refine ⟨record, bufferClass, relativeKey, hsome, ?_⟩
    rwa [(hstays record bufferClass hsome).sid]

theorem DataFacts.later {call : DataCall} (hfacts : DataFacts node Sent shared call)
    (hlater : Later steady shared next)
    (hticket : ∀ record bufferClass, call.ticket = some (record, bufferClass) →
      shared.IsLive record) : DataFacts node Sent next call :=
  hfacts.stays fun record bufferClass hsome =>
    @Later.stays _ node _ _ _ hlater record (hticket record bufferClass hsome)

/-- What a call relies on stands as long as its records do. -/
theorem facts_stay (hfacts : Facts node steady Sent shared task)
    (hstays : ∀ record, task.On record →
      Stays node steady (shared.records record) (next.records record)) :
    Facts node steady Sent next task := by
  have hticket : ∀ record bufferClass, task.ticket = some (record, bufferClass) →
      Stays node steady (shared.records record) (next.records record) :=
    fun record bufferClass hsome => hstays record (.inl ⟨bufferClass, hsome⟩)
  have hlease : ∀ record, task.lease = some record →
      Stays node steady (shared.records record) (next.records record) :=
    fun record hsome => hstays record (.inr hsome)
  cases task with
  | entering delivered ticket preadmitted => exact ⟨hfacts.1, hfacts.2.stays hticket⟩
  | unwinding call record started => exact DataFacts.stays hfacts hticket
  | caught call started => exact DataFacts.stays hfacts hticket
  | selecting call => exact DataFacts.stays hfacts hticket
  | admitting call record bufferClass relativeKey =>
      obtain ⟨hdata, hsample, hticketed⟩ := hfacts
      refine ⟨hdata.stays hticket, ?_, hticketed⟩
      rwa [(hlease record rfl).sid]
  | writing call record bufferClass relativeKey =>
      obtain ⟨hdata, hsample, hticketed⟩ := hfacts
      refine ⟨hdata.stays hticket, ?_, hticketed⟩
      rwa [(hlease record rfl).sid]
  | completing call record bufferClass failure =>
      obtain ⟨hdata, ⟨relativeKey, hsample⟩, hfailure, heffective⟩ := hfacts
      refine ⟨hdata.stays hticket, ⟨relativeKey, ?_⟩, hfailure, fun hnone => ?_⟩
      · rwa [(hlease record rfl).sid]
      · exact (hlease record rfl).effective _ _ (heffective hnone)
  | claiming call record status =>
      refine ⟨hfacts.1, hfacts.2.1, fun served hserved => ?_⟩
      rw [(hlease served hserved).sid, (hlease served hserved).generation]
      exact hfacts.2.2 served hserved
  | evaluating call record status =>
      refine ⟨hfacts.1, hfacts.2.1, fun served hserved => ?_⟩
      rw [(hlease served hserved).sid, (hlease served hserved).generation]
      exact hfacts.2.2 served hserved
  | _ => exact hfacts

theorem facts_later (hat : At node steady Sent shared task) (hlater : Later steady shared next) :
    Facts node steady Sent next task :=
  facts_stay hat.facts fun _ hon => hlater.stays (hat.isLive_of_on hon)

/-- A block of one call disturbs no other. -/
theorem At.later {other : Task} (hholds : Holds node steady Sent shared)
    (hat : At node steady Sent shared other) (hlater : Later steady shared next)
    (hadds : Adds task.claim shared next)
    (htask : ∀ held, task.claim = some held → shared.IsLive held.record)
    (hapart : Apart task other) : At node steady Sent next other where
  ticket record bufferClass hticket := hlater.live record (hat.ticket record bufferClass hticket)
  lease record hlease := by
    obtain ⟨hlive, hbegun⟩ := hat.lease record hlease
    exact ⟨hlater.live record hlive, hlater.begun record hlive hbegun⟩
  claim claim hclaim := by
    have hlive := hat.live hclaim
    have hlane : claim.lane next = claim.lane shared := hlater.lane hlive _ _
    obtain ⟨hadmitted, hnew⟩ := hat.claim claim hclaim
    rw [hlane]
    refine ⟨hlater.admitted _ _ hadmitted, ?_⟩
    rcases hadds (claim.lane shared) with hsame | ⟨held, sample, hheld, hshared, hmore⟩
    · rwa [hsame]
    · rw [hmore, List.map_append, List.mem_append]
      rintro (hold | hlast)
      · exact hnew hold
      · have hsequence : claim.sequence = held.sequence := List.mem_singleton.mp hlast
        have hsame := hholds.claim_eq hlive (htask held hheld) hshared hsequence
        exact hapart held hheld (hsame ▸ hclaim)
  facts := facts_later hat hlater

section Heard

variable {lane : LaneId} {said : LaneHistory.Operation}

theorem Heard.isLive (hheard : Heard shared lane said next) {record : ℕ} :
    next.IsLive record ↔ shared.IsLive record := by
  rw [Shared.IsLive, Shared.IsLive, hheard.records]

theorem Heard.lane_eq (hheard : Heard shared lane said next) (record : ℕ)
    (bufferClass : BufferClass) (publisherUuid : FenceUuid) :
    next.lane record bufferClass publisherUuid = shared.lane record bufferClass publisherUuid := by
  simp only [Shared.lane, hheard.records]

theorem Heard.later (hheard : Heard shared lane said next) : Later steady shared next where
  live record hlive := hheard.isLive.mpr hlive
  begun record _ hbegun := by rwa [hheard.records]
  sid record _ := by rw [hheard.records]
  generation record _ := by rw [hheard.records]
  admitted := hheard.admitted
  keeps _ record _ engine hengine :=
    ⟨engine, by rw [hheard.records, hengine], fun _ _ hvalue => hvalue⟩

/-- Nothing is reported to a lane as done. -/
theorem Holds.heard (hholds : Holds node steady Sent shared)
    (hheard : Heard shared lane said next) (hsilent : reportsNoSuccess said) :
    Holds node steady Sent next where
  known := hheard.known
  bound sid record := by
    rw [hheard.sessions, hheard.allocated, hheard.records]
    exact hholds.bound sid record
  mapped record hlive := by
    rw [hheard.sessions, hheard.records]
    exact hholds.mapped record (hheard.isLive.mp hlive)
  valid record := by
    rw [hheard.allocated, hheard.records]
    exact hholds.valid record
  closed record := by
    rw [hheard.records]
    exact hholds.closed record
  unopened record := by
    rw [hheard.records]
    exact hholds.unopened record
  refuses record := by
    rw [hheard.records, hheard.allocated]
    exact hholds.refuses record
  journal lane := by
    rw [hheard.applied]
    exact @Heard.forall _ _ _ _ _ (fun other history =>
      Journal history ((shared.applied other).map Prod.fst) []) hheard hholds.journal
      ((hholds.journal _).apply hsilent .available) lane
  owned lane happlied := by
    rw [hheard.applied] at happlied
    obtain ⟨record, hlive, hrest⟩ := hholds.owned lane happlied
    refine ⟨record, hheard.isLive.mpr hlive, ?_⟩
    rwa [hheard.records]
  came lane datum := by
    rw [hheard.applied]
    exact hholds.came lane datum
  stored hsteady record hlive publisherUuid := by
    rw [hheard.applied, hheard.lane_eq, hheard.records]
    exact hholds.stored hsteady record (hheard.isLive.mp hlive) publisherUuid

end Heard

section Note

variable {lane : LaneId} {datum : Datum}

/-- The datum of an admitted observation is noted as it is reported done. -/
theorem Holds.noted (hholds : Holds node steady Sent shared) {record : ℕ}
    {bufferClass : BufferClass} {publisherUuid : FenceUuid}
    (hlane : lane = shared.lane record bufferClass publisherUuid)
    (hlive : shared.IsLive record) (hbegun : (shared.records record).phase ≠ .creating)
    (hheard : Heard shared lane (.complete datum.1 none) next)
    (hadmitted : datum.1 ∈ (shared.histories lane).admitted)
    (hnew : datum.1 ∉ (shared.applied lane).map Prod.fst)
    (hcame : Came node Sent lane datum)
    (heffective : Effective node steady (shared.records record) bufferClass datum.2) :
    Holds node steady Sent (noteApplied next lane datum none) := by
  have happlied : ∀ other, (noteApplied next lane datum none).applied other =
      if other = lane then shared.applied lane ++ [datum] else shared.applied other := by
    intro other
    by_cases hother : other = lane
    · simp [noteApplied, hheard.applied, hother]
    · simp [noteApplied, hheard.applied, hother]
  have hsessions : (noteApplied next lane datum none).sessions = shared.sessions :=
    hheard.sessions
  have hallocated : (noteApplied next lane datum none).allocated = shared.allocated :=
    hheard.allocated
  have hrecords : (noteApplied next lane datum none).records = shared.records := hheard.records
  have hisLive : ∀ {other}, (noteApplied next lane datum none).IsLive other ↔
      shared.IsLive other := by
    intro other
    rw [Shared.IsLive, Shared.IsLive, hrecords]
  refine ⟨⟨hheard.known.found, hheard.known.absent, hheard.known.recorded⟩, fun sid other => ?_,
    fun other hother => ?_, fun other => ?_, ?_, ?_, ?_, fun other => ?_, fun other hother => ?_,
    fun other entry hentry => ?_, fun hsteady other hother asked entry hentry => ?_⟩
  · rw [hsessions, hallocated, hrecords]
    exact hholds.bound sid other
  · rw [hsessions, hrecords]
    exact hholds.mapped other (hisLive.mp hother)
  · rw [hallocated, hrecords]
    exact hholds.valid other
  · rw [hrecords]
    exact hholds.closed
  · rw [hrecords]
    exact hholds.unopened
  · rw [hrecords, hallocated]
    exact hholds.refuses
  · change Journal (next.histories other) _ _
    rw [happlied]
    rcases hheard.histories with ⟨-, hempty⟩ | htold
    · rw [hempty] at hadmitted
      cases hadmitted
    · rw [htold]
      split_ifs with hother
      · rw [hother, Function.update_self, List.map_append]
        exact ((hholds.journal lane).takeWaiting hadmitted hnew).complete .available
      · rw [Function.update_of_ne hother]
        exact hholds.journal other
  · rw [hrecords]
    by_cases hsame : other = lane
    · exact ⟨record, hisLive.mpr hlive, hbegun, by rw [hsame, hlane]; rfl,
        by rw [hsame, hlane]; rfl⟩
    · rw [happlied, if_neg hsame] at hother
      obtain ⟨served, hserved, hrest⟩ := hholds.owned other hother
      exact ⟨served, hisLive.mpr hserved, hrest⟩
  · rw [happlied] at hentry
    split_ifs at hentry with hother
    · rcases List.mem_append.mp hentry with hold | hlast
      · rw [hother]
        exact hholds.came lane entry hold
      · rw [hother, List.mem_singleton.mp hlast]
        exact hcame
    · exact hholds.came other entry hentry
  · have hsame : (noteApplied next lane datum none).lane other .durable asked =
        shared.lane other .durable asked := by
      simp only [Shared.lane, hrecords]
    rw [hsame, happlied] at hentry
    rw [hrecords]
    have hother := hisLive.mp hother
    split_ifs at hentry with hmine
    · rcases List.mem_append.mp hentry with hold | hlast
      · exact hholds.stored hsteady other hother asked entry (hmine ▸ hold)
      · obtain ⟨hsid, -, hclass, -⟩ := LaneId.mk.inj (hmine.trans hlane)
        obtain rfl := hholds.record_eq hother hlive hsid
        rw [List.mem_singleton.mp hlast]
        exact heffective hclass.symm hsteady
    · exact hholds.stored hsteady other hother asked entry hentry

end Note

section Engines

variable {record : ℕ} {engine kept : Engine}

theorem setEngine_other (record : ℕ) (engine : Option Engine) {other : ℕ}
    (hother : other ≠ record) :
    (shared.modify record fun session => { session with engine }).records other =
      shared.records other := Function.update_of_ne hother ..

theorem setEngine_self (record : ℕ) (engine : Option Engine) :
    (shared.modify record fun session => { session with engine }).records record =
      { shared.records record with engine } := Function.update_self ..

/-- A record differs in its engine at most. -/
theorem setEngine_eq {Value : Type} (field : SessionRecord → Value)
    (hfield : ∀ session engine, field { session with engine } = field session) (record : ℕ)
    (engine : Option Engine) (other : ℕ) :
    field ((shared.modify record fun session => { session with engine }).records other) =
      field (shared.records other) := by
  by_cases hother : other = record
  · rw [hother, setEngine_self, hfield]
  · rw [setEngine_other record engine hother]

theorem later_setEngine (hengine : (shared.records record).engine = some engine)
    (hkept : steady → ∀ key value, engine.contents key = some value →
      kept.contents key = some value) :
    Later steady shared
      (shared.modify record fun session => { session with engine := some kept }) where
  live other hlive := by
    rw [Shared.IsLive, setEngine_eq SessionRecord.phase fun _ _ => rfl]
    exact hlive
  begun other _ hbegun := by
    rw [setEngine_eq SessionRecord.phase fun _ _ => rfl]
    exact hbegun
  sid other _ := setEngine_eq SessionRecord.sid (fun _ _ => rfl) ..
  generation other _ := setEngine_eq SessionRecord.generation (fun _ _ => rfl) ..
  admitted _ _ hmem := hmem
  keeps hsteady other _ before hbefore := by
    by_cases hother : other = record
    · rw [hother, setEngine_self]
      rw [hother, hengine] at hbefore
      obtain rfl := Option.some.inj hbefore
      exact ⟨kept, rfl, hkept hsteady⟩
    · rw [setEngine_other record _ hother]
      exact ⟨before, hbefore, fun _ _ hvalue => hvalue⟩

/-- An engine that keeps what it has takes the place of another. -/
theorem Holds.setEngine (hholds : Holds node steady Sent shared)
    (hengine : (shared.records record).engine = some engine)
    (hkept : steady → ∀ key value, engine.contents key = some value →
      kept.contents key = some value) :
    Holds node steady Sent
      (shared.modify record fun session => { session with engine := some kept }) where
  known := ⟨hholds.known.found, hholds.known.absent, hholds.known.recorded⟩
  bound sid other := by
    rw [setEngine_eq SessionRecord.sid fun _ _ => rfl]
    exact hholds.bound sid other
  mapped other hlive := by
    rw [Shared.IsLive, setEngine_eq SessionRecord.phase fun _ _ => rfl] at hlive
    rw [setEngine_eq SessionRecord.sid fun _ _ => rfl]
    exact hholds.mapped other hlive
  valid other := by
    rw [setEngine_eq SessionRecord.sid fun _ _ => rfl]
    exact hholds.valid other
  closed other hclosed := by
    rw [setEngine_eq SessionRecord.phase fun _ _ => rfl] at hclosed
    rw [setEngine_eq SessionRecord.admitted fun _ _ => rfl,
      setEngine_eq SessionRecord.leases fun _ _ => rfl]
    exact hholds.closed other hclosed
  unopened other hcreating := by
    rw [setEngine_eq SessionRecord.phase fun _ _ => rfl] at hcreating
    have hnone := hholds.unopened other hcreating
    by_cases hother : other = record
    · rw [hother] at hnone
      cases hengine.symm.trans hnone
    · rw [setEngine_other record _ hother]
      exact hnone
  refuses other hclosed hrecord hdispatcher hdispatch := by
    rw [setEngine_eq SessionRecord.phase fun _ _ => rfl] at hclosed
    rw [setEngine_eq SessionRecord.dispatch fun _ _ => rfl] at hdispatch
    rw [setEngine_eq SessionRecord.accepting fun _ _ => rfl]
    exact hholds.refuses other hclosed hrecord hdispatcher hdispatch
  journal := hholds.journal
  owned lane happlied := by
    obtain ⟨served, hlive, hphase, hsid, hgeneration⟩ := hholds.owned lane happlied
    refine ⟨served, ?_, ?_, ?_, ?_⟩
    · rw [Shared.IsLive, setEngine_eq SessionRecord.phase fun _ _ => rfl]
      exact hlive
    · rw [setEngine_eq SessionRecord.phase fun _ _ => rfl]
      exact hphase
    · rw [setEngine_eq SessionRecord.sid fun _ _ => rfl]
      exact hsid
    · rw [setEngine_eq SessionRecord.generation fun _ _ => rfl]
      exact hgeneration
  came := hholds.came
  stored hsteady other hlive publisherUuid datum hdatum := by
    rw [Shared.IsLive, setEngine_eq SessionRecord.phase fun _ _ => rfl] at hlive
    have hlane := (later_setEngine hengine hkept).lane hlive .durable publisherUuid
    rw [hlane] at hdatum
    exact (later_setEngine hengine hkept).effective hlive
      (fun _ hsteady => hholds.stored hsteady other hlive publisherUuid datum hdatum) rfl hsteady

end Engines

/-! ## What a block owes -/

/-- No record counts more calls, or fewer. -/
def SameCounts (shared next : Shared Fingerprint) : Prop :=
  ∀ record, (next.records record).admitted = (shared.records record).admitted ∧
    (next.records record).leases = (shared.records record).leases

theorem sameCounts_of_records (hrecords : next.records = shared.records) :
    SameCounts shared next := fun record => by rw [hrecords]; exact ⟨rfl, rfl⟩

theorem sameCounts_closeDispatch (record : ℕ) (bufferClass : BufferClass) :
    SameCounts shared (shared.closeDispatch record bufferClass) := by
  intro other
  by_cases hsame : other = record
  · simp [Shared.closeDispatch, Shared.modify, hsame]
  · simp [Shared.closeDispatch, Shared.modify, hsame]

theorem sameCounts_setEngine (record : ℕ) (engine : Option Engine) :
    SameCounts shared (shared.modify record fun session => { session with engine }) :=
  fun other => ⟨setEngine_eq SessionRecord.admitted (fun _ _ => rfl) record engine other,
    setEngine_eq SessionRecord.leases (fun _ _ => rfl) record engine other⟩

/-- A step that leaves the shared state in order, and what other calls rely on. -/
structure Changes (node : Node Fingerprint) (steady : Prop) (Sent : Delivered → Prop)
    (claim : Option Claim) (shared next : Shared Fingerprint) : Prop where
  holds : Holds node steady Sent next
  later : Later steady shared next
  adds : Adds claim shared next
  counts : SameCounts shared next

section Changes

variable {claim : Option Claim}

theorem Changes.refl (hholds : Holds node steady Sent shared) :
    Changes node steady Sent claim shared shared :=
  ⟨hholds, (Quiet.refl shared).later, adds_of_applied rfl, sameCounts_of_records rfl⟩

theorem Quiet.changes (hquiet : Quiet shared next) (hcounts : SameCounts shared next)
    (hholds : Holds node steady Sent shared) : Changes node steady Sent claim shared next :=
  ⟨hholds.quiet hquiet, hquiet.later, adds_of_applied hquiet.applied, hcounts⟩

theorem Heard.changes {lane : LaneId} {said : LaneHistory.Operation}
    (hheard : Heard shared lane said next) (hsilent : reportsNoSuccess said)
    (hholds : Holds node steady Sent shared) : Changes node steady Sent claim shared next :=
  ⟨hholds.heard hheard hsilent, hheard.later, adds_of_applied hheard.applied,
    sameCounts_of_records hheard.records⟩

end Changes

/-- A record counts the calls that hold a ticket or a lease, before and after a block. -/
structure Balances (shared : Shared Fingerprint) (task : Task) (next : Shared Fingerprint)
    (after : Task) : Prop where
  admitted : ∀ record bufferClass, (next.records record).admitted bufferClass =
    moved (decide (task.ticket = some (record, bufferClass)))
      (decide (after.ticket = some (record, bufferClass)))
      ((shared.records record).admitted bufferClass)
  leases : ∀ record, (next.records record).leases =
    moved (decide (task.lease = some record)) (decide (after.lease = some record))
      (shared.records record).leases

theorem SameCounts.balances (hcounts : SameCounts shared next)
    (hticket : after.ticket = task.ticket)
    (hlease : after.lease = task.lease) : Balances shared task next after where
  admitted record bufferClass := by rw [hticket, moved_self, (hcounts record).1]
  leases record := by rw [hlease, moved_self, (hcounts record).2]

/-- A block from where a call stands to where it stands next. -/
structure Passes (node : Node Fingerprint) (steady : Prop) (Sent : Delivered → Prop)
    (shared : Shared Fingerprint) (task : Task) (next : Shared Fingerprint) (after : Task) :
    Prop where
  holds : Holds node steady Sent next
  later : Later steady shared next
  adds : Adds task.claim shared next
  counts : Balances shared task next after
  next : At node steady Sent next after
  claim : ∀ held, after.claim = some held → task.claim = some held ∨
    held.sequence ∉ (shared.histories (held.lane shared)).admitted

/-- A change, and then a move of the call. -/
theorem Changes.passes {middle : Shared Fingerprint}
    (hchanges : Changes node steady Sent task.claim shared middle) (hquiet : Quiet middle next)
    (hcounts : Balances middle task next after) (hnext : At node steady Sent next after)
    (hclaim : ∀ held, after.claim = some held → task.claim = some held ∨
      held.sequence ∉ (shared.histories (held.lane shared)).admitted) :
    Passes node steady Sent shared task next after where
  holds := hchanges.holds.quiet hquiet
  later := hchanges.later.trans hquiet.later
  adds lane := by
    rw [hquiet.applied]
    exact hchanges.adds lane
  counts := by
    refine ⟨fun record bufferClass => ?_, fun record => ?_⟩
    · rw [← (hchanges.counts record).1]
      exact hcounts.admitted record bufferClass
    · rw [← (hchanges.counts record).2]
      exact hcounts.leases record
  next := hnext
  claim := hclaim

/-- A call that holds nothing. -/
theorem at_free (hticket : task.ticket = none) (hlease : task.lease = none)
    (hclaim : task.claim = none) (hfacts : Facts node steady Sent shared task) :
    At node steady Sent shared task where
  ticket record bufferClass hsome := by
    rw [hticket] at hsome
    cases hsome
  lease record hsome := by
    rw [hlease] at hsome
    cases hsome
  claim claim hsome := by
    rw [hclaim] at hsome
    cases hsome
  facts := hfacts

theorem Passes.step {state : State Fingerprint} {call : ℕ}
    (hsound : Sound node steady Sent state)
    (hpasses : Passes node steady Sent state.shared (state.tasks call) next after) :
    Sound node steady Sent (state.replace call next after) := by
  obtain ⟨hinvariant, hcounted⟩ := hsound
  refine ⟨hinvariant.replace (fun _ _ => Apart.symm) hpasses.holds hpasses.next ?_, ?_, ?_⟩
  · intro other hother hapart
    have htask : ∀ held, (state.tasks call).claim = some held → state.shared.IsLive held.record :=
      fun held hheld => (hinvariant.task call).live hheld
    refine ⟨hother.later hinvariant.shared hpasses.later hpasses.adds htask hapart, ?_⟩
    intro held hafter hheld
    rcases hpasses.claim held hafter with hbefore | hfresh
    · exact hapart held hbefore hheld
    · exact hfresh (hother.claim held hheld).1
  · intro record bufferClass
    rw [Config.replace_shared, hpasses.counts.admitted record bufferClass]
    exact @tally_moved _ _ state (fun task => decide (task.ticket = some (record, bufferClass)))
      _ call after (hcounted.admitted record bufferClass) next
  · intro record
    rw [Config.replace_shared, hpasses.counts.leases record]
    exact @tally_moved _ _ state (fun task => decide (task.lease = some record)) _ call after
      (hcounted.leases record) next

end Sitos.BufferFence
