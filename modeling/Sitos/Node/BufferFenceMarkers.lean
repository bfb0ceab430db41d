import Sitos.Node.BufferFenceBlocks

/-!
# The blocks of a marker

A marker that is answered `Ok` vouches for its lane: what was applied for the lane is what the
publisher numbered up to the marker, all of it and nothing else.
-/

namespace Sitos.BufferFence

open Sitos.AckResult
open Sitos.Attachment
open Sitos.Bytes
open Sitos.DurableWrite
open Sitos.FenceWire
open Sitos.Key
open Sitos.LaneHistory
open Sitos.LaneState
open Sitos.Receiver
open Sitos.Registry
open Sitos.Sample
open Sitos.Tasks
open Sitos.Token

variable {Fingerprint : Type} {node : Node Fingerprint} {steady : Prop}
  {Sent : Delivered → Prop} {shared next : Shared Fingerprint} {task after : Task}
  {choice : Choice} {record : ℕ} {bufferClass : BufferClass} {route : FenceMarkerRoute}

/-! ## ApplyBufferFenceMarker -/

section Marker

variable {call : MarkerCall} {lease : Option ℕ} {status : Status} {result : AckResultV1}

theorem passes_finishMarker (hat : At node steady Sent shared task)
    (hchanges : Changes node steady Sent task.claim shared next)
    (hticket : task.ticket = call.ticket) (hlease : task.lease = lease) :
    Passes node steady Sent shared task (finishMarker next call lease).1
      (finishMarker next call lease).2 := by
  subst hlease
  unfold finishMarker
  rw [← hticket]
  split
  · exact passes_return hat hchanges quiet_unlock rfl
  · exact passes_return hat hchanges (Quiet.refl _) rfl

theorem lookSession_spec (hholds : Holds node steady Sent shared)
    (hat : At node steady Sent shared (.looking call)) :
    Passes node steady Sent shared (.looking call) (lookSession shared call).1
      (lookSession shared call).2 := by
  have hfacts : MarkerFacts node Sent call := hat.facts
  have hrefused : ∀ status, status ≠ .ok →
      Passes node steady Sent shared (.looking call) shared (.claiming call none status) := by
    intro status hstatus
    refine passes_on hholds hat (Quiet.refl shared) rfl rfl rfl (fun _ h => h)
      ⟨hfacts, hstatus, fun served hserved => ?_⟩
    cases hserved
  unfold lookSession
  split
  · exact hrefused _ (by decide)
  rename_i hvalid
  cases hfind : shared.sessions.find call.route.sid with
  | none => exact hrefused _ (by decide)
  | some record =>
      simp only
      split
      · exact hrefused _ (by decide)
      rename_i hactive
      split
      · exact passes_finishMarker hat (Changes.refl hholds) rfl rfl
      rename_i hgeneration
      have hphase : (shared.records record).phase = .active := by
        simpa [Shared.isActive] using hactive
      have hlive : shared.IsLive record := by
        rw [Shared.IsLive, hphase]
        decide
      have hquiet := Quiet.acquire hlive
      refine (Changes.refl hholds).passes hquiet (balances_acquire rfl rfl rfl)
        ⟨?_, ?_, fun held (hheld : none = some held) => (Option.some_ne_none held hheld.symm).elim,
          hfacts, by decide, ?_⟩
        fun held hheld => by cases hheld
      · intro served asked hticket
        exact hquiet.isLive.mpr (hat.ticket served asked hticket)
      · intro served hserved
        obtain rfl := Option.some.inj hserved
        refine ⟨hquiet.isLive.mpr hlive, ?_⟩
        rw [hquiet.phase, hphase]
        decide
      · intro served hserved
        obtain rfl := Option.some.inj hserved
        refine ⟨by simpa using hvalid, ?_, ?_⟩
        · rw [hquiet.sid]
          exact (hholds.bound _ _ hfind).2
        · rw [hquiet.generation]
          exact not_not.mp hgeneration

theorem claimMarker_spec [DecidableEq Fingerprint] (hholds : Holds node steady Sent shared)
    (hat : At node steady Sent shared (.claiming call lease status)) :
    Passes node steady Sent shared (.claiming call lease status)
      (claimMarker node shared choice call lease status).1
      (claimMarker node shared choice call lease status).2 := by
  unfold claimMarker
  split
  · exact passes_on hholds hat (Quiet.flags ..) rfl rfl rfl (fun _ h => h) hat.facts
  · exact passes_finishMarker hat (changes_acks hholds _) rfl rfl

theorem retainResult_spec [DecidableEq Fingerprint] (hholds : Holds node steady Sent shared)
    (hat : At node steady Sent shared (.retaining call lease result)) :
    Passes node steady Sent shared (.retaining call lease result)
      (retainResult shared call lease result).1 (retainResult shared call lease result).2 :=
  passes_finishMarker hat (changes_acks hholds _) rfl rfl

end Marker

/-! ## Evaluation -/

/-- An answer and the engine that it synchronized, if any. -/
structure Evaluates (shared : Shared Fingerprint) (route : FenceMarkerRoute) (lease : Option ℕ)
    (next : Shared Fingerprint) (result : AckResultV1) : Prop where
  synchronizes : next = shared ∨ ∃ record, ∃ engine kept : Engine, lease = some record ∧
    (shared.records record).engine = some engine ∧ kept.contents = engine.contents ∧
    next = shared.modify record fun session => { session with engine := some kept }
  kind : result.operationKind = .fence
  vouches : result.status = .ok → ∃ record bufferClass, lease = some record ∧
    route.bufferClass = some bufferClass ∧
    isEnabled (shared.records record) bufferClass = true ∧
    result = shared.receivers.evaluateBuffer route.sid route.receiverGeneration bufferClass
      route.publisherUuid route.durability route.throughSequence ∧
    (route.durability = .synced → ∃ engine : Engine, (next.records record).engine = some engine ∧
      engine.powerLossDurable = true ∧
      (route.throughSequence ≠ 0 → engine.lasting = engine.contents))

theorem evaluates_refused {lease : Option ℕ} {result : AckResultV1}
    (hkind : result.operationKind = .fence) (hstatus : result.status ≠ .ok) :
    Evaluates shared route lease shared result :=
  ⟨.inl rfl, hkind, fun hok => absurd hok hstatus⟩

theorem evaluates_status {lease : Option ℕ} {result : AckResultV1}
    (hkind : result.operationKind = .fence) {status : Status} (hstatus : status ≠ .ok) :
    Evaluates shared route lease shared { result with status } :=
  evaluates_refused hkind hstatus

theorem kind_evaluate (lane : FenceLaneState) (through : UInt64) (durability : AckDurability) :
    (evaluate lane through durability).operationKind = .fence := by
  unfold evaluate evaluateWatermarks
  split
  · simp only
    split_ifs <;> rfl
  · simp only
    split_ifs <;> rfl

theorem kind_evaluateBuffer (registry : FenceReceiverRegistry) (sid : ByteString)
    (sessionGeneration : FenceUuid) (bufferClass : BufferClass) (publisherUuid : FenceUuid)
    (durability : AckDurability) (through : UInt64) :
    (registry.evaluateBuffer sid sessionGeneration bufferClass publisherUuid durability
      through).operationKind = .fence := by
  unfold FenceReceiverRegistry.evaluateBuffer
  cases registry.lanes.find (laneKey sid sessionGeneration bufferClass publisherUuid) with
  | some lane => exact kind_evaluate lane through durability
  | none =>
      simp only
      split_ifs <;> rfl

theorem syncFailure_spec {result : AckResultV1} (hkind : result.operationKind = .fence)
    (status : Status) (message : ByteString) :
    (syncFailure result status message).operationKind = .fence ∧
      (syncFailure result status message).status ≠ .ok := by
  have hstatus : (if status = .ok then .error else status) ≠ Status.ok := by
    split_ifs with hok
    · decide
    · exact hok
  unfold syncFailure
  simp only
  generalize (if status = .ok then Status.error else status) = kept at hstatus ⊢
  split
  · exact ⟨hkind, hstatus⟩
  split
  · exact ⟨hkind, hstatus⟩
  · exact ⟨hkind, fun hok => by cases hok⟩

/-- An engine keeps its contents, and a barrier that is done makes them last. -/
theorem synchronize_spec (engine : Engine) {result : AckResultV1}
    (hkind : result.operationKind = .fence) (syncEnd : SyncEnd) :
    (synchronize engine result syncEnd).1.contents = engine.contents ∧
      (synchronize engine result syncEnd).2.operationKind = .fence ∧
      ((synchronize engine result syncEnd).2.status = .ok →
        (synchronize engine result syncEnd).2 = result ∧
        (synchronize engine result syncEnd).1.powerLossDurable = engine.powerLossDurable ∧
        (synchronize engine result syncEnd).1.lasting =
          (synchronize engine result syncEnd).1.contents) := by
  cases syncEnd with
  | done => exact ⟨rfl, hkind, fun _ => ⟨rfl, rfl, rfl⟩⟩
  | failed status message =>
      obtain ⟨hfence, hstatus⟩ := syncFailure_spec hkind status message
      exact ⟨rfl, hfence, fun hok => absurd hok hstatus⟩
  | threw => exact ⟨rfl, hkind, fun hok => by cases hok⟩

theorem evaluateMarker_spec {lease : Option ℕ} {status : Status} (hstatus : status ≠ .ok) :
    Evaluates shared route lease (evaluateMarker shared choice route lease status).1
      (evaluateMarker shared choice route lease status).2 := by
  unfold evaluateMarker
  simp only
  split
  · exact evaluates_status rfl (by decide)
  cases lease with
  | none => exact evaluates_refused rfl hstatus
  | some record =>
      simp only
      split
      · exact evaluates_status rfl (by decide)
      cases hclass : route.bufferClass with
      | none => exact evaluates_status rfl (by decide)
      | some bufferClass =>
          simp only
          split
          · exact evaluates_status rfl (by decide)
          have hkind := kind_evaluateBuffer shared.receivers route.sid route.receiverGeneration
            bufferClass route.publisherUuid route.durability route.throughSequence
          generalize hresult : shared.receivers.evaluateBuffer route.sid route.receiverGeneration
            bufferClass route.publisherUuid route.durability route.throughSequence = result at hkind
          split
          · exact evaluates_refused hkind ‹_›
          split
          · exact evaluates_status hkind (by decide)
          rename_i henabled
          have henabled : isEnabled (shared.records record) bufferClass = true := by
            simpa using henabled
          split
          · rename_i hdurability
            exact ⟨.inl rfl, hkind, fun _ => ⟨record, bufferClass, rfl, hclass, henabled,
              hresult.symm, fun hsynced => absurd hsynced hdurability⟩⟩
          cases hengine : (shared.records record).engine with
          | none => exact evaluates_status hkind (by decide)
          | some engine =>
              simp only
              split
              · exact evaluates_status hkind (by decide)
              rename_i hlasts
              have hlasts : engine.powerLossDurable = true := by simpa using hlasts
              split
              · rename_i hzero
                exact ⟨.inl rfl, hkind, fun _ => ⟨record, bufferClass, rfl, hclass, henabled,
                  hresult.symm, fun _ => ⟨engine, hengine, hlasts, fun hne => absurd hzero hne⟩⟩⟩
              · obtain ⟨hcontents, hfence, hdone⟩ :=
                  synchronize_spec engine hkind choice.syncEnd
                refine ⟨.inr ⟨record, engine, _, rfl, hengine, hcontents, rfl⟩, hfence,
                  fun hok => ?_⟩
                obtain ⟨hsame, hdurable, hlasting⟩ := hdone hok
                refine ⟨record, bufferClass, rfl, hclass, henabled, hsame.trans hresult.symm,
                  fun _ => ⟨_, ?_, hdurable.trans hlasts, fun _ => hlasting⟩⟩
                rw [setEngine_self]

theorem Evaluates.changes {lease : Option ℕ} {result : AckResultV1} {claim : Option Claim}
    (hevaluates : Evaluates shared route lease next result)
    (hholds : Holds node steady Sent shared) :
    Changes node steady Sent claim shared next ∧ next.receivers = shared.receivers ∧
      next.histories = shared.histories ∧ next.applied = shared.applied := by
  rcases hevaluates.synchronizes with hsame | ⟨record, engine, kept, -, hengine, hcontents, hset⟩
  · rw [hsame]
    exact ⟨Changes.refl hholds, rfl, rfl, rfl⟩
  · have hkept : steady → ∀ key value, engine.contents key = some value →
        kept.contents key = some value := fun _ key value hvalue => by rwa [hcontents]
    rw [hset]
    exact ⟨⟨hholds.setEngine hengine hkept, later_setEngine hengine hkept, adds_of_applied rfl,
      sameCounts_setEngine record _⟩, rfl, rfl, rfl⟩

/-! ## What an answer vouches for -/

def markerLane (route : FenceMarkerRoute) (bufferClass : BufferClass) : LaneId :=
  ⟨route.sid, route.receiverGeneration, bufferClass, route.publisherUuid⟩

/-- The session has the route's generation, exactly the sequences up to the marker were applied
for the lane, each from a sample of its publisher, and the engine of durable buffers has them. -/
structure Vouched (node : Node Fingerprint) (steady : Prop) (Sent : Delivered → Prop)
    (shared : Shared Fingerprint) (route : FenceMarkerRoute) (record : ℕ)
    (bufferClass : BufferClass) : Prop where
  asked : route.bufferClass = some bufferClass
  live : shared.IsLive record
  lane : shared.lane record bufferClass route.publisherUuid = markerLane route bufferClass
  covered : Covered (shared.histories (markerLane route bufferClass)) route.throughSequence
  applied : (shared.applied (markerLane route bufferClass)).map Prod.fst =
    sequencesThrough route.throughSequence
  came : ∀ datum ∈ shared.applied (markerLane route bufferClass),
    Came node Sent (markerLane route bufferClass) datum
  stored : steady → bufferClass = .durable →
    ∀ datum ∈ shared.applied (markerLane route bufferClass), ∃ engine : Engine,
      (shared.records record).engine = some engine ∧ Keeps node engine.contents datum.2 ∧
      (route.durability = .synced →
        engine.powerLossDurable = true ∧ Keeps node engine.lasting datum.2)

/-- A lane that is answered `Ok` is covered, whether it has a place or not. -/
theorem covered_of_ok {lane : LaneId} (hknown : Known shared) (hlane : lane.IsValid)
    {durability : AckDurability} {through : UInt64}
    (hok : (shared.receivers.evaluateBuffer lane.sid lane.sessionGeneration lane.bufferClass
      lane.publisherUuid durability through).status = .ok) :
    Covered (shared.histories lane) through := by
  cases hfind : shared.receivers.find lane with
  | none =>
      obtain ⟨rfl, -⟩ := (evaluate_of_absent hfind durability through).mp hok
      rw [hknown.absent lane hlane hfind]
      exact ⟨rfl, rfl, fun _ hmem => (List.not_mem_nil hmem).elim,
        fun _ hmem => (List.not_mem_nil hmem).elim⟩
  | some state =>
      have hsame : shared.receivers.evaluateBuffer lane.sid lane.sessionGeneration
          lane.bufferClass lane.publisherUuid durability through =
            evaluate state through durability := by
        have hlanes : shared.receivers.lanes.find (laneKey lane.sid lane.sessionGeneration
            lane.bufferClass lane.publisherUuid) = some state := hfind
        simp only [FenceReceiverRegistry.evaluateBuffer, hlanes]
      rw [hsame, ← hknown.found lane hlane state hfind] at hok
      exact ((evaluate_ok_iff (hknown.recorded lane) through durability).mp hok).2

theorem Evaluates.vouched {lease : Option ℕ} {result : AckResultV1}
    (hevaluates : Evaluates shared route lease next result)
    (hholds : Holds node steady Sent shared)
    (hlease : ∀ record, lease = some record → shared.IsLive record ∧
      (shared.records record).sid = route.sid ∧
      (shared.records record).generation = route.receiverGeneration)
    (hok : result.status = .ok) :
    ∃ record bufferClass, lease = some record ∧
      Vouched node steady Sent next route record bufferClass := by
  obtain ⟨record, bufferClass, hrecord, hclass, -, hresult, hsynced⟩ := hevaluates.vouches hok
  obtain ⟨hlive, hsid, hgeneration⟩ := hlease record hrecord
  obtain ⟨hchanges, hreceivers, -, -⟩ :
      Changes node steady Sent none shared next ∧ _ := hevaluates.changes hholds
  have hnext := hchanges.holds
  have hstays := hchanges.later.live record hlive
  have hlane : next.lane record bufferClass route.publisherUuid = markerLane route bufferClass := by
    rw [hchanges.later.lane hlive, Shared.lane, SessionRecord.lane, hsid, hgeneration]
    rfl
  have hcovered : Covered (next.histories (markerLane route bufferClass))
      route.throughSequence := by
    have hvalid : (markerLane route bufferClass).IsValid := by
      rw [← hlane]
      exact hnext.lane_isValid (hnext.allocated hstays) _ _
    rw [hresult, ← hreceivers] at hok
    exact covered_of_ok hnext.known hvalid hok
  have happlied := ((hnext.journal _).eq_of_covered hcovered).1
  refine ⟨record, bufferClass, hrecord, hclass, hstays, hlane, hcovered, happlied,
    hnext.came _, fun hsteady hdurable datum hdatum => ?_⟩
  subst hdurable
  rw [← hlane] at hdatum
  obtain ⟨engine, hengine, hkeeps⟩ := hnext.stored hsteady record hstays _ datum hdatum
  refine ⟨engine, hengine, hkeeps, fun hasked => ?_⟩
  obtain ⟨held, hheld, hlasts, hlasting⟩ := hsynced hasked
  obtain rfl := Option.some.inj (hengine.symm.trans hheld)
  -- a lane with a datum is not covered up to zero
  have hthrough : route.throughSequence ≠ 0 := by
    intro hzero
    rw [hlane] at hdatum
    rw [hzero] at happlied
    rw [List.map_eq_nil_iff.mp happlied] at hdatum
    cases hdatum
  rw [hlasting hthrough]
  exact ⟨hlasts, hkeeps⟩

section Answer

variable {call : MarkerCall} {lease : Option ℕ} {status : Status}

/-- What the answer of a block vouches for. -/
theorem answerMarker_vouches (hholds : Holds node steady Sent shared)
    (hat : At node steady Sent shared (.evaluating call lease status)) {asked : MarkerCall}
    {held : Option ℕ} {result : AckResultV1}
    (hanswer : answerMarker shared choice call lease status =
      (next, .retaining asked held result)) (hok : result.status = .ok) :
    asked = call ∧ ∃ record bufferClass, held = some record ∧
      Vouched node steady Sent next call.route record bufferClass := by
  obtain ⟨-, hstatus, hmatches⟩ := hat.facts
  unfold answerMarker at hanswer
  split at hanswer
  · obtain ⟨-, hafter⟩ := Prod.mk.inj hanswer
    obtain ⟨-, -, hresult⟩ := Task.retaining.inj hafter
    rw [← hresult] at hok
    exact absurd hok hstatus
  · have hevaluates := @evaluateMarker_spec _ shared choice call.route lease status hstatus
    generalize evaluateMarker shared choice call.route lease status = evaluated
      at hanswer hevaluates
    obtain ⟨evaluated, answer⟩ := evaluated
    obtain ⟨rfl, hafter⟩ := Prod.mk.inj hanswer
    obtain ⟨rfl, rfl, rfl⟩ := Task.retaining.inj hafter
    refine ⟨rfl, hevaluates.vouched hholds (fun record hrecord => ?_) hok⟩
    obtain ⟨-, hsid, hgeneration⟩ := hmatches record hrecord
    exact ⟨(hat.lease record hrecord).1, hsid, hgeneration⟩

theorem answerMarker_spec (hholds : Holds node steady Sent shared)
    (hat : At node steady Sent shared (.evaluating call lease status)) :
    Passes node steady Sent shared (.evaluating call lease status)
      (answerMarker shared choice call lease status).1
      (answerMarker shared choice call lease status).2 := by
  obtain ⟨hfacts, hstatus, -⟩ := hat.facts
  unfold answerMarker
  split
  · exact passes_on hholds hat (Quiet.refl shared) rfl rfl rfl (fun _ h => h) ⟨hfacts, rfl⟩
  · have hevaluates := @evaluateMarker_spec _ shared choice call.route lease status hstatus
    obtain ⟨hchanges, -, -, -⟩ :
        Changes node steady Sent none shared _ ∧ _ := hevaluates.changes hholds
    refine @Changes.passes _ _ _ _ _ _ (.evaluating call lease status) _ _ hchanges (Quiet.refl _)
      ((sameCounts_of_records rfl).balances rfl rfl)
      ⟨fun record bufferClass hticket => ?_, fun record hlease => ?_, fun held hheld => ?_,
        hfacts, hevaluates.kind⟩ fun held hheld => ?_
    · exact hchanges.later.live record (hat.ticket record bufferClass hticket)
    · obtain ⟨hlive, hbegun⟩ := hat.lease record hlease
      exact ⟨hchanges.later.live record hlive, hchanges.later.begun record hlive hbegun⟩
    · cases hheld
    · cases hheld

end Answer

/-! ## Any block -/

theorem block_spec [DecidableEq Fingerprint] (hholds : Holds node steady Sent shared)
    (hsteady : steady → choice.readEnd ≠ .failed) (hat : At node steady Sent shared task)
    (hblock : block node shared choice task = some (next, after)) :
    Passes node steady Sent shared task next after := by
  cases task with
  | idle => cases hblock
  | entering delivered ticket preadmitted => exact onSample_spec hholds hat hblock
  | arrived delivered =>
      obtain ⟨rfl, rfl⟩ := Prod.mk.inj (Option.some.inj hblock)
      exact dispatchSample_spec hholds hat.facts
  | failed delivered =>
      obtain ⟨rfl, rfl⟩ := Prod.mk.inj (Option.some.inj hblock)
      exact recoverSample_spec hholds
  | unwinding call record started =>
      obtain ⟨rfl, rfl⟩ := Prod.mk.inj (Option.some.inj hblock)
      exact unwinding_spec hholds hat
  | caught call started =>
      obtain ⟨rfl, rfl⟩ := Prod.mk.inj (Option.some.inj hblock)
      exact onSampleCaught_spec hholds hat
  | selecting call =>
      obtain ⟨rfl, rfl⟩ := Prod.mk.inj (Option.some.inj hblock)
      exact selectSession_spec hholds hat
  | admitting call record bufferClass relativeKey =>
      obtain ⟨rfl, rfl⟩ := Prod.mk.inj (Option.some.inj hblock)
      exact admitData_spec hholds hat
  | writing call record bufferClass relativeKey =>
      obtain ⟨rfl, rfl⟩ := Prod.mk.inj (Option.some.inj hblock)
      exact applyData_spec hholds hsteady hat
  | completing call record bufferClass failure =>
      obtain ⟨rfl, rfl⟩ := Prod.mk.inj (Option.some.inj hblock)
      exact completeData_spec hholds hat
  | acknowledging sample token ticket =>
      obtain ⟨rfl, rfl⟩ := Prod.mk.inj (Option.some.inj hblock)
      exact claimParameter_spec hholds hat
  | publishing sample token ticket =>
      obtain ⟨rfl, rfl⟩ := Prod.mk.inj (Option.some.inj hblock)
      exact publishParameter_spec hholds hat
  | looking call =>
      obtain ⟨rfl, rfl⟩ := Prod.mk.inj (Option.some.inj hblock)
      exact lookSession_spec hholds hat
  | claiming call record status =>
      obtain ⟨rfl, rfl⟩ := Prod.mk.inj (Option.some.inj hblock)
      exact claimMarker_spec hholds hat
  | evaluating call record status =>
      obtain ⟨rfl, rfl⟩ := Prod.mk.inj (Option.some.inj hblock)
      exact answerMarker_spec hholds hat
  | retaining call record result =>
      obtain ⟨rfl, rfl⟩ := Prod.mk.inj (Option.some.inj hblock)
      exact retainResult_spec hholds hat

end Sitos.BufferFence
