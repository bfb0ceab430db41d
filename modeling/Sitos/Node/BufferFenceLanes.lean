import Sitos.Node.BufferFence

/-!
# What the node's registry knows of its lanes

A call of the registry tells one lane one thing, if there is a place for the lane; the state of a
lane is then the summary of everything it was told since its session was last dropped.
-/

namespace Sitos.BufferFence

open Sitos.AckResult
open Sitos.Bytes
open Sitos.Core
open Sitos.FenceWire
open Sitos.Key
open Sitos.LaneHistory
open Sitos.LaneState
open Sitos.Machine
open Sitos.Receiver

variable {Fingerprint : Type} {shared : Shared Fingerprint} {lane : LaneId}

/-! ## One call of the registry -/

section Calls

variable (registry : FenceReceiverRegistry) {Value : Type}

/-- What a lane is told when it has a place, or gets one. -/
theorem tell_available (lane : LaneId) (refused : Value)
    (operation : FenceLaneState → LaneState.Call Value) :
    let call := registry.tell .available lane.sid lane.sessionGeneration lane.bufferClass
      lane.publisherUuid refused operation
    (registry.find lane = none ∧ call.registry.find lane = none ∧ call.returned = some refused) ∨
      (call.registry.find lane = some (operation ((registry.find lane).getD .empty)).lane ∧
        call.returned = (operation ((registry.find lane).getD .empty)).returned) := by
  simp only [FenceReceiverRegistry.tell, FenceReceiverRegistry.findOrEmplace,
    FenceReceiverRegistry.find, LaneId.key, Allocations.available]
  cases hfind : registry.lanes.find (laneKey lane.sid lane.sessionGeneration lane.bufferClass
      lane.publisherUuid) with
  | some state => simp [SortedMap.find_insertOrAssign]
  | none =>
      split_ifs with hfull
      · simp [hfind]
      · simp [SortedMap.find_insertOrAssign]

theorem completeBufferObservation_available (lane : LaneId) (sequence : UInt64)
    (failure : Option Status) :
    let call := registry.completeBufferObservation .available lane.sid lane.sessionGeneration
      lane.bufferClass lane.publisherUuid sequence failure
    call.registry.find lane =
      (registry.find lane).map fun state => (complete .available state sequence failure).lane := by
  simp only [FenceReceiverRegistry.completeBufferObservation, FenceReceiverRegistry.find,
    LaneId.key, Allocations.available]
  cases hfind : registry.lanes.find (laneKey lane.sid lane.sessionGeneration lane.bufferClass
      lane.publisherUuid) with
  | some state => simp [SortedMap.find_insertOrAssign]
  | none => simp [hfind]

end Calls

/-! ## Lanes and their histories -/

/-- The state of every lane sums up its history. -/
structure Known (shared : Shared Fingerprint) : Prop where
  found : ∀ lane : LaneId, lane.IsValid → ∀ state, shared.receivers.find lane = some state →
    (shared.histories lane).lane = state
  absent : ∀ lane : LaneId, lane.IsValid → shared.receivers.find lane = none →
    shared.histories lane = .empty
  recorded : ∀ lane, Recorded (shared.histories lane)

theorem Known.getD (hknown : Known shared) (hlane : lane.IsValid) :
    (shared.receivers.find lane).getD .empty = (shared.histories lane).lane := by
  cases hfind : shared.receivers.find lane with
  | none =>
      rw [hknown.absent lane hlane hfind]
      rfl
  | some state => exact (hknown.found lane hlane state hfind).symm

/-- A lane has heard something, or there was no place for it. -/
structure Heard (shared : Shared Fingerprint) (lane : LaneId) (heard : LaneHistory.Operation)
    (next : Shared Fingerprint) : Prop where
  rest : next = { shared with receivers := next.receivers, histories := next.histories }
  known : Known next
  histories : (next.histories = shared.histories ∧ shared.histories lane = .empty) ∨
    next.histories = Function.update shared.histories lane
      (LaneHistory.apply .available (shared.histories lane) heard)

section Heard

variable {heard : LaneHistory.Operation} {next : Shared Fingerprint}

theorem Heard.sessions (hheard : Heard shared lane heard next) :
    next.sessions = shared.sessions := by
  rw [hheard.rest]

theorem Heard.allocated (hheard : Heard shared lane heard next) :
    next.allocated = shared.allocated := by
  rw [hheard.rest]

theorem Heard.records (hheard : Heard shared lane heard next) :
    next.records = shared.records := by
  rw [hheard.rest]

theorem Heard.applied (hheard : Heard shared lane heard next) :
    next.applied = shared.applied := by
  rw [hheard.rest]

/-- Whatever holds of histories and is kept by what is heard. -/
theorem Heard.forall {Fits : LaneId → History → Prop} (hheard : Heard shared lane heard next)
    (hfits : ∀ other, Fits other (shared.histories other))
    (hlane : Fits lane (LaneHistory.apply .available (shared.histories lane) heard))
    (other : LaneId) : Fits other (next.histories other) := by
  rcases hheard.histories with ⟨hsame, -⟩ | htold
  · rw [hsame]
    exact hfits other
  · rw [htold]
    by_cases hother : other = lane
    · rw [hother, Function.update_self]
      exact hlane
    · rw [Function.update_of_ne hother]
      exact hfits other

theorem Heard.admitted (hheard : Heard shared lane heard next) (other : LaneId) :
    ∀ sequence ∈ (shared.histories other).admitted,
      sequence ∈ (next.histories other).admitted := by
  refine @Heard.forall _ _ _ _ _ (fun other history =>
    ∀ sequence ∈ (shared.histories other).admitted, sequence ∈ history.admitted) hheard ?_ ?_ other
  · exact fun _ _ hmem => hmem
  · exact admitted_apply _ _ _

end Heard

section Receive

variable {operation : Receiver.Operation} {heard : LaneHistory.Operation}

theorem lane_of_told (htold : Shared.told operation = some (lane, heard)) :
    operation.lane = some lane := by
  cases operation with
  | malformed sid sessionGeneration bufferClass part =>
      obtain ⟨publisherUuid, hpublisher, hpair⟩ := Option.map_eq_some_iff.mp htold
      obtain ⟨rfl, -⟩ := Prod.mk.inj hpair
      exact Option.map_eq_some_iff.mpr ⟨publisherUuid, hpublisher, rfl⟩
  | admission other sequence =>
      obtain ⟨rfl, -⟩ := Prod.mk.inj (Option.some.inj htold)
      rfl
  | complete other sequence failure =>
      obtain ⟨rfl, -⟩ := Prod.mk.inj (Option.some.inj htold)
      rfl
  | overflow other sequence =>
      obtain ⟨rfl, -⟩ := Prod.mk.inj (Option.some.inj htold)
      rfl
  | record other sequence failure => cases htold
  | erase sid => cases htold
  | clear => cases htold

/-- A lane that has a place after a call has heard of it, and no lane loses its place. -/
theorem perform_heard (htold : Shared.told operation = some (lane, heard))
    (hknown : Known shared) (hlane : lane.IsValid) :
    let after := (shared.receivers.perform (.available, operation)).registry.find lane
    (shared.receivers.find lane = none ∧ after = none) ∨
      after = some (LaneHistory.apply .available (shared.histories lane) heard).lane := by
  have hstate := hknown.getD hlane
  cases operation with
  | admission other sequence =>
      obtain ⟨rfl, rfl⟩ := Prod.mk.inj (Option.some.inj htold)
      rcases tell_available shared.receivers other false fun lane =>
          admitSequence .available lane sequence with ⟨hbefore, hnone, -⟩ | ⟨hsome, -⟩
      · exact .inl ⟨hbefore, hnone⟩
      · rw [hstate] at hsome
        exact .inr hsome
  | complete other sequence failure =>
      obtain ⟨rfl, rfl⟩ := Prod.mk.inj (Option.some.inj htold)
      have hcall := completeBufferObservation_available shared.receivers other sequence failure
      cases hfind : shared.receivers.find other with
      | none =>
          rw [hfind] at hcall
          exact .inl ⟨rfl, hcall⟩
      | some state =>
          rw [hfind, Option.getD_some] at hstate
          rw [hfind, Option.map_some, hstate] at hcall
          exact .inr hcall
  | overflow other sequence =>
      obtain ⟨rfl, rfl⟩ := Prod.mk.inj (Option.some.inj htold)
      rcases tell_available shared.receivers other false fun lane =>
          let call := recordOverflow .available lane sequence
          (⟨call.lane, call.returned.map fun _ => true⟩ : LaneState.Call Bool)
        with ⟨hbefore, hnone, -⟩ | ⟨hsome, -⟩
      · exact .inl ⟨hbefore, hnone⟩
      · rw [hstate] at hsome
        exact .inr hsome
  | malformed sid sessionGeneration bufferClass part =>
      obtain ⟨publisherUuid, hpublisher, hpair⟩ := Option.map_eq_some_iff.mp htold
      obtain ⟨rfl, rfl⟩ := Prod.mk.inj hpair
      simp only [FenceReceiverRegistry.perform, FenceReceiverRegistry.recordMalformedBuffer,
        hpublisher]
      rcases tell_available shared.receivers
          ⟨sid, sessionGeneration, bufferClass, publisherUuid⟩ false fun lane =>
          let call := recordMalformed .available lane part.sequence
          (⟨call.lane, call.returned.map fun _ => true⟩ : LaneState.Call Bool)
        with ⟨hbefore, hnone, -⟩ | ⟨hsome, -⟩
      · exact .inl ⟨hbefore, hnone⟩
      · rw [hstate] at hsome
        exact .inr hsome
  | record other sequence failure => cases htold
  | erase sid => cases htold
  | clear => cases htold

/-- A call about a valid lane keeps the summaries. -/
theorem receive_heard (htold : Shared.told operation = some (lane, heard))
    (hknown : Known shared) (hlane : lane.IsValid)
    (hrecorded : Recorded (LaneHistory.apply .available (shared.histories lane) heard)) :
    Heard shared lane heard (shared.receive operation).1 := by
  have htouches : Touches lane shared.receivers
      (shared.receivers.perform (.available, operation)).registry :=
    touches_perform (lane_of_told htold)
  have hothers : ∀ other : LaneId, other.IsValid → other ≠ lane →
      (shared.receivers.perform (.available, operation)).registry.find other =
        shared.receivers.find other := by
    intro other hother hne
    exact htouches.lanes other.key fun hkey => hne (LaneId.eq_of_key hother hlane hkey)
  rcases perform_heard htold hknown hlane with ⟨hbefore, hnone⟩ | hsome
  · have hhistories : (shared.receive operation).1.histories = shared.histories := by
      simp [Shared.receive, htold, hnone]
    refine ⟨rfl, ⟨?_, ?_, ?_⟩, .inl ⟨hhistories, hknown.absent lane hlane hbefore⟩⟩
    · intro other hother state hstate
      have hne : other ≠ lane := by
        rintro rfl
        cases hnone.symm.trans hstate
      rw [hhistories]
      exact hknown.found other hother state ((hothers other hother hne).symm.trans hstate)
    · intro other hother hfind
      rw [hhistories]
      by_cases hsame : other = lane
      · rw [hsame]
        exact hknown.absent lane hlane hbefore
      · exact hknown.absent other hother ((hothers other hother hsame).symm.trans hfind)
    · rw [hhistories]
      exact hknown.recorded
  · have hhistories : (shared.receive operation).1.histories =
        Function.update shared.histories lane
          (LaneHistory.apply .available (shared.histories lane) heard) := by
      simp [Shared.receive, htold, hsome]
    refine ⟨rfl, ⟨?_, ?_, ?_⟩, .inr hhistories⟩
    · intro other hother state hstate
      rw [hhistories]
      by_cases hsame : other = lane
      · rw [hsame, Function.update_self]
        rw [hsame] at hstate
        exact Option.some.inj (hsome.symm.trans hstate)
      · rw [Function.update_of_ne hsame]
        exact hknown.found other hother state ((hothers other hother hsame).symm.trans hstate)
    · intro other hother hfind
      have hne : other ≠ lane := by
        rintro rfl
        cases hsome.symm.trans hfind
      rw [hhistories, Function.update_of_ne hne]
      exact hknown.absent other hother ((hothers other hother hne).symm.trans hfind)
    · intro other
      rw [hhistories]
      by_cases hsame : other = lane
      · rw [hsame, Function.update_self]
        exact hrecorded
      · rw [Function.update_of_ne hsame]
        exact hknown.recorded other

end Receive

section Observations

variable {sequence : Sequence} {failure : Option Status}

theorem recorded_heard (hknown : Known shared) {heard : LaneHistory.Operation}
    (hformed : WellFormed (shared.histories lane) heard) :
    Recorded (LaneHistory.apply .available (shared.histories lane) heard) :=
  (hknown.recorded lane).apply .available hformed (not_torn_available _ _)

theorem heard_admission (hknown : Known shared) (hlane : lane.IsValid) (sequence : Sequence) :
    Heard shared lane (.admitSequence sequence.val)
      (shared.admitBufferObservation lane sequence).1 :=
  receive_heard rfl hknown hlane (recorded_heard hknown sequence.property)

/-- An observation that is admitted is new. -/
theorem admitted_of_accepted (hknown : Known shared) (hlane : lane.IsValid)
    (haccepted : (shared.admitBufferObservation lane sequence).2 = true) :
    sequence.val ∉ (shared.histories lane).admitted ∧
      sequence.val ∈ ((shared.admitBufferObservation lane sequence).1.histories lane).admitted := by
  have hreturned : (shared.receivers.perform
      (.available, .admission lane sequence.val)).returned = some true := by
    simpa [Shared.admitBufferObservation, Shared.receive] using haccepted
  rcases tell_available shared.receivers lane false fun lane =>
      admitSequence .available lane sequence.val with ⟨-, -, hrefused⟩ | ⟨hsome, hcall⟩
  · cases hreturned.symm.trans hrefused
  · rw [hknown.getD hlane] at hcall
    obtain ⟨hold, hnew⟩ := not_mem_admitted (hknown.recorded lane) (hcall.symm.trans hreturned)
    refine ⟨hold, ?_⟩
    have hfound : ((shared.receivers.perform
        (.available, .admission lane sequence.val)).registry.find lane).isSome = true := by
      rw [Option.isSome_iff_exists]
      exact ⟨_, hsome⟩
    simpa [Shared.admitBufferObservation, Shared.receive, Shared.told, hfound] using hnew

theorem heard_complete (hknown : Known shared) (hlane : lane.IsValid)
    (hadmitted : sequence.val ∈ (shared.histories lane).admitted) (failure : Option Status) :
    Heard shared lane (.complete sequence.val failure)
      (shared.completeBufferObservation lane sequence failure) :=
  receive_heard rfl hknown hlane (recorded_heard hknown hadmitted)

theorem heard_overflow (hknown : Known shared) (hlane : lane.IsValid) (sequence : Sequence) :
    Heard shared lane (.recordOverflow sequence.val)
      (shared.recordBufferOverflow lane sequence) :=
  receive_heard rfl hknown hlane (recorded_heard hknown sequence.property)

theorem heard_malformed (hknown : Known shared) {record : ℕ} {bufferClass : BufferClass}
    {publisherUuid : FenceUuid} (hlane : (shared.lane record bufferClass publisherUuid).IsValid)
    (sequence : Option Sequence) :
    Heard shared (shared.lane record bufferClass publisherUuid)
      (.recordMalformed (sequence.map Subtype.val))
      (shared.recordMalformedBuffer record bufferClass (some publisherUuid) sequence) := by
  refine receive_heard rfl hknown hlane (recorded_heard hknown ?_)
  cases sequence with
  | none =>
      intro hzero
      cases hzero
  | some sequence =>
      intro hzero
      exact sequence.property (Option.some.inj hzero)

end Observations

end Sitos.BufferFence
