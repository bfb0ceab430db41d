import Sitos.Node.BufferFenceActions

/-!
# What a retained answer tells

A result of a Fence comes into the registry of acknowledgements in one way only: the marker that
claimed the token was evaluated.  So whoever finds an `Ok` there knows that at one moment of the run
the lane had been applied in full.
-/

namespace Sitos.BufferFence

open Sitos.AckApply (laneBusyResult operationKind operationKind_ne_fence)
open Sitos.AckHistory (claimLocked_cases)
open Sitos.AckResult
open Sitos.Attachment
open Sitos.Bytes
open Sitos.Core
open Sitos.FenceWire
open Sitos.Key
open Sitos.LaneHistory
open Sitos.Machine
open Sitos.Receiver
open Sitos.Registry
open Sitos.Ring
open Sitos.Sample
open Sitos.Tasks
open Sitos.Token

variable {Fingerprint : Type} {node : Node Fingerprint} {steady : Prop}
  {Sent : Delivered → Prop} {shared next : Shared Fingerprint} {task after : Task}
  {choice : Choice} {delivered : Delivered} {record : ℕ} {bufferClass : BufferClass}

/-! ## The registry of acknowledgements -/

section Found

variable [DecidableEq Fingerprint] {registry : AckRegistry AckToken Fingerprint}
  {token other : AckToken} {result kept : AckResultV1}

omit [DecidableEq Fingerprint] in
/-- A retention lets one result go, and no other. -/
theorem find_retainCompletedLocked
    (hfind : find (retainCompletedLocked registry token) other = some kept) :
    find registry other = some kept := by
  cases holdest : oldest registry.completionOrder with
  | none =>
      simp only [find, retainCompletedLocked, holdest] at hfind
      exact hfind
  | some evicted =>
      simp only [find, retainCompletedLocked, holdest] at hfind
      by_cases hevicted : other = evicted
      · rw [hevicted, Function.update_self] at hfind
        cases hfind
      · rw [Function.update_of_ne hevicted] at hfind
        exact hfind

omit [DecidableEq Fingerprint] in
theorem find_updated {entry : Entry Fingerprint} {lanes : UInt64 → Option AckToken}
    (hfind : find (retainCompletedLocked
      { registry with
        entries := Function.update registry.entries token (some entry)
        processingByLane := lanes } token) other = some kept) :
    find registry other = some kept ∨ (other = token ∧ entry.result = some kept) := by
  have hfind := find_retainCompletedLocked hfind
  simp only [find] at hfind
  by_cases hsame : other = token
  · rw [hsame, Function.update_self] at hfind
    exact .inr ⟨hsame, hfind⟩
  · rw [Function.update_of_ne hsame] at hfind
    exact .inl hfind

omit [DecidableEq Fingerprint] in
theorem find_complete (hfind : find (complete registry token result).1 other = some kept) :
    find registry other = some kept ∨ (other = token ∧ kept = result) := by
  unfold complete at hfind
  split at hfind
  · exact .inl hfind
  split at hfind
  · exact .inl hfind
  rcases find_updated hfind with hbefore | ⟨hsame, hresult⟩
  · exact .inl hbefore
  · exact .inr ⟨hsame, (Option.some.inj hresult).symm⟩

omit [DecidableEq Fingerprint] in
theorem find_recordRejected {fingerprint : Fingerprint}
    (hfind : find (recordRejected registry token fingerprint result).1 other = some kept) :
    find registry other = some kept ∨ kept = result := by
  unfold recordRejected at hfind
  split at hfind
  · exact .inl hfind
  rcases @find_updated _ registry token other kept _ registry.processingByLane hfind with
    hbefore | ⟨-, hresult⟩
  · exact .inl hbefore
  · exact .inr (Option.some.inj hresult).symm

theorem find_claimLocked {memory : Memory} {fingerprint : Fingerprint} {lane : Option UInt64}
    {busy : Option AckResultV1}
    (hfind : find (claimLocked memory registry token fingerprint lane busy).1 other = some kept) :
    find registry other = some kept ∨ busy = some kept := by
  rcases claimLocked_cases memory registry token fingerprint lane busy with
    ⟨-, outcome, -, -, hclaim⟩ | ⟨-, -, hclaim⟩ | ⟨-, rejection, hbusy, hclaim⟩ | ⟨-, hclaim⟩ |
      ⟨-, -, hclaim⟩
  · rw [hclaim] at hfind
    exact .inl hfind
  · rw [hclaim] at hfind
    exact .inl hfind
  · rw [hclaim] at hfind
    rcases @find_updated _ registry token other kept _ registry.processingByLane hfind with
      hbefore | ⟨-, hresult⟩
    · exact .inl hbefore
    · exact .inr (hbusy.trans hresult)
  · rw [hclaim] at hfind
    exact .inl hfind
  · rw [hclaim] at hfind
    simp only [find] at hfind
    by_cases hsame : other = token
    · rw [hsame, Function.update_self] at hfind
      cases hfind
    · rw [Function.update_of_ne hsame] at hfind
      exact .inl hfind

end Found

/-! ## Blocks that give no answer -/

/-- No result is retained, and none is about to be. -/
structure Plain (shared next : Shared Fingerprint) (after : Task) : Prop where
  acks : next.acks = shared.acks
  after : ∀ call lease result, after ≠ .retaining call lease result

theorem acks_leaveDispatch (ticket : Option Ticket) :
    (shared.leaveDispatch ticket).acks = shared.acks := by
  cases ticket <;> rfl

theorem acks_release (lease : Option ℕ) : (shared.release lease).acks = shared.acks := by
  cases lease <;> rfl

theorem plain_leave (hacks : next.acks = shared.acks) (ticket : Option Ticket) :
    Plain shared (leave next ticket).1 (leave next ticket).2 :=
  ⟨(acks_leaveDispatch ticket).trans hacks, fun _ _ _ h => by cases h⟩

theorem plain_finish (hacks : next.acks = shared.acks) (ticket : Option Ticket) :
    Plain shared (finish next ticket).1 (finish next ticket).2 :=
  @plain_leave _ shared next.unlock hacks ticket

theorem acks_completeBufferObservation (lane : LaneId) (sequence : Sequence)
    (failure : Option Status) :
    (shared.completeBufferObservation lane sequence failure).acks = shared.acks := rfl

theorem acks_recordMalformedBuffer (publisherUuid : Option FenceUuid)
    (sequence : Option Sequence) :
    (shared.recordMalformedBuffer record bufferClass publisherUuid sequence).acks =
      shared.acks := rfl

theorem acks_overflow (lane : FenceLaneObservation) :
    (overflow shared record bufferClass lane).acks = shared.acks := by
  cases lane <;> rfl

theorem acks_prepare (marker : Bool) (lane : FenceLaneObservation) :
    (prepare shared record bufferClass marker lane).1.acks = shared.acks := by
  cases marker <;> cases lane <;> rfl

theorem closedMarker_ne (marker : Option (FenceMarkerRoute × Bool)) (call : MarkerCall)
    (lease : Option ℕ) (result : AckResultV1) :
    closedMarker shared delivered marker ≠ .retaining call lease result := by
  unfold closedMarker
  intro hclosed
  split at hclosed
  · cases hclosed
  split at hclosed
  · cases hclosed
  split at hclosed
  · cases hclosed
  · cases hclosed

theorem plain_dispatch (marker : Option (FenceMarkerRoute × Bool)) :
    Plain shared (dispatch shared choice delivered record bufferClass marker).1
      (dispatch shared choice delivered record bufferClass marker).2 := by
  unfold dispatch
  split
  · exact ⟨rfl, closedMarker_ne marker⟩
  split
  · refine ⟨?_, fun _ _ _ h => by cases h⟩
    split
    · rfl
    · exact acks_overflow _
  have hacks := @acks_prepare _ shared record bufferClass marker.isSome delivered.observations.lane
  cases hprepare : prepare shared record bufferClass marker.isSome
      delivered.observations.lane with
  | mk middle accepted =>
      rw [hprepare] at hacks
      cases accepted with
      | false => exact ⟨hacks, fun _ _ _ h => by cases h⟩
      | true => exact ⟨hacks, fun _ _ _ h => by cases h⟩

theorem plain_dispatchSample :
    Plain shared (dispatchSample node shared choice delivered).1
      (dispatchSample node shared choice delivered).2 := by
  unfold dispatchSample
  split
  · exact ⟨rfl, fun _ _ _ h => by cases h⟩
  split
  · exact ⟨rfl, fun _ _ _ h => by cases h⟩
  split
  · split
    · exact ⟨rfl, fun _ _ _ h => by cases h⟩
    · exact plain_dispatch _
  · refine ⟨rfl, fun _ _ _ h => ?_⟩
    split at h
    · cases h
    · cases h

theorem acks_recoverSample :
    (recoverSample node shared choice delivered).acks = shared.acks := by
  unfold recoverSample
  split
  · rfl
  split
  · rfl
  split
  · rfl
  · rfl
  · rfl
  · split
    · rfl
    · rfl

section Data

variable {call : DataCall}

theorem plain_onSampleCaught (started : Bool) :
    Plain shared (onSampleCaught node shared choice call started).1
      (onSampleCaught node shared choice call started).2 := by
  refine plain_leave ?_ call.ticket
  split
  · split
    · rfl
    · rfl
  · rfl

theorem plain_selectSession :
    Plain shared (selectSession node shared choice call).1
      (selectSession node shared choice call).2 := by
  unfold selectSession
  split
  · exact ⟨rfl, fun _ _ _ h => by cases h⟩
  split
  · exact plain_finish rfl _
  split
  · exact plain_finish rfl _
  split
  · split
    · exact ⟨rfl, fun _ _ _ h => by cases h⟩
    · split
      · exact plain_finish (acks_completeBufferObservation ..) _
      · exact plain_finish rfl _
  · exact plain_finish rfl _

theorem plain_admitData (relativeKey : ByteString) :
    Plain shared (admitData shared call record bufferClass relativeKey).1
      (admitData shared call record bufferClass relativeKey).2 := by
  unfold admitData
  split
  · exact ⟨rfl, fun _ _ _ h => by cases h⟩
  · exact plain_finish ((acks_release _).trans (acks_recordMalformedBuffer ..)) _
  · rename_i publisherUuid sequence _
    split
    · exact ⟨rfl, fun _ _ _ h => by cases h⟩
    have hacks : (shared.admitBufferObservation
        (shared.lane record bufferClass publisherUuid) sequence).1.acks = shared.acks := rfl
    cases hcalled : shared.admitBufferObservation
        (shared.lane record bufferClass publisherUuid) sequence with
    | mk middle accepted =>
        rw [hcalled] at hacks
        cases accepted with
        | true => exact ⟨hacks, fun _ _ _ h => by cases h⟩
        | false => exact plain_finish ((acks_release _).trans hacks) _

theorem acks_writeData (relativeKey : ByteString) :
    (writeData shared choice call record bufferClass relativeKey).shared.acks = shared.acks := by
  unfold writeData
  simp only
  split
  · rfl
  cases bufferClass with
  | ephemeral =>
      simp only
      split
      · rfl
      · rfl
  | durable =>
      cases (shared.records record).engine with
      | none => rfl
      | some engine =>
          simp only
          split
          · rfl
          split
          · rfl
          split
          · rfl
          · rfl

theorem plain_applyData (relativeKey : ByteString) :
    Plain shared (applyData shared choice call record bufferClass relativeKey).1
      (applyData shared choice call record bufferClass relativeKey).2 := by
  refine ⟨acks_writeData relativeKey, fun _ _ _ h => ?_⟩
  simp only [applyData] at h
  split at h
  · cases h
  · cases h

theorem plain_completeData (failure : Option Status) :
    Plain shared (completeData shared call record bufferClass failure).1
      (completeData shared call record bufferClass failure).2 := by
  refine plain_finish ?_ call.ticket
  split
  · unfold noteApplied
    split
    · rfl
    · rfl
  · rfl

end Data

/-! ## Where a result comes from -/

/-- A result of a Fence was there, or it is what a marker was about to retain. -/
def Retains (shared : Shared Fingerprint) (task : Task) (next : Shared Fingerprint) : Prop :=
  ∀ token result, find next.acks token = some result → result.operationKind = .fence →
    find shared.acks token = some result ∨
      ∃ call lease, task = .retaining call lease result ∧ call.token = token

theorem retains_of_acks (hacks : next.acks = shared.acks) : Retains shared task next := by
  intro token result hfind _
  rw [hacks] at hfind
  exact .inl hfind

/-- A block retains what it was about to, and only an evaluation is about to. -/
structure Answers (shared : Shared Fingerprint) (task : Task) (next : Shared Fingerprint)
    (after : Task) : Prop where
  retains : Retains shared task next
  after : ∀ call lease result, after = .retaining call lease result →
    ∃ status, task = .evaluating call lease status

theorem Plain.answers (hplain : Plain shared next after) : Answers shared task next after :=
  ⟨retains_of_acks hplain.acks, fun call lease result hsame =>
    absurd hsame (hplain.after call lease result)⟩

theorem answers_idle (hretains : Retains shared task next) : Answers shared task next .idle :=
  ⟨hretains, fun _ _ _ h => by cases h⟩

theorem answers_onSample [DecidableEq Fingerprint] {ticket : Option Ticket} {preadmitted : Bool}
    (hblock : onSample node shared choice delivered ticket preadmitted = some (next, after)) :
    Answers shared task next after := by
  have hleave : ∀ middle : Shared Fingerprint, Retains shared task middle →
      leave middle ticket = (next, after) → Answers shared task next after := by
    intro middle hretains hleft
    obtain ⟨rfl, rfl⟩ := Prod.mk.inj hleft
    refine answers_idle fun token result hfind => ?_
    rw [acks_leaveDispatch] at hfind
    exact hretains token result hfind
  have hsame : Retains shared task shared := retains_of_acks rfl
  unfold onSample at hblock
  split at hblock
  · exact hleave shared hsame (Option.some.inj hblock)
  split at hblock
  · obtain ⟨rfl, rfl⟩ := Prod.mk.inj (Option.some.inj hblock)
    exact ⟨hsame, fun _ _ _ h => by cases h⟩
  split at hblock
  · split_ifs at hblock
    · exact hleave shared hsame (Option.some.inj hblock)
    · split at hblock
      · exact hleave shared hsame (Option.some.inj hblock)
      · obtain ⟨rfl, rfl⟩ := Prod.mk.inj (Option.some.inj hblock)
        exact ⟨retains_of_acks rfl, fun _ _ _ h => by cases h⟩
  · split_ifs at hblock
    · exact hleave shared hsame (Option.some.inj hblock)
    · refine hleave _ (fun token result hfind hfence => ?_) (Option.some.inj hblock)
      unfold rejectReentrantSample at hfind
      split at hfind
      · rcases find_recordRejected hfind with hbefore | rfl
        · exact .inl hbefore
        · exact absurd hfence (operationKind_ne_fence node.keyPrefix delivered.sample)
      · exact .inl hfind
    · split at hblock
      · obtain ⟨rfl, rfl⟩ := Prod.mk.inj (Option.some.inj hblock)
        exact ⟨retains_of_acks rfl, fun _ _ _ h => by cases h⟩
      · obtain ⟨rfl, rfl⟩ := Prod.mk.inj (Option.some.inj hblock)
        exact ⟨retains_of_acks rfl, fun _ _ _ h => by cases h⟩

theorem answers_finish {middle : Shared Fingerprint} (hretains : Retains shared task middle)
    (ticket : Option Ticket) :
    Answers shared task (finish middle ticket).1 (finish middle ticket).2 := by
  refine answers_idle fun token result hfind => ?_
  rw [finish, leave, acks_leaveDispatch] at hfind
  exact hretains token result hfind

section Acknowledged

variable [DecidableEq Fingerprint] {sample : TransportSample} {token : AckToken}
  {ticket : Option Ticket}

theorem answers_claimParameter :
    Answers shared task (claimParameter node shared choice sample token ticket).1
      (claimParameter node shared choice sample token ticket).2 := by
  have hretains : ∀ acks, (claimOrReject choice.memory shared.acks token
      (fingerprint node (operationKind node.keyPrefix sample) sample) AckApply.kParameterLane
      (laneBusyResult (operationKind node.keyPrefix sample))).1 = acks →
      Retains shared task { shared with acks } := by
    rintro acks rfl other result hfind hfence
    rcases find_claimLocked hfind with hbefore | hbusy
    · exact .inl hbefore
    · rw [← Option.some.inj hbusy] at hfence
      exact absurd hfence (operationKind_ne_fence node.keyPrefix sample)
  unfold claimParameter
  simp only
  split
  · rename_i acks hclaim
    exact ⟨hretains acks (congrArg Prod.fst hclaim), fun _ _ _ h => by cases h⟩
  · rename_i acks _ _ hclaim
    exact answers_finish (hretains acks (congrArg Prod.fst hclaim)) ticket

omit [DecidableEq Fingerprint] in
theorem answers_publishParameter :
    Answers shared task (publishParameter node shared choice sample token ticket).1
      (publishParameter node shared choice sample token ticket).2 := by
  refine answers_finish (fun other result hfind hfence => ?_) ticket
  rcases find_complete hfind with hbefore | ⟨-, rfl⟩
  · exact .inl hbefore
  · exact absurd hfence (operationKind_ne_fence node.keyPrefix sample)

end Acknowledged

section Marker

variable {call : MarkerCall} {lease : Option ℕ} {status : Status} {result : AckResultV1}

theorem answers_finishMarker {middle : Shared Fingerprint} (hretains : Retains shared task middle)
    (call : MarkerCall) (lease : Option ℕ) :
    Answers shared task (finishMarker middle call lease).1 (finishMarker middle call lease).2 := by
  have hacks : (finishMarker middle call lease).1.acks = middle.acks := by
    rw [finishMarker, leave, acks_leaveDispatch]
    split
    · exact acks_release lease
    · exact acks_release lease
  refine answers_idle fun token found hfind => ?_
  rw [hacks] at hfind
  exact hretains token found hfind

theorem answers_lookSession :
    Answers shared task (lookSession shared call).1 (lookSession shared call).2 := by
  have hsame : Retains shared task shared := retains_of_acks rfl
  unfold lookSession
  split
  · exact ⟨hsame, fun _ _ _ h => by cases h⟩
  split
  · exact ⟨hsame, fun _ _ _ h => by cases h⟩
  split
  · exact ⟨hsame, fun _ _ _ h => by cases h⟩
  split
  · exact answers_finishMarker hsame call none
  · exact ⟨retains_of_acks rfl, fun _ _ _ h => by cases h⟩

theorem answers_claimMarker [DecidableEq Fingerprint] :
    Answers shared task (claimMarker node shared choice call lease status).1
      (claimMarker node shared choice call lease status).2 := by
  have hretains : ∀ acks, (claimIndependent choice.memory shared.acks call.token
      (fingerprint node .fence call.sample)).1 = acks →
      Retains shared task { shared with acks } := by
    rintro acks rfl other found hfind _
    rcases find_claimLocked hfind with hbefore | hbusy
    · exact .inl hbefore
    · cases hbusy
  unfold claimMarker
  split
  · rename_i acks hclaim
    exact ⟨hretains acks (congrArg Prod.fst hclaim), fun _ _ _ h => by cases h⟩
  · rename_i acks _ _ hclaim
    exact answers_finishMarker (hretains acks (congrArg Prod.fst hclaim)) call lease

theorem acks_evaluateMarker (route : FenceMarkerRoute) :
    (evaluateMarker shared choice route lease status).1.acks = shared.acks := by
  unfold evaluateMarker
  simp only
  split
  · rfl
  cases lease with
  | none => rfl
  | some record =>
      simp only
      split
      · rfl
      cases route.bufferClass with
      | none => rfl
      | some bufferClass =>
          simp only
          split
          · rfl
          split
          · rfl
          split
          · rfl
          split
          · rfl
          cases (shared.records record).engine with
          | none => rfl
          | some engine =>
              simp only
              split
              · rfl
              split
              · rfl
              · rfl

theorem answers_answerMarker :
    Answers shared (.evaluating call lease status)
      (answerMarker shared choice call lease status).1
      (answerMarker shared choice call lease status).2 := by
  have hafter : ∀ given asked held found,
      Task.retaining call lease given = .retaining asked held found →
      ∃ status', Task.evaluating call lease status = .evaluating asked held status' := by
    intro given asked held found hsame
    obtain ⟨rfl, rfl, -⟩ := Task.retaining.inj hsame
    exact ⟨status, rfl⟩
  unfold answerMarker
  split
  · exact ⟨retains_of_acks rfl, hafter _⟩
  · exact ⟨retains_of_acks (acks_evaluateMarker call.route), hafter _⟩

theorem answers_retainResult :
    Answers shared (.retaining call lease result) (retainResult shared call lease result).1
      (retainResult shared call lease result).2 := by
  refine answers_finishMarker (fun token found hfind _ => ?_) call lease
  rcases find_complete hfind with hbefore | ⟨rfl, rfl⟩
  · exact .inl hbefore
  · exact .inr ⟨call, lease, rfl, rfl⟩

end Marker

theorem block_answers [DecidableEq Fingerprint]
    (hblock : block node shared choice task = some (next, after)) :
    Answers shared task next after := by
  cases task with
  | idle => cases hblock
  | entering delivered ticket preadmitted => exact answers_onSample hblock
  | arrived delivered =>
      obtain ⟨rfl, rfl⟩ := Prod.mk.inj (Option.some.inj hblock)
      exact plain_dispatchSample.answers
  | failed delivered =>
      obtain ⟨rfl, rfl⟩ := Prod.mk.inj (Option.some.inj hblock)
      exact answers_idle (retains_of_acks acks_recoverSample)
  | unwinding call record started =>
      obtain ⟨rfl, rfl⟩ := Prod.mk.inj (Option.some.inj hblock)
      exact ⟨retains_of_acks (acks_release record), fun _ _ _ h => by cases h⟩
  | caught call started =>
      obtain ⟨rfl, rfl⟩ := Prod.mk.inj (Option.some.inj hblock)
      exact (plain_onSampleCaught started).answers
  | selecting call =>
      obtain ⟨rfl, rfl⟩ := Prod.mk.inj (Option.some.inj hblock)
      exact plain_selectSession.answers
  | admitting call record bufferClass relativeKey =>
      obtain ⟨rfl, rfl⟩ := Prod.mk.inj (Option.some.inj hblock)
      exact (plain_admitData relativeKey).answers
  | writing call record bufferClass relativeKey =>
      obtain ⟨rfl, rfl⟩ := Prod.mk.inj (Option.some.inj hblock)
      exact (plain_applyData relativeKey).answers
  | completing call record bufferClass failure =>
      obtain ⟨rfl, rfl⟩ := Prod.mk.inj (Option.some.inj hblock)
      exact (plain_completeData failure).answers
  | acknowledging sample token ticket =>
      obtain ⟨rfl, rfl⟩ := Prod.mk.inj (Option.some.inj hblock)
      exact answers_claimParameter
  | publishing sample token ticket =>
      obtain ⟨rfl, rfl⟩ := Prod.mk.inj (Option.some.inj hblock)
      exact answers_publishParameter
  | looking call =>
      obtain ⟨rfl, rfl⟩ := Prod.mk.inj (Option.some.inj hblock)
      exact answers_lookSession
  | claiming call record status =>
      obtain ⟨rfl, rfl⟩ := Prod.mk.inj (Option.some.inj hblock)
      exact answers_claimMarker
  | evaluating call record status =>
      obtain ⟨rfl, rfl⟩ := Prod.mk.inj (Option.some.inj hblock)
      exact answers_answerMarker
  | retaining call record result =>
      obtain ⟨rfl, rfl⟩ := Prod.mk.inj (Option.some.inj hblock)
      exact answers_retainResult

/-! ## Whole runs -/

section Runs

variable [DecidableEq Fingerprint] {state final : State Fingerprint} {action : Action}
  {actions : List Action} {laneCapacity ackCapacity : ℕ}

/-- A step is a block of a call, or it gives no answer. -/
theorem step_cases (hstep : step node state action = some final) :
    (∃ call choice shared task, action = .block call choice ∧
      block node state.shared choice (state.tasks call) = some (shared, task) ∧
      final = state.replace call shared task) ∨
    (final.shared.acks = state.shared.acks ∧
      ∀ call, final.tasks call = state.tasks call ∨
        ∃ delivered, final.tasks call = .arrived delivered) := by
  cases action with
  | block call choice =>
      obtain ⟨⟨shared, task⟩, hblock, rfl⟩ := Option.map_eq_some_iff.mp hstep
      exact .inl ⟨call, choice, shared, task, rfl, hblock, rfl⟩
  | deliver call delivered =>
      simp only [step] at hstep
      split at hstep
      · obtain rfl := Option.some.inj hstep
        refine .inr ⟨rfl, fun other => ?_⟩
        by_cases hother : other = call
        · rw [hother, Config.replace_self]
          exact .inr ⟨delivered, rfl⟩
        · rw [Config.replace_of_ne _ _ _ hother]
          exact .inl rfl
      · cases hstep
  | publish sid generation durableBuffers ephemeralBuffers =>
      obtain ⟨shared, hcreate, rfl⟩ := Option.map_eq_some_iff.mp hstep
      refine .inr ⟨?_, fun _ => .inl rfl⟩
      simp only [(creates_of_create hcreate).shared]
  | install sid engine =>
      obtain ⟨shared, hcreate, rfl⟩ := Option.map_eq_some_iff.mp hstep
      refine .inr ⟨?_, fun _ => .inl rfl⟩
      simp only [(creates_of_create hcreate).shared]
  | activate record engine catalogued =>
      obtain ⟨shared, hactivate, rfl⟩ := Option.map_eq_some_iff.mp hstep
      refine .inr ⟨?_, fun _ => .inl rfl⟩
      simp only [Shared.activate] at hactivate
      split at hactivate
      · cases hactivate
      · obtain rfl := Option.some.inj hactivate
        rfl
  | beginClose record =>
      obtain ⟨shared, hbegin, rfl⟩ := Option.map_eq_some_iff.mp hstep
      refine .inr ⟨?_, fun _ => .inl rfl⟩
      simp only [Shared.beginClose] at hbegin
      split at hbegin
      · cases hbegin
      · obtain rfl := Option.some.inj hbegin
        rfl
  | drop record =>
      obtain ⟨shared, hdrop, rfl⟩ := Option.map_eq_some_iff.mp hstep
      refine .inr ⟨?_, fun _ => .inl rfl⟩
      simp only [(drops_of_dropRecord hdrop).shared]
      rfl
  | unmap record =>
      obtain ⟨shared, hunmap, rfl⟩ := Option.map_eq_some_iff.mp hstep
      refine .inr ⟨?_, fun _ => .inl rfl⟩
      simp only [Shared.unmap] at hunmap
      split at hunmap
      · cases hunmap
      · obtain rfl := Option.some.inj hunmap
        rfl
  | closeDispatch record bufferClass =>
      obtain rfl := Option.some.inj hstep
      exact .inr ⟨rfl, fun _ => .inl rfl⟩
  | latch =>
      obtain rfl := Option.some.inj hstep
      exact .inr ⟨rfl, fun _ => .inl rfl⟩
  | deactivate =>
      obtain rfl := Option.some.inj hstep
      exact .inr ⟨rfl, fun _ => .inl rfl⟩

/-- A marker with the token has its answer, which vouches for the lane as it is. -/
def Answered (node : Node Fingerprint) (steady : Prop) (Sent : Delivered → Prop)
    (token : AckToken) (result : AckResultV1) (state : State Fingerprint) : Prop :=
  ∃ call marker record bufferClass,
    state.tasks call = .retaining marker (some record) result ∧ marker.token = token ∧
    MarkerFacts node Sent marker ∧
    Vouched node steady Sent state.shared marker.route record bufferClass

/-- The invariant, and where the answers come from. -/
structure Told (node : Node Fingerprint) (steady : Prop) (Sent : Delivered → Prop)
    (first : State Fingerprint) (actions : List Action) (state : State Fingerprint) : Prop where
  sound : Sound node steady Sent state
  given : ∀ call marker lease result, state.tasks call = .retaining marker lease result →
    result.status = .ok →
    Once (step node) first actions (Answered node steady Sent marker.token result)
  retained : ∀ token result, find state.shared.acks token = some result →
    result.operationKind = .fence → result.status = .ok →
    Once (step node) first actions (Answered node steady Sent token result)

theorem Told.step {first : State Fingerprint} (htold : Told node steady Sent first actions state)
    (hrun : run (step node) first (actions ++ [action]) = some final)
    (hbrings : Brings steady Sent action) (hstep : step node state action = some final) :
    Told node steady Sent first (actions ++ [action]) final := by
  have hsound := htold.sound
  rcases step_cases hstep with ⟨call, choice, shared, task, rfl, hblock, rfl⟩ | ⟨hacks, htasks⟩
  · obtain ⟨hretains, hafter⟩ := block_answers hblock
    refine ⟨hsound.step hbrings hstep, fun other marker lease result hother hok => ?_,
      fun token result hfind hfence hok => ?_⟩
    · by_cases hsame : other = call
      · rw [hsame, Config.replace_self] at hother
        subst hother
        obtain ⟨status, htask⟩ := hafter marker lease result rfl
        rw [htask] at hblock
        have hat := hsound.invariant.task call
        rw [htask] at hat
        obtain ⟨-, record, bufferClass, rfl, hvouched⟩ :=
          answerMarker_vouches hsound.invariant.shared hat (Option.some.inj hblock) hok
        exact once_now hrun ⟨call, marker, record, bufferClass, Config.replace_self .., rfl,
          hat.facts.1, hvouched⟩
      · rw [Config.replace_of_ne _ _ _ hsame] at hother
        exact (htold.given other marker lease result hother hok).later _
    · rcases hretains token result hfind hfence with hbefore | ⟨marker, lease, htask, rfl⟩
      · exact (htold.retained token result hbefore hfence hok).later _
      · exact (htold.given call marker lease result htask hok).later _
  · refine ⟨hsound.step hbrings hstep, fun call marker lease result hcall hok => ?_,
      fun token result hfind hfence hok => ?_⟩
    · rcases htasks call with hsame | ⟨delivered, harrived⟩
      · rw [hsame] at hcall
        exact (htold.given call marker lease result hcall hok).later _
      · cases hcall.symm.trans harrived
    · rw [hacks] at hfind
      exact (htold.retained token result hfind hfence hok).later _

theorem told_run (hbrings : ∀ action ∈ actions, Brings steady Sent action)
    (hrun : run (step node) (start laneCapacity ackCapacity) actions = some state) :
    Told node steady Sent (start laneCapacity ackCapacity) actions state := by
  have hstart : Told node steady Sent (start laneCapacity ackCapacity) []
      (start laneCapacity ackCapacity) := by
    refine ⟨sound_start laneCapacity ackCapacity, fun _ _ _ _ hcall => ?_,
      fun _ _ hfind => ?_⟩
    · cases hcall
    · cases hfind
  refine run_history (fun actions state => (∀ action ∈ actions, Brings steady Sent action) →
    Told node steady Sent (start laneCapacity ackCapacity) actions state) (fun _ => hstart)
    (fun actions state action final hmiddle htold hstep hall => ?_) hrun hbrings
  refine (htold fun other hother => hall other (List.mem_append_left _ hother)).step ?_
    (hall action (List.mem_append_right _ List.mem_cons_self)) hstep
  rw [run_append, hmiddle, Option.bind_some, run_cons, hstep]
  rfl

/-- A sample that the transport delivers in a run. -/
def DeliveredIn (actions : List Action) (delivered : Delivered) : Prop :=
  ∃ call, .deliver call delivered ∈ actions

/-- No read of an engine reports a failure in a run. -/
def ReadsServed (actions : List Action) : Prop :=
  ∀ call choice, .block call choice ∈ actions → choice.readEnd ≠ .failed

theorem brings_of_mem (hmem : action ∈ actions) :
    Brings (ReadsServed actions) (DeliveredIn actions) action := by
  cases action with
  | deliver call delivered => exact ⟨call, hmem⟩
  | block call choice => exact fun hserved => hserved call choice hmem
  | _ => trivial

/-- No observation is applied twice or by two calls, and whatever is applied for a lane was
delivered as data of its session and class, numbered by its publisher. -/
theorem data_applied_once
    (hrun : run (step node) (start laneCapacity ackCapacity) actions = some state) :
    (∀ lane, ((state.shared.applied lane).map Prod.fst).Nodup ∧
      ∀ datum ∈ state.shared.applied lane,
        datum.1 ∈ (state.shared.histories lane).admitted ∧
        Came node (DeliveredIn actions) lane datum) ∧
    (∀ call claim, (state.tasks call).claim = some claim →
      claim.sequence ∉ (state.shared.applied (claim.lane state.shared)).map Prod.fst) ∧
    ∀ first second claim, (state.tasks first).claim = some claim →
      (state.tasks second).claim = some claim → first = second := by
  have hsound := (told_run (fun _ => brings_of_mem) hrun).sound
  have hholds := hsound.invariant.shared
  refine ⟨fun lane => ⟨(hholds.journal lane).nodup, fun datum hdatum => ⟨?_, ?_⟩⟩,
    fun call claim hclaim => ?_, fun first second claim hfirst hsecond => ?_⟩
  · exact (hholds.journal lane).admitted _ (List.mem_map_of_mem hdatum)
  · exact hholds.came lane datum hdatum
  · exact ((hsound.invariant.task call).claim claim hclaim).2
  · by_contra hne
    exact hsound.invariant.compatible first second hne claim hfirst hsecond

end Runs

/-! ## One publisher's datum and its marker -/

def plainNode : Node Unit := ⟨ascii "sitos", true, fun _ => ()⟩

def someUuid : FenceUuid := generateAckToken noUuid

theorem one_ne_zero_sequence : (1 : UInt64) ≠ 0 := by decide

def firstDatum : Delivered where
  sample := ⟨.put, ascii "sitos/buffers/s/durable/k", ascii "zenoh/bytes", [7]⟩
  observations := { lane := .metadata someUuid ⟨1, one_ne_zero_sequence⟩ }

/-- The datum is taken as far as `blocks` blocks. -/
def datumRun (blocks : ℕ) : List Action :=
  [.publish (ascii "s") someUuid true false,
    .activate 0 (some ⟨fun _ => none, fun _ => none, true⟩) true,
    .deliver 0 firstDatum] ++ List.replicate blocks (.block 0 {})

theorem datumRun_applied :
    (run (step plainNode) (start 1 1) (datumRun 6)).map (fun state =>
      state.shared.applied ⟨ascii "s", someUuid, .durable, someUuid⟩) =
        some [(1, firstDatum.sample)] := by
  decide +kernel

theorem data_applied_once_first :
    ∃ state, run (step plainNode) (start 1 1) (datumRun 6) = some state ∧
      Came plainNode (DeliveredIn (datumRun 6)) ⟨ascii "s", someUuid, .durable, someUuid⟩
        (1, firstDatum.sample) := by
  obtain ⟨state, hrun, happlied⟩ := Option.map_eq_some_iff.mp datumRun_applied
  refine ⟨state, hrun, (((data_applied_once hrun).1 _).2 _ ?_).2⟩
  rw [happlied]
  exact List.mem_cons_self

end Sitos.BufferFence
