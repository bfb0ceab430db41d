import Sitos.Client.BufferPublisher
import Sitos.Wire.FenceRoute

/-!
# What a Fence of a buffer publisher comes to

Between two calls a publisher has no Fence pending.  A wait on its new waiter passes over the rounds
that say nothing, and the first other round decides it; a receipt needs a reply of that round, and
every other end of a submitted marker closes the publisher.
-/

namespace Sitos.BufferPublisher

open Sitos.AckClient
open Sitos.AckCodec
open Sitos.AckResult
open Sitos.Bytes
open Sitos.FenceWire
open Sitos.Key
open Sitos.Token

variable {Cause : Type} {binding : Binding}

/-! ## Between two calls -/

/-- A publisher between two calls. -/
structure Ready (publisher : FencePublisher Cause) : Prop where
  idle : publisher.pending = none
  current : publisher.acceptingOperations = true →
    publisher.disconnected = false ∧ publisher.generationMismatch = false
  synced : publisher.syncedAllowed = true
  exhausted : publisher.exhausted = true ↔ publisher.lastSequence = 0xFFFFFFFFFFFFFFFF

theorem ready_start : Ready (FencePublisher.start true : FencePublisher Cause) where
  idle := rfl
  current := fun _ => ⟨rfl, rfl⟩
  synced := rfl
  exhausted := by simp [FencePublisher.start]

/-- A closed publisher that keeps its sequence is between two calls. -/
theorem Ready.closed {publisher next : FencePublisher Cause} (hready : Ready publisher)
    (hidle : next.pending = none) (hclosed : next.acceptingOperations = false)
    (hsynced : next.syncedAllowed = publisher.syncedAllowed)
    (hexhausted : next.exhausted = publisher.exhausted)
    (hlast : next.lastSequence = publisher.lastSequence) : Ready next where
  idle := hidle
  current := by simp [hclosed]
  synced := hsynced.trans hready.synced
  exhausted := by rw [hexhausted, hlast, hready.exhausted]

namespace FencePublisher

variable {publisher : FencePublisher Cause} {sample : Sample}

section Cancel

variable (publisher) (now : ℤ)

@[simp]
theorem cancelPendingWaiter_pending : (publisher.cancelPendingWaiter now).pending = none := by
  cases hpending : publisher.pending with
  | none => simp [cancelPendingWaiter, hpending]
  | some handle =>
      simp only [cancelPendingWaiter, hpending]
      split_ifs <;> rfl

@[simp]
theorem cancelPendingWaiter_acceptingOperations :
    (publisher.cancelPendingWaiter now).acceptingOperations = publisher.acceptingOperations := by
  cases hpending : publisher.pending with
  | none => simp [cancelPendingWaiter, hpending]
  | some handle =>
      simp only [cancelPendingWaiter, hpending]
      split_ifs <;> rfl

@[simp]
theorem cancelPendingWaiter_lastSequence :
    (publisher.cancelPendingWaiter now).lastSequence = publisher.lastSequence := by
  cases hpending : publisher.pending with
  | none => simp [cancelPendingWaiter, hpending]
  | some handle =>
      simp only [cancelPendingWaiter, hpending]
      split_ifs <;> rfl

@[simp]
theorem cancelPendingWaiter_exhausted :
    (publisher.cancelPendingWaiter now).exhausted = publisher.exhausted := by
  cases hpending : publisher.pending with
  | none => simp [cancelPendingWaiter, hpending]
  | some handle =>
      simp only [cancelPendingWaiter, hpending]
      split_ifs <;> rfl

@[simp]
theorem cancelPendingWaiter_syncedAllowed :
    (publisher.cancelPendingWaiter now).syncedAllowed = publisher.syncedAllowed := by
  cases hpending : publisher.pending with
  | none => simp [cancelPendingWaiter, hpending]
  | some handle =>
      simp only [cancelPendingWaiter, hpending]
      split_ifs <;> rfl

@[simp]
theorem disconnect_pending : (publisher.disconnect now).pending = none := by
  simp [disconnect]

@[simp]
theorem disconnect_acceptingOperations :
    (publisher.disconnect now).acceptingOperations = false := by
  simp [disconnect]

@[simp]
theorem disconnect_lastSequence :
    (publisher.disconnect now).lastSequence = publisher.lastSequence := by
  simp [disconnect]

@[simp]
theorem disconnect_exhausted : (publisher.disconnect now).exhausted = publisher.exhausted := by
  simp [disconnect]

@[simp]
theorem disconnect_syncedAllowed :
    (publisher.disconnect now).syncedAllowed = publisher.syncedAllowed := by
  simp [disconnect]

end Cancel

/-- Closing keeps the sequence. -/
theorem ready_disconnect (hready : Ready publisher) (now : ℤ) : Ready (publisher.disconnect now) :=
  hready.closed (by simp) (by simp) (by simp) (by simp) (by simp)

theorem checkGeneration_current (hdisconnected : publisher.disconnected = false)
    (hmismatch : publisher.generationMismatch = false)
    (hsample : sample.generation = binding.transportGeneration) :
    publisher.checkGeneration binding sample = (publisher, true) := by
  simp [checkGeneration, hdisconnected, hmismatch, hsample]

theorem checkGeneration_replaced (hdisconnected : publisher.disconnected = false)
    (hsample : sample.generation ≠ binding.transportGeneration) :
    publisher.checkGeneration binding sample = (publisher.disconnect sample.now, false) := by
  simp [checkGeneration, hdisconnected, hsample]

/-! ## Submitting data -/

section Submit

variable {key payload encodingId : ByteString} {lane : Lane Cause}

/-- How a submission goes; the sequence is used up whatever its `Put` returns. -/
inductive Submits (binding : Binding) (publisher : FencePublisher Cause)
    (key payload encodingId : ByteString) (lane : Lane Cause) :
    FencePublisher Cause → Done Cause Unit → Prop where
  | closed (hclosed : publisher.acceptingOperations = false) :
      Submits binding publisher key payload encodingId lane publisher ⟨[], .error kDisconnected⟩
  | lost (hopen : publisher.acceptingOperations = true)
      (hbefore : lane.before.generation ≠ binding.transportGeneration) :
      Submits binding publisher key payload encodingId lane
        (publisher.disconnect lane.before.now) ⟨[], .error kDisconnected⟩
  | refused (message : ByteString) (hopen : publisher.acceptingOperations = true) :
      Submits binding publisher key payload encodingId lane publisher
        ⟨[], .error (invalidArgument message)⟩
  | put (hopen : publisher.acceptingOperations = true)
      (hbefore : lane.before.generation = binding.transportGeneration)
      (hroom : publisher.lastSequence ≠ 0xFFFFFFFFFFFFFFFF)
      (hafter : lane.after.generation = binding.transportGeneration) :
      Submits binding publisher key payload encodingId lane (publisher.submitted lane.put)
        ⟨[.put key payload encodingId
          ⟨none, some ⟨binding.publisherUuid, publisher.lastSequence + 1⟩⟩], putResult lane.put⟩
  | replaced (hopen : publisher.acceptingOperations = true)
      (hroom : publisher.lastSequence ≠ 0xFFFFFFFFFFFFFFFF)
      (hafter : lane.after.generation ≠ binding.transportGeneration) :
      Submits binding publisher key payload encodingId lane
        { (publisher.submitted lane.put).disconnect lane.after.now with mayHaveSubmitted := true }
        ⟨[.put key payload encodingId
          ⟨none, some ⟨binding.publisherUuid, publisher.lastSequence + 1⟩⟩], .error kDisconnected⟩

section Submitted

variable (put : Option (ErrorInfo Cause))

@[simp]
theorem submitted_pending : (publisher.submitted put).pending = publisher.pending := by
  cases put <;> rfl

@[simp]
theorem submitted_acceptingOperations :
    (publisher.submitted put).acceptingOperations = publisher.acceptingOperations := by
  cases put <;> rfl

@[simp]
theorem submitted_disconnected :
    (publisher.submitted put).disconnected = publisher.disconnected := by
  cases put <;> rfl

@[simp]
theorem submitted_generationMismatch :
    (publisher.submitted put).generationMismatch = publisher.generationMismatch := by
  cases put <;> rfl

@[simp]
theorem submitted_syncedAllowed :
    (publisher.submitted put).syncedAllowed = publisher.syncedAllowed := by
  cases put <;> rfl

@[simp]
theorem submitted_lastSequence :
    (publisher.submitted put).lastSequence = publisher.lastSequence + 1 := by
  cases put <;> rfl

@[simp]
theorem submitted_exhausted :
    (publisher.submitted put).exhausted =
      (publisher.exhausted || publisher.lastSequence + 1 == 0xFFFFFFFFFFFFFFFF) := by
  cases put <;> rfl

end Submitted

theorem submitData_submits (hready : Ready publisher) :
    Submits binding publisher key payload encodingId lane
      (publisher.submitData binding key payload encodingId lane).1
      (publisher.submitData binding key payload encodingId lane).2 := by
  cases hopen : publisher.acceptingOperations with
  | false =>
      simp only [submitData, hopen, Bool.not_false, if_true]
      exact .closed hopen
  | true =>
      obtain ⟨hdisconnected, hmismatch⟩ := hready.current hopen
      by_cases hbefore : lane.before.generation = binding.transportGeneration
      · simp only [submitData, hopen, Bool.not_true, Bool.false_eq_true, if_false,
          checkGeneration_current hdisconnected hmismatch hbefore]
        by_cases hsupported : lane.supported = true
        · simp only [hsupported, Bool.not_true, Bool.false_eq_true, if_false]
          cases hexhausted : publisher.exhausted with
          | true => exact .refused _ hopen
          | false =>
              have hroom : publisher.lastSequence ≠ 0xFFFFFFFFFFFFFFFF := by
                intro hlast
                rw [← hready.exhausted, hexhausted] at hlast
                cases hlast
              simp only [Bool.false_eq_true, if_false]
              by_cases hafter : lane.after.generation = binding.transportGeneration
              · rw [checkGeneration_current (by simpa using hdisconnected)
                  (by simpa using hmismatch) hafter]
                exact .put hopen hbefore hroom hafter
              · rw [checkGeneration_replaced (by simpa using hdisconnected) hafter]
                exact .replaced hopen hroom hafter
        · simp only [hsupported, Bool.not_false, if_true]
          exact .refused _ hopen
      · simp only [submitData, hopen, Bool.not_true, Bool.false_eq_true, if_false,
          checkGeneration_replaced hdisconnected hbefore]
        exact .lost hopen hbefore

theorem toNat_succ {last : UInt64} (hroom : last ≠ 0xFFFFFFFFFFFFFFFF) :
    (last + 1).toNat = last.toNat + 1 := by
  have hne : last.toNat ≠ 0xFFFFFFFFFFFFFFFF := fun h => hroom (UInt64.toNat_inj.mp h)
  have hbound := last.toNat_lt
  rw [UInt64.toNat_add]
  exact Nat.mod_eq_of_lt (by simp only [UInt64.reduceToNat]; omega)

theorem ready_submitted (hready : Ready publisher)
    (hroom : publisher.lastSequence ≠ 0xFFFFFFFFFFFFFFFF) :
    Ready (publisher.submitted lane.put) where
  idle := by simpa using hready.idle
  current := by simpa using hready.current
  synced := by simpa using hready.synced
  exhausted := by
    have hexhausted : publisher.exhausted = false := by
      rw [← Bool.not_eq_true, hready.exhausted]
      exact hroom
    simp [hexhausted]

end Submit

end FencePublisher

open FencePublisher

/-! ## Polling -/

/-- What no part of a wait changes. -/
structure SameLane (publisher next : FencePublisher Cause) : Prop where
  lastSequence : next.lastSequence = publisher.lastSequence
  exhausted : next.exhausted = publisher.exhausted
  syncedAllowed : next.syncedAllowed = publisher.syncedAllowed

theorem SameLane.refl (publisher : FencePublisher Cause) : SameLane publisher publisher :=
  ⟨rfl, rfl, rfl⟩

theorem SameLane.trans {first second third : FencePublisher Cause} (hfirst : SameLane first second)
    (hsecond : SameLane second third) : SameLane first third where
  lastSequence := hsecond.lastSequence.trans hfirst.lastSequence
  exhausted := hsecond.exhausted.trans hfirst.exhausted
  syncedAllowed := hsecond.syncedAllowed.trans hfirst.syncedAllowed

/-- A round that says nothing and leaves time. -/
def WaitRound.Silent (deadline : ℤ) (round : WaitRound Cause) : Prop :=
  round.before < deadline ∧ round.replies = [] ∧ round.after < deadline

/-- The generation was replaced around the publication of the round's result. -/
def WaitRound.replaced (binding : Binding) (round : WaitRound Cause) : Bool :=
  round.sampled != binding.transportGeneration || round.validated != binding.transportGeneration

section Poll

variable {publisher : FencePublisher Cause} {handle : FenceHandle Cause} {queryKey : ByteString}
  {round : WaitRound Cause} {latest : Latest Cause}

@[simp]
theorem terminalResultBefore_fresh (deadline : ℤ) :
    terminalResultBefore .fresh deadline = none := by
  simp [terminalResultBefore, FenceWaiterState.fresh]

theorem ceilMilliseconds_pos {deadline now : ℤ} (hearly : now < deadline) :
    ¬ceilMilliseconds (deadline - now) ≤ 0 := by
  rw [ceilMilliseconds_nonpos]
  omega

theorem ceilMilliseconds_late {deadline now : ℤ} (hlate : deadline ≤ now) :
    ceilMilliseconds (deadline - now) ≤ 0 := by
  rw [ceilMilliseconds_nonpos]
  omega

/-- A round without an observation leaves the publisher alone. -/
theorem afterRound_of_unobserved
    (hunobserved : (deliver queryKey round.replies ⟨none, none⟩).observed = none) :
    publisher.afterRound binding handle queryKey round = publisher := by
  simp only [afterRound, hunobserved, ite_self]

theorem pollPass_late (hfresh : publisher.waiter = .fresh)
    (hlate : handle.deadline ≤ round.before) :
    publisher.pollPass binding handle queryKey latest round =
      (publisher, ⟨[], .inl (.error latest.timeout)⟩) := by
  have hsame : publisher.afterRound binding handle queryKey round = publisher := by
    simp only [afterRound, ceilMilliseconds_late hlate, or_true, if_true]
  simp only [pollPass, asRound, hsame, hfresh, terminalResultBefore_fresh, AckClient.pass,
    ceilMilliseconds_late hlate, if_true]

/-- A round that goes without a reply. -/
theorem pollPass_unanswered (hfresh : publisher.waiter = .fresh)
    (hearly : round.before < handle.deadline) (hreplies : round.replies = []) :
    ∃ events, publisher.pollPass binding handle queryKey latest round =
      (publisher,
        ⟨events,
          if round.after < handle.deadline then .inr (latest.note round.get)
          else .inl (.error (latest.note round.get).timeout)⟩) := by
  have hsame : publisher.afterRound binding handle queryKey round = publisher :=
    afterRound_of_unobserved (by rw [hreplies, deliver])
  simp only [pollPass, asRound, hsame, hfresh, terminalResultBefore_fresh, AckClient.pass,
    ceilMilliseconds_pos hearly, if_true, if_false, hreplies, deliver, afterQuery]
  by_cases hafter : round.after < handle.deadline
  · simp only [ceilMilliseconds_pos hafter, if_false, hafter, if_true]
    exact ⟨_, rfl⟩
  · simp only [ceilMilliseconds_late (not_lt.mp hafter), if_true, hafter, if_false]
    exact ⟨_, rfl⟩

/-- The publisher once the round's result was published on a fresh waiter. -/
theorem observe_fresh (hfresh : publisher.waiter = .fresh)
    (hmismatch : publisher.generationMismatch = false) (through : UInt64) (result : RawAckResult) :
    publisher.observe binding through result round =
      { publisher with
        generationMismatch := round.replaced binding
        acceptingOperations := publisher.acceptingOperations && !round.replaced binding
        waiter :=
          { terminal := true
            reserved := false
            result := some
              (if round.replaced binding then publisher.disconnectedResult through else result)
            completedOnBoundGeneration := !round.replaced binding
            completedAt := some round.completedAt } } := by
  have hpublished : publisher.publishWaiterResult binding through result round.sampled
      round.validated round.completedAt =
      ({ publisher with
          waiter :=
            { terminal := true
              reserved := false
              result := some
                (if round.replaced binding then publisher.disconnectedResult through else result)
              completedOnBoundGeneration := !round.replaced binding
              completedAt := some round.completedAt } }, some (round.replaced binding)) := by
    simp only [publishWaiterResult, hfresh, FenceWaiterState.fresh, Bool.false_eq_true, or_self,
      if_false, hmismatch, Bool.false_or, WaitRound.replaced]
    rfl
  rw [observe, hpublished]
  cases hreplaced : round.replaced binding with
  | false => simp [hmismatch]
  | true => simp [markGenerationMismatch]

theorem deliver_believed {reply : Reply} {result : RawAckResult} (others : List Reply)
    (hbelieved : Believed queryKey reply result) :
    deliver queryKey (reply :: others) ⟨none, none⟩ = ⟨some result, none⟩ := by
  obtain ⟨hkey, hencoding, hdecoded⟩ := hbelieved
  rw [deliver_cons]
  simp [onReply, hkey, hencoding, hdecoded]

theorem deliver_disbelieved {reply : Reply} (others : List Reply)
    (hreject : ∀ result, ¬Believed queryKey reply result) :
    ∃ message, deliver queryKey (reply :: others) ⟨none, none⟩ = ⟨none, some message⟩ := by
  rw [deliver_cons]
  unfold onReply
  split_ifs with hkey hencoding
  · exact ⟨_, rfl⟩
  · exact ⟨_, rfl⟩
  · cases hdecoded : decodeAckResult reply.bytes with
    | error message => exact ⟨_, rfl⟩
    | ok result => exact absurd ⟨not_not.mp hkey, not_not.mp hencoding, hdecoded⟩ (hreject result)

/-- A round with an acknowledgement ends the loop, once its result was published. -/
theorem pollPass_believed {reply : Reply} {others : List Reply} {result : RawAckResult}
    (hfresh : publisher.waiter = .fresh) (hearly : round.before < handle.deadline)
    (hreplies : round.replies = reply :: others) (hbelieved : Believed queryKey reply result) :
    ∃ events returned, publisher.pollPass binding handle queryKey latest round =
      (publisher.observe binding handle.throughSequence result round,
        ⟨events, .inl (.ok returned)⟩) := by
  have hdeliver := deliver_believed others hbelieved
  rw [← hreplies] at hdeliver
  have hafter : publisher.afterRound binding handle queryKey round =
      publisher.observe binding handle.throughSequence result round := by
    simp only [afterRound, hfresh, terminalResultBefore_fresh, Option.isSome_none,
      Bool.false_eq_true, false_or, ceilMilliseconds_pos hearly, if_false, hdeliver]
  simp only [pollPass, asRound, hafter, hfresh, terminalResultBefore_fresh, AckClient.pass, if_true,
    ceilMilliseconds_pos hearly, if_false, hdeliver, afterQuery]
  cases terminalResultBefore
      (publisher.observe binding handle.throughSequence result round).waiter handle.deadline with
  | none => exact ⟨_, result, rfl⟩
  | some published => exact ⟨_, published, rfl⟩

/-- A round with any other reply ends the loop with a protocol error. -/
theorem pollPass_disbelieved {reply : Reply} {others : List Reply}
    (hfresh : publisher.waiter = .fresh) (hearly : round.before < handle.deadline)
    (hreplies : round.replies = reply :: others)
    (hreject : ∀ result, ¬Believed queryKey reply result) :
    ∃ events message, publisher.pollPass binding handle queryKey latest round =
      (publisher, ⟨events, .inl (.error ⟨.error, message, none⟩)⟩) := by
  obtain ⟨message, hdeliver⟩ := deliver_disbelieved others hreject
  rw [← hreplies] at hdeliver
  have hsame : publisher.afterRound binding handle queryKey round = publisher :=
    afterRound_of_unobserved (by rw [hdeliver])
  simp only [pollPass, asRound, hsame, hfresh, terminalResultBefore_fresh, AckClient.pass, if_true,
    ceilMilliseconds_pos hearly, if_false, hdeliver, afterQuery]
  exact ⟨_, message, rfl⟩

end Poll

/-! ## The round that decides a wait -/

/-- The round is the first that is not silent. -/
def Deciding (deadline : ℤ) (rounds : List (WaitRound Cause)) (round : WaitRound Cause) : Prop :=
  ∃ silent rest, rounds = silent ++ round :: rest ∧
    (∀ earlier ∈ silent, earlier.Silent deadline) ∧ ¬round.Silent deadline

/-- The round's query observes an acknowledgement. -/
def WaitRound.Acknowledges (deadline : ℤ) (queryKey : ByteString) (round : WaitRound Cause)
    (result : RawAckResult) : Prop :=
  round.before < deadline ∧
    ∃ reply others, round.replies = reply :: others ∧ Believed queryKey reply result

theorem exists_deciding (deadline : ℤ) (rounds : List (WaitRound Cause)) :
    (∀ round ∈ rounds, round.Silent deadline) ∨ ∃ round, Deciding deadline rounds round := by
  induction rounds with
  | nil => exact .inl (by simp)
  | cons round rounds ih =>
      by_cases hsilent : round.Silent deadline
      · rcases ih with hall | ⟨later, silent, rest, hrounds, hearlier, hlater⟩
        · exact .inl (by simpa using ⟨hsilent, hall⟩)
        · refine .inr ⟨later, round :: silent, rest, by rw [hrounds]; rfl, ?_, hlater⟩
          simpa using ⟨hsilent, hearlier⟩
      · exact .inr ⟨round, [], rounds, rfl, by simp, hsilent⟩

theorem Deciding.unique {deadline : ℤ} {rounds : List (WaitRound Cause)}
    {first second : WaitRound Cause} (hfirst : Deciding deadline rounds first)
    (hsecond : Deciding deadline rounds second) : first = second := by
  induction rounds with
  | nil =>
      obtain ⟨silent, rest, hrounds, -⟩ := hfirst
      simp at hrounds
  | cons round rounds ih =>
      obtain ⟨silent, rest, hrounds, hearlier, hspeaks⟩ := hfirst
      obtain ⟨silent', rest', hrounds', hearlier', hspeaks'⟩ := hsecond
      cases silent with
      | nil =>
          obtain ⟨rfl, -⟩ := List.cons.inj hrounds
          cases silent' with
          | nil => exact (List.cons.inj hrounds').1
          | cons other silent' =>
              obtain ⟨rfl, -⟩ := List.cons.inj hrounds'
              exact absurd (hearlier' _ List.mem_cons_self) hspeaks
      | cons other silent =>
          obtain ⟨rfl, htail⟩ := List.cons.inj hrounds
          cases silent' with
          | nil =>
              obtain ⟨rfl, -⟩ := List.cons.inj hrounds'
              exact absurd (hearlier _ List.mem_cons_self) hspeaks'
          | cons other' silent' =>
              obtain ⟨-, htail'⟩ := List.cons.inj hrounds'
              exact ih
                ⟨silent, rest, htail, fun earlier h => hearlier earlier (.tail _ h), hspeaks⟩
                ⟨silent', rest', htail', fun earlier h => hearlier' earlier (.tail _ h), hspeaks'⟩

section Wait

variable {publisher : FencePublisher Cause} {handle : FenceHandle Cause} {queryKey : ByteString}

/-- The loop passes over the rounds that are silent. -/
theorem pollRounds_silent (hfresh : publisher.waiter = .fresh) (rest : List (WaitRound Cause))
    {silent : List (WaitRound Cause)} (hsilent : ∀ round ∈ silent, round.Silent handle.deadline)
    (latest : Latest Cause) :
    ∃ events later, pollRounds binding handle queryKey (silent ++ rest) publisher latest =
      ((pollRounds binding handle queryKey rest publisher later).1,
        ⟨events ++ (pollRounds binding handle queryKey rest publisher later).2.events,
          (pollRounds binding handle queryKey rest publisher later).2.returned⟩) := by
  induction silent generalizing latest with
  | nil => exact ⟨[], latest, rfl⟩
  | cons round silent ih =>
      obtain ⟨hround, hothers⟩ := List.forall_mem_cons.mp hsilent
      obtain ⟨hearly, hreplies, hafter⟩ := hround
      obtain ⟨here, hpass⟩ := @pollPass_unanswered _ binding publisher handle queryKey round latest
        hfresh hearly hreplies
      rw [if_pos hafter] at hpass
      obtain ⟨events, later, hpoll⟩ := ih hothers (latest.note round.get)
      refine ⟨here ++ events, later, ?_⟩
      simp only [List.cons_append, pollRounds, hpass, hpoll, List.append_assoc]

/-- A wait whose rounds are silent goes on. -/
theorem pollRounds_undecided (hfresh : publisher.waiter = .fresh) {rounds : List (WaitRound Cause)}
    (hsilent : ∀ round ∈ rounds, round.Silent handle.deadline) (latest : Latest Cause) :
    ∃ events, pollRounds binding handle queryKey rounds publisher latest =
      (publisher, ⟨events, none⟩) := by
  obtain ⟨events, later, hpoll⟩ := pollRounds_silent hfresh [] hsilent latest
  rw [List.append_nil] at hpoll
  exact ⟨_, hpoll⟩

theorem pollRounds_of_pass {round : WaitRound Cause} {rest : List (WaitRound Cause)}
    {latest : Latest Cause} {next : FencePublisher Cause} {events : List Event}
    {outcome : Except (Failure Cause) RawAckResult}
    (hpass : publisher.pollPass binding handle queryKey latest round =
      (next, ⟨events, .inl outcome⟩)) :
    pollRounds binding handle queryKey (round :: rest) publisher latest =
      (next, ⟨events, some outcome⟩) := by
  simp only [pollRounds, hpass]

/-- What the first other round makes of it. -/
theorem settle_decided (hfresh : publisher.waiter = .fresh)
    (hmismatch : publisher.generationMismatch = false) {rounds : List (WaitRound Cause)}
    {round : WaitRound Cause} (hdeciding : Deciding handle.deadline rounds round)
    (latest : Latest Cause) (now : ℤ) :
    ∃ next events outcome,
      pollRounds binding handle queryKey rounds publisher latest = (next, ⟨events, some outcome⟩) ∧
      (∀ result, round.Acknowledges handle.deadline queryKey result →
        next = publisher.observe binding handle.throughSequence result round ∧
        next.settle handle.deadline now outcome =
          (next,
            if round.completedAt < handle.deadline then
              .ok (if round.replaced binding then
                publisher.disconnectedResult handle.throughSequence else result)
            else .error kTimeout)) ∧
      ((∀ result, ¬round.Acknowledges handle.deadline queryKey result) →
        next = publisher ∧
          ∃ failure, next.settle handle.deadline now outcome = (next, .error failure)) := by
  obtain ⟨silent, rest, rfl, hsilent, hspeaks⟩ := hdeciding
  obtain ⟨events, later, hpoll⟩ :=
    @pollRounds_silent _ binding _ _ queryKey hfresh (round :: rest) _
    hsilent latest
  have hunsettled : ∀ failure, publisher.settle handle.deadline now (.error failure) =
      (publisher, .error (asError failure)) := by
    intro failure
    rw [settle, hfresh, terminalResultBefore_fresh]
  by_cases hlate : handle.deadline ≤ round.before
  · have hpass := @pollPass_late _ binding _ _ queryKey _ later hfresh hlate
    refine ⟨publisher, _, _, by rw [hpoll, pollRounds_of_pass hpass], fun result hresult => ?_, ?_⟩
    · exact absurd hlate (not_le.mpr hresult.1)
    · exact fun _ => ⟨rfl, _, hunsettled _⟩
  have hearly : round.before < handle.deadline := not_le.mp hlate
  cases hreplies : round.replies with
  | nil =>
      obtain ⟨here, hpass⟩ := @pollPass_unanswered _ binding _ _ queryKey _ later hfresh hearly
        hreplies
      have hafter : ¬round.after < handle.deadline := fun h => hspeaks ⟨hearly, hreplies, h⟩
      rw [if_neg hafter] at hpass
      refine ⟨publisher, _, _, by rw [hpoll, pollRounds_of_pass hpass],
        fun result hresult => ?_, ?_⟩
      · obtain ⟨-, reply, others, hother, -⟩ := hresult
        rw [hreplies] at hother
        cases hother
      · exact fun _ => ⟨rfl, _, hunsettled _⟩
  | cons reply others =>
      by_cases hbelieved : ∃ result, Believed queryKey reply result
      · obtain ⟨result, hbelieved⟩ := hbelieved
        obtain ⟨here, returned, hpass⟩ := @pollPass_believed _ binding _ _ queryKey _ later _ _ _
          hfresh hearly hreplies hbelieved
        refine ⟨publisher.observe binding handle.throughSequence result round, _, _,
          by rw [hpoll, pollRounds_of_pass hpass], fun other hother => ?_, fun hnone => ?_⟩
        · obtain ⟨-, reply', others', hreplies', hbelieved'⟩ := hother
          obtain ⟨rfl, rfl⟩ := List.cons.inj (hreplies.symm.trans hreplies')
          obtain rfl : result = other :=
            Except.ok.inj (hbelieved.2.2.symm.trans hbelieved'.2.2)
          refine ⟨rfl, ?_⟩
          rw [observe_fresh hfresh hmismatch]
          by_cases htime : round.completedAt < handle.deadline
          · simp [settle, terminalResultBefore, htime]
          · simp [settle, terminalResultBefore, htime]
        · exact absurd ⟨hearly, reply, others, hreplies, hbelieved⟩ (hnone result)
      · obtain ⟨here, message, hpass⟩ := @pollPass_disbelieved _ binding _ _ queryKey _ later _ _
          hfresh hearly hreplies (not_exists.mp hbelieved)
        refine ⟨publisher, _, _, by rw [hpoll, pollRounds_of_pass hpass],
          fun other hother => ?_, ?_⟩
        · obtain ⟨-, reply', others', hreplies', hbelieved'⟩ := hother
          obtain ⟨rfl, rfl⟩ := List.cons.inj (hreplies.symm.trans hreplies')
          exact absurd ⟨other, hbelieved'⟩ hbelieved
        · exact fun _ => ⟨rfl, _, hunsettled _⟩

/-- A wait that starts on the bound generation polls. -/
theorem wait_polled {link : WaitLink Cause} (hfresh : publisher.waiter = .fresh)
    (haccepting : publisher.acceptingOperations = true)
    (hmismatch : publisher.generationMismatch = false)
    (hsample : link.sample.generation = binding.transportGeneration)
    (hquery : buildMetaAckKey binding.keyPrefix (formatAckToken handle.token) = some queryKey)
    {polled : FencePublisher Cause × Outcome Cause}
    (hpoll : pollRounds binding handle queryKey link.rounds publisher
      (.start handle.timeoutDiagnostic) = polled) :
    publisher.wait binding handle link =
      match polled.2.returned with
      | none => (polled.1, polled.2.events, none)
      | some outcome =>
          ((polled.1.settle handle.deadline link.settledAt outcome).1.resetPending handle.token,
            polled.2.events, some (polled.1.settle handle.deadline link.settledAt outcome).2) := by
  have hpolled : FencePublisher.pollAcknowledgement binding publisher handle link.rounds =
      polled := by
    simp only [FencePublisher.pollAcknowledgement, hquery, hpoll]
  cases hreturned : polled.2.returned with
  | none =>
      simp [wait, hfresh, terminalResultBefore_fresh, haccepting, hmismatch, hsample, waitPolled,
        hpolled, hreturned]
  | some outcome =>
      simp [wait, hfresh, terminalResultBefore_fresh, haccepting, hmismatch, hsample, waitPolled,
        hpolled, hreturned]

/-- A wait that starts on the bound generation. -/
theorem wait_current {link : WaitLink Cause} (hfresh : publisher.waiter = .fresh)
    (haccepting : publisher.acceptingOperations = true)
    (hmismatch : publisher.generationMismatch = false)
    (hsample : link.sample.generation = binding.transportGeneration)
    (hquery : buildMetaAckKey binding.keyPrefix (formatAckToken handle.token) = some queryKey) :
    ((∀ round ∈ link.rounds, round.Silent handle.deadline) →
      ∃ events, publisher.wait binding handle link = (publisher, events, none)) ∧
    (∀ round, Deciding handle.deadline link.rounds round →
      ∃ next events result,
        publisher.wait binding handle link =
          (next.resetPending handle.token, events, some result) ∧
        (∀ acknowledgement, round.Acknowledges handle.deadline queryKey acknowledgement →
          next = publisher.observe binding handle.throughSequence acknowledgement round ∧
          result =
            if round.completedAt < handle.deadline then
              .ok (if round.replaced binding then
                publisher.disconnectedResult handle.throughSequence else acknowledgement)
            else .error kTimeout) ∧
        ((∀ acknowledgement, ¬round.Acknowledges handle.deadline queryKey acknowledgement) →
          next = publisher ∧ ∃ failure, result = .error failure)) := by
  constructor
  · intro hsilent
    obtain ⟨events, hpoll⟩ := @pollRounds_undecided _ binding _ _ queryKey hfresh _ hsilent
      (.start handle.timeoutDiagnostic)
    exact ⟨events, wait_polled hfresh haccepting hmismatch hsample hquery hpoll⟩
  · intro round hdeciding
    obtain ⟨next, events, outcome, hpoll, hacknowledged, hunacknowledged⟩ :=
      @settle_decided _ binding _ _ queryKey hfresh hmismatch _ _ hdeciding
        (.start handle.timeoutDiagnostic) link.settledAt
    by_cases hany : ∃ acknowledgement, round.Acknowledges handle.deadline queryKey acknowledgement
    · obtain ⟨acknowledgement, hacknowledges⟩ := hany
      have hsettle := (hacknowledged acknowledgement hacknowledges).2
      refine ⟨next, events, _, by
        simp only [wait_polled hfresh haccepting hmismatch hsample hquery hpoll, hsettle]
        rfl, fun other hother => ?_, ?_⟩
      · obtain ⟨hnext, hother⟩ := hacknowledged other hother
        exact ⟨hnext, (Prod.mk.inj (hsettle.symm.trans hother)).2⟩
      · exact fun hnone => absurd hacknowledges (hnone acknowledgement)
    · obtain ⟨hnext, failure, hsettle⟩ := hunacknowledged (not_exists.mp hany)
      refine ⟨next, events, _, by
        simp only [wait_polled hfresh haccepting hmismatch hsample hquery hpoll, hsettle]
        rfl, fun other hother => ?_, ?_⟩
      · exact absurd ⟨other, hother⟩ hany
      · exact fun _ => ⟨hnext, failure, rfl⟩

theorem disconnectedResult_status (publisher : FencePublisher Cause) (through : UInt64) :
    (publisher.disconnectedResult through).status ≠ statusCode .ok := by
  intro hok
  have hstatus : Status.disconnected = Status.ok := (statusCode_eq_iff _ _).mp hok
  cases hstatus

/-- A terminal waiter is left alone. -/
theorem observe_terminal {round : WaitRound Cause} (hterminal : publisher.waiter.terminal = true)
    (through : UInt64) (result : RawAckResult) :
    publisher.observe binding through result round = publisher := by
  simp only [observe, publishWaiterResult, hterminal, true_or, if_true]

theorem pollRounds_terminal (hterminal : publisher.waiter.terminal = true)
    (rounds : List (WaitRound Cause)) (latest : Latest Cause) :
    (pollRounds binding handle queryKey rounds publisher latest).1 = publisher := by
  induction rounds generalizing latest with
  | nil => rfl
  | cons round rounds ih =>
      have hafter : publisher.afterRound binding handle queryKey round = publisher := by
        unfold afterRound
        split_ifs
        · rfl
        · split
          · rfl
          · exact observe_terminal hterminal _ _
      simp only [pollRounds, pollPass, hafter]
      split
      · rfl
      · exact ih _

theorem settle_terminal (hterminal : publisher.waiter.terminal = true) (deadline now : ℤ)
    (outcome : Except (Failure Cause) RawAckResult) :
    (publisher.settle deadline now outcome).1 = publisher ∧
      ∀ result, (publisher.settle deadline now outcome).2 = .ok result →
        publisher.waiter.result = some result := by
  have hbefore : ∀ result, terminalResultBefore publisher.waiter deadline = some result →
      publisher.waiter.result = some result := by
    intro result hresult
    unfold terminalResultBefore at hresult
    split_ifs at hresult
    exact hresult
  cases outcome with
  | ok returned =>
      simp only [settle, hterminal, Bool.not_true, Bool.false_eq_true, if_false]
      cases hresult : terminalResultBefore publisher.waiter deadline with
      | none => exact ⟨rfl, by simp⟩
      | some result =>
          refine ⟨rfl, fun other hother => ?_⟩
          rw [hbefore result hresult, Except.ok.inj hother]
  | error failure =>
      simp only [settle]
      cases hresult : terminalResultBefore publisher.waiter deadline with
      | none => exact ⟨rfl, by simp⟩
      | some result =>
          refine ⟨rfl, fun other hother => ?_⟩
          rw [hbefore result hresult, Except.ok.inj hother]

theorem resetPending_pending {token : AckToken} (hpending : ∀ pending,
    publisher.pending = some pending → pending.token = token) :
    (publisher.resetPending token).pending = none := by
  unfold resetPending
  cases hnow : publisher.pending with
  | none => simp [hnow]
  | some pending => simp [hpending pending hnow]

theorem resetPending_sameLane (token : AckToken) :
    SameLane publisher (publisher.resetPending token) := by
  unfold resetPending
  split_ifs <;> exact ⟨rfl, rfl, rfl⟩

/-- A wait that starts on another generation is told of a disconnection at best. -/
theorem wait_replaced {link : WaitLink Cause} (hfresh : publisher.waiter = .fresh)
    (haccepting : publisher.acceptingOperations = true) (hpending : publisher.pending.isSome)
    (hsample : link.sample.generation ≠ binding.transportGeneration) :
    ∃ next events returned, publisher.wait binding handle link = (next, events, returned) ∧
      SameLane publisher next ∧ next.pending = none ∧
      ∀ acknowledgement, returned = some (.ok acknowledgement) →
        acknowledgement.status ≠ statusCode .ok := by
  let cancelled := publisher.markGenerationMismatch.cancelPendingWaiter link.sample.now
  obtain ⟨pending, hpending⟩ := Option.isSome_iff_exists.mp hpending
  have hcancelled : cancelled =
      { publisher with
        generationMismatch := true
        acceptingOperations := false
        pending := none
        waiter :=
          { FenceWaiterState.fresh with
            result := some (publisher.disconnectedResult pending.throughSequence)
            completedAt := some link.sample.now
            terminal := true } } := by
    simp [cancelled, cancelPendingWaiter, markGenerationMismatch, hpending, hfresh,
      FenceWaiterState.fresh, disconnectedResult]
  have hterminal : cancelled.waiter.terminal = true := by rw [hcancelled]
  have hresult : ∀ result, cancelled.waiter.result = some result →
      result.status ≠ statusCode .ok := by
    intro result hresult
    rw [hcancelled] at hresult
    obtain rfl := Option.some.inj hresult
    exact disconnectedResult_status _ _
  have hlane : SameLane publisher cancelled := by
    rw [hcancelled]
    exact ⟨rfl, rfl, rfl⟩
  have hidle : cancelled.pending = none := by rw [hcancelled]
  have hstale : (!publisher.generationMismatch &&
      link.sample.generation == binding.transportGeneration) = false := by
    simp [hsample]
  have hkept : (FencePublisher.pollAcknowledgement binding cancelled handle link.rounds).1 =
      cancelled := by
    unfold FencePublisher.pollAcknowledgement
    split
    · rfl
    · exact pollRounds_terminal hterminal _ _
  have hwait : publisher.wait binding handle link = cancelled.waitPolled binding handle link := by
    simp only [wait, hfresh, terminalResultBefore_fresh, haccepting, Bool.not_true,
      Bool.false_eq_true, if_false, hstale]
    rfl
  rw [hwait]
  simp only [waitPolled, hkept]
  cases (FencePublisher.pollAcknowledgement binding cancelled handle link.rounds).2.returned with
  | none => exact ⟨_, _, _, rfl, hlane, hidle, by simp⟩
  | some outcome =>
      obtain ⟨hsame, hok⟩ := settle_terminal hterminal handle.deadline link.settledAt outcome
      refine ⟨_, _, _, rfl, ?_, ?_, ?_⟩
      · rw [hsame]
        exact hlane.trans (resetPending_sameLane _)
      · rw [hsame]
        apply resetPending_pending
        intro pending hpending
        rw [hidle] at hpending
        cases hpending
      · intro acknowledgement hacknowledgement
        exact hresult _ (hok _ (Option.some.inj hacknowledgement))

end Wait

/-! ## A Fence -/

section Fence

variable {publisher : FencePublisher Cause} {durability : FenceDurability} {timeout : ℤ}
  {link : FenceLink Cause}

/-- The marker of the Fence gets submitted, under this key. -/
structure Begins (binding : Binding) (publisher : FencePublisher Cause)
    (durability : FenceDurability) (timeout : ℤ) (link : FenceLink Cause) (key : ByteString) :
    Prop where
  accepting : publisher.acceptingOperations = true
  known : durability = kApplied ∨ durability = kSynced
  allowed : ¬(durability = kSynced ∧ binding.bufferClass = .ephemeral)
  positive : 0 < timeout
  current : link.lane.before.generation = binding.transportGeneration
  supported : link.lane.supported = true
  key : buildBufferFenceMarkerKey binding.keyPrefix binding.sid binding.receiverGeneration
    binding.bufferClass binding.publisherUuid (toAckDurability durability)
    publisher.lastSequence = some key

def FenceLink.token (link : FenceLink Cause) : AckToken := generateAckToken link.random

def FenceLink.deadline (timeout : ℤ) (link : FenceLink Cause) : ℤ :=
  saturatingDeadlineAt link.started timeout

/-- The handle of a Fence whose marker is submitted. -/
def FenceLink.handle (publisher : FencePublisher Cause) (timeout : ℤ) (link : FenceLink Cause) :
    FenceHandle Cause :=
  { token := link.token
    throughSequence := publisher.lastSequence
    deadline := link.deadline timeout
    timeoutDiagnostic :=
      publisher.firstSubmissionError <|> link.lane.put.map ErrorInfo.sanitized }

def FenceLink.marker (link : FenceLink Cause) (key : ByteString) : Sent :=
  .put key kFenceMarker kSitosV1Fence ⟨some link.token, none⟩

/-- The acknowledgement that a receipt rests on: the first round that is not silent delivers it in
time, on the bound generation before and after it was published. -/
def Acknowledged (binding : Binding) (durability : FenceDurability) (timeout : ℤ)
    (link : FenceLink Cause) (through : UInt64) : Prop :=
  ∃ queryKey round acknowledgement,
    buildMetaAckKey binding.keyPrefix (formatAckToken link.token) = some queryKey ∧
      Deciding (link.deadline timeout) link.wait.rounds round ∧
      round.Acknowledges (link.deadline timeout) queryKey acknowledgement ∧
      round.completedAt < link.deadline timeout ∧
      round.sampled = binding.transportGeneration ∧
      round.validated = binding.transportGeneration ∧
      acknowledgement.operationKind = kindCode .fence ∧
      acknowledgement.status = statusCode .ok ∧
      acknowledgement.durability = durabilityCode (toAckDurability durability) ∧
      acknowledgement.throughSequence = through

/-- What a Fence comes to. -/
inductive Fences (binding : Binding) (publisher : FencePublisher Cause)
    (durability : FenceDurability) (timeout : ℤ) (link : FenceLink Cause) :
    FencePublisher Cause → Fenced Cause → Prop where
  | closed (hclosed : publisher.acceptingOperations = false) :
      Fences binding publisher durability timeout link publisher
        ⟨[], some (.error kDisconnected)⟩
  | rejected (next : FencePublisher Cause) (message : ByteString)
      (hopen : publisher.acceptingOperations = true)
      (hnext : ∃ last, next = publisher.setDurability last) :
      Fences binding publisher durability timeout link next
        ⟨[], some (.error (invalidArgument message))⟩
  | lost (next : FencePublisher Cause) (hopen : publisher.acceptingOperations = true)
      (hreplaced : link.lane.before.generation ≠ binding.transportGeneration)
      (hlane : SameLane publisher next) (hidle : next.pending = none)
      (hclosed : next.acceptingOperations = false) :
      Fences binding publisher durability timeout link next ⟨[], some (.error kDisconnected)⟩
  | ended (next : FencePublisher Cause) (key : ByteString) (events : List AckClient.Event)
      (failure : PublisherError Cause)
      (hbegins : Begins binding publisher durability timeout link key)
      (hlane : SameLane publisher next) (hidle : next.pending = none)
      (hclosed : next.acceptingOperations = false) :
      Fences binding publisher durability timeout link next
        ⟨link.marker key :: events.map .polled, some (.error failure)⟩
  | receipted (next : FencePublisher Cause) (key : ByteString) (events : List AckClient.Event)
      (hbegins : Begins binding publisher durability timeout link key)
      (hafter : link.lane.after.generation = binding.transportGeneration)
      (hsample : link.wait.sample.generation = binding.transportGeneration)
      (hacknowledged : Acknowledged binding durability timeout link publisher.lastSequence)
      (hlane : SameLane publisher next) (hready : Ready next)
      (haccepting : next.acceptingOperations = true)
      (hclean : next.firstSubmissionError = none) :
      Fences binding publisher durability timeout link next
        ⟨link.marker key :: events.map .polled, some (.ok ⟨publisher.lastSequence, durability⟩)⟩
  | waiting (next : FencePublisher Cause) (key : ByteString) (events : List AckClient.Event)
      (hbegins : Begins binding publisher durability timeout link key) :
      Fences binding publisher durability timeout link next
        ⟨link.marker key :: events.map .polled, none⟩

/-- A valid prefix has a place for the acknowledgement of every token. -/
theorem exists_queryKey {keyPrefix : ByteString} (hpre : isValidPrefix keyPrefix = true)
    (token : AckToken) : ∃ queryKey, buildMetaAckKey keyPrefix (formatAckToken token) =
      some queryKey := by
  have hvalid : isValidAckUuid (formatAckToken token) = true := by
    rw [isValidAckUuid, isValidId, Bool.and_eq_true]
    refine ⟨?_, all_isValidIdChar_formatFrom 0 token.bytes⟩
    cases hformat : formatAckToken token with
    | nil => simpa [hformat] using length_formatAckToken token
    | cons c text => rfl
  simp [buildMetaAckKey, hpre, hvalid]

theorem Begins.validPrefix {key : ByteString}
    (hbegins : Begins binding publisher durability timeout link key) :
    isValidPrefix binding.keyPrefix = true := by
  have hkey := hbegins.key
  unfold buildBufferFenceMarkerKey at hkey
  split_ifs at hkey with hinvalid
  simpa using (not_or.mp hinvalid).1

theorem ready_setDurability (hready : Ready publisher) (durability : AckDurability) :
    Ready (publisher.setDurability durability) :=
  ⟨hready.idle, hready.current, hready.synced, hready.exhausted⟩

theorem sameLane_disconnect (publisher : FencePublisher Cause) (now : ℤ) :
    SameLane publisher (publisher.disconnect now) :=
  ⟨by simp, by simp, by simp⟩

/-- What closing leaves of a publisher. -/
theorem close_spec (publisher : FencePublisher Cause) (now : ℤ) :
    SameLane publisher (publisher.close now) ∧ (publisher.close now).pending = none ∧
      (publisher.close now).acceptingOperations = false :=
  ⟨⟨by simp [close], by simp [close], by simp [close]⟩, by simp [close], by simp [close]⟩

/-- The publisher that lost its generation while it put the marker. -/
def lostMarker (publisher : FencePublisher Cause) (handle : FenceHandle Cause)
    (lane : Lane Cause) : FencePublisher Cause :=
  { (publisher.marked handle lane.put).disconnect lane.after.now with mayHaveSubmitted := true }

/-- A Fence whose marker is submitted. -/
theorem beginFence_marked {key : ByteString} (hready : Ready publisher)
    (haccepting : publisher.acceptingOperations = true) (hpositive : 0 < timeout)
    (hcurrent : link.lane.before.generation = binding.transportGeneration)
    (hsupported : link.lane.supported = true)
    (hkey : buildBufferFenceMarkerKey binding.keyPrefix binding.sid binding.receiverGeneration
      binding.bufferClass binding.publisherUuid publisher.durability publisher.lastSequence =
      some key) :
    publisher.beginFence binding timeout link.random link.started link.lane =
      if link.lane.after.generation = binding.transportGeneration then
        (publisher.marked (link.handle publisher timeout) link.lane.put,
          ⟨[link.marker key], .ok (link.handle publisher timeout)⟩)
      else
        (lostMarker publisher (link.handle publisher timeout) link.lane,
          ⟨[link.marker key], .error kDisconnected⟩) := by
  obtain ⟨hdisconnected, hmismatch⟩ := hready.current haccepting
  have hbarrier : ¬(publisher.durability = .synced ∧ (!publisher.syncedAllowed) = true) := by
    simp [hready.synced]
  simp only [beginFence, not_le.mpr hpositive, if_false, haccepting, Bool.not_true,
    Bool.false_eq_true, checkGeneration_current hdisconnected hmismatch hcurrent, hsupported,
    hbarrier, hready.idle, Option.isSome_none, hkey]
  have hhandle : (⟨generateAckToken link.random, publisher.lastSequence,
      saturatingDeadlineAt link.started timeout,
      publisher.firstSubmissionError <|> link.lane.put.map ErrorInfo.sanitized⟩ :
        FenceHandle Cause) = link.handle publisher timeout := rfl
  simp only [hhandle]
  have hmarkedConnected :
      (publisher.marked (link.handle publisher timeout) link.lane.put).disconnected = false :=
    hdisconnected
  have hmarkedCurrent :
      (publisher.marked (link.handle publisher timeout) link.lane.put).generationMismatch = false :=
    hmismatch
  by_cases hafter : link.lane.after.generation = binding.transportGeneration
  · rw [checkGeneration_current hmarkedConnected hmarkedCurrent hafter, if_pos hafter]
    rfl
  · rw [checkGeneration_replaced hmarkedConnected hafter, if_neg hafter]
    have hstale : terminalResultPublishedOnBoundGenerationBefore
        ((publisher.marked (link.handle publisher timeout) link.lane.put).disconnect
          link.lane.after.now).waiter (saturatingDeadlineAt link.started timeout) = false := by
      simp [disconnect, cancelPendingWaiter, marked, FenceWaiterState.fresh,
        terminalResultPublishedOnBoundGenerationBefore]
    simp only [hstale, Bool.false_eq_true, if_false]
    rfl

/-- A Fence that gets this far has nothing but its marker and its wait to do. -/
theorem fence_begun {key : ByteString} (hready : Ready publisher)
    (hbegins : Begins binding publisher durability timeout link key)
    (hafter : link.lane.after.generation = binding.transportGeneration) :
    let marked := (publisher.setDurability (toAckDurability durability)).marked
      (link.handle publisher timeout) link.lane.put
    fence binding publisher durability timeout link =
      conclude durability publisher.lastSequence link.closedAt [link.marker key]
        (marked.wait binding (link.handle publisher timeout) link.wait) := by
  have hbegin := @beginFence_marked _ binding
    (publisher.setDurability (toAckDurability durability)) timeout link key
    (ready_setDurability hready _) hbegins.accepting hbegins.positive hbegins.current
    hbegins.supported hbegins.key
  rw [if_pos hafter] at hbegin
  have hknown : ¬(durability ≠ kApplied ∧ durability ≠ kSynced) := by
    rw [not_and_or, not_not, not_not]
    exact hbegins.known
  simp only [fence, hbegins.accepting, Bool.not_true, Bool.false_eq_true, if_false, hknown,
    hbegins.allowed, hbegin]
  rfl

theorem judgeAcknowledgement_eq_ok_iff {through : UInt64} {acknowledgement : RawAckResult}
    {receipt : FenceReceipt} :
    (judgeAcknowledgement durability through acknowledgement :
      Except (PublisherError Cause) FenceReceipt) = .ok receipt ↔
      acknowledgement.operationKind = kindCode .fence ∧
        acknowledgement.status = statusCode .ok ∧
        acknowledgement.durability = durabilityCode (toAckDurability durability) ∧
        acknowledgement.throughSequence = through ∧ receipt = ⟨through, durability⟩ := by
  unfold judgeAcknowledgement
  split_ifs with hforeign hfailed
  · simp only [false_iff]
    rintro ⟨hkind, -, hdurability, hthrough, -⟩
    rcases hforeign with h | h | h
    · exact h hkind
    · exact h hdurability
    · exact h hthrough
  · simp only [false_iff]
    exact fun h => hfailed h.2.1
  · simp only [not_or, not_not] at hforeign
    obtain ⟨hkind, hdurability, hthrough⟩ := hforeign
    rw [Except.ok.injEq, hthrough]
    constructor
    · rintro rfl
      exact ⟨hkind, not_not.mp hfailed, hdurability, rfl, rfl⟩
    · rintro ⟨-, -, -, -, rfl⟩
      rfl

theorem sameLane_marked (put : Option (ErrorInfo Cause)) (handle : FenceHandle Cause) :
    SameLane publisher (publisher.marked handle put) :=
  ⟨rfl, rfl, rfl⟩

/-- A wait that ends without a receipt closes the publisher. -/
theorem fences_of_ended {key : ByteString} {next : FencePublisher Cause} {events : List Event}
    {returned : Except (PublisherError Cause) RawAckResult}
    (hbegins : Begins binding publisher durability timeout link key)
    (hlane : SameLane publisher next)
    (hunreceipted : ∀ acknowledgement receipt, returned = .ok acknowledgement →
      (judgeAcknowledgement durability publisher.lastSequence acknowledgement :
        Except (PublisherError Cause) FenceReceipt) ≠ .ok receipt) :
    Fences binding publisher durability timeout link
      (conclude durability publisher.lastSequence link.closedAt [link.marker key]
        (next, events, some returned)).1
      (conclude durability publisher.lastSequence link.closedAt [link.marker key]
        (next, events, some returned)).2 := by
  obtain ⟨hkept, hidle, hclosed⟩ := close_spec next link.closedAt
  cases returned with
  | error failure =>
      exact .ended _ key events failure hbegins (hlane.trans hkept) hidle hclosed
  | ok acknowledgement =>
      cases hjudged : (judgeAcknowledgement durability publisher.lastSequence acknowledgement :
          Except (PublisherError Cause) FenceReceipt) with
      | ok receipt => exact absurd hjudged (hunreceipted acknowledgement receipt rfl)
      | error failure =>
          have hconclude : conclude durability publisher.lastSequence link.closedAt
              [link.marker key] (next, events, some (.ok acknowledgement)) =
              (next.close link.closedAt,
                ⟨link.marker key :: events.map .polled, some (.error failure)⟩) := by
            simp only [conclude, hjudged, Except.isOk, Except.toBool, Bool.false_eq_true, if_false]
            rfl
          rw [hconclude]
          exact .ended _ key events failure hbegins (hlane.trans hkept) hidle hclosed

/-- The publisher that a receipt leaves. -/
theorem ready_observed {round : WaitRound Cause} {key : ByteString} (hready : Ready publisher)
    (hbegins : Begins binding publisher durability timeout link key)
    (hreplaced : round.replaced binding = false) (acknowledgement : RawAckResult) :
    let marked := (publisher.setDurability (toAckDurability durability)).marked
      (link.handle publisher timeout) link.lane.put
    let next := (marked.observe binding publisher.lastSequence acknowledgement round).resetPending
      (link.handle publisher timeout).token
    SameLane publisher next ∧ Ready next ∧ next.acceptingOperations = true ∧
      next.firstSubmissionError = none := by
  intro marked next
  obtain ⟨hdisconnected, hmismatch⟩ := hready.current hbegins.accepting
  have hobserved : marked.observe binding publisher.lastSequence acknowledgement round =
      { marked with
        waiter :=
          { terminal := true
            reserved := false
            result := some acknowledgement
            completedOnBoundGeneration := true
            completedAt := some round.completedAt } } := by
    have hfresh : marked.waiter = .fresh := rfl
    have hcurrent : marked.generationMismatch = false := hmismatch
    have haccepting : marked.acceptingOperations = true := hbegins.accepting
    rw [observe_fresh hfresh hcurrent, hreplaced]
    simp only [haccepting, hcurrent, Bool.not_false, Bool.and_true, Bool.false_eq_true, if_false]
  have hnext : next =
      { marked with
        pending := none
        waiter :=
          { terminal := true
            reserved := false
            result := some acknowledgement
            completedOnBoundGeneration := true
            completedAt := some round.completedAt } } := by
    simp only [next, hobserved, resetPending]
    rw [if_pos]
    exact beq_self_eq_true _
  rw [hnext]
  exact ⟨⟨rfl, rfl, rfl⟩,
    ⟨rfl, fun _ => ⟨hdisconnected, hmismatch⟩, hready.synced, hready.exhausted⟩,
    hbegins.accepting, rfl⟩

theorem replaced_eq_false_iff {round : WaitRound Cause} :
    round.replaced binding = false ↔
      round.sampled = binding.transportGeneration ∧
        round.validated = binding.transportGeneration := by
  simp [WaitRound.replaced]

/-- A Fence whose marker was put on the bound generation. -/
theorem fences_of_begun {key : ByteString} (hready : Ready publisher)
    (hbegins : Begins binding publisher durability timeout link key)
    (hafter : link.lane.after.generation = binding.transportGeneration) :
    Fences binding publisher durability timeout link
      (fence binding publisher durability timeout link).1
      (fence binding publisher durability timeout link).2 := by
  obtain ⟨-, hmismatch⟩ := hready.current hbegins.accepting
  obtain ⟨queryKey, hquery⟩ := exists_queryKey hbegins.validPrefix
    (link.handle publisher timeout).token
  rw [fence_begun hready hbegins hafter]
  let marked := (publisher.setDurability (toAckDurability durability)).marked
    (link.handle publisher timeout) link.lane.put
  change Fences binding publisher durability timeout link
    (conclude durability publisher.lastSequence link.closedAt [link.marker key]
      (marked.wait binding (link.handle publisher timeout) link.wait)).1
    (conclude durability publisher.lastSequence link.closedAt [link.marker key]
      (marked.wait binding (link.handle publisher timeout) link.wait)).2
  have hfresh : marked.waiter = .fresh := rfl
  have haccepting : marked.acceptingOperations = true := hbegins.accepting
  have hlane : SameLane publisher marked := ⟨rfl, rfl, rfl⟩
  by_cases hsample : link.wait.sample.generation = binding.transportGeneration
  · obtain ⟨hundecided, hdecided⟩ := @wait_current _ binding marked (link.handle publisher timeout)
      queryKey link.wait hfresh haccepting hmismatch hsample hquery
    rcases exists_deciding (link.handle publisher timeout).deadline link.wait.rounds with
      hsilent | ⟨round, hdeciding⟩
    · obtain ⟨events, hwait⟩ := hundecided hsilent
      rw [hwait]
      exact .waiting marked key events hbegins
    · obtain ⟨next, events, returned, hwait, hacknowledged, hunacknowledged⟩ :=
        hdecided round hdeciding
      rw [hwait]
      by_cases hany : ∃ acknowledgement,
          round.Acknowledges (link.handle publisher timeout).deadline queryKey acknowledgement
      · obtain ⟨acknowledgement, hacknowledges⟩ := hany
        obtain ⟨rfl, rfl⟩ := hacknowledged acknowledgement hacknowledges
        by_cases hreceipted : round.completedAt < (link.handle publisher timeout).deadline ∧
            round.replaced binding = false ∧ ∃ receipt,
              (judgeAcknowledgement durability publisher.lastSequence acknowledgement :
                Except (PublisherError Cause) FenceReceipt) = .ok receipt
        · obtain ⟨htime, hreplaced, receipt, hjudged⟩ := hreceipted
          obtain ⟨hkept, hnext, hopen, hclean⟩ :=
            @ready_observed _ binding _ _ _ _ round _ hready hbegins hreplaced acknowledgement
          obtain ⟨hkind, hok, hdurability, hthrough, rfl⟩ :=
            judgeAcknowledgement_eq_ok_iff.mp hjudged
          obtain ⟨hsampled, hvalidated⟩ := replaced_eq_false_iff.mp hreplaced
          simp only [htime, if_true, hreplaced, Bool.false_eq_true, if_false, conclude, hjudged]
          exact .receipted _ key events hbegins hafter hsample
            ⟨queryKey, round, acknowledgement, hquery, hdeciding, hacknowledges, htime, hsampled,
              hvalidated, hkind, hok, hdurability, hthrough⟩ hkept hnext hopen hclean
        · refine fences_of_ended hbegins ?_ fun other receipt hother hjudged => hreceipted ?_
          · refine SameLane.trans ?_ (resetPending_sameLane _)
            rw [observe_fresh hfresh hmismatch]
            exact ⟨rfl, rfl, rfl⟩
          · split_ifs at hother with htime hreplaced
            · obtain rfl := Except.ok.inj hother
              obtain ⟨-, hok, -⟩ := judgeAcknowledgement_eq_ok_iff.mp hjudged
              exact absurd hok (disconnectedResult_status _ _)
            · obtain rfl := Except.ok.inj hother
              exact ⟨htime, by simpa using hreplaced, receipt, hjudged⟩
      · obtain ⟨rfl, failure, rfl⟩ := hunacknowledged (not_exists.mp hany)
        refine fences_of_ended hbegins (hlane.trans (resetPending_sameLane _)) ?_
        intro other receipt hother
        cases hother
  · obtain ⟨next, events, returned, hwait, hkept, -, hfailed⟩ := @wait_replaced _ binding marked
      (link.handle publisher timeout) link.wait hfresh haccepting rfl hsample
    rw [hwait]
    cases returned with
    | none => exact .waiting next key events hbegins
    | some returned =>
        refine fences_of_ended hbegins (hlane.trans hkept) fun other receipt hother hjudged => ?_
        obtain ⟨-, hok, -⟩ := judgeAcknowledgement_eq_ok_iff.mp hjudged
        exact hfailed other (by rw [hother]) hok

/-- A publisher whose Fence cannot submit its marker. -/
theorem beginFence_refused (hready : Ready publisher)
    (hopen : publisher.acceptingOperations = true)
    (hunbegun : ¬(0 < timeout ∧ link.lane.before.generation = binding.transportGeneration ∧
      link.lane.supported = true ∧
      ∃ key, buildBufferFenceMarkerKey binding.keyPrefix binding.sid binding.receiverGeneration
        binding.bufferClass binding.publisherUuid publisher.durability publisher.lastSequence =
        some key)) :
    (∃ message, publisher.beginFence binding timeout link.random link.started link.lane =
      (publisher, ⟨[], .error (invalidArgument message)⟩)) ∨
    link.lane.before.generation ≠ binding.transportGeneration ∧
      publisher.beginFence binding timeout link.random link.started link.lane =
        (publisher.disconnect link.lane.before.now, ⟨[], .error kDisconnected⟩) := by
  obtain ⟨hdisconnected, hmismatch⟩ := hready.current hopen
  have hbarrier : ¬(publisher.durability = .synced ∧ (!publisher.syncedAllowed) = true) := by
    simp [hready.synced]
  by_cases hpositive : timeout ≤ 0
  · left
    simp only [beginFence, hpositive, if_true, hopen, Bool.not_true, Bool.false_eq_true, if_false]
    exact ⟨_, rfl⟩
  by_cases hcurrent : link.lane.before.generation = binding.transportGeneration
  · left
    simp only [beginFence, hpositive, if_false, hopen, Bool.not_true, Bool.false_eq_true,
      checkGeneration_current hdisconnected hmismatch hcurrent, hbarrier, hready.idle,
      Option.isSome_none]
    by_cases hsupported : link.lane.supported = true
    · cases hkey : buildBufferFenceMarkerKey binding.keyPrefix binding.sid
          binding.receiverGeneration binding.bufferClass binding.publisherUuid publisher.durability
          publisher.lastSequence with
      | none =>
          simp only [hsupported, Bool.not_true, Bool.false_eq_true, if_false]
          exact ⟨_, rfl⟩
      | some key => exact absurd ⟨not_le.mp hpositive, hcurrent, hsupported, key, hkey⟩ hunbegun
    · simp only [hsupported, Bool.not_false, if_true]
      exact ⟨_, rfl⟩
  · right
    simp only [beginFence, hpositive, if_false, hopen, Bool.not_true, Bool.false_eq_true,
      checkGeneration_replaced hdisconnected hcurrent]
    exact ⟨hcurrent, trivial⟩

/-- Everything that a Fence can come to. -/
theorem fences (hready : Ready publisher) :
    Fences binding publisher durability timeout link
      (fence binding publisher durability timeout link).1
      (fence binding publisher durability timeout link).2 := by
  by_cases hbegins : ∃ key, Begins binding publisher durability timeout link key
  · obtain ⟨key, hbegins⟩ := hbegins
    by_cases hafter : link.lane.after.generation = binding.transportGeneration
    · exact fences_of_begun hready hbegins hafter
    · have hbegin := @beginFence_marked _ binding
        (publisher.setDurability (toAckDurability durability)) timeout link key
        (ready_setDurability hready _) hbegins.accepting hbegins.positive hbegins.current
        hbegins.supported hbegins.key
      rw [if_neg hafter] at hbegin
      have hknown : ¬(durability ≠ kApplied ∧ durability ≠ kSynced) := by
        rw [not_and_or, not_not, not_not]
        exact hbegins.known
      have hfence : fence binding publisher durability timeout link =
          (lostMarker (publisher.setDurability (toAckDurability durability))
            (link.handle publisher timeout) link.lane,
            ⟨[link.marker key], some (.error kDisconnected)⟩) := by
        simp only [fence, hbegins.accepting, Bool.not_true, Bool.false_eq_true, if_false, hknown,
          hbegins.allowed, hbegin]
        rfl
      rw [hfence]
      refine .ended _ key [] kDisconnected hbegins ⟨?_, ?_, ?_⟩ ?_ ?_
      · exact disconnect_lastSequence _ _
      · exact disconnect_exhausted _ _
      · exact disconnect_syncedAllowed _ _
      · exact disconnect_pending _ _
      · exact disconnect_acceptingOperations _ _
  · cases hopen : publisher.acceptingOperations with
    | false =>
        simp only [fence, hopen, Bool.not_false, if_true]
        exact .closed hopen
    | true =>
        unfold fence
        rw [if_neg (by simp [hopen])]
        split_ifs with hunknown hforbidden
        · exact .rejected _ _ hopen ⟨publisher.durability, rfl⟩
        · exact .rejected _ _ hopen ⟨publisher.durability, rfl⟩
        have hknown : durability = kApplied ∨ durability = kSynced := by
          rwa [not_and_or, not_not, not_not] at hunknown
        rcases @beginFence_refused _ binding
            (publisher.setDurability (toAckDurability durability)) timeout link
            (ready_setDurability hready _) hopen
            (fun h => hbegins ⟨h.2.2.2.choose,
              hopen, hknown, hforbidden, h.1, h.2.1, h.2.2.1, h.2.2.2.choose_spec⟩) with
          ⟨message, hrefused⟩ | ⟨hreplaced, hlost⟩
        · simp only [hrefused]
          exact .rejected _ message hopen ⟨_, rfl⟩
        · simp only [hlost]
          exact .lost _ hopen hreplaced
            ⟨disconnect_lastSequence _ _, disconnect_exhausted _ _, disconnect_syncedAllowed _ _⟩
            (disconnect_pending _ _) (disconnect_acceptingOperations _ _)

theorem fence_of_acknowledged {key : ByteString} (hready : Ready publisher)
    (hbegins : Begins binding publisher durability timeout link key)
    (hafter : link.lane.after.generation = binding.transportGeneration)
    (hsample : link.wait.sample.generation = binding.transportGeneration)
    (hacknowledged : Acknowledged binding durability timeout link publisher.lastSequence) :
    (fence binding publisher durability timeout link).2.returned =
      some (.ok ⟨publisher.lastSequence, durability⟩) := by
  obtain ⟨-, hmismatch⟩ := hready.current hbegins.accepting
  obtain ⟨queryKey, round, acknowledgement, hquery, hdeciding, hacknowledges, htime, hsampled,
    hvalidated, hkind, hok, hdurability, hthrough⟩ := hacknowledged
  let marked := (publisher.setDurability (toAckDurability durability)).marked
    (link.handle publisher timeout) link.lane.put
  have haccepting : marked.acceptingOperations = true := hbegins.accepting
  obtain ⟨-, hdecided⟩ := @wait_current _ binding marked (link.handle publisher timeout) queryKey
    link.wait rfl haccepting hmismatch hsample hquery
  obtain ⟨next, events, returned, hwait, hanswer, -⟩ := hdecided round hdeciding
  obtain ⟨-, rfl⟩ := hanswer acknowledgement hacknowledges
  have hreplaced : round.replaced binding = false :=
    replaced_eq_false_iff.mpr ⟨hsampled, hvalidated⟩
  have hjudged : (judgeAcknowledgement durability publisher.lastSequence acknowledgement :
      Except (PublisherError Cause) FenceReceipt) = .ok ⟨publisher.lastSequence, durability⟩ :=
    judgeAcknowledgement_eq_ok_iff.mpr ⟨hkind, hok, hdurability, hthrough, rfl⟩
  rw [fence_begun hready hbegins hafter]
  change (conclude durability publisher.lastSequence link.closedAt [link.marker key]
    (marked.wait binding (link.handle publisher timeout) link.wait)).2.returned = _
  have hintime : round.completedAt < (link.handle publisher timeout).deadline := htime
  rw [hwait]
  simp only [hintime, if_true, hreplaced, Bool.false_eq_true, if_false, conclude, hjudged]

/-- A Fence returns a receipt exactly when its marker is submitted, the generation is the bound one
at every look, and the first round that is not silent delivers a matching acknowledgement. -/
theorem fence_returned_receipt_iff (hready : Ready publisher) (receipt : FenceReceipt) :
    (fence binding publisher durability timeout link).2.returned = some (.ok receipt) ↔
      receipt = ⟨publisher.lastSequence, durability⟩ ∧
        (∃ key, Begins binding publisher durability timeout link key) ∧
        link.lane.after.generation = binding.transportGeneration ∧
        link.wait.sample.generation = binding.transportGeneration ∧
        Acknowledged binding durability timeout link publisher.lastSequence := by
  constructor
  · intro hreturned
    have hfences := @fences _ binding publisher durability timeout link hready
    generalize fence binding publisher durability timeout link = fenced at hfences hreturned
    obtain ⟨next, fenced⟩ := fenced
    cases hfences with
    | closed hclosed => cases hreturned
    | rejected next message hopen hnext => cases hreturned
    | lost next hopen hreplaced hlane hidle hclosed => cases hreturned
    | ended next key events failure hbegins hlane hidle hclosed => cases hreturned
    | receipted next key events hbegins hafter hsample hacknowledged hlane hnext haccepting
        hclean =>
        exact ⟨(Except.ok.inj (Option.some.inj hreturned)).symm, ⟨key, hbegins⟩, hafter, hsample,
          hacknowledged⟩
    | waiting next key events hbegins => cases hreturned
  · rintro ⟨rfl, ⟨key, hbegins⟩, hafter, hsample, hacknowledged⟩
    exact fence_of_acknowledged hready hbegins hafter hsample hacknowledged

end Fence

end Sitos.BufferPublisher
