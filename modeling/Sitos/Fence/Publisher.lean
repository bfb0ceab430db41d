import Sitos.Wire.Fence

/-!
# Fence publishers

The sending side of a lane: consecutive sequences for covered data, one pending
Fence at a time, and a waiter that takes the first result published for it.
Each definition is what the source does under one of the publisher's locks.

Whether the transport is still on the generation that the publisher was bound
to is sampled again at every step, so every step is given the answer it got.
-/

namespace Sitos.Publisher

open Sitos.Bytes
open Sitos.AckResult
open Sitos.FenceWire
open Sitos.Token

/-- `completed` is whether the completion instant has been recorded. -/
structure FenceWaiterState where
  terminal : Bool
  reserved : Bool
  result : Option AckResultV1
  completed : Bool
  deriving DecidableEq, Repr

def FenceWaiterState.fresh : FenceWaiterState :=
  { terminal := false, reserved := false, result := none, completed := false }

/-- Waiters are numbered in the order they are made. -/
structure FenceHandle where
  token : AckToken
  throughSequence : UInt64
  waiter : ℕ
  deriving DecidableEq, Repr

structure FencePublisher where
  durability : AckDurability
  lastSequence : UInt64
  exhausted : Bool
  acceptingOperations : Bool
  disconnected : Bool
  generationMismatch : Bool
  pending : Option FenceHandle
  waiters : ℕ → FenceWaiterState
  made : ℕ

def FencePublisher.bound (durability : AckDurability) : FencePublisher :=
  { durability, lastSequence := 0, exhausted := false, acceptingOperations := true,
    disconnected := false, generationMismatch := false, pending := none,
    waiters := fun _ => .fresh, made := 0 }

namespace FencePublisher

def disconnectedResult (publisher : FencePublisher) (through : UInt64) : AckResultV1 :=
  fenceResult .disconnected publisher.durability through

def setWaiter (publisher : FencePublisher) (waiter : ℕ) (state : FenceWaiterState) :
    FencePublisher :=
  { publisher with waiters := Function.update publisher.waiters waiter state }

/-- The pending Fence ends without a result of its own. -/
def cancelPendingWaiter (publisher : FencePublisher) : FencePublisher :=
  match publisher.pending with
  | none => publisher
  | some handle =>
      let state := publisher.waiters handle.waiter
      let publisher := { publisher with pending := none }
      if state.terminal then publisher
      else
        publisher.setWaiter handle.waiter
          { state with
            result := some (publisher.disconnectedResult handle.throughSequence)
            completed := true
            terminal := true }

def disconnect (publisher : FencePublisher) : FencePublisher :=
  cancelPendingWaiter { publisher with disconnected := true, acceptingOperations := false }

def markGenerationMismatch (publisher : FencePublisher) : FencePublisher :=
  { publisher with generationMismatch := true, acceptingOperations := false }

/-- The publisher and whether it may go on. -/
def checkGeneration (publisher : FencePublisher) (current : Bool) : FencePublisher × Bool :=
  if publisher.disconnected then (publisher, false)
  else if !publisher.generationMismatch && current then (publisher, true)
  else (publisher.disconnect, false)

/-- How the transport answers one call: whether it supports Fences, whether its
`Put` succeeds, and the generation before and after that. -/
structure Answers where
  supported : Bool
  putOk : Bool
  currentBefore : Bool
  currentAfter : Bool
  deriving DecidableEq, Repr

/-- The sequence that the data got, if it got one. -/
def submitData (publisher : FencePublisher) (answers : Answers) :
    FencePublisher × Option UInt64 :=
  if !publisher.acceptingOperations then (publisher, none)
  else
    match publisher.checkGeneration answers.currentBefore with
    | (publisher, false) => (publisher, none)
    | (publisher, true) =>
        if !answers.supported ∨ publisher.exhausted then (publisher, none)
        else
          let sequence := publisher.lastSequence + 1
          let publisher :=
            { publisher with
              lastSequence := sequence
              exhausted := publisher.exhausted || sequence == 0xFFFFFFFFFFFFFFFF }
          ((publisher.checkGeneration answers.currentAfter).1, some sequence)

/-- A Fence through everything submitted so far.  The waiter is published before
the marker is submitted. -/
def beginFence (publisher : FencePublisher) (token : AckToken) (answers : Answers) :
    FencePublisher × Option FenceHandle :=
  if !publisher.acceptingOperations then (publisher, none)
  else
    match publisher.checkGeneration answers.currentBefore with
    | (publisher, false) => (publisher, none)
    | (publisher, true) =>
        if !answers.supported ∨ publisher.pending.isSome then (publisher, none)
        else
          let handle : FenceHandle := ⟨token, publisher.lastSequence, publisher.made⟩
          let publisher :=
            { publisher.setWaiter publisher.made .fresh with
              pending := some handle
              made := publisher.made + 1 }
          ((publisher.checkGeneration answers.currentAfter).1, some handle)

/-! ## Completion -/

/-- A completion takes the slot with a provisional result. -/
def reserve (publisher : FencePublisher) (handle : FenceHandle) (result : AckResultV1)
    (mismatch : Bool) : Option FencePublisher :=
  let state := publisher.waiters handle.waiter
  if state.terminal ∨ state.reserved then none
  else
    some <| publisher.setWaiter handle.waiter
      { state with
        reserved := true
        result := some
          (if mismatch then publisher.disconnectedResult handle.throughSequence else result) }

/-- The provisional result becomes final, unless a timeout or a cancellation came
first. -/
def publish (publisher : FencePublisher) (handle : FenceHandle) (mismatch : Bool) :
    FencePublisher :=
  let state := { publisher.waiters handle.waiter with reserved := false }
  if state.terminal then publisher.setWaiter handle.waiter state
  else
    publisher.setWaiter handle.waiter
      { state with
        result :=
          if mismatch then some (publisher.disconnectedResult handle.throughSequence)
          else state.result
        completed := true
        terminal := true }

def resetPending (publisher : FencePublisher) (token : AckToken) : FencePublisher :=
  if publisher.pending.any (·.token == token) then { publisher with pending := none }
  else publisher

/-- How a wait for a local result ends: with the waiter's terminal result, by the
deadline, or because the publisher no longer takes operations. -/
inductive WaitEnd where
  | observed
  | deadline
  | refused
  deriving DecidableEq, Repr

/-- A result counts once its instant is recorded, and only before the deadline. -/
def resultBefore (state : FenceWaiterState) (inTime : Bool) : Option AckResultV1 :=
  if state.completed && inTime then state.result else none

/-- `none` while the wait goes on. -/
def wait (publisher : FencePublisher) (handle : FenceHandle) (ending : WaitEnd)
    (inTime : Bool) : Option (FencePublisher × Option AckResultV1) :=
  let state := publisher.waiters handle.waiter
  match ending with
  | .observed =>
      if state.terminal then
        some (publisher.resetPending handle.token, resultBefore state inTime)
      else none
  | .deadline =>
      some ((publisher.setWaiter handle.waiter { state with terminal := true }).resetPending
        handle.token, resultBefore state inTime)
  | .refused =>
      if publisher.acceptingOperations then none
      else if state.terminal then
        some (publisher.resetPending handle.token, resultBefore state inTime)
      else
        let result := publisher.disconnectedResult handle.throughSequence
        let state := { state with terminal := true }
        let state :=
          if inTime then { state with result := some result, completed := true } else state
        some ((publisher.setWaiter handle.waiter state).resetPending handle.token,
          resultBefore state inTime)

/-! ## The sequence -/

/-- The publisher has given out the sequences `1 .. count`. -/
structure Counts (publisher : FencePublisher) (count : ℕ) : Prop where
  last : publisher.lastSequence.toNat = count
  exhausted : publisher.exhausted = true ↔ publisher.lastSequence = 0xFFFFFFFFFFFFFFFF

theorem counts_bound (durability : AckDurability) : Counts (bound durability) 0 where
  last := rfl
  exhausted := by simp [bound]

/-- Nothing but a submission moves the sequence. -/
theorem Counts.of_same {publisher next : FencePublisher} {count : ℕ}
    (hcounts : Counts publisher count) (hlast : next.lastSequence = publisher.lastSequence)
    (hexhausted : next.exhausted = publisher.exhausted) : Counts next count where
  last := by
    rw [hlast]
    exact hcounts.last
  exhausted := by
    rw [hlast, hexhausted]
    exact hcounts.exhausted

theorem Counts.cancelPendingWaiter {publisher : FencePublisher} {count : ℕ}
    (hcounts : Counts publisher count) : Counts publisher.cancelPendingWaiter count := by
  unfold FencePublisher.cancelPendingWaiter
  split
  · exact hcounts
  · simp only
    split_ifs <;> exact hcounts.of_same rfl rfl

theorem Counts.disconnect {publisher : FencePublisher} {count : ℕ}
    (hcounts : Counts publisher count) : Counts publisher.disconnect count := by
  have hclosed : Counts { publisher with disconnected := true, acceptingOperations := false }
      count := hcounts.of_same rfl rfl
  exact hclosed.cancelPendingWaiter

theorem Counts.checkGeneration {publisher : FencePublisher} {count : ℕ}
    (hcounts : Counts publisher count) (current : Bool) :
    Counts (publisher.checkGeneration current).1 count := by
  unfold FencePublisher.checkGeneration
  split_ifs
  · exact hcounts
  · exact hcounts
  · exact hcounts.disconnect

/-- Data gets the next sequence or none. -/
theorem Counts.submitData {publisher : FencePublisher} {count : ℕ}
    (hcounts : Counts publisher count) (answers : Answers) :
    ((publisher.submitData answers).2 = none ∧
      Counts (publisher.submitData answers).1 count) ∨
    ∃ sequence, (publisher.submitData answers).2 = some sequence ∧
      sequence.toNat = count + 1 ∧ Counts (publisher.submitData answers).1 (count + 1) := by
  unfold FencePublisher.submitData
  split_ifs
  · exact Or.inl ⟨rfl, hcounts⟩
  · have hchecked := hcounts.checkGeneration answers.currentBefore
    split
    · rename_i checked hcheck
      rw [hcheck] at hchecked
      exact Or.inl ⟨rfl, hchecked⟩
    · rename_i checked hcheck
      rw [hcheck] at hchecked
      split_ifs with hrefused
      · exact Or.inl ⟨rfl, hchecked⟩
      · have hroom : checked.lastSequence ≠ 0xFFFFFFFFFFFFFFFF := fun hlast =>
          (not_or.mp hrefused).2 (hchecked.exhausted.mpr hlast)
        have hnext : (checked.lastSequence + 1).toNat = count + 1 := by
          rw [← hchecked.last]
          have hne : checked.lastSequence.toNat ≠ 0xFFFFFFFFFFFFFFFF := fun hlast =>
            hroom (UInt64.toNat_inj.mp hlast)
          have hbound := checked.lastSequence.toNat_lt
          rw [UInt64.toNat_add]
          exact Nat.mod_eq_of_lt (by simp only [UInt64.reduceToNat]; omega)
        have hexhausted : checked.exhausted = false := by
          simpa using (not_or.mp hrefused).2
        refine Or.inr ⟨_, rfl, hnext, Counts.checkGeneration ⟨hnext, ?_⟩ _⟩
        simp [hexhausted]

/-- A Fence covers everything submitted before it. -/
theorem Counts.beginFence {publisher : FencePublisher} {count : ℕ}
    (hcounts : Counts publisher count) (token : AckToken) (answers : Answers) :
    Counts (publisher.beginFence token answers).1 count ∧
      ∀ handle, (publisher.beginFence token answers).2 = some handle →
        handle.throughSequence.toNat = count := by
  unfold FencePublisher.beginFence
  split_ifs
  · exact ⟨hcounts, fun _ h => nomatch h⟩
  · have hchecked := hcounts.checkGeneration answers.currentBefore
    split
    · rename_i checked hcheck
      rw [hcheck] at hchecked
      exact ⟨hchecked, fun _ h => nomatch h⟩
    · rename_i checked hcheck
      rw [hcheck] at hchecked
      split_ifs
      · exact ⟨hchecked, fun _ h => nomatch h⟩
      · constructor
        · apply Counts.checkGeneration
          exact hchecked.of_same rfl rfl
        · intro handle hhandle
          obtain rfl := Option.some.inj hhandle
          exact hchecked.last

theorem Counts.reserve {publisher next : FencePublisher} {count : ℕ}
    (hcounts : Counts publisher count) {handle : FenceHandle} {result : AckResultV1}
    {mismatch : Bool} (hreserve : publisher.reserve handle result mismatch = some next) :
    Counts next count := by
  simp only [FencePublisher.reserve] at hreserve
  split_ifs at hreserve
  · obtain rfl := Option.some.inj hreserve
    exact hcounts.of_same rfl rfl
  · obtain rfl := Option.some.inj hreserve
    exact hcounts.of_same rfl rfl

theorem Counts.publish {publisher : FencePublisher} {count : ℕ}
    (hcounts : Counts publisher count) (handle : FenceHandle) (mismatch : Bool) :
    Counts (publisher.publish handle mismatch) count := by
  simp only [FencePublisher.publish]
  split_ifs <;> exact hcounts.of_same rfl rfl

theorem Counts.resetPending {publisher : FencePublisher} {count : ℕ}
    (hcounts : Counts publisher count) (token : AckToken) :
    Counts (publisher.resetPending token) count := by
  unfold FencePublisher.resetPending
  split_ifs <;> exact hcounts.of_same rfl rfl

theorem Counts.wait {publisher next : FencePublisher} {count : ℕ}
    (hcounts : Counts publisher count) {handle : FenceHandle} {ending : WaitEnd}
    {inTime : Bool} {result : Option AckResultV1}
    (hwait : publisher.wait handle ending inTime = some (next, result)) : Counts next count := by
  cases ending with
  | observed =>
      simp only [FencePublisher.wait] at hwait
      split_ifs at hwait
      obtain ⟨rfl, -⟩ := Prod.mk.inj (Option.some.inj hwait)
      exact hcounts.resetPending _
  | deadline =>
      obtain ⟨rfl, -⟩ := Prod.mk.inj (Option.some.inj hwait)
      apply Counts.resetPending
      exact hcounts.of_same rfl rfl
  | refused =>
      simp only [FencePublisher.wait] at hwait
      split_ifs at hwait <;> obtain ⟨rfl, -⟩ := Prod.mk.inj (Option.some.inj hwait)
      · exact hcounts.resetPending _
      · apply Counts.resetPending
        exact hcounts.of_same rfl rfl
      · apply Counts.resetPending
        exact hcounts.of_same rfl rfl

/-! ## Results -/

/-- Every successful result that a waiter holds is for a sequence that `Good`
vouches for. -/
def Honest (Good : UInt64 → Prop) (publisher : FencePublisher) : Prop :=
  ∀ waiter result, (publisher.waiters waiter).result = some result → result.status = .ok →
    Good result.throughSequence

variable {Good : UInt64 → Prop} {publisher next : FencePublisher}

theorem honest_bound (durability : AckDurability) : Honest Good (bound durability) :=
  fun _ _ h => nomatch h

theorem Honest.mono (hhonest : Honest Good publisher) {Better : UInt64 → Prop}
    (hmono : ∀ through, Good through → Better through) : Honest Better publisher :=
  fun waiter result hresult hok => hmono _ (hhonest waiter result hresult hok)

theorem Honest.of_same (hhonest : Honest Good publisher)
    (hwaiters : next.waiters = publisher.waiters) : Honest Good next := by
  intro waiter result hresult
  rw [hwaiters] at hresult
  exact hhonest waiter result hresult

theorem Honest.setWaiter (hhonest : Honest Good publisher) (waiter : ℕ)
    {state : FenceWaiterState}
    (hstate : ∀ result, state.result = some result → result.status = .ok →
      Good result.throughSequence) : Honest Good (publisher.setWaiter waiter state) := by
  intro other result hresult hok
  by_cases hother : other = waiter
  · subst hother
    simp only [FencePublisher.setWaiter, Function.update_self] at hresult
    exact hstate result hresult hok
  · simp only [FencePublisher.setWaiter, Function.update_of_ne hother] at hresult
    exact hhonest other result hresult hok

/-- A disconnected result claims nothing. -/
theorem disconnectedResult_not_ok (through : UInt64) {result : AckResultV1}
    (hresult : some (publisher.disconnectedResult through) = some result)
    (hok : result.status = .ok) : Good result.throughSequence := by
  obtain rfl := Option.some.inj hresult
  exact nomatch hok

theorem Honest.cancelPendingWaiter (hhonest : Honest Good publisher) :
    Honest Good publisher.cancelPendingWaiter := by
  unfold FencePublisher.cancelPendingWaiter
  split
  · exact hhonest
  · rename_i handle _
    have hreset : Honest Good { publisher with pending := none } := hhonest
    simp only
    split_ifs
    · exact hreset
    · apply hreset.setWaiter
      intro result hresult
      exact disconnectedResult_not_ok _ hresult

theorem Honest.disconnect (hhonest : Honest Good publisher) :
    Honest Good publisher.disconnect := by
  have hclosed : Honest Good
      { publisher with disconnected := true, acceptingOperations := false } := hhonest
  exact hclosed.cancelPendingWaiter

theorem Honest.checkGeneration (hhonest : Honest Good publisher) (current : Bool) :
    Honest Good (publisher.checkGeneration current).1 := by
  unfold FencePublisher.checkGeneration
  split_ifs
  · exact hhonest
  · exact hhonest
  · exact hhonest.disconnect

theorem Honest.submitData (hhonest : Honest Good publisher) (answers : Answers) :
    Honest Good (publisher.submitData answers).1 := by
  unfold FencePublisher.submitData
  split_ifs
  · exact hhonest
  · have hchecked := hhonest.checkGeneration answers.currentBefore
    split
    · rename_i checked hcheck
      rw [hcheck] at hchecked
      exact hchecked
    · rename_i checked hcheck
      rw [hcheck] at hchecked
      split_ifs
      · exact hchecked
      · apply Honest.checkGeneration
        exact hchecked

theorem Honest.beginFence (hhonest : Honest Good publisher) (token : AckToken)
    (answers : Answers) : Honest Good (publisher.beginFence token answers).1 := by
  unfold FencePublisher.beginFence
  split_ifs
  · exact hhonest
  · have hchecked := hhonest.checkGeneration answers.currentBefore
    split
    · rename_i checked hcheck
      rw [hcheck] at hchecked
      exact hchecked
    · rename_i checked hcheck
      rw [hcheck] at hchecked
      split_ifs
      · exact hchecked
      · have hfresh : Honest Good (checked.setWaiter checked.made .fresh) :=
          hchecked.setWaiter _ fun _ h => nomatch h
        apply Honest.checkGeneration
        exact hfresh

theorem Honest.reserve (hhonest : Honest Good publisher) {handle : FenceHandle}
    {result : AckResultV1} {mismatch : Bool}
    (hresult : result.status = .ok → Good result.throughSequence)
    (hreserve : publisher.reserve handle result mismatch = some next) : Honest Good next := by
  simp only [FencePublisher.reserve] at hreserve
  split_ifs at hreserve with _ hmismatch
  · obtain rfl := Option.some.inj hreserve
    apply hhonest.setWaiter
    intro other hother
    exact disconnectedResult_not_ok _ hother
  · obtain rfl := Option.some.inj hreserve
    apply hhonest.setWaiter
    intro other hother hok
    obtain rfl := Option.some.inj hother
    exact hresult hok

theorem Honest.publish (hhonest : Honest Good publisher) (handle : FenceHandle)
    (mismatch : Bool) : Honest Good (publisher.publish handle mismatch) := by
  simp only [FencePublisher.publish]
  split_ifs
  · apply hhonest.setWaiter
    exact fun result => hhonest handle.waiter result
  · apply hhonest.setWaiter
    intro result hresult
    exact disconnectedResult_not_ok _ hresult
  · apply hhonest.setWaiter
    exact fun result => hhonest handle.waiter result

theorem Honest.resetPending (hhonest : Honest Good publisher) (token : AckToken) :
    Honest Good (publisher.resetPending token) := by
  unfold FencePublisher.resetPending
  split_ifs <;> exact hhonest

/-- What a wait returns is a result that its waiter holds, or no success. -/
theorem Honest.wait (hhonest : Honest Good publisher) {handle : FenceHandle} {ending : WaitEnd}
    {inTime : Bool} {result : Option AckResultV1}
    (hwait : publisher.wait handle ending inTime = some (next, result)) :
    Honest Good next ∧ ∀ observed, result = some observed → observed.status = .ok →
      Good observed.throughSequence := by
  have hbefore : ∀ observed, resultBefore (publisher.waiters handle.waiter) inTime =
      some observed → observed.status = .ok → Good observed.throughSequence := by
    intro observed hobserved
    unfold resultBefore at hobserved
    split_ifs at hobserved
    exact hhonest handle.waiter observed hobserved
  cases ending with
  | observed =>
      simp only [FencePublisher.wait] at hwait
      split_ifs at hwait
      obtain ⟨rfl, rfl⟩ := Prod.mk.inj (Option.some.inj hwait)
      exact ⟨hhonest.resetPending _, hbefore⟩
  | deadline =>
      obtain ⟨rfl, rfl⟩ := Prod.mk.inj (Option.some.inj hwait)
      refine ⟨Honest.resetPending (hhonest.setWaiter _ ?_) _, hbefore⟩
      exact fun observed => hhonest handle.waiter observed
  | refused =>
      simp only [FencePublisher.wait] at hwait
      split_ifs at hwait <;> obtain ⟨rfl, rfl⟩ := Prod.mk.inj (Option.some.inj hwait)
      · exact ⟨hhonest.resetPending _, hbefore⟩
      · refine ⟨Honest.resetPending (hhonest.setWaiter _ ?_) _, ?_⟩
        · intro observed hobserved
          exact disconnectedResult_not_ok _ hobserved
        · intro observed hobserved
          unfold resultBefore at hobserved
          split_ifs at hobserved
          exact disconnectedResult_not_ok _ hobserved
      · refine ⟨Honest.resetPending (hhonest.setWaiter _ ?_) _, hbefore⟩
        exact fun observed => hhonest handle.waiter observed

end FencePublisher

end Sitos.Publisher
