import Sitos.Fence.LaneState

/-!
# Histories of one Fence lane

A lane forgets almost everything it is told.  This module runs the lane beside
the full record of what it was told and shows that the constant-size state is
an exact summary: a marker is answered `Ok` for precisely the histories in
which the sequences `1 .. n` were admitted and completed in order, nothing
failed and nothing above `n` was seen.
-/

namespace Sitos.LaneHistory

open Sitos.Bytes
open Sitos.AckResult
open Sitos.Diagnostic
open Sitos.LaneState
open Sitos.Machine

/-- The receiver operations on a lane. -/
inductive Operation where
  | admitSequence (sequence : UInt64)
  | complete (sequence : UInt64) (failure : Option Status)
  | recordOverflow (observed : UInt64)
  | recordMalformed (sequence : Option UInt64)
  | recordRejected (observed : UInt64) (status : Status) (diagnostic : ByteString)
  deriving DecidableEq, Repr

/-- A lane together with everything it was told: the sequences it accepted,
the completions reported to it and the sequences it saw, each in order. -/
structure History where
  lane : FenceLaneState
  admitted : List UInt64
  completions : List (UInt64 × Option Status)
  observed : List UInt64
  deriving DecidableEq, Repr

def History.empty : History :=
  { lane := .empty, admitted := [], completions := [], observed := [] }

/-- A completion without a failure status. -/
def Succeeded (failure : Option Status) : Prop :=
  failure = none ∨ failure = some .ok

instance (failure : Option Status) : Decidable (Succeeded failure) := by
  unfold Succeeded
  infer_instance

/-- Applies an operation to the lane and notes it.  A completion is noted when
the call returns; a call that runs out of memory reports nothing. -/
def apply (memory : Memory) (history : History) : Operation → History
  | .admitSequence sequence =>
      let call := admitSequence memory history.lane sequence
      { history with
        lane := call.lane
        admitted :=
          if call.returned = some true then history.admitted ++ [sequence]
          else history.admitted
        observed := history.observed ++ [sequence] }
  | .complete sequence failure =>
      let call := complete memory history.lane sequence failure
      { history with
        lane := call.lane
        completions :=
          if call.returned.isSome then history.completions ++ [(sequence, failure)]
          else history.completions }
  | .recordOverflow observed =>
      { history with
        lane := (recordOverflow memory history.lane observed).lane
        observed := history.observed ++ [observed] }
  | .recordMalformed sequence =>
      { history with
        lane := (recordMalformed memory history.lane sequence).lane
        observed := history.observed ++ sequence.toList }
  | .recordRejected observed status diagnostic =>
      { history with
        lane := (recordRejected memory history.lane observed status observed
          diagnostic).lane
        observed := history.observed ++ [observed] }

/-- What every receiver guarantees of a call: sequences on the wire are nonzero,
only an accepted sequence is completed, and a rejection carries a failure
status. -/
def WellFormed (history : History) : Operation → Prop
  | .admitSequence sequence => sequence ≠ 0
  | .complete sequence _ => sequence ∈ history.admitted
  | .recordOverflow observed => observed ≠ 0
  | .recordMalformed sequence => sequence ≠ some 0
  | .recordRejected observed status _ => observed ≠ 0 ∧ status ≠ .ok

/-- The call left by exception after it had already moved the watermark. -/
def Torn (memory : Memory) (lane : FenceLaneState) : Operation → Prop
  | .complete sequence failure =>
      (complete memory lane sequence failure).returned = none ∧
        (complete memory lane sequence failure).lane.completedThrough ≠
          lane.completedThrough
  | _ => False

/-! ## The sequences up to a watermark -/

/-- The list `1, 2, …, through`. -/
def sequencesThrough (through : UInt64) : List UInt64 :=
  (List.range through.toNat).map fun index => UInt64.ofNat (index + 1)

@[simp]
theorem length_sequencesThrough (through : UInt64) :
    (sequencesThrough through).length = through.toNat := by
  simp [sequencesThrough]

theorem sequencesThrough_injective {left right : UInt64}
    (h : sequencesThrough left = sequencesThrough right) : left = right := by
  have hlength := congrArg List.length h
  rw [length_sequencesThrough, length_sequencesThrough] at hlength
  exact UInt64.toNat_inj.mp hlength

theorem sequencesThrough_add_one {through : UInt64} (h : through ≠ 0xFFFFFFFFFFFFFFFF) :
    sequencesThrough (through + 1) = sequencesThrough through ++ [through + 1] := by
  have hne : through.toNat ≠ 0xFFFFFFFFFFFFFFFF := by
    intro heq
    exact h (UInt64.toNat_inj.mp heq)
  have hbound : through.toNat < 2 ^ 64 := through.toNat_lt
  have hsucc : (through + 1).toNat = through.toNat + 1 := by
    rw [UInt64.toNat_add]
    exact Nat.mod_eq_of_lt (by simp only [UInt64.reduceToNat]; omega)
  rw [sequencesThrough, hsucc, List.range_succ, List.map_append]
  simp [sequencesThrough]

theorem mem_sequencesThrough {through sequence : UInt64}
    (hmem : sequence ∈ sequencesThrough through) : sequence ≠ 0 ∧ sequence ≤ through := by
  obtain ⟨index, hindex, rfl⟩ := List.mem_map.mp hmem
  have hlt : index < through.toNat := List.mem_range.mp hindex
  have hbound : through.toNat < 2 ^ 64 := through.toNat_lt
  have hvalue : (UInt64.ofNat (index + 1)).toNat = index + 1 := by
    rw [UInt64.toNat_ofNat']
    exact Nat.mod_eq_of_lt (by omega)
  constructor
  · intro hzero
    simp [hzero] at hvalue
  · rw [UInt64.le_iff_toNat_le, hvalue]
    omega

/-! ## The invariant -/

/-- How the lane summarises its history. -/
structure Recorded (history : History) : Prop where
  completed_le : history.lane.completedThrough ≤ history.lane.reservedThrough
  reserved_le : history.lane.reservedThrough ≤ history.lane.highestObserved
  exhausted_iff : history.lane.reservationExhausted = true ↔
    history.lane.reservedThrough = 0xFFFFFFFFFFFFFFFF
  admitted_eq : history.admitted = sequencesThrough history.lane.reservedThrough
  observed_le : ∀ sequence ∈ history.observed, sequence ≤ history.lane.highestObserved
  highest_seen : history.lane.highestObserved = 0 ∨
    history.lane.highestObserved ∈ history.observed
  failure_placed : ∀ failure, history.lane.firstFailure = some failure →
    failure.status ≠ .ok ∧ IsMessage failure.message ∧
      (failure.sequence = kAckNoFailedSequence ∨
        (failure.sequence ≠ 0 ∧ failure.sequence ≤ history.lane.highestObserved))
  clean : history.lane.firstFailure = none →
    history.completions.map Prod.fst = sequencesThrough history.lane.completedThrough ∧
      ∀ completion ∈ history.completions, Succeeded completion.2

theorem recorded_empty : Recorded History.empty where
  completed_le := UInt64.le_refl _
  reserved_le := UInt64.le_refl _
  exhausted_iff := by simp [History.empty, FenceLaneState.empty]
  admitted_eq := rfl
  observed_le := by simp [History.empty]
  highest_seen := .inl rfl
  failure_placed := by simp [History.empty, FenceLaneState.empty]
  clean := fun _ => ⟨rfl, by simp [History.empty]⟩

theorem Recorded.observe {history : History} (hrec : Recorded history)
    (sequence : UInt64) :
    Recorded { history with
      lane := observe history.lane sequence
      observed := history.observed ++ [sequence] } := by
  obtain ⟨hkept, hseen⟩ := le_observe_highestObserved history.lane sequence
  refine ⟨?_, ?_, ?_, ?_, ?_, ?_, ?_, ?_⟩
  · simpa using hrec.completed_le
  · simpa using UInt64.le_trans hrec.reserved_le hkept
  · simpa using hrec.exhausted_iff
  · simpa using hrec.admitted_eq
  · intro other hother
    rcases List.mem_append.mp hother with hold | hnew
    · exact UInt64.le_trans (hrec.observed_le other hold) hkept
    · rw [List.mem_singleton.mp hnew]
      exact hseen
  · rcases observe_highestObserved_cases history.lane sequence with hsame | hraised
    · simp only [hsame]
      exact hrec.highest_seen.imp_right fun hmem => List.mem_append_left _ hmem
    · exact .inr (by simp [hraised])
  · intro failure hfailure
    obtain ⟨hstatus, hmessage, hplace⟩ := hrec.failure_placed failure (by simpa using hfailure)
    refine ⟨hstatus, hmessage, hplace.imp_right ?_⟩
    rintro ⟨hne, hle⟩
    exact ⟨hne, UInt64.le_trans hle hkept⟩
  · intro hnone
    simpa using hrec.clean (by simpa using hnone)

/-- Latching keeps the summary: the new completions only matter when no
failure is retained, and then the lane is as it was. -/
theorem Recorded.latch {history : History} (hrec : Recorded history) (memory : Memory)
    {status : Status} {sequence : UInt64} (diagnostic : ByteString)
    (completions : List (UInt64 × Option Status))
    (hstatus : status ≠ .ok)
    (hplace : sequence = kAckNoFailedSequence ∨
      (sequence ≠ 0 ∧ sequence ≤ history.lane.highestObserved))
    (hcompletions :
      (latch memory history.lane status sequence diagnostic).lane.firstFailure = none →
        completions = history.completions) :
    Recorded { history with
      lane := (latch memory history.lane status sequence diagnostic).lane
      completions := completions } := by
  refine ⟨?_, ?_, ?_, ?_, ?_, ?_, ?_, ?_⟩
  · simpa using hrec.completed_le
  · simpa using hrec.reserved_le
  · simpa using hrec.exhausted_iff
  · simpa using hrec.admitted_eq
  · simpa using hrec.observed_le
  · simpa using hrec.highest_seen
  · intro failure hfailure
    simp only [latch_highestObserved]
    rcases latch_firstFailure memory history.lane status sequence diagnostic with
      hsame | ⟨_, hnew⟩
    · exact hrec.failure_placed failure (hsame.symm.trans hfailure)
    · obtain rfl := Option.some.inj (hnew.symm.trans hfailure)
      exact ⟨hstatus, isMessage_sanitizeFenceDiagnostic diagnostic, hplace⟩
  · intro hnone
    rw [hcompletions hnone]
    simp only [latch_completedThrough]
    rcases latch_firstFailure memory history.lane status sequence diagnostic with
      hsame | ⟨_, hnew⟩
    · exact hrec.clean (hsame.symm.trans hnone)
    · exact absurd (hnew.symm.trans hnone) (by simp)

theorem refuse_returned_ne (call : Call Unit) : (refuse call).returned ≠ some true := by
  simp [refuse]

theorem Recorded.admitSequence {history : History} (hrec : Recorded history) (memory : Memory)
    {sequence : UInt64} (hne : sequence ≠ 0) :
    Recorded (apply memory history (.admitSequence sequence)) := by
  have hseen := hrec.observe sequence
  obtain ⟨hkept, hle⟩ := le_observe_highestObserved history.lane sequence
  simp only [apply, LaneState.admitSequence, hne, if_false, observe_reservationExhausted,
    observe_reservedThrough]
  split_ifs with hstale hrefused hgap hrefused hyes
  · exact absurd hrefused (refuse_returned_ne _)
  · exact hseen.latch memory _ _ (by simp) (.inr ⟨hne, hle⟩) fun _ => rfl
  · exact absurd hrefused (refuse_returned_ne _)
  · refine hseen.latch memory _ _ (by simp) (.inr ⟨?_, ?_⟩) fun _ => rfl
    · grind
    · grind
  · -- the accepted case: the sequence is the successor of the last one
    rw [not_or, hrec.exhausted_iff] at hstale
    have hnext : sequence = history.lane.reservedThrough + 1 := by grind
    refine ⟨?_, hle, ?_, ?_, hseen.observed_le, hseen.highest_seen,
      hseen.failure_placed, hseen.clean⟩
    · have := hrec.completed_le
      simp only [observe_completedThrough]
      grind
    · have hexhausted : history.lane.reservationExhausted = false := by
        rw [Bool.eq_false_iff]
        exact fun hexhausted => hstale.1 (hrec.exhausted_iff.mp hexhausted)
      simp [hexhausted]
    · rw [hnext, sequencesThrough_add_one hstale.1, hrec.admitted_eq]
  · exact absurd rfl hyes

/-- A completed sequence that matches both watermarks moves the first one. -/
theorem Recorded.advance {history : History} (hrec : Recorded history)
    {sequence : UInt64} (hne : sequence ≠ 0)
    (hnext : sequence = history.lane.completedThrough + 1)
    (hreserved : sequence ≤ history.lane.reservedThrough)
    {failure : Option Status} (hfailure : Succeeded failure) :
    Recorded { history with
      lane := { history.lane with completedThrough := sequence }
      completions := history.completions ++ [(sequence, failure)] } := by
  refine ⟨hreserved, hrec.reserved_le, hrec.exhausted_iff, hrec.admitted_eq,
    hrec.observed_le, hrec.highest_seen, hrec.failure_placed, ?_⟩
  intro hnone
  obtain ⟨hsequences, hall⟩ := hrec.clean hnone
  have hroom : history.lane.completedThrough ≠ 0xFFFFFFFFFFFFFFFF := by
    intro hmax
    exact hne (by rw [hnext, hmax]; rfl)
  constructor
  · simp [hsequences, hnext, sequencesThrough_add_one hroom]
  · intro completion hmem
    rcases List.mem_append.mp hmem with hold | hnew
    · exact hall completion hold
    · rw [List.mem_singleton.mp hnew]
      exact hfailure

/-- A latch that returns retains some failure. -/
theorem latch_returned_isSome {memory : Memory} {lane : FenceLaneState} {status : Status}
    {sequence : UInt64} {diagnostic : ByteString}
    (hreturned : (latch memory lane status sequence diagnostic).returned.isSome) :
    (latch memory lane status sequence diagnostic).lane.firstFailure ≠ none := by
  unfold latch at hreturned ⊢
  cases hfailure : lane.firstFailure with
  | none =>
      cases memory with
      | available => simp
      | exhausted => simp [hfailure] at hreturned
  | some failure =>
      simp only
      split_ifs <;> simp [hfailure]

theorem Recorded.complete {history : History} (hrec : Recorded history) (memory : Memory)
    {sequence : UInt64} (hadmitted : sequence ∈ history.admitted) (failure : Option Status)
    (hwhole : ¬ Torn memory history.lane (.complete sequence failure)) :
    Recorded (apply memory history (.complete sequence failure)) := by
  rw [hrec.admitted_eq] at hadmitted
  obtain ⟨hne, hle⟩ := mem_sequencesThrough hadmitted
  simp only [Torn, LaneState.complete, hne, if_false] at hwhole
  simp only [apply, LaneState.complete, hne, if_false]
  by_cases hmismatch : sequence ≠ history.lane.completedThrough + 1 ∨
      sequence > history.lane.reservedThrough
  · have hplace : sequence = kAckNoFailedSequence ∨
        (sequence ≠ 0 ∧ sequence ≤ history.lane.highestObserved) :=
      .inr ⟨hne, UInt64.le_trans hle hrec.reserved_le⟩
    simp only [hmismatch, if_true]
    split_ifs with hreturned
    · exact hrec.latch memory _ _ (by simp) hplace
        fun hnone => absurd hnone (latch_returned_isSome hreturned)
    · exact hrec.latch memory _ _ (by simp) hplace fun _ => rfl
  · rw [if_neg hmismatch] at hwhole
    simp only [hmismatch, if_false]
    have hnext : sequence = history.lane.completedThrough + 1 := by
      simpa using fun h => hmismatch (.inl h)
    have hmoved : sequence ≠ history.lane.completedThrough := by grind
    cases failure with
    | none => simpa using hrec.advance hne hnext hle (.inl rfl)
    | some status =>
        by_cases hok : status = .ok
        · subst status
          simpa using hrec.advance hne hnext hle (.inr rfl)
        · -- the failure is latched on top of the moved watermark
          simp only [hok, ne_eq, not_false_eq_true, if_true, latch_completedThrough, hmoved,
            and_true, ← Option.isSome_iff_ne_none] at hwhole ⊢
          rw [if_pos hwhole]
          exact (hrec.advance hne hnext hle (.inl rfl)).latch memory _ _ hok
            (.inr ⟨hne, UInt64.le_trans hle hrec.reserved_le⟩)
            fun hnone => absurd hnone (latch_returned_isSome hwhole)

theorem Recorded.recordOverflow {history : History} (hrec : Recorded history)
    (memory : Memory) {observed : UInt64} (hne : observed ≠ 0) :
    Recorded (apply memory history (.recordOverflow observed)) := by
  have hseen := hrec.observe observed
  obtain ⟨hkept, hle⟩ := le_observe_highestObserved history.lane observed
  simp only [apply, LaneState.recordOverflow, observe_reservationExhausted,
    observe_reservedThrough]
  split_ifs with hstale
  · exact hseen.latch memory _ _ (by simp) (.inr ⟨hne, hle⟩) fun _ => rfl
  · rw [not_or, hrec.exhausted_iff] at hstale
    refine hseen.latch memory _ _ (by simp) (.inr ⟨?_, ?_⟩) fun _ => rfl
    · grind
    · grind

theorem Recorded.recordMalformed {history : History} (hrec : Recorded history)
    (memory : Memory) {sequence : Option UInt64} (hne : sequence ≠ some 0) :
    Recorded (apply memory history (.recordMalformed sequence)) := by
  cases sequence with
  | none =>
      simpa [apply, LaneState.recordMalformed] using
        hrec.latch memory (ascii "malformed buffer lane metadata") history.completions
          (by simp) (.inl rfl) fun _ => rfl
  | some observed =>
      have hne : observed ≠ 0 := fun hzero => hne (congrArg some hzero)
      obtain ⟨hkept, hle⟩ := le_observe_highestObserved history.lane observed
      exact (hrec.observe observed).latch memory _ _ (by simp) (.inr ⟨hne, hle⟩) fun _ => rfl

theorem Recorded.recordRejected {history : History} (hrec : Recorded history)
    (memory : Memory) {observed : UInt64} {status : Status} (hne : observed ≠ 0)
    (hstatus : status ≠ .ok) (diagnostic : ByteString) :
    Recorded (apply memory history (.recordRejected observed status diagnostic)) := by
  obtain ⟨hkept, hle⟩ := le_observe_highestObserved history.lane observed
  exact (hrec.observe observed).latch memory _ _ hstatus (.inr ⟨hne, hle⟩) fun _ => rfl

/-- Every well-formed operation keeps the summary unless it is torn. -/
theorem Recorded.apply {history : History} (hrec : Recorded history) (memory : Memory)
    {operation : Operation} (hform : WellFormed history operation)
    (hwhole : ¬ Torn memory history.lane operation) :
    Recorded (apply memory history operation) := by
  cases operation with
  | admitSequence sequence => exact hrec.admitSequence memory hform
  | complete sequence failure => exact hrec.complete memory hform failure hwhole
  | recordOverflow observed => exact hrec.recordOverflow memory hform
  | recordMalformed sequence => exact hrec.recordMalformed memory hform
  | recordRejected observed status diagnostic =>
      exact hrec.recordRejected memory hform.1 hform.2 diagnostic

/-! ## Runs -/

/-- Watermarks only rise and a retained failure stays. -/
structure Extends (before after : FenceLaneState) : Prop where
  completed : before.completedThrough ≤ after.completedThrough
  reserved : before.reservedThrough ≤ after.reservedThrough
  highest : before.highestObserved ≤ after.highestObserved
  failure : ∀ failure, before.firstFailure = some failure →
    after.firstFailure = some failure

theorem Extends.refl (lane : FenceLaneState) : Extends lane lane :=
  ⟨UInt64.le_refl _, UInt64.le_refl _, UInt64.le_refl _, fun _ h => h⟩

theorem Extends.trans {first second third : FenceLaneState} (hleft : Extends first second)
    (hright : Extends second third) : Extends first third where
  completed := UInt64.le_trans hleft.completed hright.completed
  reserved := UInt64.le_trans hleft.reserved hright.reserved
  highest := UInt64.le_trans hleft.highest hright.highest
  failure := fun failure h => hright.failure failure (hleft.failure failure h)

theorem extends_observe (lane : FenceLaneState) (sequence : UInt64) :
    Extends lane (observe lane sequence) where
  completed := by simp
  reserved := by simp
  highest := (le_observe_highestObserved lane sequence).1
  failure := by simp

theorem extends_latch (memory : Memory) (lane : FenceLaneState) (status : Status)
    (sequence : UInt64) (diagnostic : ByteString) :
    Extends lane (latch memory lane status sequence diagnostic).lane where
  completed := by simp
  reserved := by simp
  highest := by simp
  failure := by
    intro failure hfailure
    rcases latch_firstFailure memory lane status sequence diagnostic with hsame | ⟨hnone, _⟩
    · rw [hsame, hfailure]
    · exact absurd (hnone.symm.trans hfailure) (by simp)

theorem extends_admitSequence (memory : Memory) (lane : FenceLaneState) (sequence : UInt64) :
    Extends lane (admitSequence memory lane sequence).lane := by
  simp only [admitSequence]
  split_ifs with hzero hstale hgap
  · exact extends_latch memory lane _ _ _
  · exact (extends_observe lane sequence).trans (extends_latch memory _ _ _ _)
  · exact (extends_observe lane sequence).trans (extends_latch memory _ _ _ _)
  · refine (extends_observe lane sequence).trans ⟨UInt64.le_refl _, ?_, UInt64.le_refl _,
      fun _ h => h⟩
    exact UInt64.le_of_lt (UInt64.not_le.mp fun hle => hstale (.inr hle))

theorem extends_complete (memory : Memory) (lane : FenceLaneState) {sequence : UInt64}
    (hne : sequence ≠ 0) (failure : Option Status) :
    Extends lane (complete memory lane sequence failure).lane := by
  unfold complete
  split_ifs with hmismatch
  · exact extends_latch memory lane _ _ _
  · have hmove : Extends lane { lane with completedThrough := sequence } := by
      refine ⟨?_, UInt64.le_refl _, UInt64.le_refl _, fun _ h => h⟩
      have hnext : sequence = lane.completedThrough + 1 := by
        simpa using fun h => hmismatch (.inl h)
      show lane.completedThrough ≤ sequence
      grind
    cases failure with
    | none => exact hmove
    | some status =>
        simp only
        split_ifs
        · exact hmove.trans (extends_latch memory _ _ _ _)
        · exact hmove

theorem extends_apply (memory : Memory) {history : History} (hrec : Recorded history)
    {operation : Operation} (hform : WellFormed history operation) :
    Extends history.lane (apply memory history operation).lane := by
  cases operation with
  | admitSequence sequence => exact extends_admitSequence memory history.lane sequence
  | complete sequence failure =>
      rw [WellFormed, hrec.admitted_eq] at hform
      exact extends_complete memory history.lane (mem_sequencesThrough hform).1 failure
  | recordOverflow observed =>
      refine (extends_observe history.lane observed).trans ?_
      simp only [apply, recordOverflow]
      split_ifs
      · exact extends_latch memory _ _ _ _
      · exact extends_latch memory _ _ _ _
  | recordMalformed sequence =>
      cases sequence with
      | none => exact extends_latch memory _ _ _ _
      | some observed =>
          exact (extends_observe history.lane observed).trans (extends_latch memory _ _ _ _)
  | recordRejected observed status diagnostic =>
      exact (extends_observe history.lane observed).trans (extends_latch memory _ _ _ _)

/-- No sequence is completed a second time. -/
def Fresh (history : History) : Operation → Prop
  | .complete sequence _ => sequence ∉ history.completions.map Prod.fst
  | _ => True

instance (history : History) (operation : Operation) :
    Decidable (WellFormed history operation) := by
  cases operation <;> (simp only [WellFormed]; infer_instance)

instance (history : History) (operation : Operation) : Decidable (Fresh history operation) := by
  cases operation <;> (simp only [Fresh]; infer_instance)

/-- One call of the receivers' protocol. -/
def step (history : History) (operation : Operation) : Option History :=
  if WellFormed history operation ∧ Fresh history operation then
    some (apply .available history operation)
  else none

theorem step_cases {history next : History} {operation : Operation}
    (hstep : step history operation = some next) :
    WellFormed history operation ∧ Fresh history operation ∧
      next = apply .available history operation := by
  unfold step at hstep
  split_ifs at hstep with hfollows
  exact ⟨hfollows.1, hfollows.2, (Option.some.inj hstep).symm⟩

/-- With memory every latch returns. -/
theorem latch_available_returned (lane : FenceLaneState) (status : Status)
    (sequence : UInt64) (diagnostic : ByteString) :
    (latch .available lane status sequence diagnostic).returned = some () := by
  unfold latch
  split
  · rfl
  · split_ifs <;> rfl

theorem not_torn_available (lane : FenceLaneState) (operation : Operation) :
    ¬ Torn .available lane operation := by
  cases operation with
  | complete sequence failure =>
      rintro ⟨hthrew, _⟩
      simp only [complete] at hthrew
      split at hthrew
      · simp [latch_available_returned] at hthrew
      · split at hthrew
        · simp at hthrew
        · split_ifs at hthrew
          simp [latch_available_returned] at hthrew
  | _ => exact fun h => h

theorem recorded_step {history next : History} {operation : Operation}
    (hrec : Recorded history) (hstep : step history operation = some next) :
    Recorded next := by
  obtain ⟨hform, _, rfl⟩ := step_cases hstep
  exact hrec.apply .available hform (not_torn_available _ _)

theorem recorded_run {operations : List Operation} {history : History}
    (hrun : run step .empty operations = some history) : Recorded history :=
  run_invariant (fun _ _ _ hrec hstep => recorded_step hrec hstep) recorded_empty hrun

theorem extends_run {history later : History} {operations : List Operation}
    (hrec : Recorded history) (hrun : run step history operations = some later) :
    Extends history.lane later.lane := by
  induction operations generalizing history with
  | nil =>
      obtain rfl := Option.some.inj hrun
      exact Extends.refl _
  | cons operation operations ih =>
      rw [run_cons] at hrun
      obtain ⟨next, hstep, hrest⟩ := Option.bind_eq_some_iff.mp hrun
      have hnext := recorded_step hrec hstep
      obtain ⟨hform, _, rfl⟩ := step_cases hstep
      exact (extends_apply .available hrec hform).trans (ih hnext hrest)

/-! ## Exactness -/

/-- No failure was latched at any point of the run. -/
def NeverLatched (operations : List Operation) : Prop :=
  ∀ earlier later middle, operations = earlier ++ later →
    run step .empty earlier = some middle → middle.lane.firstFailure = none

theorem neverLatched_iff {operations : List Operation} {history : History}
    (hrun : run step .empty operations = some history) :
    NeverLatched operations ↔ history.lane.firstFailure = none := by
  constructor
  · intro hnever
    exact hnever operations [] history (by simp) hrun
  · intro hnone earlier later middle hsplit hmiddle
    rw [hsplit, run_append, hmiddle] at hrun
    have hext := extends_run (recorded_run hmiddle) hrun
    by_contra hfailure
    obtain ⟨failure, hfailure⟩ := Option.ne_none_iff_exists'.mp hfailure
    rw [hext.failure failure hfailure] at hnone
    simp at hnone

/-- The history a marker through `through` certifies. -/
structure Covered (history : History) (through : UInt64) : Prop where
  admitted : history.admitted = sequencesThrough through
  completed : history.completions.map Prod.fst = sequencesThrough through
  succeeded : ∀ completion ∈ history.completions, Succeeded completion.2
  nothingAbove : ∀ sequence ∈ history.observed, sequence ≤ through

theorem evaluateWatermarks_ok_iff (lane : FenceLaneState) (through : UInt64)
    (durability : AckDurability) :
    (evaluateWatermarks lane (fenceResult .ok durability through)).status = .ok ↔
      lane.completedThrough = through ∧ lane.highestObserved ≤ through := by
  by_cases habove : lane.completedThrough > through ∨ lane.highestObserved > through
  · simp only [evaluateWatermarks, fenceResult, habove, if_true, reduceCtorEq, false_iff]
    rintro ⟨rfl, hhighest⟩
    rcases habove with hself | hhigher
    · exact UInt64.lt_irrefl _ hself
    · exact UInt64.not_le.mpr hhigher hhighest
  · simp only [evaluateWatermarks, fenceResult, habove, if_false]
    obtain ⟨hcompleted, hhighest⟩ := not_or.mp habove
    by_cases hbelow : lane.completedThrough < through
    · simp [hbelow, UInt64.ne_of_lt hbelow]
    · have hequal : lane.completedThrough = through :=
        UInt64.le_antisymm (UInt64.not_lt.mp hcompleted) (UInt64.not_lt.mp hbelow)
      simp [hequal, UInt64.not_lt.mp hhighest]

/-- A retained failure always shows: it is at or below the marker, or it left a
higher observation behind. -/
theorem evaluate_of_failure {history : History} (hrec : Recorded history)
    {failure : FenceFirstFailure} (hfailure : history.lane.firstFailure = some failure)
    (through : UInt64) (durability : AckDurability) :
    (evaluate history.lane through durability).status ≠ .ok := by
  obtain ⟨hstatus, _, hplace⟩ := hrec.failure_placed failure hfailure
  simp only [evaluate, hfailure]
  split_ifs with hsentinel hcovered
  · exact hstatus
  · exact hstatus
  · intro hok
    obtain ⟨_, hhighest⟩ := (evaluateWatermarks_ok_iff _ _ _).mp hok
    rcases hplace with hna | ⟨_, hle⟩
    · exact hsentinel hna
    · exact hcovered (UInt64.le_trans hle hhighest)

theorem covered_iff {history : History} (hrec : Recorded history)
    (hnone : history.lane.firstFailure = none) (through : UInt64) :
    history.lane.completedThrough = through ∧ history.lane.highestObserved ≤ through ↔
      Covered history through := by
  obtain ⟨hsequences, hall⟩ := hrec.clean hnone
  constructor
  · rintro ⟨rfl, hhighest⟩
    have hreserved : history.lane.reservedThrough = history.lane.completedThrough :=
      UInt64.le_antisymm (UInt64.le_trans hrec.reserved_le hhighest) hrec.completed_le
    refine ⟨?_, hsequences, hall, ?_⟩
    · rw [hrec.admitted_eq, hreserved]
    · exact fun sequence hmem => UInt64.le_trans (hrec.observed_le sequence hmem) hhighest
  · intro hcovered
    refine ⟨sequencesThrough_injective (hsequences.symm.trans hcovered.completed), ?_⟩
    rcases hrec.highest_seen with hzero | hseen
    · rw [hzero]
      exact UInt64.zero_le
    · exact hcovered.nothingAbove _ hseen

theorem evaluate_ok_iff {history : History} (hrec : Recorded history)
    (through : UInt64) (durability : AckDurability) :
    (evaluate history.lane through durability).status = .ok ↔
      history.lane.firstFailure = none ∧ Covered history through := by
  cases hfailure : history.lane.firstFailure with
  | some failure =>
      simp [evaluate_of_failure hrec hfailure through durability]
  | none =>
      simp only [evaluate, hfailure, true_and]
      rw [evaluateWatermarks_ok_iff, covered_iff hrec hfailure]

theorem validate_evaluateWatermarks (lane : FenceLaneState) (through : UInt64)
    (durability : AckDurability) :
    validateAckResult (evaluateWatermarks lane (fenceResult .ok durability through)) =
      .ok () := by
  simp only [evaluateWatermarks]
  split_ifs with habove hbelow
  · exact validateAckResult_fence rfl rfl isMessage_nil rfl rfl (.inl rfl)
  · refine validateAckResult_fence rfl rfl isMessage_nil rfl rfl (.inr ⟨?_, ?_⟩)
    · simp only [fenceResult] at hbelow ⊢
      grind
    · simp only [fenceResult] at hbelow ⊢
      grind
  · exact validateAckResult_fence rfl rfl isMessage_nil rfl rfl (.inl rfl)

/-- Every answer of a lane is a legal result, given that the failures reported
to it carried wire statuses. -/
theorem validate_evaluate {history : History} (hrec : Recorded history)
    (hwire : ∀ failure, history.lane.firstFailure = some failure →
      isWireStatus failure.status = true)
    (through : UInt64) (durability : AckDurability) :
    validateAckResult (evaluate history.lane through durability) = .ok () := by
  cases hfailure : history.lane.firstFailure with
  | none =>
      simpa [evaluate, hfailure] using validate_evaluateWatermarks history.lane through durability
  | some failure =>
      obtain ⟨_, hmessage, hplace⟩ := hrec.failure_placed failure hfailure
      have hstatus := hwire failure hfailure
      simp only [evaluate, hfailure]
      split_ifs with hsentinel hcovered
      · exact validateAckResult_fence rfl hstatus hmessage rfl rfl (.inl rfl)
      · refine validateAckResult_fence rfl hstatus hmessage rfl rfl ?_
        exact hplace.imp_right fun h => ⟨h.1, hcovered⟩
      · exact validate_evaluateWatermarks history.lane through durability

/-- The lane is an exact summary of every protocol run. -/
theorem lane_exact (operations : List Operation) (history : History)
    (hrun : run step .empty operations = some history) :
    (history.lane.completedThrough ≤ history.lane.reservedThrough ∧
      history.lane.reservedThrough ≤ history.lane.highestObserved) ∧
    (∀ operations' later, run step history operations' = some later →
      Extends history.lane later.lane) ∧
    (∀ through durability,
      (evaluate history.lane through durability).status = .ok ↔
        NeverLatched operations ∧ Covered history through) ∧
    ((∀ failure, history.lane.firstFailure = some failure →
        isWireStatus failure.status = true) →
      ∀ through durability,
        validateAckResult (evaluate history.lane through durability) = .ok ()) := by
  have hrec := recorded_run hrun
  refine ⟨⟨hrec.completed_le, hrec.reserved_le⟩, ?_, ?_, ?_⟩
  · intro operations' later hlater
    exact extends_run hrec hlater
  · intro through durability
    rw [evaluate_ok_iff hrec, neverLatched_iff hrun]
  · intro hwire through durability
    exact validate_evaluate hrec hwire through durability

theorem lane_exact_two_completed :
    ∃ history, run step .empty
        [.admitSequence 1, .admitSequence 2, .complete 1 none, .complete 2 (some .ok)] =
          some history ∧
      Covered history 2 := by
  refine ⟨_, rfl, ?_⟩
  have hok := (lane_exact
    [.admitSequence 1, .admitSequence 2, .complete 1 none, .complete 2 (some .ok)] _ rfl).2.2.1
  exact ((hok 2 .applied).mp (by decide)).2

end Sitos.LaneHistory
