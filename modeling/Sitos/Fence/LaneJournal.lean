import Sitos.Fence.LaneHistory

/-!
# What a receiver has taken in

A receiver takes a sample in, perhaps lets it wait, and reports its completion to
the lane.  The journal lists the sequences it has taken in.  Completions follow
the order of the journal, so a lane that covers `1 .. n` fixes the whole journal.
-/

namespace Sitos.LaneHistory

open Sitos.Bytes
open Sitos.AckResult
open Sitos.LaneState
open Sitos.Machine

instance (memory : Memory) (lane : FenceLaneState) (operation : Operation) :
    Decidable (Torn memory lane operation) :=
  match operation with
  | .complete _ _ => inferInstanceAs (Decidable (_ ∧ _ ≠ _))
  | .admitSequence _ | .recordOverflow _ | .recordMalformed _ | .recordRejected _ _ _ =>
      inferInstanceAs (Decidable False)

/-- The sequences that were completed without a failure, in order. -/
def successes (history : History) : List UInt64 :=
  (history.completions.filter fun completion => decide (Succeeded completion.2)).map Prod.fst

/-- The sequences taken in, and those of them that still wait to be completed. -/
structure Journal (history : History) (taken waiting : List UInt64) : Prop where
  nodup : taken.Nodup
  admitted : ∀ sequence ∈ taken, sequence ∈ history.admitted
  order : (successes history ++ waiting).Sublist taken

theorem journal_empty : Journal .empty [] [] :=
  ⟨List.nodup_nil, by simp, List.Sublist.refl _⟩

/-- Calls that report no success. -/
def reportsNoSuccess : Operation → Prop
  | .complete _ failure => ¬Succeeded failure
  | _ => True

theorem successes_apply {operation : Operation} (hsilent : reportsNoSuccess operation)
    (memory : Memory) (history : History) :
    successes (apply memory history operation) = successes history := by
  cases operation with
  | complete sequence failure =>
      have hfailure : ¬Succeeded failure := hsilent
      simp only [apply]
      split_ifs
      · simp [successes, hfailure]
      · rfl
  | _ => rfl

theorem admitted_apply (memory : Memory) (history : History) (operation : Operation) :
    ∀ sequence ∈ history.admitted, sequence ∈ (apply memory history operation).admitted := by
  intro sequence hmem
  cases operation with
  | admitSequence other =>
      simp only [apply]
      split_ifs
      · exact List.mem_append_left _ hmem
      · exact hmem
  | _ => exact hmem

/-- An accepted sequence is new. -/
theorem not_mem_admitted {history : History} (hrec : Recorded history) {memory : Memory}
    {sequence : UInt64}
    (haccepted : (admitSequence memory history.lane sequence).returned = some true) :
    sequence ∉ history.admitted ∧
      sequence ∈ (apply memory history (.admitSequence sequence)).admitted := by
  constructor
  · intro hmem
    rw [hrec.admitted_eq] at hmem
    obtain ⟨hne, hle⟩ := mem_sequencesThrough hmem
    simp only [admitSequence, hne, if_false, observe_reservedThrough,
      observe_reservationExhausted] at haccepted
    rw [if_pos (Or.inr hle)] at haccepted
    exact refuse_returned_ne _ haccepted
  · simp [apply, haccepted]

/-- A completion without a failure is never torn. -/
theorem not_torn_success (memory : Memory) (lane : FenceLaneState) (sequence : UInt64) :
    ¬Torn memory lane (.complete sequence none) := by
  rintro ⟨hthrew, hmoved⟩
  by_cases hmismatch : sequence ≠ lane.completedThrough + 1 ∨ sequence > lane.reservedThrough
  · simp [complete, hmismatch] at hmoved
  · simp [complete, hmismatch] at hthrew

section Journal

variable {history : History} {taken waiting : List UInt64}

theorem Journal.apply (hjournal : Journal history taken waiting) {operation : Operation}
    (hsilent : reportsNoSuccess operation) (memory : Memory) :
    Journal (apply memory history operation) taken waiting where
  nodup := hjournal.nodup
  admitted := fun sequence hmem =>
    admitted_apply memory history operation sequence (hjournal.admitted sequence hmem)
  order := by
    rw [successes_apply hsilent]
    exact hjournal.order

theorem nodup_append_singleton (hjournal : Journal history taken waiting) {sequence : UInt64}
    (hnew : sequence ∉ taken) : (taken ++ [sequence]).Nodup := by
  rw [List.nodup_append]
  refine ⟨hjournal.nodup, List.nodup_singleton _, ?_⟩
  intro first hfirst second hsecond hsame
  rw [List.mem_singleton.mp hsecond] at hsame
  exact hnew (hsame ▸ hfirst)

theorem Journal.admitted_append (hjournal : Journal history taken waiting) {sequence : UInt64}
    (hadmitted : sequence ∈ history.admitted) :
    ∀ other ∈ taken ++ [sequence], other ∈ history.admitted := by
  intro other hother
  rcases List.mem_append.mp hother with hold | hnew
  · exact hjournal.admitted other hold
  · rw [List.mem_singleton.mp hnew]
    exact hadmitted

/-- A sequence is taken in and left at that. -/
theorem Journal.take (hjournal : Journal history taken waiting) {sequence : UInt64}
    (hadmitted : sequence ∈ history.admitted) (hnew : sequence ∉ taken) :
    Journal history (taken ++ [sequence]) waiting where
  nodup := nodup_append_singleton hjournal hnew
  admitted := hjournal.admitted_append hadmitted
  order := hjournal.order.trans (List.sublist_append_left _ _)

/-- A sequence is taken in and waits. -/
theorem Journal.takeWaiting (hjournal : Journal history taken waiting) {sequence : UInt64}
    (hadmitted : sequence ∈ history.admitted) (hnew : sequence ∉ taken) :
    Journal history (taken ++ [sequence]) (waiting ++ [sequence]) where
  nodup := nodup_append_singleton hjournal hnew
  admitted := hjournal.admitted_append hadmitted
  order := by
    rw [← List.append_assoc]
    exact hjournal.order.append (List.Sublist.refl _)

theorem successes_complete (memory : Memory) (history : History) (sequence : UInt64) :
    successes (LaneHistory.apply memory history (.complete sequence none)) =
      successes history ∨
    successes (LaneHistory.apply memory history (.complete sequence none)) =
      successes history ++ [sequence] := by
  simp only [LaneHistory.apply]
  split_ifs
  · exact Or.inr (by simp [successes, Succeeded])
  · exact Or.inl rfl

/-- The first waiting sequence is completed. -/
theorem Journal.complete (memory : Memory) {sequence : UInt64}
    (hjournal : Journal history taken (sequence :: waiting)) :
    Journal (LaneHistory.apply memory history (.complete sequence none)) taken waiting where
  nodup := hjournal.nodup
  admitted := fun other hmem =>
    admitted_apply memory history _ other (hjournal.admitted other hmem)
  order := by
    rcases successes_complete memory history sequence with hsame | hnew
    · rw [hsame]
      refine List.Sublist.trans ?_ hjournal.order
      exact (List.Sublist.refl _).append (List.sublist_cons_self _ _)
    · rw [hnew, List.append_assoc, List.singleton_append]
      exact hjournal.order

/-- Nothing waits any longer. -/
theorem Journal.dropWaiting (hjournal : Journal history taken waiting) :
    Journal history taken [] where
  nodup := hjournal.nodup
  admitted := hjournal.admitted
  order := by
    rw [List.append_nil]
    exact (List.sublist_append_left _ _).trans hjournal.order

theorem Journal.mem_taken_of_mem_waiting (hjournal : Journal history taken waiting)
    {sequence : UInt64} (hmem : sequence ∈ waiting) : sequence ∈ taken :=
  hjournal.order.subset (List.mem_append_right _ hmem)

theorem Journal.mem_taken_of_mem_successes (hjournal : Journal history taken waiting)
    {sequence : UInt64} (hmem : sequence ∈ successes history) : sequence ∈ taken :=
  hjournal.order.subset (List.mem_append_left _ hmem)

end Journal

/-- Completing everything that waits keeps the lane's proof and moves its sequences
from the waiting ones to the completed ones. -/
theorem recorded_completeAll {history : History} {taken waiting : List UInt64}
    (hrecorded : Recorded history) (hordered : Journal history taken waiting) :
    let completed := waiting.foldl
      (fun history sequence => LaneHistory.apply .available history (.complete sequence none)) history
    Recorded completed ∧ Journal completed taken [] ∧
      (∀ sequence ∈ history.admitted, sequence ∈ completed.admitted) ∧
      ∀ sequence ∈ successes completed, sequence ∈ successes history ∨ sequence ∈ waiting := by
  induction waiting generalizing history with
  | nil => exact ⟨hrecorded, hordered, fun _ h => h, fun _ h => Or.inl h⟩
  | cons sequence waiting ih =>
      have hadmitted : sequence ∈ history.admitted :=
        hordered.admitted sequence (hordered.mem_taken_of_mem_waiting List.mem_cons_self)
      obtain ⟨hrecorded', hordered', hkept, hsuccesses⟩ :=
        ih (hrecorded.complete .available hadmitted none (not_torn_available _ _))
          (hordered.complete .available)
      refine ⟨hrecorded', hordered', fun other hother => hkept other ?_, ?_⟩
      · exact admitted_apply .available history _ other hother
      · intro other hother
        rcases hsuccesses other hother with hbefore | hlater
        · rcases successes_complete .available history sequence with hsame | hmore
          · exact Or.inl (hsame ▸ hbefore)
          · have hmem : other ∈ successes history ++ [sequence] := hmore ▸ hbefore
            rcases List.mem_append.mp hmem with hold | hlast
            · exact Or.inl hold
            · rw [List.mem_singleton.mp hlast]
              exact Or.inr List.mem_cons_self
        · exact Or.inr (List.mem_cons_of_mem _ hlater)

section Covered

variable {history : History} {taken waiting : List UInt64}

theorem successes_of_covered {through : UInt64} (hcovered : Covered history through) :
    successes history = sequencesThrough through := by
  rw [← hcovered.completed, successes, List.filter_eq_self.mpr]
  intro completion hmem
  exact decide_eq_true (hcovered.succeeded completion hmem)

/-- A lane that covers `1 .. n` has taken in exactly those, in this order, and
completed them all. -/
theorem Journal.eq_of_covered (hjournal : Journal history taken waiting) {through : UInt64}
    (hcovered : Covered history through) : taken = sequencesThrough through ∧ waiting = [] := by
  have hsublist := hjournal.order
  rw [successes_of_covered hcovered] at hsublist
  have hlength : taken.length ≤ (sequencesThrough through).length := by
    apply List.Subperm.length_le
    apply hjournal.nodup.subperm
    intro sequence hmem
    rw [← hcovered.admitted]
    exact hjournal.admitted sequence hmem
  have hwaiting : waiting.length = 0 := by
    have := hsublist.length_le
    rw [List.length_append] at this
    omega
  obtain rfl := List.length_eq_zero_iff.mp hwaiting
  rw [List.append_nil] at hsublist
  exact ⟨(hsublist.eq_of_length_le hlength).symm, rfl⟩

end Covered

end Sitos.LaneHistory
