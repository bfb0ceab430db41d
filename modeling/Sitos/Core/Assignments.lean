import Mathlib

/-!
# Sequences of point assignments

A map changed by assignments to single keys keeps, for each key, the last value
assigned.  So a stretch of assignments that was already made may be made again,
as long as everything after it follows.
-/

namespace Sitos.Assignments

variable {Key Value : Type*} [DecidableEq Key]

def assignAll (start : Key → Value) (assignments : List (Key × Value)) : Key → Value :=
  assignments.foldl (fun current assignment =>
    Function.update current assignment.1 assignment.2) start

@[simp]
theorem assignAll_nil (start : Key → Value) : assignAll start [] = start := rfl

theorem assignAll_append (start : Key → Value) (first second : List (Key × Value)) :
    assignAll start (first ++ second) = assignAll (assignAll start first) second :=
  List.foldl_append

theorem assignAll_append_singleton (start : Key → Value) (assignments : List (Key × Value))
    (key : Key) (value : Value) :
    assignAll start (assignments ++ [(key, value)]) =
      Function.update (assignAll start assignments) key value := by
  rw [assignAll_append]
  rfl

/-- A key that is never assigned keeps its value. -/
theorem assignAll_of_unassigned (start : Key → Value) {assignments : List (Key × Value)}
    {key : Key} (hkey : key ∉ assignments.map Prod.fst) :
    assignAll start assignments key = start key := by
  induction assignments using List.reverseRecOn with
  | nil => rfl
  | append_singleton assignments assignment ih =>
      rw [List.map_append, List.mem_append, not_or] at hkey
      rw [assignAll_append_singleton, Function.update_of_ne (by simpa using hkey.2)]
      exact ih hkey.1

/-- The value of an assigned key does not depend on the start. -/
theorem assignAll_of_assigned (first second : Key → Value)
    {assignments : List (Key × Value)} {key : Key}
    (hkey : key ∈ assignments.map Prod.fst) :
    assignAll first assignments key = assignAll second assignments key := by
  induction assignments using List.reverseRecOn with
  | nil => simp at hkey
  | append_singleton assignments assignment ih =>
      rw [assignAll_append_singleton, assignAll_append_singleton]
      by_cases hlast : key = assignment.1
      · rw [hlast, Function.update_self, Function.update_self]
      · rw [Function.update_of_ne hlast, Function.update_of_ne hlast]
        apply ih
        simpa [hlast] using hkey

/-- Making a stretch of assignments twice changes nothing when everything after
it follows. -/
theorem assignAll_replay (start : Key → Value) (replayed later : List (Key × Value)) :
    assignAll (assignAll start replayed) (replayed ++ later) =
      assignAll start (replayed ++ later) := by
  funext key
  by_cases hkey : key ∈ (replayed ++ later).map Prod.fst
  · exact assignAll_of_assigned _ _ hkey
  · have hreplayed : key ∉ replayed.map Prod.fst := by
      intro hmem
      exact hkey (by simp only [List.map_append, List.mem_append]; exact .inl hmem)
    rw [assignAll_of_unassigned _ hkey, assignAll_of_unassigned _ hkey,
      assignAll_of_unassigned _ hreplayed]

end Sitos.Assignments
