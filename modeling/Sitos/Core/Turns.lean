import Mathlib

/-!
# Turns

Items are taken in, and each has its turn once, in the order they came and one at a time.  Three
lists tell how far this has gone: what was taken in, whose turn has begun and whose turn has
ended.
-/

namespace Sitos.Turns

variable {Item : Type*}

structure InTurn (entered begun ended : List Item) : Prop where
  begins : begun <+: entered
  ends : ended <+: begun
  single : begun.length ≤ ended.length + 1

variable {entered begun ended : List Item} {item : Item}

theorem inTurn_nil : InTurn ([] : List Item) [] [] :=
  ⟨List.prefix_refl _, List.prefix_refl _, Nat.zero_le _⟩

/-- A list that continues a shorter one with the right item still begins the longer. -/
theorem prefix_snoc {shorter longer : List Item} (hshorter : shorter <+: longer)
    (hitem : longer[shorter.length]? = some item) : shorter ++ [item] <+: longer := by
  obtain ⟨rest, rfl⟩ := hshorter
  rw [List.getElem?_append_right (Nat.le_refl _), Nat.sub_self] at hitem
  cases rest with
  | nil => cases hitem
  | cons head rest =>
      obtain rfl := Option.some.inj hitem
      exact ⟨rest, by simp⟩

namespace InTurn

theorem length_le (hturns : InTurn entered begun ended) : ended.length ≤ begun.length :=
  hturns.ends.length_le

theorem enter (hturns : InTurn entered begun ended) (items : List Item) :
    InTurn (entered ++ items) begun ended :=
  ⟨hturns.begins.trans (List.prefix_append ..), hturns.ends, hturns.single⟩

/-- The next item begins when no turn is under way. -/
theorem begin (hturns : InTurn entered begun ended) (hidle : begun.length = ended.length)
    (hitem : entered[ended.length]? = some item) : InTurn entered (begun ++ [item]) ended := by
  refine ⟨prefix_snoc hturns.begins ?_, hturns.ends.trans (List.prefix_append ..), ?_⟩
  · rw [hidle]
    exact hitem
  · rw [List.length_append, hidle]
    exact Nat.le_refl _

/-- The turn under way ends. -/
theorem finish (hturns : InTurn entered begun ended) (hbusy : ended.length < begun.length)
    (hitem : entered[ended.length]? = some item) : InTurn entered begun (ended ++ [item]) := by
  have hbegun : begun[ended.length]? = some item := by
    obtain ⟨rest, rfl⟩ := hturns.begins
    rw [List.getElem?_append_left hbusy] at hitem
    exact hitem
  refine ⟨hturns.begins, prefix_snoc hturns.ends hbegun, ?_⟩
  rw [List.length_append, List.length_singleton]
  exact Nat.le_succ_of_le hturns.single

end InTurn

/-- Numbers that are less than the width apart are told apart by the machine. -/
theorem eq_of_ofNat_eq {low high : ℕ} (hle : low ≤ high) (hwindow : high - low < 2 ^ 64)
    (hsame : UInt64.ofNat high = UInt64.ofNat low) : high = low := by
  have hmod : high % 2 ^ 64 = low % 2 ^ 64 := by
    have := congrArg UInt64.toNat hsame
    rwa [UInt64.toNat_ofNat', UInt64.toNat_ofNat'] at this
  omega

end Sitos.Turns
