import Mathlib

/-!
# Overwriting rings

A fixed number of slots filled in order and then overwritten from the oldest
on.  The slots are what a program stores; `contents` is what they mean, the
retained values from the oldest to the newest.
-/

namespace Sitos.Ring

/-- Slots that are not yet full have never wrapped, so the next slot to
overwrite is the first one. -/
structure OverwriteRing (Value : Type*) where
  capacity : ℕ
  slots : List Value
  next : ℕ
  capacity_pos : 0 < capacity
  length_le : slots.length ≤ capacity
  next_lt : next < capacity
  next_eq : slots.length < capacity → next = 0

variable {Value : Type*}

def empty (capacity : ℕ) (hpos : 0 < capacity) : OverwriteRing Value :=
  { capacity, slots := [], next := 0, capacity_pos := hpos, length_le := Nat.zero_le _,
    next_lt := hpos, next_eq := fun _ => rfl }

/-- The value that the next push overwrites. -/
def oldest (ring : OverwriteRing Value) : Option Value :=
  if ring.slots.length < ring.capacity then none else ring.slots[ring.next]?

def push (ring : OverwriteRing Value) (value : Value) : OverwriteRing Value :=
  if h : ring.slots.length < ring.capacity then
    { ring with
      slots := ring.slots ++ [value]
      length_le := by simpa using h
      next_eq := fun _ => ring.next_eq h }
  else
    { ring with
      slots := ring.slots.set ring.next value
      next := (ring.next + 1) % ring.capacity
      length_le := by simpa using ring.length_le
      next_lt := Nat.mod_lt _ ring.capacity_pos
      next_eq := fun hfew => absurd (by simpa using hfew) h }

/-- The retained values, oldest first: the slots read from the next one to
overwrite. -/
def contents (ring : OverwriteRing Value) : List Value :=
  ring.slots.rotate ring.next

@[simp]
theorem contents_empty (capacity : ℕ) (hpos : 0 < capacity) :
    contents (empty capacity hpos : OverwriteRing Value) = [] := rfl

@[simp]
theorem capacity_push (ring : OverwriteRing Value) (value : Value) :
    (push ring value).capacity = ring.capacity := by
  unfold push
  split_ifs <;> rfl

@[simp]
theorem length_contents (ring : OverwriteRing Value) :
    (contents ring).length = ring.slots.length :=
  List.length_rotate _ _

theorem length_contents_le (ring : OverwriteRing Value) :
    (contents ring).length ≤ ring.capacity := by
  rw [length_contents]
  exact ring.length_le

/-- Overwriting the slot `next` and moving on drops the first of the rotated
values and appends the new one. -/
theorem rotate_set {slots : List Value} {next : ℕ} (hnext : next < slots.length)
    (value : Value) :
    (slots.set next value).rotate ((next + 1) % slots.length) =
      (slots.rotate next).tail ++ [value] := by
  have hsplit : slots.set next value =
      slots.take next ++ value :: slots.drop (next + 1) :=
    List.set_eq_take_append_cons_drop.trans (if_pos hnext)
  have hlength : (slots.set next value).length = slots.length := List.length_set
  have hhead : (slots.take next ++ [value]).length = next + 1 := by
    simp [Nat.min_eq_left (Nat.le_of_lt hnext)]
  calc (slots.set next value).rotate ((next + 1) % slots.length)
      = (slots.set next value).rotate (next + 1) := by
        rw [← hlength, List.rotate_mod]
    _ = ((slots.take next ++ [value]) ++ slots.drop (next + 1)).rotate
          (slots.take next ++ [value]).length := by
        rw [hhead, hsplit, List.append_assoc, List.singleton_append]
    _ = slots.drop (next + 1) ++ (slots.take next ++ [value]) :=
        List.rotate_append_length_eq _ _
    _ = (slots.rotate next).tail ++ [value] := by
        rw [List.rotate_eq_drop_append_take (Nat.le_of_lt hnext),
          List.drop_eq_getElem_cons hnext, List.cons_append, List.tail_cons,
          List.append_assoc]

/-- A push keeps the newest values, as many as fit. -/
theorem reverse_contents_push (ring : OverwriteRing Value) (value : Value) :
    (contents (push ring value)).reverse =
      (value :: (contents ring).reverse).take ring.capacity := by
  by_cases hroom : ring.slots.length < ring.capacity
  · have hzero := ring.next_eq hroom
    have hcontents : contents (push ring value) = contents ring ++ [value] := by
      simp [push, hroom, contents, hzero]
    rw [hcontents, List.reverse_append, List.take_of_length_le]
    · rfl
    · simpa using hroom
  · have hlength : ring.slots.length = ring.capacity :=
      Nat.le_antisymm ring.length_le (Nat.not_lt.mp hroom)
    have hcontents : contents (push ring value) = (contents ring).tail ++ [value] := by
      have hnext : ring.next < ring.slots.length := hlength ▸ ring.next_lt
      simpa [push, hroom, contents, hlength] using rotate_set hnext value
    rw [hcontents]
    cases hvalues : contents ring with
    | nil =>
        have hnone := congrArg List.length hvalues
        rw [length_contents, hlength] at hnone
        exact absurd hnone (Nat.ne_of_gt ring.capacity_pos)
    | cons first rest =>
        have hcount : rest.length + 1 = ring.capacity := by
          rw [← hlength, ← length_contents, hvalues, List.length_cons]
        have hfit : (value :: rest.reverse).length = ring.capacity := by simpa using hcount
        rw [List.tail_cons, List.reverse_cons, ← List.cons_append, ← hfit, List.take_left,
          List.reverse_append]
        rfl

/-- Only a full ring overwrites, and then the last of the newest-first values. -/
theorem oldest_eq (ring : OverwriteRing Value) :
    oldest ring = (contents ring).reverse[ring.capacity - 1]? := by
  have hpos := ring.capacity_pos
  by_cases hroom : ring.slots.length < ring.capacity
  · rw [oldest, if_pos hroom, List.getElem?_eq_none]
    rw [List.length_reverse, length_contents]
    omega
  · have hlength : ring.slots.length = ring.capacity :=
      Nat.le_antisymm ring.length_le (Nat.not_lt.mp hroom)
    have hnext : ring.next < ring.slots.length := hlength ▸ ring.next_lt
    have hlast : (contents ring).length - 1 - (ring.capacity - 1) = 0 := by
      rw [length_contents, hlength, Nat.sub_self]
    rw [oldest, if_neg hroom, List.getElem?_reverse, hlast, ← List.head?_eq_getElem?,
      contents, List.head?_rotate hnext]
    rw [length_contents]
    omega

/-- The end of a list that is not longer than `count + 1`. -/
theorem mem_take_iff {values : List Value} (hnodup : values.Nodup) {count : ℕ}
    (hlength : values.length ≤ count + 1) (value : Value) :
    value ∈ values.take count ↔ value ∈ values ∧ values[count]? ≠ some value := by
  have hsplit : values = values.take count ++ values[count]?.toList := by
    conv_lhs => rw [← List.take_append_drop count values]
    congr 1
    cases hlast : values[count]? with
    | none => exact List.drop_eq_nil_of_le (List.getElem?_eq_none_iff.mp hlast)
    | some last =>
        obtain ⟨hlt, rfl⟩ := List.getElem?_eq_some_iff.mp hlast
        rw [List.drop_eq_getElem_cons hlt, List.drop_eq_nil_of_le hlength]
        rfl
  constructor
  · intro hmem
    refine ⟨List.mem_of_mem_take hmem, fun hlast => ?_⟩
    rw [hsplit, hlast, List.nodup_append] at hnodup
    exact hnodup.2.2 value hmem value (by simp) rfl
  · rintro ⟨hmem, hlast⟩
    rw [hsplit] at hmem
    rcases List.mem_append.mp hmem with hfront | hback
    · exact hfront
    · exact absurd (Option.mem_toList.mp hback) hlast

theorem take_cons_capacity (ring : OverwriteRing Value) (value : Value)
    (values : List Value) :
    (value :: values).take ring.capacity = value :: values.take (ring.capacity - 1) := by
  conv_lhs => rw [← Nat.sub_add_cancel ring.capacity_pos]
  exact List.take_succ_cons

theorem mem_contents_push {ring : OverwriteRing Value} (hnodup : (contents ring).Nodup)
    (value other : Value) :
    other ∈ contents (push ring value) ↔
      other = value ∨ (other ∈ contents ring ∧ oldest ring ≠ some other) := by
  have hlength : (contents ring).reverse.length ≤ ring.capacity - 1 + 1 := by
    rw [Nat.sub_add_cancel ring.capacity_pos, List.length_reverse]
    exact length_contents_le ring
  rw [← List.mem_reverse, reverse_contents_push, take_cons_capacity, List.mem_cons,
    mem_take_iff (List.nodup_reverse.mpr hnodup) hlength, List.mem_reverse, oldest_eq]

theorem nodup_contents_push {ring : OverwriteRing Value} (hnodup : (contents ring).Nodup)
    {value : Value} (hfresh : value ∉ contents ring) :
    (contents (push ring value)).Nodup := by
  rw [← List.nodup_reverse, reverse_contents_push, take_cons_capacity, List.nodup_cons]
  constructor
  · intro hmem
    exact hfresh (List.mem_reverse.mp (List.mem_of_mem_take hmem))
  · exact (List.nodup_reverse.mpr hnodup).sublist (List.take_sublist _ _)

theorem mem_contents_of_oldest {ring : OverwriteRing Value} {value : Value}
    (holdest : oldest ring = some value) : value ∈ contents ring := by
  rw [oldest_eq] at holdest
  exact List.mem_reverse.mp (List.mem_of_getElem? holdest)

end Sitos.Ring
