import Mathlib

/-!
# Recently announced keys

Keys are announced and withdrawn.  The list of the announced ones is kept in order of
announcement by moving a key to the end whenever it is announced again.  Such a list is
determined by the events: it holds the keys whose last event announced them, ordered by that
event.
-/

namespace Sitos.Recency

structure Event (Key : Type*) where
  key : Key
  announced : Bool
  deriving DecidableEq, Repr

variable {Key : Type*} {history : List (Event Key)} {live : List Key}

/-- The last event of a key announced it. -/
def LastAnnounced (history : List (Event Key)) (key : Key) : Prop :=
  ∃ before after, history = before ++ ⟨key, true⟩ :: after ∧ ∀ event ∈ after, event.key ≠ key

/-- The last event of one key comes before the last event of another. -/
def LastBefore (history : List (Event Key)) (first second : Key) : Prop :=
  ∃ before after, history = before ++ after ∧ (∀ event ∈ after, event.key ≠ first) ∧
    ∃ event ∈ after, event.key = second

/-- The keys whose last event announced them, in the order of these events. -/
structure Lists (history : List (Event Key)) (live : List Key) : Prop where
  mem_iff : ∀ key, key ∈ live ↔ LastAnnounced history key
  ordered : live.Pairwise (LastBefore history)
  nodup : live.Nodup

theorem lists_nil : Lists ([] : List (Event Key)) [] where
  mem_iff key := by
    refine ⟨fun hmem => absurd hmem List.not_mem_nil, ?_⟩
    rintro ⟨before, after, heq, -⟩
    simp at heq
  ordered := List.Pairwise.nil
  nodup := List.nodup_nil

theorem lastAnnounced_concat_self (history : List (Event Key)) (key : Key) (announced : Bool) :
    LastAnnounced (history ++ [⟨key, announced⟩]) key ↔ announced = true := by
  constructor
  · rintro ⟨before, after, heq, hafter⟩
    rcases List.eq_nil_or_concat' after with rfl | ⟨after, last, rfl⟩
    · obtain ⟨-, hlast⟩ := List.append_inj' heq rfl
      simpa using hlast
    · have hlast : last = ⟨key, announced⟩ := by
        have hlasts := congrArg List.getLast? heq
        rw [List.getLast?_concat, ← List.cons_append, ← List.append_assoc, List.getLast?_concat]
          at hlasts
        exact (Option.some.inj hlasts).symm
      exact absurd (congrArg Event.key hlast) (hafter last (by simp))
  · rintro rfl
    exact ⟨history, [], rfl, by simp⟩

theorem lastAnnounced_concat_of_ne {event : Event Key} {key : Key} (hne : event.key ≠ key) :
    LastAnnounced (history ++ [event]) key ↔ LastAnnounced history key := by
  constructor
  · rintro ⟨before, after, heq, hafter⟩
    rcases List.eq_nil_or_concat' after with rfl | ⟨after, last, rfl⟩
    · obtain ⟨-, hlast⟩ := List.append_inj' heq rfl
      have hkey := congrArg Event.key (List.singleton_injective hlast)
      exact absurd hkey hne
    · rw [← List.cons_append, ← List.append_assoc] at heq
      obtain ⟨hhistory, -⟩ := List.append_inj' heq rfl
      exact ⟨before, after, hhistory, fun other hother => hafter other (by simp [hother])⟩
  · rintro ⟨before, after, rfl, hafter⟩
    refine ⟨before, after ++ [event], by simp, fun other hother => ?_⟩
    rcases List.mem_append.mp hother with hother | hother
    · exact hafter other hother
    · rw [List.mem_singleton.mp hother]
      exact hne

theorem LastBefore.concat {event : Event Key} {first second : Key}
    (hbefore : LastBefore history first second) (hne : event.key ≠ first) :
    LastBefore (history ++ [event]) first second := by
  obtain ⟨before, after, rfl, hfirst, hsecond⟩ := hbefore
  refine ⟨before, after ++ [event], by simp, fun other hother => ?_, ?_⟩
  · rcases List.mem_append.mp hother with hother | hother
    · exact hfirst other hother
    · rw [List.mem_singleton.mp hother]
      exact hne
  · obtain ⟨other, hother, hkey⟩ := hsecond
    exact ⟨other, List.mem_append_left _ hother, hkey⟩

theorem lastBefore_concat {event : Event Key} {first : Key} (hne : event.key ≠ first) :
    LastBefore (history ++ [event]) first event.key :=
  ⟨history, [event], rfl, fun other hother => by rw [List.mem_singleton.mp hother]; exact hne,
    event, by simp, rfl⟩

variable [DecidableEq Key]

/-- The list after one more event. -/
def note (live : List Key) (event : Event Key) : List Key :=
  let others := live.filter (· ≠ event.key)
  if event.announced then others ++ [event.key] else others

theorem Lists.note (hlists : Lists history live) (event : Event Key) :
    Lists (history ++ [event]) (note live event) := by
  have hothers : ∀ key, key ∈ live.filter (· ≠ event.key) ↔
      event.key ≠ key ∧ LastAnnounced history key := by
    intro key
    rw [List.mem_filter, hlists.mem_iff, and_comm, decide_eq_true_eq, ne_comm]
  have hordered : (live.filter (· ≠ event.key)).Pairwise (LastBefore (history ++ [event])) := by
    refine (hlists.ordered.filter _).imp_of_mem ?_
    intro first second hfirst _ hbefore
    exact hbefore.concat ((hothers first).mp hfirst).1
  unfold Recency.note
  dsimp only
  split_ifs with hannounced
  · refine ⟨fun key => ?_, ?_, ?_⟩
    · rw [List.mem_append, hothers, List.mem_singleton]
      by_cases hkey : event.key = key
      · subst hkey
        have hlast := (lastAnnounced_concat_self history event.key event.announced).mpr hannounced
        exact ⟨fun _ => hlast, fun _ => .inr rfl⟩
      · rw [lastAnnounced_concat_of_ne hkey]
        simp [hkey, Ne.symm hkey]
    · rw [List.pairwise_append]
      refine ⟨hordered, List.pairwise_singleton _ _, fun first hfirst second hsecond => ?_⟩
      rw [List.mem_singleton.mp hsecond]
      exact lastBefore_concat ((hothers first).mp hfirst).1
    · rw [List.nodup_append']
      refine ⟨hlists.nodup.filter _, List.nodup_singleton _, fun key hkey hlast => ?_⟩
      exact ((hothers key).mp hkey).1 (List.mem_singleton.mp hlast).symm
  · refine ⟨fun key => ?_, hordered, hlists.nodup.filter _⟩
    rw [hothers]
    by_cases hkey : event.key = key
    · subst hkey
      have hlast := (lastAnnounced_concat_self history event.key event.announced).not.mpr hannounced
      exact ⟨fun h => absurd rfl h.1, fun h => absurd h hlast⟩
    · rw [lastAnnounced_concat_of_ne hkey]
      simp [hkey]

/-- The last key stays last when another one is withdrawn. -/
theorem getLast?_note_of_withdrawn {event : Event Key} {last : Key}
    (hlast : live.getLast? = some last) (hne : event.key ≠ last) (hwithdrawn : event.announced = false) :
    (note live event).getLast? = some last := by
  obtain ⟨others, rfl⟩ := List.getLast?_eq_some_iff.mp hlast
  have hkept : [last].filter (· ≠ event.key) = [last] := by
    simp [Ne.symm hne]
  rw [note, hwithdrawn]
  simp only [Bool.false_eq_true, if_false, List.filter_append, hkept, List.getLast?_concat]

theorem getLast?_note_of_announced {event : Event Key} (hannounced : event.announced = true) :
    (note live event).getLast? = some event.key := by
  simp [note, hannounced]

end Sitos.Recency
