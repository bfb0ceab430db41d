import Mathlib

/-!
# Partial step machines

A machine is a step function that may refuse an action.  A run feeds a list of
actions; a refused action ends it.  Invariants are proved one step at a time
and carried to whole runs by the rules below.
-/

namespace Sitos.Machine

/-- Whether the allocation inside a call succeeds. -/
inductive Memory where
  | available
  | exhausted
  deriving DecidableEq, Repr

variable {State Action : Type*}

/-- Runs the actions in order; `none` when some action is refused. -/
def run (step : State → Action → Option State) : State → List Action → Option State
  | state, [] => some state
  | state, action :: actions => (step state action).bind fun next => run step next actions

variable {step : State → Action → Option State}

@[simp]
theorem run_nil (state : State) : run step state [] = some state := rfl

theorem run_cons (state : State) (action : Action) (actions : List Action) :
    run step state (action :: actions) =
      (step state action).bind fun next => run step next actions := rfl

theorem run_append (state : State) (left right : List Action) :
    run step state (left ++ right) =
      (run step state left).bind fun middle => run step middle right := by
  induction left generalizing state with
  | nil => rfl
  | cons action left ih =>
      rw [List.cons_append, run_cons, run_cons]
      cases step state action with
      | none => rfl
      | some next => exact ih next

/-- What every accepted step preserves holds along every run. -/
theorem run_invariant {Invariant : State → Prop}
    (hstep : ∀ state action next, Invariant state → step state action = some next →
      Invariant next)
    {start finish : State} {actions : List Action} (hstart : Invariant start)
    (hrun : run step start actions = some finish) : Invariant finish := by
  induction actions generalizing start with
  | nil =>
      obtain rfl := Option.some.inj hrun
      exact hstart
  | cons action actions ih =>
      rw [run_cons] at hrun
      cases hnext : step start action with
      | none => simp [hnext] at hrun
      | some next =>
          rw [hnext] at hrun
          exact ih (hstep start action next hstart hnext) hrun

/-- Every step of the run meets a condition on the state before it. -/
def Throughout (step : State → Action → Option State) (Meets : State → Action → Prop) :
    State → List Action → Prop
  | _, [] => True
  | state, action :: actions =>
      Meets state action ∧
        match step state action with
        | none => True
        | some next => Throughout step Meets next actions

instance decidableThroughout (step : State → Action → Option State)
    (Meets : State → Action → Prop) [∀ state action, Decidable (Meets state action)] :
    ∀ state actions, Decidable (Throughout step Meets state actions)
  | _, [] => .isTrue trivial
  | state, action :: actions =>
      match hstep : step state action with
      | none =>
          decidable_of_iff (Meets state action) (by simp [Throughout, hstep])
      | some next =>
          have := decidableThroughout step Meets next actions
          decidable_of_iff (Meets state action ∧ Throughout step Meets next actions)
            (by simp [Throughout, hstep])

/-- A relation that every accepted step satisfies, and that composes, relates
the ends of every run. -/
theorem run_relation {Related : State → State → Prop} (hrefl : ∀ state, Related state state)
    (htrans : ∀ first second third, Related first second → Related second third →
      Related first third)
    (hstep : ∀ state action next, step state action = some next → Related state next)
    {start finish : State} {actions : List Action}
    (hrun : run step start actions = some finish) : Related start finish := by
  induction actions generalizing start with
  | nil =>
      obtain rfl := Option.some.inj hrun
      exact hrefl start
  | cons action actions ih =>
      rw [run_cons] at hrun
      cases hnext : step start action with
      | none => simp [hnext] at hrun
      | some next =>
          rw [hnext] at hrun
          exact htrans start next finish (hstep start action next hnext) (ih hrun)

/-- What holds of the actions made so far and the state they lead to. -/
theorem run_history {start : State} (Invariant : List Action → State → Prop)
    (hstart : Invariant [] start)
    (hstep : ∀ actions state action next, run step start actions = some state →
      Invariant actions state → step state action = some next →
      Invariant (actions ++ [action]) next)
    {actions : List Action} {finish : State} (hrun : run step start actions = some finish) :
    Invariant actions finish := by
  induction actions using List.reverseRecOn generalizing finish with
  | nil =>
      obtain rfl := Option.some.inj hrun
      exact hstart
  | append_singleton actions action ih =>
      rw [run_append] at hrun
      obtain ⟨middle, hmiddle, hlast⟩ := Option.bind_eq_some_iff.mp hrun
      obtain ⟨next, hnext, hrest⟩ := Option.bind_eq_some_iff.mp hlast
      obtain rfl := Option.some.inj hrest
      exact hstep actions middle action next hmiddle (ih hmiddle) hnext

section Log

variable {Event : Type*} (emits : State → Action → List Event)

/-- What the steps of a run let be seen, in order. -/
def log (step : State → Action → Option State) (emits : State → Action → List Event) :
    State → List Action → List Event
  | _, [] => []
  | state, action :: actions =>
      match step state action with
      | none => []
      | some next => emits state action ++ log step emits next actions

/-- What holds of the log so far and the state it leads to. -/
theorem run_log {start finish : State} {actions : List Action}
    (Invariant : List Event → State → Prop) (hstart : Invariant [] start)
    (hstep : ∀ seen state action next, action ∈ actions → Invariant seen state →
      step state action = some next → Invariant (seen ++ emits state action) next)
    (hrun : run step start actions = some finish) :
    Invariant (log step emits start actions) finish := by
  suffices hfrom : ∀ seen, Invariant seen start →
      Invariant (seen ++ log step emits start actions) finish from hfrom [] hstart
  clear hstart
  induction actions generalizing start with
  | nil =>
      intro seen hseen
      obtain rfl := Option.some.inj hrun
      rw [log, List.append_nil]
      exact hseen
  | cons action actions ih =>
      intro seen hseen
      rw [run_cons] at hrun
      obtain ⟨next, hnext, hrest⟩ := Option.bind_eq_some_iff.mp hrun
      rw [log, hnext, ← List.append_assoc]
      refine ih (fun seen state action next hmem => ?_) hrest _
        (hstep seen start action next List.mem_cons_self hseen hnext)
      exact hstep seen state action next (List.mem_cons_of_mem _ hmem)

/-- Something holds of every event and of what was seen before it. -/
def AtEach (Fits : List Event → Event → Prop) (seen : List Event) : Prop :=
  ∀ before event after, seen = before ++ event :: after → Fits before event

theorem atEach_nil {Fits : List Event → Event → Prop} : AtEach Fits [] := by
  intro before event after hnil
  cases before with
  | nil => cases hnil
  | cons _ _ => cases hnil

theorem AtEach.snoc {Fits : List Event → Event → Prop} {seen : List Event} {event : Event}
    (hseen : AtEach Fits seen) (hevent : Fits seen event) : AtEach Fits (seen ++ [event]) := by
  intro before other after hsplit
  rcases List.eq_nil_or_concat after with rfl | ⟨after, last, rfl⟩
  · obtain ⟨rfl, hlast⟩ := List.append_inj' hsplit rfl
    obtain rfl := List.head_eq_of_cons_eq hlast
    exact hevent
  · rw [List.concat_eq_append, ← List.cons_append, ← List.append_assoc] at hsplit
    obtain ⟨hinit, -⟩ := List.append_inj' hsplit rfl
    exact hseen before other after hinit

/-- An event that fits wherever it is seen. -/
theorem AtEach.append {Fits : List Event → Event → Prop} {seen events : List Event}
    (hseen : AtEach Fits seen) (hevents : ∀ event ∈ events, ∀ before, Fits before event) :
    AtEach Fits (seen ++ events) := by
  induction events using List.reverseRecOn with
  | nil =>
      rw [List.append_nil]
      exact hseen
  | append_singleton events event ih =>
      rw [← List.append_assoc]
      refine (ih fun other hother => hevents other (List.mem_append_left _ hother)).snoc ?_
      exact hevents event (List.mem_append_right _ (List.mem_singleton.mpr rfl)) _

end Log

variable (step) in
/-- Something was so at a moment of the run, its end included. -/
def Once (start : State) (actions : List Action) (Was : State → Prop) : Prop :=
  ∃ earlier before, earlier <+: actions ∧ run step start earlier = some before ∧ Was before

theorem once_now {start finish : State} {actions : List Action} {Was : State → Prop}
    (hrun : run step start actions = some finish) (hwas : Was finish) :
    Once step start actions Was :=
  ⟨actions, finish, List.prefix_refl _, hrun, hwas⟩

theorem Once.later {start : State} {actions : List Action} {Was : State → Prop}
    (honce : Once step start actions Was) (later : List Action) :
    Once step start (actions ++ later) Was := by
  obtain ⟨earlier, before, hprefix, hrun, hwas⟩ := honce
  exact ⟨earlier, before, hprefix.trans (List.prefix_append ..), hrun, hwas⟩

end Sitos.Machine
