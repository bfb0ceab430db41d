import Mathlib

/-!
# Tasks over shared state

Any number of tasks work on one shared state, one atomic block at a time.  An
invariant has three parts: what holds of the shared state, what each task may
rely on at the point where it stands, and what two tasks never are at once.  A
block keeps the whole invariant when it keeps the first two for itself and
disturbs no other task.
-/

namespace Sitos.Tasks

structure Config (Shared Task : Type*) where
  shared : Shared
  tasks : ℕ → Task

variable {Shared Task : Type*}

/-- One task has made a block. -/
def Config.replace (config : Config Shared Task) (task : ℕ) (shared : Shared) (next : Task) :
    Config Shared Task where
  shared := shared
  tasks := Function.update config.tasks task next

@[simp]
theorem Config.replace_shared (config : Config Shared Task) (task : ℕ) (shared : Shared)
    (next : Task) : (config.replace task shared next).shared = shared := rfl

@[simp]
theorem Config.replace_self (config : Config Shared Task) (task : ℕ) (shared : Shared)
    (next : Task) : (config.replace task shared next).tasks task = next :=
  Function.update_self ..

theorem Config.replace_of_ne (config : Config Shared Task) {task other : ℕ} (shared : Shared)
    (next : Task) (hother : other ≠ task) :
    (config.replace task shared next).tasks other = config.tasks other :=
  Function.update_of_ne hother ..

/-- What holds of the task that has moved and held of the others holds of all. -/
theorem Config.replace_forall (Fits : ℕ → Task → Prop) {config : Config Shared Task} {task : ℕ}
    {shared : Shared} {next : Task} (hself : Fits task next)
    (hothers : ∀ other ≠ task, Fits other (config.tasks other)) (other : ℕ) :
    Fits other ((config.replace task shared next).tasks other) := by
  by_cases hother : other = task
  · subst hother
    rw [Config.replace_self]
    exact hself
  · rw [Config.replace_of_ne _ _ _ hother]
    exact hothers other hother

/-! ## How many tasks there are of a kind -/

section Tally

variable {config : Config Shared Task} {test : Task → Bool} {count : ℕ} {task : ℕ} {next : Task}

theorem tally_same (htally : { i | test (config.tasks i) = true }.encard = (count : ℕ∞))
    (hnext : test next = test (config.tasks task)) (shared : Shared) :
    { i | test ((config.replace task shared next).tasks i) = true }.encard = (count : ℕ∞) := by
  have hset : { i | test ((config.replace task shared next).tasks i) = true } =
      { i | test (config.tasks i) = true } := by
    ext i
    by_cases hi : i = task
    · subst hi
      simp [hnext]
    · simp [Config.replace_of_ne _ _ _ hi]
  rw [hset]
  exact htally

theorem tally_enters (htally : { i | test (config.tasks i) = true }.encard = (count : ℕ∞))
    (hbefore : test (config.tasks task) = false) (hnext : test next = true) (shared : Shared) :
    { i | test ((config.replace task shared next).tasks i) = true }.encard =
      ((count + 1 : ℕ) : ℕ∞) := by
  have hset : { i | test ((config.replace task shared next).tasks i) = true } =
      insert task { i | test (config.tasks i) = true } := by
    ext i
    by_cases hi : i = task
    · subst hi
      simp [hnext]
    · simp [Config.replace_of_ne _ _ _ hi, hi]
  have hnew : task ∉ { i | test (config.tasks i) = true } := by simp [hbefore]
  rw [hset, Set.encard_insert_of_notMem hnew, htally]
  rfl

theorem tally_leaves (htally : { i | test (config.tasks i) = true }.encard = (count : ℕ∞))
    (hbefore : test (config.tasks task) = true) (hnext : test next = false) (shared : Shared) :
    { i | test ((config.replace task shared next).tasks i) = true }.encard =
      ((count - 1 : ℕ) : ℕ∞) := by
  have hset : { i | test ((config.replace task shared next).tasks i) = true } =
      { i | test (config.tasks i) = true } \ {task} := by
    ext i
    by_cases hi : i = task
    · subst hi
      simp [hnext]
    · simp [Config.replace_of_ne _ _ _ hi, hi]
  have hold : task ∈ { i | test (config.tasks i) = true } := hbefore
  rw [hset, Set.encard_sdiff_singleton_of_mem hold, htally]
  simp

/-- A count of tasks after one of them has moved. -/
def moved (before after : Bool) (count : ℕ) : ℕ :=
  match before, after with
  | false, true => count + 1
  | true, false => count - 1
  | _, _ => count

@[simp]
theorem moved_self (test : Bool) (count : ℕ) : moved test test count = count := by
  cases test <;> rfl

theorem tally_moved (htally : { i | test (config.tasks i) = true }.encard = (count : ℕ∞))
    (shared : Shared) :
    { i | test ((config.replace task shared next).tasks i) = true }.encard =
      (moved (test (config.tasks task)) (test next) count : ℕ∞) := by
  cases hbefore : test (config.tasks task) with
  | false =>
      cases hnext : test next with
      | false => exact tally_same htally (hnext.trans hbefore.symm) shared
      | true => exact tally_enters htally hbefore hnext shared
  | true =>
      cases hnext : test next with
      | false => exact tally_leaves htally hbefore hnext shared
      | true => exact tally_same htally (hnext.trans hbefore.symm) shared

theorem tally_pos (htally : { i | test (config.tasks i) = true }.encard = (count : ℕ∞))
    (htask : test (config.tasks task) = true) : 0 < count := by
  by_contra hzero
  obtain rfl : count = 0 := by omega
  have hempty := Set.encard_eq_zero.mp htally
  exact absurd htask (Set.eq_empty_iff_forall_notMem.mp hempty task)

end Tally

variable {Holds : Shared → Prop} {At : Shared → Task → Prop} {Compatible : Task → Task → Prop}

structure Invariant (Holds : Shared → Prop) (At : Shared → Task → Prop)
    (Compatible : Task → Task → Prop) (config : Config Shared Task) : Prop where
  shared : Holds config.shared
  task : ∀ task, At config.shared (config.tasks task)
  compatible : ∀ first second, first ≠ second →
    Compatible (config.tasks first) (config.tasks second)

/-- What a block owes to the other tasks. -/
def Undisturbed (At : Shared → Task → Prop) (Compatible : Task → Task → Prop)
    (shared : Shared) (task : Task) (shared' : Shared) (task' : Task) : Prop :=
  ∀ other, At shared other → Compatible task other → At shared' other ∧ Compatible task' other

/-- A block of one task keeps the invariant of all. -/
theorem Invariant.replace (hsymm : ∀ first second : Task, Compatible first second →
      Compatible second first)
    {config : Config Shared Task} (hinv : Invariant Holds At Compatible config) {task : ℕ}
    {shared : Shared} {next : Task} (hshared : Holds shared) (hnext : At shared next)
    (hothers : Undisturbed At Compatible config.shared (config.tasks task) shared next) :
    Invariant Holds At Compatible (config.replace task shared next) where
  shared := hshared
  task := Config.replace_forall (fun _ => At shared) hnext fun other hother =>
    (hothers _ (hinv.task other) (hinv.compatible task other (Ne.symm hother))).1
  compatible := by
    have hwith : ∀ other ≠ task, Compatible next (config.tasks other) := fun other hother =>
      (hothers _ (hinv.task other) (hinv.compatible task other (Ne.symm hother))).2
    intro first second hne
    by_cases hfirst : first = task
    · subst hfirst
      rw [Config.replace_self, Config.replace_of_ne _ _ _ (Ne.symm hne)]
      exact hwith second (Ne.symm hne)
    · by_cases hsecond : second = task
      · subst hsecond
        rw [Config.replace_self, Config.replace_of_ne _ _ _ hfirst]
        exact hsymm _ _ (hwith first hfirst)
      · rw [Config.replace_of_ne _ _ _ hfirst, Config.replace_of_ne _ _ _ hsecond]
        exact hinv.compatible first second hne

/-- The shared state changes and no task moves. -/
theorem Invariant.setShared {config : Config Shared Task}
    (hinv : Invariant Holds At Compatible config) {shared : Shared} (hshared : Holds shared)
    (htasks : ∀ task, At config.shared task → At shared task) :
    Invariant Holds At Compatible { config with shared } where
  shared := hshared
  task := fun task => htasks _ (hinv.task task)
  compatible := hinv.compatible

end Sitos.Tasks
