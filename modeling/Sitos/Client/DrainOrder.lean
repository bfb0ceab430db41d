import Sitos.Core.Turns
import Sitos.Client.Drain

/-!
# The order of a subscription

The log of a run tells which samples were admitted and queued, and when each call of the user
began and ended.  What was queued is what was delivered, what the drainer still has in its hands
and what is left in the queue, in this order; from this everything else follows.
-/

namespace Sitos.Drain

open Sitos.Bytes
open Sitos.Machine
open Sitos.Sample
open Sitos.Subscription
open Sitos.Tasks
open Sitos.Turns

inductive Event where
  | admitted (call : ℕ) (sample : TransportSample)
  | enqueued (item : WorkItem)
  | began (call : ℕ) (change : ParamChange)
  | ended (call : ℕ) (change : ParamChange)
  | closed (call : ℕ)

def eventsOf (shared : Shared) (call : ℕ) : Task → List Event
  | .native _ sample => if shared.accepting then [.admitted call sample] else []
  | .enqueue _ sample => [.enqueued ⟨call, sample⟩]
  | .changes _ item (change :: _) => [.began item.call change]
  | .calling _ item change _ => [.ended item.call change]
  | .close => if shared.closeFinished then [.closed call] else []
  | .closeAwait | .closeWait => [.closed call]
  | _ => []

def emits (state : State) : Action → List Event
  | .block call _ => eventsOf state.shared call (state.tasks call)
  | _ => []

/-! ## The lists of a log -/

namespace Event

def enqueues : Event → Option WorkItem
  | enqueued item => some item
  | _ => none

def begins : Event → Option (ℕ × ParamChange)
  | began call change => some (call, change)
  | _ => none

def ends : Event → Option (ℕ × ParamChange)
  | ended call change => some (call, change)
  | _ => none

end Event

def enqueued (seen : List Event) : List WorkItem := seen.filterMap Event.enqueues

def begun (seen : List Event) : List (ℕ × ParamChange) := seen.filterMap Event.begins

def ended (seen : List Event) : List (ℕ × ParamChange) := seen.filterMap Event.ends

/-- What an item is to be delivered as. -/
def dutiesOf (settings : Settings) (item : WorkItem) : List (ℕ × ParamChange) :=
  (changesOf settings item.sample).map fun change => (item.call, change)

def duties (settings : Settings) (items : List WorkItem) : List (ℕ × ParamChange) :=
  items.flatMap (dutiesOf settings)

section Lists

variable (settings : Settings) (seen events : List Event) (items more : List WorkItem)

@[simp]
theorem enqueued_append : enqueued (seen ++ events) = enqueued seen ++ enqueued events :=
  List.filterMap_append

@[simp]
theorem begun_append : begun (seen ++ events) = begun seen ++ begun events :=
  List.filterMap_append

@[simp]
theorem ended_append : ended (seen ++ events) = ended seen ++ ended events :=
  List.filterMap_append

@[simp]
theorem enqueued_nil : enqueued [] = [] := rfl

@[simp]
theorem begun_nil : begun [] = [] := rfl

variable (event : Event)

@[simp]
theorem enqueued_singleton : enqueued [event] = event.enqueues.toList := by
  cases hevent : event.enqueues with
  | _ => simp [enqueued, hevent]

@[simp]
theorem begun_singleton : begun [event] = event.begins.toList := by
  cases hevent : event.begins with
  | _ => simp [begun, hevent]

@[simp]
theorem duties_append : duties settings (items ++ more) =
    duties settings items ++ duties settings more :=
  List.flatMap_append

@[simp]
theorem duties_nil : duties settings [] = [] := rfl

theorem duties_cons (item : WorkItem) : duties settings (item :: items) =
    dutiesOf settings item ++ duties settings items :=
  List.flatMap_cons

end Lists

/-! ## The flags -/

namespace Task

/-- A native callback between its two counts. -/
def inFlight : Task → Bool
  | enqueue _ _ | await | leave | drain .native | deliver .native _ | changes .native _ _
  | calling .native _ _ _ => true
  | _ => false

def draining : Task → Bool
  | drain _ | deliver _ _ | changes _ _ _ | calling _ _ _ _ => true
  | _ => false

/-- What the drainer has taken from the queue and not yet begun to deliver. -/
def owes (settings : Settings) : Task → List (ℕ × ParamChange)
  | deliver _ item => dutiesOf settings item
  | changes _ item rest | calling _ item _ rest => rest.map fun change => (item.call, change)
  | _ => []

/-- The call of the user under way. -/
def calls : Task → Option (ℕ × ParamChange)
  | calling _ item change _ => some (item.call, change)
  | _ => none

/-- A block of `Subscribe`. -/
def subscribing : Task → Bool
  | declare _ | activate _ | handOut | fail | failWait => true
  | drain .activation | deliver .activation _ | changes .activation _ _
  | calling .activation _ _ _ => true
  | _ => false

/-- The sample that is to be queued. -/
def pending : Task → Option TransportSample
  | enqueue _ sample => some sample
  | _ => none

/-- A native callback that has not queued its sample. -/
def early : Task → Bool
  | idle | native _ _ | enqueue _ _ => true
  | _ => false

end Task

/-- What the flags say about one another. -/
structure Flags (shared : Shared) : Prop where
  staging : shared.staging = true → shared.drainer = false ∧ shared.returned = false
  undeclared : shared.declared = none → shared.staging = true
  failed : shared.declared = some false → shared.drainer = false ∧ shared.returned = false ∧
    (shared.staging = false →
      shared.accepting = false ∧ shared.queue = [] ∧ shared.nativeInFlight = 0)
  drained : shared.staging = false → shared.queue ≠ [] → shared.drainer = true
  returned : shared.returned = true → shared.staging = false ∧ shared.declared = some true
  started : shared.closeStarted = true → shared.accepting = false ∧ shared.returned = true
  finished : shared.closeFinished = true → shared.closeStarted = true ∧
    shared.nativeInFlight = 0 ∧ shared.queue = [] ∧ shared.drainer = false

/-- What a call knows of the flags at the point where it stands. -/
def Knows (shared : Shared) : Task → Prop
  | .drain _ | .deliver _ _ | .changes _ _ _ | .calling _ _ _ _ =>
      shared.drainer = true ∧ shared.staging = false ∧ shared.declared = some true
  | .declare _ => shared.declared = none
  | .activate _ => shared.declared = some true ∧ shared.staging = true
  | .handOut => shared.declared = some true ∧ shared.staging = false
  | .fail => shared.declared = some false ∧ shared.staging = true
  | .failWait =>
      shared.declared = some false ∧ shared.staging = true ∧ shared.accepting = false
  | .close | .closeAwait => shared.returned = true
  | .closeReset | .closeWait => shared.closeStarted = true
  | _ => True

section Blocks

variable {settings : Settings} {shared next : Shared} {call : ℕ} {declared : Bool}
  {task task' : Task}

/-- Whoever finds a native callback in flight after the staging finds a declared subscriber. -/
theorem Flags.declared_true (hflags : Flags shared) (hstaging : shared.staging = false)
    (hflight : shared.nativeInFlight ≠ 0) : shared.declared = some true := by
  cases hdeclared : shared.declared with
  | none =>
      have := hflags.undeclared hdeclared
      rw [hstaging] at this
      cases this
  | some outcome =>
      cases outcome with
      | true => rfl
      | false => exact absurd ((hflags.failed hdeclared).2.2 hstaging).2.2 hflight

theorem flags_onSampleBlock (hflags : Flags shared)
    (hflight : task.inFlight = true → shared.nativeInFlight ≠ 0)
    (hblock : onSampleBlock shared call task = some (next, task')) :
    Flags next ∧ Knows next task' := by
  cases task with
  | native thread sample =>
      obtain ⟨h1, h2, h3, h4, h5, h6, h7⟩ := hflags
      simp only [onSampleBlock] at hblock
      split_ifs at hblock
      · obtain ⟨rfl, rfl⟩ := Prod.mk.inj (Option.some.inj hblock)
        exact ⟨⟨h1, h2, h3, h4, h5, h6, h7⟩, trivial⟩
      · obtain ⟨rfl, rfl⟩ := Prod.mk.inj (Option.some.inj hblock)
        refine ⟨⟨h1, h2, ?_, h4, h5, h6, ?_⟩, trivial⟩
        all_goals grind
  | enqueue thread sample =>
      have hflight := hflight rfl
      have hdeclared := fun hstaging => hflags.declared_true hstaging hflight
      obtain ⟨h1, h2, h3, h4, h5, h6, h7⟩ := hflags
      simp only [onSampleBlock] at hblock
      split_ifs at hblock with hstaging hdrainer hthread
      · obtain ⟨rfl, rfl⟩ := Prod.mk.inj (Option.some.inj hblock)
        refine ⟨⟨h1, h2, ?_, ?_, h5, h6, ?_⟩, trivial⟩
        all_goals grind
      · obtain ⟨rfl, rfl⟩ := Prod.mk.inj (Option.some.inj hblock)
        have hstaging : shared.staging = false := by simpa using hstaging
        refine ⟨⟨?_, h2, ?_, ?_, h5, h6, ?_⟩, rfl, hstaging, hdeclared hstaging⟩
        all_goals grind
      · obtain ⟨rfl, rfl⟩ := Prod.mk.inj (Option.some.inj hblock)
        refine ⟨⟨h1, h2, ?_, ?_, h5, h6, ?_⟩, trivial⟩
        all_goals grind
      · obtain ⟨rfl, rfl⟩ := Prod.mk.inj (Option.some.inj hblock)
        refine ⟨⟨h1, h2, ?_, ?_, h5, h6, ?_⟩, trivial⟩
        all_goals grind
  | await =>
      simp only [onSampleBlock] at hblock
      split_ifs at hblock
      obtain ⟨rfl, rfl⟩ := Prod.mk.inj (Option.some.inj hblock)
      exact ⟨hflags, trivial⟩
  | leave =>
      obtain ⟨h1, h2, h3, h4, h5, h6, h7⟩ := hflags
      obtain ⟨rfl, rfl⟩ := Prod.mk.inj (Option.some.inj hblock)
      refine ⟨⟨h1, h2, ?_, h4, h5, h6, ?_⟩, trivial⟩
      all_goals grind
  | _ => cases hblock

theorem flags_drainBlock (hflags : Flags shared) (hknows : Knows shared task)
    (hblock : drainBlock settings shared task = some (next, task')) :
    Flags next ∧ Knows next task' := by
  obtain ⟨h1, h2, h3, h4, h5, h6, h7⟩ := hflags
  cases task with
  | drain origin =>
      obtain ⟨hdrainer, hstaging, hdeclared⟩ := hknows
      simp only [drainBlock] at hblock
      split at hblock
      · obtain ⟨rfl, rfl⟩ := Prod.mk.inj (Option.some.inj hblock)
        refine ⟨⟨fun h => ⟨rfl, (h1 h).2⟩, h2, ?_, ?_, h5, h6, ?_⟩, ?_⟩
        · exact fun h => ⟨rfl, (h3 h).2⟩
        · grind
        · grind
        · cases origin with
          | native => trivial
          | activation => exact ⟨hdeclared, hstaging⟩
      · obtain ⟨rfl, rfl⟩ := Prod.mk.inj (Option.some.inj hblock)
        refine ⟨⟨h1, h2, ?_, fun _ _ => hdrainer, h5, h6, ?_⟩, hdrainer, hstaging, hdeclared⟩
        all_goals grind
  | deliver origin item =>
      obtain ⟨rfl, rfl⟩ := Prod.mk.inj (Option.some.inj hblock)
      exact ⟨⟨h1, h2, h3, h4, h5, h6, h7⟩, hknows⟩
  | changes origin item rest =>
      cases rest with
      | nil =>
          obtain ⟨rfl, rfl⟩ := Prod.mk.inj (Option.some.inj hblock)
          exact ⟨⟨h1, h2, h3, h4, h5, h6, h7⟩, hknows⟩
      | cons change rest =>
          obtain ⟨rfl, rfl⟩ := Prod.mk.inj (Option.some.inj hblock)
          exact ⟨⟨h1, h2, h3, h4, h5, h6, h7⟩, hknows⟩
  | calling origin item change rest =>
      obtain ⟨rfl, rfl⟩ := Prod.mk.inj (Option.some.inj hblock)
      exact ⟨⟨h1, h2, h3, h4, h5, h6, h7⟩, hknows⟩
  | _ => cases hblock

theorem flags_subscribeBlock (hflags : Flags shared) (hknows : Knows shared task)
    (hblock : subscribeBlock shared declared task = some (next, task')) :
    Flags next ∧ Knows next task' := by
  obtain ⟨h1, h2, h3, h4, h5, h6, h7⟩ := hflags
  cases task with
  | declare thread =>
      have hstaging := h2 hknows
      obtain ⟨hdrainer, hreturned⟩ := h1 hstaging
      have hstaged : shared.staging = false → False := by simp [hstaging]
      cases declared with
      | false =>
          obtain ⟨rfl, rfl⟩ := Prod.mk.inj (Option.some.inj hblock)
          exact ⟨⟨h1, nofun, fun _ => ⟨hdrainer, hreturned, fun h => (hstaged h).elim⟩, h4,
            fun h => absurd h (by simp [hreturned]), h6, h7⟩, rfl, hstaging⟩
      | true =>
          obtain ⟨rfl, rfl⟩ := Prod.mk.inj (Option.some.inj hblock)
          exact ⟨⟨h1, nofun, nofun, h4, fun h => absurd h (by simp [hreturned]), h6, h7⟩, rfl,
            hstaging⟩
  | activate thread =>
      obtain ⟨hdeclared, hstaging⟩ := hknows
      simp only [subscribeBlock] at hblock
      split_ifs at hblock with hempty
      · obtain ⟨rfl, rfl⟩ := Prod.mk.inj (Option.some.inj hblock)
        have hempty := List.isEmpty_iff.mp hempty
        exact ⟨⟨nofun, fun h => absurd (hdeclared.symm.trans h) nofun,
          fun h => absurd (hdeclared.symm.trans h) nofun, fun _ h => absurd hempty h,
          fun _ => ⟨rfl, hdeclared⟩, h6, h7⟩, hdeclared, rfl⟩
      · obtain ⟨rfl, rfl⟩ := Prod.mk.inj (Option.some.inj hblock)
        have hfull : shared.queue ≠ [] := fun h => hempty (List.isEmpty_iff.mpr h)
        exact ⟨⟨nofun, fun h => absurd (hdeclared.symm.trans h) nofun,
          fun h => absurd (hdeclared.symm.trans h) nofun, fun _ _ => rfl,
          fun _ => ⟨rfl, hdeclared⟩, h6, fun h => absurd (h7 h).2.2.1 hfull⟩, rfl, rfl, hdeclared⟩
  | handOut =>
      obtain ⟨hdeclared, hstaging⟩ := hknows
      obtain ⟨rfl, rfl⟩ := Prod.mk.inj (Option.some.inj hblock)
      exact ⟨⟨fun h => absurd (hstaging.symm.trans h) nofun, h2,
        fun h => absurd (hdeclared.symm.trans h) (by simp), h4, fun _ => ⟨hstaging, hdeclared⟩,
        fun h => ⟨(h6 h).1, rfl⟩, h7⟩, trivial⟩
  | fail =>
      obtain ⟨rfl, rfl⟩ := Prod.mk.inj (Option.some.inj hblock)
      exact ⟨⟨h1, h2, fun h => ⟨(h3 h).1, (h3 h).2.1, fun h' => ⟨rfl, ((h3 h).2.2 h').2⟩⟩, h4, h5,
        fun h => ⟨rfl, (h6 h).2⟩, h7⟩, hknows.1, hknows.2, rfl⟩
  | failWait =>
      obtain ⟨hdeclared, hstaging, haccepting⟩ := hknows
      obtain ⟨hdrainer, hreturned⟩ := h1 hstaging
      simp only [subscribeBlock] at hblock
      split_ifs at hblock with hidle
      obtain ⟨rfl, rfl⟩ := Prod.mk.inj (Option.some.inj hblock)
      exact ⟨⟨nofun, fun h => absurd (hdeclared.symm.trans h) nofun,
        fun _ => ⟨hdrainer, hreturned, fun _ => ⟨haccepting, rfl, hidle⟩⟩,
        fun _ h => absurd rfl h, fun h => absurd h (by simp [hreturned]), h6,
        fun h => ⟨(h7 h).1, hidle, rfl, hdrainer⟩⟩, trivial⟩
  | _ => cases hblock

theorem flags_closeBlock (hflags : Flags shared) (hknows : Knows shared task)
    (hblock : closeBlock shared task = some (next, task')) : Flags next ∧ Knows next task' := by
  obtain ⟨h1, h2, h3, h4, h5, h6, h7⟩ := hflags
  cases task with
  | close =>
      have hreturned : shared.returned = true := hknows
      simp only [closeBlock] at hblock
      split_ifs at hblock
      · obtain ⟨rfl, rfl⟩ := Prod.mk.inj (Option.some.inj hblock)
        exact ⟨⟨h1, h2, h3, h4, h5, h6, h7⟩, trivial⟩
      · obtain ⟨rfl, rfl⟩ := Prod.mk.inj (Option.some.inj hblock)
        exact ⟨⟨h1, h2, h3, h4, h5, h6, h7⟩, hreturned⟩
      · obtain ⟨rfl, rfl⟩ := Prod.mk.inj (Option.some.inj hblock)
        obtain ⟨hstaging, hdeclared⟩ := h5 hreturned
        exact ⟨⟨nofun, fun h => absurd (hdeclared.symm.trans h) nofun,
          fun h => absurd (hdeclared.symm.trans h) (by simp), fun _ => h4 hstaging,
          fun _ => ⟨rfl, hdeclared⟩, fun _ => ⟨rfl, hreturned⟩, fun h => ⟨rfl, (h7 h).2⟩⟩, rfl⟩
  | closeAwait =>
      simp only [closeBlock] at hblock
      split_ifs at hblock
      obtain ⟨rfl, rfl⟩ := Prod.mk.inj (Option.some.inj hblock)
      exact ⟨⟨h1, h2, h3, h4, h5, h6, h7⟩, trivial⟩
  | closeReset =>
      obtain ⟨rfl, rfl⟩ := Prod.mk.inj (Option.some.inj hblock)
      exact ⟨⟨h1, h2, h3, h4, h5, h6, h7⟩, hknows⟩
  | closeWait =>
      have hstarted : shared.closeStarted = true := hknows
      simp only [closeBlock] at hblock
      split_ifs at hblock with hidle
      obtain ⟨rfl, rfl⟩ := Prod.mk.inj (Option.some.inj hblock)
      obtain ⟨hflight, hempty, hdrainer⟩ := hidle
      exact ⟨⟨h1, h2, h3, h4, h5, h6, fun _ => ⟨hstarted, hflight, List.isEmpty_iff.mp hempty,
        by simpa using hdrainer⟩⟩, trivial⟩
  | _ => cases hblock

theorem flags_block (hflags : Flags shared) (hknows : Knows shared task)
    (hflight : task.inFlight = true → shared.nativeInFlight ≠ 0)
    (hblock : block settings shared call declared task = some (next, task')) :
    Flags next ∧ Knows next task' := by
  simp only [block, Option.orElse_eq_orElse, Option.orElse_eq_or, Option.or_eq_some_iff] at hblock
  rcases hblock with hsample | ⟨-, hdrain | ⟨-, hsubscribe | ⟨-, hclose⟩⟩⟩
  · exact flags_onSampleBlock hflags hflight hsample
  · exact flags_drainBlock hflags hknows hdrain
  · exact flags_subscribeBlock hflags hknows hsubscribe
  · exact flags_closeBlock hflags hknows hclose

/-! ## What one block does -/

/-- The queue of a failed declaration is thrown away. -/
def Lost (shared : Shared) : Prop := shared.declared = some false ∧ shared.staging = false

variable (settings shared call task next task') in
/-- The role of the drainer and the count of native callbacks move with the call; what is begun,
owed and queued balances what was owed, queued and enqueued before. -/
structure Moves : Prop where
  drainer : (task'.draining = task.draining ∧ next.drainer = shared.drainer) ∨
    (task.draining = false ∧ task'.draining = true ∧ shared.drainer = false ∧
      next.drainer = true) ∨
    (task.draining = true ∧ task'.draining = false ∧ next.drainer = false) := by
      exact .inl ⟨rfl, rfl⟩
  flight : (task'.inFlight = task.inFlight ∧ next.nativeInFlight = shared.nativeInFlight) ∨
    (task.inFlight = false ∧ task'.inFlight = true ∧
      next.nativeInFlight = shared.nativeInFlight + 1) ∨
    (task.inFlight = true ∧ task'.inFlight = false ∧
      next.nativeInFlight = shared.nativeInFlight - 1) := by exact .inl ⟨rfl, rfl⟩
  balance : begun (eventsOf shared call task) ++ task'.owes settings ++
      duties settings next.queue =
    task.owes settings ++ duties settings shared.queue ++
      duties settings (enqueued (eventsOf shared call task)) ∨
    (Lost next ∧ task.draining = false ∧ task'.draining = false ∧
      next.drainer = shared.drainer) := by
      exact .inl (by simp [eventsOf, Task.owes])
  calls : task.calls.toList ++ begun (eventsOf shared call task) =
    ended (eventsOf shared call task) ++ task'.calls.toList := by rfl
  idle : task.draining = false → task.owes settings = [] ∧ task.calls = none ∧
    begun (eventsOf shared call task) = [] := by exact fun _ => ⟨rfl, rfl, rfl⟩
  idle' : task'.draining = false → task'.owes settings = [] ∧ task'.calls = none := by
    exact fun _ => ⟨rfl, rfl⟩
  subscribing : task'.subscribing = true → task.subscribing = true := by exact nofun
  declared : next.declared = shared.declared ∨
    (shared.declared = none ∧ task.subscribing = true) := by exact .inl rfl
  staging : next.staging = shared.staging ∨ task.subscribing = true := by exact .inl rfl
  opened : shared.staging = false → next.staging = false := by exact id
  accepting : shared.accepting = false → next.accepting = false := by exact id
  returned : shared.returned = true → next.returned = true := by exact id
  started : shared.closeStarted = true → next.closeStarted = true := by exact id
  finished : shared.closeFinished = true → next.closeFinished = true := by exact id
  late : task.early = false → task'.early = false := by exact fun _ => rfl
  enqueues : enqueued (eventsOf shared call task) =
    (task.pending.map (WorkItem.mk call)).toList := by rfl
  enqueued : task.pending.isSome = true → task'.early = false := by exact nofun
  admits : ∀ other sample, .admitted other sample ∈ eventsOf shared call task →
    other = call ∧ task'.pending = some sample := by exact nofun
  pending : ∀ sample, task'.pending = some sample →
    .admitted call sample ∈ eventsOf shared call task := by exact nofun
  closed : ∀ other, .closed other ∈ eventsOf shared call task → next.closeFinished = true := by
    exact nofun

theorem moves_onSampleBlock (hblock : onSampleBlock shared call task = some (next, task')) :
    Moves settings shared next call task task' := by
  cases task with
  | native thread sample =>
      simp only [onSampleBlock] at hblock
      split_ifs at hblock with haccepting
      · obtain ⟨rfl, rfl⟩ := Prod.mk.inj (Option.some.inj hblock)
        have hrefused : shared.accepting = false := by simpa using haccepting
        have hevents : eventsOf shared call (.native thread sample) = [] := by
          simp [eventsOf, hrefused]
        exact
          { balance := .inl (by simp [hevents, Task.owes])
            calls := by rw [hevents]; rfl
            idle := fun _ => ⟨rfl, rfl, by rw [hevents]; rfl⟩
            enqueues := by rw [hevents]; rfl
            admits := by simp [hevents]
            closed := by simp [hevents] }
      · obtain ⟨rfl, rfl⟩ := Prod.mk.inj (Option.some.inj hblock)
        have haccepted : shared.accepting = true := by simpa using haccepting
        have hevents : eventsOf shared call (.native thread sample) =
            [.admitted call sample] := by
          simp [eventsOf, haccepted]
        exact
          { flight := .inr (.inl ⟨rfl, rfl, rfl⟩)
            balance := .inl (by simp [hevents, Event.begins, Event.enqueues, Task.owes])
            calls := by rw [hevents]; rfl
            idle := fun _ => ⟨rfl, rfl, by rw [hevents]; rfl⟩
            late := nofun
            enqueues := by rw [hevents]; rfl
            admits := by simp [hevents, Task.pending]
            pending := by simp [hevents, Task.pending]
            closed := by simp [hevents] }
  | enqueue thread sample =>
      have hbalance : ∀ task' : Task, task'.owes settings = [] →
          begun (eventsOf shared call (.enqueue thread sample)) ++ task'.owes settings ++
            duties settings (shared.queue ++ [⟨call, sample⟩]) =
          (Task.enqueue thread sample).owes settings ++ duties settings shared.queue ++
            duties settings (enqueued (eventsOf shared call (.enqueue thread sample))) := by
        intro task' hnone
        rw [hnone]
        simp [eventsOf, Event.begins, Event.enqueues, Task.owes]
      simp only [onSampleBlock] at hblock
      split_ifs at hblock with hstaging hdrainer hthread
      · obtain ⟨rfl, rfl⟩ := Prod.mk.inj (Option.some.inj hblock)
        exact
          { balance := .inl (hbalance .leave rfl)
            enqueued := fun _ => rfl
            admits := by simp [eventsOf]
            closed := by simp [eventsOf] }
      · obtain ⟨rfl, rfl⟩ := Prod.mk.inj (Option.some.inj hblock)
        exact
          { drainer := .inr (.inl ⟨rfl, rfl, by simpa using hdrainer, rfl⟩)
            balance := .inl (hbalance (.drain .native) rfl)
            enqueued := fun _ => rfl
            admits := by simp [eventsOf]
            closed := by simp [eventsOf] }
      · obtain ⟨rfl, rfl⟩ := Prod.mk.inj (Option.some.inj hblock)
        exact
          { balance := .inl (hbalance .leave rfl)
            enqueued := fun _ => rfl
            admits := by simp [eventsOf]
            closed := by simp [eventsOf] }
      · obtain ⟨rfl, rfl⟩ := Prod.mk.inj (Option.some.inj hblock)
        exact
          { balance := .inl (hbalance .await rfl)
            enqueued := fun _ => rfl
            admits := by simp [eventsOf]
            closed := by simp [eventsOf] }
  | await =>
      simp only [onSampleBlock] at hblock
      split_ifs at hblock
      obtain ⟨rfl, rfl⟩ := Prod.mk.inj (Option.some.inj hblock)
      exact {}
  | leave =>
      obtain ⟨rfl, rfl⟩ := Prod.mk.inj (Option.some.inj hblock)
      exact { flight := .inr (.inr ⟨rfl, rfl, rfl⟩) }
  | _ => cases hblock

theorem moves_drainBlock (hblock : drainBlock settings shared task = some (next, task')) :
    Moves settings shared next call task task' := by
  cases task with
  | drain origin =>
      simp only [drainBlock] at hblock
      split at hblock
      · rename_i hqueue
        obtain ⟨rfl, rfl⟩ := Prod.mk.inj (Option.some.inj hblock)
        cases origin with
        | native =>
            exact
              { drainer := .inr (.inr ⟨rfl, rfl, rfl⟩)
                idle := nofun }
        | activation =>
            exact
              { drainer := .inr (.inr ⟨rfl, rfl, rfl⟩)
                idle := nofun
                subscribing := fun _ => rfl }
      · rename_i item queue hqueue
        obtain ⟨rfl, rfl⟩ := Prod.mk.inj (Option.some.inj hblock)
        have hbalance : dutiesOf settings item ++ duties settings queue =
            duties settings shared.queue := by
          rw [hqueue, duties_cons]
        cases origin with
        | native =>
            exact
              { balance := .inl (by simpa [eventsOf, Task.owes] using hbalance)
                idle := nofun
                idle' := nofun }
        | activation =>
            exact
              { balance := .inl (by simpa [eventsOf, Task.owes] using hbalance)
                idle := nofun
                idle' := nofun
                subscribing := fun _ => rfl }
  | deliver origin item =>
      obtain ⟨rfl, rfl⟩ := Prod.mk.inj (Option.some.inj hblock)
      cases origin with
      | native =>
          exact
            { balance := .inl (by simp [eventsOf, Task.owes, dutiesOf])
              idle := nofun
              idle' := nofun }
      | activation =>
          exact
            { balance := .inl (by simp [eventsOf, Task.owes, dutiesOf])
              idle := nofun
              idle' := nofun
              subscribing := fun _ => rfl }
  | changes origin item rest =>
      cases rest with
      | nil =>
          obtain ⟨rfl, rfl⟩ := Prod.mk.inj (Option.some.inj hblock)
          cases origin with
          | native => exact { idle := nofun }
          | activation =>
              exact
                { idle := nofun
                  subscribing := fun _ => rfl }
      | cons change rest =>
          obtain ⟨rfl, rfl⟩ := Prod.mk.inj (Option.some.inj hblock)
          cases origin with
          | native =>
              exact
                { balance := .inl
                    (by simp [eventsOf, Event.begins, Event.enqueues, Task.owes])
                  idle := nofun
                  idle' := nofun
                  admits := by simp [eventsOf]
                  closed := by simp [eventsOf] }
          | activation =>
              exact
                { balance := .inl
                    (by simp [eventsOf, Event.begins, Event.enqueues, Task.owes])
                  idle := nofun
                  idle' := nofun
                  subscribing := fun _ => rfl
                  admits := by simp [eventsOf]
                  closed := by simp [eventsOf] }
  | calling origin item change rest =>
      obtain ⟨rfl, rfl⟩ := Prod.mk.inj (Option.some.inj hblock)
      cases origin with
      | native =>
          exact
            { balance := .inl
                (by simp [eventsOf, Event.begins, Event.enqueues, Task.owes])
              idle := nofun
              idle' := nofun
              admits := by simp [eventsOf]
              closed := by simp [eventsOf] }
      | activation =>
          exact
            { balance := .inl
                (by simp [eventsOf, Event.begins, Event.enqueues, Task.owes])
              idle := nofun
              idle' := nofun
              subscribing := fun _ => rfl
              admits := by simp [eventsOf]
              closed := by simp [eventsOf] }
  | _ => cases hblock

theorem moves_subscribeBlock (hflags : Flags shared) (hknows : Knows shared task)
    (hblock : subscribeBlock shared declared task = some (next, task')) :
    Moves settings shared next call task task' := by
  cases task with
  | declare thread =>
      obtain ⟨rfl, rfl⟩ := Prod.mk.inj (Option.some.inj hblock)
      cases declared with
      | true => exact { subscribing := fun _ => rfl, declared := .inr ⟨hknows, rfl⟩ }
      | false => exact { subscribing := fun _ => rfl, declared := .inr ⟨hknows, rfl⟩ }
  | activate thread =>
      have hdrainer := (hflags.staging hknows.2).1
      simp only [subscribeBlock] at hblock
      split_ifs at hblock
      · obtain ⟨rfl, rfl⟩ := Prod.mk.inj (Option.some.inj hblock)
        exact { subscribing := fun _ => rfl, staging := .inr rfl, opened := fun _ => rfl }
      · obtain ⟨rfl, rfl⟩ := Prod.mk.inj (Option.some.inj hblock)
        exact
          { drainer := .inr (.inl ⟨rfl, rfl, hdrainer, rfl⟩)
            subscribing := fun _ => rfl
            staging := .inr rfl
            opened := fun _ => rfl }
  | handOut =>
      obtain ⟨rfl, rfl⟩ := Prod.mk.inj (Option.some.inj hblock)
      exact { returned := fun _ => rfl }
  | fail =>
      obtain ⟨rfl, rfl⟩ := Prod.mk.inj (Option.some.inj hblock)
      exact { subscribing := fun _ => rfl, accepting := fun _ => rfl }
  | failWait =>
      simp only [subscribeBlock] at hblock
      split_ifs at hblock
      obtain ⟨rfl, rfl⟩ := Prod.mk.inj (Option.some.inj hblock)
      exact
        { balance := .inr ⟨⟨hknows.1, rfl⟩, rfl, rfl, rfl⟩
          staging := .inr rfl
          opened := fun _ => rfl }
  | _ => cases hblock

theorem moves_closeBlock (hflags : Flags shared) (hknows : Knows shared task)
    (hblock : closeBlock shared task = some (next, task')) :
    Moves settings shared next call task task' := by
  cases task with
  | close =>
      simp only [closeBlock] at hblock
      split_ifs at hblock with hfinished hstarted
      · obtain ⟨rfl, rfl⟩ := Prod.mk.inj (Option.some.inj hblock)
        have hevents : eventsOf shared call .close = [.closed call] := if_pos hfinished
        exact
          { balance := .inl (by simp [hevents, Event.begins, Event.enqueues, Task.owes])
            calls := by rw [hevents]; rfl
            idle := fun _ => ⟨rfl, rfl, by rw [hevents]; rfl⟩
            enqueues := by rw [hevents]; rfl
            admits := by simp [hevents]
            closed := fun _ _ => hfinished }
      all_goals
        obtain ⟨rfl, rfl⟩ := Prod.mk.inj (Option.some.inj hblock)
        have hevents : eventsOf shared call .close = [] := if_neg hfinished
        exact
          { balance := .inl (by simp [hevents, Task.owes])
            calls := by rw [hevents]; rfl
            idle := fun _ => ⟨rfl, rfl, by rw [hevents]; rfl⟩
            staging := .inl (by simp [(hflags.returned hknows).1])
            opened := fun h => by simp [h]
            accepting := fun h => by simp [h]
            started := fun h => by simp [h]
            enqueues := by rw [hevents]; rfl
            admits := by simp [hevents]
            closed := by simp [hevents] }
  | closeAwait =>
      simp only [closeBlock] at hblock
      split_ifs at hblock with hfinished
      obtain ⟨rfl, rfl⟩ := Prod.mk.inj (Option.some.inj hblock)
      exact
        { balance := .inl (by simp [eventsOf, Event.begins, Event.enqueues, Task.owes])
          admits := by simp [eventsOf]
          closed := fun _ _ => hfinished }
  | closeReset =>
      obtain ⟨rfl, rfl⟩ := Prod.mk.inj (Option.some.inj hblock)
      exact {}
  | closeWait =>
      simp only [closeBlock] at hblock
      split_ifs at hblock
      obtain ⟨rfl, rfl⟩ := Prod.mk.inj (Option.some.inj hblock)
      exact
        { balance := .inl (by simp [eventsOf, Event.begins, Event.enqueues, Task.owes])
          finished := fun _ => rfl
          admits := by simp [eventsOf]
          closed := fun _ _ => rfl }
  | _ => cases hblock

theorem moves_block (hflags : Flags shared) (hknows : Knows shared task)
    (hblock : block settings shared call declared task = some (next, task')) :
    Moves settings shared next call task task' := by
  simp only [block, Option.orElse_eq_orElse, Option.orElse_eq_or, Option.or_eq_some_iff] at hblock
  rcases hblock with hsample | ⟨-, hdrain | ⟨-, hsubscribe | ⟨-, hclose⟩⟩⟩
  · exact moves_onSampleBlock hsample
  · exact moves_drainBlock hdrain
  · exact moves_subscribeBlock hflags hknows hsubscribe
  · exact moves_closeBlock hflags hknows hclose

theorem drainer_of_draining (hknows : Knows shared task) (hdraining : task.draining = true) :
    shared.drainer = true ∧ shared.declared = some true := by
  cases task with
  | drain _ | deliver _ _ | changes _ _ _ | calling _ _ _ _ => exact ⟨hknows.1, hknows.2.2⟩
  | _ => cases hdraining

/-- A call that does not move keeps its knowledge, for there is one drainer and one call that
subscribes. -/
theorem Knows.stays {other : Task} (hknows : Knows shared other)
    (hmoves : Moves settings shared next call task task')
    (hdrains : other.draining = true → task.draining = false)
    (hsubscribes : other.subscribing = true → task.subscribing = false) : Knows next other := by
  have hdeclared : shared.declared = some true → next.declared = some true := by
    intro htrue
    rcases hmoves.declared with hsame | ⟨hnone, -⟩
    · exact hsame.trans htrue
    · rw [htrue] at hnone
      cases hnone
  have hdrained : other.draining = true →
      shared.drainer = true ∧ shared.staging = false ∧ shared.declared = some true →
      next.drainer = true ∧ next.staging = false ∧ next.declared = some true := by
    rintro hdraining ⟨hdrainer, hstaging, htrue⟩
    refine ⟨?_, hmoves.opened hstaging, hdeclared htrue⟩
    rcases hmoves.drainer with ⟨-, hsame⟩ | ⟨-, -, -, hnow⟩ | ⟨hcaller, -⟩
    · exact hsame.trans hdrainer
    · exact hnow
    · rw [hdrains hdraining] at hcaller
      cases hcaller
  have hflags : other.subscribing = true →
      next.declared = shared.declared ∧ next.staging = shared.staging := by
    intro hsubscribing
    have hother := hsubscribes hsubscribing
    constructor
    · refine hmoves.declared.resolve_right fun hboth => ?_
      rw [hother] at hboth
      cases hboth.2
    · refine hmoves.staging.resolve_right fun hboth => ?_
      rw [hother] at hboth
      cases hboth
  cases other with
  | drain _ | deliver _ _ | changes _ _ _ | calling _ _ _ _ => exact hdrained rfl hknows
  | declare _ => exact (hflags rfl).1.trans hknows
  | activate _ => exact ⟨(hflags rfl).1.trans hknows.1, (hflags rfl).2.trans hknows.2⟩
  | handOut => exact ⟨(hflags rfl).1.trans hknows.1, (hflags rfl).2.trans hknows.2⟩
  | fail => exact ⟨(hflags rfl).1.trans hknows.1, (hflags rfl).2.trans hknows.2⟩
  | failWait =>
      exact ⟨(hflags rfl).1.trans hknows.1, (hflags rfl).2.trans hknows.2.1,
        hmoves.accepting hknows.2.2⟩
  | close => exact hmoves.returned hknows
  | closeAwait => exact hmoves.returned hknows
  | closeReset => exact hmoves.started hknows
  | closeWait => exact hmoves.started hknows
  | _ => trivial

end Blocks

/-! ## Runs -/

/-- What was queued is what began, what the drainer owes and what is left in the queue; what began
is what ended and the call under way. -/
structure Accounts (settings : Settings) (seen : List Event) (queue : List WorkItem)
    (drainer : Task) : Prop where
  owed : duties settings (enqueued seen) =
    begun seen ++ drainer.owes settings ++ duties settings queue
  calls : begun seen = ended seen ++ drainer.calls.toList

structure Ordered (settings : Settings) (seen : List Event) (state : State) : Prop where
  flags : Flags state.shared
  knows : ∀ call, Knows state.shared (state.tasks call)
  subscriber : ∀ call ≠ 0, (state.tasks call).subscribing = false
  alone : ∀ first second, first ≠ second → (state.tasks first).draining = true →
    (state.tasks second).draining = false
  manned : state.shared.drainer = true → ∃ call, (state.tasks call).draining = true
  tally : { call | (state.tasks call).inFlight = true }.encard =
    (state.shared.nativeInFlight : ℕ∞)
  busy : ∀ call, (state.tasks call).draining = true →
    Accounts settings seen state.shared.queue (state.tasks call)
  settled : state.shared.drainer = false → begun seen = ended seen ∧
    (Lost state.shared ∨ Accounts settings seen state.shared.queue .idle)
  silent : state.shared.declared ≠ some true → begun seen = []
  early : ∀ call ∈ (enqueued seen).map WorkItem.call, (state.tasks call).early = false
  admitted : ∀ call sample, .admitted call sample ∈ seen →
    (state.tasks call).pending = some sample ∨ ⟨call, sample⟩ ∈ enqueued seen
  pending : ∀ call sample, (state.tasks call).pending = some sample →
    .admitted call sample ∈ seen
  known : ∀ item ∈ enqueued seen, .admitted item.call item.sample ∈ seen
  distinct : ((enqueued seen).map WorkItem.call).Nodup
  closed : ∀ call, .closed call ∈ seen → state.shared.closeFinished = true
  after : AtEach (fun before event => ∀ call change, event = .began call change →
    ∀ other, .closed other ∉ before) seen

section Runs

variable {settings : Settings} {seen : List Event} {state next : State} {caller : ℕ}

theorem ordered_start (settings : Settings) (thread : ℕ) :
    Ordered settings [] (start thread) := by
  have hother : ∀ call ≠ 0, (start thread).tasks call = .idle := fun call hcall => by
    simp [start, hcall]
  have hfirst : (start thread).tasks 0 = .declare thread := by simp [start]
  have hinitial : ∀ call, (start thread).tasks call = .idle ∨
      (start thread).tasks call = .declare thread := by
    intro call
    by_cases hcall : call = 0
    · exact .inr (hcall ▸ hfirst)
    · exact .inl (hother call hcall)
  have hdraining : ∀ call, ((start thread).tasks call).draining = false := by
    intro call
    rcases hinitial call with htask | htask
    · rw [htask]
      rfl
    · rw [htask]
      rfl
  refine ⟨⟨fun _ => ⟨rfl, rfl⟩, fun _ => rfl, nofun, nofun, nofun, nofun, nofun⟩, ?_, ?_,
    fun _ second _ _ => hdraining second, nofun, ?_, ?_, fun _ => ⟨rfl, .inr ⟨rfl, rfl⟩⟩,
    fun _ => rfl, nofun, nofun, ?_, nofun, List.nodup_nil, nofun, atEach_nil⟩
  · intro call
    rcases hinitial call with htask | htask
    · rw [htask]
      trivial
    · rw [htask]
      rfl
  · intro call hcall
    rw [hother call hcall]
    rfl
  · have hnone : { call | ((start thread).tasks call).inFlight = true } = ∅ := by
      refine Set.eq_empty_iff_forall_notMem.mpr fun call hflight => ?_
      rcases hinitial call with htask | htask
      · rw [Set.mem_ofPred_eq, htask] at hflight
        cases hflight
      · rw [Set.mem_ofPred_eq, htask] at hflight
        cases hflight
    rw [hnone, Set.encard_empty]
    rfl
  · intro call hbusy
    rw [hdraining call] at hbusy
    cases hbusy
  · intro call sample hpending
    rcases hinitial call with htask | htask
    · rw [htask] at hpending
      cases hpending
    · rw [htask] at hpending
      cases hpending

theorem Accounts.step {events : List Event} {queue queue' : List WorkItem} {task task' : Task}
    (haccounts : Accounts settings seen queue task)
    (hbalance : begun events ++ task'.owes settings ++ duties settings queue' =
      task.owes settings ++ duties settings queue ++ duties settings (enqueued events))
    (hcalls : task.calls.toList ++ begun events = ended events ++ task'.calls.toList) :
    Accounts settings (seen ++ events) queue' task' where
  owed := by
    calc duties settings (enqueued (seen ++ events))
        = duties settings (enqueued seen) ++ duties settings (enqueued events) := by
          rw [enqueued_append, duties_append]
      _ = begun seen ++ (task.owes settings ++ duties settings queue ++
            duties settings (enqueued events)) := by
          rw [haccounts.owed]
          simp only [List.append_assoc]
      _ = begun seen ++ (begun events ++ task'.owes settings ++ duties settings queue') := by
          rw [hbalance]
      _ = begun (seen ++ events) ++ task'.owes settings ++ duties settings queue' := by
          rw [begun_append]
          simp only [List.append_assoc]
  calls := by
    calc begun (seen ++ events)
        = ended seen ++ (task.calls.toList ++ begun events) := by
          rw [begun_append, haccounts.calls, List.append_assoc]
      _ = ended seen ++ (ended events ++ task'.calls.toList) := by rw [hcalls]
      _ = ended (seen ++ events) ++ task'.calls.toList := by
          rw [ended_append, List.append_assoc]

theorem eventsOf_cases (shared : Shared) (call : ℕ) (task : Task) :
    eventsOf shared call task = [] ∨ ∃ event, eventsOf shared call task = [event] := by
  cases task with
  | native thread sample =>
      rw [eventsOf]
      split_ifs
      · exact .inr ⟨_, rfl⟩
      · exact .inl rfl
  | changes origin item rest =>
      cases rest with
      | nil => exact .inl rfl
      | cons change rest => exact .inr ⟨_, rfl⟩
  | close =>
      rw [eventsOf]
      split_ifs
      · exact .inr ⟨_, rfl⟩
      · exact .inl rfl
  | enqueue _ _ | calling _ _ _ _ | closeAwait | closeWait => exact .inr ⟨_, rfl⟩
  | _ => exact .inl rfl

theorem Ordered.inFlight (hordered : Ordered settings seen state) {call : ℕ}
    (hflight : (state.tasks call).inFlight = true) : state.shared.nativeInFlight ≠ 0 := by
  intro hzero
  have htally := hordered.tally
  rw [hzero, Nat.cast_zero, Set.encard_eq_zero] at htally
  exact Set.eq_empty_iff_forall_notMem.mp htally call hflight

section Replace

variable {shared : Shared} {task' : Task} (hordered : Ordered settings seen state)
  (hmoves : Moves settings state.shared shared caller (state.tasks caller) task')
include hordered hmoves

omit hordered hmoves in
theorem early_of_pending {task : Task} {sample : TransportSample}
    (hpending : task.pending = some sample) : task.early = true := by
  cases task with
  | enqueue _ _ => rfl
  | _ => cases hpending

/-- A call that does not move keeps its knowledge. -/
theorem Ordered.others (other : ℕ) (hother : other ≠ caller) :
    Knows shared (state.tasks other) := by
  refine (hordered.knows other).stays hmoves (fun hdraining => ?_) fun hsubscribing => ?_
  · exact hordered.alone other caller hother hdraining
  · by_cases hzero : other = 0
    · exact hordered.subscriber caller fun hcaller => hother (hzero.trans hcaller.symm)
    · rw [hordered.subscriber other hzero] at hsubscribing
      cases hsubscribing

/-- Nobody else drains when the call does. -/
theorem Ordered.sole (hdraining : task'.draining = true) (other : ℕ) (hother : other ≠ caller) :
    (state.tasks other).draining = false := by
  rcases hmoves.drainer with ⟨hsame, -⟩ | ⟨-, -, hfree, -⟩ | ⟨-, hnot, -⟩
  · exact hordered.alone caller other (Ne.symm hother) (hsame.symm.trans hdraining)
  · by_contra hbusy
    have := (drainer_of_draining (hordered.knows other) (by simpa using hbusy)).1
    rw [hfree] at this
    cases this
  · rw [hdraining] at hnot
    cases hnot

theorem Ordered.alone_replace (first second : ℕ) (hne : first ≠ second) :
    ((state.replace caller shared task').tasks first).draining = true →
      ((state.replace caller shared task').tasks second).draining = false := by
  by_cases hfirst : first = caller
  · subst hfirst
    rw [Config.replace_self, Config.replace_of_ne _ _ _ (Ne.symm hne)]
    exact fun hdraining => hordered.sole hmoves hdraining second (Ne.symm hne)
  · rw [Config.replace_of_ne _ _ _ hfirst]
    by_cases hsecond : second = caller
    · subst hsecond
      rw [Config.replace_self]
      intro hdraining
      by_contra hnow
      rw [hordered.sole hmoves (by simpa using hnow) first hfirst] at hdraining
      cases hdraining
    · rw [Config.replace_of_ne _ _ _ hsecond]
      exact hordered.alone first second hne

theorem Ordered.manned_replace (hdrainer : shared.drainer = true) :
    ∃ call, ((state.replace caller shared task').tasks call).draining = true := by
  rcases hmoves.drainer with ⟨hsame, hflag⟩ | ⟨-, hnow, -, -⟩ | ⟨-, -, hnot⟩
  · obtain ⟨call, hdraining⟩ := hordered.manned (hflag.symm.trans hdrainer)
    by_cases hcall : call = caller
    · refine ⟨caller, ?_⟩
      rw [Config.replace_self, hsame, ← hcall]
      exact hdraining
    · refine ⟨call, ?_⟩
      rw [Config.replace_of_ne _ _ _ hcall]
      exact hdraining
  · refine ⟨caller, ?_⟩
    rw [Config.replace_self]
    exact hnow
  · rw [hdrainer] at hnot
    cases hnot

theorem Ordered.tally_replace :
    { call | ((state.replace caller shared task').tasks call).inFlight = true }.encard =
      (shared.nativeInFlight : ℕ∞) := by
  rcases hmoves.flight with ⟨hsame, hcount⟩ | ⟨hbefore, hnow, hcount⟩ | ⟨hbefore, hnow, hcount⟩
  · rw [hcount]
    exact tally_same hordered.tally hsame shared
  · rw [hcount]
    exact tally_enters hordered.tally hbefore hnow shared
  · rw [hcount]
    exact tally_leaves hordered.tally hbefore hnow shared

omit hordered in
theorem Lost.stays (hlost : Lost state.shared) : Lost shared := by
  refine ⟨(hmoves.declared.resolve_right fun hboth => ?_).trans hlost.1, hmoves.opened hlost.2⟩
  rw [hlost.1] at hboth
  cases hboth.1

/-- The accounts of the call that drains after its block. -/
theorem Ordered.accounts_self (hknows : Knows shared task') (hdraining : task'.draining = true) :
    Accounts settings (seen ++ eventsOf state.shared caller (state.tasks caller)) shared.queue
      task' := by
  have hbalance := hmoves.balance.resolve_right fun hlost => by
    rw [hdraining] at hlost
    cases hlost.2.2.1
  rcases hmoves.drainer with ⟨hsame, -⟩ | ⟨hidle, -, hfree, -⟩ | ⟨-, hnot, -⟩
  · exact (hordered.busy caller (hsame.symm.trans hdraining)).step hbalance hmoves.calls
  · obtain ⟨howes, hcalls, -⟩ := hmoves.idle hidle
    obtain ⟨-, hlost | haccounts⟩ := hordered.settled hfree
    · have hfailed := (hlost.stays hmoves).1
      rw [(drainer_of_draining hknows hdraining).2] at hfailed
      cases hfailed
    · refine haccounts.step ?_ ?_
      · rw [hbalance, howes]
        rfl
      · rw [← hmoves.calls, hcalls]
        rfl
  · rw [hdraining] at hnot
    cases hnot

/-- The accounts of another drainer. -/
theorem Ordered.accounts_other {other : ℕ} (hother : other ≠ caller)
    (hdraining : (state.tasks other).draining = true) :
    Accounts settings (seen ++ eventsOf state.shared caller (state.tasks caller)) shared.queue
      (state.tasks other) := by
  have hidle := hordered.alone other caller hother hdraining
  have hidle' : task'.draining = false := by
    by_contra hnow
    have := hordered.sole hmoves (by simpa using hnow) other hother
    rw [hdraining] at this
    cases this
  obtain ⟨howes, hcalls, hbegun⟩ := hmoves.idle hidle
  obtain ⟨howes', hcalls'⟩ := hmoves.idle' hidle'
  have hbalance := hmoves.balance.resolve_right fun hlost => by
    have htrue := (drainer_of_draining (hordered.others hmoves other hother) hdraining).2
    rw [hlost.1.1] at htrue
    cases htrue
  have hended := hmoves.calls
  rw [howes, howes', hbegun] at hbalance
  rw [hcalls, hcalls', hbegun] at hended
  refine (hordered.busy other hdraining).step ?_ ?_
  · calc _ = (state.tasks other).owes settings ++ duties settings shared.queue := by rw [hbegun]; rfl
      _ = (state.tasks other).owes settings ++ (duties settings state.shared.queue ++
            duties settings (Drain.enqueued (eventsOf state.shared caller (state.tasks caller)))) :=
          congrArg _ hbalance
      _ = _ := (List.append_assoc ..).symm
  · have hnone : ended (eventsOf state.shared caller (state.tasks caller)) = [] := by
      simpa using hended.symm
    rw [hbegun, hnone, List.append_nil]
    rfl

theorem Ordered.settled_replace (hfree : shared.drainer = false) :
    begun (seen ++ eventsOf state.shared caller (state.tasks caller)) =
        ended (seen ++ eventsOf state.shared caller (state.tasks caller)) ∧
      (Lost shared ∨
        Accounts settings (seen ++ eventsOf state.shared caller (state.tasks caller)) shared.queue
          .idle) := by
  have hsettles : ∀ task : Task, task'.draining = false →
      Accounts settings seen state.shared.queue task →
      task.owes settings = (state.tasks caller).owes settings →
      task.calls = (state.tasks caller).calls →
      begun (seen ++ eventsOf state.shared caller (state.tasks caller)) =
          ended (seen ++ eventsOf state.shared caller (state.tasks caller)) ∧
        (Lost shared ∨
          Accounts settings (seen ++ eventsOf state.shared caller (state.tasks caller)) shared.queue
            .idle) := by
    intro task hidle' haccounts howes hcalls
    obtain ⟨howes', hcalls'⟩ := hmoves.idle' hidle'
    have hsaid := hmoves.calls
    rw [hcalls', ← hcalls] at hsaid
    refine ⟨?_, hmoves.balance.symm.imp (fun hlost => hlost.1) fun hbalance => ?_⟩
    · have hnone : ended (eventsOf state.shared caller (state.tasks caller)) =
          task.calls.toList ++ begun (eventsOf state.shared caller (state.tasks caller)) := by
        simpa using hsaid.symm
      rw [begun_append, ended_append, hnone, haccounts.calls, List.append_assoc]
    · rw [howes', ← howes] at hbalance
      exact haccounts.step hbalance hsaid
  rcases hmoves.drainer with ⟨hsame, hflag⟩ | ⟨-, -, -, hnow⟩ | ⟨hdraining, hidle', -⟩
  · have hfree' := hflag.symm.trans hfree
    have hidle : (state.tasks caller).draining = false := by
      by_contra hdraining
      have := (drainer_of_draining (hordered.knows caller) (by simpa using hdraining)).1
      rw [hfree'] at this
      cases this
    obtain ⟨howes, hcalls, hbegun⟩ := hmoves.idle hidle
    obtain ⟨hsame', hlost | haccounts⟩ := hordered.settled hfree'
    · obtain ⟨-, hcalls'⟩ := hmoves.idle' (hsame.trans hidle)
      have hsaid := hmoves.calls
      rw [hcalls, hcalls', hbegun] at hsaid
      refine ⟨?_, .inl (hlost.stays hmoves)⟩
      have hnone : ended (eventsOf state.shared caller (state.tasks caller)) = [] := by
        simpa using hsaid.symm
      rw [begun_append, ended_append, hbegun, hnone, hsame']
    · exact hsettles .idle (hsame.trans hidle) haccounts howes.symm hcalls.symm
  · rw [hfree] at hnow
    cases hnow
  · exact hsettles (state.tasks caller) hidle' (hordered.busy caller hdraining) rfl rfl

theorem Ordered.distinct_replace :
    ((enqueued (seen ++ eventsOf state.shared caller (state.tasks caller))).map
      WorkItem.call).Nodup := by
  rw [enqueued_append, List.map_append, hmoves.enqueues]
  cases hpending : (state.tasks caller).pending with
  | none =>
      rw [Option.map_none, Option.toList_none, List.map_nil, List.append_nil]
      exact hordered.distinct
  | some sample =>
      refine List.nodup_append.mpr ⟨hordered.distinct, List.nodup_singleton _, ?_⟩
      intro call hcall other hother
      rw [List.mem_singleton.mp hother]
      rintro rfl
      have hlate := hordered.early _ hcall
      rw [early_of_pending hpending] at hlate
      cases hlate

theorem Ordered.after_replace :
    AtEach (fun before event => ∀ call change, event = .began call change →
      ∀ other, .closed other ∉ before)
      (seen ++ eventsOf state.shared caller (state.tasks caller)) := by
  rcases eventsOf_cases state.shared caller (state.tasks caller) with hnone | ⟨event, hevent⟩
  · rw [hnone, List.append_nil]
    exact hordered.after
  · rw [hevent]
    refine hordered.after.snoc fun call change hbegan other hclosed => ?_
    have hdraining : (state.tasks caller).draining = true := by
      by_contra hidle
      have hnone := (hmoves.idle (by simpa using hidle)).2.2
      rw [hevent, hbegan, begun_singleton] at hnone
      cases hnone
    have hfinished := hordered.flags.finished (hordered.closed other hclosed)
    have hdrainer := (drainer_of_draining (hordered.knows caller) hdraining).1
    rw [hfinished.2.2.2] at hdrainer
    cases hdrainer

theorem Ordered.replace (hflags : Flags shared) (hknows : Knows shared task') :
    Ordered settings (seen ++ eventsOf state.shared caller (state.tasks caller))
      (state.replace caller shared task') := by
  refine ⟨hflags, Config.replace_forall (fun _ => Knows shared) hknows (hordered.others hmoves),
    ?_, hordered.alone_replace hmoves, hordered.manned_replace hmoves,
    hordered.tally_replace hmoves, ?_, hordered.settled_replace hmoves, ?_, ?_, ?_, ?_, ?_,
    hordered.distinct_replace hmoves, ?_, hordered.after_replace hmoves⟩
  · refine Config.replace_forall (fun call (task : Task) => call ≠ 0 → task.subscribing = false)
      (fun hcaller => ?_) fun other _ => hordered.subscriber other
    by_contra hsubscribing
    have := hmoves.subscribing (by simpa using hsubscribing)
    rw [hordered.subscriber caller hcaller] at this
    cases this
  · exact Config.replace_forall
      (fun _ (task : Task) => task.draining = true → Accounts settings _ shared.queue task)
      (hordered.accounts_self hmoves hknows) fun other hother =>
        hordered.accounts_other hmoves hother
  · intro hfailed
    have hbefore : state.shared.declared ≠ some true := by
      intro htrue
      rcases hmoves.declared with hsame | ⟨hnone, -⟩
      · exact hfailed (hsame.trans htrue)
      · rw [htrue] at hnone
        cases hnone
    have hidle : (state.tasks caller).draining = false := by
      by_contra hdraining
      exact hbefore (drainer_of_draining (hordered.knows caller) (by simpa using hdraining)).2
    rw [begun_append, hordered.silent hbefore, (hmoves.idle hidle).2.2]
    rfl
  · intro call hmem
    rw [enqueued_append, List.map_append, hmoves.enqueues] at hmem
    rcases List.mem_append.mp hmem with hold | hnew
    · by_cases hcall : call = caller
      · subst hcall
        rw [Config.replace_self]
        exact hmoves.late (hordered.early call hold)
      · rw [Config.replace_of_ne _ _ _ hcall]
        exact hordered.early call hold
    · cases hpending : (state.tasks caller).pending with
      | none =>
          rw [hpending] at hnew
          cases hnew
      | some sample =>
          rw [hpending] at hnew
          rw [List.mem_singleton.mp hnew, Config.replace_self]
          exact hmoves.enqueued (by rw [hpending]; rfl)
  · intro call sample hmem
    rw [enqueued_append, hmoves.enqueues]
    rcases List.mem_append.mp hmem with hold | hnew
    · by_cases hcall : call = caller
      · subst hcall
        right
        rcases hordered.admitted call sample hold with hpending | hmem
        · rw [hpending]
          exact List.mem_append_right _ (List.mem_singleton.mpr rfl)
        · exact List.mem_append_left _ hmem
      · rw [Config.replace_of_ne _ _ _ hcall]
        exact (hordered.admitted call sample hold).imp_right (List.mem_append_left _)
    · obtain ⟨rfl, hpending⟩ := hmoves.admits call sample hnew
      left
      rw [Config.replace_self]
      exact hpending
  · refine Config.replace_forall
      (fun call (task : Task) => ∀ sample, task.pending = some sample →
        Event.admitted call sample ∈ seen ++ eventsOf state.shared caller (state.tasks caller))
      (fun sample hpending => List.mem_append_right _ (hmoves.pending sample hpending))
      fun other _ sample hpending =>
        List.mem_append_left _ (hordered.pending other sample hpending)
  · intro item hmem
    rw [enqueued_append, hmoves.enqueues] at hmem
    rcases List.mem_append.mp hmem with hold | hnew
    · exact List.mem_append_left _ (hordered.known item hold)
    · cases hpending : (state.tasks caller).pending with
      | none =>
          rw [hpending] at hnew
          cases hnew
      | some sample =>
          rw [hpending] at hnew
          rw [List.mem_singleton.mp hnew]
          exact List.mem_append_left _ (hordered.pending caller sample hpending)
  · intro call hmem
    rcases List.mem_append.mp hmem with hold | hnew
    · exact hmoves.finished (hordered.closed call hold)
    · exact hmoves.closed call hnew

end Replace

theorem Ordered.step {action : Action} (hordered : Ordered settings seen state)
    (hstep : step settings state action = some next) :
    Ordered settings (seen ++ emits state action) next := by
  cases action with
  | sample call thread sample =>
      simp only [Drain.step] at hstep
      split at hstep
      · rename_i hidle
        obtain rfl := Option.some.inj hstep
        have hmoves : Moves settings state.shared state.shared call (state.tasks call)
            (.native thread sample) := by
          rw [hidle]
          exact { late := nofun }
        have hnext := hordered.replace hmoves hordered.flags trivial
        rw [hidle] at hnext
        exact hnext
      · cases hstep
  | close call =>
      simp only [Drain.step] at hstep
      split at hstep
      · rename_i hidle
        split_ifs at hstep with hreturned
        obtain rfl := Option.some.inj hstep
        have hmoves : Moves settings state.shared state.shared call (state.tasks call) .close := by
          rw [hidle]
          exact {}
        have hnext := hordered.replace hmoves hordered.flags hreturned
        rw [hidle] at hnext
        exact hnext
      · cases hstep
  | block call declared =>
      obtain ⟨⟨shared, task'⟩, hblock, rfl⟩ := Option.map_eq_some_iff.mp hstep
      have hknows := hordered.knows call
      obtain ⟨hflags, hknows'⟩ := flags_block hordered.flags hknows hordered.inFlight hblock
      exact hordered.replace (moves_block hordered.flags hknows hblock) hflags hknows'

theorem ordered_run {thread : ℕ} {actions : List Action}
    (hrun : run (step settings) (start thread) actions = some state) :
    Ordered settings (log (step settings) emits (start thread) actions) state :=
  run_log emits (Ordered settings) (ordered_start settings thread)
    (fun _ _ _ _ _ hordered hstep => hordered.step hstep) hrun

/-! ## What a run shows -/

/-- Each sample that was admitted is queued once, and each change of what was queued is delivered
once, in order, one call of the user at a time. -/
structure ExactlyOnce (settings : Settings) (seen : List Event) (state : State) : Prop where
  queued : ∀ call sample, .admitted call sample ∈ seen →
    (state.tasks call).pending = some sample ∨ ⟨call, sample⟩ ∈ enqueued seen
  known : ∀ item ∈ enqueued seen, .admitted item.call item.sample ∈ seen
  distinct : ((enqueued seen).map WorkItem.call).Nodup
  turns : InTurn (duties settings (enqueued seen)) (begun seen) (ended seen)

/-- Nothing that was admitted is left. -/
structure Delivered (settings : Settings) (seen : List Event) : Prop where
  queued : ∀ call sample, .admitted call sample ∈ seen → ⟨call, sample⟩ ∈ enqueued seen
  ended : ended seen = duties settings (enqueued seen)

/-- After the staging somebody drains what is queued, and can go on. -/
def Manned (settings : Settings) (state : State) : Prop :=
  state.shared.staging = false → state.shared.queue ≠ [] →
    ∃ call, (state.tasks call).draining = true ∧
      ∀ declared, (step settings state (.block call declared)).isSome = true

theorem Ordered.exactlyOnce (hordered : Ordered settings seen state) :
    ExactlyOnce settings seen state := by
  refine ⟨hordered.admitted, hordered.known, hordered.distinct, ?_⟩
  have hturns : ∀ task : Task, Accounts settings seen state.shared.queue task →
      InTurn (duties settings (enqueued seen)) (begun seen) (ended seen) := by
    intro task haccounts
    refine ⟨?_, ?_, ?_⟩
    · rw [haccounts.owed, List.append_assoc]
      exact List.prefix_append ..
    · rw [haccounts.calls]
      exact List.prefix_append ..
    · rw [haccounts.calls, List.length_append]
      exact Nat.add_le_add_left (Option.length_toList_le ..) _
  cases hdrainer : state.shared.drainer with
  | true =>
      obtain ⟨call, hdraining⟩ := hordered.manned hdrainer
      exact hturns _ (hordered.busy call hdraining)
  | false =>
      obtain ⟨hsame, hlost | haccounts⟩ := hordered.settled hdrainer
      · have hnone : begun seen = [] := hordered.silent (by rw [hlost.1]; simp)
        rw [← hsame, hnone]
        exact ⟨List.nil_prefix, List.prefix_refl _, Nat.zero_le _⟩
      · exact hturns _ haccounts

theorem Ordered.delivered (hordered : Ordered settings seen state)
    (hdeclared : state.shared.declared = some true) (hflight : state.shared.nativeInFlight = 0)
    (hqueue : state.shared.queue = []) (hdrainer : state.shared.drainer = false) :
    Delivered settings seen := by
  constructor
  · intro call sample hadmitted
    refine (hordered.admitted call sample hadmitted).resolve_left fun hpending => ?_
    have hearly : (state.tasks call).inFlight ≠ true := fun hnow => hordered.inFlight hnow hflight
    refine hearly ?_
    cases htask : state.tasks call with
    | enqueue _ _ => rfl
    | _ =>
        rw [htask] at hpending
        cases hpending
  · obtain ⟨hsame, hlost | haccounts⟩ := hordered.settled hdrainer
    · rw [hlost.1] at hdeclared
      cases hdeclared
    · have howed := haccounts.owed
      rw [hqueue, duties_nil, List.append_nil] at howed
      rw [howed, ← hsame]
      exact (List.append_nil _).symm

theorem drainBlock_isSome (settings : Settings) (shared : Shared) {task : Task}
    (hdraining : task.draining = true) : (drainBlock settings shared task).isSome = true := by
  cases task with
  | drain origin =>
      simp only [drainBlock]
      split
      · rfl
      · rfl
  | deliver origin item => rfl
  | changes origin item rest =>
      cases rest with
      | nil => rfl
      | cons change rest => rfl
  | calling origin item change rest => rfl
  | _ => cases hdraining

theorem Ordered.drains (hordered : Ordered settings seen state) : Manned settings state := by
  intro hstaging hqueue
  obtain ⟨call, hdraining⟩ := hordered.manned (hordered.flags.drained hstaging hqueue)
  refine ⟨call, hdraining, fun declared => ?_⟩
  obtain ⟨next, hblock⟩ := Option.isSome_iff_exists.mp
    (drainBlock_isSome settings state.shared hdraining)
  rw [Drain.step, Option.isSome_map, block]
  cases onSampleBlock state.shared call (state.tasks call) with
  | none => simp [hblock]
  | some next => rfl

/-- However native callbacks, the declaration, its activation and closes interleave: what was
admitted is queued once and delivered in order; after the staging a queue that is not empty has a
drainer; a failed declaration delivers nothing; and once a close has returned everything was
delivered, nothing is being delivered and nothing ever will be. -/
theorem subscription_delivery (settings : Settings) (thread : ℕ) (actions : List Action)
    (state : State) (hrun : run (step settings) (start thread) actions = some state) :
    let seen := log (step settings) emits (start thread) actions
    ExactlyOnce settings seen state ∧ Manned settings state ∧
    (state.shared.declared = some true → state.shared.nativeInFlight = 0 →
      state.shared.queue = [] → state.shared.drainer = false → Delivered settings seen) ∧
    (state.shared.declared = some false → begun seen = []) ∧
    (∀ call, .closed call ∈ seen → Delivered settings seen ∧
      ∀ other, (state.tasks other).calls = none) ∧
    (∀ before call change after, seen = before ++ Event.began call change :: after →
      ∀ other, .closed other ∉ before) := by
  intro seen
  have hordered : Ordered settings seen state := ordered_run hrun
  refine ⟨hordered.exactlyOnce, hordered.drains, hordered.delivered, ?_, ?_, ?_⟩
  · intro hfailed
    exact hordered.silent (by rw [hfailed]; simp)
  · intro call hclosed
    obtain ⟨hstarted, hflight, hqueue, hdrainer⟩ :=
      hordered.flags.finished (hordered.closed call hclosed)
    have hdeclared := (hordered.flags.returned (hordered.flags.started hstarted).2).2
    refine ⟨hordered.delivered hdeclared hflight hqueue hdrainer, fun other => ?_⟩
    by_contra hcalls
    have hdraining : (state.tasks other).draining = true := by
      cases htask : state.tasks other with
      | calling _ _ _ _ => rfl
      | _ =>
          rw [htask] at hcalls
          exact absurd rfl hcalls
    have hbusy := (drainer_of_draining (hordered.knows other) hdraining).1
    rw [hdrainer] at hbusy
    cases hbusy
  · intro before call change after hsplit
    exact hordered.after before _ after hsplit call change rfl

end Runs

/-- A sample is staged, the declaration succeeds, and while the user is called for it another
sample arrives on the same thread and a third on another; the subscription is closed meanwhile. -/
theorem subscription_delivery_nested :
    ∃ (settings : Settings) (actions : List Action) (state : State),
      run (step settings) (start 0) actions = some state ∧
      (enqueued (log (step settings) emits (start 0) actions)).map WorkItem.call = [1, 2, 3] ∧
      .closed 4 ∈ log (step settings) emits (start 0) actions ∧
      Delivered settings (log (step settings) emits (start 0) actions) := by
  let settings : Settings := ⟨ascii "p", .base, []⟩
  let sample (key : String) : TransportSample := ⟨.put, ascii ("p/base/" ++ key), ascii "raw", []⟩
  let actions : List Action :=
    List.flatten
      [Action.sample 1 1 (sample "a") :: List.replicate 3 (.block 1 true),
        List.replicate 5 (.block 0 true),
        Action.sample 2 0 (sample "b") :: List.replicate 3 (.block 2 true),
        Action.sample 3 1 (sample "c") :: List.replicate 2 (.block 3 true),
        List.replicate 14 (.block 0 true),
        List.replicate 2 (.block 3 true),
        Action.close 4 :: List.replicate 3 (.block 4 true)]
  obtain ⟨hqueued, hclosed, hends⟩ :
      (enqueued (log (step settings) emits (start 0) actions)).map WorkItem.call = [1, 2, 3] ∧
      (log (step settings) emits (start 0) actions).any (fun event =>
        match event with
        | .closed call => call == 4
        | _ => false) = true ∧
      (run (step settings) (start 0) actions).isSome = true := by
    decide +kernel
  obtain ⟨state, hrun⟩ := Option.isSome_iff_exists.mp hends
  have hmem : .closed 4 ∈ log (step settings) emits (start 0) actions := by
    obtain ⟨event, hmem, hevent⟩ := List.any_eq_true.mp hclosed
    cases event with
    | closed call => exact eq_of_beq hevent ▸ hmem
    | _ => cases hevent
  obtain ⟨-, -, -, -, hdone, -⟩ := subscription_delivery settings 0 actions state hrun
  exact ⟨settings, actions, state, hrun, hqueued, hmem, (hdone 4 hmem).1⟩

end Sitos.Drain
