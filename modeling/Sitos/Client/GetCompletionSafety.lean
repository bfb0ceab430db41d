import Sitos.Client.GetCompletion

/-!
# Delivery of a query is safe

The state of the request is a function of what has happened: of the first failure or stop, whichever
came first.  Who has passed the check of the state entered before anything had ended the delivery,
since whoever ends it holds the lock until the state says so.
-/

namespace Sitos.GetCompletion

open Sitos.Bytes
open Sitos.Machine
open Sitos.Tasks

namespace Task

/-- Between taking the delivery lock and giving it back. -/
def inside : Task → Bool
  | .isActive | .convert | .accept _ | .deliver _ | .calling _ | .stop | .fail _ | .unlock => true
  | _ => false

def processing : Task → Bool
  | .lock => true
  | task => task.inside

def enrolled : Task → Bool
  | .leased enrolled => enrolled
  | task => task.processing

/-- Past the check of the state and before the sink. -/
def passed : Task → Bool
  | .convert | .accept _ | .deliver _ => true
  | _ => false

/-- About to end the delivery. -/
def ending : Task → Bool
  | .stop | .fail _ => true
  | _ => false

def isCalling : Task → Bool
  | .calling _ => true
  | _ => false

end Task

/-! ## What has happened -/

/-- What the first failure or stop makes of the request. -/
def deliveryOf : List Event → DeliveryState
  | [] => .active
  | .stopped _ :: _ => .stoppedBySink
  | .failure _ failure :: _ => .failed failure.recorded
  | _ :: events => deliveryOf events

/-- An event after which nothing more may be delivered. -/
def Event.ends : Event → Bool
  | .answered _ .stop | .answered _ .threw | .failure _ _ => true
  | _ => false

def calledKeys (events : List Event) : List ByteString :=
  events.filterMap fun event => match event with | .called _ key => some key | _ => none

theorem deliveryOf_append (seen events : List Event) : deliveryOf (seen ++ events) =
    if deliveryOf seen = .active then deliveryOf events else deliveryOf seen := by
  induction seen with
  | nil => rfl
  | cons event seen ih =>
      cases event with
      | stopped task => rfl
      | failure task failure => rfl
      | entered task => exact ih
      | called task key => exact ih
      | answered task answer => exact ih
      | returned task result => exact ih

theorem calledKeys_append (seen events : List Event) :
    calledKeys (seen ++ events) = calledKeys seen ++ calledKeys events :=
  List.filterMap_append

theorem mem_calledKeys {seen : List Event} {key : ByteString} :
    key ∈ calledKeys seen ↔ ∃ task, .called task key ∈ seen := by
  simp only [calledKeys, List.mem_filterMap]
  constructor
  · rintro ⟨event, hevent, hkey⟩
    cases event with
    | called task other =>
        obtain rfl := Option.some.inj hkey
        exact ⟨task, hevent⟩
    | _ => cases hkey
  · rintro ⟨task, hevent⟩
    exact ⟨_, hevent, rfl⟩

/-- The last time a task entered, and what had happened by then. -/
def Entered (Before : List Event → Prop) (task : ℕ) (seen : List Event) : Prop :=
  ∃ before after, seen = before ++ .entered task :: after ∧ .entered task ∉ after ∧ Before before

/-- Nothing has ended the delivery. -/
def Open (seen : List Event) : Prop := ∀ event ∈ seen, event.ends = false

theorem Entered.append {Before : List Event → Prop} {task : ℕ} {seen events : List Event}
    (hentered : Entered Before task seen) (hevents : .entered task ∉ events) :
    Entered Before task (seen ++ events) := by
  obtain ⟨before, after, rfl, hafter, hbefore⟩ := hentered
  refine ⟨before, after ++ events, by simp, ?_, hbefore⟩
  intro hmem
  rcases List.mem_append.mp hmem with hold | hnew
  · exact hafter hold
  · exact hevents hnew

theorem Entered.mono {Before Before' : List Event → Prop} {task : ℕ} {seen : List Event}
    (hentered : Entered Before task seen)
    (hmono : ∀ before, before <+: seen → Before before → Before' before) :
    Entered Before' task seen := by
  obtain ⟨before, after, hseen, hafter, hbefore⟩ := hentered
  exact ⟨before, after, hseen, hafter, hmono before (hseen ▸ List.prefix_append _ _) hbefore⟩

/-! ## What a block does -/

/-- What an action of a task changes. -/
structure Moves (name : ℕ) (shared : Shared) (task : Task) (made : Move) : Prop where
  dropped : made.shared.dropped = shared.dropped
  delivery : made.shared.deliveryState =
    if shared.deliveryState = .active then deliveryOf made.events else shared.deliveryState
  keys : ∀ key ∈ shared.deliveredKeys, key ∈ made.shared.deliveredKeys
  lock : (made.task.inside = task.inside ∧ made.shared.deliveryLocked = shared.deliveryLocked) ∨
    (task.inside = false ∧ shared.deliveryLocked = false ∧ made.shared.deliveryLocked = true) ∨
    (task.inside = true ∧ made.task.inside = false)
  count : (made.task.enrolled = task.enrolled ∧ made.shared.inFlight = shared.inFlight) ∨
    (task.enrolled = false ∧ made.task.enrolled = true ∧ shared.dropped = false ∧
      made.shared.inFlight = shared.inFlight + 1) ∨
    (task.enrolled = true ∧ made.task.enrolled = false ∧
      made.shared.inFlight = shared.inFlight - 1)
  entered : made.task.processing = true →
    (task.processing = true ∧ .entered name ∉ made.events) ∨ made.events = [.entered name]
  others : ∀ other, other ≠ name → .entered other ∉ made.events
  passed : made.task.passed = true → task.passed = true ∨
    (task = .isActive ∧ shared.deliveryState = .active)
  quiet : made.task.passed = true → made.events = []
  accepts : ∀ key, made.task = .deliver key →
    key ∈ made.shared.deliveredKeys ∧ key ∉ shared.deliveredKeys
  called : (∀ other key, .called other key ∉ made.events) ∨
    ∃ key, task = .deliver key ∧ made.events = [.called name key]
  ending : task.ending = true → made.shared.deliveryState ≠ .active
  ends : ∀ event ∈ made.events, event.ends = true →
    made.shared.deliveryState ≠ .active ∨ made.task.ending = true
  returned : (∀ other result, .returned other result ∉ made.events) ∨
    (shared.dropped = true ∧ shared.inFlight = 0 ∧
      made.events = [.returned name (resultOf shared.deliveryState)])

section Blocks

variable {name : ℕ} {shared : Shared} {task : Task} {made : Move}

/-- A block of a callback that goes on under the lock and is not heard of. -/
theorem moves_inside {task' : Task} (htask : task.inside = true) (htask' : task'.inside = true)
    (hpassed : task'.passed = true → task.passed = true ∨
      (task = .isActive ∧ shared.deliveryState = .active))
    (haccepts : ∀ key, task' ≠ .deliver key) (hending : task.ending = false) :
    Moves name shared task ⟨shared, task', []⟩ where
  dropped := rfl
  delivery := by
    split_ifs with hactive
    · exact hactive
    · rfl
  keys _ hkey := hkey
  lock := .inl ⟨htask'.trans htask.symm, rfl⟩
  count := by
    have henrolled {task : Task} (hinside : task.inside = true) : task.enrolled = true := by
      cases task <;> first | rfl | cases hinside
    exact .inl ⟨(henrolled htask').trans (henrolled htask).symm, rfl⟩
  entered _ := by
    have hprocessing : task.processing = true := by
      cases task <;> first | rfl | cases htask
    exact .inl ⟨hprocessing, nofun⟩
  others _ _ := nofun
  passed := hpassed
  quiet _ := rfl
  accepts key htask := absurd htask (haccepts key)
  called := .inl fun _ _ => nofun
  ending h := absurd h (by simp [hending])
  ends := nofun
  returned := .inl fun _ _ => nofun

theorem recordFailure_deliveryState (shared : Shared) (failure : Failure) :
    (shared.recordFailure failure).deliveryState =
      if shared.deliveryState = .active then .failed failure.recorded
      else shared.deliveryState := by
  unfold Shared.recordFailure
  split_ifs
  · rfl
  · rfl

theorem recordFailure_same (shared : Shared) (failure : Failure) :
    (shared.recordFailure failure).dropped = shared.dropped ∧
      (shared.recordFailure failure).inFlight = shared.inFlight ∧
      (shared.recordFailure failure).deliveredKeys = shared.deliveredKeys ∧
      (shared.recordFailure failure).deliveryLocked = shared.deliveryLocked := by
  unfold Shared.recordFailure
  split_ifs
  · exact ⟨rfl, rfl, rfl, rfl⟩
  · exact ⟨rfl, rfl, rfl, rfl⟩

/-- A failure is recorded, and the task goes on where it is or gives the lock back. -/
theorem moves_recordFailure (failure : Failure) {task' : Task} (hinside : task'.inside = task.inside)
    (henrolled : task'.enrolled = task.enrolled) (hpassed : task'.passed = false)
    (hprocessing : task'.processing = task.processing) (haccepts : ∀ key, task' ≠ .deliver key) :
    Moves name shared task ⟨shared.recordFailure failure, task', [.failure name failure]⟩ := by
  obtain ⟨hdropped, hcount, hkeys, hlocked⟩ := recordFailure_same shared failure
  have hdelivery := recordFailure_deliveryState shared failure
  have hended : (shared.recordFailure failure).deliveryState ≠ .active := by
    rw [hdelivery]
    split_ifs with hactive
    · exact nofun
    · exact hactive
  exact
    { dropped := hdropped
      delivery := hdelivery
      keys := fun key hkey => hkeys ▸ hkey
      lock := .inl ⟨hinside, hlocked⟩
      count := .inl ⟨henrolled, hcount⟩
      entered := fun h => .inl ⟨hprocessing.symm.trans h, by simp⟩
      others := fun _ _ => by simp
      passed := fun h => absurd h (by simp [hpassed])
      quiet := fun h => absurd h (by simp [hpassed])
      accepts := fun key htask => absurd htask (haccepts key)
      called := .inl fun _ _ => by simp
      ending := fun _ => hended
      ends := fun _ _ _ => .inl hended
      returned := .inl fun _ _ => by simp }

/-- A block that is not heard of, leaves the delivery alone and ends outside the lock. -/
theorem moves_outside {shared' : Shared} {task' : Task} (hdropped : shared'.dropped = shared.dropped)
    (hdelivery : shared'.deliveryState = shared.deliveryState)
    (hkeys : shared'.deliveredKeys = shared.deliveredKeys) (htask' : task'.processing = false)
    (hending : task.ending = false)
    (hlock : (task.inside = false ∧ shared'.deliveryLocked = shared.deliveryLocked) ∨
      task.inside = true)
    (hcount : (task'.enrolled = task.enrolled ∧ shared'.inFlight = shared.inFlight) ∨
      (task.enrolled = false ∧ task'.enrolled = true ∧ shared.dropped = false ∧
        shared'.inFlight = shared.inFlight + 1) ∨
      (task.enrolled = true ∧ task'.enrolled = false ∧ shared'.inFlight = shared.inFlight - 1)) :
    Moves name shared task ⟨shared', task', []⟩ := by
  have hinside : task'.inside = false := by
    cases task' <;> first | rfl | cases htask'
  have hpassed : task'.passed = false := by
    cases task' <;> first | rfl | cases htask'
  exact
    { dropped := hdropped
      delivery := by
        split_ifs with hactive
        · exact hdelivery.trans hactive
        · exact hdelivery
      keys := fun key hkey => hkeys ▸ hkey
      lock := by
        rcases hlock with ⟨houtside, hlocked⟩ | hheld
        · exact .inl ⟨hinside.trans houtside.symm, hlocked⟩
        · exact .inr (.inr ⟨hheld, hinside⟩)
      count := hcount
      entered := fun h => absurd h (by simp [htask'])
      others := fun _ _ => nofun
      passed := fun h => absurd h (by simp [hpassed])
      quiet := fun _ => rfl
      accepts := fun key h => by
        rw [show task' = .deliver key from h] at hpassed
        cases hpassed
      called := .inl fun _ _ => nofun
      ending := fun h => absurd h (by simp [hending])
      ends := nofun
      returned := .inl fun _ _ => nofun }

/-- The lock is taken, the check still to come. -/
theorem moves_lock (hlocked : shared.deliveryLocked = false) :
    Moves name shared .lock ⟨{ shared with deliveryLocked := true }, .isActive, []⟩ where
  dropped := rfl
  delivery := by
    split_ifs with hactive
    · exact hactive
    · rfl
  keys _ hkey := hkey
  lock := .inr (.inl ⟨rfl, hlocked, rfl⟩)
  count := .inl ⟨rfl, rfl⟩
  entered _ := .inl ⟨rfl, nofun⟩
  others _ _ := nofun
  passed := nofun
  quiet := nofun
  accepts _ := nofun
  called := .inl fun _ _ => nofun
  ending := nofun
  ends := nofun
  returned := .inl fun _ _ => nofun

/-- A key that has not been seen goes to the sink. -/
theorem moves_accept {key : ByteString} (hnew : key ∉ shared.deliveredKeys) :
    Moves name shared (.accept key)
      ⟨{ shared with deliveredKeys := key :: shared.deliveredKeys }, .deliver key, []⟩ where
  dropped := rfl
  delivery := by
    split_ifs with hactive
    · exact hactive
    · rfl
  keys _ hkey := List.mem_cons_of_mem _ hkey
  lock := .inl ⟨rfl, rfl⟩
  count := .inl ⟨rfl, rfl⟩
  entered _ := .inl ⟨rfl, nofun⟩
  others _ _ := nofun
  passed _ := .inl rfl
  quiet _ := rfl
  accepts other hother := by
    obtain rfl := Task.deliver.inj hother
    exact ⟨List.mem_cons_self, hnew⟩
  called := .inl fun _ _ => nofun
  ending := nofun
  ends := nofun
  returned := .inl fun _ _ => nofun

theorem moves_deliver (key : ByteString) :
    Moves name shared (.deliver key) ⟨shared, .calling key, [.called name key]⟩ where
  dropped := rfl
  delivery := by
    split_ifs with hactive
    · exact hactive
    · rfl
  keys _ hkey := hkey
  lock := .inl ⟨rfl, rfl⟩
  count := .inl ⟨rfl, rfl⟩
  entered _ := .inl ⟨rfl, by simp⟩
  others _ _ := by simp
  passed := nofun
  quiet := nofun
  accepts _ := nofun
  called := .inr ⟨key, rfl, rfl⟩
  ending := nofun
  ends event hevent hends := by
    obtain rfl := List.mem_singleton.mp hevent
    cases hends
  returned := .inl fun _ _ => by simp

/-- The sink has answered; unless it wants more, the task is about to end the delivery. -/
theorem moves_answered {key : ByteString} {answer : Answer} {task' : Task}
    (htask' : task' = .unlock ∨ task'.ending = true) (hends : answer ≠ .more → task'.ending = true) :
    Moves name shared (.calling key) ⟨shared, task', [.answered name answer]⟩ := by
  have hinside : task'.inside = true ∧ task'.enrolled = true ∧ task'.passed = false := by
    rcases htask' with rfl | hending
    · exact ⟨rfl, rfl, rfl⟩
    · cases task' <;> first | exact ⟨rfl, rfl, rfl⟩ | cases hending
  exact
    { dropped := rfl
      delivery := by
        split_ifs with hactive
        · exact hactive
        · rfl
      keys := fun _ hkey => hkey
      lock := .inl ⟨hinside.1, rfl⟩
      count := .inl ⟨hinside.2.1, rfl⟩
      entered := fun _ => .inl ⟨rfl, by simp⟩
      others := fun _ _ => by simp
      passed := fun h => absurd h (by simp [hinside.2.2])
      quiet := fun h => absurd h (by simp [hinside.2.2])
      accepts := fun key h => by
        rw [show task' = .deliver key from h] at hinside
        cases hinside.2.2
      called := .inl fun _ _ => by simp
      ending := nofun
      ends := by
        intro event hevent hended
        obtain rfl := List.mem_singleton.mp hevent
        have hanswer : answer ≠ .more := by
          rintro rfl
          cases hended
        exact .inr (hends hanswer)
      returned := .inl fun _ _ => by simp }

theorem stopBySink_deliveryState (shared : Shared) : shared.stopBySink.deliveryState =
    if shared.deliveryState = .active then .stoppedBySink else shared.deliveryState := by
  unfold Shared.stopBySink
  split_ifs
  · rfl
  · rfl

theorem stopBySink_same (shared : Shared) : shared.stopBySink.dropped = shared.dropped ∧
    shared.stopBySink.inFlight = shared.inFlight ∧
    shared.stopBySink.deliveredKeys = shared.deliveredKeys ∧
    shared.stopBySink.deliveryLocked = shared.deliveryLocked := by
  unfold Shared.stopBySink
  split_ifs
  · exact ⟨rfl, rfl, rfl, rfl⟩
  · exact ⟨rfl, rfl, rfl, rfl⟩

theorem moves_stop : Moves name shared .stop ⟨shared.stopBySink, .unlock, [.stopped name]⟩ := by
  obtain ⟨hdropped, hcount, hkeys, hlocked⟩ := stopBySink_same shared
  have hdelivery := stopBySink_deliveryState shared
  have hended : shared.stopBySink.deliveryState ≠ .active := by
    rw [hdelivery]
    split_ifs with hactive
    · exact nofun
    · exact hactive
  exact
    { dropped := hdropped
      delivery := hdelivery
      keys := fun key hkey => hkeys ▸ hkey
      lock := .inl ⟨rfl, hlocked⟩
      count := .inl ⟨rfl, hcount⟩
      entered := fun _ => .inl ⟨rfl, by simp⟩
      others := fun _ _ => by simp
      passed := nofun
      quiet := nofun
      accepts := fun _ => nofun
      called := .inl fun _ _ => by simp
      ending := fun _ => hended
      ends := fun _ _ _ => .inl hended
      returned := .inl fun _ _ => by simp }

theorem moves_returned (hdropped : shared.dropped = true) (hcount : shared.inFlight = 0) :
    Moves name shared .wait ⟨shared, .idle, [.returned name (resultOf shared.deliveryState)]⟩ where
  dropped := rfl
  delivery := by
    split_ifs with hactive
    · exact hactive
    · rfl
  keys _ hkey := hkey
  lock := .inl ⟨rfl, rfl⟩
  count := .inl ⟨rfl, rfl⟩
  entered := nofun
  others _ _ := by simp
  passed := nofun
  quiet := nofun
  accepts _ := nofun
  called := .inl fun _ _ => by simp
  ending := nofun
  ends event hevent hends := by
    obtain rfl := List.mem_singleton.mp hevent
    cases hends
  returned := .inr ⟨hdropped, hcount, rfl⟩

theorem moves_entered :
    Moves name shared (.leased true) ⟨shared, .lock, [.entered name]⟩ where
  dropped := rfl
  delivery := by
    split_ifs with hactive
    · exact hactive
    · rfl
  keys _ hkey := hkey
  lock := .inl ⟨rfl, rfl⟩
  count := .inl ⟨rfl, rfl⟩
  entered _ := .inr rfl
  others other hother := by simpa using hother
  passed := nofun
  quiet := nofun
  accepts _ := nofun
  called := .inl fun _ _ => by simp
  ending := nofun
  ends event hevent hends := by
    obtain rfl := List.mem_singleton.mp hevent
    cases hends
  returned := .inl fun _ _ => by simp

theorem moves_processReplyBlock {choice : Choice}
    (hmove : processReplyBlock shared choice name task = some made) : Moves name shared task made := by
  cases task with
  | idle => cases hmove
  | leased _ => cases hmove
  | wait => cases hmove
  | lock =>
      rw [processReplyBlock] at hmove
      split_ifs at hmove with hlocked
      obtain rfl := Option.some.inj hmove
      exact moves_lock (Bool.eq_false_iff.mpr hlocked)
  | isActive =>
      obtain rfl := Option.some.inj hmove
      split_ifs with hactive
      · exact moves_inside rfl rfl (fun _ => .inr ⟨rfl, hactive⟩) (fun _ => nofun) rfl
      · exact moves_inside rfl rfl nofun (fun _ => nofun) rfl
  | convert =>
      rw [processReplyBlock] at hmove
      cases hconversion : choice.conversion with
      | reply key =>
          rw [hconversion] at hmove
          obtain rfl := Option.some.inj hmove
          exact moves_inside rfl rfl (fun _ => .inl rfl) (fun _ => nofun) rfl
      | failed status cause =>
          rw [hconversion] at hmove
          obtain rfl := Option.some.inj hmove
          exact moves_inside rfl rfl nofun (fun _ => nofun) rfl
      | threw =>
          rw [hconversion] at hmove
          obtain rfl := Option.some.inj hmove
          exact moves_inside rfl rfl nofun (fun _ => nofun) rfl
  | accept key =>
      rw [processReplyBlock] at hmove
      by_cases hactive : shared.deliveryState ≠ .active
      · rw [if_pos hactive] at hmove
        obtain rfl := Option.some.inj hmove
        exact moves_inside rfl rfl nofun (fun _ => nofun) rfl
      rw [if_neg hactive] at hmove
      cases hmemory : choice.memory with
      | exhausted =>
          rw [hmemory] at hmove
          obtain rfl := Option.some.inj hmove
          exact moves_inside rfl rfl nofun (fun _ => nofun) rfl
      | available =>
          simp only [hmemory] at hmove
          split_ifs at hmove with hknown
          · obtain rfl := Option.some.inj hmove
            exact moves_inside rfl rfl nofun (fun _ => nofun) rfl
          · obtain rfl := Option.some.inj hmove
            exact moves_accept hknown
  | deliver key =>
      rw [processReplyBlock] at hmove
      split_ifs at hmove
      · obtain rfl := Option.some.inj hmove
        exact moves_deliver key
      · obtain rfl := Option.some.inj hmove
        exact moves_inside rfl rfl nofun (fun _ => nofun) rfl
  | calling key =>
      rw [processReplyBlock] at hmove
      cases hanswer : choice.answer with
      | more =>
          rw [hanswer] at hmove
          obtain rfl := Option.some.inj hmove
          exact moves_answered (.inl rfl) (absurd rfl)
      | stop =>
          rw [hanswer] at hmove
          obtain rfl := Option.some.inj hmove
          exact moves_answered (.inr rfl) fun _ => rfl
      | threw =>
          rw [hanswer] at hmove
          obtain rfl := Option.some.inj hmove
          exact moves_answered (.inr rfl) fun _ => rfl
  | stop =>
      obtain rfl := Option.some.inj hmove
      exact moves_stop
  | fail failure =>
      obtain rfl := Option.some.inj hmove
      exact moves_recordFailure failure rfl rfl rfl rfl fun _ => nofun
  | unlock =>
      obtain rfl := Option.some.inj hmove
      exact moves_outside rfl rfl rfl rfl rfl (.inr rfl) (.inl ⟨rfl, rfl⟩)

theorem moves_waitForResultBlock (hmove : waitForResultBlock shared name task = some made) :
    Moves name shared task made := by
  cases task with
  | wait =>
      rw [waitForResultBlock] at hmove
      split_ifs at hmove with hdone
      obtain rfl := Option.some.inj hmove
      exact moves_returned hdone.1 hdone.2
  | _ => cases hmove

theorem moves_move {action : Action} (htask : action.task = some name)
    (hmove : move shared task action = some made) : Moves name shared task made := by
  cases action with
  | markDropped => cases htask
  | acquireCallbackLease other =>
      cases task with
      | idle =>
          obtain rfl := Option.some.inj hmove
          unfold acquireCallbackLease
          split_ifs with hdropped
          · exact moves_outside rfl rfl rfl rfl rfl (.inl ⟨rfl, rfl⟩) (.inl ⟨rfl, rfl⟩)
          · exact moves_outside rfl rfl rfl rfl rfl (.inl ⟨rfl, rfl⟩)
              (.inr (.inl ⟨rfl, rfl, Bool.eq_false_iff.mpr hdropped, rfl⟩))
      | _ => cases hmove
  | releaseLease other =>
      cases task with
      | leased enrolled =>
          obtain rfl := Option.some.inj hmove
          cases enrolled with
          | true =>
              exact moves_outside rfl rfl rfl rfl rfl (.inl ⟨rfl, rfl⟩)
                (.inr (.inr ⟨rfl, rfl, rfl⟩))
          | false => exact moves_outside rfl rfl rfl rfl rfl (.inl ⟨rfl, rfl⟩) (.inl ⟨rfl, rfl⟩)
      | _ => cases hmove
  | processReply other =>
      obtain rfl := Option.some.inj htask
      cases task with
      | leased enrolled =>
          cases enrolled with
          | true =>
              obtain rfl := Option.some.inj hmove
              exact moves_entered
          | false => cases hmove
      | _ => cases hmove
  | recordCallbackFailure other =>
      obtain rfl := Option.some.inj htask
      cases task with
      | idle =>
          obtain rfl := Option.some.inj hmove
          exact moves_recordFailure unexpectedFailure rfl rfl rfl rfl fun _ => nofun
      | leased enrolled =>
          obtain rfl := Option.some.inj hmove
          exact moves_recordFailure unexpectedFailure rfl rfl rfl rfl fun _ => nofun
      | _ => cases hmove
  | waitForResult other =>
      cases task with
      | idle =>
          obtain rfl := Option.some.inj hmove
          exact moves_outside rfl rfl rfl rfl rfl (.inl ⟨rfl, rfl⟩) (.inl ⟨rfl, rfl⟩)
      | _ => cases hmove
  | block other choice =>
      obtain rfl := Option.some.inj htask
      rcases Option.or_eq_some_iff.mp hmove with hfirst | ⟨-, hsecond⟩
      · exact moves_processReplyBlock hfirst
      · exact moves_waitForResultBlock hsecond

end Blocks

/-! ## What holds in every run -/

/-- What a task may rely on at the point where it stands. -/
structure At (shared : Shared) (seen : List Event) (name : ℕ) (task : Task) : Prop where
  lock : task.inside = true → shared.deliveryLocked = true
  entered : task.processing = true → Entered (fun _ => True) name seen
  passed : task.passed = true → Entered Open name seen
  accepts : ∀ key, task = .deliver key → key ∈ shared.deliveredKeys ∧ key ∉ calledKeys seen

/-- A call of the sink: nothing had ended the delivery when the callback entered, and no one has
returned. -/
def Allowed (before : List Event) (event : Event) : Prop :=
  ∀ name key, event = .called name key →
    Entered Open name before ∧ ∀ other result, .returned other result ∉ before

/-- What is reported is the first failure. -/
def Reported (before : List Event) (event : Event) : Prop :=
  ∀ name result, event = .returned name result → result = resultOf (deliveryOf before)

structure Inv (seen : List Event) (state : State) : Prop where
  delivery : state.shared.deliveryState = deliveryOf seen
  tasks : ∀ name, At state.shared seen name (state.tasks name)
  alone : ∀ first second, (state.tasks first).inside = true → (state.tasks second).inside = true →
    first = second
  keys : ∀ key ∈ calledKeys seen, key ∈ state.shared.deliveredKeys
  once : (calledKeys seen).Nodup
  ended : ∀ event ∈ seen, event.ends = true →
    state.shared.deliveryState ≠ .active ∨ ∃ name, (state.tasks name).ending = true
  tally : { name | (state.tasks name).enrolled = true }.encard = (state.shared.inFlight : ℕ∞)
  gone : ∀ name result, .returned name result ∈ seen →
    state.shared.dropped = true ∧ state.shared.inFlight = 0
  calls : AtEach Allowed seen
  returns : AtEach Reported seen

theorem Task.inside_of_ending {task : Task} (hending : task.ending = true) :
    task.inside = true := by
  cases task <;> first | rfl | cases hending

theorem Task.inside_of_passed {task : Task} (hpassed : task.passed = true) :
    task.inside = true := by
  cases task <;> first | rfl | cases hpassed

theorem Task.processing_of_inside {task : Task} (hinside : task.inside = true) :
    task.processing = true := by
  cases task <;> first | rfl | cases hinside

theorem Task.enrolled_of_processing {task : Task} (hprocessing : task.processing = true) :
    task.enrolled = true := by
  cases task <;> first | rfl | cases hprocessing

theorem inv_start (sink : Bool) : Inv [] (start sink) where
  delivery := rfl
  tasks _ := ⟨nofun, nofun, nofun, fun _ => nofun⟩
  alone _ _ := nofun
  keys _ := nofun
  once := List.nodup_nil
  ended _ := nofun
  tally := by simp [start, Task.enrolled, Task.processing, Task.inside]
  gone _ _ := nofun
  calls := atEach_nil
  returns := atEach_nil

section Step

variable {seen : List Event} {state : State} {name : ℕ} {made : Move}

/-- While the delivery is active and the task that holds the lock is not about to end it, nothing
has ended it. -/
theorem Inv.isOpen (hinv : Inv seen state) (hactive : state.shared.deliveryState = .active)
    (hinside : (state.tasks name).inside = true) (hending : (state.tasks name).ending = false) :
    Open seen := by
  intro event hevent
  by_contra hends
  rcases hinv.ended event hevent (by simpa using hends) with hover | ⟨other, hother⟩
  · exact hover hactive
  · obtain rfl := hinv.alone name other hinside (Task.inside_of_ending hother)
    rw [hending] at hother
    cases hother

theorem Inv.tally_pos (hinv : Inv seen state) (henrolled : (state.tasks name).enrolled = true) :
    0 < state.shared.inFlight :=
  @Tasks.tally_pos _ _ state Task.enrolled _ name hinv.tally henrolled

/-- No one has returned while a callback is under way. -/
theorem Inv.not_returned (hinv : Inv seen state) (hinside : (state.tasks name).inside = true)
    (other : ℕ) (result : WaitResult) : .returned other result ∉ seen := by
  intro hreturned
  have hpos := hinv.tally_pos
    (Task.enrolled_of_processing (Task.processing_of_inside hinside))
  have hzero := (hinv.gone other result hreturned).2
  omega

/-- What the task that moves may rely on afterwards. -/
theorem Inv.at_self (hinv : Inv seen state)
    (hmoves : Moves name state.shared (state.tasks name) made) :
    At made.shared (seen ++ made.events) name made.task where
  lock hinside := by
    rcases hmoves.lock with ⟨hsame, hlocked⟩ | ⟨-, -, hlocked⟩ | ⟨-, houtside⟩
    · rw [hlocked]
      exact (hinv.tasks name).lock (hsame ▸ hinside)
    · exact hlocked
    · rw [houtside] at hinside
      cases hinside
  entered hprocessing := by
    rcases hmoves.entered hprocessing with ⟨hbefore, hnew⟩ | hevents
    · exact ((hinv.tasks name).entered hbefore).append hnew
    · rw [hevents]
      exact ⟨seen, [], rfl, List.not_mem_nil, trivial⟩
  passed hpassed := by
    rw [hmoves.quiet hpassed, List.append_nil]
    rcases hmoves.passed hpassed with hbefore | ⟨htask, hactive⟩
    · exact (hinv.tasks name).passed hbefore
    · have hopen : Open seen := hinv.isOpen hactive (by rw [htask]; rfl) (by rw [htask]; rfl)
      refine ((hinv.tasks name).entered (by rw [htask]; rfl)).mono fun before hbefore _ => ?_
      exact fun event hevent => hopen event (hbefore.subset hevent)
  accepts key htask := by
    obtain ⟨hkey, hnew⟩ := hmoves.accepts key htask
    have hquiet := hmoves.quiet (by rw [htask]; rfl)
    rw [hquiet, List.append_nil]
    exact ⟨hkey, fun hcalled => hnew (hinv.keys key hcalled)⟩

/-- What the others may rely on still holds. -/
theorem Inv.at_other (hinv : Inv seen state)
    (hmoves : Moves name state.shared (state.tasks name) made) {other : ℕ} (hother : other ≠ name) :
    At made.shared (seen ++ made.events) other (state.tasks other) where
  lock hinside := by
    have hlocked := (hinv.tasks other).lock hinside
    rcases hmoves.lock with ⟨-, hsame⟩ | ⟨-, hfree, -⟩ | ⟨hheld, -⟩
    · rw [hsame]
      exact hlocked
    · rw [hfree] at hlocked
      cases hlocked
    · exact absurd (hinv.alone other name hinside hheld) hother
  entered hprocessing := ((hinv.tasks other).entered hprocessing).append (hmoves.others other hother)
  passed hpassed := ((hinv.tasks other).passed hpassed).append (hmoves.others other hother)
  accepts key htask := by
    obtain ⟨hkey, hnew⟩ := (hinv.tasks other).accepts key htask
    refine ⟨hmoves.keys key hkey, ?_⟩
    rw [calledKeys_append, List.mem_append]
    rintro (hold | hcalled)
    · exact hnew hold
    · obtain ⟨caller, hcaller⟩ := mem_calledKeys.mp hcalled
      rcases hmoves.called with hnone | ⟨key', hdeliver, -⟩
      · exact hnone caller key hcaller
      · exact hother (hinv.alone other name (by rw [htask]; rfl) (by rw [hdeliver]; rfl))

theorem Inv.alone_replace (hinv : Inv seen state)
    (hmoves : Moves name state.shared (state.tasks name) made) :
    ∀ first second, ((state.replace name made.shared made.task).tasks first).inside = true →
      ((state.replace name made.shared made.task).tasks second).inside = true →
      first = second := by
  have hwith : made.task.inside = true → ∀ other ≠ name, (state.tasks other).inside = false := by
    intro hinside other hother
    by_contra hother'
    rw [Bool.not_eq_false] at hother'
    rcases hmoves.lock with ⟨hsame, -⟩ | ⟨-, hfree, -⟩ | ⟨-, houtside⟩
    · exact hother (hinv.alone other name hother' (hsame ▸ hinside))
    · rw [(hinv.tasks other).lock hother'] at hfree
      cases hfree
    · rw [houtside] at hinside
      cases hinside
  refine Config.replace_forall (fun first (task : Task) => ∀ second, task.inside = true →
    ((state.replace name made.shared made.task).tasks second).inside = true → first = second)
    ?_ ?_
  · intro second hinside hsecond
    by_contra hne
    rw [Config.replace_of_ne _ _ _ (Ne.symm hne), hwith hinside second (Ne.symm hne)] at hsecond
    cases hsecond
  · intro first hfirst second hinside hsecond
    by_cases hname : second = name
    · subst hname
      rw [Config.replace_self] at hsecond
      rw [hwith hsecond first hfirst] at hinside
      cases hinside
    · rw [Config.replace_of_ne _ _ _ hname] at hsecond
      exact hinv.alone first second hinside hsecond

theorem Inv.tally_replace (hinv : Inv seen state)
    (hmoves : Moves name state.shared (state.tasks name) made) :
    { other | ((state.replace name made.shared made.task).tasks other).enrolled = true }.encard =
      (made.shared.inFlight : ℕ∞) := by
  rcases hmoves.count with ⟨hsame, hcount⟩ | ⟨hbefore, hafter, -, hcount⟩ | ⟨hbefore, hafter, hcount⟩
  · rw [hcount]
    exact tally_same hinv.tally hsame _
  · rw [hcount]
    exact tally_enters hinv.tally hbefore hafter _
  · rw [hcount]
    exact tally_leaves hinv.tally hbefore hafter _

theorem Inv.called_replace (hinv : Inv seen state)
    (hmoves : Moves name state.shared (state.tasks name) made) :
    (∀ key ∈ calledKeys (seen ++ made.events), key ∈ made.shared.deliveredKeys) ∧
      (calledKeys (seen ++ made.events)).Nodup ∧ AtEach Allowed (seen ++ made.events) := by
  rcases hmoves.called with hnone | ⟨key, htask, hevents⟩
  · have hquiet : calledKeys made.events = [] := by
      refine List.eq_nil_iff_forall_not_mem.mpr fun key hkey => ?_
      obtain ⟨caller, hcaller⟩ := mem_calledKeys.mp hkey
      exact hnone caller key hcaller
    rw [calledKeys_append, hquiet, List.append_nil]
    refine ⟨fun key hkey => hmoves.keys key (hinv.keys key hkey), hinv.once, ?_⟩
    refine hinv.calls.append fun event hevent before caller key heq => ?_
    exact absurd (heq ▸ hevent) (hnone caller key)
  · obtain ⟨hkey, hnew⟩ := (hinv.tasks name).accepts key htask
    have hcalled : calledKeys made.events = [key] := by
      rw [hevents]
      rfl
    rw [calledKeys_append, hcalled, hevents]
    refine ⟨?_, ?_, ?_⟩
    · intro other hother
      rcases List.mem_append.mp hother with hold | hself
      · exact hmoves.keys other (hinv.keys other hold)
      · obtain rfl := List.mem_singleton.mp hself
        exact hmoves.keys other hkey
    · refine List.nodup_append.mpr ⟨hinv.once, List.nodup_singleton key, ?_⟩
      rintro other hold _ hself rfl
      obtain rfl := List.mem_singleton.mp hself
      exact hnew hold
    · refine hinv.calls.snoc fun caller other heq => ?_
      obtain ⟨rfl, rfl⟩ := Event.called.inj heq
      exact ⟨(hinv.tasks name).passed (by rw [htask]; rfl),
        hinv.not_returned (show (state.tasks name).inside = true by rw [htask]; rfl)⟩

theorem Inv.returned_replace (hinv : Inv seen state)
    (hmoves : Moves name state.shared (state.tasks name) made) :
    (∀ other result, .returned other result ∈ seen ++ made.events →
      made.shared.dropped = true ∧ made.shared.inFlight = 0) ∧
      AtEach Reported (seen ++ made.events) := by
  have hstays (hgone : state.shared.dropped = true ∧ state.shared.inFlight = 0) :
      made.shared.dropped = true ∧ made.shared.inFlight = 0 := by
    refine ⟨hmoves.dropped.trans hgone.1, ?_⟩
    rcases hmoves.count with ⟨-, hcount⟩ | ⟨-, -, hlive, -⟩ | ⟨-, -, hcount⟩
    · exact hcount.trans hgone.2
    · rw [hgone.1] at hlive
      cases hlive
    · rw [hcount, hgone.2]
  rcases hmoves.returned with hnone | ⟨hdropped, hcount, hevents⟩
  · refine ⟨fun other result hreturned => ?_, ?_⟩
    · rcases List.mem_append.mp hreturned with hold | hnew
      · exact hstays (hinv.gone other result hold)
      · exact absurd hnew (hnone other result)
    · refine hinv.returns.append fun event hevent before other result heq => ?_
      exact absurd (heq ▸ hevent) (hnone other result)
  · refine ⟨fun _ _ _ => hstays ⟨hdropped, hcount⟩, ?_⟩
    rw [hevents]
    refine hinv.returns.snoc fun other result heq => ?_
    obtain ⟨rfl, rfl⟩ := Event.returned.inj heq
    rw [hinv.delivery]

theorem Inv.ended_replace (hinv : Inv seen state)
    (hmoves : Moves name state.shared (state.tasks name) made) :
    ∀ event ∈ seen ++ made.events, event.ends = true → made.shared.deliveryState ≠ .active ∨
      ∃ other, ((state.replace name made.shared made.task).tasks other).ending = true := by
  have hstays (hover : state.shared.deliveryState ≠ .active) :
      made.shared.deliveryState ≠ .active := by
    rw [hmoves.delivery, if_neg hover]
    exact hover
  intro event hevent hends
  rcases List.mem_append.mp hevent with hold | hnew
  · rcases hinv.ended event hold hends with hover | ⟨other, hending⟩
    · exact .inl (hstays hover)
    · by_cases hother : other = name
      · subst hother
        exact .inl (hmoves.ending hending)
      · refine .inr ⟨other, ?_⟩
        rw [Config.replace_of_ne _ _ _ hother]
        exact hending
  · rcases hmoves.ends event hnew hends with hover | hending
    · exact .inl hover
    · refine .inr ⟨name, ?_⟩
      rw [Config.replace_self]
      exact hending

theorem Inv.replace (hinv : Inv seen state)
    (hmoves : Moves name state.shared (state.tasks name) made) :
    Inv (seen ++ made.events) (state.replace name made.shared made.task) where
  delivery := by
    rw [Config.replace_shared, hmoves.delivery, deliveryOf_append, hinv.delivery]
  tasks := Config.replace_forall (At made.shared (seen ++ made.events)) (hinv.at_self hmoves)
    fun _ hother => hinv.at_other hmoves hother
  alone := hinv.alone_replace hmoves
  keys := (hinv.called_replace hmoves).1
  once := (hinv.called_replace hmoves).2.1
  ended := hinv.ended_replace hmoves
  tally := hinv.tally_replace hmoves
  gone := (hinv.returned_replace hmoves).1
  calls := (hinv.called_replace hmoves).2.2
  returns := (hinv.returned_replace hmoves).2

theorem Inv.markDropped (hinv : Inv seen state) :
    Inv seen { state with shared := { state.shared with dropped := true } } where
  delivery := hinv.delivery
  tasks name :=
    have hat := hinv.tasks name
    ⟨hat.lock, hat.entered, hat.passed, hat.accepts⟩
  alone := hinv.alone
  keys := hinv.keys
  once := hinv.once
  ended := hinv.ended
  tally := hinv.tally
  gone name result hreturned := ⟨rfl, (hinv.gone name result hreturned).2⟩
  calls := hinv.calls
  returns := hinv.returns

theorem Inv.step {action : Action} {next : State} (hinv : Inv seen state)
    (hstep : step state action = some next) : Inv (seen ++ emits state action) next := by
  rw [GetCompletion.step] at hstep
  rw [emits]
  cases htask : action.task with
  | none =>
      rw [htask] at hstep
      obtain rfl := Option.some.inj hstep
      rw [List.append_nil]
      exact hinv.markDropped
  | some name =>
      rw [htask] at hstep
      obtain ⟨made, hmove, rfl⟩ := Option.map_eq_some_iff.mp hstep
      have hevents : ((move state.shared (state.tasks name) action).map Move.events).getD [] =
          made.events := by
        rw [hmove]
        rfl
      have hreplace := hinv.replace (moves_move htask hmove)
      rw [← hevents] at hreplace
      exact hreplace

end Step

/-! ## The request -/

/-- An event that decides how the request ends, unless one before it has. -/
def Event.decides : Event → Bool
  | .stopped _ | .failure _ _ => true
  | _ => false

theorem deliveryOf_undecided {earlier : List Event}
    (hearlier : ∀ event ∈ earlier, event.decides = false) (later : List Event) :
    deliveryOf (earlier ++ later) = deliveryOf later := by
  induction earlier with
  | nil => rfl
  | cons event earlier ih =>
      obtain ⟨hevent, hrest⟩ := List.forall_mem_cons.mp hearlier
      cases event with
      | stopped task => cases hevent
      | failure task failure => cases hevent
      | entered task => exact ih hrest
      | called task key => exact ih hrest
      | answered task answer => exact ih hrest
      | returned task result => exact ih hrest

theorem deliveryOf_failed_iff {seen : List Event} :
    (∃ failure, deliveryOf seen = .failed failure) ↔
      ∃ earlier task failure later, seen = earlier ++ .failure task failure :: later ∧
        ∀ other, .stopped other ∉ earlier := by
  induction seen with
  | nil =>
      constructor
      · rintro ⟨failure, hfailure⟩
        cases hfailure
      · rintro ⟨earlier, task, failure, later, hsplit, -⟩
        exact absurd hsplit.symm (by simp)
  | cons event seen ih =>
      -- What the rest is known to hold is known of the whole behind an event that decides nothing.
      have hskip (hdecides : event.decides = false) :
          (∃ earlier task failure later, seen = earlier ++ .failure task failure :: later ∧
            ∀ other, .stopped other ∉ earlier) ↔
          ∃ earlier task failure later,
            event :: seen = earlier ++ .failure task failure :: later ∧
              ∀ other, .stopped other ∉ earlier := by
        constructor
        · rintro ⟨earlier, task, failure, later, rfl, hstopped⟩
          refine ⟨event :: earlier, task, failure, later, rfl, fun other hother => ?_⟩
          rcases List.mem_cons.mp hother with rfl | hold
          · cases hdecides
          · exact hstopped other hold
        · rintro ⟨earlier, task, failure, later, hsplit, hstopped⟩
          cases earlier with
          | nil =>
              obtain ⟨rfl, -⟩ := List.cons.inj hsplit
              cases hdecides
          | cons first earlier =>
              obtain ⟨-, rfl⟩ := List.cons.inj hsplit
              exact ⟨earlier, task, failure, later, rfl,
                fun other hother => hstopped other (List.mem_cons_of_mem _ hother)⟩
      cases event with
      | stopped task =>
          constructor
          · rintro ⟨failure, hfailure⟩
            cases hfailure
          · rintro ⟨earlier, other, failure, later, hsplit, hstopped⟩
            cases earlier with
            | nil => cases hsplit
            | cons first earlier =>
                obtain ⟨rfl, -⟩ := List.cons.inj hsplit
                exact absurd List.mem_cons_self (hstopped task)
      | failure task failure =>
          constructor
          · intro _
            exact ⟨[], task, failure, seen, rfl, fun _ => List.not_mem_nil⟩
          · intro _
            exact ⟨failure.recorded, rfl⟩
      | entered task => exact ih.trans (hskip rfl)
      | called task key => exact ih.trans (hskip rfl)
      | answered task answer => exact ih.trans (hskip rfl)
      | returned task result => exact ih.trans (hskip rfl)

theorem resultOf_error_iff {delivery : DeliveryState} :
    (∃ status message cause, resultOf delivery = .error status message cause) ↔
      ∃ failure, delivery = .failed failure := by
  cases delivery with
  | active => simp [resultOf]
  | stoppedBySink => simp [resultOf]
  | failed failure => simp [resultOf]

/-- What is seen of a request. -/
structure Delivers (seen : List Event) (state : State) : Prop where
  alone : ∀ first second, (state.tasks first).isCalling = true →
    (state.tasks second).isCalling = true → first = second
  leased : ∀ name, (state.tasks name).isCalling = true → 0 < state.shared.inFlight
  once : (calledKeys seen).Nodup
  /-- What enters after the delivery was ended does not call the sink. -/
  ended : ∀ earlier event middle name later key after, event.ends = true →
    .entered name ∉ later →
    seen ≠ earlier ++ event :: middle ++ .entered name :: later ++ .called name key :: after
  returned : ∀ before name result after, seen = before ++ .returned name result :: after →
    (∀ other key, .called other key ∉ after) ∧ ∀ other, (state.tasks other).isCalling = false
  /-- The first failure is reported, if nothing stopped the delivery before. -/
  first : ∀ earlier task failure later name result after,
    seen = earlier ++ .failure task failure :: later ++ .returned name result :: after →
    (∀ event ∈ earlier, event.decides = false) →
    result = .error failure.status failure.kind.message failure.recorded.cause
  reported : ∀ before name result after, seen = before ++ .returned name result :: after →
    ((∃ status message cause, result = .error status message cause) ↔
      ∃ earlier task failure later, before = earlier ++ .failure task failure :: later ∧
        ∀ other, .stopped other ∉ earlier)

theorem Task.inside_of_isCalling {task : Task} (hcalling : task.isCalling = true) :
    task.inside = true := by
  cases task <;> first | rfl | cases hcalling

/-- The last time a task entered is the one after which it has not entered again. -/
theorem Entered.last {Before : List Event → Prop} {name : ℕ} {earlier later : List Event}
    (hentered : Entered Before name (earlier ++ .entered name :: later))
    (hlater : .entered name ∉ later) : Before earlier := by
  obtain ⟨before, after, hsplit, hafter, hbefore⟩ := hentered
  rcases List.append_eq_append_iff.mp hsplit with ⟨gap, hgap, hrest⟩ | ⟨gap, hgap, hrest⟩
  · cases gap with
    | nil =>
        rw [List.append_nil] at hgap
        exact hgap ▸ hbefore
    | cons first gap =>
        obtain ⟨-, hlater'⟩ := List.cons.inj hrest
        exact absurd (hlater' ▸ List.mem_append_right _ List.mem_cons_self) hlater
  · cases gap with
    | nil =>
        rw [List.append_nil] at hgap
        exact hgap.symm ▸ hbefore
    | cons first gap =>
        obtain ⟨-, hafter'⟩ := List.cons.inj hrest
        exact absurd (hafter' ▸ List.mem_append_right _ List.mem_cons_self) hafter

theorem Inv.delivers {seen : List Event} {state : State} (hinv : Inv seen state) :
    Delivers seen state where
  alone first second hfirst hsecond :=
    hinv.alone first second (Task.inside_of_isCalling hfirst) (Task.inside_of_isCalling hsecond)
  leased name hcalling := hinv.tally_pos
    (Task.enrolled_of_processing (Task.processing_of_inside (Task.inside_of_isCalling hcalling)))
  once := hinv.once
  ended earlier event middle name later key after hends hlater hsplit := by
    obtain ⟨hentered, -⟩ := hinv.calls _ _ _ hsplit name key rfl
    have hopen := hentered.last hlater
    have hno := hopen event (List.mem_append_right _ List.mem_cons_self)
    rw [hends] at hno
    cases hno
  returned before name result after hsplit := by
    have hreturned : .returned name result ∈ seen := by
      rw [hsplit]
      exact List.mem_append_right _ List.mem_cons_self
    refine ⟨fun other key hcalled => ?_, fun other => ?_⟩
    · obtain ⟨middle, last, hafter⟩ := List.append_of_mem hcalled
      have hsplit' : seen =
          (before ++ .returned name result :: middle) ++ .called other key :: last := by
        rw [hsplit, hafter, List.append_assoc, List.cons_append]
      obtain ⟨-, hnone⟩ := hinv.calls _ _ _ hsplit' other key rfl
      exact hnone name result (List.mem_append_right _ List.mem_cons_self)
    · by_contra hcalling
      rw [Bool.not_eq_false] at hcalling
      exact hinv.not_returned (Task.inside_of_isCalling hcalling) name result hreturned
  first earlier task failure later name result after hsplit hearlier := by
    have hresult := hinv.returns _ _ _ hsplit name result rfl
    rw [hresult, deliveryOf_undecided hearlier]
    rfl
  reported before name result after hsplit := by
    obtain rfl := hinv.returns _ _ _ hsplit name result rfl
    exact resultOf_error_iff.trans deliveryOf_failed_iff

/-- However leases, replies, failures, the drop and the wait interleave. -/
theorem get_completion_delivers (sink : Bool) (actions : List Action) (state : State)
    (hrun : run step (start sink) actions = some state) :
    Delivers (log step emits (start sink) actions) state := by
  refine Inv.delivers (run_log emits Inv (inv_start sink) ?_ hrun)
  intro seen state action next _ hinv hstep
  exact hinv.step hstep

/-- The sink stops at the first reply, and a failure comes too late to be reported. -/
theorem get_completion_delivers_stopped :
    ∃ (actions : List Action) (state : State),
      run step (start true) actions = some state ∧
      log step emits (start true) actions =
        [.entered 0, .entered 1, .called 0 (ascii "a"), .answered 0 .stop, .stopped 0,
          .failure 2 unexpectedFailure, .returned 3 .ok] ∧
      Delivers (log step emits (start true) actions) state := by
  let choice : Choice := ⟨.reply (ascii "a"), .available, .stop⟩
  let actions : List Action :=
    List.flatten
      [[.acquireCallbackLease 0, .acquireCallbackLease 1, .processReply 0, .processReply 1],
        List.replicate 8 (.block 0 choice), [.recordCallbackFailure 2, .markDropped],
        List.replicate 3 (.block 1 choice),
        [.waitForResult 3, .releaseLease 1, .releaseLease 0, .block 3 choice]]
  have hends : (run step (start true) actions).isSome = true := by decide +kernel
  have hseen : log step emits (start true) actions =
      [.entered 0, .entered 1, .called 0 (ascii "a"), .answered 0 .stop, .stopped 0,
        .failure 2 unexpectedFailure, .returned 3 .ok] := by
    decide +kernel
  obtain ⟨state, hrun⟩ := Option.isSome_iff_exists.mp hends
  exact ⟨actions, state, hrun, hseen, get_completion_delivers true actions state hrun⟩

end Sitos.GetCompletion
