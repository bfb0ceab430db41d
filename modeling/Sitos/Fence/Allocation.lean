import Sitos.Fence.WaiterSound

/-!
# Sequence allocation

A publisher numbers its data in the order in which it hands them to the transport, and a Fence
carries the number reached before it.  The numbers are counted here against the Puts themselves:
what a run hands out is a log, and the counter is the length of its data.

A section of the lane mutex that begins after the publisher was closed, or after any caller has
seen the transport on another generation, hands out nothing.
-/

namespace Sitos.Waiter

open Sitos.AckResult
open Sitos.Bytes
open Sitos.Machine
open Sitos.Publisher
open Sitos.Tasks
open Sitos.Token

/-- What can be seen of a caller: that its lane section begins, its Puts, that its `Close` has
returned, and that it has found another generation. -/
inductive Event where
  | entered (caller : ℕ)
  | data (caller : ℕ) (sequence : UInt64)
  | marker (caller : ℕ) (throughSequence : UInt64)
  | closed (caller : ℕ)
  | mismatch (caller : ℕ)
  deriving DecidableEq

/-- Whether the block samples the generation and finds another one. -/
def observes (binding : FencePublisherBinding) (shared : Shared) (choice : Choice) : Task → Bool
  | .submitLane | .beginLane _ | .submitCheck _ | .beginCheck _ =>
      !shared.disconnected && shared.mismatched binding choice
  | .sample _ _ _ | .waitSample _ => shared.mismatched binding choice
  | .validate _ _ mismatch _ => !mismatch && shared.mismatched binding choice
  | _ => false

/-- What the block of a caller lets be seen. -/
def eventsOf (binding : FencePublisherBinding) (shared : Shared) (choice : Choice) (caller : ℕ)
    (task : Task) : List Event :=
  (match task with
    | .submitLane | .beginLane _ => [.entered caller]
    | .submitPut =>
        if !choice.supported ∨ shared.exhausted then []
        else [.data caller (shared.lastSequence + 1)]
    | .putMarker handle _ => [.marker caller handle.throughSequence]
    | .cancel .close => if shared.pending.isNone then [.closed caller] else []
    | .cancelled _ .close => [.closed caller]
    | _ => []) ++
  if observes binding shared choice task then [.mismatch caller] else []

def emits (binding : FencePublisherBinding) (state : State) : Action → List Event
  | .block caller choice => eventsOf binding state.shared choice caller (state.tasks caller)
  | _ => []

/-- The sequences of the data, in the order of the Puts. -/
def dataPuts (events : List Event) : List UInt64 :=
  events.filterMap fun
    | .data _ sequence => some sequence
    | _ => none

/-- After this no lane section hands out anything. -/
def Event.stops : Event → Bool
  | .closed _ | .mismatch _ => true
  | _ => false

/-- A Put of a caller. -/
def Event.putOf : Event → Option ℕ
  | .data caller _ | .marker caller _ => some caller
  | _ => none

/-! ## What one block does -/

namespace Task

/-- Between the check at the beginning of a lane section and its Put. -/
def admitted : Task → Bool
  | submitPut | beginPending _ | register _ | putMarker _ _ => true
  | _ => false

/-- The caller has seen another generation. -/
def saw : Task → Bool
  | reserve _ _ mismatch _ | validate _ _ mismatch _ | commit _ _ mismatch _ _
  | unregister _ mismatch => mismatch
  | mark _ => true
  | _ => false

def closes : Task → Bool
  | disconnect .close | cancel .close | cancelled _ .close => true
  | _ => false

def marks : Task → Option UInt64
  | putMarker handle _ => some handle.throughSequence
  | _ => none

def enters : Task → Bool
  | submitLane | beginLane _ => true
  | _ => false

end Task

/-- The block that allocates. -/
def allocates (shared : Shared) (choice : Choice) : Task → Bool
  | .submitPut => choice.supported && !shared.exhausted
  | _ => false

structure Moves (binding : FencePublisherBinding) (shared : Shared) (choice : Choice) (task : Task)
    (next : Shared) (task' : Task) : Prop where
  generation : next.generation = shared.generation
  disconnected : shared.disconnected = true → next.disconnected = true
  counter : allocates shared choice task = false →
    next.lastSequence = shared.lastSequence ∧ next.exhausted = shared.exhausted
  allocated : allocates shared choice task = true → shared.exhausted = false ∧
    next.lastSequence = shared.lastSequence + 1 ∧
      next.exhausted = (next.lastSequence == 0xFFFFFFFFFFFFFFFF)
  admitted : task'.admitted = true → task.admitted = true ∨
    (task.enters = true ∧ shared.disconnected = false ∧
      shared.mismatched binding choice = false)
  saw : task'.saw = true → task.saw = true ∨ observes binding shared choice task = true
  flag : next.generationMismatch = true →
    shared.generationMismatch = true ∨ task.saw = true
  closes : task'.closes = true → next.disconnected = true ∨ task.closes = true
  marks : ∀ through, task'.marks = some through → through = next.lastSequence

section Blocks

variable {binding : FencePublisherBinding} {shared next : Shared} {choice : Choice}
  {task task' : Task}

theorem checkGeneration_cases {passed refused : Shared × Task} {resume : Resume}
    (hcheck : checkGeneration binding shared choice passed refused resume = (next, task')) :
    (shared.disconnected = true ∧ refused = (next, task')) ∨
    (shared.disconnected = false ∧ shared.mismatched binding choice = false ∧
      passed = (next, task')) ∨
    (shared.mismatched binding choice = true ∧
      next = { shared with disconnected := true, lane := true } ∧ task' = .disconnect resume) := by
  unfold checkGeneration at hcheck
  split_ifs at hcheck with hdisconnected hmismatched
  · exact .inl ⟨hdisconnected, hcheck⟩
  · exact .inr (.inl ⟨by simpa using hdisconnected, by simpa using hmismatched, hcheck⟩)
  · obtain ⟨rfl, rfl⟩ := Prod.mk.inj hcheck
    exact .inr (.inr ⟨by simpa using hmismatched, rfl, rfl⟩)

/-- A block that leaves the lane and the generation as they are. -/
theorem Moves.kept (hallocates : allocates shared choice task = false)
    (hgeneration : next.generation = shared.generation)
    (hdisconnected : next.disconnected = shared.disconnected)
    (hlast : next.lastSequence = shared.lastSequence)
    (hexhausted : next.exhausted = shared.exhausted)
    (hflag : next.generationMismatch = shared.generationMismatch)
    (hadmitted : task'.admitted = false) (hcloses : task'.closes = false)
    (hmarks : task'.marks = none)
    (hsaw : task'.saw = true → task.saw = true ∨ observes binding shared choice task = true) :
    Moves binding shared choice task next task' where
  generation := hgeneration
  disconnected := hdisconnected.trans
  counter := fun _ => ⟨hlast, hexhausted⟩
  allocated := fun h => absurd h (by simp [hallocates])
  admitted := fun h => absurd h (by simp [hadmitted])
  saw := hsaw
  flag := fun h => .inl (hflag.symm.trans h)
  closes := fun h => absurd h (by simp [hcloses])
  marks := fun _ h => absurd h (by simp [hmarks])

/-- A block that leaves them as they are, and whose call has not seen another generation. -/
theorem Moves.unseen (hallocates : allocates shared choice task = false)
    (hgeneration : next.generation = shared.generation)
    (hdisconnected : next.disconnected = shared.disconnected)
    (hlast : next.lastSequence = shared.lastSequence)
    (hexhausted : next.exhausted = shared.exhausted)
    (hflag : next.generationMismatch = shared.generationMismatch)
    (hadmitted : task'.admitted = false) (hcloses : task'.closes = false)
    (hmarks : task'.marks = none) (hsaw : task'.saw = false) :
    Moves binding shared choice task next task' :=
  .kept hallocates hgeneration hdisconnected hlast hexhausted hflag hadmitted hcloses hmarks
    fun h => absurd h (by simp [hsaw])

/-- A block after which the lane is disconnected. -/
theorem Moves.disconnects (hallocates : allocates shared choice task = false)
    (hgeneration : next.generation = shared.generation)
    (hdisconnected : next.disconnected = true)
    (hlast : next.lastSequence = shared.lastSequence)
    (hexhausted : next.exhausted = shared.exhausted)
    (hflag : next.generationMismatch = shared.generationMismatch)
    (hadmitted : task'.admitted = false) (hsaw : task'.saw = false)
    (hmarks : task'.marks = none) : Moves binding shared choice task next task' where
  generation := hgeneration
  disconnected := fun _ => hdisconnected
  counter := fun _ => ⟨hlast, hexhausted⟩
  allocated := fun h => absurd h (by simp [hallocates])
  admitted := fun h => absurd h (by simp [hadmitted])
  saw := fun h => absurd h (by simp [hsaw])
  flag := fun h => .inl (hflag.symm.trans h)
  closes := fun _ => .inl hdisconnected
  marks := fun _ h => absurd h (by simp [hmarks])

/-- A block that keeps the lane and lets its call go on to the put or the marker. -/
theorem Moves.admits (hallocates : allocates shared choice task = false)
    (hgeneration : next.generation = shared.generation)
    (hdisconnected : next.disconnected = shared.disconnected)
    (hlast : next.lastSequence = shared.lastSequence)
    (hexhausted : next.exhausted = shared.exhausted)
    (hflag : next.generationMismatch = shared.generationMismatch)
    (hadmitted : task'.admitted = true → task.admitted = true ∨
      (task.enters = true ∧ shared.disconnected = false ∧
        shared.mismatched binding choice = false))
    (hsaw : task'.saw = false) (hcloses : task'.closes = false)
    (hmarks : ∀ through, task'.marks = some through → through = next.lastSequence) :
    Moves binding shared choice task next task' where
  generation := hgeneration
  disconnected := hdisconnected.trans
  counter := fun _ => ⟨hlast, hexhausted⟩
  allocated := fun h => absurd h (by simp [hallocates])
  admitted := hadmitted
  saw := fun h => absurd h (by simp [hsaw])
  flag := fun h => .inl (hflag.symm.trans h)
  closes := fun h => absurd h (by simp [hcloses])
  marks := hmarks

theorem moves_submitBlock (hblock : submitBlock binding shared choice task = some (next, task')) :
    Moves binding shared choice task next task' := by
  cases task with
  | submit =>
      simp only [submitBlock] at hblock
      split_ifs at hblock
      · obtain ⟨rfl, rfl⟩ := Prod.mk.inj (Option.some.inj hblock)
        exact .unseen rfl rfl rfl rfl rfl rfl rfl rfl rfl rfl
      · obtain ⟨rfl, rfl⟩ := Prod.mk.inj (Option.some.inj hblock)
        exact .unseen rfl rfl rfl rfl rfl rfl rfl rfl rfl rfl
  | submitLane =>
      simp only [submitBlock] at hblock
      split_ifs at hblock
      rcases checkGeneration_cases (Option.some.inj hblock) with ⟨-, hout⟩ |
        ⟨hdisconnected, hmismatched, hout⟩ | ⟨-, rfl, rfl⟩
      · obtain ⟨rfl, rfl⟩ := Prod.mk.inj hout
        exact .unseen rfl rfl rfl rfl rfl rfl rfl rfl rfl rfl
      · obtain ⟨rfl, rfl⟩ := Prod.mk.inj hout
        exact .admits rfl rfl rfl rfl rfl rfl (fun _ => .inr ⟨rfl, hdisconnected, hmismatched⟩) rfl rfl
          (by simp [Task.marks])
      · exact .disconnects rfl rfl rfl rfl rfl rfl rfl rfl rfl
  | submitPut =>
      simp only [submitBlock] at hblock
      split_ifs at hblock with hrefused
      · obtain ⟨rfl, rfl⟩ := Prod.mk.inj (Option.some.inj hblock)
        refine .unseen (Bool.eq_false_iff.2 fun hallocates => ?_) rfl rfl rfl rfl rfl rfl rfl rfl rfl
        simp [allocates] at hallocates
        simp [hallocates] at hrefused
      · obtain ⟨rfl, rfl⟩ := Prod.mk.inj (Option.some.inj hblock)
        simp only [not_or, Bool.not_eq_true, Bool.not_eq_false'] at hrefused
        refine ⟨rfl, id, fun hcounter => ?_, fun _ => ?_, by simp [Task.admitted],
          by simp [Task.saw], .inl, by simp [Task.closes], by simp [Task.marks]⟩
        · simp [allocates, hrefused] at hcounter
        · exact ⟨hrefused.2, rfl, by rw [hrefused.2, Bool.false_or]⟩
  | submitCheck status =>
      simp only [submitBlock] at hblock
      rcases checkGeneration_cases (Option.some.inj hblock) with ⟨-, hout⟩ | ⟨-, -, hout⟩ |
        ⟨-, rfl, rfl⟩
      · obtain ⟨rfl, rfl⟩ := Prod.mk.inj hout
        exact .unseen rfl rfl rfl rfl rfl rfl rfl rfl rfl rfl
      · obtain ⟨rfl, rfl⟩ := Prod.mk.inj hout
        exact .unseen rfl rfl rfl rfl rfl rfl rfl rfl rfl rfl
      · exact .disconnects rfl rfl rfl rfl rfl rfl rfl rfl rfl
  | _ => cases hblock

theorem moves_beginBlock (hblock : beginBlock binding shared choice task = some (next, task')) :
    Moves binding shared choice task next task' := by
  cases task with
  | begin budget =>
      simp only [beginBlock] at hblock
      split_ifs at hblock
      all_goals
        obtain ⟨rfl, rfl⟩ := Prod.mk.inj (Option.some.inj hblock)
        exact .unseen rfl rfl rfl rfl rfl rfl rfl rfl rfl rfl
  | beginLane budget =>
      simp only [beginBlock] at hblock
      split_ifs at hblock
      rcases checkGeneration_cases (Option.some.inj hblock) with ⟨-, hout⟩ |
        ⟨hdisconnected, hmismatched, hout⟩ | ⟨-, rfl, rfl⟩
      · obtain ⟨rfl, rfl⟩ := Prod.mk.inj hout
        exact .unseen rfl rfl rfl rfl rfl rfl rfl rfl rfl rfl
      · obtain ⟨rfl, rfl⟩ := Prod.mk.inj hout
        exact .admits rfl rfl rfl rfl rfl rfl (fun _ => .inr ⟨rfl, hdisconnected, hmismatched⟩) rfl rfl
          (by simp [Task.marks])
      · exact .disconnects rfl rfl rfl rfl rfl rfl rfl rfl rfl
  | beginPending budget =>
      simp only [beginBlock] at hblock
      split_ifs at hblock
      · obtain ⟨rfl, rfl⟩ := Prod.mk.inj (Option.some.inj hblock)
        exact .unseen rfl rfl rfl rfl rfl rfl rfl rfl rfl rfl
      · obtain ⟨rfl, rfl⟩ := Prod.mk.inj (Option.some.inj hblock)
        exact .admits rfl rfl rfl rfl rfl rfl (fun _ => .inl rfl) rfl rfl (by simp [Task.marks])
  | register budget =>
      simp only [beginBlock] at hblock
      split_ifs at hblock
      obtain ⟨rfl, rfl⟩ := Prod.mk.inj (Option.some.inj hblock)
      exact .admits rfl rfl rfl rfl rfl rfl (fun _ => .inl rfl) rfl rfl
        fun _ h => (Option.some.inj h).symm
  | putMarker handle budget =>
      obtain ⟨rfl, rfl⟩ := Prod.mk.inj (Option.some.inj hblock)
      exact .unseen rfl rfl rfl rfl rfl rfl rfl rfl rfl rfl
  | beginCheck handle =>
      simp only [beginBlock] at hblock
      rcases checkGeneration_cases (Option.some.inj hblock) with ⟨-, hout⟩ | ⟨-, -, hout⟩ |
        ⟨-, rfl, rfl⟩
      · obtain ⟨rfl, rfl⟩ := Prod.mk.inj hout
        exact .unseen rfl rfl rfl rfl rfl rfl rfl rfl rfl rfl
      · obtain ⟨rfl, rfl⟩ := Prod.mk.inj hout
        exact .unseen rfl rfl rfl rfl rfl rfl rfl rfl rfl rfl
      · exact .disconnects rfl rfl rfl rfl rfl rfl rfl rfl rfl
  | stale handle =>
      simp only [beginBlock] at hblock
      split_ifs at hblock
      · obtain ⟨rfl, rfl⟩ := Prod.mk.inj (Option.some.inj hblock)
        exact .unseen rfl rfl rfl rfl rfl rfl rfl rfl rfl rfl
      · obtain ⟨rfl, rfl⟩ := Prod.mk.inj (Option.some.inj hblock)
        exact .unseen rfl rfl rfl rfl rfl rfl rfl rfl rfl rfl
  | _ => cases hblock

theorem moves_resumed (resume : Resume) (hallocates : allocates shared choice task = false)
    (hgeneration : next.generation = shared.generation)
    (hdisconnected : next.disconnected = shared.disconnected)
    (hlast : next.lastSequence = shared.lastSequence)
    (hexhausted : next.exhausted = shared.exhausted)
    (hflag : next.generationMismatch = shared.generationMismatch) :
    Moves binding shared choice task (resumed next resume).1 (resumed next resume).2 := by
  cases resume with
  | _ => exact .unseen hallocates hgeneration hdisconnected hlast hexhausted hflag rfl rfl rfl rfl

theorem moves_closeBlock (hblock : closeBlock binding shared task = some (next, task')) :
    Moves binding shared choice task next task' := by
  cases task with
  | close =>
      obtain ⟨rfl, rfl⟩ := Prod.mk.inj (Option.some.inj hblock)
      exact .unseen rfl rfl rfl rfl rfl rfl rfl rfl rfl rfl
  | closeLane =>
      simp only [closeBlock] at hblock
      split_ifs at hblock
      obtain ⟨rfl, rfl⟩ := Prod.mk.inj (Option.some.inj hblock)
      exact .disconnects rfl rfl rfl rfl rfl rfl rfl rfl rfl
  | disconnect resume =>
      obtain ⟨rfl, rfl⟩ := Prod.mk.inj (Option.some.inj hblock)
      cases resume with
      | close =>
          exact ⟨rfl, id, fun _ => ⟨rfl, rfl⟩, by simp [allocates], by simp [Task.admitted],
            by simp [Task.saw], .inl, fun _ => .inr rfl, by simp [Task.marks]⟩
      | _ => exact .unseen rfl rfl rfl rfl rfl rfl rfl rfl rfl rfl
  | cancel resume =>
      simp only [closeBlock] at hblock
      split at hblock
      · obtain ⟨rfl, rfl⟩ := Prod.mk.inj (Option.some.inj hblock)
        exact moves_resumed resume rfl rfl rfl rfl rfl rfl
      · obtain ⟨rfl, rfl⟩ := Prod.mk.inj (Option.some.inj hblock)
        cases resume with
        | close =>
          exact ⟨rfl, id, fun _ => ⟨rfl, rfl⟩, by simp [allocates], by simp [Task.admitted],
            by simp [Task.saw], .inl, fun _ => .inr rfl, by simp [Task.marks]⟩
        | _ => exact .unseen rfl rfl rfl rfl rfl rfl rfl rfl rfl rfl
  | cancelled handle resume =>
      simp only [closeBlock] at hblock
      split_ifs at hblock
      · obtain ⟨rfl, rfl⟩ := Prod.mk.inj (Option.some.inj hblock)
        exact moves_resumed resume rfl rfl rfl rfl rfl rfl
      · obtain ⟨rfl, rfl⟩ := Prod.mk.inj (Option.some.inj hblock)
        exact moves_resumed resume rfl rfl rfl rfl rfl rfl
  | mark marked =>
      obtain ⟨rfl, rfl⟩ := Prod.mk.inj (Option.some.inj hblock)
      exact ⟨rfl, id, fun _ => ⟨rfl, rfl⟩, by simp [allocates], by simp [Task.admitted],
        by simp [Task.saw], fun _ => .inr rfl, by simp [Task.closes], by simp [Task.marks]⟩
  | stop marked =>
      obtain ⟨rfl, rfl⟩ := Prod.mk.inj (Option.some.inj hblock)
      cases marked with
      | _ => exact .unseen rfl rfl rfl rfl rfl rfl rfl rfl rfl rfl
  | _ => cases hblock

theorem moves_publishBlock
    (hblock : publishBlock binding shared choice task = some (next, task')) :
    Moves binding shared choice task next task' := by
  cases task with
  | sample handle result origin =>
      obtain ⟨rfl, rfl⟩ := Prod.mk.inj (Option.some.inj hblock)
      exact .kept rfl rfl rfl rfl rfl rfl rfl rfl rfl .inr
  | reserve handle result mismatch origin =>
      simp only [publishBlock] at hblock
      split_ifs at hblock
      · obtain ⟨rfl, rfl⟩ := Prod.mk.inj (Option.some.inj hblock)
        cases origin with
        | _ => exact .unseen rfl rfl rfl rfl rfl rfl rfl rfl rfl rfl
      · obtain ⟨rfl, rfl⟩ := Prod.mk.inj (Option.some.inj hblock)
        exact .kept rfl rfl rfl rfl rfl rfl rfl rfl rfl .inl
      · obtain ⟨rfl, rfl⟩ := Prod.mk.inj (Option.some.inj hblock)
        exact .kept rfl rfl rfl rfl rfl rfl rfl rfl rfl .inl
  | validate handle result mismatch origin =>
      simp only [publishBlock] at hblock
      split_ifs at hblock with hmismatch
      · obtain ⟨rfl, rfl⟩ := Prod.mk.inj (Option.some.inj hblock)
        exact .kept rfl rfl rfl rfl rfl rfl rfl rfl rfl (fun _ => .inl hmismatch)
      · obtain ⟨rfl, rfl⟩ := Prod.mk.inj (Option.some.inj hblock)
        refine .kept rfl rfl rfl rfl rfl rfl rfl rfl rfl fun hsaw => .inr ?_
        simpa [Task.saw, observes, hmismatch] using hsaw
  | commit handle result mismatch sampled origin =>
      simp only [publishBlock] at hblock
      split_ifs at hblock
      · obtain ⟨rfl, rfl⟩ := Prod.mk.inj (Option.some.inj hblock)
        cases origin with
        | _ => exact .unseen rfl rfl rfl rfl rfl rfl rfl rfl rfl rfl
      · obtain ⟨rfl, rfl⟩ := Prod.mk.inj (Option.some.inj hblock)
        cases origin with
        | complete => exact .kept rfl rfl rfl rfl rfl rfl rfl rfl rfl .inl
        | poll waited malformed =>
            cases mismatch with
            | true => exact .kept rfl rfl rfl rfl rfl rfl rfl rfl rfl .inl
            | false => exact .unseen rfl rfl rfl rfl rfl rfl rfl rfl rfl rfl
      · obtain ⟨rfl, rfl⟩ := Prod.mk.inj (Option.some.inj hblock)
        cases origin with
        | complete => exact .kept rfl rfl rfl rfl rfl rfl rfl rfl rfl .inl
        | poll waited malformed =>
            cases mismatch with
            | true => exact .kept rfl rfl rfl rfl rfl rfl rfl rfl rfl .inl
            | false => exact .unseen rfl rfl rfl rfl rfl rfl rfl rfl rfl rfl
  | complete token result =>
      simp only [publishBlock] at hblock
      split at hblock
      · obtain ⟨rfl, rfl⟩ := Prod.mk.inj (Option.some.inj hblock)
        exact .unseen rfl rfl rfl rfl rfl rfl rfl rfl rfl rfl
      · split_ifs at hblock
        all_goals
          obtain ⟨rfl, rfl⟩ := Prod.mk.inj (Option.some.inj hblock)
          exact .unseen rfl rfl rfl rfl rfl rfl rfl rfl rfl rfl
  | unregister handle mismatch =>
      simp only [publishBlock] at hblock
      split_ifs at hblock with hpending hmismatch hmismatch
      · obtain ⟨rfl, rfl⟩ := Prod.mk.inj (Option.some.inj hblock)
        exact .kept rfl rfl rfl rfl rfl rfl rfl rfl rfl (fun _ => .inl hmismatch)
      · obtain ⟨rfl, rfl⟩ := Prod.mk.inj (Option.some.inj hblock)
        exact .unseen rfl rfl rfl rfl rfl rfl rfl rfl rfl rfl
      · obtain ⟨rfl, rfl⟩ := Prod.mk.inj (Option.some.inj hblock)
        exact .kept rfl rfl rfl rfl rfl rfl rfl rfl rfl (fun _ => .inl hmismatch)
      · obtain ⟨rfl, rfl⟩ := Prod.mk.inj (Option.some.inj hblock)
        exact .unseen rfl rfl rfl rfl rfl rfl rfl rfl rfl rfl
  | _ => cases hblock

theorem moves_waitBlock (hblock : waitBlock binding shared choice task = some (next, task')) :
    Moves binding shared choice task next task' := by
  cases task with
  | waitSample handle =>
      simp only [waitBlock] at hblock
      split_ifs at hblock with hmismatched
      · obtain ⟨rfl, rfl⟩ := Prod.mk.inj (Option.some.inj hblock)
        exact .kept rfl rfl rfl rfl rfl rfl rfl rfl rfl (fun _ => .inr hmismatched)
      · obtain ⟨rfl, rfl⟩ := Prod.mk.inj (Option.some.inj hblock)
        exact .unseen rfl rfl rfl rfl rfl rfl rfl rfl rfl rfl
  | _ =>
      -- nothing else of a wait touches the lane or the generation
      simp only [waitBlock] at hblock
      repeat' split at hblock
      all_goals cases hblock <;> exact .unseen rfl rfl rfl rfl rfl rfl rfl rfl rfl rfl

theorem moves_block (hblock : block binding shared choice task = some (next, task')) :
    Moves binding shared choice task next task' := by
  simp only [block, Option.orElse_eq_orElse, Option.orElse_eq_or, Option.or_eq_some_iff] at hblock
  rcases hblock with hsubmit | ⟨-, hbegin | ⟨-, hclose | ⟨-, hpublish | ⟨-, hwait⟩⟩⟩⟩
  · exact moves_submitBlock hsubmit
  · exact moves_beginBlock hbegin
  · exact moves_closeBlock hclose
  · exact moves_publishBlock hpublish
  · exact moves_waitBlock hwait

theorem moves_enter {call : Call} (henter : enter binding shared call = some (next, task')) :
    Moves binding shared choice .idle next task' := by
  cases call with
  | wait handle =>
      simp only [enter] at henter
      split_ifs at henter
      obtain ⟨rfl, rfl⟩ := Prod.mk.inj (Option.some.inj henter)
      exact .unseen rfl rfl rfl rfl rfl rfl rfl rfl rfl rfl
  | complete token result =>
      simp only [enter] at henter
      split_ifs at henter
      obtain ⟨rfl, rfl⟩ := Prod.mk.inj (Option.some.inj henter)
      exact .unseen rfl rfl rfl rfl rfl rfl rfl rfl rfl rfl
  | _ =>
      obtain ⟨rfl, rfl⟩ := Prod.mk.inj (Option.some.inj henter)
      exact .unseen rfl rfl rfl rfl rfl rfl rfl rfl rfl rfl

end Blocks

/-! ## What one block lets be seen -/

section Events

variable {binding : FencePublisherBinding} {shared : Shared} {choice : Choice} {caller : ℕ}
  {task : Task} {event : Event}

variable (binding shared choice caller task) in
/-- A block makes one Put, or lets nothing be seen that is one. -/
theorem eventsOf_cases :
    (task = .submitPut ∧ allocates shared choice task = true ∧
      eventsOf binding shared choice caller task = [.data caller (shared.lastSequence + 1)]) ∨
    (∃ handle budget, task = .putMarker handle budget ∧
      eventsOf binding shared choice caller task = [.marker caller handle.throughSequence]) ∨
    (allocates shared choice task = false ∧
      ∀ event ∈ eventsOf binding shared choice caller task, event.putOf = none) := by
  have hobserved : ∀ event ∈ (if observes binding shared choice task then
      [Event.mismatch caller] else []), event.putOf = none := by
    intro event hmem
    split_ifs at hmem with hobserves
    · rw [List.mem_singleton.mp hmem]
      rfl
    · cases hmem
  cases task with
  | submitPut =>
      by_cases hrefused : !choice.supported ∨ shared.exhausted
      · refine .inr (.inr ⟨?_, ?_⟩)
        · simpa [allocates, Decidable.or_iff_not_imp_left] using hrefused
        · simp only [eventsOf, if_pos hrefused]
          exact hobserved
      · refine .inl ⟨rfl, ?_, ?_⟩
        · simpa [allocates] using hrefused
        · simp only [eventsOf, if_neg hrefused]
          rfl
  | putMarker handle budget => exact .inr (.inl ⟨handle, budget, rfl, rfl⟩)
  | submitLane =>
      refine .inr (.inr ⟨rfl, fun event hmem => ?_⟩)
      rcases List.mem_append.mp hmem with hentered | hmem
      · rw [List.mem_singleton.mp hentered]
        rfl
      · exact hobserved event hmem
  | beginLane budget =>
      refine .inr (.inr ⟨rfl, fun event hmem => ?_⟩)
      rcases List.mem_append.mp hmem with hentered | hmem
      · rw [List.mem_singleton.mp hentered]
        rfl
      · exact hobserved event hmem
  | cancel resume =>
      refine .inr (.inr ⟨rfl, fun event hmem => ?_⟩)
      rcases List.mem_append.mp hmem with hclosed | hmem
      · cases resume with
        | close =>
            simp only at hclosed
            split_ifs at hclosed
            · rw [List.mem_singleton.mp hclosed]
              rfl
            · cases hclosed
        | _ => cases hclosed
      · exact hobserved event hmem
  | cancelled handle resume =>
      refine .inr (.inr ⟨rfl, fun event hmem => ?_⟩)
      rcases List.mem_append.mp hmem with hclosed | hmem
      · cases resume with
        | close =>
            rw [List.mem_singleton.mp hclosed]
            rfl
        | _ => cases hclosed
      · exact hobserved event hmem
  | _ => exact .inr (.inr ⟨rfl, hobserved⟩)

theorem enters_of_mem {other : ℕ}
    (hmem : .entered other ∈ eventsOf binding shared choice caller task) :
    other = caller ∧ task.enters = true := by
  rcases List.mem_append.mp hmem with hmem | hmem
  · split at hmem
    · exact ⟨Event.entered.inj (List.mem_singleton.mp hmem), rfl⟩
    · exact ⟨Event.entered.inj (List.mem_singleton.mp hmem), rfl⟩
    all_goals
      try split_ifs at hmem
      all_goals simp at hmem
  · split_ifs at hmem
    all_goals simp at hmem

theorem closes_or_observes (hmem : event ∈ eventsOf binding shared choice caller task)
    (hstops : event.stops = true) :
    task.closes = true ∨ observes binding shared choice task = true := by
  rcases List.mem_append.mp hmem with hmem | hmem
  · left
    split at hmem
    case h_5 | h_6 => rfl
    all_goals
      try split_ifs at hmem
      all_goals
        simp at hmem
        try
          subst hmem
          cases hstops
  · split_ifs at hmem with hobserves
    · exact .inr hobserves
    · cases hmem

theorem mismatched_of_observes (hobserves : observes binding shared choice task = true) :
    shared.mismatched binding choice = true := by
  unfold observes at hobserves
  split at hobserves
  · exact (Bool.and_eq_true_iff.mp hobserves).2
  · exact (Bool.and_eq_true_iff.mp hobserves).2
  · exact (Bool.and_eq_true_iff.mp hobserves).2
  · exact (Bool.and_eq_true_iff.mp hobserves).2
  · exact hobserves
  · exact hobserves
  · exact (Bool.and_eq_true_iff.mp hobserves).2
  · cases hobserves

/-- A section that is admitted lets be seen only that it begins. -/
theorem eventsOf_enters (henters : task.enters = true)
    (hmismatched : shared.mismatched binding choice = false) :
    eventsOf binding shared choice caller task = [.entered caller] := by
  cases task with
  | submitLane => simp [eventsOf, observes, hmismatched]
  | beginLane budget => simp [eventsOf, observes, hmismatched]
  | _ => cases henters

end Events

/-! ## Runs -/

section Runs

variable {binding : FencePublisherBinding} {seen : List Event} {state next : State}

@[simp]
theorem dataPuts_append (left right : List Event) :
    dataPuts (left ++ right) = dataPuts left ++ dataPuts right :=
  List.filterMap_append

theorem dataPuts_of_putOf {events : List Event} (hnone : ∀ event ∈ events, event.putOf = none) :
    dataPuts events = [] := by
  refine List.filterMap_eq_nil_iff.mpr fun event hmem => ?_
  cases event with
  | data caller sequence => cases hnone _ hmem
  | _ => rfl

/-- The lane section that the caller is in, or was in last, began before anything stopped the
publisher. -/
def Entered (caller : ℕ) (seen : List Event) : Prop :=
  ∃ before after, seen = before ++ Event.entered caller :: after ∧ .entered caller ∉ after ∧
    ∀ event ∈ before, event.stops = false

theorem Entered.append {caller : ℕ} (hentered : Entered caller seen) {events : List Event}
    (hevents : .entered caller ∉ events) : Entered caller (seen ++ events) := by
  obtain ⟨before, after, rfl, hafter, hbefore⟩ := hentered
  refine ⟨before, after ++ events, by simp, ?_, hbefore⟩
  simp [hafter, hevents]

/-- A datum carries the number of the data before it and itself, a marker the number of the data
before it, and both are put in a section that began in time. -/
def Counted (before : List Event) : Event → Prop
  | .data caller sequence =>
      sequence.toNat = (dataPuts before).length + 1 ∧ Entered caller before
  | .marker caller throughSequence =>
      throughSequence.toNat = (dataPuts before).length ∧ Entered caller before
  | _ => True

theorem counted_of_putOf {event : Event} (hnone : event.putOf = none) (before : List Event) :
    Counted before event := by
  cases event with
  | data caller sequence => cases hnone
  | marker caller throughSequence => cases hnone
  | _ => trivial

/-- The transport has left the generation that the publisher is bound to. -/
def Left (binding : FencePublisherBinding) (state : State) : Prop :=
  state.shared.generation ≠ binding.transportGeneration

structure Numbered (binding : FencePublisherBinding) (seen : List Event) (state : State) :
    Prop where
  inv : Inv binding state
  last : state.shared.lastSequence.toNat = (dataPuts seen).length
  exhausted : state.shared.exhausted = (state.shared.lastSequence == 0xFFFFFFFFFFFFFFFF)
  counted : AtEach Counted seen
  stopped : ∀ event ∈ seen, event.stops = true →
    state.shared.disconnected = true ∨ Left binding state
  flag : state.shared.generationMismatch = true → Left binding state
  saw : ∀ task, (state.tasks task).saw = true → Left binding state
  closes : ∀ task, (state.tasks task).closes = true → state.shared.disconnected = true
  marks : ∀ task through, (state.tasks task).marks = some through →
    through = state.shared.lastSequence
  admitted : ∀ task, (state.tasks task).admitted = true → Entered task seen

theorem numbered_start (binding : FencePublisherBinding) :
    Numbered binding [] (start binding) where
  inv := inv_start binding
  last := rfl
  exhausted := rfl
  counted := atEach_nil
  stopped := nofun
  flag := nofun
  saw := nofun
  closes := nofun
  marks := nofun
  admitted := nofun

theorem Numbered.left_of_mismatched (hnumbered : Numbered binding seen state) {choice : Choice}
    (hmismatched : state.shared.mismatched binding choice = true) : Left binding state := by
  rcases Bool.or_eq_true_iff.mp hmismatched with hflag | hleft
  · exact hnumbered.flag (Bool.and_eq_true_iff.mp hflag).1
  · exact bne_iff_ne.mp hleft

theorem lane_of_marks {task : Task} {through : UInt64} (hmarks : task.marks = some through) :
    task.lane = true := by
  cases task with
  | putMarker handle budget => rfl
  | _ => cases hmarks

theorem lane_of_allocates {shared : Shared} {choice : Choice} {task : Task}
    (hallocates : allocates shared choice task = true) : task.lane = true := by
  cases task with
  | submitPut => rfl
  | _ => cases hallocates

/-- The next number, while there is one, is one more than the last. -/
theorem toNat_succ {last : UInt64} (hlast : (last == 0xFFFFFFFFFFFFFFFF) = false) :
    (last + 1).toNat = last.toNat + 1 := by
  have hne : last ≠ 0xFFFFFFFFFFFFFFFF := by simpa using hlast
  have hlt : last.toNat ≠ 2 ^ 64 - 1 := by
    intro htop
    exact hne (UInt64.toNat_inj.mp (by rw [htop]; rfl))
  have hbound := last.toNat_lt
  rw [UInt64.toNat_add]
  exact Nat.mod_eq_of_lt (by simp; omega)

theorem Numbered.counts (hnumbered : Numbered binding seen state) {caller : ℕ} {choice : Choice}
    {shared : Shared} {task' : Task}
    (hmoves : Moves binding state.shared choice (state.tasks caller) shared task') :
    shared.lastSequence.toNat =
        (dataPuts (seen ++ eventsOf binding state.shared choice caller
          (state.tasks caller))).length ∧
      shared.exhausted = (shared.lastSequence == 0xFFFFFFFFFFFFFFFF) ∧
      AtEach Counted
        (seen ++ eventsOf binding state.shared choice caller (state.tasks caller)) := by
  rcases eventsOf_cases binding state.shared choice caller (state.tasks caller) with
    ⟨htask, hallocates, hevents⟩ | ⟨handle, budget, htask, hevents⟩ | ⟨hidle, hnone⟩
  · obtain ⟨hopen, hnext, hexhausted⟩ := hmoves.allocated hallocates
    have hroom := hnumbered.exhausted.symm.trans hopen
    have hentered := hnumbered.admitted caller (by rw [htask]; rfl)
    have hsucc : (state.shared.lastSequence + 1).toNat = (dataPuts seen).length + 1 := by
      rw [toNat_succ hroom, hnumbered.last]
    rw [hevents]
    refine ⟨?_, hexhausted, hnumbered.counted.snoc ⟨hsucc, hentered⟩⟩
    rw [hnext, hsucc, dataPuts_append, List.length_append]
    rfl
  · have hcounter := hmoves.counter (by rw [htask]; rfl)
    have hthrough := hnumbered.marks caller handle.throughSequence (by rw [htask]; rfl)
    have hentered := hnumbered.admitted caller (by rw [htask]; rfl)
    rw [hevents, hcounter.1, hcounter.2]
    refine ⟨?_, hnumbered.exhausted, hnumbered.counted.snoc ⟨?_, hentered⟩⟩
    · rw [hnumbered.last, dataPuts_append, List.length_append]
      rfl
    · rw [hthrough, hnumbered.last]
  · have hcounter := hmoves.counter hidle
    rw [hcounter.1, hcounter.2]
    refine ⟨?_, hnumbered.exhausted, hnumbered.counted.append fun event hmem before =>
      counted_of_putOf (hnone event hmem) before⟩
    rw [hnumbered.last, dataPuts_append, dataPuts_of_putOf hnone, List.append_nil]

theorem Numbered.enters (hnumbered : Numbered binding seen state) {caller : ℕ} {choice : Choice}
    {shared : Shared} {task' : Task}
    (hmoves : Moves binding state.shared choice (state.tasks caller) shared task')
    (hadmitted : task'.admitted = true) :
    Entered caller
      (seen ++ eventsOf binding state.shared choice caller (state.tasks caller)) := by
  rcases hmoves.admitted hadmitted with hbefore | ⟨henters, hconnected, hmatched⟩
  · refine (hnumbered.admitted caller hbefore).append fun hmem => ?_
    obtain ⟨-, henters⟩ := enters_of_mem hmem
    cases htask : state.tasks caller with
    | submitLane => simp [htask, Task.admitted] at hbefore
    | beginLane budget => simp [htask, Task.admitted] at hbefore
    | _ => simp [htask, Task.enters] at henters
  · refine ⟨seen, [], by rw [eventsOf_enters henters hmatched], List.not_mem_nil, ?_⟩
    intro event hmem
    by_contra hstops
    rcases hnumbered.stopped event hmem (by simpa using hstops) with hdisconnected | hleft
    · simp [hconnected] at hdisconnected
    · simp only [Shared.mismatched, Bool.or_eq_false_iff, bne_eq_false_iff_eq] at hmatched
      exact hleft hmatched.2

theorem Numbered.replace (hnumbered : Numbered binding seen state) {caller : ℕ} {choice : Choice}
    {shared : Shared} {task' : Task}
    (hmoves : Moves binding state.shared choice (state.tasks caller) shared task')
    (hinv : Inv binding (state.replace caller shared task')) :
    Numbered binding
      (seen ++ eventsOf binding state.shared choice caller (state.tasks caller))
      (state.replace caller shared task') := by
  obtain ⟨hlast, hexhausted, hcounted⟩ := hnumbered.counts hmoves
  have hleft : Left binding state → Left binding (state.replace caller shared task') := by
    intro hleft
    rw [Left, Config.replace_shared, hmoves.generation]
    exact hleft
  refine ⟨hinv, hlast, hexhausted, hcounted, ?_, ?_, ?_, ?_, ?_, ?_⟩
  · intro event hmem hstops
    rcases List.mem_append.mp hmem with hseen | hnew
    · exact (hnumbered.stopped event hseen hstops).imp hmoves.disconnected hleft
    · rcases closes_or_observes hnew hstops with hcloses | hobserves
      · exact .inl (hmoves.disconnected (hnumbered.closes caller hcloses))
      · exact .inr (hleft (hnumbered.left_of_mismatched (mismatched_of_observes hobserves)))
  · intro hflag
    rcases hmoves.flag hflag with hbefore | hsaw
    · exact hleft (hnumbered.flag hbefore)
    · exact hleft (hnumbered.saw caller hsaw)
  · refine Config.replace_forall (fun _ (task : Task) => task.saw = true → _)
      (fun hsaw => hleft ?_) fun other _ hsaw => hleft (hnumbered.saw other hsaw)
    rcases hmoves.saw hsaw with hbefore | hobserves
    · exact hnumbered.saw caller hbefore
    · exact hnumbered.left_of_mismatched (mismatched_of_observes hobserves)
  · refine Config.replace_forall (fun _ (task : Task) => task.closes = true → _)
      (fun hcloses => ?_) fun other _ hcloses =>
        hmoves.disconnected (hnumbered.closes other hcloses)
    rcases hmoves.closes hcloses with hnow | hbefore
    · exact hnow
    · exact hmoves.disconnected (hnumbered.closes caller hbefore)
  · refine Config.replace_forall (fun _ (task : Task) => ∀ through, task.marks = some through →
        through = shared.lastSequence) hmoves.marks fun other hother through hmarks => ?_
    -- the holder of a marker holds the lane, so nobody else allocates
    have hidle : allocates state.shared choice (state.tasks caller) = false := by
      by_contra hallocates
      refine (hnumbered.inv.compatible caller other (Ne.symm hother)).lane
        ⟨lane_of_allocates (by simpa using hallocates), lane_of_marks hmarks⟩
    rw [(hmoves.counter hidle).1]
    exact hnumbered.marks other through hmarks
  · refine Config.replace_forall
      (fun other (task : Task) => task.admitted = true → Entered other _)
      (hnumbered.enters hmoves) fun other hother hadmitted => ?_
    refine (hnumbered.admitted other hadmitted).append fun hmem => ?_
    exact hother (enters_of_mem hmem).1

theorem length_unusedRandom : (List.replicate 16 (0 : UInt8)).length = 16 := rfl

/-- What a call finds when it has not made a block yet. -/
def Choice.unused : Choice :=
  { missed := true, supported := false, putStatus := .ok,
    random := ⟨List.replicate 16 0, length_unusedRandom⟩,
    reply := none }

theorem Numbered.step {action : Action} (hnumbered : Numbered binding seen state)
    (hreplaced : ∀ generation, action = .replaceGeneration generation →
      generation ≠ binding.transportGeneration)
    (hstep : step binding state action = some next) :
    Numbered binding (seen ++ emits binding state action) next := by
  have hinv := inv_step hnumbered.inv hstep
  cases action with
  | advance now =>
      simp only [Waiter.step] at hstep
      split_ifs at hstep
      obtain rfl := Option.some.inj hstep
      simp only [emits, List.append_nil]
      exact { hnumbered with inv := hinv }
  | replaceGeneration generation =>
      obtain rfl := Option.some.inj hstep
      have hleft := hreplaced generation rfl
      simp only [emits, List.append_nil]
      exact
        { hnumbered with
          inv := hinv
          stopped := fun _ _ _ => .inr hleft
          flag := fun _ => hleft
          saw := fun _ _ => hleft }
  | call task call =>
      simp only [Waiter.step] at hstep
      split at hstep
      · rename_i hidle
        obtain ⟨⟨shared, task'⟩, henter, rfl⟩ := Option.map_eq_some_iff.mp hstep
        have hmoves : Moves binding state.shared .unused (state.tasks task) shared task' := by
          rw [hidle]
          exact moves_enter henter
        have hnext := hnumbered.replace hmoves hinv
        rw [hidle] at hnext
        exact hnext
      · cases hstep
  | block task choice =>
      obtain ⟨⟨shared, task'⟩, hblock, rfl⟩ := Option.map_eq_some_iff.mp hstep
      exact hnumbered.replace (moves_block hblock) hinv

/-- Data that carry the number of those before them are numbered from one. -/
theorem dataPuts_eq_range (hcounted : AtEach Counted seen) :
    (dataPuts seen).map UInt64.toNat = List.range' 1 (dataPuts seen).length := by
  induction seen using List.reverseRecOn with
  | nil => rfl
  | append_singleton seen event ih =>
      have hseen := ih fun before other after hsplit =>
        hcounted before other (after ++ [event]) (by rw [hsplit]; simp)
      cases event with
      | data caller sequence =>
          have hsequence := (hcounted seen _ [] rfl).1
          have hsnoc : dataPuts (seen ++ [.data caller sequence]) = dataPuts seen ++ [sequence] :=
            dataPuts_append seen _
          calc (dataPuts (seen ++ [.data caller sequence])).map UInt64.toNat
              = (dataPuts seen).map UInt64.toNat ++ [sequence.toNat] := by
                rw [hsnoc, List.map_append, List.map_singleton]
            _ = List.range' 1 (dataPuts seen).length ++ [1 + (dataPuts seen).length] := by
                rw [hseen, hsequence, Nat.add_comm 1]
            _ = List.range' 1 ((dataPuts seen).length + 1) := List.range'_1_concat.symm
            _ = List.range' 1 (dataPuts (seen ++ [.data caller sequence])).length := by
                rw [hsnoc, List.length_append, List.length_singleton]
      | _ => simpa [dataPuts] using hseen

/-- However callers interleave: the data carry the numbers from one on, of which the publisher has
used up no other and never one twice; a Fence carries the number of the data before it; and no Put
belongs to a lane section that began after a `Close` had returned or a caller had found another
generation. -/
theorem sequence_allocation (binding : FencePublisherBinding) (actions : List Action)
    (state : State)
    (hreplaced : ∀ generation, .replaceGeneration generation ∈ actions →
      generation ≠ binding.transportGeneration)
    (hrun : run (step binding) (start binding) actions = some state) :
    let seen := log (step binding) (emits binding) (start binding) actions
    (dataPuts seen).map UInt64.toNat = List.range' 1 (dataPuts seen).length ∧
    (dataPuts seen).Nodup ∧ (dataPuts seen).length ≤ 2 ^ 64 - 1 ∧
    state.shared.lastSequence.toNat = (dataPuts seen).length ∧
    (∀ before caller throughSequence after,
      seen = before ++ Event.marker caller throughSequence :: after →
      throughSequence.toNat = (dataPuts before).length) ∧
    (∀ before event after caller, seen = before ++ event :: after →
      event.putOf = some caller → Entered caller before) := by
  intro seen
  have hnumbered : Numbered binding seen state :=
    run_log (emits binding) (Numbered binding) (numbered_start binding)
      (fun seen state action next hmem hnumbered hstep =>
        hnumbered.step (fun generation haction => hreplaced generation (haction ▸ hmem)) hstep)
      hrun
  have hrange := dataPuts_eq_range hnumbered.counted
  refine ⟨hrange, ?_, ?_, hnumbered.last, ?_, ?_⟩
  · refine List.Nodup.of_map UInt64.toNat ?_
    rw [hrange]
    exact List.nodup_range'
  · rw [← hnumbered.last]
    have := state.shared.lastSequence.toNat_lt
    omega
  · intro before caller throughSequence after hsplit
    exact (hnumbered.counted before _ after hsplit).1
  · intro before event after caller hsplit hput
    have hevent := hnumbered.counted before event after hsplit
    cases event with
    | data other sequence =>
        obtain rfl := Option.some.inj hput
        exact hevent.2
    | marker other throughSequence =>
        obtain rfl := Option.some.inj hput
        exact hevent.2
    | _ => cases hput

end Runs

/-- Two data, a Fence that covers both, and a third datum of a caller that finds the transport on
another generation: it is never put. -/
theorem sequence_allocation_replaced :
    ∃ (binding : FencePublisherBinding) (actions : List Action) (state : State),
      run (step binding) (start binding) actions = some state ∧
      log (step binding) (emits binding) (start binding) actions =
        [.entered 0, .data 0 1, .entered 1, .data 1 2, .entered 2, .marker 2 2, .entered 3,
          .mismatch 3] ∧
      state.shared.lastSequence.toNat = 2 := by
  let uuid : AckToken := generateAckToken ⟨List.replicate 16 7, by decide⟩
  let binding : FencePublisherBinding :=
    { target := .cache, keyPrefix := ascii "p", sid := ascii "s", receiverGeneration := uuid,
      publisherUuid := uuid, bufferClass := none, durability := .applied, syncedAllowed := false,
      transportGeneration := 1 }
  let choice : Choice :=
    { missed := false, supported := true, putStatus := .ok, random := uuid, reply := none }
  let actions : List Action :=
    List.flatten
      [Action.call 0 .submitData :: List.replicate 4 (.block 0 choice),
        Action.call 1 .submitData :: List.replicate 4 (.block 1 { choice with putStatus := .error }),
        Action.call 2 (.beginFence 5) :: List.replicate 6 (.block 2 choice),
        [.call 3 .submitData, .block 3 choice, .replaceGeneration 2, .block 3 choice]]
  have hends : (run (step binding) (start binding) actions).isSome = true := by decide +kernel
  have hseen : log (step binding) (emits binding) (start binding) actions =
      [.entered 0, .data 0 1, .entered 1, .data 1 2, .entered 2, .marker 2 2, .entered 3,
        .mismatch 3] := by
    decide +kernel
  obtain ⟨state, hrun⟩ := Option.isSome_iff_exists.mp hends
  have hreplaced : ∀ generation, .replaceGeneration generation ∈ actions →
      generation ≠ binding.transportGeneration := by
    intro generation hmem
    have hmem : generation = 2 := by simpa [actions] using hmem
    rw [hmem]
    decide
  obtain ⟨-, -, -, hlast, -⟩ := sequence_allocation binding actions state hreplaced hrun
  rw [hseen] at hlast
  exact ⟨binding, actions, state, hrun, hseen, hlast⟩

end Sitos.Waiter
