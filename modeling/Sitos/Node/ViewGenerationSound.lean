import Sitos.Node.ViewGeneration

/-!
# A view reads one generation

Every overlay belongs to the one record it was made for, and a view keeps the number of the
overlay of the record it was opened on.  So a record that passes the owner check is that record,
and what ended that record ends the view for ever.
-/

namespace Sitos.ViewGeneration

open Sitos.AckResult
open Sitos.Bytes
open Sitos.Machine
open Sitos.Query
open Sitos.Tasks

namespace Task

/-- Whether the task holds the mutex of `Start` and `Stop`. -/
def operates : Task → Bool
  | reconcile _ | activateState _ | declareQueryable _ | quiesce _ | drainState _ | extract _
  | closeExtracted _ _ | drainExtracted _ _ | releaseExtracted _ _ => true
  | _ => false

/-- The state that is being started and has not been activated. -/
def stages : Task → Option ℕ
  | reconcile state | activateState state => some state
  | _ => none

/-- The record that is being created and has no overlay yet. -/
def creates : Task → Option ℕ
  | publish _ record | takeSnapshot _ record => some record
  | _ => none

/-- The state that a task of `Start`, `Stop` or `Open` works on. -/
def state : Task → Option ℕ
  | reconcile state | activateState state | declareQueryable state | quiesce state
  | drainState state | extract state | closeExtracted state _ | drainExtracted state _
  | releaseExtracted state _ | openEnter state _ | openSelect state _ => some state
  | _ => none

/-- Whether the task is a `Get`, a `Contains` or a `List`. -/
def ofView : Task → Bool
  | operate _ _ | enterView _ _ | acquireReaders _ _ | readOverlay _ _ _ | readSnapshot _ _ _ _
  | leaveReaders _ _ _ _ | leaveView _ _ _ | returned _ _ _ _ => true
  | _ => false

end Task

section Facts

variable (shared : Shared)

/-- The overlay of the view is the one that its record was created with. -/
def ViewAt (view : View) : Prop :=
  view.state < shared.started ∧
    ∃ snapshot, (shared.records view.record).made = some (view.overlayOwner, snapshot)

/-- The view is opened: its session is active, and its overlay is remembered. -/
structure Opens (view : View) : Prop where
  mapped : shared.find view.state view.sid = some view.record
  active : (shared.records view.record).phase = .active
  unreleased : (shared.records view.record).lifecycle = .active
  overlay : (shared.records view.record).overlay = some view.overlayOwner

/-- What a task knows at the point where it stands. -/
def Knows : Task → Prop
  | .openLeave view | .opened view | .operate view _ | .enterView view _
  | .acquireReaders view _ => ViewAt shared view
  | .readOverlay view _ held | .readSnapshot view _ held _ | .leaveReaders view _ held _ =>
      (shared.records view.record).made = some (held.overlay, held.snapshot)
  | .leaveView _ op answer | .returned _ op answer none => ∃ failure, answer = op.fails failure
  | .returned view _ _ (some readers) => (shared.records view.record).made = some readers
  | _ => True

structure At (task : Task) : Prop where
  operation : task.operates = true → shared.operation = true
  staged : ∀ state, task.stages = some state → (shared.states state).stopped = false
  creating : ∀ record, task.creates = some record →
    record < shared.allocated ∧ (shared.records record).made = none
  known : ∀ state, task.state = some state → state < shared.started
  knows : Knows shared task

structure Holds : Prop where
  unmade : ∀ record, shared.allocated ≤ record → (shared.records record).made = none
  bounded : ∀ record overlay snapshot,
    (shared.records record).made = some (overlay, snapshot) → overlay < shared.overlayCount
  single : ∀ record other overlay snapshot snapshot',
    (shared.records record).made = some (overlay, snapshot) →
    (shared.records other).made = some (overlay, snapshot') → record = other
  overlay : ∀ record overlay, (shared.records record).overlay = some overlay →
    ∃ snapshot, (shared.records record).made = some (overlay, snapshot)
  snapshot : ∀ record snapshot, (shared.records record).snapshot = some snapshot →
    ∃ overlay, (shared.records record).made = some (overlay, snapshot)
  stopped : ∀ state, (shared.states state).stopped = true →
    (shared.states state).accepting = false
  current : ∀ state, shared.state = some state → state < shared.started
  views : ∀ view ∈ shared.views, ViewAt shared view

end Facts

structure Compatible (first second : Task) : Prop where
  operates : ¬(first.operates = true ∧ second.operates = true)
  creates : ∀ record, first.creates = some record → second.creates ≠ some record

theorem Compatible.symm {first second : Task} (hcompatible : Compatible first second) :
    Compatible second first where
  operates hboth := hcompatible.operates ⟨hboth.2, hboth.1⟩
  creates record hsecond hfirst := hcompatible.creates record hfirst hsecond

/-! ## What a block does to the others -/

section Blocks

variable {shared middle next : Shared} {task task' : Task}

variable (shared next task) in
structure Effect : Prop where
  allocated : shared.allocated ≤ next.allocated
  started : shared.started ≤ next.started
  kept : ∀ record made, (shared.records record).made = some made →
    (next.records record).made = some made
  unmade : ∀ record < shared.allocated, (shared.records record).made = none →
    (next.records record).made = none ∨ task.creates = some record
  operation : shared.operation = true → next.operation = true ∨ task.operates = true
  unstopped : ∀ state, (shared.states state).stopped = false →
    (next.states state).stopped = false ∨ task.operates = true
  stopped : ∀ state < shared.started, (shared.states state).stopped = true →
    (next.states state).stopped = true
  closing : ∀ record < shared.allocated, (shared.records record).phase = .closing →
    (next.records record).phase = .closing
  released : ∀ record < shared.allocated, (shared.records record).lifecycle ≠ .active →
    (next.records record).lifecycle ≠ .active
  snapshots : next.snapshots = shared.snapshots
  views : ∀ view ∈ next.views, view ∈ shared.views ∨ Opens shared view

variable (shared task task') in
structure Claims : Prop where
  operates : task'.operates = true → task.operates = true ∨ shared.operation = false
  creates : ∀ record, task'.creates = some record →
    task.creates = some record ∨ shared.allocated ≤ record
  ofView : task'.ofView = true → task.ofView = true ∨ task = .idle

theorem ViewAt.mono {view : View} (hview : ViewAt shared view) (hstarted : shared.started ≤ next.started)
    (hkept : ∀ record made, (shared.records record).made = some made →
      (next.records record).made = some made) : ViewAt next view := by
  obtain ⟨hstate, snapshot, hmade⟩ := hview
  exact ⟨hstate.trans_le hstarted, snapshot, hkept _ _ hmade⟩

theorem Knows.mono (hknows : Knows shared task) (hstarted : shared.started ≤ next.started)
    (hkept : ∀ record made, (shared.records record).made = some made →
      (next.records record).made = some made) : Knows next task := by
  cases task with
  | openLeave view => exact ViewAt.mono hknows hstarted hkept
  | opened view => exact ViewAt.mono hknows hstarted hkept
  | operate view op => exact ViewAt.mono hknows hstarted hkept
  | enterView view op => exact ViewAt.mono hknows hstarted hkept
  | acquireReaders view op => exact ViewAt.mono hknows hstarted hkept
  | readOverlay view op held => exact hkept _ _ hknows
  | readSnapshot view op held found => exact hkept _ _ hknows
  | leaveReaders view op held answer => exact hkept _ _ hknows
  | leaveView view op answer => exact hknows
  | returned view op answer readers =>
      cases readers with
      | none => exact hknows
      | some readers => exact hkept _ _ hknows
  | _ => exact trivial

theorem operates_of_stages {state : ℕ} (hstages : task.stages = some state) :
    task.operates = true := by
  cases task with
  | reconcile state => rfl
  | activateState state => rfl
  | _ => cases hstages

theorem undisturbed (heffect : Effect shared next task) (hclaims : Claims shared task task') :
    Undisturbed At Compatible shared task next task' := by
  intro other hat hcompatible
  refine ⟨⟨?_, ?_, ?_, ?_, ?_⟩, ⟨?_, ?_⟩⟩
  · intro hoperates
    rcases heffect.operation (hat.operation hoperates) with hnext | htask
    · exact hnext
    · exact absurd ⟨htask, hoperates⟩ hcompatible.operates
  · intro state hstages
    rcases heffect.unstopped state (hat.staged state hstages) with hnext | htask
    · exact hnext
    · exact absurd ⟨htask, operates_of_stages hstages⟩ hcompatible.operates
  · intro record hcreates
    obtain ⟨hlt, hmade⟩ := hat.creating record hcreates
    rcases heffect.unmade record hlt hmade with hnext | htask
    · exact ⟨hlt.trans_le heffect.allocated, hnext⟩
    · exact absurd hcreates (hcompatible.creates record htask)
  · exact fun state hstate => (hat.known state hstate).trans_le heffect.started
  · exact hat.knows.mono heffect.started heffect.kept
  · rintro ⟨hnext, hother⟩
    rcases hclaims.operates hnext with htask | hfree
    · exact hcompatible.operates ⟨htask, hother⟩
    · exact absurd (hat.operation hother) (by simp [hfree])
  · intro record hnext hother
    rcases hclaims.creates record hnext with htask | hfresh
    · exact hcompatible.creates record htask hother
    · exact absurd (hat.creating record hother).1 (not_lt.mpr hfresh)

/-! ## Blocks that make nothing -/

variable (shared next) in
/-- Nothing is made, started or stopped, and no session comes back. -/
structure Quiet : Prop where
  allocated : next.allocated = shared.allocated
  started : next.started = shared.started
  overlayCount : next.overlayCount = shared.overlayCount
  operation : next.operation = shared.operation
  views : next.views = shared.views
  state : next.state = shared.state
  snapshots : next.snapshots = shared.snapshots
  made : ∀ record, (next.records record).made = (shared.records record).made
  overlay : ∀ record overlay, (next.records record).overlay = some overlay →
    (shared.records record).overlay = some overlay
  snapshot : ∀ record snapshot, (next.records record).snapshot = some snapshot →
    (shared.records record).snapshot = some snapshot
  closing : ∀ record, (shared.records record).phase = .closing →
    (next.records record).phase = .closing
  released : ∀ record, (shared.records record).lifecycle ≠ .active →
    (next.records record).lifecycle ≠ .active
  stopped : ∀ state, (next.states state).stopped = (shared.states state).stopped
  accepting : ∀ state, (next.states state).accepting = (shared.states state).accepting

theorem quiet_refl (shared : Shared) : Quiet shared shared :=
  ⟨rfl, rfl, rfl, rfl, rfl, rfl, rfl, fun _ => rfl, fun _ _ h => h, fun _ _ h => h, fun _ h => h,
    fun _ h => h, fun _ => rfl, fun _ => rfl⟩

theorem Quiet.trans (hfirst : Quiet shared middle) (hsecond : Quiet middle next) :
    Quiet shared next where
  allocated := hsecond.allocated.trans hfirst.allocated
  started := hsecond.started.trans hfirst.started
  overlayCount := hsecond.overlayCount.trans hfirst.overlayCount
  operation := hsecond.operation.trans hfirst.operation
  views := hsecond.views.trans hfirst.views
  state := hsecond.state.trans hfirst.state
  snapshots := hsecond.snapshots.trans hfirst.snapshots
  made record := (hsecond.made record).trans (hfirst.made record)
  overlay record overlay h := hfirst.overlay record overlay (hsecond.overlay record overlay h)
  snapshot record snapshot h :=
    hfirst.snapshot record snapshot (hsecond.snapshot record snapshot h)
  closing record h := hsecond.closing record (hfirst.closing record h)
  released record h := hsecond.released record (hfirst.released record h)
  stopped state := (hsecond.stopped state).trans (hfirst.stopped state)
  accepting state := (hsecond.accepting state).trans (hfirst.accepting state)

theorem Quiet.kept (hquiet : Quiet shared next) (record : ℕ) (made : ℕ × ℕ)
    (hmade : (shared.records record).made = some made) : (next.records record).made = some made :=
  (hquiet.made record).trans hmade

theorem Holds.quiet (hholds : Holds shared) (hquiet : Quiet shared next) : Holds next where
  unmade record hle := by
    rw [hquiet.made]
    exact hholds.unmade record (hquiet.allocated ▸ hle)
  bounded record overlay snapshot hmade := by
    rw [hquiet.made] at hmade
    rw [hquiet.overlayCount]
    exact hholds.bounded record overlay snapshot hmade
  single record other overlay snapshot snapshot' hmade hother := by
    rw [hquiet.made] at hmade hother
    exact hholds.single record other overlay snapshot snapshot' hmade hother
  overlay record overlay hoverlay := by
    rw [hquiet.made]
    exact hholds.overlay record overlay (hquiet.overlay record overlay hoverlay)
  snapshot record snapshot hsnapshot := by
    rw [hquiet.made]
    exact hholds.snapshot record snapshot (hquiet.snapshot record snapshot hsnapshot)
  stopped state hstopped := by
    rw [hquiet.accepting]
    exact hholds.stopped state (hquiet.stopped state ▸ hstopped)
  current state hstate := by
    rw [hquiet.started]
    exact hholds.current state (hquiet.state ▸ hstate)
  views view hview := by
    rw [hquiet.views] at hview
    exact (hholds.views view hview).mono hquiet.started.ge hquiet.kept

theorem Quiet.effect (hquiet : Quiet shared next) : Effect shared next task where
  allocated := hquiet.allocated.ge
  started := hquiet.started.ge
  kept := hquiet.kept
  unmade record _ hmade := .inl ((hquiet.made record).trans hmade)
  operation hoperation := .inl (hquiet.operation.trans hoperation)
  unstopped state hstopped := .inl ((hquiet.stopped state).trans hstopped)
  stopped state _ hstopped := (hquiet.stopped state).trans hstopped
  closing record _ := hquiet.closing record
  released record _ := hquiet.released record
  snapshots := hquiet.snapshots
  views _ hview := .inl (hquiet.views ▸ hview)

theorem quiet_modify {record : ℕ} {change : SessionRecord → SessionRecord}
    (hmade : (change (shared.records record)).made = (shared.records record).made)
    (hoverlay : (change (shared.records record)).overlay = (shared.records record).overlay ∨
      (change (shared.records record)).overlay = none)
    (hsnapshot : (change (shared.records record)).snapshot = (shared.records record).snapshot ∨
      (change (shared.records record)).snapshot = none)
    (hclosing : (shared.records record).phase = .closing →
      (change (shared.records record)).phase = .closing)
    (hreleased : (shared.records record).lifecycle ≠ .active →
      (change (shared.records record)).lifecycle ≠ .active) :
    Quiet shared (shared.modify record change) := by
  have hself : (shared.modify record change).records record = change (shared.records record) :=
    Function.update_self ..
  have hother : ∀ {other}, other ≠ record →
      (shared.modify record change).records other = shared.records other :=
    fun hne => Function.update_of_ne hne ..
  refine ⟨rfl, rfl, rfl, rfl, rfl, rfl, rfl, ?_, ?_, ?_, ?_, ?_, fun _ => rfl, fun _ => rfl⟩
  · intro other
    by_cases hne : other = record
    · rw [hne, hself]
      exact hmade
    · rw [hother hne]
  · intro other overlay hsome
    by_cases hne : other = record
    · rw [hne, hself] at hsome
      rw [hne]
      rcases hoverlay with hsame | hnone
      · exact hsame ▸ hsome
      · exact absurd hsome (by simp [hnone])
    · rwa [hother hne] at hsome
  · intro other snapshot hsome
    by_cases hne : other = record
    · rw [hne, hself] at hsome
      rw [hne]
      rcases hsnapshot with hsame | hnone
      · exact hsame ▸ hsome
      · exact absurd hsome (by simp [hnone])
    · rwa [hother hne] at hsome
  · intro other hphase
    by_cases hne : other = record
    · rw [hne] at hphase ⊢
      rw [hself]
      exact hclosing hphase
    · rwa [hother hne]
  · intro other hlifecycle
    by_cases hne : other = record
    · rw [hne] at hlifecycle ⊢
      rw [hself]
      exact hreleased hlifecycle
    · rwa [hother hne]

theorem quiet_modifyState {state : ℕ} {change : NodeState → NodeState}
    (hstopped : (change (shared.states state)).stopped = (shared.states state).stopped)
    (haccepting : (change (shared.states state)).accepting = (shared.states state).accepting) :
    Quiet shared (shared.modifyState state change) := by
  refine ⟨rfl, rfl, rfl, rfl, rfl, rfl, rfl, fun _ => rfl, fun _ _ h => h, fun _ _ h => h, fun _ h => h,
    fun _ h => h, ?_, ?_⟩
  · intro other
    by_cases hne : other = state
    · subst hne
      simpa [Shared.modifyState] using hstopped
    · simp [Shared.modifyState, hne]
  · intro other
    by_cases hne : other = state
    · subst hne
      simpa [Shared.modifyState] using haccepting
    · simp [Shared.modifyState, hne]

theorem quiet_disown (shared : Shared) (overlay : Option ℕ) : Quiet shared (shared.disown overlay) := by
  cases overlay with
  | none => exact quiet_refl shared
  | some overlay =>
      exact ⟨rfl, rfl, rfl, rfl, rfl, rfl, rfl, fun _ => rfl, fun _ _ h => h, fun _ _ h => h,
        fun _ h => h, fun _ h => h, fun _ => rfl, fun _ => rfl⟩

theorem quiet_reset (shared : Shared) (record : ℕ) : Quiet shared (shared.reset record) := by
  have hcleared : Quiet shared (shared.modify record fun session =>
      { session with snapshot := none, overlay := none }) :=
    quiet_modify rfl (.inr rfl) (.inr rfl) (fun h => h) fun h => h
  exact hcleared.trans (quiet_disown _ _)

theorem quiet_unmap (shared : Shared) (state : ℕ) (sid : ByteString) (record : ℕ) :
    Quiet shared (shared.unmap state sid record) := by
  unfold Shared.unmap
  split_ifs
  · exact quiet_modifyState rfl rfl
  · exact quiet_refl shared

theorem quiet_enter {state : ℕ} (henter : shared.enter state = some next) : Quiet shared next := by
  unfold Shared.enter at henter
  split_ifs at henter
  obtain rfl := Option.some.inj henter
  exact quiet_modifyState rfl rfl

theorem quiet_leave (shared : Shared) (state : ℕ) : Quiet shared (shared.leave state) :=
  quiet_modifyState rfl rfl

theorem quiet_acquire (shared : Shared) (record : ℕ) : Quiet shared (shared.acquire record) :=
  quiet_modify rfl (.inl rfl) (.inl rfl) (fun h => h) fun h => h

theorem quiet_leaveAdmission (shared : Shared) (record : ℕ) :
    Quiet shared (shared.leaveAdmission record) :=
  quiet_modify rfl (.inl rfl) (.inl rfl) (fun h => h) fun h => h

theorem quiet_beginClose {record : ℕ} (hclose : shared.beginClose record = some next) :
    Quiet shared next := by
  unfold Shared.beginClose at hclose
  split_ifs at hclose
  obtain rfl := Option.some.inj hclose
  exact quiet_modify rfl (.inl rfl) (.inl rfl) (fun _ => rfl) fun h => h

variable (shared task next task') in
/-- What every block of a task does. -/
structure Keeps : Prop where
  holds : Holds next
  stands : At next task'
  effect : Effect shared next task
  claims : Claims shared task task'

/-- A quiet block of a task that takes on nothing new. -/
theorem Keeps.quiet (hholds : Holds shared) (hat : At shared task) (hquiet : Quiet shared next)
    (hknows : Knows next task') (hoperates : task'.operates = true → task.operates = true)
    (hstages : ∀ state, task'.stages = some state → task.stages = some state)
    (hcreates : ∀ record, task'.creates = some record → task.creates = some record)
    (hstate : ∀ state, task'.state = some state → task.state = some state)
    (hview : task'.ofView = true → task.ofView = true ∨ task = .idle) :
    Keeps shared next task task' where
  holds := hholds.quiet hquiet
  stands :=
    { operation := fun h => hquiet.operation.trans (hat.operation (hoperates h))
      staged := fun state h => (hquiet.stopped state).trans (hat.staged state (hstages state h))
      creating := fun record h => by
        rw [hquiet.allocated, hquiet.made]
        exact hat.creating record (hcreates record h)
      known := fun state h => by
        rw [hquiet.started]
        exact hat.known state (hstate state h)
      knows := hknows }
  effect := hquiet.effect
  claims := ⟨fun h => .inl (hoperates h), fun record h => .inl (hcreates record h), hview⟩

/-- A quiet block of a task that keeps what it has taken on. -/
theorem Keeps.same (hholds : Holds shared) (hat : At shared task) (hquiet : Quiet shared next)
    (hknows : Knows next task') (hoperates : task'.operates = task.operates)
    (hstages : task'.stages = task.stages) (hcreates : task'.creates = task.creates)
    (hstate : task'.state = task.state)
    (hview : task'.ofView = true → task.ofView = true ∨ task = .idle) :
    Keeps shared next task task' :=
  .quiet hholds hat hquiet hknows hoperates.symm.trans (fun _ => hstages.symm.trans)
    (fun _ => hcreates.symm.trans) (fun _ => hstate.symm.trans) hview

theorem At.quiet (hat : At shared task) (hquiet : Quiet shared next) : At next task where
  operation h := hquiet.operation.trans (hat.operation h)
  staged state h := (hquiet.stopped state).trans (hat.staged state h)
  creating record h := by
    rw [hquiet.allocated, hquiet.made]
    exact hat.creating record h
  known state h := by
    rw [hquiet.started]
    exact hat.known state h
  knows := hat.knows.mono hquiet.started.ge hquiet.kept

/-! ## Blocks that make something -/

theorem Effect.trans (hfirst : Effect shared middle task) (hsecond : Effect middle next task)
    (hviews : next.views = middle.views) :
    Effect shared next task where
  allocated := hfirst.allocated.trans hsecond.allocated
  started := hfirst.started.trans hsecond.started
  kept record made hmade := hsecond.kept record made (hfirst.kept record made hmade)
  unmade record hlt hmade := by
    rcases hfirst.unmade record hlt hmade with hmiddle | htask
    · exact hsecond.unmade record (hlt.trans_le hfirst.allocated) hmiddle
    · exact .inr htask
  operation hoperation := by
    rcases hfirst.operation hoperation with hmiddle | htask
    · exact hsecond.operation hmiddle
    · exact .inr htask
  unstopped state hstopped := by
    rcases hfirst.unstopped state hstopped with hmiddle | htask
    · exact hsecond.unstopped state hmiddle
    · exact .inr htask
  stopped state hlt hstopped :=
    hsecond.stopped state (hlt.trans_le hfirst.started) (hfirst.stopped state hlt hstopped)
  closing record hlt hphase :=
    hsecond.closing record (hlt.trans_le hfirst.allocated) (hfirst.closing record hlt hphase)
  released record hlt hlifecycle :=
    hsecond.released record (hlt.trans_le hfirst.allocated)
      (hfirst.released record hlt hlifecycle)
  snapshots := hsecond.snapshots.trans hfirst.snapshots
  views view hview := hfirst.views view (hviews ▸ hview)

/-- A new record, without parameters. -/
def allocate (shared : Shared) (session : SessionRecord) : Shared :=
  { shared with
    records := Function.update shared.records shared.allocated session
    allocated := shared.allocated + 1 }

theorem allocate_of_ne {record : ℕ} (session : SessionRecord) (hne : record ≠ shared.allocated) :
    (allocate shared session).records record = shared.records record :=
  Function.update_of_ne hne ..

theorem allocate_self (session : SessionRecord) :
    (allocate shared session).records shared.allocated = session :=
  Function.update_self ..

section Allocate

variable {session : SessionRecord} (hmade : session.made = none) (hoverlay : session.overlay = none)
  (hsnapshot : session.snapshot = none)
include hmade

theorem made_allocate (hholds : Holds shared) (record : ℕ) :
    ((allocate shared session).records record).made = (shared.records record).made := by
  by_cases hrecord : record = shared.allocated
  · rw [hrecord, allocate_self, hmade, hholds.unmade _ (le_refl _)]
  · rw [allocate_of_ne session hrecord]

include hoverlay hsnapshot in
theorem Holds.allocate (hholds : Holds shared) : Holds (allocate shared session) where
  unmade record hle := by
    rw [made_allocate hmade hholds]
    exact hholds.unmade record ((Nat.le_succ _).trans hle)
  bounded record overlay snapshot hsome := by
    rw [made_allocate hmade hholds] at hsome
    exact hholds.bounded record overlay snapshot hsome
  single record other overlay snapshot snapshot' hsome hother := by
    rw [made_allocate hmade hholds] at hsome hother
    exact hholds.single record other overlay snapshot snapshot' hsome hother
  overlay record overlay hsome := by
    rw [made_allocate hmade hholds]
    by_cases hrecord : record = shared.allocated
    · rw [hrecord, allocate_self, hoverlay] at hsome
      cases hsome
    · rw [allocate_of_ne session hrecord] at hsome
      exact hholds.overlay record overlay hsome
  snapshot record snapshot hsome := by
    rw [made_allocate hmade hholds]
    by_cases hrecord : record = shared.allocated
    · rw [hrecord, allocate_self, hsnapshot] at hsome
      cases hsome
    · rw [allocate_of_ne session hrecord] at hsome
      exact hholds.snapshot record snapshot hsome
  stopped := hholds.stopped
  current := hholds.current
  views view hview := by
    refine (hholds.views view hview).mono (le_refl _) fun _ _ hsome => ?_
    rw [made_allocate hmade hholds]
    exact hsome

theorem effect_allocate (hholds : Holds shared) : Effect shared (allocate shared session) task where
  allocated := Nat.le_succ _
  started := le_refl _
  kept record made hsome := (made_allocate hmade hholds record).trans hsome
  unmade record _ hnone := .inl ((made_allocate hmade hholds record).trans hnone)
  operation := .inl
  unstopped _ := .inl
  stopped _ _ h := h
  closing record hlt hphase := by
    rw [allocate_of_ne session (ne_of_lt hlt)]
    exact hphase
  released record hlt hlifecycle := by
    rw [allocate_of_ne session (ne_of_lt hlt)]
    exact hlifecycle
  snapshots := rfl
  views _ := .inl

end Allocate

section TakeSnapshot

variable {record snapshot : ℕ}

/-- The record gets its snapshot and an overlay of its own. -/
def furnish (shared : Shared) (record snapshot : ℕ) : Shared :=
  let furnished := shared.modify record fun session =>
    { session with
      snapshot := some snapshot
      overlay := some shared.overlayCount
      made := some (shared.overlayCount, snapshot) }
  { furnished with
    overlayCount := shared.overlayCount + 1
    overlays := Function.update furnished.overlays shared.overlayCount Core.SortedMap.empty
    useCount := Function.update furnished.useCount shared.overlayCount 1 }

theorem furnish_self : (furnish shared record snapshot).records record =
    { shared.records record with
      snapshot := some snapshot
      overlay := some shared.overlayCount
      made := some (shared.overlayCount, snapshot) } :=
  Function.update_self ..

theorem furnish_of_ne {other : ℕ} (hne : other ≠ record) :
    (furnish shared record snapshot).records other = shared.records other :=
  Function.update_of_ne hne ..

theorem made_furnish (hmade : (shared.records record).made = none) {other : ℕ} {made : ℕ × ℕ}
    (hother : (shared.records other).made = some made) :
    ((furnish shared record snapshot).records other).made = some made := by
  have hne : other ≠ record := by
    rintro rfl
    rw [hmade] at hother
    cases hother
  rw [furnish_of_ne hne]
  exact hother

theorem Holds.furnish (hholds : Holds shared) (hlt : record < shared.allocated)
    (hmade : (shared.records record).made = none) : Holds (furnish shared record snapshot) where
  unmade other hle := by
    rw [furnish_of_ne (ne_of_gt (hlt.trans_le hle))]
    exact hholds.unmade other hle
  bounded other overlay taken hsome := by
    by_cases hne : other = record
    · rw [hne, furnish_self] at hsome
      obtain ⟨rfl, -⟩ := Prod.mk.inj (Option.some.inj hsome)
      exact Nat.lt_succ_self _
    · rw [furnish_of_ne hne] at hsome
      exact (hholds.bounded other overlay taken hsome).trans (Nat.lt_succ_self _)
  single first second overlay taken taken' hfirst hsecond := by
    -- the new overlay is newer than every other
    have hnew : ∀ {other overlay taken}, other ≠ record →
        (shared.records other).made = some (overlay, taken) → overlay ≠ shared.overlayCount :=
      fun _ hsome => ne_of_lt (hholds.bounded _ _ _ hsome)
    by_cases hone : first = record
    · by_cases htwo : second = record
      · rw [hone, htwo]
      · rw [hone, furnish_self] at hfirst
        rw [furnish_of_ne htwo] at hsecond
        obtain ⟨rfl, -⟩ := Prod.mk.inj (Option.some.inj hfirst)
        exact absurd rfl (hnew htwo hsecond)
    · by_cases htwo : second = record
      · rw [htwo, furnish_self] at hsecond
        rw [furnish_of_ne hone] at hfirst
        obtain ⟨rfl, -⟩ := Prod.mk.inj (Option.some.inj hsecond)
        exact absurd rfl (hnew hone hfirst)
      · rw [furnish_of_ne hone] at hfirst
        rw [furnish_of_ne htwo] at hsecond
        exact hholds.single first second overlay taken taken' hfirst hsecond
  overlay other overlay hsome := by
    by_cases hne : other = record
    · rw [hne, furnish_self] at hsome ⊢
      obtain rfl := Option.some.inj hsome
      exact ⟨snapshot, rfl⟩
    · rw [furnish_of_ne hne] at hsome ⊢
      exact hholds.overlay other overlay hsome
  snapshot other taken hsome := by
    by_cases hne : other = record
    · rw [hne, furnish_self] at hsome ⊢
      obtain rfl := Option.some.inj hsome
      exact ⟨shared.overlayCount, rfl⟩
    · rw [furnish_of_ne hne] at hsome ⊢
      exact hholds.snapshot other taken hsome
  stopped := hholds.stopped
  current := hholds.current
  views view hview :=
    (hholds.views view hview).mono (le_refl _) fun _ _ hsome => made_furnish hmade hsome

theorem effect_furnish (hmade : (shared.records record).made = none)
    (hcreates : task.creates = some record) : Effect shared (furnish shared record snapshot) task where
  allocated := le_refl _
  started := le_refl _
  kept _ _ hsome := made_furnish hmade hsome
  unmade other _ hnone := by
    by_cases hne : other = record
    · exact .inr (hne ▸ hcreates)
    · left
      rw [furnish_of_ne hne]
      exact hnone
  operation := .inl
  unstopped _ := .inl
  stopped _ _ h := h
  closing other _ hphase := by
    by_cases hne : other = record
    · rw [hne] at hphase ⊢
      rw [furnish_self]
      exact hphase
    · rwa [furnish_of_ne hne]
  released other _ hlifecycle := by
    by_cases hne : other = record
    · rw [hne] at hlifecycle ⊢
      rw [furnish_self]
      exact hlifecycle
    · rwa [furnish_of_ne hne]
  snapshots := rfl
  views _ := .inl

end TakeSnapshot

/-! ## Every block -/

/-- A task that only ends, or waits to leave its state. -/
theorem At.of_leaving (hoperates : task.operates = false) (hstages : task.stages = none)
    (hcreates : task.creates = none) (hstate : task.state = none) (hknows : Knows shared task) :
    At shared task where
  operation h := by simp [hoperates] at h
  staged _ h := by simp [hstages] at h
  creating _ h := by simp [hcreates] at h
  known _ h := by simp [hstate] at h
  knows := hknows

theorem Claims.of_leaving (hoperates : task'.operates = false) (hcreates : task'.creates = none)
    (hview : task'.ofView = false) : Claims shared task task' where
  operates h := by simp [hoperates] at h
  creates _ h := by simp [hcreates] at h
  ofView h := by simp [hview] at h

theorem keeps_startBlock {choice : Choice} (hholds : Holds shared) (hat : At shared task)
    (hblock : startBlock shared choice task = some (next, task')) : Keeps shared next task task' := by
  cases task with
  | start =>
      simp only [startBlock] at hblock
      split_ifs at hblock with hfree hrefused
      · obtain ⟨rfl, rfl⟩ := Prod.mk.inj (Option.some.inj hblock)
        exact Keeps.same hholds hat (quiet_refl _) trivial rfl rfl rfl rfl nofun
      · obtain ⟨rfl, rfl⟩ := Prod.mk.inj (Option.some.inj hblock)
        have hstates : ∀ other, other ≠ shared.started →
            Function.update shared.states shared.started .create other = shared.states other :=
          fun other hne => Function.update_of_ne hne ..
        have hself : Function.update shared.states shared.started .create shared.started =
            NodeState.create := Function.update_self ..
        refine ⟨⟨hholds.unmade, hholds.bounded, hholds.single, hholds.overlay, hholds.snapshot, ?_,
          fun state h => (hholds.current state h).trans (Nat.lt_succ_self _),
          fun view h => (hholds.views view h).mono (Nat.le_succ _) fun _ _ hmade => hmade⟩,
          ⟨fun _ => rfl, ?_, fun _ h => (nomatch h), ?_, trivial⟩,
          ⟨le_refl _, Nat.le_succ _, fun _ _ h => h, fun _ _ h => .inl h, fun _ => .inl rfl, ?_, ?_,
            fun _ _ h => h, fun _ _ h => h, rfl,
            fun _ h => .inl h⟩,
          ⟨fun _ => .inr (by simpa using hfree), fun _ h => (nomatch h), fun h => (nomatch h)⟩⟩
        · intro state hstopped
          by_cases hne : state = shared.started
          · rw [hne] at hstopped
            simp only [hself] at hstopped
            cases hstopped
          · simp only [hstates state hne] at hstopped ⊢
            exact hholds.stopped state hstopped
        · intro state hstate
          obtain rfl := Option.some.inj hstate
          simp only [hself]
          rfl
        · intro state hstate
          obtain rfl := Option.some.inj hstate
          exact Nat.lt_succ_self _
        · intro state hstopped
          left
          by_cases hne : state = shared.started
          · rw [hne]
            simp only [hself]
            rfl
          · simpa only [hstates state hne] using hstopped
        · intro state hlt hstopped
          simpa only [hstates state (ne_of_lt hlt)] using hstopped
  | reconcile state =>
      simp only [startBlock] at hblock
      split at hblock
      · obtain ⟨rfl, rfl⟩ := Prod.mk.inj (Option.some.inj hblock)
        exact Keeps.same hholds hat (quiet_refl _) trivial rfl rfl rfl rfl nofun
      · rename_i sid lifecycle _
        split_ifs at hblock
        obtain ⟨rfl, rfl⟩ := Prod.mk.inj (Option.some.inj hblock)
        let session : SessionRecord :=
          { SessionRecord.create sid with phase := .active, lifecycle, reconciled := true }
        have hquiet : Quiet (allocate shared session) ((allocate shared session).modifyState state
            fun node =>
              { node with
                sessions := (sid, shared.allocated) ::
                  node.sessions.filter fun entry => entry.1 ≠ sid }) := quiet_modifyState rfl rfl
        have hmade : Holds (allocate shared session) := hholds.allocate rfl rfl rfl
        refine ⟨hmade.quiet hquiet, ⟨hat.operation, ?_, fun _ h => (nomatch h), hat.known, trivial⟩,
          (effect_allocate rfl hholds).trans hquiet.effect rfl,
          ⟨fun _ => .inl rfl, fun _ h => (nomatch h), fun h => (nomatch h)⟩⟩
        intro other hother
        exact (hquiet.stopped other).trans (hat.staged other hother)
  | activateState state =>
      simp only [startBlock] at hblock
      split_ifs at hblock
      · obtain ⟨rfl, rfl⟩ := Prod.mk.inj (Option.some.inj hblock)
        exact ⟨⟨hholds.unmade, hholds.bounded, hholds.single, hholds.overlay, hholds.snapshot,
          hholds.stopped, hholds.current, hholds.views⟩, .of_leaving rfl rfl rfl rfl trivial,
          ⟨le_refl _, le_refl _, fun _ _ h => h, fun _ _ h => .inl h, fun _ => .inr rfl,
            fun _ h => .inl h, fun _ _ h => h, fun _ _ h => h, fun _ _ h => h, rfl,
            fun _ h => .inl h⟩,
          .of_leaving rfl rfl rfl⟩
      · obtain ⟨rfl, rfl⟩ := Prod.mk.inj (Option.some.inj hblock)
        have hstopped : ∀ other, ((shared.modifyState state fun node =>
            { node with accepting := true }).states other).stopped =
              (shared.states other).stopped := by
          intro other
          by_cases hne : other = state
          · subst hne
            simp [Shared.modifyState]
          · simp [Shared.modifyState, hne]
        refine ⟨⟨hholds.unmade, hholds.bounded, hholds.single, hholds.overlay, hholds.snapshot, ?_,
          hholds.current, hholds.views⟩,
          ⟨hat.operation, fun _ h => (nomatch h), fun _ h => (nomatch h), hat.known, trivial⟩,
          ⟨le_refl _, le_refl _, fun _ _ h => h, fun _ _ h => .inl h, .inl,
            fun other h => .inl ((hstopped other).trans h),
            fun other _ h => (hstopped other).trans h, fun _ _ h => h, fun _ _ h => h, rfl,
            fun _ h => .inl h⟩,
          ⟨fun _ => .inl rfl, fun _ h => (nomatch h), fun h => (nomatch h)⟩⟩
        intro other hended
        rw [hstopped] at hended
        have hne : other ≠ state := by
          rintro rfl
          rw [hat.staged other rfl] at hended
          cases hended
        simpa [Shared.modifyState, hne] using hholds.stopped other hended
  | declareQueryable state =>
      simp only [startBlock] at hblock
      split_ifs at hblock
      · obtain ⟨rfl, rfl⟩ := Prod.mk.inj (Option.some.inj hblock)
        refine ⟨⟨hholds.unmade, hholds.bounded, hholds.single, hholds.overlay, hholds.snapshot,
          hholds.stopped, ?_, hholds.views⟩, .of_leaving rfl rfl rfl rfl trivial,
          ⟨le_refl _, le_refl _, fun _ _ h => h, fun _ _ h => .inl h, fun _ => .inr rfl,
            fun _ h => .inl h, fun _ _ h => h, fun _ _ h => h, fun _ _ h => h, rfl,
            fun _ h => .inl h⟩,
          .of_leaving rfl rfl rfl⟩
        intro other hother
        obtain rfl := Option.some.inj hother
        exact hat.known _ rfl
      · obtain ⟨rfl, rfl⟩ := Prod.mk.inj (Option.some.inj hblock)
        exact Keeps.same hholds hat (quiet_refl _) trivial rfl rfl rfl rfl nofun
  | _ => cases hblock

theorem keeps_stopBlock {choice : Choice} (hholds : Holds shared) (hat : At shared task)
    (hblock : stopBlock shared choice task = some (next, task')) : Keeps shared next task task' := by
  cases task with
  | stop =>
      simp only [stopBlock] at hblock
      split_ifs at hblock with hfree
      split at hblock
      · obtain ⟨rfl, rfl⟩ := Prod.mk.inj (Option.some.inj hblock)
        exact Keeps.same hholds hat (quiet_refl _) trivial rfl rfl rfl rfl nofun
      · rename_i state hstate
        obtain ⟨rfl, rfl⟩ := Prod.mk.inj (Option.some.inj hblock)
        refine ⟨⟨hholds.unmade, hholds.bounded, hholds.single, hholds.overlay, hholds.snapshot,
          hholds.stopped, fun _ h => (nomatch h), hholds.views⟩,
          ⟨fun _ => rfl, fun _ h => (nomatch h), fun _ h => (nomatch h), ?_, trivial⟩,
          ⟨le_refl _, le_refl _, fun _ _ h => h, fun _ _ h => .inl h, fun _ => .inl rfl,
            fun _ h => .inl h, fun _ _ h => h, fun _ _ h => h, fun _ _ h => h, rfl,
            fun _ h => .inl h⟩,
          ⟨fun _ => .inr (by simpa using hfree), fun _ h => (nomatch h), fun h => (nomatch h)⟩⟩
        intro other hother
        obtain rfl := Option.some.inj hother
        exact hholds.current _ hstate
  | quiesce state =>
      obtain ⟨rfl, rfl⟩ := Prod.mk.inj (Option.some.inj hblock)
      have hstates : ∀ other, ((shared.modifyState state fun node =>
            { node with accepting := false, stopped := true }).states other).stopped = true ↔
          other = state ∨ (shared.states other).stopped = true := by
        intro other
        by_cases hother : other = state
        · subst hother
          simp [Shared.modifyState]
        · simp [Shared.modifyState, hother]
      refine ⟨⟨hholds.unmade, hholds.bounded, hholds.single, hholds.overlay, hholds.snapshot, ?_,
        hholds.current, hholds.views⟩,
        ⟨hat.operation, fun _ h => (nomatch h), fun _ h => (nomatch h), hat.known, trivial⟩,
        ⟨le_refl _, le_refl _, fun _ _ h => h, fun _ _ h => .inl h, .inl, fun _ _ => .inr rfl,
          fun other _ h => (hstates other).mpr (.inr h), fun _ _ h => h, fun _ _ h => h, rfl,
            fun _ h => .inl h⟩,
        ⟨fun _ => .inl rfl, fun _ h => (nomatch h), fun h => (nomatch h)⟩⟩
      intro other hstopped
      by_cases hother : other = state
      · subst hother
        simp [Shared.modifyState]
      · have hbefore := ((hstates other).mp hstopped).resolve_left hother
        simpa [Shared.modifyState, hother] using hholds.stopped other hbefore
  | drainState state =>
      simp only [stopBlock] at hblock
      split_ifs at hblock
      obtain ⟨rfl, rfl⟩ := Prod.mk.inj (Option.some.inj hblock)
      exact Keeps.same hholds hat (quiet_refl _) trivial rfl rfl rfl rfl nofun
  | extract state =>
      simp only [stopBlock] at hblock
      split_ifs at hblock
      · obtain ⟨rfl, rfl⟩ := Prod.mk.inj (Option.some.inj hblock)
        exact ⟨⟨hholds.unmade, hholds.bounded, hholds.single, hholds.overlay, hholds.snapshot,
          hholds.stopped, hholds.current, hholds.views⟩,
          ⟨fun h => (nomatch h), fun _ h => (nomatch h), fun _ h => (nomatch h),
            fun _ h => (nomatch h), trivial⟩,
          ⟨le_refl _, le_refl _, fun _ _ h => h, fun _ _ h => .inl h, fun _ => .inr rfl,
            fun _ h => .inl h, fun _ _ h => h, fun _ _ h => h, fun _ _ h => h, rfl,
            fun _ h => .inl h⟩,
          ⟨fun h => (nomatch h), fun _ h => (nomatch h), fun h => (nomatch h)⟩⟩
      · split at hblock
        · cases hblock
        · obtain ⟨rfl, rfl⟩ := Prod.mk.inj (Option.some.inj hblock)
          exact Keeps.same hholds hat (quiet_modifyState rfl rfl) trivial rfl rfl rfl rfl nofun
  | closeExtracted state record =>
      simp only [stopBlock] at hblock
      split at hblock
      · rename_i hclose
        obtain ⟨rfl, rfl⟩ := Prod.mk.inj (Option.some.inj hblock)
        exact Keeps.same hholds hat (quiet_beginClose hclose) trivial rfl rfl rfl rfl nofun
      · obtain ⟨rfl, rfl⟩ := Prod.mk.inj (Option.some.inj hblock)
        exact Keeps.same hholds hat (quiet_refl _) trivial rfl rfl rfl rfl nofun
  | drainExtracted state record =>
      simp only [stopBlock] at hblock
      split_ifs at hblock
      obtain ⟨rfl, rfl⟩ := Prod.mk.inj (Option.some.inj hblock)
      exact Keeps.same hholds hat (quiet_refl _) trivial rfl rfl rfl rfl nofun
  | releaseExtracted state record =>
      obtain ⟨rfl, rfl⟩ := Prod.mk.inj (Option.some.inj hblock)
      exact Keeps.same hholds hat (quiet_reset _ _) trivial rfl rfl rfl rfl nofun
  | _ => cases hblock

/-- A call that reads the current state goes on with it or ends. -/
theorem keeps_withState (hholds : Holds shared) (hat : At shared task) {resume : ℕ → Task}
    (hnext : withState shared resume = (next, task'))
    (hoperates : ∀ state, (resume state).operates = false)
    (hstages : ∀ state, (resume state).stages = none)
    (hcreates : ∀ state, (resume state).creates = none)
    (hstate : ∀ state known, (resume state).state = some known → known = state)
    (hview : ∀ state, (resume state).ofView = false)
    (hknows : ∀ state, Knows shared (resume state)) : Keeps shared next task task' := by
  unfold withState at hnext
  split at hnext
  · obtain ⟨rfl, rfl⟩ := Prod.mk.inj hnext
    exact Keeps.quiet hholds hat (quiet_refl _) trivial nofun nofun nofun nofun nofun
  · rename_i state hcurrent
    obtain ⟨rfl, rfl⟩ := Prod.mk.inj hnext
    refine ⟨hholds, ⟨?_, ?_, ?_, ?_, hknows state⟩, (quiet_refl _).effect,
      .of_leaving (hoperates state) (hcreates state) (hview state)⟩
    · intro h
      simp [hoperates] at h
    · intro _ h
      simp [hstages] at h
    · intro _ h
      simp [hcreates] at h
    · intro known h
      rw [hstate state known h]
      exact hholds.current state hcurrent

theorem keeps_createBlock {choice : Choice} (hholds : Holds shared) (hat : At shared task)
    (hblock : createBlock shared choice task = some (next, task')) : Keeps shared next task task' := by
  cases task with
  | create sid =>
      simp only [createBlock] at hblock
      split_ifs at hblock
      · obtain ⟨rfl, rfl⟩ := Prod.mk.inj (Option.some.inj hblock)
        exact Keeps.same hholds hat (quiet_refl _) trivial rfl rfl rfl rfl nofun
      · exact keeps_withState hholds hat (Option.some.inj hblock) (fun _ => rfl) (fun _ => rfl)
          (fun _ => rfl) (fun _ _ h => (nomatch h)) (fun _ => rfl) fun _ => trivial
  | createEnter state sid =>
      simp only [createBlock] at hblock
      split at hblock
      · obtain ⟨rfl, rfl⟩ := Prod.mk.inj (Option.some.inj hblock)
        exact Keeps.same hholds hat (quiet_refl _) trivial rfl rfl rfl rfl nofun
      · rename_i entered henter
        have hquiet := quiet_enter henter
        split_ifs at hblock
        · obtain ⟨rfl, rfl⟩ := Prod.mk.inj (Option.some.inj hblock)
          exact Keeps.same hholds hat hquiet trivial rfl rfl rfl rfl nofun
        · obtain ⟨rfl, rfl⟩ := Prod.mk.inj (Option.some.inj hblock)
          have hentered := hholds.quiet hquiet
          have hmade : (SessionRecord.create sid).made = none := rfl
          refine ⟨hentered.allocate hmade rfl rfl,
            ⟨fun h => (nomatch h), fun _ h => (nomatch h), ?_, fun _ h => (nomatch h), trivial⟩,
            hquiet.effect.trans (effect_allocate hmade hentered) rfl,
            ⟨fun h => (nomatch h), ?_, fun h => (nomatch h)⟩⟩
          · intro record hrecord
            obtain rfl := Option.some.inj hrecord
            refine ⟨Nat.lt_succ_self _, ?_⟩
            exact (made_allocate hmade hentered _).trans (hentered.unmade _ (le_refl _))
          · intro record hrecord
            obtain rfl := Option.some.inj hrecord
            exact .inr hquiet.allocated.ge
  | publish state record =>
      simp only [createBlock] at hblock
      split_ifs at hblock
      · obtain ⟨rfl, rfl⟩ := Prod.mk.inj (Option.some.inj hblock)
        exact Keeps.quiet hholds hat (quiet_refl _) trivial
          id (fun _ => id) nofun (fun _ => id) nofun
      · obtain ⟨rfl, rfl⟩ := Prod.mk.inj (Option.some.inj hblock)
        exact Keeps.same hholds hat (quiet_modifyState rfl rfl) trivial rfl rfl rfl rfl nofun
  | takeSnapshot state record =>
      simp only [createBlock] at hblock
      split_ifs at hblock
      · obtain ⟨rfl, rfl⟩ := Prod.mk.inj (Option.some.inj hblock)
        exact Keeps.quiet hholds hat (quiet_refl _) trivial
          id (fun _ => id) nofun (fun _ => id) nofun
      · obtain ⟨rfl, rfl⟩ := Prod.mk.inj (Option.some.inj hblock)
        obtain ⟨hlt, hmade⟩ := hat.creating record rfl
        exact ⟨hholds.furnish hlt hmade, .of_leaving rfl rfl rfl rfl trivial,
          effect_furnish hmade rfl, .of_leaving rfl rfl rfl⟩
  | createStore state record =>
      obtain ⟨rfl, rfl⟩ := Prod.mk.inj (Option.some.inj hblock)
      split_ifs
      · exact Keeps.same hholds hat (quiet_refl _) trivial rfl rfl rfl rfl nofun
      · exact Keeps.same hholds hat (quiet_refl _) trivial rfl rfl rfl rfl nofun
  | activate state record =>
      simp only [createBlock] at hblock
      split_ifs at hblock with hcreating
      · obtain ⟨rfl, rfl⟩ := Prod.mk.inj (Option.some.inj hblock)
        refine Keeps.same hholds hat
          (quiet_modify rfl (.inl rfl) (.inl rfl) (fun h => ?_) fun h => h) trivial
          rfl rfl rfl rfl nofun
        rw [hcreating.2] at h
        cases h
      · obtain ⟨rfl, rfl⟩ := Prod.mk.inj (Option.some.inj hblock)
        exact Keeps.same hholds hat (quiet_refl _) trivial rfl rfl rfl rfl nofun
  | rollBack state record =>
      obtain ⟨rfl, rfl⟩ := Prod.mk.inj (Option.some.inj hblock)
      exact Keeps.same hholds hat (quiet_reset _ _) trivial rfl rfl rfl rfl nofun
  | withdraw state record =>
      obtain ⟨rfl, rfl⟩ := Prod.mk.inj (Option.some.inj hblock)
      exact Keeps.same hholds hat (quiet_unmap _ _ _ _) trivial rfl rfl rfl rfl nofun
  | leave state =>
      obtain ⟨rfl, rfl⟩ := Prod.mk.inj (Option.some.inj hblock)
      exact Keeps.same hholds hat (quiet_leave _ _) trivial rfl rfl rfl rfl nofun
  | _ => cases hblock

theorem keeps_closeBlock {choice : Choice} (hholds : Holds shared) (hat : At shared task)
    (hblock : closeBlock shared choice task = some (next, task')) : Keeps shared next task task' := by
  cases task with
  | close sid =>
      exact keeps_withState hholds hat (Option.some.inj hblock) (fun _ => rfl) (fun _ => rfl)
        (fun _ => rfl) (fun _ _ h => (nomatch h)) (fun _ => rfl) fun _ => trivial
  | closeEnter state sid =>
      simp only [closeBlock] at hblock
      split at hblock
      · obtain ⟨rfl, rfl⟩ := Prod.mk.inj (Option.some.inj hblock)
        exact Keeps.same hholds hat (quiet_refl _) trivial rfl rfl rfl rfl nofun
      · rename_i henter
        obtain ⟨rfl, rfl⟩ := Prod.mk.inj (Option.some.inj hblock)
        split_ifs
        · exact Keeps.same hholds hat (quiet_enter henter) trivial rfl rfl rfl rfl nofun
        · exact Keeps.same hholds hat (quiet_enter henter) trivial rfl rfl rfl rfl nofun
  | select state sid =>
      simp only [closeBlock] at hblock
      split at hblock
      · obtain ⟨rfl, rfl⟩ := Prod.mk.inj (Option.some.inj hblock)
        exact Keeps.same hholds hat (quiet_refl _) trivial rfl rfl rfl rfl nofun
      · obtain ⟨rfl, rfl⟩ := Prod.mk.inj (Option.some.inj hblock)
        split_ifs
        · exact Keeps.same hholds hat (quiet_refl _) trivial rfl rfl rfl rfl nofun
        · exact Keeps.same hholds hat (quiet_refl _) trivial rfl rfl rfl rfl nofun
  | beginDeletion state sid record =>
      simp only [closeBlock] at hblock
      by_cases hcatalogued : (!choice.catalogued) = true
      · rw [if_pos hcatalogued] at hblock
        obtain ⟨rfl, rfl⟩ := Prod.mk.inj (Option.some.inj hblock)
        split_ifs
        · exact Keeps.same hholds hat (quiet_refl _) trivial rfl rfl rfl rfl nofun
        · exact Keeps.same hholds hat (quiet_refl _) trivial rfl rfl rfl rfl nofun
      · rw [if_neg hcatalogued] at hblock
        split_ifs at hblock
        · obtain ⟨rfl, rfl⟩ := Prod.mk.inj (Option.some.inj hblock)
          exact Keeps.same hholds hat (quiet_refl _) trivial rfl rfl rfl rfl nofun
        · split at hblock
          · rename_i hclose
            obtain ⟨rfl, rfl⟩ := Prod.mk.inj (Option.some.inj hblock)
            exact Keeps.same hholds hat (quiet_beginClose hclose) trivial rfl rfl rfl rfl nofun
          · obtain ⟨rfl, rfl⟩ := Prod.mk.inj (Option.some.inj hblock)
            exact Keeps.same hholds hat (quiet_refl _) trivial rfl rfl rfl rfl nofun
  | beginClose state sid record =>
      simp only [closeBlock] at hblock
      split_ifs at hblock
      · obtain ⟨rfl, rfl⟩ := Prod.mk.inj (Option.some.inj hblock)
        exact Keeps.same hholds hat (quiet_refl _) trivial rfl rfl rfl rfl nofun
      · split at hblock
        · rename_i hclose
          obtain ⟨rfl, rfl⟩ := Prod.mk.inj (Option.some.inj hblock)
          exact Keeps.same hholds hat (quiet_beginClose hclose) trivial rfl rfl rfl rfl nofun
        · obtain ⟨rfl, rfl⟩ := Prod.mk.inj (Option.some.inj hblock)
          exact Keeps.same hholds hat (quiet_refl _) trivial rfl rfl rfl rfl nofun
  | drain state sid record =>
      simp only [closeBlock] at hblock
      split_ifs at hblock
      obtain ⟨rfl, rfl⟩ := Prod.mk.inj (Option.some.inj hblock)
      exact Keeps.same hholds hat (quiet_refl _) trivial rfl rfl rfl rfl nofun
  | release state sid record =>
      obtain ⟨rfl, rfl⟩ := Prod.mk.inj (Option.some.inj hblock)
      exact Keeps.same hholds hat (quiet_reset _ _) trivial rfl rfl rfl rfl nofun
  | unmap state sid record =>
      obtain ⟨rfl, rfl⟩ := Prod.mk.inj (Option.some.inj hblock)
      exact Keeps.same hholds hat (quiet_unmap _ _ _ _) trivial rfl rfl rfl rfl nofun
  | _ => cases hblock

theorem keeps_retainBlock {choice : Choice} (hholds : Holds shared) (hat : At shared task)
    (hblock : retainBlock shared choice task = some (next, task')) : Keeps shared next task task' := by
  cases task with
  | retain sid =>
      simp only [retainBlock] at hblock
      split_ifs at hblock
      · obtain ⟨rfl, rfl⟩ := Prod.mk.inj (Option.some.inj hblock)
        exact Keeps.same hholds hat (quiet_refl _) trivial rfl rfl rfl rfl nofun
      · exact keeps_withState hholds hat (Option.some.inj hblock) (fun _ => rfl) (fun _ => rfl)
          (fun _ => rfl) (fun _ _ h => (nomatch h)) (fun _ => rfl) fun _ => trivial
  | retainEnter state sid =>
      simp only [retainBlock] at hblock
      split at hblock
      · obtain ⟨rfl, rfl⟩ := Prod.mk.inj (Option.some.inj hblock)
        exact Keeps.same hholds hat (quiet_refl _) trivial rfl rfl rfl rfl nofun
      · rename_i henter
        obtain ⟨rfl, rfl⟩ := Prod.mk.inj (Option.some.inj hblock)
        split_ifs
        · exact Keeps.same hholds hat (quiet_enter henter) trivial rfl rfl rfl rfl nofun
        · exact Keeps.same hholds hat (quiet_enter henter) trivial rfl rfl rfl rfl nofun
  | acquire state sid =>
      simp only [retainBlock] at hblock
      split at hblock
      · obtain ⟨rfl, rfl⟩ := Prod.mk.inj (Option.some.inj hblock)
        exact Keeps.same hholds hat (quiet_refl _) trivial rfl rfl rfl rfl nofun
      · split_ifs at hblock
        · obtain ⟨rfl, rfl⟩ := Prod.mk.inj (Option.some.inj hblock)
          exact Keeps.same hholds hat (quiet_acquire _ _) trivial rfl rfl rfl rfl nofun
        · obtain ⟨rfl, rfl⟩ := Prod.mk.inj (Option.some.inj hblock)
          exact Keeps.same hholds hat (quiet_refl _) trivial rfl rfl rfl rfl nofun
  | retainCheck state record =>
      simp only [retainBlock] at hblock
      split_ifs at hblock
      · obtain ⟨rfl, rfl⟩ := Prod.mk.inj (Option.some.inj hblock)
        exact Keeps.same hholds hat (quiet_refl _) trivial rfl rfl rfl rfl nofun
      · obtain ⟨rfl, rfl⟩ := Prod.mk.inj (Option.some.inj hblock)
        exact Keeps.same hholds hat (quiet_refl _) trivial rfl rfl rfl rfl nofun
  | retainCommit state record =>
      simp only [retainBlock] at hblock
      split_ifs at hblock
      · obtain ⟨rfl, rfl⟩ := Prod.mk.inj (Option.some.inj hblock)
        exact Keeps.same hholds hat (quiet_refl _) trivial rfl rfl rfl rfl nofun
      · obtain ⟨rfl, rfl⟩ := Prod.mk.inj (Option.some.inj hblock)
        exact Keeps.same hholds hat
          (quiet_modify rfl (.inr rfl) (.inr rfl) (fun h => h) fun _ h => (nomatch h)) trivial
          rfl rfl rfl rfl nofun
  | leaveRecord state record released =>
      obtain ⟨rfl, rfl⟩ := Prod.mk.inj (Option.some.inj hblock)
      exact Keeps.same hholds hat ((quiet_leaveAdmission _ _).trans (quiet_disown _ _)) trivial
        rfl rfl rfl rfl nofun
  | _ => cases hblock

theorem Holds.addView (hholds : Holds shared) {view : View} (hview : ViewAt shared view) :
    Holds { shared with views := shared.views ++ [view] } where
  unmade := hholds.unmade
  bounded := hholds.bounded
  single := hholds.single
  overlay := hholds.overlay
  snapshot := hholds.snapshot
  stopped := hholds.stopped
  current := hholds.current
  views other hother := by
    rcases List.mem_append.mp hother with hbefore | hnew
    · exact hholds.views other hbefore
    · obtain rfl := List.mem_singleton.mp hnew
      exact hview

theorem effect_addView (heffect : Effect shared middle task) {view : View}
    (hopens : Opens shared view) :
    Effect shared { middle with views := middle.views ++ [view] } task where
  allocated := heffect.allocated
  started := heffect.started
  kept := heffect.kept
  unmade := heffect.unmade
  operation := heffect.operation
  unstopped := heffect.unstopped
  stopped := heffect.stopped
  closing := heffect.closing
  released := heffect.released
  snapshots := heffect.snapshots
  views other hother := by
    rcases List.mem_append.mp hother with hbefore | hnew
    · exact heffect.views other hbefore
    · obtain rfl := List.mem_singleton.mp hnew
      exact .inr hopens

theorem keeps_openBlock (hholds : Holds shared) (hat : At shared task)
    (hblock : openBlock shared task = some (next, task')) : Keeps shared next task task' := by
  cases task with
  | «open» sid =>
      simp only [openBlock] at hblock
      split_ifs at hblock
      · obtain ⟨rfl, rfl⟩ := Prod.mk.inj (Option.some.inj hblock)
        exact Keeps.same hholds hat (quiet_refl _) trivial rfl rfl rfl rfl nofun
      · exact keeps_withState hholds hat (Option.some.inj hblock) (fun _ => rfl) (fun _ => rfl)
          (fun _ => rfl) (fun _ _ h => (Option.some.inj h).symm) (fun _ => rfl) fun _ => trivial
  | openEnter state sid =>
      simp only [openBlock] at hblock
      split at hblock
      · obtain ⟨rfl, rfl⟩ := Prod.mk.inj (Option.some.inj hblock)
        exact Keeps.quiet hholds hat (quiet_refl _) trivial
          id (fun _ => id) (fun _ => id) nofun nofun
      · rename_i henter
        obtain ⟨rfl, rfl⟩ := Prod.mk.inj (Option.some.inj hblock)
        exact Keeps.same hholds hat (quiet_enter henter) trivial rfl rfl rfl rfl nofun
  | openSelect state sid =>
      simp only [openBlock] at hblock
      split at hblock
      · obtain ⟨rfl, rfl⟩ := Prod.mk.inj (Option.some.inj hblock)
        exact Keeps.quiet hholds hat (quiet_refl _) trivial
          id (fun _ => id) (fun _ => id) nofun nofun
      · rename_i record hfind
        split_ifs at hblock with hactive
        · obtain ⟨rfl, rfl⟩ := Prod.mk.inj (Option.some.inj hblock)
          exact Keeps.quiet hholds hat (quiet_refl _) trivial
            id (fun _ => id) (fun _ => id) nofun nofun
        · split at hblock
          · obtain ⟨rfl, rfl⟩ := Prod.mk.inj (Option.some.inj hblock)
            exact Keeps.quiet hholds hat (quiet_refl _) trivial
              id (fun _ => id) (fun _ => id) nofun nofun
          · rename_i overlay hoverlay
            obtain ⟨rfl, rfl⟩ := Prod.mk.inj (Option.some.inj hblock)
            have hquiet := quiet_acquire shared record
            -- the overlay that is remembered is the one that the record was created with
            have hview : ViewAt (shared.acquire record) ⟨state, overlay, sid, record⟩ := by
              obtain ⟨snapshot, hmade⟩ := hholds.overlay record overlay hoverlay
              refine ⟨hat.known state rfl, snapshot, ?_⟩
              rw [hquiet.made]
              exact hmade
            have hopens : Opens shared ⟨state, overlay, sid, record⟩ := by
              simp only [Shared.isActive, Bool.not_eq_true', beq_eq_false_iff_ne, not_or,
                not_not] at hactive
              exact ⟨hfind, hactive.1, hactive.2, hoverlay⟩
            exact ⟨(hholds.quiet hquiet).addView hview, .of_leaving rfl rfl rfl rfl hview,
              effect_addView hquiet.effect hopens, .of_leaving rfl rfl rfl⟩
  | openLeave view =>
      obtain ⟨rfl, rfl⟩ := Prod.mk.inj (Option.some.inj hblock)
      have hquiet := (quiet_leaveAdmission shared view.record).trans
        (quiet_leave (shared.leaveAdmission view.record) view.state)
      have hknows : ViewAt shared view := hat.knows
      exact Keeps.same hholds hat hquiet (hknows.mono hquiet.started.ge hquiet.kept)
        rfl rfl rfl rfl nofun
  | _ => cases hblock

/-- An owner more, or a value more. -/
theorem quiet_overlays (shared : Shared) (useCount borrowed : ℕ → ℕ)
    (overlays : ℕ → InMemoryEngine) :
    Quiet shared { shared with useCount, borrowed, overlays } :=
  ⟨rfl, rfl, rfl, rfl, rfl, rfl, rfl, fun _ => rfl, fun _ _ h => h, fun _ _ h => h, fun _ h => h,
    fun _ h => h, fun _ => rfl, fun _ => rfl⟩

/-- A record that passes the owner check is the one that the view was opened on. -/
theorem ViewAt.admitted (hholds : Holds shared) {view : View} (hview : ViewAt shared view)
    {record overlay snapshot : ℕ} (hoverlay : (shared.records record).overlay = some overlay)
    (hsnapshot : (shared.records record).snapshot = some snapshot)
    (howner : shared.sameOwner view.overlayOwner overlay = true) :
    view.record = record ∧ (shared.records view.record).made = some (overlay, snapshot) := by
  have hsame : view.overlayOwner = overlay := by
    simp only [Shared.sameOwner, Bool.and_eq_true, beq_iff_eq] at howner
    exact howner.2
  obtain ⟨-, taken, hview⟩ := hview
  obtain ⟨taken', hmade⟩ := hholds.overlay record overlay hoverlay
  obtain ⟨overlay', hmade'⟩ := hholds.snapshot record snapshot hsnapshot
  rw [hsame] at hview
  have hrecord : view.record = record := hholds.single _ _ _ _ _ hview hmade
  refine ⟨hrecord, ?_⟩
  rw [hmade] at hmade'
  obtain ⟨-, rfl⟩ := Prod.mk.inj (Option.some.inj hmade')
  rw [hrecord]
  exact hmade

theorem keeps_viewBlock {choice : Choice} (hholds : Holds shared) (hat : At shared task)
    (hblock : viewBlock shared choice task = some (next, task')) : Keeps shared next task task' := by
  cases task with
  | operate view op =>
      simp only [viewBlock] at hblock
      split at hblock
      · rename_i failure _
        obtain ⟨rfl, rfl⟩ := Prod.mk.inj (Option.some.inj hblock)
        exact Keeps.same hholds hat (quiet_refl _) ⟨failure, rfl⟩ rfl rfl rfl rfl fun _ => .inl rfl
      · obtain ⟨rfl, rfl⟩ := Prod.mk.inj (Option.some.inj hblock)
        exact Keeps.same hholds hat (quiet_refl _) hat.knows rfl rfl rfl rfl fun _ => .inl rfl
  | enterView view op =>
      simp only [viewBlock] at hblock
      split at hblock
      · obtain ⟨rfl, rfl⟩ := Prod.mk.inj (Option.some.inj hblock)
        exact Keeps.same hholds hat (quiet_refl _) ⟨_, rfl⟩ rfl rfl rfl rfl fun _ => .inl rfl
      · rename_i henter
        obtain ⟨rfl, rfl⟩ := Prod.mk.inj (Option.some.inj hblock)
        have hquiet := quiet_enter henter
        have hknows : ViewAt shared view := hat.knows
        exact Keeps.same hholds hat hquiet (hknows.mono hquiet.started.ge hquiet.kept)
          rfl rfl rfl rfl fun _ => .inl rfl
  | acquireReaders view op =>
      simp only [viewBlock] at hblock
      split at hblock
      · obtain ⟨rfl, rfl⟩ := Prod.mk.inj (Option.some.inj hblock)
        exact Keeps.same hholds hat (quiet_refl _) ⟨_, rfl⟩ rfl rfl rfl rfl fun _ => .inl rfl
      · rename_i record _
        split_ifs at hblock
        · obtain ⟨rfl, rfl⟩ := Prod.mk.inj (Option.some.inj hblock)
          exact Keeps.same hholds hat (quiet_refl _) ⟨_, rfl⟩ rfl rfl rfl rfl fun _ => .inl rfl
        · obtain ⟨rfl, rfl⟩ := Prod.mk.inj (Option.some.inj hblock)
          exact Keeps.same hholds hat (quiet_refl _) ⟨_, rfl⟩ rfl rfl rfl rfl fun _ => .inl rfl
        · split at hblock
          · rename_i overlay snapshot hoverlay hsnapshot
            split_ifs at hblock with howner
            · obtain ⟨rfl, rfl⟩ := Prod.mk.inj (Option.some.inj hblock)
              exact Keeps.same hholds hat (quiet_refl _) ⟨_, rfl⟩ rfl rfl rfl rfl fun _ => .inl rfl
            · obtain ⟨rfl, rfl⟩ := Prod.mk.inj (Option.some.inj hblock)
              have hview : ViewAt shared view := hat.knows
              obtain ⟨-, hmade⟩ := hview.admitted hholds hoverlay hsnapshot (by simpa using howner)
              have hacquire := quiet_acquire shared record
              exact Keeps.same hholds hat (hacquire.trans (quiet_overlays _ _ _ _))
                (hacquire.kept _ _ hmade) rfl rfl rfl rfl fun _ => .inl rfl
          · obtain ⟨rfl, rfl⟩ := Prod.mk.inj (Option.some.inj hblock)
            exact Keeps.same hholds hat (quiet_refl _) ⟨_, rfl⟩ rfl rfl rfl rfl fun _ => .inl rfl
  | readOverlay view op held =>
      simp only [viewBlock] at hblock
      split_ifs at hblock
      · obtain ⟨rfl, rfl⟩ := Prod.mk.inj (Option.some.inj hblock)
        exact Keeps.same hholds hat (quiet_refl _) hat.knows rfl rfl rfl rfl fun _ => .inl rfl
      · obtain ⟨rfl, rfl⟩ := Prod.mk.inj (Option.some.inj hblock)
        exact Keeps.same hholds hat (quiet_refl _) hat.knows rfl rfl rfl rfl fun _ => .inl rfl
  | readSnapshot view op held found =>
      simp only [viewBlock] at hblock
      split_ifs at hblock
      · obtain ⟨rfl, rfl⟩ := Prod.mk.inj (Option.some.inj hblock)
        exact Keeps.same hholds hat (quiet_refl _) hat.knows rfl rfl rfl rfl fun _ => .inl rfl
      · obtain ⟨rfl, rfl⟩ := Prod.mk.inj (Option.some.inj hblock)
        exact Keeps.same hholds hat (quiet_refl _) hat.knows rfl rfl rfl rfl fun _ => .inl rfl
  | leaveReaders view op held answer =>
      obtain ⟨rfl, rfl⟩ := Prod.mk.inj (Option.some.inj hblock)
      have hquiet := ((quiet_leaveAdmission shared held.record).trans
        (quiet_disown (shared.leaveAdmission held.record) (some held.overlay))).trans
        (quiet_leave _ view.state)
      exact Keeps.same hholds hat hquiet (hquiet.kept _ _ hat.knows)
        rfl rfl rfl rfl fun _ => .inl rfl
  | leaveView view op answer =>
      obtain ⟨rfl, rfl⟩ := Prod.mk.inj (Option.some.inj hblock)
      exact Keeps.same hholds hat (quiet_leave _ _) hat.knows rfl rfl rfl rfl fun _ => .inl rfl
  | _ => cases hblock

theorem keeps_block {choice : Choice} (hholds : Holds shared) (hat : At shared task)
    (hblock : block shared choice task = some (next, task')) : Keeps shared next task task' := by
  simp only [block, Option.orElse_eq_orElse, Option.orElse_eq_or, Option.or_eq_some_iff] at hblock
  rcases hblock with h | ⟨-, h | ⟨-, h | ⟨-, h | ⟨-, h | ⟨-, h | ⟨-, h⟩⟩⟩⟩⟩⟩
  · exact keeps_startBlock hholds hat h
  · exact keeps_stopBlock hholds hat h
  · exact keeps_createBlock hholds hat h
  · exact keeps_closeBlock hholds hat h
  · exact keeps_retainBlock hholds hat h
  · exact keeps_openBlock hholds hat h
  · exact keeps_viewBlock hholds hat h

end Blocks

/-! ## What an operation has read -/

section Reads

variable {Was : ℕ → InMemoryEngine → Prop} {snapshots : ℕ → InMemoryEngine}

variable (Was snapshots) in
/-- An answer comes from the snapshot and from what the overlay was at one moment, unless a
reader threw. -/
def Answers (op : Op) (answer : Answer) (overlay snapshot : ℕ) : Prop :=
  answer = op.fails op.threw ∨
    ∃ found, Was overlay found ∧ answer = op.answer ⟨found, snapshots snapshot⟩

variable (Was snapshots) in
def Reads : Task → Prop
  | .readSnapshot _ _ held found => Was held.overlay found
  | .leaveReaders _ op held answer => Answers Was snapshots op answer held.overlay held.snapshot
  | .returned _ op answer (some readers) => Answers Was snapshots op answer readers.1 readers.2
  | _ => True

theorem Answers.mono {Was' : ℕ → InMemoryEngine → Prop}
    (hwas : ∀ overlay found, Was overlay found → Was' overlay found) {op : Op} {answer : Answer}
    {overlay snapshot : ℕ} (hanswers : Answers Was snapshots op answer overlay snapshot) :
    Answers Was' snapshots op answer overlay snapshot := by
  rcases hanswers with hthrew | ⟨found, hfound, hanswer⟩
  · exact .inl hthrew
  · exact .inr ⟨found, hwas overlay found hfound, hanswer⟩

theorem Reads.mono {Was' : ℕ → InMemoryEngine → Prop}
    (hwas : ∀ overlay found, Was overlay found → Was' overlay found) {task : Task}
    (hreads : Reads Was snapshots task) : Reads Was' snapshots task := by
  cases task with
  | readSnapshot view op held found => exact hwas _ _ hreads
  | leaveReaders view op held answer => exact Answers.mono hwas hreads
  | returned view op answer readers =>
      cases readers with
      | none => trivial
      | some readers => exact Answers.mono hwas hreads
  | _ => trivial

variable {shared next : Shared} {choice : Choice} {task task' : Task}

/-- Only a view operation reads or refuses. -/
theorem viewBlock_of_block (hclaims : Claims shared task task') (hview : task'.ofView = true)
    (hblock : block shared choice task = some (next, task')) :
    viewBlock shared choice task = some (next, task') := by
  rcases hclaims.ofView hview with htask | rfl
  · cases task with
    | operate view op => exact hblock
    | enterView view op => exact hblock
    | acquireReaders view op => exact hblock
    | readOverlay view op held => exact hblock
    | readSnapshot view op held found => exact hblock
    | leaveReaders view op held answer => exact hblock
    | leaveView view op answer => exact hblock
    | returned view op answer readers => exact hblock
    | _ => cases htask
  · cases hblock

theorem reads_viewBlock (hwas : ∀ overlay, Was overlay (shared.overlays overlay))
    (hsnapshots : shared.snapshots = snapshots) (hreads : Reads Was snapshots task)
    (hblock : viewBlock shared choice task = some (next, task')) : Reads Was snapshots task' := by
  cases task with
  | operate view op =>
      simp only [viewBlock] at hblock
      split at hblock
      all_goals
        obtain ⟨rfl, rfl⟩ := Prod.mk.inj (Option.some.inj hblock)
        trivial
  | enterView view op =>
      simp only [viewBlock] at hblock
      split at hblock
      all_goals
        obtain ⟨rfl, rfl⟩ := Prod.mk.inj (Option.some.inj hblock)
        trivial
  | acquireReaders view op =>
      simp only [viewBlock] at hblock
      repeat' split at hblock
      all_goals
        obtain ⟨rfl, rfl⟩ := Prod.mk.inj (Option.some.inj hblock)
        trivial
  | readOverlay view op held =>
      simp only [viewBlock] at hblock
      split_ifs at hblock
      · obtain ⟨rfl, rfl⟩ := Prod.mk.inj (Option.some.inj hblock)
        exact .inl rfl
      · obtain ⟨rfl, rfl⟩ := Prod.mk.inj (Option.some.inj hblock)
        exact hwas held.overlay
  | readSnapshot view op held found =>
      simp only [viewBlock] at hblock
      split_ifs at hblock
      · obtain ⟨rfl, rfl⟩ := Prod.mk.inj (Option.some.inj hblock)
        exact .inl rfl
      · obtain ⟨rfl, rfl⟩ := Prod.mk.inj (Option.some.inj hblock)
        exact .inr ⟨found, hreads, by rw [hsnapshots]⟩
  | leaveReaders view op held answer =>
      obtain ⟨rfl, rfl⟩ := Prod.mk.inj (Option.some.inj hblock)
      exact hreads
  | leaveView view op answer =>
      obtain ⟨rfl, rfl⟩ := Prod.mk.inj (Option.some.inj hblock)
      trivial
  | _ => cases hblock

theorem Reads.of_not_ofView (hview : task.ofView = false) : Reads Was snapshots task := by
  cases task with
  | readSnapshot view op held found => cases hview
  | leaveReaders view op held answer => cases hview
  | returned view op answer readers => cases hview
  | _ => trivial

theorem reads_block (hwas : ∀ overlay, Was overlay (shared.overlays overlay))
    (hsnapshots : shared.snapshots = snapshots) (hreads : Reads Was snapshots task)
    (hclaims : Claims shared task task')
    (hblock : block shared choice task = some (next, task')) : Reads Was snapshots task' := by
  by_cases hview : task'.ofView = true
  · exact reads_viewBlock hwas hsnapshots hreads (viewBlock_of_block hclaims hview hblock)
  · exact .of_not_ofView (by simpa using hview)

end Reads

/-! ## The end of a generation -/

section Ended

variable {shared next : Shared} {choice : Choice} {task task' : Task} {view : View}

/-- The session was closed or retained. -/
def Withdrawn (shared : Shared) (view : View) : Prop :=
  (shared.records view.record).phase = .closing ∨ (shared.records view.record).lifecycle ≠ .active

/-- The session was closed or retained, or the node was stopped. -/
def Ended (shared : Shared) (view : View) : Prop :=
  (shared.states view.state).stopped = true ∨ Withdrawn shared view

theorem Withdrawn.effect (hholds : Holds shared) (hview : ViewAt shared view)
    (heffect : Effect shared next task) (hwithdrawn : Withdrawn shared view) :
    Withdrawn next view := by
  obtain ⟨-, snapshot, hmade⟩ := hview
  have hrecord : view.record < shared.allocated := by
    by_contra hle
    rw [hholds.unmade _ (not_lt.mp hle)] at hmade
    cases hmade
  rcases hwithdrawn with hclosing | hreleased
  · exact .inl (heffect.closing _ hrecord hclosing)
  · exact .inr (heffect.released _ hrecord hreleased)

theorem Ended.effect (hholds : Holds shared) (hview : ViewAt shared view)
    (heffect : Effect shared next task) (hended : Ended shared view) : Ended next view := by
  rcases hended with hstopped | hwithdrawn
  · exact .inl (heffect.stopped _ hview.1 hstopped)
  · exact .inr (hwithdrawn.effect hholds hview heffect)

/-- The operation was told that the session or the node is gone. -/
def Gone (op : Op) (answer : Answer) : Prop :=
  ∃ failure ∈ [notFound, stateLost, disconnected], answer = op.fails failure

/-- No operation of the view is reading, and one that has ended was refused. -/
def Refuses (shared : Shared) (view : View) : Task → Prop
  | .acquireReaders other _ => other = view → Withdrawn shared view
  | .readOverlay other _ _ | .readSnapshot other _ _ _ | .leaveReaders other _ _ _ => other ≠ view
  | .leaveView other op answer => other = view → Gone op answer
  | .returned other op answer _ => other = view → op.refusal = none → Gone op answer
  | _ => True

theorem Refuses.mono (hwithdrawn : Withdrawn shared view → Withdrawn next view)
    (hrefuses : Refuses shared view task) : Refuses next view task := by
  cases task with
  | acquireReaders other op => exact fun hother => hwithdrawn (hrefuses hother)
  | readOverlay other op held => exact hrefuses
  | readSnapshot other op held found => exact hrefuses
  | leaveReaders other op held answer => exact hrefuses
  | leaveView other op answer => exact hrefuses
  | returned other op answer readers => exact hrefuses
  | _ => trivial

theorem Refuses.of_not_ofView (hview : task.ofView = false) : Refuses shared view task := by
  cases task with
  | acquireReaders other op => cases hview
  | readOverlay other op held => cases hview
  | readSnapshot other op held found => cases hview
  | leaveReaders other op held answer => cases hview
  | leaveView other op answer => cases hview
  | returned other op answer readers => cases hview
  | _ => trivial

theorem refuses_viewBlock (hholds : Holds shared) (hview : ViewAt shared view)
    (hended : Ended shared view) (hrefuses : Refuses shared view task)
    (hblock : viewBlock shared choice task = some (next, task')) : Refuses next view task' := by
  have hgone : ∀ {op : Op} {failure}, failure ∈ [notFound, stateLost, disconnected] →
      Gone op (op.fails failure) := fun hfailure => ⟨_, hfailure, rfl⟩
  cases task with
  | operate other op =>
      simp only [viewBlock] at hblock
      split at hblock
      · rename_i failure hrefusal
        obtain ⟨rfl, rfl⟩ := Prod.mk.inj (Option.some.inj hblock)
        intro _ hnone
        rw [hnone] at hrefusal
        cases hrefusal
      · obtain ⟨rfl, rfl⟩ := Prod.mk.inj (Option.some.inj hblock)
        trivial
  | enterView other op =>
      simp only [viewBlock] at hblock
      split at hblock
      · obtain ⟨rfl, rfl⟩ := Prod.mk.inj (Option.some.inj hblock)
        exact fun _ _ => hgone (by simp)
      · rename_i henter
        obtain ⟨rfl, rfl⟩ := Prod.mk.inj (Option.some.inj hblock)
        rintro rfl
        -- a state that is entered was not stopped
        rcases hended with hstopped | hwithdrawn
        · rw [Shared.enter, hholds.stopped _ hstopped] at henter
          cases henter
        · have heffect : Effect _ _ .idle := (quiet_enter henter).effect
          exact hwithdrawn.effect hholds hview heffect
  | acquireReaders other op =>
      simp only [viewBlock] at hblock
      split at hblock
      · obtain ⟨rfl, rfl⟩ := Prod.mk.inj (Option.some.inj hblock)
        exact fun _ => hgone (by simp)
      · rename_i record hfind
        split_ifs at hblock with hactive hreleased
        · obtain ⟨rfl, rfl⟩ := Prod.mk.inj (Option.some.inj hblock)
          exact fun _ => hgone (by simp)
        · obtain ⟨rfl, rfl⟩ := Prod.mk.inj (Option.some.inj hblock)
          exact fun _ => hgone (by simp)
        · split at hblock
          · rename_i overlay snapshot hoverlay hsnapshot
            split_ifs at hblock with howner
            · obtain ⟨rfl, rfl⟩ := Prod.mk.inj (Option.some.inj hblock)
              exact fun _ => hgone (by simp)
            · obtain ⟨rfl, rfl⟩ := Prod.mk.inj (Option.some.inj hblock)
              rintro rfl
              -- the record that would be read is the one that was withdrawn
              obtain ⟨hrecord, -⟩ :=
                hview.admitted hholds hoverlay hsnapshot (by simpa using howner)
              rcases hrefuses rfl with hclosing | hlifecycle
              · rw [hrecord] at hclosing
                simp [Shared.isActive, hclosing] at hactive
              · rw [hrecord] at hlifecycle
                exact hreleased hlifecycle
          · obtain ⟨rfl, rfl⟩ := Prod.mk.inj (Option.some.inj hblock)
            exact fun _ => hgone (by simp)
  | readOverlay other op held =>
      simp only [viewBlock] at hblock
      split_ifs at hblock
      all_goals
        obtain ⟨rfl, rfl⟩ := Prod.mk.inj (Option.some.inj hblock)
        exact hrefuses
  | readSnapshot other op held found =>
      simp only [viewBlock] at hblock
      split_ifs at hblock
      all_goals
        obtain ⟨rfl, rfl⟩ := Prod.mk.inj (Option.some.inj hblock)
        exact hrefuses
  | leaveReaders other op held answer =>
      obtain ⟨rfl, rfl⟩ := Prod.mk.inj (Option.some.inj hblock)
      exact fun hother => absurd hother hrefuses
  | leaveView other op answer =>
      obtain ⟨rfl, rfl⟩ := Prod.mk.inj (Option.some.inj hblock)
      exact fun hother _ => hrefuses hother
  | _ => cases hblock

theorem refuses_block (hholds : Holds shared) (hview : ViewAt shared view)
    (hended : Ended shared view) (hrefuses : Refuses shared view task)
    (hclaims : Claims shared task task')
    (hblock : block shared choice task = some (next, task')) : Refuses next view task' := by
  by_cases hofView : task'.ofView = true
  · exact refuses_viewBlock hholds hview hended hrefuses
      (viewBlock_of_block hclaims hofView hblock)
  · exact .of_not_ofView (by simpa using hofView)

end Ended

/-! ## Every run -/

section Runs

variable {state next : State} {action : Action}

abbrev Inv : State → Prop := Invariant Holds At Compatible

theorem inv_start (snapshots : ℕ → InMemoryEngine) : Inv (start snapshots) where
  shared :=
    ⟨fun _ _ => rfl, fun _ _ _ h => (nomatch h), fun _ _ _ _ _ h => (nomatch h),
      fun _ _ h => (nomatch h), fun _ _ h => (nomatch h), fun _ h => (nomatch h),
      fun _ h => (nomatch h), fun _ h => (nomatch h)⟩
  task _ := .of_leaving rfl rfl rfl rfl trivial
  compatible _ _ _ := ⟨fun h => (nomatch h.1), fun _ h => (nomatch h)⟩

theorem keeps_call {shared : Shared} (hholds : Holds shared) (call : Call)
    (hpossible : call.possible shared = true) : Keeps shared shared .idle call.task := by
  have hat : At shared .idle := .of_leaving rfl rfl rfl rfl trivial
  cases call with
  | operate view op =>
      have hview : ViewAt shared view := hholds.views view (by simpa [Call.possible] using hpossible)
      exact Keeps.same hholds hat (quiet_refl _) hview rfl rfl rfl rfl fun _ => .inr rfl
  | _ =>
      exact Keeps.same hholds hat (quiet_refl _) trivial rfl rfl rfl rfl fun _ => .inr rfl

theorem Inv.keeps (hinv : Inv state) {task : ℕ} {shared : Shared} {task' : Task}
    (hkeeps : Keeps state.shared shared (state.tasks task) task') :
    Inv (state.replace task shared task') ∧ ∃ task, Effect state.shared shared task :=
  ⟨hinv.replace (fun _ _ => Compatible.symm) hkeeps.holds hkeeps.stands
    (undisturbed hkeeps.effect hkeeps.claims), _, hkeeps.effect⟩

theorem Inv.quiet (hinv : Inv state) {shared : Shared} (hquiet : Quiet state.shared shared) :
    Inv { state with shared } ∧ ∃ task, Effect state.shared shared task :=
  ⟨hinv.setShared (hinv.shared.quiet hquiet) fun _ hat => hat.quiet hquiet, .idle, hquiet.effect⟩

theorem step_inv (hinv : Inv state) (hstep : step state action = some next) :
    Inv next ∧ ∃ task, Effect state.shared next.shared task := by
  cases action with
  | call task call =>
      simp only [step] at hstep
      split at hstep
      · rename_i hidle
        split_ifs at hstep with hpossible
        obtain rfl := Option.some.inj hstep
        refine hinv.keeps ?_
        rw [hidle]
        exact keeps_call hinv.shared call hpossible
      · cases hstep
  | block task choice =>
      simp only [step, Option.map_eq_some_iff] at hstep
      obtain ⟨⟨shared, task'⟩, hblock, rfl⟩ := hstep
      exact hinv.keeps (keeps_block hinv.shared (hinv.task task) hblock)
  | own overlay =>
      simp only [step] at hstep
      split_ifs at hstep
      obtain rfl := Option.some.inj hstep
      exact hinv.quiet (quiet_overlays _ _ _ _)
  | disown overlay =>
      simp only [step] at hstep
      split_ifs at hstep
      obtain rfl := Option.some.inj hstep
      exact hinv.quiet (quiet_overlays _ _ _ _)
  | write overlay engine =>
      obtain rfl := Option.some.inj hstep
      exact hinv.quiet (quiet_overlays _ _ _ _)

/-- What a step can do to a task. -/
theorem step_task (hstep : step state action = some next) (task : ℕ) :
    next.tasks task = state.tasks task ∨ (∃ call : Call, next.tasks task = call.task) ∨
      ∃ choice, block state.shared choice (state.tasks task) =
        some (next.shared, next.tasks task) := by
  cases action with
  | call moved call =>
      simp only [step] at hstep
      split at hstep
      · split_ifs at hstep
        obtain rfl := Option.some.inj hstep
        by_cases hmoved : task = moved
        · subst hmoved
          exact .inr (.inl ⟨call, Config.replace_self ..⟩)
        · exact .inl (Config.replace_of_ne _ _ _ hmoved)
      · cases hstep
  | block moved choice =>
      simp only [step, Option.map_eq_some_iff] at hstep
      obtain ⟨⟨shared, task'⟩, hblock, rfl⟩ := hstep
      by_cases hmoved : task = moved
      · subst hmoved
        rw [Config.replace_self, Config.replace_shared]
        exact .inr (.inr ⟨choice, hblock⟩)
      · exact .inl (Config.replace_of_ne _ _ _ hmoved)
  | own overlay =>
      simp only [step] at hstep
      split_ifs at hstep
      obtain rfl := Option.some.inj hstep
      exact .inl rfl
  | disown overlay =>
      simp only [step] at hstep
      split_ifs at hstep
      obtain rfl := Option.some.inj hstep
      exact .inl rfl
  | write overlay engine =>
      obtain rfl := Option.some.inj hstep
      exact .inl rfl

/-- What an overlay was at one moment of the run. -/
def Was (snapshots : ℕ → InMemoryEngine) (actions : List Action) (overlay : ℕ)
    (found : InMemoryEngine) : Prop :=
  Once step (start snapshots) actions fun before => before.shared.overlays overlay = found

/-- What a state knows of the run that led to it. -/
structure Past (snapshots : ℕ → InMemoryEngine) (actions : List Action) (state : State) :
    Prop where
  inv : Inv state
  constant : state.shared.snapshots = snapshots
  reads : ∀ task, Reads (Was snapshots actions) snapshots (state.tasks task)
  opened : ∀ view ∈ state.shared.views,
    Once step (start snapshots) actions fun before => Opens before.shared view

theorem past_start (snapshots : ℕ → InMemoryEngine) : Past snapshots [] (start snapshots) :=
  ⟨inv_start snapshots, rfl, fun _ => trivial, fun _ h => (nomatch h)⟩

theorem reads_step {snapshots : ℕ → InMemoryEngine} {actions : List Action}
    (hrun : run step (start snapshots) actions = some state) (hpast : Past snapshots actions state)
    (hstep : step state action = some next) (task : ℕ) :
    Reads (Was snapshots (actions ++ [action])) snapshots (next.tasks task) := by
  have hbefore : ∀ task, Reads (Was snapshots (actions ++ [action])) snapshots
      (state.tasks task) := fun task =>
    (hpast.reads task).mono fun _ _ hwas => hwas.later [action]
  rcases step_task hstep task with hsame | ⟨call, hcall⟩ | ⟨choice, hblock⟩
  · rw [hsame]
    exact hbefore task
  · rw [hcall]
    cases call <;> trivial
  · have hkeeps := keeps_block hpast.inv.shared (hpast.inv.task task) hblock
    refine reads_block (fun overlay => ?_) hpast.constant (hbefore task) hkeeps.claims hblock
    have hnow : Was snapshots actions overlay (state.shared.overlays overlay) := once_now hrun rfl
    exact hnow.later _

theorem run_past {snapshots : ℕ → InMemoryEngine} {actions : List Action}
    (hrun : run step (start snapshots) actions = some state) : Past snapshots actions state := by
  refine run_history (Past snapshots) (past_start snapshots) ?_ hrun
  intro actions state action next hrun hpast hstep
  obtain ⟨hinv, task, heffect⟩ := step_inv hpast.inv hstep
  refine ⟨hinv, heffect.snapshots.trans hpast.constant, reads_step hrun hpast hstep, ?_⟩
  intro view hview
  rcases heffect.views view hview with hbefore | hopens
  · exact (hpast.opened view hbefore).later [action]
  · exact Once.later (once_now hrun hopens) _

/-- An operation of a view that has ended is refused, if its arguments are not. -/
structure Refused (view : View) (task : ℕ) (state : State) : Prop where
  inv : Inv state
  stands : ViewAt state.shared view
  ended : Ended state.shared view
  refuses : Refuses state.shared view (state.tasks task)

theorem refused_step {view : View} {task : ℕ} (hrefused : Refused view task state)
    (hstep : step state action = some next) : Refused view task next := by
  obtain ⟨hinv, mover, heffect⟩ := step_inv hrefused.inv hstep
  have hholds := hrefused.inv.shared
  refine ⟨hinv, hrefused.stands.mono heffect.started heffect.kept,
    hrefused.ended.effect hholds hrefused.stands heffect, ?_⟩
  rcases step_task hstep task with hsame | ⟨call, hcall⟩ | ⟨choice, hblock⟩
  · rw [hsame]
    exact hrefused.refuses.mono fun h => h.effect hholds hrefused.stands heffect
  · rw [hcall]
    cases call <;> trivial
  · have hkeeps := keeps_block hholds (hrefused.inv.task task) hblock
    exact refuses_block hholds hrefused.stands hrefused.ended hrefused.refuses hkeeps.claims hblock

/-! ## An operation ends -/

/-- How many blocks an operation has left at most. -/
def Task.remaining : Task → ℕ
  | .operate _ _ => 6
  | .enterView _ _ => 5
  | .acquireReaders _ _ => 4
  | .readOverlay _ _ _ => 3
  | .readSnapshot _ _ _ _ => 2
  | .leaveReaders _ _ _ _ | .leaveView _ _ _ => 1
  | _ => 0

theorem returned_or_remaining {task : Task} (hview : task.ofView = true) :
    (∃ view op answer readers, task = .returned view op answer readers) ∨ 0 < task.remaining := by
  cases task with
  | returned view op answer readers => exact .inl ⟨view, op, answer, readers, rfl⟩
  | operate view op => exact .inr (by simp [Task.remaining])
  | enterView view op => exact .inr (by simp [Task.remaining])
  | acquireReaders view op => exact .inr (by simp [Task.remaining])
  | readOverlay view op held => exact .inr (by simp [Task.remaining])
  | readSnapshot view op held found => exact .inr (by simp [Task.remaining])
  | leaveReaders view op held answer => exact .inr (by simp [Task.remaining])
  | leaveView view op answer => exact .inr (by simp [Task.remaining])
  | _ => cases hview

theorem viewBlock_proceeds (shared : Shared) (choice : Choice) {task : Task}
    (hremaining : 0 < task.remaining) :
    ∃ next task', viewBlock shared choice task = some (next, task') ∧ task'.ofView = true ∧
      task'.remaining < task.remaining := by
  cases task with
  | operate view op =>
      simp only [viewBlock]
      split
      · exact ⟨_, _, rfl, rfl, by simp [Task.remaining]⟩
      · exact ⟨_, _, rfl, rfl, by simp [Task.remaining]⟩
  | enterView view op =>
      simp only [viewBlock]
      split
      · exact ⟨_, _, rfl, rfl, by simp [Task.remaining]⟩
      · exact ⟨_, _, rfl, rfl, by simp [Task.remaining]⟩
  | acquireReaders view op =>
      simp only [viewBlock]
      repeat' split
      all_goals exact ⟨_, _, rfl, rfl, by simp [Task.remaining]⟩
  | readOverlay view op held =>
      simp only [viewBlock]
      split_ifs
      · exact ⟨_, _, rfl, rfl, by simp [Task.remaining]⟩
      · exact ⟨_, _, rfl, rfl, by simp [Task.remaining]⟩
  | readSnapshot view op held found =>
      simp only [viewBlock]
      split_ifs
      · exact ⟨_, _, rfl, rfl, by simp [Task.remaining]⟩
      · exact ⟨_, _, rfl, rfl, by simp [Task.remaining]⟩
  | leaveReaders view op held answer => exact ⟨_, _, rfl, rfl, by simp [Task.remaining]⟩
  | leaveView view op answer => exact ⟨_, _, rfl, rfl, by simp [Task.remaining]⟩
  | _ => cases hremaining

theorem block_of_viewBlock {shared next : Shared} {choice : Choice} {task task' : Task}
    (hremaining : 0 < task.remaining) (hblock : viewBlock shared choice task = some (next, task')) :
    block shared choice task = some (next, task') := by
  cases task with
  | operate view op => exact hblock
  | enterView view op => exact hblock
  | acquireReaders view op => exact hblock
  | readOverlay view op held => exact hblock
  | readSnapshot view op held found => exact hblock
  | leaveReaders view op held answer => exact hblock
  | leaveView view op answer => exact hblock
  | _ => cases hremaining

/-! ## A view reads its own generation, and no other -/

def Answer.succeeds : Answer → Bool
  | .value (.ok _) | .present (.ok _) | .listed ⟨.ok _, _⟩ => true
  | _ => false

theorem not_succeeds_fails (op : Op) (failure : StoreList.Failure) : (op.fails failure).succeeds = false := by
  cases op <;> rfl

/-- In every run: distinct generations have distinct overlays; a view was opened on a session that
was active; a successful operation read the overlay and the snapshot that this session was created
with; an operation ends within six blocks of its own; and once the session was closed or retained,
or the node stopped, an operation whose arguments are accepted finds it gone. -/
theorem view_reads_own_generation (snapshots : ℕ → InMemoryEngine) {actions later : List Action}
    {middle finish : State} (hrun : run step (start snapshots) actions = some middle)
    (hlater : run step middle later = some finish) :
    (∀ first second overlay snapshot snapshot',
      (finish.shared.records first).made = some (overlay, snapshot) →
      (finish.shared.records second).made = some (overlay, snapshot') → first = second) ∧
    (∀ view ∈ finish.shared.views, Once step (start snapshots) (actions ++ later)
      fun before => Opens before.shared view) ∧
    (∀ task view op answer readers,
      finish.tasks task = .returned view op answer readers → answer.succeeds = true →
      ∃ overlay snapshot, readers = some (overlay, snapshot) ∧
        (finish.shared.records view.record).made = some (overlay, snapshot) ∧
        Once step (start snapshots) (actions ++ later) fun before =>
          answer = op.answer ⟨before.shared.overlays overlay, snapshots snapshot⟩) ∧
    (∀ task, (finish.tasks task).ofView = true →
      (∃ view op answer readers, finish.tasks task = .returned view op answer readers) ∨
      ∀ choice, ∃ next, step finish (.block task choice) = some next ∧
        (next.tasks task).ofView = true ∧
        (next.tasks task).remaining < (finish.tasks task).remaining) ∧
    ∀ task, ∀ view ∈ middle.shared.views, Ended middle.shared view → middle.tasks task = .idle →
      ∀ op answer readers, finish.tasks task = .returned view op answer readers →
        op.refusal = none →
        ∃ failure ∈ [notFound, stateLost, disconnected], answer = op.fails failure := by
  have hpast : Past snapshots (actions ++ later) finish := by
    refine run_past ?_
    rw [run_append, hrun]
    exact hlater
  refine ⟨hpast.inv.shared.single, hpast.opened, ?_, ?_, ?_⟩
  · intro task view op answer readers htask hsucceeds
    have hreads := hpast.reads task
    have hknows := (hpast.inv.task task).knows
    rw [htask] at hreads hknows
    cases readers with
    | none =>
        obtain ⟨failure, rfl⟩ := hknows
        rw [not_succeeds_fails] at hsucceeds
        cases hsucceeds
    | some readers =>
        refine ⟨readers.1, readers.2, rfl, hknows, ?_⟩
        rcases hreads with rfl | ⟨found, ⟨earlier, before, hearlier, hbefore, rfl⟩, hanswer⟩
        · rw [not_succeeds_fails] at hsucceeds
          cases hsucceeds
        · exact ⟨earlier, before, hearlier, hbefore, hanswer⟩
  · intro task hofView
    refine (returned_or_remaining hofView).imp_right fun hremaining choice => ?_
    obtain ⟨shared, task', hblock, hproceeds⟩ := viewBlock_proceeds finish.shared choice hremaining
    refine ⟨finish.replace task shared task', ?_, ?_⟩
    · simp only [step, block_of_viewBlock hremaining hblock, Option.map_some]
    · rw [Config.replace_self]
      exact hproceeds
  · intro task view hview hended hidle op answer readers htask hrefusal
    have hinv := (run_past hrun).inv
    have hstart : Refused view task middle := by
      refine ⟨hinv, hinv.shared.views view hview, hended, ?_⟩
      rw [hidle]
      trivial
    have hrefused : Refused view task finish :=
      run_invariant (fun _ _ _ => refused_step) hstart hlater
    have hrefuses := hrefused.refuses
    rw [htask] at hrefuses
    exact hrefuses rfl hrefusal

end Runs

/-- Nothing outside the block fails. -/
def granted : Choice :=
  { ok := true, catalogued := false, index := 0, snapshot := 0, reconciled := none }

/-- A node is started, and a session is created and viewed. -/
def viewed : List Action :=
  .call 0 .start :: List.replicate 4 (.block 0 granted) ++
    .call 1 (.create (ascii "s")) :: List.replicate 7 (.block 1 granted) ++
    .call 2 (.open (ascii "s")) :: List.replicate 4 (.block 2 granted)

/-- The session is closed. -/
def closed : List Action :=
  .call 3 (.close (ascii "s")) :: List.replicate 9 (.block 3 granted)

def Task.isIdle : Task → Bool
  | .idle => true
  | _ => false

/-- One call found the key missing in the given readers, the other got no readers. -/
def Task.foundMissing (view : View) (key : ByteString) (readers : ℕ × ℕ) : Task → Task → Bool
  | .returned first (.contains firstKey) (.present (.ok false)) (some used),
      .returned second (.contains secondKey) _ none =>
      decide (first = view ∧ second = view ∧ firstKey = key ∧ secondKey = key ∧ used = readers)
  | _, _ => false

/-- The key of the call is not valid. -/
def Task.refusedKey (view : View) : Task → Bool
  | .returned called (.get key) (.value (.error failure)) none =>
      decide (called = view ∧ key = [] ∧ failure = (.invalidKey, "invalid key"))
  | _ => false

theorem Task.eq_idle {task : Task} (hidle : task.isIdle = true) : task = .idle := by
  cases task with
  | idle => rfl
  | _ => cases hidle

/-- A view finds a key missing in its session, and after the session was closed finds it gone. -/
theorem view_reads_own_generation_closed :
    ∃ (finish : State) (view : View) (answer answer' : Answer),
      finish.tasks 4 = .returned view (.contains (ascii "a")) answer (some (0, 0)) ∧
      (finish.shared.records view.record).made = some (0, 0) ∧
      finish.tasks 5 = .returned view (.contains (ascii "a")) answer' none ∧
      ∃ failure ∈ [notFound, stateLost, disconnected],
        answer' = Op.fails (.contains (ascii "a")) failure := by
  let snapshots : ℕ → InMemoryEngine := fun _ => Core.SortedMap.empty
  let view : View := ⟨0, 0, ascii "s", 0⟩
  let key : ByteString := ascii "a"
  let actions : List Action :=
    viewed ++ .call 4 (.operate view (.contains key)) :: List.replicate 6 (.block 4 granted) ++ closed
  let later : List Action :=
    .call 5 (.operate view (.contains key)) :: List.replicate 4 (.block 5 granted)
  have hends : (run step (start snapshots) actions).any (fun middle =>
      decide (view ∈ middle.shared.views) && decide ((middle.shared.records 0).phase = .closing) &&
        (middle.tasks 5).isIdle &&
        (run step middle later).any fun finish =>
          Task.foundMissing view key (0, 0) (finish.tasks 4) (finish.tasks 5)) = true := by
    decide +kernel
  obtain ⟨middle, hrun, hmiddle⟩ := (Option.any_eq_true _ _).mp hends
  simp only [Bool.and_eq_true, decide_eq_true_eq] at hmiddle
  obtain ⟨⟨⟨hview, hclosing⟩, hidle⟩, hlater⟩ := hmiddle
  obtain ⟨finish, hfinish, hreturned⟩ := (Option.any_eq_true _ _).mp hlater
  have htask : middle.tasks 5 = .idle := Task.eq_idle hidle
  simp only [Task.foundMissing] at hreturned
  split at hreturned
  · rename_i hfirst hsecond
    obtain ⟨rfl, rfl, rfl, rfl, rfl⟩ := of_decide_eq_true hreturned
    obtain ⟨-, -, hreads, -, hended⟩ := view_reads_own_generation snapshots hrun hfinish
    obtain ⟨overlay, snapshot, hreaders, hmade, -⟩ := hreads 4 _ _ _ _ hfirst rfl
    rw [← hreaders] at hmade
    exact ⟨finish, view, _, _, hfirst, hmade, hsecond,
      hended 5 view hview (.inr (.inl hclosing)) htask _ _ _ hsecond (by decide)⟩
  · cases hreturned

/-- A key that is not valid is refused as such, whatever became of the session. -/
theorem ended_view_refuses_key :
    ¬∀ (snapshots : ℕ → InMemoryEngine) (actions later : List Action) (middle finish : State),
      run step (start snapshots) actions = some middle → run step middle later = some finish →
      ∀ task, ∀ view ∈ middle.shared.views, Ended middle.shared view →
        middle.tasks task = .idle → ∀ op answer readers,
        finish.tasks task = .returned view op answer readers →
        ∃ failure ∈ [notFound, stateLost, disconnected], answer = op.fails failure := by
  intro hclaim
  let snapshots : ℕ → InMemoryEngine := fun _ => Core.SortedMap.empty
  let view : View := ⟨0, 0, ascii "s", 0⟩
  let later : List Action := [.call 4 (.operate view (.get [])), .block 4 granted]
  have hends : (run step (start snapshots) (viewed ++ closed)).any (fun middle =>
      decide (view ∈ middle.shared.views) && decide ((middle.shared.records 0).phase = .closing) &&
        (middle.tasks 4).isIdle &&
        (run step middle later).any fun finish =>
          (finish.tasks 4).refusedKey view) = true := by
    decide +kernel
  obtain ⟨middle, hrun, hmiddle⟩ := (Option.any_eq_true _ _).mp hends
  simp only [Bool.and_eq_true, decide_eq_true_eq] at hmiddle
  obtain ⟨⟨⟨hview, hclosing⟩, hidle⟩, hlater⟩ := hmiddle
  obtain ⟨finish, hfinish, hreturned⟩ := (Option.any_eq_true _ _).mp hlater
  have htask : middle.tasks 4 = .idle := Task.eq_idle hidle
  simp only [Task.refusedKey] at hreturned
  split at hreturned
  · rename_i hoperation
    obtain ⟨rfl, rfl, rfl⟩ := of_decide_eq_true hreturned
    obtain ⟨failure, hfailure, hanswer⟩ := hclaim snapshots (viewed ++ closed) later middle finish hrun
      hfinish 4 view hview (.inr (.inl hclosing)) htask _ _ _ hoperation
    have hsame := Except.error.inj (Answer.value.inj hanswer)
    rw [← hsame] at hfailure
    revert hfailure
    decide
  · cases hreturned

end Sitos.ViewGeneration
