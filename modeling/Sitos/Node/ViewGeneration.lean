import Sitos.Cache.ReadModel
import Sitos.Core.Machine
import Sitos.Core.Tasks

/-!
# Session views across generations

A node is started and stopped, its sessions are created, closed and retained, and views are opened
on them and read, all side by side.  A block is what the source does under one lock, or between two
of them; what a block cannot decide itself (the catalog, the clock, an engine that throws) is
chosen freely.

The states of the node, its session records and the overlay engines are numbered in the order they
are made.  A number stands for one object for ever, as the control block of a shared pointer does
while a weak pointer still refers to it.
-/

namespace Sitos.ViewGeneration

open Sitos.AckResult
open Sitos.Bytes
open Sitos.Key
open Sitos.ListPrefix
open Sitos.Query
open Sitos.ReadModel
open Sitos.StoreList
open Sitos.Tasks
open Sitos.Value

inductive Phase where
  | creating
  | active
  | closing
  deriving DecidableEq, Repr

inductive Lifecycle where
  | active
  | retained
  | orphaned
  deriving DecidableEq, Repr

/-- `made` notes the overlay and the snapshot that the generation was created with. -/
structure SessionRecord where
  sid : ByteString
  phase : Phase
  lifecycle : Lifecycle
  reconciled : Bool
  admitted : ℕ
  snapshot : Option ℕ
  overlay : Option ℕ
  made : Option (ℕ × ℕ)

def SessionRecord.create (sid : ByteString) : SessionRecord :=
  { sid, phase := .creating, lifecycle := .active, reconciled := false, admitted := 0,
    snapshot := none, overlay := none, made := none }

/-- `State` of one `Start`.  `stopped` notes that it was deactivated. -/
structure NodeState where
  accepting : Bool
  inFlight : ℕ
  sessions : List (ByteString × ℕ)
  stopped : Bool

def NodeState.create : NodeState :=
  { accepting := false, inFlight := 0, sessions := [], stopped := false }

/-- `SessionView::Impl`: weak references to the state and to the overlay.  `record` notes whose
overlay it is. -/
structure View where
  state : ℕ
  overlayOwner : ℕ
  sid : ByteString
  record : ℕ
  deriving DecidableEq

/-- The node and the objects it has made.  `operation` is the mutex of `Start` and `Stop`;
`useCount` counts the owners of an overlay, of which callbacks hold `borrowed`; `views` notes the
views that were opened. -/
structure Shared where
  state : Option ℕ
  operation : Bool
  states : ℕ → NodeState
  started : ℕ
  records : ℕ → SessionRecord
  allocated : ℕ
  overlays : ℕ → InMemoryEngine
  overlayCount : ℕ
  useCount : ℕ → ℕ
  borrowed : ℕ → ℕ
  snapshots : ℕ → InMemoryEngine
  views : List View

/-- `SessionView::Readers`, and the record that they were admitted by. -/
structure Held where
  record : ℕ
  overlay : ℕ
  snapshot : ℕ
  deriving DecidableEq

inductive Op where
  | get (key : ByteString)
  | contains (key : ByteString)
  | list (listPrefix : ByteString) (sink : Option ListSink)

inductive Answer where
  | value (result : Except Failure ParamValue)
  | present (result : Except Failure Bool)
  | listed (run : ListRun)

/-- The next block of a task. -/
inductive Task where
  | idle
  -- Start
  | start
  | reconcile (state : ℕ)
  | activateState (state : ℕ)
  | declareQueryable (state : ℕ)
  -- Stop
  | stop
  | quiesce (state : ℕ)
  | drainState (state : ℕ)
  | extract (state : ℕ)
  | closeExtracted (state record : ℕ)
  | drainExtracted (state record : ℕ)
  | releaseExtracted (state record : ℕ)
  -- CreateSession
  | create (sid : ByteString)
  | createEnter (state : ℕ) (sid : ByteString)
  | publish (state record : ℕ)
  | takeSnapshot (state record : ℕ)
  | createStore (state record : ℕ)
  | activate (state record : ℕ)
  | rollBack (state record : ℕ)
  | withdraw (state record : ℕ)
  -- CloseSession
  | close (sid : ByteString)
  | closeEnter (state : ℕ) (sid : ByteString)
  | select (state : ℕ) (sid : ByteString)
  | beginDeletion (state : ℕ) (sid : ByteString) (record : ℕ)
  | beginClose (state : ℕ) (sid : ByteString) (record : ℕ)
  | drain (state : ℕ) (sid : ByteString) (record : ℕ)
  | release (state : ℕ) (sid : ByteString) (record : ℕ)
  | unmap (state : ℕ) (sid : ByteString) (record : ℕ)
  -- RetainSession
  | retain (sid : ByteString)
  | retainEnter (state : ℕ) (sid : ByteString)
  | acquire (state : ℕ) (sid : ByteString)
  | retainCheck (state record : ℕ)
  | retainCommit (state record : ℕ)
  | leaveRecord (state record : ℕ) (released : Option ℕ)
  | leave (state : ℕ)
  -- SessionView::Open
  | open (sid : ByteString)
  | openEnter (state : ℕ) (sid : ByteString)
  | openSelect (state : ℕ) (sid : ByteString)
  | openLeave (view : View)
  | opened (view : View)
  -- Get, Contains and List
  | operate (view : View) (op : Op)
  | enterView (view : View) (op : Op)
  | acquireReaders (view : View) (op : Op)
  | readOverlay (view : View) (op : Op) (held : Held)
  | readSnapshot (view : View) (op : Op) (held : Held) (found : InMemoryEngine)
  | leaveReaders (view : View) (op : Op) (held : Held) (answer : Answer)
  | leaveView (view : View) (op : Op) (answer : Answer)
  | returned (view : View) (op : Op) (answer : Answer) (readers : Option (ℕ × ℕ))
  | done

/-- What a block finds outside itself.  `ok` is false when something the block calls fails or
throws. -/
structure Choice where
  ok : Bool
  catalogued : Bool
  index : ℕ
  snapshot : ℕ
  reconciled : Option (ByteString × Lifecycle)

namespace Shared

def modify (shared : Shared) (record : ℕ) (change : SessionRecord → SessionRecord) : Shared :=
  { shared with
    records := Function.update shared.records record (change (shared.records record)) }

def modifyState (shared : Shared) (state : ℕ) (change : NodeState → NodeState) : Shared :=
  { shared with
    states := Function.update shared.states state (change (shared.states state)) }

def find (shared : Shared) (state : ℕ) (sid : ByteString) : Option ℕ :=
  (shared.states state).sessions.lookup sid

def isActive (shared : Shared) (record : ℕ) : Bool := (shared.records record).phase == .active

/-- `erase` of the session table, if the session still maps to the record. -/
def unmap (shared : Shared) (state : ℕ) (sid : ByteString) (record : ℕ) : Shared :=
  if shared.find state sid = some record then
    shared.modifyState state fun node =>
      { node with sessions := node.sessions.filter fun entry => entry.1 ≠ sid }
  else shared

/-- The owner of an overlay lets it go. -/
def disown (shared : Shared) : Option ℕ → Shared
  | none => shared
  | some overlay =>
      { shared with
        useCount := Function.update shared.useCount overlay (shared.useCount overlay - 1) }

/-- `snapshot.reset()` and `overlay.reset()` of a record. -/
def reset (shared : Shared) (record : ℕ) : Shared :=
  (shared.modify record fun session => { session with snapshot := none, overlay := none }).disown
    (shared.records record).overlay

def enter (shared : Shared) (state : ℕ) : Option Shared :=
  if (shared.states state).accepting then
    some (shared.modifyState state fun node => { node with inFlight := node.inFlight + 1 })
  else none

def leave (shared : Shared) (state : ℕ) : Shared :=
  shared.modifyState state fun node => { node with inFlight := node.inFlight - 1 }

def acquire (shared : Shared) (record : ℕ) : Shared :=
  shared.modify record fun session => { session with admitted := session.admitted + 1 }

def leaveAdmission (shared : Shared) (record : ℕ) : Shared :=
  shared.modify record fun session => { session with admitted := session.admitted - 1 }

/-- `BeginClose`: nothing but an active record is closed. -/
def beginClose (shared : Shared) (record : ℕ) : Option Shared :=
  if shared.isActive record then
    some (shared.modify record fun session => { session with phase := .closing })
  else none

/-- A weak pointer and a shared one have one owner, unless the former has expired. -/
def sameOwner (shared : Shared) (expected actual : ℕ) : Bool :=
  shared.useCount expected != 0 && expected == actual

end Shared

/-! ## Start and Stop -/

def startBlock (shared : Shared) (choice : Choice) : Task → Option (Shared × Task)
  | .start =>
      if shared.operation then none
      else if shared.state.isSome ∨ !choice.ok then some (shared, .done)
      else
        some
          ({ shared with
              operation := true
              started := shared.started + 1
              states := Function.update shared.states shared.started .create },
            .reconcile shared.started)
  | .reconcile state =>
      match choice.reconciled with
      | none => some (shared, .activateState state)
      | some (sid, lifecycle) =>
          -- a reopened store has no parameters: it is never in the active lifecycle
          if lifecycle = .active then none
          else
            let record := shared.allocated
            let session :=
              { SessionRecord.create sid with phase := .active, lifecycle, reconciled := true }
            let shared :=
              { shared with
                records := Function.update shared.records record session
                allocated := record + 1 }
            some
              (shared.modifyState state fun node =>
                { node with
                  sessions := (sid, record) :: node.sessions.filter fun entry => entry.1 ≠ sid },
                .reconcile state)
  | .activateState state =>
      if !choice.ok then some ({ shared with operation := false }, .done)
      else
        some (shared.modifyState state fun node => { node with accepting := true },
          .declareQueryable state)
  | .declareQueryable state =>
      if choice.ok then some ({ shared with state := some state, operation := false }, .done)
      else some (shared, .quiesce state)
  | _ => none

def stopBlock (shared : Shared) (choice : Choice) : Task → Option (Shared × Task)
  | .stop =>
      if shared.operation then none
      else
        match shared.state with
        | none => some (shared, .done)
        | some state => some ({ shared with state := none, operation := true }, .quiesce state)
  | .quiesce state =>
      some (shared.modifyState state fun node => { node with accepting := false, stopped := true },
        .drainState state)
  | .drainState state =>
      if (shared.states state).inFlight = 0 then some (shared, .extract state) else none
  | .extract state =>
      let sessions := (shared.states state).sessions
      if sessions = [] then some ({ shared with operation := false }, .done)
      else
        match sessions[choice.index]? with
        | none => none
        | some entry =>
            some
              (shared.modifyState state fun node =>
                { node with sessions := node.sessions.eraseIdx choice.index },
                .closeExtracted state entry.2)
  | .closeExtracted state record =>
      match shared.beginClose record with
      | some shared => some (shared, .drainExtracted state record)
      | none => some (shared, .releaseExtracted state record)
  | .drainExtracted state record =>
      if (shared.records record).admitted = 0 then some (shared, .releaseExtracted state record)
      else none
  | .releaseExtracted state record => some (shared.reset record, .extract state)
  | _ => none

/-! ## CreateSession -/

/-- An administrative call reads the current state and then enters it. -/
def withState (shared : Shared) (task : ℕ → Task) : Shared × Task :=
  match shared.state with
  | none => (shared, .done)
  | some state => (shared, task state)

def createBlock (shared : Shared) (choice : Choice) : Task → Option (Shared × Task)
  | .create sid =>
      if !isValidSessionId sid then some (shared, .done)
      else some (withState shared fun state => .createEnter state sid)
  | .createEnter state sid =>
      match shared.enter state with
      | none => some (shared, .done)
      | some shared =>
          if !choice.ok then some (shared, .leave state)
          else
            let record := shared.allocated
            some
              ({ shared with
                  records := Function.update shared.records record (.create sid)
                  allocated := record + 1 },
                .publish state record)
  | .publish state record =>
      let sid := (shared.records record).sid
      -- a catalogued session that is not deleted still owns its name
      if (shared.find state sid).isSome ∨ !choice.ok then some (shared, .leave state)
      else
        some
          (shared.modifyState state fun node =>
            { node with sessions := (sid, record) :: node.sessions },
            .takeSnapshot state record)
  | .takeSnapshot state record =>
      if !choice.ok then some (shared, .rollBack state record)
      else
        let overlay := shared.overlayCount
        let shared := shared.modify record fun session =>
          { session with
            snapshot := some choice.snapshot
            overlay := some overlay
            made := some (overlay, choice.snapshot) }
        some
          ({ shared with
              overlayCount := overlay + 1
              overlays := Function.update shared.overlays overlay Core.SortedMap.empty
              useCount := Function.update shared.useCount overlay 1 },
            .createStore state record)
  | .createStore state record =>
      some (shared, if choice.ok then .activate state record else .rollBack state record)
  | .activate state record =>
      let session := shared.records record
      if shared.find state session.sid = some record ∧ session.phase = .creating then
        some (shared.modify record fun session => { session with phase := .active }, .leave state)
      else some (shared, .rollBack state record)
  | .rollBack state record => some (shared.reset record, .withdraw state record)
  | .withdraw state record =>
      some (shared.unmap state (shared.records record).sid record, .leave state)
  | .leave state => some (shared.leave state, .done)
  | _ => none

/-! ## CloseSession and RetainSession -/

def closeBlock (shared : Shared) (choice : Choice) : Task → Option (Shared × Task)
  | .close sid => some (withState shared fun state => .closeEnter state sid)
  | .closeEnter state sid =>
      match shared.enter state with
      | none => some (shared, .done)
      | some shared => some (shared, if choice.ok then .select state sid else .leave state)
  | .select state sid =>
      match shared.find state sid with
      | none => some (shared, .leave state)
      | some record =>
          some (shared,
            if shared.isActive record then .beginDeletion state sid record else .leave state)
  | .beginDeletion state sid record =>
      if !choice.catalogued then
        some (shared, if choice.ok then .beginClose state sid record else .leave state)
      else if shared.find state sid ≠ some record ∨ !choice.ok then some (shared, .leave state)
      else
        match shared.beginClose record with
        | some shared => some (shared, .drain state sid record)
        | none => some (shared, .leave state)
  | .beginClose state sid record =>
      if shared.find state sid ≠ some record then some (shared, .leave state)
      else
        match shared.beginClose record with
        | some shared => some (shared, .drain state sid record)
        | none => some (shared, .leave state)
  | .drain state sid record =>
      if (shared.records record).admitted = 0 then some (shared, .release state sid record)
      else none
  | .release state sid record => some (shared.reset record, .unmap state sid record)
  | .unmap state sid record => some (shared.unmap state sid record, .leave state)
  | _ => none

def retainBlock (shared : Shared) (choice : Choice) : Task → Option (Shared × Task)
  | .retain sid =>
      if !isValidSessionId sid then some (shared, .done)
      else some (withState shared fun state => .retainEnter state sid)
  | .retainEnter state sid =>
      match shared.enter state with
      | none => some (shared, .done)
      | some shared => some (shared, if choice.ok then .acquire state sid else .leave state)
  | .acquire state sid =>
      match shared.find state sid with
      | none => some (shared, .leave state)
      | some record =>
          if shared.isActive record then
            some (shared.acquire record, .retainCheck state record)
          else some (shared, .leave state)
  | .retainCheck state record =>
      let session := shared.records record
      if session.lifecycle ≠ .active ∨ session.reconciled ∨ !shared.isActive record ∨ !choice.ok then
        some (shared, .leaveRecord state record none)
      else some (shared, .retainCommit state record)
  | .retainCommit state record =>
      if !choice.ok then some (shared, .leaveRecord state record none)
      else
        some
          (shared.modify record fun session =>
            { session with lifecycle := .retained, snapshot := none, overlay := none },
            .leaveRecord state record (shared.records record).overlay)
  | .leaveRecord state record released =>
      some ((shared.leaveAdmission record).disown released, .leave state)
  | _ => none

/-! ## SessionView -/

/-- What the arguments of a call are refused with, before the node is looked at. -/
def Op.refusal : Op → Option Failure
  | .get key | .contains key => if !isValidKey key then some (.invalidKey, "invalid key") else none
  | .list listPrefix sink =>
      if !validateListPrefix listPrefix then some (.invalidKey, "invalid list prefix")
      else if sink.isNone then some (.invalidArgument, "null List sink")
      else none

def Op.fails (op : Op) (failure : Failure) : Answer :=
  match op with
  | .get _ => .value (.error failure)
  | .contains _ => .present (.error failure)
  | .list _ _ => .listed ⟨.error failure, []⟩

def Op.threw : Op → Failure
  | .get _ | .contains _ => (.error, "storage reader threw during Get")
  | .list _ _ => (.error, "storage reader threw during List")

def Op.answer (op : Op) (readers : Readers) : Answer :=
  match op with
  | .get key => .value (viewGet (.ok readers) key)
  | .contains key => .present (viewContains (.ok readers) key)
  | .list listPrefix sink => .listed (viewList (.ok readers) listPrefix (sink.getD fun _ => true))

def disconnected : Failure := (.disconnected, "StorageNode is stopped")
def notFound : Failure := (.notFound, "session or parameter not found")
def stateLost : Failure := (.stateLost, "session parameter state was released")

def openBlock (shared : Shared) : Task → Option (Shared × Task)
  | .open sid =>
      if !isValidSessionId sid then some (shared, .done)
      else some (withState shared fun state => .openEnter state sid)
  | .openEnter state sid =>
      match shared.enter state with
      | none => some (shared, .done)
      | some shared => some (shared, .openSelect state sid)
  | .openSelect state sid =>
      match shared.find state sid with
      | none => some (shared, .leave state)
      | some record =>
          let session := shared.records record
          if !shared.isActive record ∨ session.lifecycle ≠ .active then some (shared, .leave state)
          else
            match session.overlay with
            | none => some (shared, .leave state)
            | some overlay =>
                let view : View := ⟨state, overlay, sid, record⟩
                let shared := shared.acquire record
                some ({ shared with views := shared.views ++ [view] }, .openLeave view)
  | .openLeave view =>
      some ((shared.leaveAdmission view.record).leave view.state, .opened view)
  | _ => none

/-- A state that was destroyed had been deactivated before, so locking its weak pointer and
entering it refuse alike. -/
def viewBlock (shared : Shared) (choice : Choice) : Task → Option (Shared × Task)
  | .operate view op =>
      match op.refusal with
      | some failure => some (shared, .returned view op (op.fails failure) none)
      | none => some (shared, .enterView view op)
  | .enterView view op =>
      match shared.enter view.state with
      | none => some (shared, .returned view op (op.fails disconnected) none)
      | some shared => some (shared, .acquireReaders view op)
  | .acquireReaders view op =>
      match shared.find view.state view.sid with
      | none => some (shared, .leaveView view op (op.fails notFound))
      | some record =>
          let session := shared.records record
          if !shared.isActive record then some (shared, .leaveView view op (op.fails notFound))
          else if session.lifecycle ≠ .active then
            some (shared, .leaveView view op (op.fails stateLost))
          else
            match session.overlay, session.snapshot with
            | some overlay, some snapshot =>
                if !shared.sameOwner view.overlayOwner overlay then
                  some (shared, .leaveView view op (op.fails notFound))
                else
                  let shared := shared.acquire record
                  some
                    ({ shared with
                        useCount :=
                          Function.update shared.useCount overlay (shared.useCount overlay + 1) },
                      .readOverlay view op ⟨record, overlay, snapshot⟩)
            | _, _ => some (shared, .leaveView view op (op.fails notFound))
  | .readOverlay view op held =>
      if !choice.ok then some (shared, .leaveReaders view op held (op.fails op.threw))
      else some (shared, .readSnapshot view op held (shared.overlays held.overlay))
  | .readSnapshot view op held found =>
      if !choice.ok then some (shared, .leaveReaders view op held (op.fails op.threw))
      else
        some (shared, .leaveReaders view op held
          (op.answer ⟨found, shared.snapshots held.snapshot⟩))
  | .leaveReaders view op held answer =>
      let shared := (shared.leaveAdmission held.record).disown (some held.overlay)
      some (shared.leave view.state,
        .returned view op answer (some (held.overlay, held.snapshot)))
  | .leaveView view op answer => some (shared.leave view.state, .returned view op answer none)
  | _ => none

/-! ## Runs -/

inductive Call where
  | start
  | stop
  | create (sid : ByteString)
  | close (sid : ByteString)
  | retain (sid : ByteString)
  | open (sid : ByteString)
  | operate (view : View) (op : Op)

def Call.task : Call → Task
  | .start => .start
  | .stop => .stop
  | .create sid => .create sid
  | .close sid => .close sid
  | .retain sid => .retain sid
  | .open sid => .open sid
  | .operate view op => .operate view op

/-- A call enters, a task makes its next block, a callback copies, drops or writes an overlay. -/
inductive Action where
  | call (task : ℕ) (call : Call)
  | block (task : ℕ) (choice : Choice)
  | own (overlay : ℕ)
  | disown (overlay : ℕ)
  | write (overlay : ℕ) (engine : InMemoryEngine)

def block (shared : Shared) (choice : Choice) (task : Task) : Option (Shared × Task) :=
  startBlock shared choice task <|> stopBlock shared choice task <|>
    createBlock shared choice task <|> closeBlock shared choice task <|>
    retainBlock shared choice task <|> openBlock shared task <|> viewBlock shared choice task

abbrev State := Config Shared Task

def start (snapshots : ℕ → InMemoryEngine) : State where
  shared :=
    { state := none, operation := false, states := fun _ => .create, started := 0,
      records := fun _ => .create [], allocated := 0, overlays := fun _ => Core.SortedMap.empty,
      overlayCount := 0, useCount := fun _ => 0, borrowed := fun _ => 0, snapshots, views := [] }
  tasks := fun _ => .idle

/-- Whether a caller can make the call: it operates on a view that was opened. -/
def Call.possible (shared : Shared) : Call → Bool
  | .operate view _ => view ∈ shared.views
  | _ => true

def step (state : State) : Action → Option State
  | .call task call =>
      match state.tasks task with
      | .idle =>
          if call.possible state.shared then some (state.replace task state.shared call.task)
          else none
      | _ => none
  | .block task choice =>
      (block state.shared choice (state.tasks task)).map fun (shared, next) =>
        state.replace task shared next
  | .own overlay =>
      let shared := state.shared
      if shared.useCount overlay = 0 then none
      else
        some { state with
          shared := { shared with
            useCount := Function.update shared.useCount overlay (shared.useCount overlay + 1)
            borrowed := Function.update shared.borrowed overlay (shared.borrowed overlay + 1) } }
  | .disown overlay =>
      let shared := state.shared.disown (some overlay)
      if shared.borrowed overlay = 0 then none
      else
        some { state with
          shared := { shared with
            borrowed := Function.update shared.borrowed overlay (shared.borrowed overlay - 1) } }
  | .write overlay engine =>
      some { state with
        shared := { state.shared with
          overlays := Function.update state.shared.overlays overlay engine } }

end Sitos.ViewGeneration
