import Sitos.Catalog.Record
import Sitos.Core.Machine
import Sitos.Core.SortedMap
import Sitos.Core.Tasks

/-!
# Liveliness tokens of sessions

Calls of `CreateSession`, `CloseSession`, `RetainSession` and `Stop` side by side on one started
node.  A block is what the source does under one lock, or between two of them; what a block cannot
decide itself (the latch of the catalog, a write, an engine or a transport that fails) is chosen
freely.

Session records are numbered in the order they are made, and a generation bears the number of its
record.  The mutexes that are held over several blocks are flags: `announcing` is the
`liveliness_mutex` of a record while `AnnounceSession` holds it, `catalogLock` the `catalog_mutex`
while `RetainSession` holds it, `operation` the mutex of `Stop`.
-/

namespace Sitos.Liveliness

open Sitos.Bytes
open Sitos.Catalog
open Sitos.Core
open Sitos.Key
open Sitos.Tasks

inductive Phase where
  | creating
  | active
  | closing
  deriving DecidableEq, Repr

/-- `token` is whether the record holds its liveliness token. -/
structure SessionRecord where
  sid : ByteString
  durableBuffers : Bool
  phase : Phase := .creating
  lifecycle : SessionLifecycleState := .active
  catalogued : Bool := false
  reconciled : Bool := false
  admitted : ℕ := 0
  announcing : Bool := false
  token : Bool := false

/-- `published` is whether the node has its state, `live` which tokens the transport keeps. -/
structure Shared where
  catalogMode : Bool
  published : Bool
  operation : Bool
  accepting : Bool
  inFlight : ℕ
  sessions : SortedMap ByteString ℕ
  records : ℕ → SessionRecord
  allocated : ℕ
  catalog : SortedMap ByteString (ℕ × SessionLifecycleState)
  catalogLock : Bool
  live : ℕ → Bool

/-- What follows the removal of a generation: the rollback of its record, or the return of a closer
that may have ended a record. -/
inductive Continuation where
  | rollBack (record : ℕ)
  | leave (ended : Option ℕ)

/-- The next block of a call.  A call of `CloseSession` or `RetainSession` keeps the record whose
activity it has ended. -/
inductive Task where
  | idle
  -- CreateSession
  | create (sid : ByteString) (durableBuffers : Bool)
  | createEnter (sid : ByteString) (durableBuffers : Bool)
  | publish (record : ℕ)
  | takeSnapshot (record : ℕ)
  | createFactoryStore (record : ℕ)
  | writeActive (record : ℕ)
  | openStore (record : ℕ)
  | abandonStore (record : ℕ)
  | activate (record : ℕ)
  | rollBack (record : ℕ)
  -- AnnounceSession
  | announce (record : ℕ)
  | check (record : ℕ)
  | declare (record : ℕ)
  | declaring (record : ℕ)
  | store (record : ℕ)
  -- CloseSession
  | close (sid : ByteString)
  | closeEnter (sid : ByteString)
  | select (sid : ByteString)
  | beginDeletion (sid : ByteString) (record : Option ℕ)
  | beginClose (record : ℕ)
  | takeToken (record : ℕ) (deletion : Bool)
  | dropToken (record : ℕ) (deletion withdrawn : Bool)
  | drain (record : ℕ) (deletion : Bool)
  | unmap (record : ℕ) (deletion : Bool)
  -- FinishCatalogDeletion
  | removeGeneration (sid : ByteString) (generation : ℕ) (next : Continuation)
  | recordRemoval (sid : ByteString) (generation : ℕ) (removed : Bool) (next : Continuation)
  -- RetainSession
  | retain (sid : ByteString)
  | retainEnter (sid : ByteString)
  | acquire (sid : ByteString)
  | retainCheck (record : ℕ)
  | retainCommit (record generation : ℕ)
  | retainTake (record : ℕ)
  | retainDrop (record : ℕ) (released : Bool)
  | leaveRecord (record : ℕ) (ended : Option ℕ)
  | leave (ended : Option ℕ)
  | returned (ended : Option ℕ)
  -- Stop
  | stop
  | quiesce
  | drainState
  | extract
  | takeExtracted (record : ℕ)
  | dropExtracted (record : ℕ) (withdrawn : Bool)
  | closeExtracted (record : ℕ)
  | drainExtracted (record : ℕ)
  | stopped

def Continuation.task : Continuation → Task
  | .rollBack record => .rollBack record
  | .leave ended => .leave ended

/-- What a block finds outside itself: `latched` is whether the catalog is unavailable, `commits`
whether a catalog write succeeds, `ok` whether anything else that the block calls does, and `sid`
the session that `Stop` extracts next. -/
structure Choice where
  ok : Bool := true
  commits : Bool := true
  latched : Bool := false
  liveliness : Bool := true
  sid : ByteString := []

namespace Shared

def modify (shared : Shared) (record : ℕ) (change : SessionRecord → SessionRecord) : Shared :=
  { shared with
    records := Function.update shared.records record (change (shared.records record)) }

def sidOf (shared : Shared) (record : ℕ) : ByteString := (shared.records record).sid

/-- Whether the session of the record maps to it. -/
def maps (shared : Shared) (record : ℕ) : Bool :=
  shared.sessions.find (shared.sidOf record) = some record

def isActive (shared : Shared) (record : ℕ) : Bool := (shared.records record).phase = .active

def enter (shared : Shared) : Option Shared :=
  if shared.accepting then some { shared with inFlight := shared.inFlight + 1 } else none

def unmap (shared : Shared) (record : ℕ) : Shared :=
  if shared.maps record then
    { shared with sessions := shared.sessions.erase (shared.sidOf record) }
  else shared

def putRecord (shared : Shared) (sid : ByteString) (generation : ℕ)
    (state : SessionLifecycleState) : Shared :=
  { shared with catalog := shared.catalog.insertOrAssign sid (generation, state) }

def setPhase (shared : Shared) (record : ℕ) (phase : Phase) : Shared :=
  shared.modify record fun session => { session with phase }

def setAnnouncing (shared : Shared) (record : ℕ) (announcing : Bool) : Shared :=
  shared.modify record fun session => { session with announcing }

def setToken (shared : Shared) (record : ℕ) (token : Bool) : Shared :=
  shared.modify record fun session => { session with token }

/-- A token is destroyed, which withdraws it from the transport. -/
def withdraw (shared : Shared) (record : ℕ) (token : Bool) : Shared :=
  if token then { shared with live := Function.update shared.live record false } else shared

end Shared

/-! ## CreateSession -/

def createBlock (shared : Shared) (choice : Choice) : Task → Option (Shared × Task)
  | .create sid durableBuffers =>
      if !isValidSessionId sid ∨ !shared.published then some (shared, .returned none)
      else some (shared, .createEnter sid durableBuffers)
  | .createEnter sid durableBuffers =>
      match shared.enter with
      | none => some (shared, .returned none)
      | some shared =>
          if shared.catalogMode ∧ choice.latched then some (shared, .leave none)
          else
            let record := shared.allocated
            some
              ({ shared with
                  records := Function.update shared.records record { sid, durableBuffers }
                  allocated := record + 1 },
                .publish record)
  | .publish record =>
      let sid := shared.sidOf record
      if (shared.sessions.find sid).isSome then some (shared, .leave none)
      -- a catalogued session that is not deleted still owns its name
      else if (shared.catalog.find sid).any (·.2 ≠ .deleted) then some (shared, .leave none)
      else
        some ({ shared with sessions := shared.sessions.insertOrAssign sid record },
          .takeSnapshot record)
  | .takeSnapshot record =>
      if !choice.ok then some (shared, .rollBack record)
      else if !(shared.records record).durableBuffers then some (shared, .activate record)
      else
        some (shared,
          if shared.catalogMode then .writeActive record else .createFactoryStore record)
  | .createFactoryStore record =>
      some (shared, if choice.ok then .activate record else .rollBack record)
  | .writeActive record =>
      if shared.catalogLock then none
      else if !choice.commits then some (shared, .rollBack record)
      else some (shared.putRecord (shared.sidOf record) record .active, .openStore record)
  | .openStore record =>
      if choice.latched then some (shared, .rollBack record)
      else if !choice.ok then some (shared, .abandonStore record)
      else
        some (shared.modify record fun session => { session with catalogued := true },
          .activate record)
  | .abandonStore record =>
      if shared.catalogLock then none
      else if !choice.commits then some (shared, .rollBack record)
      else
        some (shared.putRecord (shared.sidOf record) record .deleting,
          .removeGeneration (shared.sidOf record) record (.rollBack record))
  | .activate record =>
      if shared.maps record ∧ (shared.records record).phase = .creating then
        some (shared.setPhase record .active,
          if choice.liveliness then .announce record else .leave none)
      else some (shared, .rollBack record)
  | .rollBack record => some (shared.unmap record, .leave none)
  | _ => none

def announceBlock (shared : Shared) (choice : Choice) : Task → Option (Shared × Task)
  | .announce record =>
      if (shared.records record).announcing then none
      else some (shared.setAnnouncing record true, .check record)
  | .check record =>
      if !shared.maps record ∨ !shared.isActive record ∨
          (shared.records record).lifecycle ≠ .active then
        some (shared.setAnnouncing record false, .leave none)
      else some (shared, .declare record)
  | .declare record => some (shared, .declaring record)
  | .declaring record =>
      if !choice.ok then some (shared.setAnnouncing record false, .leave none)
      else
        some ({ shared with live := Function.update shared.live record true }, .store record)
  | .store record =>
      some ((shared.setToken record true).setAnnouncing record false, .leave none)
  | _ => none

/-! ## CloseSession -/

/-- A closer takes the token at once when nobody announces the session. -/
def takeToken (shared : Shared) (record : ℕ) : Option (Shared × Bool) :=
  if (shared.records record).announcing then none
  else some (shared.setToken record false, (shared.records record).token)

/-- A live record must own the catalogued generation; without one, only a generation that no
process serves is deleted. -/
def ownedElsewhere (record : Option ℕ) (generation : ℕ) (state : SessionLifecycleState) : Bool :=
  match record with
  | some record => generation ≠ record
  | none => state = .active

/-- The deletion is recorded; with a live record its activity ends at the same time. -/
def begun (shared : Shared) (sid : ByteString) (record : Option ℕ) (generation : ℕ) :
    Shared × Task :=
  match record with
  | some record => (shared.setPhase record .closing, .takeToken record true)
  | none => (shared, .removeGeneration sid generation (.leave none))

def closeBlock (shared : Shared) (choice : Choice) : Task → Option (Shared × Task)
  | .close sid => some (shared, if shared.published then .closeEnter sid else .returned none)
  | .closeEnter sid =>
      match shared.enter with
      | none => some (shared, .returned none)
      | some shared =>
          some (shared, if shared.catalogMode ∧ choice.latched then .leave none else .select sid)
  | .select sid =>
      match shared.sessions.find sid with
      | none => some (shared, .beginDeletion sid none)
      | some record =>
          some (shared,
            if shared.isActive record then .beginDeletion sid (some record) else .leave none)
  | .beginDeletion sid record =>
      let uncatalogued := some (shared, record.elim (.leave none) .beginClose)
      if !shared.catalogMode ∨ record.any fun record => !(shared.records record).catalogued then
        uncatalogued
      else if shared.catalogLock then none
      else if shared.sessions.find sid ≠ record ∨ record.any (!shared.isActive ·) then
        some (shared, .leave none)
      else
        match shared.catalog.find sid with
        | none => uncatalogued
        | some (generation, state) =>
            if state = .deleted then uncatalogued
            else if ownedElsewhere record generation state then some (shared, .leave none)
            else if state = .deleting then some (begun shared sid record generation)
            else if !choice.commits then some (shared, .leave none)
            else some (begun (shared.putRecord sid generation .deleting) sid record generation)
  | .beginClose record =>
      if !shared.maps record ∨ !shared.isActive record then some (shared, .leave none)
      else some (shared.setPhase record .closing, .takeToken record false)
  | .takeToken record deletion =>
      (takeToken shared record).map fun (shared, withdrawn) =>
        (shared, .dropToken record deletion withdrawn)
  | .dropToken record deletion withdrawn =>
      some (shared.withdraw record withdrawn, .drain record deletion)
  | .drain record deletion =>
      if (shared.records record).admitted = 0 then some (shared, .unmap record deletion) else none
  | .unmap record deletion =>
      some (shared.unmap record,
        if deletion then .removeGeneration (shared.sidOf record) record (.leave (some record))
        else .leave (some record))
  | .removeGeneration sid generation next =>
      some (shared,
        if choice.latched then next.task else .recordRemoval sid generation choice.ok next)
  | .recordRemoval sid generation removed next =>
      if shared.catalogLock then none
      -- only the pending deletion of the same generation is completed
      else if shared.catalog.find sid ≠ some (generation, .deleting) ∧
          shared.catalog.find sid ≠ some (generation, .deleteFailed) then some (shared, next.task)
      else if !choice.commits then some (shared, next.task)
      else
        some (shared.putRecord sid generation (if removed then .deleted else .deleteFailed),
          next.task)
  | _ => none

/-! ## RetainSession -/

def retainBlock (shared : Shared) (choice : Choice) : Task → Option (Shared × Task)
  | .retain sid =>
      if !isValidSessionId sid ∨ !shared.published then some (shared, .returned none)
      else some (shared, .retainEnter sid)
  | .retainEnter sid =>
      match shared.enter with
      | none => some (shared, .returned none)
      | some shared =>
          some (shared, if !shared.catalogMode ∨ choice.latched then .leave none else .acquire sid)
  | .acquire sid =>
      match shared.sessions.find sid with
      | none => some (shared, .leave none)
      | some record =>
          if shared.isActive record then
            some
              (shared.modify record fun session =>
                { session with admitted := session.admitted + 1 },
                .retainCheck record)
          else some (shared, .leave none)
  | .retainCheck record =>
      let session := shared.records record
      if !session.catalogued then some (shared, .leaveRecord record none)
      else if shared.catalogLock then none
      else if session.lifecycle ≠ .active ∨ session.reconciled then
        some (shared, .leaveRecord record none)
      else
        match shared.catalog.find session.sid with
        | none => some (shared, .leaveRecord record none)
        | some (generation, state) =>
            if state ≠ .active ∨ !shared.isActive record then
              some (shared, .leaveRecord record none)
            else some ({ shared with catalogLock := true }, .retainCommit record generation)
  | .retainCommit record generation =>
      if choice.latched ∨ !choice.ok ∨ !choice.commits then
        some ({ shared with catalogLock := false }, .leaveRecord record none)
      else
        some
          ((shared.putRecord (shared.sidOf record) generation .retained).modify record
            fun session => { session with lifecycle := .retained },
            .retainTake record)
  | .retainTake record =>
      (takeToken shared record).map fun (shared, released) =>
        ({ shared with catalogLock := false }, .retainDrop record released)
  | .retainDrop record released =>
      some (shared.withdraw record released, .leaveRecord record (some record))
  | .leaveRecord record ended =>
      some
        (shared.modify record fun session => { session with admitted := session.admitted - 1 },
          .leave ended)
  | .leave ended => some ({ shared with inFlight := shared.inFlight - 1 }, .returned ended)
  | _ => none

/-! ## Stop -/

def stopBlock (shared : Shared) (choice : Choice) : Task → Option (Shared × Task)
  | .stop =>
      if shared.operation then none
      else if !shared.published then some (shared, .stopped)
      else some ({ shared with published := false, operation := true }, .quiesce)
  | .quiesce => some ({ shared with accepting := false }, .drainState)
  | .drainState => if shared.inFlight = 0 then some (shared, .extract) else none
  | .extract =>
      if shared.sessions.entries = [] then some ({ shared with operation := false }, .stopped)
      else
        (shared.sessions.find choice.sid).map fun record =>
          ({ shared with sessions := shared.sessions.erase choice.sid }, .takeExtracted record)
  | .takeExtracted record =>
      (takeToken shared record).map fun (shared, withdrawn) =>
        (shared, .dropExtracted record withdrawn)
  | .dropExtracted record withdrawn =>
      some (shared.withdraw record withdrawn, .closeExtracted record)
  | .closeExtracted record =>
      if shared.isActive record then some (shared.setPhase record .closing, .drainExtracted record)
      else some (shared, .extract)
  | .drainExtracted record =>
      if (shared.records record).admitted = 0 then some (shared, .extract) else none
  | _ => none

/-! ## Start -/

/-- `InstallReconciledSession`: a reopened store is served under its catalogued lifecycle. -/
def installReconciledSession (shared : Shared) (sid : ByteString)
    (lifecycle : SessionLifecycleState) (record : ℕ) : Shared :=
  { shared with
    records := Function.update shared.records record
      { sid, durableBuffers := true, phase := .active, lifecycle, catalogued := true,
        reconciled := true }
    sessions := shared.sessions.insertOrAssign sid record }

/-- One record of `ReconcileCatalog`.  Nothing comes of it when its store cannot be opened or the
catalog cannot be written. -/
def reconcile (shared : Shared) (entry : ByteString × SessionLifecycleState) (choice : Choice) :
    Shared :=
  let (sid, state) := entry
  let generation := shared.allocated
  let shared := { shared with allocated := generation + 1 }.putRecord sid generation state
  match state with
  | .active =>
      if !choice.ok ∨ !choice.commits then shared
      else
        installReconciledSession (shared.putRecord sid generation .orphaned) sid .orphaned
          generation
  | .retained | .orphaned =>
      if !choice.ok then shared else installReconciledSession shared sid state generation
  | .deleting =>
      if choice.latched ∨ !choice.commits then shared
      else shared.putRecord sid generation (if choice.ok then .deleted else .deleteFailed)
  | .deleteFailed | .deleted => shared

/-- The node once `Start` has returned on a catalog with these records. -/
def started (catalogMode : Bool) (catalog : SortedMap ByteString SessionLifecycleState)
    (choices : ℕ → Choice) : Shared :=
  catalog.entries.zipIdx.foldl (fun shared entry => reconcile shared entry.1 (choices entry.2))
    { catalogMode, published := true, operation := false, accepting := true, inFlight := 0,
      sessions := SortedMap.empty, records := fun _ => { sid := [], durableBuffers := false },
      allocated := 0, catalog := SortedMap.empty, catalogLock := false, live := fun _ => false }

/-! ## Runs -/

inductive Call where
  | create (sid : ByteString) (durableBuffers : Bool)
  | close (sid : ByteString)
  | retain (sid : ByteString)
  | stop

def Call.task : Call → Task
  | .create sid durableBuffers => .create sid durableBuffers
  | .close sid => .close sid
  | .retain sid => .retain sid
  | .stop => .stop

/-- A call enters, or a task makes its next block. -/
inductive Action where
  | call (task : ℕ) (call : Call)
  | block (task : ℕ) (choice : Choice)

abbrev State := Config Shared Task

def block (shared : Shared) (choice : Choice) (task : Task) : Option (Shared × Task) :=
  createBlock shared choice task <|> announceBlock shared choice task <|>
    closeBlock shared choice task <|> retainBlock shared choice task <|>
    stopBlock shared choice task

def start (catalogMode : Bool) (catalog : SortedMap ByteString SessionLifecycleState)
    (choices : ℕ → Choice) : State where
  shared := started catalogMode catalog choices
  tasks := fun _ => .idle

def step (state : State) : Action → Option State
  | .call task call =>
      match state.tasks task with
      | .idle => some (state.replace task state.shared call.task)
      | _ => none
  | .block task choice =>
      (block state.shared choice (state.tasks task)).map fun (shared, next) =>
        state.replace task shared next

end Sitos.Liveliness
