import Sitos.Core.Tasks
import Sitos.Node.DurableLifecycle

/-!
# Concurrent administration of one session id

`CreateSession`, `CloseSession` and `RetainSession` as tasks that run side by
side on one session id.  A task makes one block at a time: what the source does
under one lock, or between two of them.  Anything that a block cannot decide
itself (whether a write or a removal succeeds, what the clock shows) is chosen
freely.

The records `SessionRecord` are numbered in the order they are made, so a
handle stands for one record however often the session id is used again.
-/

namespace Sitos.Admin

open Sitos.Bytes Sitos.Catalog
open Sitos.Durable (Removal)

inductive Phase where
  | creating
  | active
  | closing
  deriving DecidableEq, Repr

/-- `engine` is whether the record owns an open engine on its generation's
directory. -/
structure SessionRecord where
  generation : ByteString
  durableBuffers : Bool
  ephemeralBuffers : Bool
  phase : Phase := .creating
  lifecycle : SessionLifecycleState := .active
  catalogued : Bool := false
  reconciled : Bool := false
  engine : Bool := false
  admitted : ℕ := 0
  deriving DecidableEq, Repr

/-- What the tasks share.  `used` and `written` only note which generations were
generated and which of them got an `active` record. -/
structure Shared where
  sid : ByteString
  instanceId : ByteString
  catalog : Option SessionCatalogRecord
  catalogUnavailable : Bool
  directories : ByteString → Directory
  sessions : Option ℕ
  records : ℕ → SessionRecord
  allocated : ℕ
  used : List ByteString
  written : List ByteString

/-- What follows the removal of a directory.  A closer keeps how many records
had been made when it selected its generation. -/
inductive Continuation where
  | rollBack (handle : ℕ)
  | done (seen : ℕ)
  deriving DecidableEq, Repr

/-- The next block of a task. -/
inductive Task where
  | idle
  -- CreateSession
  | publish (handle : ℕ)
  | takeSnapshot (handle : ℕ)
  | writeActive (handle : ℕ) (createdAt : ByteString)
  | makeDirectory (handle : ℕ) (record : SessionCatalogRecord)
  | openStore (handle : ℕ) (record : SessionCatalogRecord)
  | abandonStore (handle : ℕ) (record : SessionCatalogRecord)
  | activate (handle : ℕ)
  | rollBack (handle : ℕ)
  | withdraw (handle : ℕ)
  -- CloseSession
  | select
  | beginDeletion (session : Option ℕ) (seen : ℕ)
  | beginClose (handle : ℕ)
  | drain (handle : ℕ) (record : Option SessionCatalogRecord) (seen : ℕ)
  | release (handle : ℕ) (record : Option SessionCatalogRecord) (seen : ℕ)
  | unmap (handle : ℕ) (record : Option SessionCatalogRecord) (seen : ℕ)
  -- FinishCatalogDeletion
  | removeGeneration (record : SessionCatalogRecord) (next : Continuation)
  | recordRemoval (record : SessionCatalogRecord) (error : Option Int32) (next : Continuation)
  -- RetainSession
  | acquire
  | retain (handle : ℕ)
  | leave (handle : ℕ)
  -- The latch of a failed catalog write
  | latch (next : Task)
  deriving DecidableEq, Repr

/-- What a block finds outside itself. -/
structure Choice where
  now : ByteString
  succeeds : Bool
  commits : Bool
  removal : Removal

namespace Shared

def modify (shared : Shared) (handle : ℕ) (change : SessionRecord → SessionRecord) : Shared :=
  { shared with
    records := Function.update shared.records handle (change (shared.records handle)) }

def setDirectory (shared : Shared) (generation : ByteString) (directory : Directory) : Shared :=
  { shared with directories := Function.update shared.directories generation directory }

@[simp]
theorem modify_self (shared : Shared) (handle : ℕ) (change : SessionRecord → SessionRecord) :
    (shared.modify handle change).records handle = change (shared.records handle) :=
  Function.update_self ..

theorem modify_of_ne (shared : Shared) {handle other : ℕ}
    (change : SessionRecord → SessionRecord) (hother : other ≠ handle) :
    (shared.modify handle change).records other = shared.records other :=
  Function.update_of_ne hother ..

@[simp]
theorem setDirectory_self (shared : Shared) (generation : ByteString) (directory : Directory) :
    (shared.setDirectory generation directory).directories generation = directory :=
  Function.update_self ..

theorem setDirectory_of_ne (shared : Shared) {generation other : ByteString}
    (directory : Directory) (hother : other ≠ generation) :
    (shared.setDirectory generation directory).directories other = shared.directories other :=
  Function.update_of_ne hother ..

/-- One synchronized catalog write with no latch. -/
def tryPutCatalogRecord (shared : Shared) (record : SessionCatalogRecord) (commits : Bool) :
    Option Shared :=
  if ¬shared.catalogUnavailable ∧ commits then some { shared with catalog := some record }
  else none

def isActive (shared : Shared) (handle : ℕ) : Bool :=
  (shared.records handle).phase == .active

end Shared

def Continuation.task : Continuation → Task
  | .rollBack handle => .rollBack handle
  | .done _ => .idle

/-! ## CreateSession -/

/-- Under `session_mutex`: a mapped session, or a catalogued one that is not
deleted, owns the name. -/
def publish (shared : Shared) (handle : ℕ) : Shared × Task :=
  if shared.sessions.isSome then (shared, .idle)
  else if shared.catalog.any (·.state != .deleted) then (shared, .idle)
  else ({ shared with sessions := some handle }, .takeSnapshot handle)

def takeSnapshot (shared : Shared) (handle : ℕ) (choice : Choice) : Shared × Task :=
  if ¬choice.succeeds then (shared, .rollBack handle)
  else if (shared.records handle).durableBuffers then (shared, .writeActive handle choice.now)
  else (shared, .activate handle)

/-- Under `catalog_mutex`. -/
def writeActive (shared : Shared) (handle : ℕ) (createdAt : ByteString) (choice : Choice) :
    Shared × Task :=
  let session := shared.records handle
  let record := SessionCatalogRecord.create shared.sid session.generation shared.instanceId
    session.ephemeralBuffers createdAt
  match shared.tryPutCatalogRecord record choice.commits with
  | some shared =>
      ({ shared with written := session.generation :: shared.written },
        .makeDirectory handle record)
  | none => (shared, .latch (.rollBack handle))

/-- Under `catalog_gate`, after a fresh look at the latch. -/
def makeDirectory (shared : Shared) (handle : ℕ) (record : SessionCatalogRecord)
    (choice : Choice) : Shared × Task :=
  if shared.catalogUnavailable then (shared, .rollBack handle)
  else if ¬choice.succeeds then (shared, .abandonStore handle record)
  else if shared.directories record.generationUuid = .absent then
    (shared.setDirectory record.generationUuid .bare, .openStore handle record)
  else (shared, .openStore handle record)

def openStore (shared : Shared) (handle : ℕ) (record : SessionCatalogRecord) (choice : Choice) :
    Shared × Task :=
  if choice.succeeds then
    ((shared.setDirectory record.generationUuid .store).modify handle fun session =>
      { session with engine := true, catalogued := true }, .activate handle)
  else (shared, .abandonStore handle record)

/-- Under `catalog_mutex`: a failed open runs the deletion order. -/
def abandonStore (shared : Shared) (handle : ℕ) (record : SessionCatalogRecord)
    (choice : Choice) : Shared × Task :=
  match shared.tryPutCatalogRecord (record.beginDeletion choice.now) choice.commits with
  | some shared =>
      (shared, .removeGeneration (record.beginDeletion choice.now) (.rollBack handle))
  | none => (shared, .latch (.rollBack handle))

/-- Under `session_mutex`. -/
def activate (shared : Shared) (handle : ℕ) : Shared × Task :=
  if shared.sessions = some handle ∧ (shared.records handle).phase = .creating then
    (shared.modify handle fun session => { session with phase := .active }, .idle)
  else (shared, .rollBack handle)

/-- The rollback guard, up to its lock. -/
def rollBack (shared : Shared) (handle : ℕ) : Shared × Task :=
  (shared.modify handle fun session => { session with engine := false }, .withdraw handle)

/-- Under `session_mutex`: only the record itself is unmapped. -/
def withdraw (shared : Shared) (handle : ℕ) : Shared × Task :=
  if shared.sessions = some handle then ({ shared with sessions := none }, .idle)
  else (shared, .idle)

/-! ## CloseSession -/

/-- Under `session_mutex`: a creating or closing record is not selected. -/
def select (shared : Shared) : Shared × Task :=
  match shared.sessions with
  | none => (shared, .beginDeletion none shared.allocated)
  | some handle =>
      if shared.isActive handle then (shared, .beginDeletion (some handle) shared.allocated)
      else (shared, .idle)

/-- What a closer does once its deletion has been recorded. -/
def begun (shared : Shared) (session : Option ℕ) (record : SessionCatalogRecord) (seen : ℕ) :
    Shared × Task :=
  match session with
  | some handle =>
      (shared.modify handle fun session => { session with phase := .closing },
        .drain handle (some record) seen)
  | none => (shared, .removeGeneration record (.done shared.allocated))

/-- Under `catalog_mutex` and `session_mutex`: the selection is looked at again
before `deleting` is written. -/
def beginDeletion (shared : Shared) (session : Option ℕ) (seen : ℕ) (choice : Choice) :
    Shared × Task :=
  if session.any fun handle => !(shared.records handle).catalogued then
    (shared, session.elim .idle .beginClose)
  else if shared.sessions ≠ session ∨ session.any (!shared.isActive ·) then (shared, .idle)
  else
    match shared.catalog with
    | none => (shared, session.elim .idle .beginClose)
    | some catalogued =>
        if catalogued.state = .deleted then (shared, session.elim .idle .beginClose)
        else if session.any (fun handle =>
              (shared.records handle).generation != catalogued.generationUuid) ∨
            (session.isNone ∧ catalogued.state = .active) then (shared, .idle)
        else if catalogued.state = .deleting then begun shared session catalogued seen
        else
          match shared.tryPutCatalogRecord (catalogued.beginDeletion choice.now)
              choice.commits with
          | some shared => begun shared session (catalogued.beginDeletion choice.now) seen
          | none => (shared, .latch .idle)

/-- Under `session_mutex`, without a catalog record. -/
def beginClose (shared : Shared) (handle : ℕ) : Shared × Task :=
  if shared.sessions ≠ some handle ∨ ¬shared.isActive handle then (shared, .idle)
  else
    (shared.modify handle fun session => { session with phase := .closing },
      .drain handle none shared.allocated)

def release (shared : Shared) (handle : ℕ) (record : Option SessionCatalogRecord) (seen : ℕ) :
    Shared × Task :=
  (shared.modify handle fun session => { session with engine := false },
    .unmap handle record seen)

/-- Under `session_mutex`. -/
def unmap (shared : Shared) (handle : ℕ) (record : Option SessionCatalogRecord) (seen : ℕ) :
    Shared × Task :=
  let next := record.elim .idle fun record => .removeGeneration record (.done seen)
  if shared.sessions = some handle then ({ shared with sessions := none }, next)
  else (shared, next)

/-! ## FinishCatalogDeletion -/

/-- Under `catalog_gate`, after a fresh look at the latch. -/
def removeGeneration (shared : Shared) (record : SessionCatalogRecord) (next : Continuation)
    (choice : Choice) : Shared × Task :=
  if shared.catalogUnavailable then (shared, next.task)
  else
    let outcome := choice.removal.apply (shared.directories record.generationUuid)
    (shared.setDirectory record.generationUuid outcome.1, .recordRemoval record outcome.2 next)

/-- Under `catalog_mutex`: only the pending deletion of the same generation is
completed. -/
def recordRemoval (shared : Shared) (record : SessionCatalogRecord) (error : Option Int32)
    (next : Continuation) (choice : Choice) : Shared × Task :=
  if ¬shared.catalog.any fun current =>
      current.generationUuid == record.generationUuid &&
        (current.state == .deleting || current.state == .deleteFailed) then (shared, next.task)
  else
    let result := error.elim (record.finishDeletion choice.now) record.failDeletion
    match shared.tryPutCatalogRecord result choice.commits with
    | some shared => (shared, next.task)
    | none => (shared, .latch next.task)

/-! ## RetainSession -/

/-- Under `session_mutex`. -/
def acquire (shared : Shared) : Shared × Task :=
  match shared.sessions with
  | none => (shared, .idle)
  | some handle =>
      if shared.isActive handle then
        (shared.modify handle fun session => { session with admitted := session.admitted + 1 },
          .retain handle)
      else (shared, .idle)

/-- Under `catalog_mutex` to its end. -/
def retain (shared : Shared) (handle : ℕ) (choice : Choice) : Shared × Task :=
  let session := shared.records handle
  if ¬session.catalogued ∨ session.lifecycle ≠ .active ∨ session.reconciled then
    (shared, .leave handle)
  else
    match shared.catalog with
    | none => (shared, .leave handle)
    | some catalogued =>
        if catalogued.state ≠ .active ∨ ¬shared.isActive handle then (shared, .leave handle)
        else if shared.catalogUnavailable ∨ ¬choice.succeeds then (shared, .leave handle)
        else
          match shared.tryPutCatalogRecord (catalogued.retain choice.now) choice.commits with
          | some shared =>
              (shared.modify handle fun session => { session with lifecycle := .retained },
                .leave handle)
          | none => (shared, .latch (.leave handle))

def leave (shared : Shared) (handle : ℕ) : Shared × Task :=
  (shared.modify handle fun session => { session with admitted := session.admitted - 1 }, .idle)

/-! ## Steps -/

/-- The next block of a task; `none` while it waits. -/
def block (shared : Shared) (choice : Choice) : Task → Option (Shared × Task)
  | .idle => none
  | .publish handle => some (publish shared handle)
  | .takeSnapshot handle => some (takeSnapshot shared handle choice)
  | .writeActive handle createdAt => some (writeActive shared handle createdAt choice)
  | .makeDirectory handle record => some (makeDirectory shared handle record choice)
  | .openStore handle record => some (openStore shared handle record choice)
  | .abandonStore handle record => some (abandonStore shared handle record choice)
  | .activate handle => some (activate shared handle)
  | .rollBack handle => some (rollBack shared handle)
  | .withdraw handle => some (withdraw shared handle)
  | .select => some (select shared)
  | .beginDeletion session seen => some (beginDeletion shared session seen choice)
  | .beginClose handle => some (beginClose shared handle)
  | .drain handle record seen =>
      if (shared.records handle).admitted = 0 then some (shared, .release handle record seen)
      else none
  | .release handle record seen => some (release shared handle record seen)
  | .unmap handle record seen => some (unmap shared handle record seen)
  | .removeGeneration record next => some (removeGeneration shared record next choice)
  | .recordRemoval record error next => some (recordRemoval shared record error next choice)
  | .acquire => some (acquire shared)
  | .retain handle => some (retain shared handle choice)
  | .leave handle => some (leave shared handle)
  | .latch next => some ({ shared with catalogUnavailable := true }, next)

/-- A call enters, a task makes its next block, or another session id's failed
write latches the catalog. -/
inductive Action where
  | enterCreate (task : ℕ) (durableBuffers ephemeralBuffers : Bool) (generation : ByteString)
  | enterClose (task : ℕ)
  | enterRetain (task : ℕ)
  | advance (task : ℕ) (choice : Choice)
  | latchElsewhere

abbrev State := Tasks.Config Shared Task

/-- Entering a call: the first look at the latch, and for `CreateSession` the new
record with a generation that was never used. -/
def step (state : State) : Action → Option State
  | .enterCreate task durableBuffers ephemeralBuffers generation =>
      if state.tasks task ≠ .idle ∨ generation ∈ state.shared.used then none
      else if state.shared.catalogUnavailable then some state
      else
        let handle := state.shared.allocated
        some <| state.replace task
          { state.shared with
            records := Function.update state.shared.records handle
              { generation, durableBuffers, ephemeralBuffers }
            allocated := handle + 1
            used := generation :: state.shared.used }
          (.publish handle)
  | .enterClose task =>
      if state.tasks task ≠ .idle then none
      else if state.shared.catalogUnavailable then some state
      else some (state.replace task state.shared .select)
  | .enterRetain task =>
      if state.tasks task ≠ .idle then none
      else if state.shared.catalogUnavailable then some state
      else some (state.replace task state.shared .acquire)
  | .advance task choice =>
      (block state.shared choice (state.tasks task)).map fun result =>
        state.replace task result.1 result.2
  | .latchElsewhere =>
      some { state with shared := { state.shared with catalogUnavailable := true } }

end Sitos.Admin
