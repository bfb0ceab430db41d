import Sitos.Catalog.Ledger
import Sitos.Core.Crash

/-!
# Durable sessions

The session administration of a node with a durable root: the catalog database
and the generation directories on disk, the process that works on them, and
the operations that create, retain, close and reconcile sessions.  Each
persistent step (a synchronized catalog write, a directory creation, the
opening of a store, a removal) is a point before which the process may crash.

Operations run one after another here, so every mapped session is active when
an operation starts and the admission it waits for is its own.
-/

namespace Sitos.Durable

open Sitos.Bytes Sitos.FlatJson Sitos.Token Sitos.Catalog Sitos.Core Sitos.Crash

/-- The catalog database: its three kinds of entries. -/
structure CatalogStore where
  schemaEntry : Option ByteString
  instanceEntry : Option ByteString
  sessions : OrderedMap ByteString ByteString

/-- `catalog/` and `sessions/<sid>/<generation>` below the durable root. -/
structure Disk where
  catalog : Option CatalogStore
  hasSessionEntries : Bool
  generations : ByteString → ByteString → Directory

/-- What session administration reads of a mapped session. -/
structure SessionRecord where
  generationUuid : ByteString
  lifecycle : SessionLifecycleState
  catalogued : Bool
  reconciled : Bool
  deriving DecidableEq, Repr

structure Process where
  instanceId : ByteString
  catalog : Option (OrderedMap ByteString SessionCatalogRecord)
  catalogUnavailable : Bool
  sessions : ByteString → Option SessionRecord

/-- The disk, the process if one runs, how often the clock was read and a
removal was tried, and every record ever written, oldest first. -/
structure World where
  disk : Disk
  process : Option Process
  clockReads : ℕ
  removals : ℕ
  written : List SessionCatalogRecord

/-- How removing a directory ends. -/
inductive Removal where
  | removed
  | failed (code : Int32) (left : Directory)
  deriving DecidableEq, Repr

/-- How opening the store of a new generation ends. -/
inductive Opening where
  | opened
  | failed (left : Directory)
  deriving DecidableEq, Repr

/-- The clock and the file system's answers to removals. -/
structure Environment where
  clock : ℕ → Timestamp
  removal : ℕ → Removal

def kSchemaValue : ByteString := ascii "\x7b\"schema_version\":1\x7d"

def instanceValue (instanceId startedAt : ByteString) : ByteString :=
  List.flatten
    [ascii "\x7b\"instance_id\":\"", instanceId, ascii "\",\"started_at\":\"", startedAt,
      ascii "\"\x7d"]

def validInstanceValue (text : ByteString) : Bool :=
  match parseFlatObject text with
  | some [⟨idName, .text id⟩, ⟨startedName, .text started⟩] =>
      idName == ascii "instance_id" && startedName == ascii "started_at" &&
        isCanonicalUuid id && isTimestamp started
  | _ => false

/-- Every entry is checked, and one bad entry refuses the whole catalog. -/
def loadEntries (store : CatalogStore) : Option (OrderedMap ByteString SessionCatalogRecord) :=
  if store.schemaEntry ≠ some kSchemaValue then none
  else if !store.instanceEntry.any validInstanceValue then none
  else store.sessions.traverse decodeSessionRecord

/-! ## The world under the operations -/

namespace World

/-- The record a running process holds for `sid`. -/
def find (world : World) (sid : ByteString) : Option SessionCatalogRecord :=
  world.process.bind fun process => process.catalog.bind fun catalog => catalog.find sid

def catalogUnavailable (world : World) : Bool :=
  world.process.any (·.catalogUnavailable)

def hasCatalog (world : World) : Bool :=
  world.process.any (·.catalog.isSome)

def session (world : World) (sid : ByteString) : Option SessionRecord :=
  world.process.bind fun process => process.sessions sid

/-- A synchronized `Put`: the database entry, and the map of the running process. -/
def put (world : World) (record : SessionCatalogRecord) : World :=
  { world with
    disk := { world.disk with
      catalog := world.disk.catalog.map fun store =>
        { store with
          sessions := store.sessions.insertOrAssign record.sid (encodeSessionRecord record) } }
    process := world.process.map fun process =>
      { process with
        catalog := process.catalog.map fun catalog => catalog.insertOrAssign record.sid record }
    written := world.written ++ [record] }

def setDirectory (world : World) (sid generation : ByteString) (directory : Directory) : World :=
  { world with
    disk := { world.disk with
      generations := Function.update world.disk.generations sid
        (Function.update (world.disk.generations sid) generation directory) } }

/-- A directory made with the directories above it. -/
def makeDirectory (world : World) (sid generation : ByteString) (directory : Directory) : World :=
  let made := world.setDirectory sid generation directory
  { made with disk := { made.disk with hasSessionEntries := true } }

def setSession (world : World) (sid : ByteString) (session : Option SessionRecord) : World :=
  { world with
    process := world.process.map fun process =>
      { process with sessions := Function.update process.sessions sid session } }

def latch (world : World) : World :=
  { world with
    process := world.process.map fun process => { process with catalogUnavailable := true } }

end World

/-! ## Operations of the durable lifecycle -/

def nowIso8601 (env : Environment) : Op World ByteString := do
  let world ← Op.read
  Op.update fun world => { world with clockReads := world.clockReads + 1 }
  pure (env.clock world.clockReads).val

def tryPutCatalogRecord (record : SessionCatalogRecord) : Op World Bool := do
  let world ← Op.read
  if world.hasCatalog ∧ ¬world.catalogUnavailable then do
    Op.persist (·.put record)
    pure true
  else pure false

def latchCatalogUnavailable : Op World Unit := Op.update World.latch

def writeCatalogRecord (record : SessionCatalogRecord) : Op World Bool := do
  let committed ← tryPutCatalogRecord record
  if committed then pure true
  else do
    latchCatalogUnavailable
    pure false

/-- What is left of a directory, and the error if there is one.  Removing an
absent directory leaves it absent. -/
def Removal.apply : Removal → Directory → Directory × Option Int32
  | .removed, _ => (.absent, none)
  | .failed code _, .absent => (.absent, some code)
  | .failed code left, _ => (left, some code)

@[simp]
theorem Removal.apply_absent (removal : Removal) : (removal.apply .absent).1 = .absent := by
  cases removal <;> rfl

/-- A removal without an error has removed the directory. -/
theorem Removal.apply_eq_absent {removal : Removal} {directory : Directory}
    (herror : (removal.apply directory).2 = none) : (removal.apply directory).1 = .absent := by
  cases removal with
  | removed => rfl
  | failed code left => cases directory <;> exact nomatch herror

def removeGeneration (env : Environment) (sid generation : ByteString) :
    Op World (Option Int32) := do
  let world ← Op.read
  let outcome := (env.removal world.removals).apply (world.disk.generations sid generation)
  Op.persist fun world =>
    { world.setDirectory sid generation outcome.1 with removals := world.removals + 1 }
  pure outcome.2

/-- Whether the catalog still holds the pending deletion of this generation. -/
def isPending (world : World) (record : SessionCatalogRecord) : Bool :=
  (world.find record.sid).any fun current =>
    current.generationUuid == record.generationUuid &&
      (current.state == .deleting || current.state == .deleteFailed)

def finishCatalogDeletion (env : Environment) (record : SessionCatalogRecord) :
    Op World Bool := do
  let world ← Op.read
  if world.catalogUnavailable then pure false
  else do
    let error ← removeGeneration env record.sid record.generationUuid
    let world ← Op.read
    if ¬isPending world record then pure true
    else
      match error with
      | some code => do
          let _ ← writeCatalogRecord (record.failDeletion code)
          pure false
      | none => do
          let deletedAt ← nowIso8601 env
          writeCatalogRecord (record.finishDeletion deletedAt)

/-- `create_directories` and `RocksDBEngine::Open`, which creates a database
where there is none. -/
def openStore (sid generation : ByteString) : Op World Unit := do
  Op.persist fun world =>
    if world.disk.generations sid generation = .absent then
      world.makeDirectory sid generation .bare
    else world
  Op.persist fun world => world.setDirectory sid generation .store

/-- An established store must already be there. -/
def openReconciledStore (record : SessionCatalogRecord) (create : Bool) : Op World Bool := do
  let world ← Op.read
  if ¬create ∧ world.disk.generations record.sid record.generationUuid ≠ .store then do
    latchCatalogUnavailable
    pure false
  else do
    openStore record.sid record.generationUuid
    pure true

def installReconciledSession (record : SessionCatalogRecord) : Op World Unit :=
  Op.update fun world => world.setSession record.sid <| some
    { generationUuid := record.generationUuid, lifecycle := record.state, catalogued := true,
      reconciled := true }

/-- One turn of the reconciliation loop; false ends the loop. -/
def reconcileRecord (env : Environment) (record : SessionCatalogRecord) : Op World Bool := do
  let world ← Op.read
  if world.catalogUnavailable then pure false
  else
    match record.state with
    | .active => do
        let opened ← openReconciledStore record true
        if ¬opened then pure false
        else do
          let orphanedAt ← nowIso8601 env
          let committed ← writeCatalogRecord (record.orphan orphanedAt)
          if ¬committed then pure false
          else do
            installReconciledSession (record.orphan orphanedAt)
            pure true
    | .retained | .orphaned => do
        let opened ← openReconciledStore record false
        if ¬opened then pure false
        else do
          installReconciledSession record
          pure true
    | .deleting => do
        let _ ← finishCatalogDeletion env record
        pure true
    | .deleteFailed | .deleted => pure true

def reconcileCatalog (env : Environment) : List SessionCatalogRecord → Op World Unit
  | [] => pure ()
  | record :: records => do
      let more ← reconcileRecord env record
      if more then reconcileCatalog env records else pure ()

/-- The catalog of an empty root is created; an existing one is validated and
never repaired. -/
def openCatalog (instanceId startedAt : ByteString) :
    Op World (Option (OrderedMap ByteString SessionCatalogRecord)) := do
  let world ← Op.read
  match world.disk.catalog with
  | none =>
      if world.disk.hasSessionEntries then pure none
      else do
        Op.persist fun world =>
          { world with disk := { world.disk with catalog := some ⟨none, none, .empty⟩ } }
        Op.persist fun world =>
          { world with disk := { world.disk with
              catalog := world.disk.catalog.map fun store =>
                { store with
                  schemaEntry := some kSchemaValue
                  instanceEntry := some (instanceValue instanceId startedAt) } } }
        pure (some .empty)
  | some store =>
      match loadEntries store with
      | none => pure none
      | some records => do
          Op.persist fun world =>
            { world with disk := { world.disk with
                catalog := world.disk.catalog.map fun store =>
                  { store with
                    instanceEntry := some (instanceValue instanceId startedAt) } } }
          pure (some records)

/-! ## Administration -/

def start (env : Environment) (random : AckToken) : Op World Bool := do
  let world ← Op.read
  if world.process.isSome then pure false
  else do
    let instanceId := formatAckToken (generateAckToken random)
    let startedAt ← nowIso8601 env
    let opened ← openCatalog instanceId startedAt
    match opened with
    | some catalog => do
        Op.update fun world =>
          { world with
            process := some
              { instanceId, catalog := some catalog, catalogUnavailable := false,
                sessions := fun _ => none } }
        reconcileCatalog env (catalog.entries.map Prod.snd)
        pure true
    | none => do
        Op.update fun world =>
          { world with
            process := some
              { instanceId, catalog := none, catalogUnavailable := true,
                sessions := fun _ => none } }
        pure true

def stop : Op World Bool := do
  Op.update fun world => { world with process := none }
  pure true

/-- The `active` record precedes the store; a store that cannot be opened runs
the deletion order on the new generation. -/
def createCatalogStore (env : Environment) (record : SessionCatalogRecord) (opening : Opening) :
    Op World Bool := do
  let committed ← writeCatalogRecord record
  if ¬committed then pure false
  else do
    let world ← Op.read
    if world.catalogUnavailable then pure false
    else
      match opening with
      | .opened => do
          openStore record.sid record.generationUuid
          pure true
      | .failed left => do
          Op.persist fun world => world.makeDirectory record.sid record.generationUuid left
          let deletingAt ← nowIso8601 env
          let committed ← writeCatalogRecord (record.beginDeletion deletingAt)
          if ¬committed then pure false
          else do
            let _ ← finishCatalogDeletion env (record.beginDeletion deletingAt)
            pure false

/-- A durable session with a new generation. -/
def createSession (env : Environment) (sid : ByteString) (ephemeral : Bool) (random : AckToken)
    (snapshotTaken : Bool) (opening : Opening) : Op World Bool := do
  let world ← Op.read
  match world.process with
  | none => pure false
  | some process =>
      if ¬Key.isValidSessionId sid ∨ process.catalogUnavailable then pure false
      else if (process.sessions sid).isSome then pure false
      else if (world.find sid).any (·.state != .deleted) then pure false
      else if ¬snapshotTaken then pure false
      else do
        let createdAt ← nowIso8601 env
        let generation := formatAckToken (generateAckToken random)
        let created ← createCatalogStore env
          (.create sid generation process.instanceId ephemeral createdAt) opening
        if ¬created then pure false
        else do
          Op.update fun world => world.setSession sid <| some
            { generationUuid := generation, lifecycle := .active, catalogued := true,
              reconciled := false }
          pure true

def retainSession (env : Environment) (sid : ByteString) : Op World Bool := do
  let world ← Op.read
  if ¬Key.isValidSessionId sid ∨ world.process.isNone ∨ world.catalogUnavailable then pure false
  else
    match world.session sid with
    | none => pure false
    | some session =>
        if ¬session.catalogued then pure false
        else if session.lifecycle = .retained then pure true
        else if session.lifecycle ≠ .active ∨ session.reconciled then pure false
        else
          match world.find sid with
          | none => pure false
          | some catalogued =>
              if catalogued.state ≠ .active then pure false
              else do
                let retainedAt ← nowIso8601 env
                let committed ← tryPutCatalogRecord (catalogued.retain retainedAt)
                if committed then do
                  Op.update fun world =>
                    world.setSession sid (some { session with lifecycle := .retained })
                  pure true
                else do
                  latchCatalogUnavailable
                  pure false

/-- How the selection of a deletion ends. -/
inductive Deletion where
  | refused
  | uncatalogued
  | begun (record : SessionCatalogRecord)
  deriving DecidableEq, Repr

def beginCatalogDeletion (env : Environment) (sid : ByteString)
    (session : Option SessionRecord) : Op World Deletion := do
  let world ← Op.read
  if ¬world.hasCatalog ∨ session.any (!·.catalogued) then pure .uncatalogued
  else
    match world.find sid with
    | none => pure .uncatalogued
    | some catalogued =>
        if catalogued.state = .deleted then pure .uncatalogued
        else if session.any (·.generationUuid != catalogued.generationUuid) ∨
            (session.isNone ∧ catalogued.state = .active) then pure .refused
        else if catalogued.state = .deleting then pure (.begun catalogued)
        else do
          let deletingAt ← nowIso8601 env
          let committed ← tryPutCatalogRecord (catalogued.beginDeletion deletingAt)
          if committed then pure (.begun (catalogued.beginDeletion deletingAt))
          else do
            latchCatalogUnavailable
            pure .refused

def closeSession (env : Environment) (sid : ByteString) : Op World Bool := do
  let world ← Op.read
  if world.process.isNone ∨ world.catalogUnavailable then pure false
  else do
    let session := world.session sid
    let deletion ← beginCatalogDeletion env sid session
    match deletion with
    | .refused => pure false
    | .uncatalogued => do
        Op.update (·.setSession sid none)
        pure session.isSome
    | .begun record => do
        Op.update (·.setSession sid none)
        finishCatalogDeletion env record

/-! ## Runs -/

inductive Action where
  | start (random : AckToken)
  | stop
  | create (sid : ByteString) (ephemeral : Bool) (random : AckToken)
      (snapshotTaken : Bool) (opening : Opening)
  | retain (sid : ByteString)
  | close (sid : ByteString)

def perform (env : Environment) : Action → Op World Bool
  | .start random => start env random
  | .stop => stop
  | .create sid ephemeral random snapshotTaken opening =>
      createSession env sid ephemeral random snapshotTaken opening
  | .retain sid => retainSession env sid
  | .close sid => closeSession env sid

/-- Version 4 generations do not repeat. -/
def isFresh (world : World) : Action → Bool
  | .create _ _ random _ _ =>
      world.written.all fun record =>
        record.generationUuid != formatAckToken (generateAckToken random)
  | _ => true

/-- One call in a process that makes at most `lifetime` more persistent steps.
A crash loses the process. -/
def step (env : Environment) (world : World) (call : ℕ × Action) : Option World :=
  if isFresh world call.2 then
    match perform env call.2 call.1 world with
    | (some _, next) => some next
    | (none, next) => some { next with process := none }
  else none

/-- An empty durable root and no process. -/
def World.initial : World where
  disk := { catalog := none, hasSessionEntries := false, generations := fun _ _ => .absent }
  process := none
  clockReads := 0
  removals := 0
  written := []

end Sitos.Durable
