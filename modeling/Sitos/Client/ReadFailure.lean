import Sitos.Cache.ReadModel

/-!
# Reads that fail

A reader answers a read or fails in it: it has handed over some of the entries by then, or none, and
returns false or throws.  The node forwards the entries it was handed and nothing else, and a client
takes a key without a reply for absent.

Overlays are kept in memory and do not fail; the base engine and the snapshots may.
-/

namespace Sitos.ReadFailure

open Sitos.AckResult
open Sitos.Bytes
open Sitos.Core
open Sitos.Key
open Sitos.ListPrefix
open Sitos.Query
open Sitos.ReadModel
open Sitos.Sample
open Sitos.StoreList
open Sitos.Value

/-! ## Readers -/

/-- How a call of a reader ends; `reached` tells which entries a failing call has handed over. -/
inductive ReadEnd where
  | served
  | failed (reached : ByteString → Bool)
  | threw (reached : ByteString → Bool)

def ReadEnd.reaches : ReadEnd → ByteString → Bool
  | .served, _ => true
  | .failed reached, key => reached key
  | .threw reached, key => reached key

def ReadEnd.isServed : ReadEnd → Bool
  | .served => true
  | _ => false

/-- A call of a reader: the entries that its sink was given, and what it returned unless it threw. -/
structure ReadCall where
  entries : List (ByteString × ByteString)
  returned : Option Bool

def endOf (readEnd : ReadEnd) (entries : List (ByteString × ByteString)) (answer : Bool) :
    ReadCall :=
  ⟨entries.filter fun entry => readEnd.reaches entry.1,
    match readEnd with
    | .served => some answer
    | .failed _ => some false
    | .threw _ => none⟩

def readerGet (engine : InMemoryEngine) (readEnd : ReadEnd) (key : ByteString) : ReadCall :=
  let entries := InMemoryEngine.get engine key
  endOf readEnd entries (!entries.isEmpty)

def readerList (engine : InMemoryEngine) (readEnd : ReadEnd) (start : ByteString) : ReadCall :=
  endOf readEnd (InMemoryEngine.list engine start) true

/-- The default snapshot is a copy of what `List` has handed over; a null one stands for a call
that threw. -/
def takeSnapshot (engine : InMemoryEngine) (readEnd : ReadEnd) : Option InMemoryEngine :=
  let call := readerList engine readEnd []
  call.returned.map fun _ => SortedMap.empty.assignAll call.entries

/-! ## The node -/

/-- How the reads of one operation end. -/
structure Faults where
  base : ReadEnd
  snapshot : ReadEnd

def replyFromReader (reader : InMemoryEngine) (readEnd : ReadEnd) (selector : StorageQuery)
    (keyPrefix scopePath : ByteString) : List Answer :=
  let call :=
    if selector.isList then readerList reader readEnd selector.relativeKey
    else readerGet reader readEnd selector.relativeKey
  call.entries.map fun (key, value) =>
    .reply ⟨makeReplyKey keyPrefix scopePath key, value, kSitosV1⟩

def replyScopedQuery (faults : Faults) (node : NodeReaders) (scope tail : ByteString) :
    List Answer :=
  match splitFirst tail with
  | none => []
  | some (sid, relative) =>
      if !isValidSessionId sid then []
      else
        match parseRelativeSelector relative, node.sessions sid with
        | some selector, some record =>
            if !record.admits then []
            else if !record.isActive then [.replyError .stateLost]
            else
              let (reader, readEnd) :=
                if scope = ascii "snap" then (record.snapshot, faults.snapshot)
                else (record.overlay, .served)
              match reader with
              | none => []
              | some reader =>
                  replyFromReader reader readEnd selector node.keyPrefix (scope ++ slash :: sid)
        | _, _ => []

/-- An exception ends the callback; what was replied before stands. -/
def onQuery (replyElsewhere : ByteString → List Answer) (faults : Faults) (node : NodeReaders)
    (keyexpr : ByteString) : List Answer :=
  match (stripPrefix node.keyPrefix keyexpr).bind splitFirst with
  | none => []
  | some (head, tail) =>
      if head = ascii "base" then
        match parseRelativeSelector tail with
        | none => []
        | some selector =>
            replyFromReader node.engine faults.base selector node.keyPrefix (ascii "base")
      else if head = ascii "snap" ∨ head = ascii "session" then
        replyScopedQuery faults node head tail
      else if head = ascii "meta" ∨ head = ascii "buffers" then replyElsewhere keyexpr
      else []

/-! ## The store -/

def decodeReply (expectedKey : ByteString) (reply : Reply) : Except Failure ParamValue :=
  if reply.key ≠ expectedKey then .error (.error, "transport returned an unexpected key")
  else if reply.encodingId ≠ kSitosV1 then
    .error (.error, "transport returned an unexpected encoding")
  else
    match decode reply.payload with
    | none => .error (.error, "transport returned malformed payload")
    | some value => .ok value

/-- `ParamStore::Get`: the first reply decides. -/
def storeGet (keyPrefix : ByteString) (get : ByteString → Except Failure (List Reply))
    (scope key : ByteString) : Except Failure ParamValue :=
  if (parseScope scope).isNone then .error (.invalidKey, "invalid scope")
  else if !isValidKey key then .error (.invalidKey, "invalid key")
  else
    match buildKey keyPrefix scope key with
    | none => .error (.invalidKey, "invalid parameter key")
    | some fullKey =>
        match get fullKey with
        | .error failure => .error failure
        | .ok [] => .error (.notFound, "parameter not found")
        | .ok (reply :: _) => decodeReply fullKey reply

/-- `Contains` over `Get`. -/
def containsOf (result : Except Failure ParamValue) : Except Failure Bool :=
  match result with
  | .ok _ => .ok true
  | .error failure => if failure.1 = .notFound then .ok false else .error failure

/-! ## The view -/

def notFound : Failure := (.notFound, "session or parameter not found")

def viewRead (readers : Readers) (readEnd : ReadEnd) (key : ByteString) :
    Except Failure ParamValue :=
  match readers.overlay.find key with
  | some stored => decoded stored
  | none =>
      let call := readerGet readers.snapshot readEnd key
      match call.returned with
      | none => .error (.error, "storage reader threw during Get")
      | some false => .error notFound
      | some true =>
          match call.entries with
          | [] => .error malformedPayload
          | entry :: _ => decoded entry.2

def viewGet (acquired : Except Failure Readers) (readEnd : ReadEnd) (key : ByteString) :
    Except Failure ParamValue :=
  if !isValidKey key then .error (.invalidKey, "invalid key")
  else acquired.bind fun readers => viewRead readers readEnd key

def viewContains (acquired : Except Failure Readers) (readEnd : ReadEnd) (key : ByteString) :
    Except Failure Bool :=
  if !isValidKey key then .error (.invalidKey, "invalid key")
  else acquired.bind fun readers => containsOf (viewRead readers readEnd key)

/-- The items that `List` hands to its sink, unless it ends in an error before. -/
def viewItems (readers : Readers) (readEnd : ReadEnd) (listPrefix : ByteString) :
    Except Failure (List ListItem) := do
  let overlayItems ← decodeEntries (InMemoryEngine.list readers.overlay listPrefix)
  let overlayKeys := overlayItems.map Prod.fst
  let call := readerList readers.snapshot readEnd listPrefix
  let snapshotItems ← decodeEntries (call.entries.filter fun entry => entry.1 ∉ overlayKeys)
  match call.returned with
  | none => .error (.error, "storage reader threw during List")
  | some false => .error (.error, "storage reader stopped List unexpectedly")
  | some true => .ok (overlayItems ++ snapshotItems)

def viewList (acquired : Except Failure Readers) (readEnd : ReadEnd) (listPrefix : ByteString)
    (sink : ListSink) : ListRun :=
  if !validateListPrefix listPrefix then ⟨.error (.invalidKey, "invalid list prefix"), []⟩
  else
    match acquired.bind fun readers => viewItems readers readEnd listPrefix with
    | .error failure => ⟨.error failure, []⟩
    | .ok values => ⟨.ok (), deliver sink [] (SortedMap.sortByKey values)⟩

/-! ## What is reported -/

/-- A node, how its reads end, and the transport between it and the client. -/
structure World where
  node : NodeReaders
  faults : Faults
  replyElsewhere : ByteString → List Answer
  get : ByteString → Except Failure (List Reply)

/-- A client's read, and the making of a session with the default snapshot. -/
inductive Request where
  | storeGet (scope key : ByteString)
  | storeContains (scope key : ByteString)
  | storeList (scope listPrefix : ByteString)
  | attach (sid : ByteString)
  | viewGet (sid key : ByteString)
  | viewContains (sid key : ByteString)
  | viewList (sid listPrefix : ByteString)
  | createSession

/-- A sink that asks for everything. -/
def everything : ListSink := fun _ => true

/-- A list that succeeded without an entry that is stored below its prefix. -/
def Lacks (run : ListRun) (listPrefix : ByteString) (stored : ByteString → Prop) : Prop :=
  run.result = .ok () ∧ ∃ key, listPrefix <+: key ∧ stored key ∧ key ∉ run.calls.map Prod.fst

def IsStored (engine : InMemoryEngine) (key : ByteString) : Prop := (engine.find key).isSome = true

namespace World

variable (world : World)

/-- How a read of the reader of a scope ends. -/
def scopeEnd : Scope → ReadEnd
  | .base => world.faults.base
  | .snap _ => world.faults.snapshot
  | .session _ => .served

def acquired (sid : ByteString) : Except Failure Readers := acquireReaders world.node sid

/-- The request has met a read that failed. -/
def MeetsFailure : Request → Prop
  | .storeGet scope key | .storeContains scope key =>
      ∃ parsed reader, parseScope scope = some parsed ∧ isValidKey key = true ∧
        servedReader world.node parsed = some reader ∧ (world.scopeEnd parsed).isServed = false
  | .storeList scope listPrefix =>
      ∃ parsed reader, parseScope scope = some parsed ∧ validateListPrefix listPrefix = true ∧
        servedReader world.node parsed = some reader ∧ (world.scopeEnd parsed).isServed = false
  | .attach sid =>
      ∃ readers, isValidSessionId sid = true ∧ world.acquired sid = .ok readers ∧
        world.faults.snapshot.isServed = false
  | .viewGet sid key | .viewContains sid key =>
      ∃ readers, isValidKey key = true ∧ world.acquired sid = .ok readers ∧
        readers.overlay.find key = none ∧ world.faults.snapshot.isServed = false
  | .viewList sid listPrefix =>
      ∃ readers, validateListPrefix listPrefix = true ∧ world.acquired sid = .ok readers ∧
        world.faults.snapshot.isServed = false
  | .createSession => world.faults.base.isServed = false

/-- The request reports that something is not there. -/
def ReportsAbsence : Request → Prop
  | .storeGet scope key =>
      ∃ message, storeGet world.node.keyPrefix world.get scope key = .error (.notFound, message)
  | .storeContains scope key =>
      containsOf (storeGet world.node.keyPrefix world.get scope key) = .ok false
  | .storeList scope listPrefix =>
      ∃ parsed reader, parseScope scope = some parsed ∧
        servedReader world.node parsed = some reader ∧
        Lacks (list world.node.keyPrefix world.get scope listPrefix everything) listPrefix
          (IsStored reader)
  | .attach sid =>
      ∃ readers state, world.acquired sid = .ok readers ∧
        buildCandidate world.node.keyPrefix world.get sid = .ok state ∧
        ∃ key, (IsStored readers.overlay key ∨ IsStored readers.snapshot key) ∧
          state.effectiveMap.find key = none
  | .viewGet sid key =>
      ∃ message, viewGet (world.acquired sid) world.faults.snapshot key = .error (.notFound, message)
  | .viewContains sid key =>
      viewContains (world.acquired sid) world.faults.snapshot key = .ok false
  | .viewList sid listPrefix =>
      ∃ readers, world.acquired sid = .ok readers ∧
        Lacks (viewList (world.acquired sid) world.faults.snapshot listPrefix everything) listPrefix
          fun key => IsStored readers.overlay key ∨ IsStored readers.snapshot key
  | .createSession =>
      ∃ snapshot key, takeSnapshot world.node.engine world.faults.base = some snapshot ∧
        IsStored world.node.engine key ∧ snapshot.find key = none

/-- A read failure is not reported as absence. -/
def Reports (request : Request) : Prop :=
  world.MeetsFailure request → ¬world.ReportsAbsence request

end World

end Sitos.ReadFailure
