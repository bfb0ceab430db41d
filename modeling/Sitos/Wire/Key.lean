import Sitos.Core.Bytes

/-!
# Keys

The key space below one prefix: what a chunk, a session id and a user key may
contain, and the parser that classifies a full key.
-/

namespace Sitos.Key

open Sitos.Bytes

inductive BufferClass where
  | durable
  | ephemeral
  deriving DecidableEq, Repr

inductive KeyKind where
  | base
  | session
  | snapshot
  | metaSession
  | metaAck
  | buffer
  deriving DecidableEq, Repr

structure ParsedKey where
  kind : KeyKind
  sid : ByteString
  uuid : ByteString
  relativeKey : ByteString
  isBatch : Bool
  bufferClass : Option BufferClass
  deriving DecidableEq, Repr

/-- The code of `/`. -/
def slash : UInt8 := 0x2F

/-- Letters and digits of the C locale. -/
def isAlnum (c : UInt8) : Bool :=
  (0x30 ≤ c && c ≤ 0x39) || (0x41 ≤ c && c ≤ 0x5A) || (0x61 ≤ c && c ≤ 0x7A)

/-- A chunk may also hold `_`, `-` and `.`. -/
def isValidChunkChar (c : UInt8) : Bool :=
  isAlnum c || c == 0x5F || c == 0x2D || c == 0x2E

def isValidChunk (chunk : ByteString) : Bool :=
  !chunk.isEmpty && chunk.all isValidChunkChar

/-- One or more valid chunks between slashes. -/
def isValidChunkSequence (value : ByteString) : Bool :=
  !value.isEmpty && value.head? != some slash && value.getLast? != some slash &&
    (value.splitOn slash).all isValidChunk

/-- An id may hold `_` and `-` but no `.`. -/
def isValidIdChar (c : UInt8) : Bool :=
  isAlnum c || c == 0x5F || c == 0x2D

def isValidId (id : ByteString) : Bool :=
  !id.isEmpty && id.all isValidIdChar

def isValidKey (key : ByteString) : Bool := isValidChunkSequence key

def isValidSessionId (sid : ByteString) : Bool := isValidId sid

def isValidPrefix (keyPrefix : ByteString) : Bool := isValidChunkSequence keyPrefix

def isValidAckUuid (uuid : ByteString) : Bool := isValidId uuid

/-- The last chunk of a batch key. -/
def kBatchSegment : ByteString := ascii ":batch"

/-- What follows the prefix and its slash. -/
def stripPrefix (keyPrefix fullKey : ByteString) : Option ByteString :=
  if fullKey.length ≤ keyPrefix.length ∨ fullKey[keyPrefix.length]? ≠ some slash then none
  else if !keyPrefix.isPrefixOf fullKey then none
  else some (fullKey.drop (keyPrefix.length + 1))

/-- Splits at the first slash. -/
def splitFirst (rest : ByteString) : Option (ByteString × ByteString) :=
  if slash ∈ rest then
    some (rest.takeWhile (· != slash), (rest.dropWhile (· != slash)).drop 1)
  else none

/-- The key of a session scope: `<sid>/<key>` or `<sid>/:batch`. -/
def parseSessionKey (tail : ByteString) : Option ParsedKey := do
  let (sid, value) ← splitFirst tail
  if !isValidSessionId sid then none
  else if value = kBatchSegment then some ⟨.session, sid, [], [], true, none⟩
  else if !isValidKey value then none
  else some ⟨.session, sid, [], value, false, none⟩

/-- A snapshot is read-only and has no batch path. -/
def parseSnapshotKey (tail : ByteString) : Option ParsedKey := do
  let (sid, value) ← splitFirst tail
  if !isValidSessionId sid then none
  else if !isValidKey value then none
  else some ⟨.snapshot, sid, [], value, false, none⟩

def parseBufferClass (className : ByteString) : Option BufferClass :=
  if className = ascii "durable" then some .durable
  else if className = ascii "ephemeral" then some .ephemeral
  else none

def parseBufferKey (tail : ByteString) : Option ParsedKey := do
  let (sid, classAndKey) ← splitFirst tail
  if !isValidSessionId sid then none
  else
    let (className, userKey) ← splitFirst classAndKey
    let bufferClass ← parseBufferClass className
    if !isValidKey userKey then none
    else some ⟨.buffer, sid, [], userKey, false, some bufferClass⟩

def parseMetaKey (tail : ByteString) : Option ParsedKey := do
  let (metaKind, id) ← splitFirst tail
  if metaKind = ascii "session" then
    if !isValidSessionId id then none else some ⟨.metaSession, id, [], [], false, none⟩
  else if metaKind = ascii "ack" then
    if !isValidAckUuid id then none else some ⟨.metaAck, [], id, [], false, none⟩
  else none

def parseKey (keyPrefix fullKey : ByteString) : Option ParsedKey := do
  let rest ← stripPrefix keyPrefix fullKey
  let (head, tail) ← splitFirst rest
  if head = ascii "base" then
    if tail = kBatchSegment then some ⟨.base, [], [], [], true, none⟩
    else if !isValidKey tail then none
    else some ⟨.base, [], [], tail, false, none⟩
  else if head = ascii "session" then parseSessionKey tail
  else if head = ascii "snap" then parseSnapshotKey tail
  else if head = ascii "buffers" then parseBufferKey tail
  else if head = ascii "meta" then parseMetaKey tail
  else none

/-! ## Building keys -/

inductive Scope where
  | base
  | session (sid : ByteString)
  | snap (sid : ByteString)
  deriving DecidableEq, Repr

/-- The session id that follows a fixed start. -/
def scopeSid (start scope : ByteString) : Option ByteString :=
  if start.isPrefixOf scope && isValidSessionId (scope.drop start.length) then
    some (scope.drop start.length)
  else none

def parseScope (scope : ByteString) : Option Scope :=
  if scope = ascii "base" then some .base
  else
    match scopeSid (ascii "session/") scope with
    | some sid => some (.session sid)
    | none => (scopeSid (ascii "snap/") scope).map .snap

def joinKey (keyPrefix scope last : ByteString) : ByteString :=
  keyPrefix ++ slash :: scope ++ slash :: last

def buildKey (keyPrefix scope userKey : ByteString) : Option ByteString :=
  if !isValidPrefix keyPrefix ∨ (parseScope scope).isNone ∨ !isValidKey userKey then none
  else some (joinKey keyPrefix scope userKey)

/-- Only the base and the sessions have batches. -/
def buildBatchKey (keyPrefix scope : ByteString) : Option ByteString :=
  if !isValidPrefix keyPrefix then none
  else
    match parseScope scope with
    | some .base | some (.session _) => some (joinKey keyPrefix scope kBatchSegment)
    | _ => none

def bufferClassSegment : BufferClass → ByteString
  | .durable => ascii "durable"
  | .ephemeral => ascii "ephemeral"

def buildBufferKey (keyPrefix sid : ByteString) (bufferClass : BufferClass) (userKey : ByteString) :
    Option ByteString :=
  if !isValidPrefix keyPrefix ∨ !isValidSessionId sid ∨ !isValidKey userKey then none
  else
    some (keyPrefix ++ slash :: ascii "buffers" ++ slash :: sid ++
      slash :: bufferClassSegment bufferClass ++ slash :: userKey)

def buildMetaSessionKey (keyPrefix sid : ByteString) : Option ByteString :=
  if !isValidPrefix keyPrefix ∨ !isValidSessionId sid then none
  else some (joinKey keyPrefix (ascii "meta/session") sid)

def buildMetaAckKey (keyPrefix uuid : ByteString) : Option ByteString :=
  if !isValidPrefix keyPrefix ∨ !isValidAckUuid uuid then none
  else some (joinKey keyPrefix (ascii "meta/ack") uuid)

def kSessionLiveliness : ByteString := ascii "/meta/live/session/"

def buildSessionLivelinessKey (keyPrefix sid generationUuid : ByteString) : Option ByteString :=
  if !isValidPrefix keyPrefix ∨ !isValidSessionId sid ∨ !isValidAckUuid generationUuid then none
  else some (keyPrefix ++ kSessionLiveliness ++ sid ++ slash :: generationUuid)

/-- `starts_with` and `remove_prefix`. -/
def removePrefix (start text : ByteString) : Option ByteString :=
  if start.isPrefixOf text then some (text.drop start.length) else none

def parseSessionLivelinessKey (keyPrefix sid key : ByteString) : Option ByteString := do
  let key ← removePrefix keyPrefix key
  let key ← removePrefix kSessionLiveliness key
  let key ← removePrefix sid key
  let key ← removePrefix [slash] key
  if !isValidAckUuid key then none else some key

theorem parseSessionKey_kind {tail : ByteString} {parsed : ParsedKey}
    (hparsed : parseSessionKey tail = some parsed) : parsed.kind = .session := by
  simp only [parseSessionKey, Option.bind_eq_bind, Option.bind_eq_some_iff, Prod.exists]
    at hparsed
  obtain ⟨sid, value, _, hparsed⟩ := hparsed
  split_ifs at hparsed <;> (obtain rfl := Option.some.inj hparsed; rfl)

theorem parseSnapshotKey_isBatch {tail : ByteString} {parsed : ParsedKey}
    (hparsed : parseSnapshotKey tail = some parsed) : parsed.isBatch = false := by
  simp only [parseSnapshotKey, Option.bind_eq_bind, Option.bind_eq_some_iff, Prod.exists]
    at hparsed
  obtain ⟨sid, value, _, hparsed⟩ := hparsed
  split_ifs at hparsed
  obtain rfl := Option.some.inj hparsed
  rfl

theorem parseBufferKey_isBatch {tail : ByteString} {parsed : ParsedKey}
    (hparsed : parseBufferKey tail = some parsed) : parsed.isBatch = false := by
  simp only [parseBufferKey, Option.bind_eq_bind, Option.bind_eq_some_iff, Prod.exists]
    at hparsed
  obtain ⟨sid, classAndKey, _, hparsed⟩ := hparsed
  split_ifs at hparsed
  simp only [Option.bind_eq_some_iff, Prod.exists] at hparsed
  obtain ⟨className, userKey, _, bufferClass, _, hparsed⟩ := hparsed
  split_ifs at hparsed
  obtain rfl := Option.some.inj hparsed
  rfl

theorem parseMetaKey_isBatch {tail : ByteString} {parsed : ParsedKey}
    (hparsed : parseMetaKey tail = some parsed) : parsed.isBatch = false := by
  simp only [parseMetaKey, Option.bind_eq_bind, Option.bind_eq_some_iff, Prod.exists]
    at hparsed
  obtain ⟨metaKind, id, _, hparsed⟩ := hparsed
  split_ifs at hparsed <;> (obtain rfl := Option.some.inj hparsed; rfl)

/-- Only the base and the sessions have a batch path. -/
theorem parseKey_isBatch {keyPrefix fullKey : ByteString} {parsed : ParsedKey}
    (hparsed : parseKey keyPrefix fullKey = some parsed) (hbatch : parsed.isBatch = true) :
    parsed.kind = .base ∨ parsed.kind = .session := by
  simp only [parseKey, Option.bind_eq_bind, Option.bind_eq_some_iff, Prod.exists] at hparsed
  obtain ⟨rest, _, head, tail, _, hparsed⟩ := hparsed
  split_ifs at hparsed
  · obtain rfl := Option.some.inj hparsed
    exact .inl rfl
  · obtain rfl := Option.some.inj hparsed
    exact .inl rfl
  · exact .inr (parseSessionKey_kind hparsed)
  · exact absurd (parseSnapshotKey_isBatch hparsed) (by simp [hbatch])
  · exact absurd (parseBufferKey_isBatch hparsed) (by simp [hbatch])
  · exact absurd (parseMetaKey_isBatch hparsed) (by simp [hbatch])

end Sitos.Key
