import Sitos.Wire.FenceRoute

/-!
# The key space

Every builder of a data or meta key, put together as one type of routes, and the
parser that tells them apart.  The parser accepts a key exactly when one route
builds it, and it shares no key with the readers of markers and of liveliness
tokens.
-/

namespace Sitos.Key

open Sitos.Bytes
open Sitos.FenceWire
open Sitos.Segments

/-! ## Pieces -/

theorem splitFirst_eq_some_iff {rest head tail : ByteString} :
    splitFirst rest = some (head, tail) ↔ rest = head ++ slash :: tail ∧ slash ∉ head := by
  constructor
  · intro hsplit
    rw [splitFirst] at hsplit
    split_ifs at hsplit with hmem
    obtain ⟨before, after, rfl, hbefore⟩ := List.eq_append_cons_of_mem hmem
    rw [takeWhile_append_cons hbefore, dropWhile_append_cons hbefore] at hsplit
    obtain ⟨rfl, rfl⟩ := Prod.mk.inj (Option.some.inj hsplit)
    exact ⟨rfl, hbefore⟩
  · rintro ⟨rfl, hhead⟩
    rw [splitFirst, if_pos (by simp), takeWhile_append_cons hhead, dropWhile_append_cons hhead]
    rfl

theorem slash_not_mem_of_isValidId {id : ByteString} (hid : isValidId id = true) : slash ∉ id :=
  (isChunk_of_isValidId hid).2

/-- The batch segment is no user key. -/
theorem isValidKey_kBatchSegment : isValidKey kBatchSegment = false := by decide

theorem removePrefix_eq_some_iff {start text rest : ByteString} :
    removePrefix start text = some rest ↔ text = start ++ rest := by
  constructor
  · intro hremove
    rw [removePrefix] at hremove
    split_ifs at hremove with hstarts
    obtain ⟨suffix, rfl⟩ : start <+: text := by simpa using hstarts
    obtain rfl := Option.some.inj hremove
    simp
  · rintro rfl
    simp [removePrefix]

theorem isValidChunk_nil : isValidChunk [] = false := rfl

/-- A key is valid when its chunks are. -/
theorem isValidChunkSequence_iff {value : ByteString} :
    isValidChunkSequence value = true ↔ ∀ chunk ∈ value.splitOn slash, isValidChunk chunk = true := by
  constructor
  · intro hvalid
    rw [isValidChunkSequence, Bool.and_eq_true, List.all_eq_true] at hvalid
    exact hvalid.2
  · intro hchunks
    have hsplit : ∀ before after, value ≠ before ++ slash :: after ∨ (before ≠ [] ∧ after ≠ []) := by
      intro before after
      by_contra hcut
      rw [not_or, not_not, not_and_or, not_not, not_not] at hcut
      obtain ⟨rfl, hempty⟩ := hcut
      have hnil : ([] : ByteString) ∈ (before ++ slash :: after).splitOn slash := by
        rw [List.splitOn_append_cons_self, List.mem_append]
        rcases hempty with rfl | rfl
        · exact .inl (by simp)
        · exact .inr (by simp)
      simpa [isValidChunk_nil] using hchunks [] hnil
    have hne : value ≠ [] := by
      rintro rfl
      simpa [isValidChunk_nil] using hchunks [] (by simp)
    have hhead : value.head? ≠ some slash := by
      intro hhead
      obtain ⟨rest, rfl⟩ := List.head?_eq_some_iff.mp hhead
      simpa using hsplit [] rest
    have hlast : value.getLast? ≠ some slash := by
      intro hlast
      obtain ⟨rest, rfl⟩ := List.getLast?_eq_some_iff.mp hlast
      simpa using hsplit rest []
    simp only [isValidChunkSequence, Bool.and_eq_true, Bool.not_eq_true', List.isEmpty_eq_false_iff,
      bne_iff_ne, List.all_eq_true]
    exact ⟨⟨⟨hne, hhead⟩, hlast⟩, hchunks⟩

theorem isValidChunkSequence_append_cons {before after : ByteString} :
    isValidChunkSequence (before ++ slash :: after) = true ↔
      isValidChunkSequence before = true ∧ isValidChunkSequence after = true := by
  rw [isValidChunkSequence_iff, isValidChunkSequence_iff, isValidChunkSequence_iff,
    List.splitOn_append_cons_self]
  exact List.forall_mem_append

theorem isValidChunkSequence_ne_nil {value : ByteString}
    (hvalid : isValidChunkSequence value = true) : value ≠ [] := by
  rintro rfl
  simp [isValidChunkSequence] at hvalid

/-- A valid key holds the letters of its chunks and slashes. -/
theorem isValidChunkChar_of_mem {value : ByteString} {c : UInt8}
    (hvalid : isValidChunkSequence value = true) (hc : c ∈ value) (hslash : c ≠ slash) :
    isValidChunkChar c = true := by
  rw [isValidChunkSequence_iff] at hvalid
  have hjoin : [slash].intercalate (value.splitOn slash) = value := List.intercalate_splitOn slash
  rw [← hjoin] at hc
  generalize value.splitOn slash = chunks at hvalid hc
  induction chunks with
  | nil => simp at hc
  | cons chunk chunks ih =>
      have hfirst := hvalid chunk List.mem_cons_self
      rw [isValidChunk, Bool.and_eq_true, List.all_eq_true] at hfirst
      by_cases hchunks : chunks = []
      · rw [hchunks, List.intercalate_singleton] at hc
        exact hfirst.2 c hc
      · rw [intercalate_cons hchunks, List.mem_append, List.mem_cons] at hc
        rcases hc with hc | hc | hc
        · exact hfirst.2 c hc
        · exact absurd hc hslash
        · exact ih (fun chunk hchunk => hvalid chunk (List.mem_cons_of_mem _ hchunk)) hc

/-! ## Scopes -/

def scopeText : Scope → ByteString
  | .base => ascii "base"
  | .session sid => ascii "session/" ++ sid
  | .snap sid => ascii "snap/" ++ sid

def IsValidScope : Scope → Prop
  | .base => True
  | .session sid | .snap sid => isValidSessionId sid = true

theorem scopeSid_eq_some_iff {start scope sid : ByteString} :
    scopeSid start scope = some sid ↔ scope = start ++ sid ∧ isValidSessionId sid = true := by
  constructor
  · intro hsid
    rw [scopeSid] at hsid
    split_ifs at hsid with hstarts
    rw [Bool.and_eq_true] at hstarts
    obtain ⟨suffix, rfl⟩ : start <+: scope := by simpa using hstarts.1
    obtain rfl := Option.some.inj hsid
    rw [List.drop_left] at hstarts ⊢
    exact ⟨rfl, hstarts.2⟩
  · rintro ⟨rfl, hsid⟩
    simp [scopeSid, hsid]

theorem session_ne_base (sid : ByteString) : ascii "session/" ++ sid ≠ ascii "base" := by
  intro heq
  have hhead := congrArg List.head? heq
  simp [ascii] at hhead

theorem snap_ne_base (sid : ByteString) : ascii "snap/" ++ sid ≠ ascii "base" := by
  intro heq
  have hhead := congrArg List.head? heq
  simp [ascii] at hhead

theorem session_ne_snap (sid sid' : ByteString) :
    ascii "session/" ++ sid ≠ ascii "snap/" ++ sid' := by
  intro heq
  have hsecond := congrArg (fun text => text[1]?) heq
  simp [ascii] at hsecond

theorem parseScope_eq_some_iff {text : ByteString} {scope : Scope} :
    parseScope text = some scope ↔ text = scopeText scope ∧ IsValidScope scope := by
  constructor
  · intro hparsed
    rw [parseScope] at hparsed
    split_ifs at hparsed with hbase
    · obtain rfl := Option.some.inj hparsed
      exact ⟨hbase, trivial⟩
    · split at hparsed
      · rename_i sid hsid
        obtain rfl := Option.some.inj hparsed
        exact scopeSid_eq_some_iff.mp hsid
      · obtain ⟨sid, hsid, rfl⟩ := Option.map_eq_some_iff.mp hparsed
        exact scopeSid_eq_some_iff.mp hsid
  · rintro ⟨rfl, hvalid⟩
    cases scope with
    | base => rfl
    | session sid =>
        have hsid : scopeSid (ascii "session/") (ascii "session/" ++ sid) = some sid :=
          scopeSid_eq_some_iff.mpr ⟨rfl, hvalid⟩
        simp only [parseScope, scopeText, session_ne_base, if_false, hsid]
    | snap sid =>
        have hsid : scopeSid (ascii "snap/") (ascii "snap/" ++ sid) = some sid :=
          scopeSid_eq_some_iff.mpr ⟨rfl, hvalid⟩
        have hother : scopeSid (ascii "session/") (ascii "snap/" ++ sid) = none := by
          rw [Option.eq_none_iff_forall_ne_some]
          intro sid' hsid'
          exact session_ne_snap sid' sid (scopeSid_eq_some_iff.mp hsid').1.symm
        simp only [parseScope, scopeText, snap_ne_base, if_false, hother, hsid, Option.map_some]

/-! ## Routes -/

/-- One builder with its arguments. -/
inductive Route where
  | value (scope userKey : ByteString)
  | batch (scope : ByteString)
  | buffer (sid : ByteString) (bufferClass : BufferClass) (userKey : ByteString)
  | metaSession (sid : ByteString)
  | metaAck (uuid : ByteString)
  deriving DecidableEq, Repr

def Route.build (keyPrefix : ByteString) : Route → Option ByteString
  | .value scope userKey => buildKey keyPrefix scope userKey
  | .batch scope => buildBatchKey keyPrefix scope
  | .buffer sid bufferClass userKey => buildBufferKey keyPrefix sid bufferClass userKey
  | .metaSession sid => buildMetaSessionKey keyPrefix sid
  | .metaAck uuid => buildMetaAckKey keyPrefix uuid

/-- The arguments of a builder as the parser reports them. -/
def Route.parsed : Route → Option ParsedKey
  | .value scope userKey =>
      (parseScope scope).map fun
        | .base => ⟨.base, [], [], userKey, false, none⟩
        | .session sid => ⟨.session, sid, [], userKey, false, none⟩
        | .snap sid => ⟨.snapshot, sid, [], userKey, false, none⟩
  | .batch scope =>
      match parseScope scope with
      | some .base => some ⟨.base, [], [], [], true, none⟩
      | some (.session sid) => some ⟨.session, sid, [], [], true, none⟩
      | _ => none
  | .buffer sid bufferClass userKey => some ⟨.buffer, sid, [], userKey, false, some bufferClass⟩
  | .metaSession sid => some ⟨.metaSession, sid, [], [], false, none⟩
  | .metaAck uuid => some ⟨.metaAck, [], uuid, [], false, none⟩

/-- The route that a parsed key came from. -/
def Route.ofParsed (parsed : ParsedKey) : Route :=
  match parsed.kind with
  | .base =>
      if parsed.isBatch then .batch (scopeText .base)
      else .value (scopeText .base) parsed.relativeKey
  | .session =>
      if parsed.isBatch then .batch (scopeText (.session parsed.sid))
      else .value (scopeText (.session parsed.sid)) parsed.relativeKey
  | .snapshot => .value (scopeText (.snap parsed.sid)) parsed.relativeKey
  | .metaSession => .metaSession parsed.sid
  | .metaAck => .metaAck parsed.uuid
  | .buffer => .buffer parsed.sid (parsed.bufferClass.getD .durable) parsed.relativeKey

theorem Route.eq_ofParsed {route : Route} {parsed : ParsedKey}
    (hroute : route.parsed = some parsed) : route = Route.ofParsed parsed := by
  cases route with
  | value scope userKey =>
      obtain ⟨scope', hscope, rfl⟩ := Option.map_eq_some_iff.mp hroute
      obtain ⟨rfl, -⟩ := parseScope_eq_some_iff.mp hscope
      cases scope' <;> rfl
  | batch scope =>
      simp only [Route.parsed] at hroute
      split at hroute
      · rename_i hscope
        obtain rfl := Option.some.inj hroute
        rw [(parseScope_eq_some_iff.mp hscope).1]
        rfl
      · rename_i sid hscope
        obtain rfl := Option.some.inj hroute
        rw [(parseScope_eq_some_iff.mp hscope).1]
        rfl
      · cases hroute
  | buffer sid bufferClass userKey =>
      obtain rfl := Option.some.inj hroute
      rfl
  | metaSession sid =>
      obtain rfl := Option.some.inj hroute
      rfl
  | metaAck uuid =>
      obtain rfl := Option.some.inj hroute
      rfl

/-! ## The parser below the first chunk -/

/-- The first chunk of every key below the prefix. -/
theorem parseKey_eq {keyPrefix head tail : ByteString} (hhead : slash ∉ head) :
    parseKey keyPrefix (keyPrefix ++ slash :: (head ++ slash :: tail)) =
      if head = ascii "base" then
        if tail = kBatchSegment then some ⟨.base, [], [], [], true, none⟩
        else if !isValidKey tail then none
        else some ⟨.base, [], [], tail, false, none⟩
      else if head = ascii "session" then parseSessionKey tail
      else if head = ascii "snap" then parseSnapshotKey tail
      else if head = ascii "buffers" then parseBufferKey tail
      else if head = ascii "meta" then parseMetaKey tail
      else none := by
  rw [parseKey, stripPrefix_eq_some_iff.mpr rfl, Option.bind_eq_bind, Option.bind_some,
    splitFirst_eq_some_iff.mpr ⟨rfl, hhead⟩]
  rfl

theorem exists_of_parseKey {keyPrefix fullKey : ByteString} {parsed : ParsedKey}
    (hparsed : parseKey keyPrefix fullKey = some parsed) :
    ∃ head tail, slash ∉ head ∧ fullKey = keyPrefix ++ slash :: (head ++ slash :: tail) := by
  simp only [parseKey, Option.bind_eq_bind, Option.bind_eq_some_iff, Prod.exists,
    stripPrefix_eq_some_iff, splitFirst_eq_some_iff] at hparsed
  obtain ⟨rest, rfl, head, tail, ⟨rfl, hhead⟩, -⟩ := hparsed
  exact ⟨head, tail, hhead, rfl⟩

theorem parseSessionKey_eq_some_iff {tail : ByteString} {parsed : ParsedKey} :
    parseSessionKey tail = some parsed ↔
      ∃ sid value, tail = sid ++ slash :: value ∧ isValidSessionId sid = true ∧
        ((value = kBatchSegment ∧ parsed = ⟨.session, sid, [], [], true, none⟩) ∨
          (isValidKey value = true ∧ parsed = ⟨.session, sid, [], value, false, none⟩)) := by
  constructor
  · intro hparsed
    simp only [parseSessionKey, Option.bind_eq_bind, Option.bind_eq_some_iff, Prod.exists,
      splitFirst_eq_some_iff] at hparsed
    obtain ⟨sid, value, ⟨rfl, -⟩, hparsed⟩ := hparsed
    split_ifs at hparsed with hsid hbatch hkey
    · exact ⟨sid, value, rfl, by simpa using hsid, .inl ⟨hbatch, (Option.some.inj hparsed).symm⟩⟩
    · exact ⟨sid, value, rfl, by simpa using hsid,
        .inr ⟨by simpa using hkey, (Option.some.inj hparsed).symm⟩⟩
  · rintro ⟨sid, value, rfl, hsid, hvalue⟩
    have hsplit : splitFirst (sid ++ slash :: value) = some (sid, value) :=
      splitFirst_eq_some_iff.mpr ⟨rfl, slash_not_mem_of_isValidId hsid⟩
    rcases hvalue with ⟨rfl, rfl⟩ | ⟨hkey, rfl⟩
    · simp [parseSessionKey, hsplit, hsid]
    · have hbatch : value ≠ kBatchSegment := by
        rintro rfl
        simp [isValidKey_kBatchSegment] at hkey
      simp [parseSessionKey, hsplit, hsid, hbatch, hkey]

theorem parseSnapshotKey_eq_some_iff {tail : ByteString} {parsed : ParsedKey} :
    parseSnapshotKey tail = some parsed ↔
      ∃ sid value, tail = sid ++ slash :: value ∧ isValidSessionId sid = true ∧
        isValidKey value = true ∧ parsed = ⟨.snapshot, sid, [], value, false, none⟩ := by
  constructor
  · intro hparsed
    simp only [parseSnapshotKey, Option.bind_eq_bind, Option.bind_eq_some_iff, Prod.exists,
      splitFirst_eq_some_iff] at hparsed
    obtain ⟨sid, value, ⟨rfl, -⟩, hparsed⟩ := hparsed
    split_ifs at hparsed with hsid hkey
    exact ⟨sid, value, rfl, by simpa using hsid, by simpa using hkey,
      (Option.some.inj hparsed).symm⟩
  · rintro ⟨sid, value, rfl, hsid, hkey, rfl⟩
    have hsplit : splitFirst (sid ++ slash :: value) = some (sid, value) :=
      splitFirst_eq_some_iff.mpr ⟨rfl, slash_not_mem_of_isValidId hsid⟩
    simp [parseSnapshotKey, hsplit, hsid, hkey]

theorem parseBufferKey_eq_some_iff {tail : ByteString} {parsed : ParsedKey} :
    parseBufferKey tail = some parsed ↔
      ∃ sid bufferClass userKey,
        tail = sid ++ slash :: (bufferClassSegment bufferClass ++ slash :: userKey) ∧
        isValidSessionId sid = true ∧ isValidKey userKey = true ∧
        parsed = ⟨.buffer, sid, [], userKey, false, some bufferClass⟩ := by
  constructor
  · intro hparsed
    simp only [parseBufferKey, Option.bind_eq_bind, Option.bind_eq_some_iff, Prod.exists,
      splitFirst_eq_some_iff] at hparsed
    obtain ⟨sid, classAndKey, ⟨rfl, -⟩, hparsed⟩ := hparsed
    split_ifs at hparsed with hsid
    simp only [Option.bind_eq_some_iff, Prod.exists, splitFirst_eq_some_iff] at hparsed
    obtain ⟨className, userKey, ⟨rfl, -⟩, bufferClass, hclass, hparsed⟩ := hparsed
    split_ifs at hparsed with hkey
    rw [parseBufferClass_eq_some_iff.mp hclass]
    exact ⟨sid, bufferClass, userKey, rfl, by simpa using hsid, by simpa using hkey,
      (Option.some.inj hparsed).symm⟩
  · rintro ⟨sid, bufferClass, userKey, rfl, hsid, hkey, rfl⟩
    have hsplit : splitFirst (sid ++ slash :: (bufferClassSegment bufferClass ++ slash :: userKey)) =
        some (sid, bufferClassSegment bufferClass ++ slash :: userKey) :=
      splitFirst_eq_some_iff.mpr ⟨rfl, slash_not_mem_of_isValidId hsid⟩
    have hclass : splitFirst (bufferClassSegment bufferClass ++ slash :: userKey) =
        some (bufferClassSegment bufferClass, userKey) :=
      splitFirst_eq_some_iff.mpr ⟨rfl, (isChunk_bufferClassName bufferClass).2⟩
    have hparsed : parseBufferClass (bufferClassSegment bufferClass) = some bufferClass :=
      parseBufferClass_eq_some_iff.mpr rfl
    simp [parseBufferKey, hsplit, hclass, hparsed, hsid, hkey]

theorem parseMetaKey_eq_some_iff {tail : ByteString} {parsed : ParsedKey} :
    parseMetaKey tail = some parsed ↔
      (∃ sid, tail = ascii "session" ++ slash :: sid ∧ isValidSessionId sid = true ∧
        parsed = ⟨.metaSession, sid, [], [], false, none⟩) ∨
      (∃ uuid, tail = ascii "ack" ++ slash :: uuid ∧ isValidAckUuid uuid = true ∧
        parsed = ⟨.metaAck, [], uuid, [], false, none⟩) := by
  constructor
  · intro hparsed
    simp only [parseMetaKey, Option.bind_eq_bind, Option.bind_eq_some_iff, Prod.exists,
      splitFirst_eq_some_iff] at hparsed
    obtain ⟨metaKind, id, ⟨rfl, -⟩, hparsed⟩ := hparsed
    split_ifs at hparsed with hsession hsid hack huuid
    · exact .inl ⟨id, by rw [hsession], by simpa using hsid, (Option.some.inj hparsed).symm⟩
    · exact .inr ⟨id, by rw [hack], by simpa using huuid, (Option.some.inj hparsed).symm⟩
  · rintro (⟨sid, rfl, hsid, rfl⟩ | ⟨uuid, rfl, huuid, rfl⟩)
    · have hsplit : splitFirst (ascii "session" ++ slash :: sid) = some (ascii "session", sid) :=
        splitFirst_eq_some_iff.mpr ⟨rfl, by decide⟩
      simp [parseMetaKey, hsplit, hsid]
    · have hsplit : splitFirst (ascii "ack" ++ slash :: uuid) = some (ascii "ack", uuid) :=
        splitFirst_eq_some_iff.mpr ⟨rfl, by decide⟩
      have hack : ascii "ack" ≠ ascii "session" := by decide
      simp [parseMetaKey, hsplit, huuid, hack]

/-! ## Routes and keys -/

/-- The key of a scope, its text cut at the first slash. -/
theorem joinKey_session (keyPrefix sid last : ByteString) :
    joinKey keyPrefix (scopeText (.session sid)) last =
      keyPrefix ++ slash :: (ascii "session" ++ slash :: (sid ++ slash :: last)) := by
  have hstart : ascii "session/" = ascii "session" ++ [slash] := by decide
  simp [joinKey, scopeText, hstart]

theorem joinKey_snap (keyPrefix sid last : ByteString) :
    joinKey keyPrefix (scopeText (.snap sid)) last =
      keyPrefix ++ slash :: (ascii "snap" ++ slash :: (sid ++ slash :: last)) := by
  have hstart : ascii "snap/" = ascii "snap" ++ [slash] := by decide
  simp [joinKey, scopeText, hstart]

theorem joinKey_base (keyPrefix last : ByteString) :
    joinKey keyPrefix (scopeText .base) last =
      keyPrefix ++ slash :: (ascii "base" ++ slash :: last) := by
  simp [joinKey, scopeText]

theorem joinKey_metaSession (keyPrefix sid : ByteString) :
    joinKey keyPrefix (ascii "meta/session") sid =
      keyPrefix ++ slash :: (ascii "meta" ++ slash :: (ascii "session" ++ slash :: sid)) := by
  have hmeta : ascii "meta/session" = ascii "meta" ++ slash :: ascii "session" := by decide
  simp [joinKey, hmeta]

theorem joinKey_metaAck (keyPrefix uuid : ByteString) :
    joinKey keyPrefix (ascii "meta/ack") uuid =
      keyPrefix ++ slash :: (ascii "meta" ++ slash :: (ascii "ack" ++ slash :: uuid)) := by
  have hmeta : ascii "meta/ack" = ascii "meta" ++ slash :: ascii "ack" := by decide
  simp [joinKey, hmeta]

theorem buildKey_eq_some_iff {keyPrefix scope userKey key : ByteString} :
    buildKey keyPrefix scope userKey = some key ↔
      isValidPrefix keyPrefix = true ∧ (∃ parsed, parseScope scope = some parsed) ∧
        isValidKey userKey = true ∧ key = joinKey keyPrefix scope userKey := by
  rw [buildKey]
  split_ifs with hrejected
  · cases hscope : parseScope scope <;> simp_all
    intro hpre hkey
    simp [hpre, hkey] at hrejected
  · simp only [not_or, Bool.not_eq_true, Bool.not_eq_false', Option.isNone_eq_false_iff,
      Option.isSome_iff_exists] at hrejected
    simp only [hrejected, true_and, Option.some.injEq]
    exact eq_comm

/-- Every successful builder is undone by the parser. -/
theorem parseKey_of_build {keyPrefix fullKey : ByteString} {route : Route}
    (hbuild : route.build keyPrefix = some fullKey) :
    parseKey keyPrefix fullKey = route.parsed ∧ ∃ parsed, route.parsed = some parsed := by
  cases route with
  | value scope userKey =>
      obtain ⟨-, ⟨scope', hscope⟩, hkey, rfl⟩ := buildKey_eq_some_iff.mp hbuild
      simp only [Route.parsed, hscope, Option.map_some]
      refine ⟨?_, _, rfl⟩
      obtain ⟨rfl, hvalid⟩ := parseScope_eq_some_iff.mp hscope
      cases scope' with
      | base =>
          have hbatch : userKey ≠ kBatchSegment := by
            rintro rfl
            simp [isValidKey_kBatchSegment] at hkey
          rw [joinKey_base, parseKey_eq (by decide), if_pos rfl, if_neg hbatch]
          simp [hkey]
      | session sid =>
          rw [joinKey_session, parseKey_eq (by decide), if_neg (by decide), if_pos rfl,
            parseSessionKey_eq_some_iff]
          exact ⟨sid, userKey, rfl, hvalid, .inr ⟨hkey, rfl⟩⟩
      | snap sid =>
          rw [joinKey_snap, parseKey_eq (by decide), if_neg (by decide), if_neg (by decide),
            if_pos rfl, parseSnapshotKey_eq_some_iff]
          exact ⟨sid, userKey, rfl, hvalid, hkey, rfl⟩
  | batch scope =>
      simp only [Route.build, buildBatchKey] at hbuild
      split_ifs at hbuild
      split at hbuild
      · rename_i hscope
        obtain rfl := Option.some.inj hbuild
        simp only [Route.parsed, hscope]
        refine ⟨?_, _, rfl⟩
        rw [(parseScope_eq_some_iff.mp hscope).1, joinKey_base, parseKey_eq (by decide), if_pos rfl,
          if_pos rfl]
      · rename_i sid hscope
        obtain rfl := Option.some.inj hbuild
        obtain ⟨rfl, hvalid⟩ := parseScope_eq_some_iff.mp hscope
        simp only [Route.parsed, hscope]
        refine ⟨?_, _, rfl⟩
        rw [joinKey_session, parseKey_eq (by decide), if_neg (by decide), if_pos rfl,
          parseSessionKey_eq_some_iff]
        exact ⟨sid, kBatchSegment, rfl, hvalid, .inl ⟨rfl, rfl⟩⟩
      · cases hbuild
  | buffer sid bufferClass userKey =>
      simp only [Route.build, buildBufferKey] at hbuild
      split_ifs at hbuild with hrejected
      simp only [not_or, Bool.not_eq_true, Bool.not_eq_false'] at hrejected
      refine ⟨?_, _, rfl⟩
      have hkey : fullKey = keyPrefix ++ slash :: (ascii "buffers" ++ slash :: (sid ++
          slash :: (bufferClassSegment bufferClass ++ slash :: userKey))) := by
        rw [← Option.some.inj hbuild]
        simp
      rw [hkey, parseKey_eq (by decide), if_neg (by decide), if_neg (by decide), if_neg (by decide),
        if_pos rfl]
      exact parseBufferKey_eq_some_iff.mpr
        ⟨sid, bufferClass, userKey, rfl, hrejected.2.1, hrejected.2.2, rfl⟩
  | metaSession sid =>
      simp only [Route.build, buildMetaSessionKey] at hbuild
      split_ifs at hbuild with hrejected
      simp only [not_or, Bool.not_eq_true, Bool.not_eq_false'] at hrejected
      refine ⟨?_, _, rfl⟩
      rw [← Option.some.inj hbuild, joinKey_metaSession, parseKey_eq (by decide),
        if_neg (by decide), if_neg (by decide), if_neg (by decide), if_neg (by decide), if_pos rfl]
      exact parseMetaKey_eq_some_iff.mpr (.inl ⟨sid, rfl, hrejected.2, rfl⟩)
  | metaAck uuid =>
      simp only [Route.build, buildMetaAckKey] at hbuild
      split_ifs at hbuild with hrejected
      simp only [not_or, Bool.not_eq_true, Bool.not_eq_false'] at hrejected
      refine ⟨?_, _, rfl⟩
      rw [← Option.some.inj hbuild, joinKey_metaAck, parseKey_eq (by decide),
        if_neg (by decide), if_neg (by decide), if_neg (by decide), if_neg (by decide), if_pos rfl]
      exact parseMetaKey_eq_some_iff.mpr (.inr ⟨uuid, rfl, hrejected.2, rfl⟩)

theorem build_value {keyPrefix userKey : ByteString} {scope : Scope}
    (hpre : isValidPrefix keyPrefix = true) (hscope : IsValidScope scope)
    (hkey : isValidKey userKey = true) :
    (Route.value (scopeText scope) userKey).build keyPrefix =
      some (joinKey keyPrefix (scopeText scope) userKey) :=
  buildKey_eq_some_iff.mpr
    ⟨hpre, ⟨scope, parseScope_eq_some_iff.mpr ⟨rfl, hscope⟩⟩, hkey, rfl⟩

/-- Every accepted key is the output of a builder. -/
theorem exists_route_of_parseKey {keyPrefix fullKey : ByteString} {parsed : ParsedKey}
    (hpre : isValidPrefix keyPrefix = true)
    (hparsed : parseKey keyPrefix fullKey = some parsed) :
    ∃ route : Route, route.build keyPrefix = some fullKey := by
  obtain ⟨head, tail, hhead, rfl⟩ := exists_of_parseKey hparsed
  rw [parseKey_eq hhead] at hparsed
  split_ifs at hparsed with hbase hbatch hkey hsession hsnap hbuffers hmeta
  · refine ⟨.batch (scopeText .base), ?_⟩
    rw [hbase, hbatch, ← joinKey_base]
    simp [Route.build, buildBatchKey, hpre, parseScope, scopeText]
  · refine ⟨.value (scopeText .base) tail, ?_⟩
    rw [hbase, ← joinKey_base]
    exact build_value hpre trivial (by simpa using hkey)
  · obtain ⟨sid, value, rfl, hsid, hvalue⟩ := parseSessionKey_eq_some_iff.mp hparsed
    rw [hsession, ← joinKey_session]
    rcases hvalue with ⟨rfl, -⟩ | ⟨hkey, -⟩
    · have hscope : parseScope (scopeText (.session sid)) = some (.session sid) :=
        parseScope_eq_some_iff.mpr ⟨rfl, hsid⟩
      exact ⟨.batch (scopeText (.session sid)), by simp [Route.build, buildBatchKey, hpre, hscope]⟩
    · exact ⟨.value (scopeText (.session sid)) value, build_value hpre hsid hkey⟩
  · obtain ⟨sid, value, rfl, hsid, hkey, -⟩ := parseSnapshotKey_eq_some_iff.mp hparsed
    rw [hsnap, ← joinKey_snap]
    exact ⟨.value (scopeText (.snap sid)) value, build_value hpre hsid hkey⟩
  · obtain ⟨sid, bufferClass, userKey, rfl, hsid, hkey, -⟩ := parseBufferKey_eq_some_iff.mp hparsed
    exact ⟨.buffer sid bufferClass userKey,
      by simp [Route.build, buildBufferKey, hpre, hsid, hkey, hbuffers]⟩
  · rcases parseMetaKey_eq_some_iff.mp hparsed with ⟨sid, rfl, hsid, -⟩ | ⟨uuid, rfl, huuid, -⟩
    · rw [hmeta, ← joinKey_metaSession]
      exact ⟨.metaSession sid, by simp [Route.build, buildMetaSessionKey, hpre, hsid]⟩
    · rw [hmeta, ← joinKey_metaAck]
      exact ⟨.metaAck uuid, by simp [Route.build, buildMetaAckKey, hpre, huuid]⟩

/-! ## Liveliness tokens -/

theorem parseSessionLivelinessKey_eq_some_iff {keyPrefix sid key uuid : ByteString} :
    parseSessionLivelinessKey keyPrefix sid key = some uuid ↔
      isValidAckUuid uuid = true ∧
        key = keyPrefix ++ kSessionLiveliness ++ sid ++ slash :: uuid := by
  simp only [parseSessionLivelinessKey, Option.bind_eq_bind, Option.bind_eq_some_iff,
    removePrefix_eq_some_iff]
  constructor
  · rintro ⟨rest, rfl, rest, rfl, rest, rfl, rest, rfl, huuid⟩
    split_ifs at huuid with hvalid
    obtain rfl := Option.some.inj huuid
    exact ⟨by simpa using hvalid, by simp⟩
  · rintro ⟨hvalid, rfl⟩
    refine ⟨kSessionLiveliness ++ (sid ++ slash :: uuid), by simp, sid ++ slash :: uuid, rfl,
      slash :: uuid, rfl, uuid, rfl, by simp [hvalid]⟩

theorem buildSessionLivelinessKey_eq_some_iff {keyPrefix sid key uuid : ByteString}
    (hpre : isValidPrefix keyPrefix = true) (hsid : isValidSessionId sid = true) :
    buildSessionLivelinessKey keyPrefix sid uuid = some key ↔
      isValidAckUuid uuid = true ∧
        key = keyPrefix ++ kSessionLiveliness ++ sid ++ slash :: uuid := by
  rw [buildSessionLivelinessKey]
  cases huuid : isValidAckUuid uuid with
  | false => simp
  | true => simp [hpre, hsid, eq_comm]

/-! ## Disjointness -/

/-- A key of the meta part whose kind is neither a session nor an acknowledgement. -/
theorem parseKey_meta_eq_none {keyPrefix metaKind rest : ByteString} (hkind : slash ∉ metaKind)
    (hsession : metaKind ≠ ascii "session") (hack : metaKind ≠ ascii "ack") :
    parseKey keyPrefix (keyPrefix ++ slash :: (ascii "meta" ++ slash :: (metaKind ++ slash :: rest))) =
      none := by
  have hsplit : splitFirst (metaKind ++ slash :: rest) = some (metaKind, rest) :=
    splitFirst_eq_some_iff.mpr ⟨rfl, hkind⟩
  rw [parseKey_eq (by decide), if_neg (by decide), if_neg (by decide), if_neg (by decide),
    if_neg (by decide), if_pos rfl]
  simp [parseMetaKey, hsplit, hsession, hack]

/-- What a marker key starts with. -/
theorem exists_of_parseFenceMarkerRoute {keyPrefix fullKey : ByteString} {route : FenceMarkerRoute}
    (hpre : isValidPrefix keyPrefix = true)
    (hroute : parseFenceMarkerRoute keyPrefix fullKey = some route) :
    ∃ rest, fullKey =
      keyPrefix ++ slash :: (ascii "meta" ++ slash :: (ascii "fence" ++ slash :: rest)) := by
  obtain ⟨-, rfl⟩ := (parseFenceMarkerRoute_eq_some_iff hpre).mp hroute
  obtain ⟨rest, hrest⟩ := exists_markerKey_eq keyPrefix route
    (formatFenceUuid route.receiverGeneration) (formatFenceUuid route.publisherUuid)
    (FlatJson.decimal route.throughSequence.toNat)
  have hstart : ascii "/meta/fence/" =
      slash :: ascii "meta" ++ slash :: ascii "fence" ++ [slash] := by decide
  exact ⟨rest, by rw [canonicalKey, hrest, hstart]; simp⟩

/-- What a liveliness key starts with. -/
theorem exists_of_parseSessionLivelinessKey {keyPrefix sid key uuid : ByteString}
    (huuid : parseSessionLivelinessKey keyPrefix sid key = some uuid) :
    ∃ rest, key = keyPrefix ++ slash :: (ascii "meta" ++ slash :: (ascii "live" ++ slash :: rest)) := by
  obtain ⟨-, rfl⟩ := parseSessionLivelinessKey_eq_some_iff.mp huuid
  have hstart : kSessionLiveliness = slash :: ascii "meta" ++ slash :: ascii "live" ++
      slash :: ascii "session/" := by decide
  exact ⟨ascii "session/" ++ sid ++ slash :: uuid, by simp [hstart]⟩

/-- The parser accepts exactly the keys that one builder makes, with the arguments of that
builder, and shares no key with the readers of markers and of liveliness tokens. -/
theorem keySpace_exact {keyPrefix : ByteString} (hpre : isValidPrefix keyPrefix = true) :
    (∀ fullKey, (∃ parsed, parseKey keyPrefix fullKey = some parsed) ↔
      ∃! route : Route, route.build keyPrefix = some fullKey) ∧
    (∀ fullKey (route : Route), route.build keyPrefix = some fullKey →
      ∃ parsed, route.parsed = some parsed ∧ parseKey keyPrefix fullKey = some parsed) ∧
    (∀ sid, isValidSessionId sid = true → ∀ key uuid,
      parseSessionLivelinessKey keyPrefix sid key = some uuid ↔
        buildSessionLivelinessKey keyPrefix sid uuid = some key) ∧
    (∀ key, parseKey keyPrefix key = none ∨ parseFenceMarkerRoute keyPrefix key = none) ∧
    (∀ key sid, parseKey keyPrefix key = none ∨
      parseSessionLivelinessKey keyPrefix sid key = none) ∧
    (∀ key sid, parseFenceMarkerRoute keyPrefix key = none ∨
      parseSessionLivelinessKey keyPrefix sid key = none) := by
  refine ⟨fun fullKey => ⟨?_, ?_⟩, fun fullKey route hbuild => ?_, fun sid hsid key uuid => ?_,
    fun key => ?_, fun key sid => ?_, fun key sid => ?_⟩
  · rintro ⟨parsed, hparsed⟩
    obtain ⟨route, hbuild⟩ := exists_route_of_parseKey hpre hparsed
    refine ⟨route, hbuild, fun other hother => ?_⟩
    have hroute : route.parsed = some parsed := (parseKey_of_build hbuild).1.symm.trans hparsed
    have hother' : other.parsed = some parsed := (parseKey_of_build hother).1.symm.trans hparsed
    rw [Route.eq_ofParsed hroute, Route.eq_ofParsed hother']
  · rintro ⟨route, hbuild, -⟩
    obtain ⟨hparsed, parsed, hroute⟩ := parseKey_of_build hbuild
    exact ⟨parsed, hparsed.trans hroute⟩
  · obtain ⟨hparsed, parsed, hroute⟩ := parseKey_of_build hbuild
    exact ⟨parsed, hroute, hparsed.trans hroute⟩
  · rw [parseSessionLivelinessKey_eq_some_iff, buildSessionLivelinessKey_eq_some_iff hpre hsid]
  · cases hroute : parseFenceMarkerRoute keyPrefix key with
    | none => exact .inr rfl
    | some route =>
        obtain ⟨rest, rfl⟩ := exists_of_parseFenceMarkerRoute hpre hroute
        exact .inl (parseKey_meta_eq_none (by decide) (by decide) (by decide))
  · cases huuid : parseSessionLivelinessKey keyPrefix sid key with
    | none => exact .inr rfl
    | some uuid =>
        obtain ⟨rest, rfl⟩ := exists_of_parseSessionLivelinessKey huuid
        exact .inl (parseKey_meta_eq_none (by decide) (by decide) (by decide))
  · cases hroute : parseFenceMarkerRoute keyPrefix key with
    | none => exact .inl rfl
    | some route =>
        cases huuid : parseSessionLivelinessKey keyPrefix sid key with
        | none => exact .inr rfl
        | some uuid =>
            -- the third chunk is `fence` in one key and `live` in the other
            obtain ⟨rest, rfl⟩ := exists_of_parseFenceMarkerRoute hpre hroute
            obtain ⟨rest', heq⟩ := exists_of_parseSessionLivelinessKey huuid
            simp only [List.append_cancel_left_eq, List.cons.injEq, true_and] at heq
            have hkind := (append_cons_inj (by decide) (by decide) heq).1
            exact absurd hkind (by decide)

/-- A user key may look like a reserved name. -/
theorem keySpace_exact_metaSession :
    buildKey (ascii "site/sitos") (ascii "session/s1") (ascii "meta/session/s2") =
        some (ascii "site/sitos/session/s1/meta/session/s2") ∧
      parseKey (ascii "site/sitos") (ascii "site/sitos/session/s1/meta/session/s2") =
        some ⟨.session, ascii "s1", [], ascii "meta/session/s2", false, none⟩ := by
  have hpre : isValidPrefix (ascii "site/sitos") = true := by decide
  have hbuild : (Route.value (ascii "session/s1") (ascii "meta/session/s2")).build
      (ascii "site/sitos") = some (ascii "site/sitos/session/s1/meta/session/s2") := by decide
  obtain ⟨parsed, hroute, hparsed⟩ := (keySpace_exact hpre).2.1 _ _ hbuild
  refine ⟨hbuild, hparsed.trans (hroute.symm.trans ?_)⟩
  decide

end Sitos.Key
