import Sitos.Client.StoreList

/-!
# Two readers of one session

A session view reads the overlay over the snapshot on every call.  A cache copies
both through wire queries when it attaches and then reads its own map.  Without
writes in between they answer alike: the same values, the same keys in the same
order and the same refusals.
-/

namespace Sitos.ReadModel

open Sitos.AckResult
open Sitos.Bytes
open Sitos.Core
open Sitos.Key
open Sitos.ListPrefix
open Sitos.Query
open Sitos.Sample
open Sitos.StoreList
open Sitos.Value

/-! ## The session view -/

structure Readers where
  overlay : InMemoryEngine
  snapshot : InMemoryEngine

/-- The readers of the session that the view was opened on. -/
def acquireReaders (node : NodeReaders) (sid : ByteString) : Except Failure Readers :=
  match node.sessions sid with
  | none => .error (.notFound, "session or parameter not found")
  | some record =>
      if !record.admits then .error (.notFound, "session or parameter not found")
      else if !record.isActive then .error (.stateLost, "session parameter state was released")
      else
        match record.overlay, record.snapshot with
        | some overlay, some snapshot => .ok ⟨overlay, snapshot⟩
        | _, _ => .error (.notFound, "session or parameter not found")

def malformedPayload : Failure := (.error, "malformed parameter payload")

def decoded (stored : ByteString) : Except Failure ParamValue :=
  match decode stored with
  | none => .error malformedPayload
  | some value => .ok value

def viewRead (readers : Readers) (key : ByteString) : Except Failure ParamValue :=
  match readers.overlay.find key with
  | some stored => decoded stored
  | none =>
      match readers.snapshot.find key with
      | none => .error (.notFound, "session or parameter not found")
      | some stored => decoded stored

def viewGet (acquired : Except Failure Readers) (key : ByteString) : Except Failure ParamValue :=
  if !isValidKey key then .error (.invalidKey, "invalid key")
  else acquired.bind fun readers => viewRead readers key

def viewContains (acquired : Except Failure Readers) (key : ByteString) : Except Failure Bool :=
  if !isValidKey key then .error (.invalidKey, "invalid key")
  else
    acquired.bind fun readers =>
      match viewRead readers key with
      | .ok _ => .ok true
      | .error failure => if failure.1 = .notFound then .ok false else .error failure

/-- The entries decoded in order, unless one of them is malformed. -/
def decodeEntries : List (ByteString × ByteString) → Except Failure (List ListItem)
  | [] => .ok []
  | (key, stored) :: entries => do
      let value ← decoded stored
      let items ← decodeEntries entries
      .ok ((key, value) :: items)

/-- What the overlay lists shadows the snapshot. -/
def viewItems (readers : Readers) (listPrefix : ByteString) : Except Failure (List ListItem) := do
  let overlayItems ← decodeEntries (InMemoryEngine.list readers.overlay listPrefix)
  let overlayKeys := overlayItems.map Prod.fst
  let snapshotItems ← decodeEntries
    ((InMemoryEngine.list readers.snapshot listPrefix).filter fun entry => entry.1 ∉ overlayKeys)
  .ok (overlayItems ++ snapshotItems)

def viewList (acquired : Except Failure Readers) (listPrefix : ByteString) (sink : ListSink) :
    ListRun :=
  if !validateListPrefix listPrefix then ⟨.error (.invalidKey, "invalid list prefix"), []⟩
  else
    match acquired.bind fun readers => viewItems readers listPrefix with
    | .error failure => ⟨.error failure, []⟩
    | .ok values => ⟨.ok (), deliver sink [] (SortedMap.sortByKey values)⟩

/-! ## The cache -/

abbrev ValueStore := SortedMap ByteString ParamValue

def scopeQuery (keyPrefix scope : ByteString) : ByteString :=
  keyPrefix ++ slash :: scope ++ ascii "/**"

def isExpectedReply (sid : ByteString) (snapshot : Bool) (parsed : ParsedKey) : Bool :=
  !parsed.isBatch &&
    ((snapshot && parsed.kind == .snapshot && parsed.sid == sid) ||
      (!snapshot && parsed.kind == .session && parsed.sid == sid))

def decodeGetReply (keyPrefix sid : ByteString) (snapshot : Bool) (reply : Reply) :
    Except Failure ListItem :=
  match (parseKey keyPrefix reply.key).filter (isExpectedReply sid snapshot) with
  | none => .error (.error, "transport returned an invalid cache key")
  | some parsed =>
      if reply.encodingId = kSitosV1Batch then
        .error (.error, "transport returned a batch for a value query")
      else if reply.encodingId = kSitosV1 then
        match decode reply.payload with
        | none => .error (.error, "transport returned malformed payload")
        | some value => .ok (parsed.relativeKey, value)
      else .ok (parsed.relativeKey, .bytes reply.payload)

/-- The replies stored one after the other, up to the first refused one. -/
def storeReplies (keyPrefix sid : ByteString) (snapshot : Bool) :
    List Reply → ValueStore → Except Failure ValueStore
  | [], out => .ok out
  | reply :: replies, out => do
      let item ← decodeGetReply keyPrefix sid snapshot reply
      storeReplies keyPrefix sid snapshot replies (out.insertOrAssign item.1 item.2)

def fetch (keyPrefix : ByteString) (get : ByteString → Except Failure (List Reply))
    (sid scope : ByteString) (snapshot : Bool) : Except Failure ValueStore := do
  let replies ← get (scopeQuery keyPrefix (scope ++ sid))
  storeReplies keyPrefix sid snapshot replies SortedMap.empty

structure CacheState where
  snapshotBaseline : ValueStore
  effectiveMap : ValueStore

/-- `BuildCandidate` when the subscribers are declared and nothing is buffered. -/
def buildCandidate (keyPrefix : ByteString) (get : ByteString → Except Failure (List Reply))
    (sid : ByteString) : Except Failure CacheState := do
  let snapshot ← fetch keyPrefix get sid (ascii "snap/") true
  let overlay ← fetch keyPrefix get sid (ascii "session/") false
  .ok ⟨snapshot, snapshot.assignAll overlay.entries⟩

def cacheGetShared (state : CacheState) (key : ByteString) : Except Failure ParamValue :=
  if !isValidKey key then .error (.invalidKey, "invalid cache key")
  else
    match state.effectiveMap.find key with
    | none => .error (.notFound, "parameter key not found")
    | some value => .ok value

def cacheContains (state : CacheState) (key : ByteString) : Except Failure Bool :=
  if !isValidKey key then .error (.invalidKey, "invalid cache key")
  else .ok (state.effectiveMap.find key).isSome

/-- The map is unordered: `iterated` is the order in which it happens to be walked. -/
def cacheList (iterated : List ListItem) (listPrefix : ByteString) (sink : ListSink) : ListRun :=
  if !validateCacheListPrefix listPrefix then ⟨.error (.invalidKey, "invalid List prefix"), []⟩
  else
    ⟨.ok (), deliver sink []
      (SortedMap.sortByKey (iterated.filter fun item => listPrefix.isPrefixOf item.1))⟩

/-! ## What both read -/

/-- Valid keys with values that decode. -/
def IsReadable (engine : InMemoryEngine) : Prop :=
  ∀ entry ∈ engine.entries, isValidKey entry.1 = true ∧ (decode entry.2).isSome = true

/-- A key seen through the overlay. -/
def readThrough (readers : Readers) (key : ByteString) : Option ParamValue :=
  match readers.overlay.find key with
  | some stored => decode stored
  | none => (readers.snapshot.find key).bind decode

theorem IsReadable.decode_find {engine : InMemoryEngine} (hengine : IsReadable engine)
    {key stored : ByteString} (hfind : engine.find key = some stored) :
    ∃ value, decode stored = some value := by
  have hentry := hengine (key, stored) ((SortedMap.mem_entries_iff _ _ _).mpr hfind)
  exact Option.isSome_iff_exists.mp hentry.2

theorem decoded_eq {stored : ByteString} {value : ParamValue} (hvalue : decode stored = some value) :
    decoded stored = .ok value := by
  rw [decoded, hvalue]

theorem viewRead_eq {readers : Readers} (hoverlay : IsReadable readers.overlay)
    (hsnapshot : IsReadable readers.snapshot) (key : ByteString) :
    viewRead readers key =
      match readThrough readers key with
      | none => .error (.notFound, "session or parameter not found")
      | some value => .ok value := by
  unfold viewRead readThrough
  cases hfound : readers.overlay.find key with
  | some stored =>
      obtain ⟨value, hvalue⟩ := hoverlay.decode_find hfound
      simp only [hvalue, decoded_eq hvalue]
  | none =>
      cases hbelow : readers.snapshot.find key with
      | none => rfl
      | some stored =>
          obtain ⟨value, hvalue⟩ := hsnapshot.decode_find hbelow
          simp only [Option.bind_some, hvalue, decoded_eq hvalue]

/-! ## The view's list -/

theorem decodeEntries_eq {entries : List (ByteString × ByteString)}
    (hdecodes : ∀ entry ∈ entries, (decode entry.2).isSome = true) :
    decodeEntries entries = .ok (itemsOf [] entries) := by
  induction entries with
  | nil => rfl
  | cons entry entries ih =>
      have hrest := ih fun other hother => hdecodes other (List.mem_cons_of_mem _ hother)
      obtain ⟨value, hvalue⟩ := Option.isSome_iff_exists.mp (hdecodes entry List.mem_cons_self)
      rw [decodeEntries, decoded_eq hvalue, hrest, itemsOf_cons, itemOf, hvalue]
      rfl

theorem nodup_keys_of_sorted {items : List ListItem}
    (hsorted : items.Pairwise fun first second => first.1 < second.1) :
    (items.map Prod.fst).Nodup :=
  SortedMap.nodup_keys ⟨items, hsorted⟩

/-- An entry that a list of a readable engine finds. -/
theorem mem_list_iff {engine : InMemoryEngine} {listPrefix key stored : ByteString} :
    (key, stored) ∈ InMemoryEngine.list engine listPrefix ↔
      listPrefix <+: key ∧ engine.find key = some stored := by
  rw [InMemoryEngine.list_eq_filter, List.mem_filter, SortedMap.mem_entries_iff,
    List.isPrefixOf_iff_prefix, and_comm]

theorem sorted_list (engine : InMemoryEngine) (listPrefix : ByteString) :
    (InMemoryEngine.list engine listPrefix).Pairwise fun first second => first.1 < second.1 := by
  rw [InMemoryEngine.list_eq_filter]
  exact engine.sorted.filter _

/-- The items of the view are the entries seen through the overlay, each key once. -/
theorem viewItems_spec {readers : Readers} (hoverlay : IsReadable readers.overlay)
    (hsnapshot : IsReadable readers.snapshot) (listPrefix : ByteString) :
    ∃ items, viewItems readers listPrefix = .ok items ∧ (items.map Prod.fst).Nodup ∧
      ∀ key value, (key, value) ∈ items ↔
        listPrefix <+: key ∧ readThrough readers key = some value := by
  let listed := InMemoryEngine.list readers.overlay listPrefix
  let overlayItems := itemsOf [] listed
  let below := (InMemoryEngine.list readers.snapshot listPrefix).filter fun entry =>
    entry.1 ∉ overlayItems.map Prod.fst
  have hlisted : decodeEntries listed = .ok overlayItems := by
    apply decodeEntries_eq
    rintro ⟨key, stored⟩ hentry
    obtain ⟨value, hvalue⟩ := hoverlay.decode_find (mem_list_iff.mp hentry).2
    simp [hvalue]
  have hbelow : decodeEntries below = .ok (itemsOf [] below) := by
    apply decodeEntries_eq
    rintro ⟨key, stored⟩ hentry
    obtain ⟨value, hvalue⟩ :=
      hsnapshot.decode_find (mem_list_iff.mp (List.mem_filter.mp hentry).1).2
    simp [hvalue]
  -- the shadowing keys are the keys of the overlay below the prefix
  have hshadow : ∀ key, key ∈ overlayItems.map Prod.fst ↔
      listPrefix <+: key ∧ (readers.overlay.find key).isSome = true := by
    intro key
    rw [List.mem_map]
    constructor
    · rintro ⟨⟨key, value⟩, hitem, rfl⟩
      obtain ⟨-, stored, hentry, -⟩ := mem_itemsOf_iff.mp hitem
      obtain ⟨hstart, hfind⟩ := mem_list_iff.mp hentry
      exact ⟨hstart, by simp [hfind]⟩
    · rintro ⟨hstart, hsome⟩
      obtain ⟨stored, hfind⟩ := Option.isSome_iff_exists.mp hsome
      obtain ⟨value, hvalue⟩ := hoverlay.decode_find hfind
      exact ⟨(key, value), mem_itemsOf_iff.mpr
        ⟨List.nil_prefix, stored, mem_list_iff.mpr ⟨hstart, hfind⟩, hvalue⟩, rfl⟩
  refine ⟨overlayItems ++ itemsOf [] below, ?_, ?_, fun key value => ?_⟩
  · have hview : viewItems readers listPrefix = (decodeEntries listed).bind fun overlayItems =>
        (decodeEntries ((InMemoryEngine.list readers.snapshot listPrefix).filter fun entry =>
          entry.1 ∉ overlayItems.map Prod.fst)).bind fun snapshotItems =>
            .ok (overlayItems ++ snapshotItems) := rfl
    rw [hview, hlisted]
    show (decodeEntries below).bind _ = _
    rw [hbelow]
    rfl
  · rw [List.map_append]
    refine List.nodup_append'.mpr ⟨?_, ?_, ?_⟩
    · exact nodup_keys_of_sorted (sorted_itemsOf [] (sorted_list _ _))
    · exact nodup_keys_of_sorted (sorted_itemsOf [] ((sorted_list _ _).filter _))
    · intro key hover hsnap
      obtain ⟨⟨key, value⟩, hitem, rfl⟩ := List.mem_map.mp hsnap
      obtain ⟨-, stored, hentry, -⟩ := mem_itemsOf_iff.mp hitem
      have hfree := (List.mem_filter.mp hentry).2
      exact absurd hover (by simpa using hfree)
  · rw [List.mem_append, mem_itemsOf_iff, mem_itemsOf_iff]
    simp only [List.nil_prefix, true_and, below, List.mem_filter, decide_eq_true_eq, hshadow,
      listed, mem_list_iff]
    unfold readThrough
    cases hfind : readers.overlay.find key with
    | some stored =>
        constructor
        · rintro (⟨_, ⟨hstart, hsame⟩, hvalue⟩ | ⟨_, ⟨⟨hstart, _⟩, hfree⟩, _⟩)
          · obtain rfl := Option.some.inj hsame
            exact ⟨hstart, hvalue⟩
          · exact absurd ⟨hstart, rfl⟩ hfree
        · rintro ⟨hstart, hvalue⟩
          exact .inl ⟨stored, ⟨hstart, rfl⟩, hvalue⟩
    | none =>
        constructor
        · rintro (⟨_, ⟨_, hnone⟩, _⟩ | ⟨stored, ⟨⟨hstart, hbelow⟩, _⟩, hvalue⟩)
          · cases hnone
          · exact ⟨hstart, by rw [hbelow]; exact hvalue⟩
        · rintro ⟨hstart, hvalue⟩
          obtain ⟨stored, hbelow, hvalue⟩ := Option.bind_eq_some_iff.mp hvalue
          exact .inr ⟨stored, ⟨⟨hstart, hbelow⟩, by simp⟩, hvalue⟩

/-! ## What the cache loads -/

section Load

variable {replyElsewhere : ByteString → List Answer} {node : NodeReaders}
  {get : ByteString → Except Failure (List Reply)} {sid : ByteString}

/-- The scope that a fetch reads. -/
def fetchedScope (sid : ByteString) (snapshot : Bool) : Scope :=
  if snapshot then .snap sid else .session sid

theorem decodeGetReply_entryReply {snapshot : Bool} {entry : ByteString × ByteString}
    {value : ParamValue} (hpre : isValidPrefix node.keyPrefix = true)
    (hsid : isValidSessionId sid = true) (hkey : isValidKey entry.1 = true)
    (hvalue : decode entry.2 = some value) :
    decodeGetReply node.keyPrefix sid snapshot
        (entryReply node.keyPrefix (scopeText (fetchedScope sid snapshot)) entry) =
      .ok (entry.1, value) := by
  have hscope : IsValidScope (fetchedScope sid snapshot) := by
    cases snapshot <;> exact hsid
  obtain ⟨parsed, hparsed, hexpected, hbatch, hrelative⟩ := parseKey_entryReply hpre hscope hkey
  have hreply : isExpectedReply sid snapshot parsed = true := by
    cases snapshot <;> simpa [isExpectedReply, hbatch, isExpectedKind, fetchedScope] using hexpected
  rw [decodeGetReply, hparsed, Option.filter_some, if_pos hreply]
  simp [entryReply, hvalue, hrelative]

theorem storeReplies_eq {snapshot : Bool} {entries : List (ByteString × ByteString)}
    (hpre : isValidPrefix node.keyPrefix = true) (hsid : isValidSessionId sid = true)
    (hentries : ∀ entry ∈ entries, isValidKey entry.1 = true ∧ (decode entry.2).isSome = true)
    (out : ValueStore) :
    storeReplies node.keyPrefix sid snapshot
        (entries.map (entryReply node.keyPrefix (scopeText (fetchedScope sid snapshot)))) out =
      .ok (out.assignAll (itemsOf [] entries)) := by
  induction entries generalizing out with
  | nil => rfl
  | cons entry entries ih =>
      obtain ⟨hkey, hdecodes⟩ := hentries entry List.mem_cons_self
      obtain ⟨value, hvalue⟩ := Option.isSome_iff_exists.mp hdecodes
      have hrest := ih (fun other hother => hentries other (List.mem_cons_of_mem _ hother))
        (out.insertOrAssign entry.1 value)
      rw [List.map_cons, storeReplies, decodeGetReply_entryReply hpre hsid hkey hvalue,
        itemsOf_cons, itemOf, hvalue]
      exact hrest

/-- A fetch stores one reply for each entry of the scope. -/
theorem exists_fetched {snapshot : Bool} {scope : ByteString} {engine : InMemoryEngine}
    (hlossless : Lossless replyElsewhere node get) (hsid : isValidSessionId sid = true)
    (hpath : scopeText (fetchedScope sid snapshot) = scope ++ sid)
    (hserved : servedReader node (fetchedScope sid snapshot) = some engine) :
    ∃ entries : List (ByteString × ByteString), entries.Perm (InMemoryEngine.list engine []) ∧
      fetch node.keyPrefix get sid scope snapshot =
        storeReplies node.keyPrefix sid snapshot
          (entries.map (entryReply node.keyPrefix (scopeText (fetchedScope sid snapshot))))
          SortedMap.empty := by
  have hscope : IsValidScope (fetchedScope sid snapshot) := by
    cases snapshot <;> exact hsid
  obtain ⟨entries, hperm, hget⟩ := exists_delivered hlossless hscope hserved (.inl rfl)
  have hselector : scopeQuery node.keyPrefix (scope ++ sid) =
      buildScopeQuery node.keyPrefix (scopeText (fetchedScope sid snapshot)) (safeParent []) := by
    have hstars : ascii "/**" = slash :: ascii "**" := by decide
    rw [scopeQuery, buildScopeQuery, hpath, hstars]
    rfl
  have hall : requestedStart [] = [] := rfl
  rw [hall] at hperm
  refine ⟨entries, hperm, ?_⟩
  rw [fetch, hselector, hget]
  rfl

/-- A fetch holds the decoded contents of the scope. -/
theorem fetch_spec {snapshot : Bool} {scope : ByteString} {engine : InMemoryEngine}
    (hpre : isValidPrefix node.keyPrefix = true) (hlossless : Lossless replyElsewhere node get)
    (hsid : isValidSessionId sid = true)
    (hpath : scopeText (fetchedScope sid snapshot) = scope ++ sid)
    (hserved : servedReader node (fetchedScope sid snapshot) = some engine)
    (hengine : IsReadable engine) :
    ∃ store : ValueStore, fetch node.keyPrefix get sid scope snapshot = .ok store ∧
      ∀ key, store.find key = (engine.find key).bind decode := by
  obtain ⟨entries, hperm, hfetch⟩ := exists_fetched hlossless hsid hpath hserved
  have hentries : ∀ entry ∈ entries, isValidKey entry.1 = true ∧ (decode entry.2).isSome = true := by
    rintro ⟨key, stored⟩ hentry
    have hfind := (mem_list_iff.mp (hperm.subset hentry)).2
    exact hengine _ ((SortedMap.mem_entries_iff _ _ _).mpr hfind)
  refine ⟨SortedMap.empty.assignAll (itemsOf [] entries), ?_, fun key => ?_⟩
  · rw [hfetch]
    exact storeReplies_eq hpre hsid hentries SortedMap.empty
  · have hitems : (itemsOf [] entries).Perm (itemsOf [] (InMemoryEngine.list engine [])) :=
      hperm.filterMap _
    have hnodup : ((itemsOf [] entries).map Prod.fst).Nodup :=
      (hitems.map Prod.fst).nodup_iff.mpr
        (nodup_keys_of_sorted (sorted_itemsOf [] (sorted_list engine [])))
    apply Option.ext
    intro value
    rw [SortedMap.find_assignAll hnodup, hitems.mem_iff, mem_itemsOf_iff, Option.bind_eq_some_iff]
    simp [mem_list_iff]

end Load

/-- The map of a freshly attached cache is what the view reads through the overlay. -/
theorem buildCandidate_spec {replyElsewhere : ByteString → List Answer} {node : NodeReaders}
    {get : ByteString → Except Failure (List Reply)} {sid : ByteString} {readers : Readers}
    (hpre : isValidPrefix node.keyPrefix = true) (hlossless : Lossless replyElsewhere node get)
    (hsid : isValidSessionId sid = true)
    (hsnap : servedReader node (.snap sid) = some readers.snapshot)
    (hsession : servedReader node (.session sid) = some readers.overlay)
    (hoverlay : IsReadable readers.overlay) (hsnapshot : IsReadable readers.snapshot) :
    ∃ state, buildCandidate node.keyPrefix get sid = .ok state ∧
      ∀ key, state.effectiveMap.find key = readThrough readers key := by
  obtain ⟨baseline, hbaseline, hbelow⟩ :
      ∃ store : ValueStore, fetch node.keyPrefix get sid (ascii "snap/") true = .ok store ∧
        ∀ key, store.find key = (readers.snapshot.find key).bind decode :=
    fetch_spec hpre hlossless hsid rfl hsnap hsnapshot
  obtain ⟨overlay, hfetched, habove⟩ :
      ∃ store : ValueStore, fetch node.keyPrefix get sid (ascii "session/") false = .ok store ∧
        ∀ key, store.find key = (readers.overlay.find key).bind decode :=
    fetch_spec hpre hlossless hsid rfl hsession hoverlay
  refine ⟨⟨baseline, baseline.assignAll overlay.entries⟩, ?_, fun key => ?_⟩
  · rw [buildCandidate, hbaseline]
    show (fetch node.keyPrefix get sid (ascii "session/") false).bind _ = _
    rw [hfetched]
    rfl
  · apply Option.ext
    intro value
    have hkeys : key ∈ overlay.entries.map Prod.fst ↔ (readers.overlay.find key).isSome = true := by
      rw [List.mem_map]
      constructor
      · rintro ⟨⟨key, value⟩, hentry, rfl⟩
        rw [SortedMap.mem_entries_iff, habove] at hentry
        obtain ⟨stored, hfind, -⟩ := Option.bind_eq_some_iff.mp hentry
        simp [hfind]
      · intro hsome
        obtain ⟨stored, hfind⟩ := Option.isSome_iff_exists.mp hsome
        obtain ⟨value, hvalue⟩ := hoverlay.decode_find hfind
        refine ⟨(key, value), ?_, rfl⟩
        rw [SortedMap.mem_entries_iff, habove, hfind]
        exact hvalue
    rw [SortedMap.find_assignAll overlay.nodup_keys, SortedMap.mem_entries_iff, habove, hbelow, hkeys]
    unfold readThrough
    cases readers.overlay.find key with
    | some stored => simp
    | none => simp

/-! ## The same answers -/

/-- The readers of a view also serve the queries of a cache. -/
theorem servedReader_of_acquireReaders {node : NodeReaders} {sid : ByteString} {readers : Readers}
    (hacquired : acquireReaders node sid = .ok readers) :
    servedReader node (.snap sid) = some readers.snapshot ∧
      servedReader node (.session sid) = some readers.overlay := by
  unfold acquireReaders at hacquired
  cases hrecord : node.sessions sid with
  | none => simp [hrecord] at hacquired
  | some record =>
      simp only [hrecord] at hacquired
      split_ifs at hacquired with hadmits hactive
      cases hoverlay : record.overlay <;> cases hsnapshot : record.snapshot <;>
        simp only [hoverlay, hsnapshot] at hacquired
      all_goals try cases hacquired
      simp_all [servedReader]

/-- A result without the text of its failure. -/
def verdict {α : Type} (result : Except Failure α) : Except Status α :=
  result.mapError Prod.fst

/-- A view of an active session and a cache that just attached to it answer every read alike. -/
theorem view_agrees_with_cache {replyElsewhere : ByteString → List Answer} {node : NodeReaders}
    {get : ByteString → Except Failure (List Reply)} {sid : ByteString} {readers : Readers}
    (hpre : isValidPrefix node.keyPrefix = true) (hlossless : Lossless replyElsewhere node get)
    (hsid : isValidSessionId sid = true)
    (hacquired : acquireReaders node sid = .ok readers) (hoverlay : IsReadable readers.overlay) (hsnapshot : IsReadable readers.snapshot) :
    (∃ state, buildCandidate node.keyPrefix get sid = .ok state ∧
      (∀ key, verdict (viewGet (acquireReaders node sid) key) = verdict (cacheGetShared state key)) ∧
      (∀ key, verdict (viewContains (acquireReaders node sid) key) = verdict (cacheContains state key)) ∧
      ∀ iterated, iterated.Perm state.effectiveMap.entries → ∀ listPrefix sink,
        verdict (viewList (acquireReaders node sid) listPrefix sink).result =
            verdict (cacheList iterated listPrefix sink).result ∧
          (viewList (acquireReaders node sid) listPrefix sink).calls =
            (cacheList iterated listPrefix sink).calls) ∧
    ∀ listPrefix, validateListPrefix listPrefix = validateCacheListPrefix listPrefix := by
  obtain ⟨hsnap, hsession⟩ := servedReader_of_acquireReaders hacquired
  rw [hacquired]
  obtain ⟨state, hbuilt, hfind⟩ :=
    buildCandidate_spec hpre hlossless hsid hsnap hsession hoverlay hsnapshot
  refine ⟨⟨state, hbuilt, fun key => ?_, fun key => ?_, fun iterated hiterated listPrefix sink => ?_⟩,
    fun listPrefix => (validateCacheListPrefix_eq listPrefix).symm⟩
  · have hread := viewRead_eq hoverlay hsnapshot key
    simp only [viewGet, cacheGetShared, hfind]
    split_ifs
    · rfl
    · show verdict (viewRead readers key) = _
      rw [hread]
      cases readThrough readers key <;> rfl
  · have hread := viewRead_eq hoverlay hsnapshot key
    simp only [viewContains, cacheContains, hfind]
    split_ifs
    · rfl
    · simp only [Except.bind, hread]
      cases readThrough readers key <;> rfl
  · simp only [viewList, cacheList, validateCacheListPrefix_eq]
    split_ifs
    · exact ⟨rfl, rfl⟩
    · obtain ⟨items, hitems, hnodup, hmem⟩ := viewItems_spec hoverlay hsnapshot listPrefix
      have hsorted := state.effectiveMap.sorted.filter fun item => listPrefix.isPrefixOf item.1
      have hcache : (iterated.filter fun item => listPrefix.isPrefixOf item.1).Perm
          (state.effectiveMap.entries.filter fun item => listPrefix.isPrefixOf item.1) :=
        hiterated.filter _
      have hview : items.Perm
          (state.effectiveMap.entries.filter fun item => listPrefix.isPrefixOf item.1) := by
        refine (List.perm_ext_iff_of_nodup hnodup.of_map
          (nodup_keys_of_sorted hsorted).of_map).mpr ?_
        rintro ⟨key, value⟩
        rw [hmem, List.mem_filter, SortedMap.mem_entries_iff, hfind, List.isPrefixOf_iff_prefix,
          and_comm]
      simp only [Except.bind, hitems, SortedMap.sortByKey_eq hview hsorted,
        SortedMap.sortByKey_eq hcache hsorted]
      exact ⟨trivial, trivial⟩

/-- A session that shadows one of two snapshot keys. -/
theorem view_agrees_with_cache_shadowed :
    let overlay : InMemoryEngine := ⟨[(ascii "a", encode (.bool true))], by decide⟩
    let snapshot : InMemoryEngine :=
      ⟨[(ascii "a", encode (.bool false)), (ascii "b", encode (.bool false))], by decide⟩
    let node : NodeReaders := ⟨ascii "sitos", SortedMap.empty, fun _ =>
      some ⟨true, true, some snapshot, some overlay⟩⟩
    ∃ state, buildCandidate node.keyPrefix (directGet (fun _ => []) node) (ascii "s1") = .ok state ∧
      verdict (viewGet (acquireReaders node (ascii "s1")) (ascii "a")) =
        verdict (cacheGetShared state (ascii "a")) := by
  intro overlay snapshot node
  have hoverlay : IsReadable overlay := by
    unfold IsReadable
    decide
  have hsnapshot : IsReadable snapshot := by
    unfold IsReadable
    decide
  have hacquired : acquireReaders node (ascii "s1") = .ok ⟨overlay, snapshot⟩ := rfl
  obtain ⟨⟨state, hbuilt, hget, _⟩, _⟩ := view_agrees_with_cache (by decide)
    (lossless_directGet (fun _ => []) node) (by decide) hacquired hoverlay hsnapshot
  exact ⟨state, hbuilt, hget (ascii "a")⟩

end Sitos.ReadModel
