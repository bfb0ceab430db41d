import Sitos.Core.Assignments
import Sitos.Cache.Mutations
import Sitos.Client.ParamSubscription
import Sitos.Node.Apply

/-!
# The three interpreters of a sample

The node, the cache and the subscription each read the same samples.  Here they
are compared on samples of one active session: what the node writes to the
overlay, what the cache applies and what the subscription reports.
-/

namespace Sitos.Agreement

open Sitos.Bytes
open Sitos.Apply
open Sitos.Assignments
open Sitos.Batch
open Sitos.Key
open Sitos.Mutations
open Sitos.Sample
open Sitos.Subscription
open Sitos.Value

abbrev ByteMap := ByteString → Option ByteString

/-- An in-memory overlay with the changes made to it. -/
structure Overlay where
  store : ByteMap
  changes : List (Change ByteString)

/-- A change of the overlay as an assignment. -/
def assignment : Change ByteString → ByteString × Option ByteString
  | .put key value => (key, some value)
  | .delete key => (key, none)

def Overlay.apply (overlay : Overlay) (change : Change ByteString) : Overlay :=
  { store := Function.update overlay.store (assignment change).1 (assignment change).2
    changes := overlay.changes ++ [change] }

def Overlay.applyAll (overlay : Overlay) (changes : List (Change ByteString)) : Overlay :=
  changes.foldl Overlay.apply overlay

/-- The overlay of an active session never fails a call. -/
def overlayEngine : Engines Overlay where
  put overlay _ key value := (overlay.apply (.put key value), .returned true)
  delete overlay _ key := (overlay.apply (.delete key), .returned true)

/-- The node's treatment of an acknowledgement-free sample while the session is
active. -/
def nodeApply (keyPrefix sid : ByteString) (overlay : Overlay) (sample : TransportSample) :
    Overlay :=
  (applyParameterSample overlayEngine
    (fun other => if other = sid then .active else .unknown)
    (fun overlay _ _ => ⟨overlay, none, [], none⟩) keyPrefix overlay sample none).state

def nodeChanges (keyPrefix sid : ByteString) (sample : TransportSample) :
    List (Change ByteString) :=
  (nodeApply keyPrefix sid ⟨fun _ => none, []⟩ sample).changes

def cacheMutations (keyPrefix sid : ByteString) (sample : TransportSample) :
    List Mutation :=
  (decodeSample keyPrefix sid sample).getD []

/-- A stored value as its readers see it. -/
def decodeValue (stored : ByteString) : Option ParamValue :=
  (decode stored).map canonical

/-- The sample belongs to the session's overlay. -/
def Addressed (keyPrefix sid : ByteString) (sample : TransportSample) : Prop :=
  ∃ parsed, parseKey keyPrefix sample.key = some parsed ∧ parsed.kind = .session ∧
    parsed.sid = sid

/-- The sample names one key and not the batch path. -/
def Ordinary (keyPrefix : ByteString) (sample : TransportSample) : Prop :=
  ∃ parsed, parseKey keyPrefix sample.key = some parsed ∧ parsed.isBatch = false

/-- A put of one key that claims to carry a batch. -/
def Misencoded (keyPrefix : ByteString) (sample : TransportSample) : Prop :=
  Ordinary keyPrefix sample ∧ sample.kind = .put ∧ sample.encodingId = kSitosV1Batch

/-- A put of one key whose payload is not a value. -/
def Undecodable (keyPrefix : ByteString) (sample : TransportSample) : Prop :=
  Ordinary keyPrefix sample ∧ sample.kind = .put ∧ sample.encodingId = kSitosV1 ∧
    decode sample.payload = none

/-- The node's writes mean what the cache applies. -/
def NodeAgrees (keyPrefix sid : ByteString) (sample : TransportSample) : Prop :=
  (nodeChanges keyPrefix sid sample).map (Change.map decodeValue) =
    (cacheMutations keyPrefix sid sample).map (Change.map fun value => some (canonical value))

/-! ## What the node writes -/

@[simp]
theorem applyAll_nil (overlay : Overlay) : overlay.applyAll [] = overlay := rfl

theorem applyAll_changes (overlay : Overlay) (changes : List (Change ByteString)) :
    (overlay.applyAll changes).changes = overlay.changes ++ changes := by
  induction changes generalizing overlay with
  | nil => simp
  | cons change changes ih =>
      rw [Overlay.applyAll, List.foldl_cons]
      refine (ih (overlay.apply change)).trans ?_
      simp [Overlay.apply]

theorem applyAll_store (overlay : Overlay) (changes : List (Change ByteString)) :
    (overlay.applyAll changes).store = assignAll overlay.store (changes.map assignment) := by
  induction changes generalizing overlay with
  | nil => rfl
  | cons change changes ih => exact ih (overlay.apply change)

theorem putEntries_overlayEngine (target : Target) (index : ℕ)
    (entries : List EncodedBatchEntry) (overlay : Overlay)
    (progress : Option AckApplyProgress) :
    (putEntries overlayEngine target index entries overlay progress).state =
      overlay.applyAll (entries.map fun entry => .put entry.key entry.value) := by
  induction entries generalizing index overlay progress with
  | nil => rfl
  | cons entry entries ih =>
      simp only [putEntries, overlayEngine, List.map_cons, Overlay.applyAll, List.foldl_cons]
      exact ih _ _ _

theorem materialize_of_valid {entries : List BatchEntry} (index : ℕ)
    (hvalid : entries.all fun entry => isValidKey entry.key) :
    materialize index entries =
      .ok (entries.map fun entry => ⟨entry.key, encode entry.value⟩) := by
  induction entries generalizing index with
  | nil => rfl
  | cons entry entries ih =>
      rw [List.all_cons, Bool.and_eq_true] at hvalid
      simp [materialize, hvalid.1, ih (index + 1) hvalid.2, Except.map]

theorem materialize_of_invalid {entries : List BatchEntry} (index : ℕ)
    (hinvalid : ¬ entries.all fun entry => isValidKey entry.key) :
    ∃ failed, materialize index entries = .error failed := by
  induction entries generalizing index with
  | nil => exact absurd rfl hinvalid
  | cons entry entries ih =>
      by_cases hentry : isValidKey entry.key
      · have hrest : ¬ entries.all fun entry => isValidKey entry.key := by
          simpa [List.all_cons, hentry] using hinvalid
        obtain ⟨failed, hfailed⟩ := ih (index + 1) hrest
        exact ⟨failed, by simp [materialize, hentry, hfailed, Except.map]⟩
      · exact ⟨index, by simp [materialize, hentry]⟩

/-- The changes a batch payload stands for at the node. -/
def batchChanges (payload : ByteString) : List (Change ByteString) :=
  match (decodeBatch payload).bind batchMutations with
  | none => []
  | some mutations => mutations.map (Change.map encode)

theorem applyBatch_overlayEngine (target : Target) (payload : ByteString)
    (overlay : Overlay) (progress : Option AckApplyProgress) :
    (applyBatch overlayEngine overlay target payload progress).state =
      overlay.applyAll (batchChanges payload) := by
  unfold applyBatch batchChanges
  cases decodeBatch payload with
  | none => rfl
  | some entries =>
      simp only [Option.bind_some, batchMutations]
      by_cases hvalid : entries.all fun entry => isValidKey entry.key
      · rw [materialize_of_valid 0 hvalid, if_pos hvalid]
        simp only [putEntries_overlayEngine, List.map_map]
        rfl
      · obtain ⟨failed, hfailed⟩ := materialize_of_invalid 0 hvalid
        rw [hfailed, if_neg hvalid]
        rfl

/-- The change an ordinary sample stands for at the node. -/
def ordinaryChange (relativeKey : ByteString) (sample : TransportSample) :
    Change ByteString :=
  if sample.kind = .delete then .delete relativeKey
  else if sample.encodingId ≠ kSitosV1 then
    .put relativeKey (encode (.bytes sample.payload))
  else .put relativeKey sample.payload

theorem applyWrite_overlayEngine (target : Target) (relativeKey : ByteString)
    (sample : TransportSample) (overlay : Overlay) :
    (applyWrite overlayEngine overlay target relativeKey sample none).state =
      overlay.applyAll [ordinaryChange relativeKey sample] := by
  unfold applyWrite ordinaryChange
  split_ifs with hdelete hencoding hinvalid
  · rfl
  · rfl
  · exact absurd hinvalid.1 (by simp)
  · rfl

/-- Everything the node does with a sample of the session. -/
def writtenChanges (parsed : ParsedKey) (sample : TransportSample) :
    List (Change ByteString) :=
  if parsed.isBatch then
    if isBatchPut sample then batchChanges sample.payload else []
  else [ordinaryChange parsed.relativeKey sample]

theorem nodeApply_eq {keyPrefix sid : ByteString} {sample : TransportSample}
    {parsed : ParsedKey} (hparsed : parseKey keyPrefix sample.key = some parsed)
    (hkind : parsed.kind = .session) (hsid : parsed.sid = sid) (overlay : Overlay) :
    nodeApply keyPrefix sid overlay sample =
      overlay.applyAll (writtenChanges parsed sample) := by
  simp only [nodeApply, applyParameterSample, hparsed, writtenChanges]
  by_cases hbatch : parsed.isBatch
  · simp only [hbatch, if_true, applyBatchSample, hkind, hsid]
    by_cases hput : isBatchPut sample
    · simpa [hput] using applyBatch_overlayEngine _ _ _ _
    · simp [hput, reject]
  · simpa [hbatch, hkind, hsid] using applyWrite_overlayEngine _ _ _ _

theorem nodeChanges_eq {keyPrefix sid : ByteString} {sample : TransportSample}
    {parsed : ParsedKey} (hparsed : parseKey keyPrefix sample.key = some parsed)
    (hkind : parsed.kind = .session) (hsid : parsed.sid = sid) :
    nodeChanges keyPrefix sid sample = writtenChanges parsed sample := by
  rw [nodeChanges, nodeApply_eq hparsed hkind hsid, applyAll_changes]
  rfl

/-! ## The cache and the subscription -/

/-- What the cache makes of a sample of its session. -/
theorem cacheMutations_eq {keyPrefix sid : ByteString} {sample : TransportSample}
    {parsed : ParsedKey} (hparsed : parseKey keyPrefix sample.key = some parsed)
    (hkind : parsed.kind = .session) (hsid : parsed.sid = sid) :
    cacheMutations keyPrefix sid sample =
      if sample.kind = .delete then
        if parsed.isBatch then [] else [.delete parsed.relativeKey]
      else if parsed.isBatch then
        if sample.encodingId = kSitosV1Batch then
          ((decodeBatch sample.payload).bind batchMutations).getD []
        else []
      else if sample.encodingId = kSitosV1Batch then []
      else if sample.encodingId = kSitosV1 then
        ((decode sample.payload).map fun value =>
          [Change.put parsed.relativeKey value]).getD []
      else [.put parsed.relativeKey (.bytes sample.payload)] := by
  simp only [cacheMutations, decodeSample, Mutations.decodeOrdinary, hparsed, isExpected,
    hkind, hsid]
  by_cases hdelete : sample.kind = .delete
  · cases parsed.isBatch <;> simp [hdelete]
  · cases hbatch : parsed.isBatch with
    | true =>
        by_cases hencoding : sample.encodingId = kSitosV1Batch <;>
          simp [hdelete, hencoding]
    | false =>
        by_cases hencoding : sample.encodingId = kSitosV1Batch
        · simp [hdelete, hencoding]
        · by_cases hv1 : sample.encodingId = kSitosV1
          · cases hvalue : decode sample.payload with
            | none => simp [hdelete, hv1]
            | some value => simp [hdelete, hv1]
          · simp [hdelete, hencoding, hv1]

theorem decodeValue_encode (value : ParamValue) :
    decodeValue (encode value) = some (canonical (canonical value)) := by
  rw [decodeValue, decode_encode]
  rfl

theorem map_decodeValue_encode (mutations : List Mutation) :
    (mutations.map (Change.map encode)).map (Change.map decodeValue) =
      mutations.map (Change.map fun value => some (canonical value)) := by
  rw [List.map_map]
  apply List.map_congr_left
  intro mutation _
  cases mutation with
  | put key value => simp [Change.map, decodeValue_encode, canonical_canonical]
  | delete key => rfl

theorem batchChanges_agree (payload : ByteString) :
    (batchChanges payload).map (Change.map decodeValue) =
      (((decodeBatch payload).bind batchMutations).getD []).map
        (Change.map fun value => some (canonical value)) := by
  unfold batchChanges
  cases (decodeBatch payload).bind batchMutations with
  | none => rfl
  | some mutations => exact map_decodeValue_encode mutations

theorem nodeAgrees {keyPrefix sid : ByteString} {sample : TransportSample}
    (haddressed : Addressed keyPrefix sid sample)
    (hencoded : ¬ Misencoded keyPrefix sample)
    (hdecodable : ¬ Undecodable keyPrefix sample) : NodeAgrees keyPrefix sid sample := by
  obtain ⟨parsed, hparsed, hkind, hsid⟩ := haddressed
  rw [NodeAgrees, nodeChanges_eq hparsed hkind hsid, cacheMutations_eq hparsed hkind hsid]
  have hput : sample.kind ≠ .delete → sample.kind = .put := by
    cases sample.kind <;> simp
  cases hbatch : parsed.isBatch with
  | true =>
      by_cases hdelete : sample.kind = .delete
      · simp [writtenChanges, hbatch, hdelete, isBatchPut]
      · by_cases hencoding : sample.encodingId = kSitosV1Batch
        · simpa [writtenChanges, hbatch, isBatchPut, hput hdelete, hencoding] using
            batchChanges_agree sample.payload
        · simp [writtenChanges, hbatch, isBatchPut, hput hdelete, hencoding]
  | false =>
      have hordinary : Ordinary keyPrefix sample := ⟨parsed, hparsed, hbatch⟩
      by_cases hdelete : sample.kind = .delete
      · simp [writtenChanges, hbatch, hdelete, ordinaryChange, Change.map]
      · have hnotBatch : sample.encodingId ≠ kSitosV1Batch := fun hencoding =>
          hencoded ⟨hordinary, hput hdelete, hencoding⟩
        by_cases hv1 : sample.encodingId = kSitosV1
        · cases hvalue : decode sample.payload with
          | none => exact absurd ⟨hordinary, hput hdelete, hv1, hvalue⟩ hdecodable
          | some value =>
              simp [writtenChanges, hbatch, ordinaryChange, hv1, hput hdelete, hvalue,
                Change.map, decodeValue]
        · simp [writtenChanges, hbatch, ordinaryChange, hv1, hnotBatch, hput hdelete,
            Change.map, decodeValue_encode, canonical_canonical]

/-- The node's session read: the overlay over the snapshot. -/
def readThrough (overlay snapshot : ByteMap) (key : ByteString) : Option ByteString :=
  match overlay key with
  | some value => some value
  | none => snapshot key

/-- Every stored value decodes. -/
def Decodable (store : ByteMap) : Prop :=
  ∀ key value, store key = some value → (decode value).isSome

/-- The values a cache loads from a store. -/
def loadedValues (store : ByteMap) : ValueMap := fun key => (store key).bind decode

/-- The effective map follows the overlay and shows the baseline elsewhere. -/
def Follows (overlay : ByteMap) (baseline effective : ValueMap) : Prop :=
  ∀ key,
    match overlay key with
    | some stored => ∃ value, effective key = some value ∧
        decodeValue stored = some (canonical value)
    | none => effective key = baseline key

theorem Follows.apply {overlay : Overlay} {baseline effective : ValueMap}
    (hfollows : Follows overlay.store baseline effective) {change : Change ByteString}
    {mutation : Mutation}
    (hagree : change.map decodeValue = mutation.map fun value => some (canonical value)) :
    Follows (overlay.apply change).store baseline
      (applyMutation baseline effective mutation) := by
  cases change with
  | put key stored =>
      cases mutation with
      | delete other => simp [Change.map] at hagree
      | put other value =>
          obtain ⟨rfl, hvalue⟩ : key = other ∧ decodeValue stored = some (canonical value) := by
            simpa [Change.map] using hagree
          intro read
          by_cases hread : read = key
          · subst hread
            simpa [Overlay.apply, assignment, applyMutation] using hvalue
          · simpa [Overlay.apply, assignment, applyMutation, hread] using hfollows read
  | delete key =>
      cases mutation with
      | put other value => simp [Change.map] at hagree
      | delete other =>
          obtain rfl : key = other := by simpa [Change.map] using hagree
          intro read
          by_cases hread : read = key
          · subst hread
            simp [Overlay.apply, assignment, applyMutation]
          · simpa [Overlay.apply, assignment, applyMutation, hread] using hfollows read

theorem Follows.applyAll {overlay : Overlay} {baseline effective : ValueMap}
    (hfollows : Follows overlay.store baseline effective)
    {changes : List (Change ByteString)} {mutations : List Mutation}
    (hagree : changes.map (Change.map decodeValue) =
      mutations.map (Change.map fun value => some (canonical value))) :
    Follows (overlay.applyAll changes).store baseline
      (applyMutations baseline effective mutations) := by
  induction changes generalizing overlay effective mutations with
  | nil =>
      obtain rfl : mutations = [] := by simpa using hagree.symm
      exact hfollows
  | cons change changes ih =>
      cases mutations with
      | nil => simp at hagree
      | cons mutation mutations =>
          rw [List.map_cons, List.map_cons, List.cons.injEq] at hagree
          exact ih (hfollows.apply hagree.1) hagree.2

/-- A freshly loaded cache follows its overlay. -/
theorem follows_loaded {overlay snapshot : ByteMap} (hoverlay : Decodable overlay) :
    Follows overlay (loadedValues snapshot) (loadedValues (readThrough overlay snapshot)) := by
  intro key
  cases hstored : overlay key with
  | none => simp [loadedValues, readThrough, hstored]
  | some stored =>
      obtain ⟨value, hvalue⟩ := Option.isSome_iff_exists.mp (hoverlay key stored hstored)
      exact ⟨value, by simp [loadedValues, readThrough, hstored, hvalue],
        by simp [decodeValue, hvalue]⟩

theorem Follows.readThrough {overlay snapshot : ByteMap} {effective : ValueMap}
    (hsnapshot : Decodable snapshot)
    (hfollows : Follows overlay (loadedValues snapshot) effective) (key : ByteString) :
    (readThrough overlay snapshot key).map decodeValue =
      (effective key).map fun value => some (canonical value) := by
  have hkey := hfollows key
  cases hstored : overlay key with
  | some stored =>
      rw [hstored] at hkey
      obtain ⟨value, hvalue, hdecoded⟩ := hkey
      simp [Agreement.readThrough, hstored, hvalue, hdecoded]
  | none =>
      rw [hstored] at hkey
      simp only [Agreement.readThrough, hstored]
      rw [hkey]
      cases hbase : snapshot key with
      | none => simp [loadedValues, hbase]
      | some stored =>
          obtain ⟨value, hvalue⟩ := Option.isSome_iff_exists.mp (hsnapshot key stored hbase)
          simp [loadedValues, hbase, hvalue, decodeValue]

end Sitos.Agreement
