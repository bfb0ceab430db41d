import Sitos.Core.Segments
import Sitos.Wire.Fence

/-!
# The spellings of a marker key

A marker key is cut into chunks, and each chunk is read by itself.  The strict
reader accepts one spelling of a route.  The loose one also accepts upper-case
digits, zeros in front of the sequence and slashes at the end, and nothing else.
-/

namespace Sitos.FenceWire

open Sitos.AckResult
open Sitos.Bytes
open Sitos.FlatJson
open Sitos.Key
open Sitos.Segments
open Sitos.Token

/-! ## Chunks -/

theorem stripPrefix_eq_some_iff {keyPrefix fullKey rest : ByteString} :
    stripPrefix keyPrefix fullKey = some rest ↔ fullKey = keyPrefix ++ slash :: rest := by
  constructor
  · intro hstrip
    rw [stripPrefix] at hstrip
    split_ifs at hstrip with hslash hstarts
    obtain ⟨suffix, rfl⟩ : keyPrefix <+: fullKey := by simpa using hstarts
    obtain rfl := Option.some.inj hstrip
    rw [not_or, not_not] at hslash
    have hhead : suffix.head? = some slash := by
      simpa [List.head?_eq_getElem?, List.getElem?_append_right] using hslash.2
    obtain ⟨suffix', rfl⟩ := List.head?_eq_some_iff.mp hhead
    simp
  · rintro rfl
    simp [stripPrefix]

/-- The chunks of a text, an empty last one not counted. -/
def routeChunksOf (text : ByteString) : List ByteString :=
  let chunks := text.splitOn slash
  let chunks := if chunks.getLast? = some [] then chunks.dropLast else chunks
  if chunks.any List.isEmpty then [] else chunks

theorem splitRoute_eq (text : ByteString) (allowTrailingSlash : Bool) :
    splitRoute text allowTrailingSlash =
      if text.isEmpty ∨ text.head? = some slash ∨
          (!allowTrailingSlash ∧ text.getLast? = some slash) then []
      else
        routeChunksOf
          (if allowTrailingSlash && text.getLast? == some slash then text.dropLast else text) :=
  rfl

theorem routeChunksOf_eq_iff {text : ByteString} {chunks : List ByteString} (hchunks : chunks ≠ []) :
    routeChunksOf text = chunks ↔
      (∀ chunk ∈ chunks, chunk ≠ [] ∧ slash ∉ chunk) ∧
        (text = [slash].intercalate chunks ∨ text = [slash].intercalate chunks ++ [slash]) := by
  constructor
  · intro hsplit
    let pieces := if (text.splitOn slash).getLast? = some [] then (text.splitOn slash).dropLast
      else text.splitOn slash
    have hkept : (if pieces.any List.isEmpty then [] else pieces) = chunks := hsplit
    have hany : ¬pieces.any List.isEmpty = true := by
      intro hany
      rw [if_pos hany] at hkept
      exact hchunks hkept.symm
    have hpieces : pieces = chunks := by rwa [if_neg hany] at hkept
    have hnonempty : ∀ chunk ∈ chunks, chunk ≠ [] := by
      rintro chunk hchunk rfl
      exact hany (List.any_eq_true.mpr ⟨[], hpieces ▸ hchunk, rfl⟩)
    simp only [pieces] at hpieces
    split_ifs at hpieces with hlast
    · refine ⟨fun chunk hchunk => ⟨hnonempty chunk hchunk, ?_⟩, .inr ?_⟩
      · rw [← hpieces] at hchunk
        exact sep_not_mem_of_mem_splitOn (List.mem_of_mem_dropLast hchunk)
      · rw [← hpieces] at hchunks ⊢
        exact eq_of_getLast?_splitOn hlast hchunks
    · refine ⟨fun chunk hchunk => ⟨hnonempty chunk hchunk, ?_⟩, .inl ?_⟩
      · rw [← hpieces] at hchunk
        exact sep_not_mem_of_mem_splitOn hchunk
      · rw [← hpieces, List.intercalate_splitOn]
  · rintro ⟨hall, htext⟩
    have hsplit : ([slash].intercalate chunks).splitOn slash = chunks :=
      List.splitOn_intercalate slash (fun chunk hchunk => (hall chunk hchunk).2) hchunks
    have hany : ¬chunks.any List.isEmpty = true := by
      rw [List.any_eq_true]
      rintro ⟨chunk, hchunk, hempty⟩
      exact (hall chunk hchunk).1 (List.isEmpty_iff.mp hempty)
    have hlast : chunks.getLast? ≠ some [] := by
      intro hlast
      exact (hall [] (List.mem_of_getLast? hlast)).1 rfl
    rcases htext with rfl | rfl
    · simp only [routeChunksOf, hsplit, if_neg hlast, if_neg hany]
    · have hpieces : ([slash].intercalate chunks ++ [slash]).splitOn slash = chunks ++ [[]] := by
        rw [List.splitOn_append_cons_self, hsplit, List.splitOn_nil]
      have hdrop : (chunks ++ [[]]).dropLast = chunks := List.dropLast_concat
      simp only [routeChunksOf, hpieces, List.getLast?_concat, if_true, hdrop, if_neg hany]

/-- The chunks of a route, with the slashes that the reader tolerates behind them. -/
theorem splitRoute_eq_iff {text : ByteString} {allowTrailingSlash : Bool} {chunks : List ByteString}
    (hchunks : chunks ≠ []) :
    splitRoute text allowTrailingSlash = chunks ↔
      (∀ chunk ∈ chunks, chunk ≠ [] ∧ slash ∉ chunk) ∧
        ∃ slashes, slashes ≤ (if allowTrailingSlash then 2 else 0) ∧
          text = [slash].intercalate chunks ++ List.replicate slashes slash := by
  rw [splitRoute_eq]
  constructor
  · intro hsplit
    split_ifs at hsplit with hrejected htrailing
    · exact absurd hsplit.symm hchunks
    · -- one slash is cut off before the text is split
      obtain ⟨hallow, hlast⟩ := Bool.and_eq_true_iff.mp htrailing
      obtain ⟨hall, htext⟩ := (routeChunksOf_eq_iff hchunks).mp hsplit
      have hcut : text = text.dropLast ++ [slash] :=
        (List.dropLast_append_getLast? slash (eq_of_beq hlast)).symm
      refine ⟨hall, ?_⟩
      rcases htext with htext | htext
      · exact ⟨1, by simp [hallow], by rw [hcut, htext]; rfl⟩
      · exact ⟨2, by simp [hallow], by rw [hcut, htext, List.append_assoc]; rfl⟩
    · obtain ⟨hall, htext⟩ := (routeChunksOf_eq_iff hchunks).mp hsplit
      refine ⟨hall, 0, Nat.zero_le _, ?_⟩
      rcases htext with htext | htext
      · simpa using htext
      · have hlast : text.getLast? = some slash := by rw [htext, List.getLast?_concat]
        cases allowTrailingSlash <;> simp_all
  · rintro ⟨hall, slashes, hslashes, rfl⟩
    have hne : [slash].intercalate chunks ≠ [] :=
      intercalate_ne_nil hchunks fun chunk hchunk => (hall chunk hchunk).1
    have hhead : ([slash].intercalate chunks).head? ≠ some slash := head?_intercalate_ne hall
    have hlast : ([slash].intercalate chunks).getLast? ≠ some slash := getLast?_intercalate_ne hall
    have hstart : ∀ rest : ByteString,
        ([slash].intercalate chunks ++ rest).head? = ([slash].intercalate chunks).head? :=
      fun rest => List.head?_append_of_ne_nil _ hne
    cases slashes with
    | zero =>
        simp only [List.replicate_zero, List.append_nil, List.isEmpty_iff, hne, hhead, hlast,
          and_false, or_self, if_false, beq_eq_false_iff_ne.mpr hlast, Bool.and_false]
        exact (routeChunksOf_eq_iff hchunks).mpr ⟨hall, .inl rfl⟩
    | succ slashes =>
        have hallow : allowTrailingSlash = true := by
          by_contra hstrict
          simp [hstrict] at hslashes
        have hmore : slashes = 0 ∨ slashes = 1 := by
          rw [if_pos hallow] at hslashes
          omega
        have hcut : [slash].intercalate chunks ++ List.replicate (slashes + 1) slash =
            [slash].intercalate chunks ++ List.replicate slashes slash ++ [slash] := by
          rw [List.replicate_succ', List.append_assoc]
        have haccepted : ¬(([slash].intercalate chunks ++ List.replicate slashes slash ++
            [slash]).isEmpty ∨ ([slash].intercalate chunks ++ List.replicate slashes slash ++
            [slash]).head? = some slash ∨ (!allowTrailingSlash ∧
            ([slash].intercalate chunks ++ List.replicate slashes slash ++ [slash]).getLast? =
              some slash)) := by
          rw [List.append_assoc, hstart]
          simp [hhead, hallow]
        rw [hcut, if_neg haccepted, List.getLast?_concat, hallow, Bool.true_and, beq_self_eq_true,
          if_pos rfl, List.dropLast_concat]
        refine (routeChunksOf_eq_iff hchunks).mpr ⟨hall, ?_⟩
        rcases hmore with rfl | rfl
        · exact .inl (List.append_nil _)
        · exact .inr rfl

/-! ## Routes -/

/-- The chunks of a marker key, the generations and the sequence as they are spelled. -/
def routeChunks (route : FenceMarkerRoute) (receiver publisher through : ByteString) :
    List ByteString :=
  match route.bufferClass with
  | none =>
      [ascii "meta", ascii "fence", ascii "cache", route.sid, receiver, publisher, through]
  | some bufferClass =>
      [ascii "meta", ascii "fence", ascii "buffer", route.sid, receiver,
        bufferClassName bufferClass, publisher, durabilityName route.durability, through]

/-- A marker asks one cache, or one class of a buffer that the reader allows. -/
def HasTarget (isAllowed : BufferClass → AckDurability → Bool) (route : FenceMarkerRoute) : Prop :=
  match route.target, route.bufferClass with
  | .cache, none => route.durability = .applied
  | .buffer, some bufferClass => isAllowed bufferClass route.durability = true
  | _, _ => False

theorem routeChunks_ne_nil (route : FenceMarkerRoute) (receiver publisher through : ByteString) :
    routeChunks route receiver publisher through ≠ [] := by
  unfold routeChunks
  split <;> exact List.cons_ne_nil _ _

theorem parseBufferClass_eq_some_iff {className : ByteString} {bufferClass : BufferClass} :
    parseBufferClass className = some bufferClass ↔ className = bufferClassName bufferClass := by
  constructor
  · intro hparsed
    rw [parseBufferClass] at hparsed
    split_ifs at hparsed with hdurable hephemeral
    · obtain rfl := Option.some.inj hparsed
      exact hdurable
    · obtain rfl := Option.some.inj hparsed
      exact hephemeral
  · rintro rfl
    cases bufferClass <;> decide

theorem parseDurability_eq_some_iff {text : ByteString} {durability : AckDurability} :
    parseDurability text = some durability ↔ text = durabilityName durability := by
  constructor
  · intro hparsed
    rw [parseDurability] at hparsed
    split_ifs at hparsed with happlied hsynced
    · obtain rfl := Option.some.inj hparsed
      exact happlied
    · obtain rfl := Option.some.inj hparsed
      exact hsynced
  · rintro rfl
    cases durability <;> decide

/-- A route is read from its chunks, whatever reads the parts. -/
theorem parseRoute_eq_some_iff {parseUuid : ByteString → Option FenceUuid}
    {parseSequence : ByteString → Option UInt64} {isAllowed : BufferClass → AckDurability → Bool}
    {chunks : List ByteString} {route : FenceMarkerRoute} :
    parseRoute parseUuid parseSequence isAllowed chunks = some route ↔
      isValidSessionId route.sid = true ∧ HasTarget isAllowed route ∧
        ∃ receiver publisher through, chunks = routeChunks route receiver publisher through ∧
          parseUuid receiver = some route.receiverGeneration ∧
          parseUuid publisher = some route.publisherUuid ∧
          parseSequence through = some route.throughSequence := by
  constructor
  · intro hparsed
    unfold parseRoute at hparsed
    split at hparsed
    · split_ifs at hparsed with hroot hsid
      simp only [Option.bind_eq_bind, Option.bind_eq_some_iff] at hparsed
      obtain ⟨receiver, hreceiver, publisher, hpublisher, through, hthrough, hroute⟩ := hparsed
      obtain rfl := Option.some.inj hroute
      simp only [not_or, not_not] at hroot
      refine ⟨by simpa using hsid, rfl, _, _, _, ?_, hreceiver, hpublisher, hthrough⟩
      simp only [routeChunks, hroot]
    · split_ifs at hparsed with hroot hsid
      simp only [Option.bind_eq_bind, Option.bind_eq_some_iff] at hparsed
      obtain ⟨receiver, hreceiver, publisher, hpublisher, through, hthrough, bufferClass, hclass,
        durability, hdurability, hroute⟩ := hparsed
      split_ifs at hroute with hallowed
      obtain rfl := Option.some.inj hroute
      simp only [not_or, not_not] at hroot
      refine ⟨by simpa using hsid, hallowed, _, _, _, ?_, hreceiver, hpublisher, hthrough⟩
      simp only [routeChunks, hroot, parseBufferClass_eq_some_iff.mp hclass,
        parseDurability_eq_some_iff.mp hdurability]
    · cases hparsed
  · rintro ⟨hsid, htarget, receiver, publisher, through, rfl, hreceiver, hpublisher, hthrough⟩
    obtain ⟨target, sid, receiverGeneration, bufferClass, publisherUuid, durability, sequence⟩ := route
    cases target <;> cases bufferClass <;> simp only [HasTarget] at htarget
    · subst htarget
      simp_all [routeChunks, parseRoute]
    · rename_i bufferClass
      have hclass : parseBufferClass (bufferClassName bufferClass) = some bufferClass :=
        parseBufferClass_eq_some_iff.mpr rfl
      have hdurability : parseDurability (durabilityName durability) = some durability :=
        parseDurability_eq_some_iff.mpr rfl
      simp_all [routeChunks, parseRoute]

/-! ## The parts of a key -/

/-- A part that can stand between two slashes. -/
def IsChunk (text : ByteString) : Prop := text ≠ [] ∧ slash ∉ text

theorem isChunk_of_isValidId {id : ByteString} (hid : isValidId id = true) : IsChunk id := by
  rw [isValidId, Bool.and_eq_true, List.all_eq_true] at hid
  refine ⟨by simpa using hid.1, fun hslash => ?_⟩
  have hchar := hid.2 slash hslash
  revert hchar
  decide

theorem isValidIdChar_hexDigit {value : ℕ} (hvalue : value < 16) :
    isValidIdChar (hexDigit value) = true := by
  interval_cases value <;> rfl

theorem all_isValidIdChar_formatFrom (i : ℕ) (bytes : ByteString) :
    (formatFrom i bytes).all isValidIdChar = true := by
  induction bytes generalizing i with
  | nil => rfl
  | cons byte bytes ih =>
      have hbyte := byte.toNat_lt
      have hhigh : isValidIdChar (hexDigit (byte.toNat / 16)) = true :=
        isValidIdChar_hexDigit (by omega)
      have hlow : isValidIdChar (hexDigit (byte.toNat % 16)) = true :=
        isValidIdChar_hexDigit (by omega)
      have hhyphen : isValidIdChar hyphen = true := by decide
      rw [formatFrom]
      split_ifs <;> simp [hhigh, hlow, hhyphen, ih (i + 1)]

theorem isChunk_formatFenceUuid (uuid : FenceUuid) : IsChunk (formatFenceUuid uuid) := by
  have hlength : (formatFenceUuid uuid).length = 36 := length_formatAckToken uuid
  apply isChunk_of_isValidId
  rw [isValidId, Bool.and_eq_true]
  refine ⟨?_, all_isValidIdChar_formatFrom 0 uuid.bytes⟩
  cases hformat : formatFenceUuid uuid with
  | nil => simp [hformat] at hlength
  | cons c text => rfl

theorem isChunk_decimal (value : ℕ) : IsChunk (decimal value) := by
  refine ⟨decimal_ne_nil value, fun hslash => ?_⟩
  have hdigit := isDigit_of_mem_decimal hslash
  revert hdigit
  decide

theorem isChunk_bufferClassName (bufferClass : BufferClass) :
    IsChunk (bufferClassName bufferClass) := by
  cases bufferClass <;> exact isChunk_of_isValidId (by decide)

theorem isChunk_durabilityName (durability : AckDurability) : IsChunk (durabilityName durability) := by
  cases durability <;> exact isChunk_of_isValidId (by decide)

theorem isChunk_of_mem_routeChunks {route : FenceMarkerRoute} {receiver publisher through : ByteString}
    (hsid : isValidSessionId route.sid = true) (hreceiver : IsChunk receiver)
    (hpublisher : IsChunk publisher) (hthrough : IsChunk through) :
    ∀ chunk ∈ routeChunks route receiver publisher through, IsChunk chunk := by
  have hroute : IsChunk route.sid := isChunk_of_isValidId hsid
  have hmeta : IsChunk (ascii "meta") := isChunk_of_isValidId (by decide)
  have hfence : IsChunk (ascii "fence") := isChunk_of_isValidId (by decide)
  have hcache : IsChunk (ascii "cache") := isChunk_of_isValidId (by decide)
  have hbuffer : IsChunk (ascii "buffer") := isChunk_of_isValidId (by decide)
  intro chunk hchunk
  unfold routeChunks at hchunk
  split at hchunk <;>
    simp only [List.mem_cons, List.not_mem_nil, or_false] at hchunk
  · rcases hchunk with rfl | rfl | rfl | rfl | rfl | rfl | rfl <;> assumption
  · rename_i bufferClass _
    have hclass := isChunk_bufferClassName bufferClass
    have hdurability := isChunk_durabilityName route.durability
    rcases hchunk with rfl | rfl | rfl | rfl | rfl | rfl | rfl | rfl | rfl <;> assumption

theorem parseFenceUuid_eq_some_iff {text : ByteString} {uuid : FenceUuid} :
    parseFenceUuid text = some uuid ↔
      isValidFenceUuid uuid = true ∧ text = formatFenceUuid uuid :=
  parseAckToken_eq_some_iff

theorem parseLooseFenceUuid_eq_some_iff {text : ByteString} {uuid : FenceUuid} :
    parseLooseFenceUuid text = some uuid ↔
      isValidFenceUuid uuid = true ∧ text.map toLower = formatFenceUuid uuid :=
  parseAckToken_eq_some_iff

/-- A canonical text has no upper-case letter. -/
theorem map_toLower_formatFenceUuid (uuid : FenceUuid) :
    (formatFenceUuid uuid).map toLower = formatFenceUuid uuid := by
  have hdigit : ∀ value < 16, toLower (hexDigit value) = hexDigit value := by decide
  have hformat : ∀ i (bytes : ByteString),
      (formatFrom i bytes).map toLower = formatFrom i bytes := by
    intro i bytes
    induction bytes generalizing i with
    | nil => rfl
    | cons byte bytes ih =>
        have hbyte := byte.toNat_lt
        have hhigh := hdigit (byte.toNat / 16) (by omega)
        have hlow := hdigit (byte.toNat % 16) (by omega)
        have hhyphen : toLower hyphen = hyphen := by decide
        rw [formatFrom]
        split_ifs <;> simp [hhigh, hlow, hhyphen, ih (i + 1)]
  exact hformat 0 uuid.bytes

theorem digitsValue_replicate_zero (zeros : ℕ) (digits : ByteString) :
    digitsValue (List.replicate zeros zeroDigit ++ digits) = digitsValue digits := by
  induction zeros with
  | zero => rfl
  | succ zeros ih =>
      rw [← ih, List.replicate_succ, List.cons_append]
      rfl

theorem parseLooseSequence_eq_some_iff {text : ByteString} {sequence : UInt64} :
    parseLooseSequence text = some sequence ↔
      ∃ zeros, text = List.replicate zeros zeroDigit ++ decimal sequence.toNat := by
  constructor
  · intro hparsed
    rw [parseLooseSequence] at hparsed
    split_ifs at hparsed with hrejected
    simp only [not_or, Bool.not_eq_true, Bool.not_eq_false', not_le, List.all_eq_true]
      at hrejected
    obtain ⟨htext, hdigits, hvalue⟩ := hrejected
    have hsequence : digitsValue text = sequence.toNat := by
      rw [← Option.some.inj hparsed, UInt64.toNat_ofNat']
      exact (Nat.mod_eq_of_lt hvalue).symm
    rw [← hsequence]
    exact exists_zeros_decimal (by simpa using htext) hdigits
  · rintro ⟨zeros, rfl⟩
    have hvalue : digitsValue (List.replicate zeros zeroDigit ++ decimal sequence.toNat) =
        sequence.toNat := by
      rw [digitsValue_replicate_zero, digitsValue_decimal]
    have hdigits : ∀ c ∈ List.replicate zeros zeroDigit ++ decimal sequence.toNat,
        isDigit c = true := by
      intro c hc
      rcases List.mem_append.mp hc with hc | hc
      · rw [List.eq_of_mem_replicate hc]
        rfl
      · exact isDigit_of_mem_decimal hc
    have hbound := sequence.toNat_lt
    have haccepted : ¬((List.replicate zeros zeroDigit ++ decimal sequence.toNat).isEmpty = true ∨
        (!(List.replicate zeros zeroDigit ++ decimal sequence.toNat).all isDigit) = true ∨
        sequence.toNat ≥ 2 ^ 64) := by
      simp only [not_or, List.isEmpty_iff, List.append_eq_nil_iff, decimal_ne_nil, and_false,
        not_false_eq_true, List.all_eq_true.mpr hdigits, Bool.not_true, Bool.false_eq_true,
        true_and, ge_iff_le, not_le]
      exact hbound
    rw [parseLooseSequence, hvalue, if_neg haccepted, UInt64.ofNat_toNat]

theorem parseCanonicalSequence_eq_some_iff {text : ByteString} {sequence : UInt64} :
    parseCanonicalSequence text = some sequence ↔ text = decimal sequence.toNat := by
  constructor
  · intro hparsed
    rw [parseCanonicalSequence] at hparsed
    split_ifs at hparsed with hleading
    obtain ⟨zeros, rfl⟩ := parseLooseSequence_eq_some_iff.mp hparsed
    cases zeros with
    | zero => rfl
    | succ zeros =>
        have hlength := List.length_pos_iff.mpr (decimal_ne_nil sequence.toNat)
        refine absurd ⟨?_, rfl⟩ hleading
        simp only [List.length_append, List.length_replicate]
        omega
  · rintro rfl
    have hleading : ¬((decimal sequence.toNat).length > 1 ∧
        (decimal sequence.toNat).head? = some zeroDigit) := by
      rintro ⟨hlength, hhead⟩
      rw [head_decimal hhead] at hlength
      simp [decimal] at hlength
    rw [parseCanonicalSequence, if_neg hleading]
    exact parseLooseSequence_eq_some_iff.mpr ⟨0, rfl⟩

/-! ## Keys and routes -/

/-- What a key says about the route it names. -/
structure IsValidRoute (isAllowed : BufferClass → AckDurability → Bool) (route : FenceMarkerRoute) :
    Prop where
  sid : isValidSessionId route.sid = true
  receiverGeneration : isValidFenceUuid route.receiverGeneration = true
  publisherUuid : isValidFenceUuid route.publisherUuid = true
  target : HasTarget isAllowed route

/-- The key of a route with some spelling of its generations and its sequence. -/
def markerKey (keyPrefix : ByteString) (route : FenceMarkerRoute)
    (receiver publisher through : ByteString) : ByteString :=
  keyPrefix ++ slash :: [slash].intercalate (routeChunks route receiver publisher through)

/-- The one spelling of a route. -/
def canonicalKey (keyPrefix : ByteString) (route : FenceMarkerRoute) : ByteString :=
  markerKey keyPrefix route (formatFenceUuid route.receiverGeneration)
    (formatFenceUuid route.publisherUuid) (decimal route.throughSequence.toNat)

/-- The builder of the route's target. -/
def buildFenceMarkerKey (keyPrefix : ByteString) (route : FenceMarkerRoute) : Option ByteString :=
  match route.bufferClass with
  | none =>
      buildCacheFenceMarkerKey keyPrefix route.sid route.receiverGeneration route.publisherUuid
        route.throughSequence
  | some bufferClass =>
      buildBufferFenceMarkerKey keyPrefix route.sid route.receiverGeneration bufferClass
        route.publisherUuid route.durability route.throughSequence

/-- The route in upper and lower case, with zeros before its sequence and slashes behind it. -/
def IsLooseKey (keyPrefix : ByteString) (route : FenceMarkerRoute) (fullKey : ByteString) : Prop :=
  ∃ receiver publisher zeros slashes,
    receiver.map toLower = formatFenceUuid route.receiverGeneration ∧
      publisher.map toLower = formatFenceUuid route.publisherUuid ∧
      fullKey =
        markerKey keyPrefix route receiver publisher
          (List.replicate zeros zeroDigit ++ decimal route.throughSequence.toNat) ++
        List.replicate slashes slash

theorem buildFenceMarkerKey_eq {keyPrefix : ByteString} {route : FenceMarkerRoute}
    (hpre : isValidPrefix keyPrefix = true) (hroute : IsValidRoute isSynchronizable route) :
    buildFenceMarkerKey keyPrefix route = some (canonicalKey keyPrefix route) := by
  obtain ⟨hsid, hreceiver, hpublisher, htarget⟩ := hroute
  unfold buildFenceMarkerKey canonicalKey markerKey routeChunks
  split
  · have hstart : ascii "/meta/fence/cache/" = slash :: ascii "meta" ++ slash :: ascii "fence" ++
        slash :: ascii "cache" ++ [slash] := by decide
    simp [buildCacheFenceMarkerKey, hpre, hsid, hreceiver, hpublisher, hstart]
  · rename_i bufferClass hclass
    have hallowed : ¬(bufferClass = .ephemeral ∧ route.durability = .synced) := by
      rintro ⟨rfl, hsynced⟩
      unfold HasTarget at htarget
      rw [hclass, hsynced] at htarget
      cases hkind : route.target <;> simp [hkind, isSynchronizable] at htarget
    have hstart : ascii "/meta/fence/buffer/" = slash :: ascii "meta" ++ slash :: ascii "fence" ++
        slash :: ascii "buffer" ++ [slash] := by decide
    simp [buildBufferFenceMarkerKey, hpre, hsid, hreceiver, hpublisher, hallowed, hstart]

/-- Every spelling lies below the prefix of the markers. -/
theorem exists_markerKey_eq (keyPrefix : ByteString) (route : FenceMarkerRoute)
    (receiver publisher through : ByteString) :
    ∃ rest, markerKey keyPrefix route receiver publisher through =
      keyPrefix ++ ascii "/meta/fence/" ++ rest := by
  have hstart : ascii "/meta/fence/" =
      slash :: ascii "meta" ++ slash :: ascii "fence" ++ [slash] := by decide
  unfold markerKey routeChunks
  split <;> exact ⟨_, by simp [hstart]; rfl⟩

theorem stripFencePrefix_eq_some_iff {keyPrefix fullKey rest : ByteString}
    (hpre : isValidPrefix keyPrefix = true) :
    stripFencePrefix keyPrefix fullKey = some rest ↔ fullKey = keyPrefix ++ slash :: rest := by
  rw [stripFencePrefix, hpre]
  exact stripPrefix_eq_some_iff

/-- The strict reader inverts the canonical spelling. -/
theorem parseFenceMarkerRoute_eq_some_iff {keyPrefix fullKey : ByteString} {route : FenceMarkerRoute}
    (hpre : isValidPrefix keyPrefix = true) :
    parseFenceMarkerRoute keyPrefix fullKey = some route ↔
      IsValidRoute isSynchronizable route ∧ fullKey = canonicalKey keyPrefix route := by
  simp only [parseFenceMarkerRoute, Option.bind_eq_bind, Option.bind_eq_some_iff,
    stripFencePrefix_eq_some_iff hpre, parseRoute_eq_some_iff]
  constructor
  · rintro ⟨rest, rfl, hsid, htarget, receiver, publisher, through, hchunks, hreceiver, hpublisher,
      hthrough⟩
    obtain ⟨hreceiverValid, rfl⟩ := parseFenceUuid_eq_some_iff.mp hreceiver
    obtain ⟨hpublisherValid, rfl⟩ := parseFenceUuid_eq_some_iff.mp hpublisher
    obtain rfl := parseCanonicalSequence_eq_some_iff.mp hthrough
    obtain ⟨-, slashes, hslashes, rfl⟩ := (splitRoute_eq_iff (routeChunks_ne_nil _ _ _ _)).mp hchunks
    obtain rfl : slashes = 0 := Nat.le_zero.mp hslashes
    exact ⟨⟨hsid, hreceiverValid, hpublisherValid, htarget⟩, by simp [canonicalKey, markerKey]⟩
  · rintro ⟨⟨hsid, hreceiver, hpublisher, htarget⟩, rfl⟩
    refine ⟨_, rfl, hsid, htarget, _, _, _, ?_, parseFenceUuid_eq_some_iff.mpr ⟨hreceiver, rfl⟩,
      parseFenceUuid_eq_some_iff.mpr ⟨hpublisher, rfl⟩, parseCanonicalSequence_eq_some_iff.mpr rfl⟩
    refine (splitRoute_eq_iff (routeChunks_ne_nil _ _ _ _)).mpr ⟨?_, 0, le_refl 0, by simp⟩
    exact isChunk_of_mem_routeChunks hsid (isChunk_formatFenceUuid _) (isChunk_formatFenceUuid _)
      (isChunk_decimal _)

theorem isLooseKey_of_recoverMalformedFenceMarkerRoute {keyPrefix fullKey : ByteString}
    {route : FenceMarkerRoute} (hpre : isValidPrefix keyPrefix = true)
    (hrecovered : recoverMalformedFenceMarkerRoute keyPrefix fullKey = some route) :
    IsValidRoute (fun _ _ => true) route ∧ IsLooseKey keyPrefix route fullKey := by
  simp only [recoverMalformedFenceMarkerRoute, Option.bind_eq_bind, Option.bind_eq_some_iff,
    stripFencePrefix_eq_some_iff hpre, parseRoute_eq_some_iff] at hrecovered
  obtain ⟨rest, rfl, hsid, htarget, receiver, publisher, through, hchunks, hreceiver, hpublisher,
    hthrough⟩ := hrecovered
  obtain ⟨hreceiver, hreceiverText⟩ := parseLooseFenceUuid_eq_some_iff.mp hreceiver
  obtain ⟨hpublisher, hpublisherText⟩ := parseLooseFenceUuid_eq_some_iff.mp hpublisher
  obtain ⟨zeros, rfl⟩ := parseLooseSequence_eq_some_iff.mp hthrough
  obtain ⟨-, slashes, -, rfl⟩ := (splitRoute_eq_iff (routeChunks_ne_nil _ _ _ _)).mp hchunks
  exact ⟨⟨hsid, hreceiver, hpublisher, htarget⟩, receiver, publisher, zeros, slashes, hreceiverText,
    hpublisherText, by simp [markerKey]⟩

theorem HasTarget.mono {isAllowed isAllowed' : BufferClass → AckDurability → Bool}
    {route : FenceMarkerRoute}
    (himp : ∀ bufferClass durability,
      isAllowed bufferClass durability = true → isAllowed' bufferClass durability = true)
    (htarget : HasTarget isAllowed route) : HasTarget isAllowed' route := by
  unfold HasTarget at htarget ⊢
  split at htarget
  · exact htarget
  · exact himp _ _ htarget
  · exact htarget

/-- The loose reader agrees with the strict one on canonical keys. -/
theorem recoverMalformedFenceMarkerRoute_canonicalKey {keyPrefix : ByteString}
    {route : FenceMarkerRoute} (hpre : isValidPrefix keyPrefix = true)
    (hroute : IsValidRoute isSynchronizable route) :
    recoverMalformedFenceMarkerRoute keyPrefix (canonicalKey keyPrefix route) = some route := by
  obtain ⟨hsid, hreceiver, hpublisher, htarget⟩ := hroute
  simp only [recoverMalformedFenceMarkerRoute, Option.bind_eq_bind, Option.bind_eq_some_iff,
    stripFencePrefix_eq_some_iff hpre, parseRoute_eq_some_iff]
  refine ⟨_, rfl, hsid, htarget.mono fun _ _ _ => rfl, _, _, _, ?_,
    parseLooseFenceUuid_eq_some_iff.mpr ⟨hreceiver, map_toLower_formatFenceUuid _⟩,
    parseLooseFenceUuid_eq_some_iff.mpr ⟨hpublisher, map_toLower_formatFenceUuid _⟩,
    parseLooseSequence_eq_some_iff.mpr ⟨0, rfl⟩⟩
  refine (splitRoute_eq_iff (routeChunks_ne_nil _ _ _ _)).mpr ⟨?_, 0, Nat.zero_le _, by simp⟩
  exact isChunk_of_mem_routeChunks hsid (isChunk_formatFenceUuid _) (isChunk_formatFenceUuid _)
    (isChunk_decimal _)

/-- A marker route has one spelling, and the loose reader strays from it only in letter case,
zeros, trailing slashes and synced ephemeral buffers. -/
theorem markerRoutes_exact {keyPrefix : ByteString} (hpre : isValidPrefix keyPrefix = true) :
    (∀ fullKey route, parseFenceMarkerRoute keyPrefix fullKey = some route ↔
      IsValidRoute isSynchronizable route ∧ buildFenceMarkerKey keyPrefix route = some fullKey) ∧
    (∀ fullKey route, parseFenceMarkerRoute keyPrefix fullKey = some route →
      recoverMalformedFenceMarkerRoute keyPrefix fullKey = some route) ∧
    (∀ fullKey route, parseFenceMarkerRoute keyPrefix fullKey = none →
      recoverMalformedFenceMarkerRoute keyPrefix fullKey = some route →
      (∃ rest, fullKey = keyPrefix ++ ascii "/meta/fence/" ++ rest) ∧
        IsValidRoute (fun _ _ => true) route ∧ IsLooseKey keyPrefix route fullKey ∧
        (HasTarget isSynchronizable route →
          buildFenceMarkerKey keyPrefix route = some (canonicalKey keyPrefix route))) := by
  refine ⟨fun fullKey route => ?_, fun fullKey route hparsed => ?_,
    fun fullKey route _ hrecovered => ?_⟩
  · rw [parseFenceMarkerRoute_eq_some_iff hpre]
    refine and_congr_right fun hroute => ?_
    rw [buildFenceMarkerKey_eq hpre hroute, Option.some.injEq]
    exact eq_comm
  · obtain ⟨hroute, rfl⟩ := (parseFenceMarkerRoute_eq_some_iff hpre).mp hparsed
    exact recoverMalformedFenceMarkerRoute_canonicalKey hpre hroute
  · obtain ⟨hroute, hloose⟩ := isLooseKey_of_recoverMalformedFenceMarkerRoute hpre hrecovered
    refine ⟨?_, hroute, hloose, fun htarget => buildFenceMarkerKey_eq hpre
      ⟨hroute.sid, hroute.receiverGeneration, hroute.publisherUuid, htarget⟩⟩
    obtain ⟨receiver, publisher, zeros, slashes, -, -, rfl⟩ := hloose
    obtain ⟨rest, hrest⟩ := exists_markerKey_eq keyPrefix route receiver publisher
      (List.replicate zeros zeroDigit ++ decimal route.throughSequence.toNat)
    exact ⟨rest ++ List.replicate slashes slash, by rw [hrest, List.append_assoc]⟩

/-- A marker whose sequence has a zero in front is recovered under its route. -/
theorem markerRoutes_exact_leadingZero :
    let uuid := generateAckToken ⟨List.replicate 16 0, rfl⟩
    let route : FenceMarkerRoute := ⟨.cache, ascii "s1", uuid, none, uuid, .applied, 7⟩
    let fullKey := markerKey (ascii "sitos") route (formatFenceUuid uuid) (formatFenceUuid uuid)
      (ascii "07")
    parseFenceMarkerRoute (ascii "sitos") fullKey = none ∧
      recoverMalformedFenceMarkerRoute (ascii "sitos") fullKey = some route ∧
      IsLooseKey (ascii "sitos") route fullKey := by
  intro uuid route fullKey
  have hpre : isValidPrefix (ascii "sitos") = true := by decide
  have hparsed : parseFenceMarkerRoute (ascii "sitos") fullKey = none := by decide +kernel
  have hrecovered : recoverMalformedFenceMarkerRoute (ascii "sitos") fullKey = some route := by
    decide +kernel
  exact ⟨hparsed, hrecovered,
    ((markerRoutes_exact hpre).2.2 fullKey route hparsed hrecovered).2.2.1⟩

end Sitos.FenceWire
