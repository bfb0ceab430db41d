import Sitos.Wire.KeySpace

/-!
# List prefixes

What a client may pass as the prefix of a list.  The store and the view share one
check and the cache has its own; both accept the empty text and the valid keys,
with or without a slash at the end.
-/

namespace Sitos.ListPrefix

open Sitos.Bytes
open Sitos.Key

/-- The white space of the C locale. -/
def isSpace (c : UInt8) : Bool := c == 0x20 || (0x09 ≤ c && c ≤ 0x0D)

/-- White space, `*` or `?`. -/
def containsWhitespaceOrWildcard (value : ByteString) : Bool :=
  value.any fun c => isSpace c || c == 0x2A || c == 0x3F

def containsBatchSegment (value : ByteString) : Bool :=
  (value.splitOn slash).any (· == kBatchSegment)

def containsEmptyChunk (value : ByteString) : Bool := decide ([slash, slash] <:+: value)

/-- The check of `ParamStore` and `SessionView`. -/
def validateListPrefix (listPrefix : ByteString) : Bool :=
  if listPrefix.isEmpty then true
  else if listPrefix.head? = some slash ∨ containsEmptyChunk listPrefix ∨
      containsWhitespaceOrWildcard listPrefix ∨ containsBatchSegment listPrefix then false
  else if listPrefix.getLast? = some slash then
    listPrefix.length != 1 && isValidPrefix listPrefix.dropLast
  else isValidKey listPrefix

/-- `*?#$%@:` -/
def isCacheReserved (c : UInt8) : Bool :=
  c == 0x2A || c == 0x3F || c == 0x23 || c == 0x24 || c == 0x25 || c == 0x40 || c == 0x3A

/-- A space, a tab, a carriage return or a line feed. -/
def isCacheSpace (c : UInt8) : Bool := c == 0x20 || c == 0x09 || c == 0x0D || c == 0x0A

/-- The check of `ParamCache`. -/
def validateCacheListPrefix (listPrefix : ByteString) : Bool :=
  if listPrefix.isEmpty then true
  else if listPrefix.head? = some slash ∨ containsEmptyChunk listPrefix ∨
      listPrefix.any isCacheReserved ∨ listPrefix.any isCacheSpace then false
  else
    isValidKey (if listPrefix.getLast? = some slash then listPrefix.dropLast else listPrefix)

/-! ## What both accept -/

/-- A valid key with at most one slash behind it. -/
def IsListPrefix (listPrefix : ByteString) : Prop :=
  listPrefix = [] ∨
    ∃ key, isValidKey key = true ∧ (listPrefix = key ∨ listPrefix = key ++ [slash])

/-- An accepted prefix has no empty chunk. -/
theorem containsEmptyChunk_eq_false {listPrefix : ByteString} (hlist : IsListPrefix listPrefix) :
    containsEmptyChunk listPrefix = false := by
  have hkey : ∀ key, isValidKey key = true → ¬[slash, slash] <:+: key := by
    rintro key hvalid ⟨before, after, rfl⟩
    have hcut : before ++ [slash, slash] ++ after = before ++ slash :: ([] ++ slash :: after) := by
      simp
    rw [isValidKey, hcut, isValidChunkSequence_append_cons, isValidChunkSequence_append_cons] at hvalid
    have hempty := hvalid.2.1
    exact isValidChunkSequence_ne_nil hempty rfl
  rw [containsEmptyChunk, decide_eq_false_iff_not]
  rcases hlist with rfl | ⟨key, hvalid, rfl | rfl⟩
  · simp
  · exact hkey _ hvalid
  · rintro ⟨before, after, heq⟩
    rcases List.eq_nil_or_concat after with rfl | ⟨after, last, rfl⟩
    · -- the second slash is the one at the end
      have hbefore : before ++ [slash] = key := by
        have hdrop := congrArg List.dropLast heq
        simpa using hdrop
      have hempty : isValidChunkSequence (before ++ slash :: []) = true := hbefore ▸ hvalid
      exact isValidChunkSequence_ne_nil (isValidChunkSequence_append_cons.mp hempty).2 rfl
    · have hinit : before ++ [slash, slash] ++ after = key := by
        have hdrop := congrArg List.dropLast heq
        simpa [← List.append_assoc] using hdrop
      exact hkey key hvalid ⟨before, after, hinit⟩

theorem isListPrefix_char {listPrefix : ByteString} {c : UInt8} (hlist : IsListPrefix listPrefix)
    (hc : c ∈ listPrefix) : c = slash ∨ isValidChunkChar c = true := by
  by_cases hslash : c = slash
  · exact .inl hslash
  · refine .inr ?_
    rcases hlist with rfl | ⟨key, hvalid, rfl | rfl⟩
    · exact absurd hc List.not_mem_nil
    · exact isValidChunkChar_of_mem hvalid hc hslash
    · rcases List.mem_append.mp hc with hc | hc
      · exact isValidChunkChar_of_mem hvalid hc hslash
      · exact absurd (List.mem_singleton.mp hc) hslash

/-- No letter of an accepted prefix is reserved by either check. -/
theorem any_eq_false_of_isListPrefix {listPrefix : ByteString} {reserved : UInt8 → Bool}
    (hreserved : ∀ c, c = slash ∨ isValidChunkChar c = true → reserved c = false)
    (hlist : IsListPrefix listPrefix) : listPrefix.any reserved = false := by
  rw [List.any_eq_false]
  intro c hc
  simpa using hreserved c (isListPrefix_char hlist hc)

theorem containsBatchSegment_eq_false {listPrefix : ByteString} (hlist : IsListPrefix listPrefix) :
    containsBatchSegment listPrefix = false := by
  rw [containsBatchSegment, List.any_eq_false]
  intro chunk hchunk hbatch
  have hcolon : (0x3A : UInt8) ∈ listPrefix := by
    have hmem : (0x3A : UInt8) ∈ chunk := by
      rw [eq_of_beq hbatch]
      decide
    have hjoin : [slash].intercalate (listPrefix.splitOn slash) = listPrefix :=
      List.intercalate_splitOn slash
    rw [← hjoin]
    exact Segments.mem_intercalate hchunk hmem
  have hchar := isListPrefix_char hlist hcolon
  revert hchar
  decide

theorem head?_ne_slash {listPrefix : ByteString} (hlist : IsListPrefix listPrefix) :
    listPrefix.head? ≠ some slash := by
  have hkey : ∀ key rest : ByteString, isValidKey key = true → (key ++ rest).head? ≠ some slash := by
    intro key rest hvalid hhead
    obtain ⟨c, key, rfl⟩ := List.exists_cons_of_ne_nil (isValidChunkSequence_ne_nil hvalid)
    obtain rfl : c = slash := by simpa using hhead
    have hempty : isValidChunkSequence ([] ++ slash :: key) = true := hvalid
    exact isValidChunkSequence_ne_nil (isValidChunkSequence_append_cons.mp hempty).1 rfl
  rcases hlist with rfl | ⟨key, hvalid, rfl | rfl⟩
  · simp
  · simpa using hkey _ [] hvalid
  · exact hkey key [slash] hvalid

theorem getLast?_ne_slash {key : ByteString} (hvalid : isValidKey key = true) :
    key.getLast? ≠ some slash := by
  intro hlast
  obtain ⟨rest, rfl⟩ := List.getLast?_eq_some_iff.mp hlast
  exact isValidChunkSequence_ne_nil (isValidChunkSequence_append_cons.mp hvalid).2 rfl

/-- The key of a prefix that ends with a slash is the text before it. -/
theorem isListPrefix_iff {listPrefix : ByteString} (hne : listPrefix ≠ []) :
    IsListPrefix listPrefix ↔
      isValidKey (if listPrefix.getLast? = some slash then listPrefix.dropLast else listPrefix) =
        true := by
  constructor
  · rintro (hnil | ⟨key, hvalid, rfl | rfl⟩)
    · exact absurd hnil hne
    · rwa [if_neg (getLast?_ne_slash hvalid)]
    · rwa [if_pos List.getLast?_concat, List.dropLast_concat]
  · intro hvalid
    split_ifs at hvalid with hlast
    · have hcut : listPrefix = listPrefix.dropLast ++ [slash] :=
        (List.dropLast_append_getLast? slash hlast).symm
      exact .inr ⟨listPrefix.dropLast, hvalid, .inr hcut⟩
    · exact .inr ⟨listPrefix, hvalid, .inl rfl⟩

theorem validateListPrefix_iff {listPrefix : ByteString} :
    validateListPrefix listPrefix = true ↔ IsListPrefix listPrefix := by
  by_cases hne : listPrefix = []
  · simp [hne, validateListPrefix, IsListPrefix]
  · rw [validateListPrefix, if_neg (by simpa using hne)]
    constructor
    · intro hvalid
      rw [isListPrefix_iff hne]
      split_ifs at hvalid ⊢
      · exact (Bool.and_eq_true_iff.mp hvalid).2
      · exact hvalid
    · intro hlist
      have hreserved : containsWhitespaceOrWildcard listPrefix = false :=
        any_eq_false_of_isListPrefix (by decide +kernel) hlist
      have hkey := (isListPrefix_iff hne).mp hlist
      simp only [head?_ne_slash hlist, containsEmptyChunk_eq_false hlist, hreserved,
        containsBatchSegment_eq_false hlist, Bool.false_eq_true, or_self, if_false]
      split_ifs at hkey ⊢ with hlast
      · have hlength : listPrefix.length ≠ 1 := by
          intro hlength
          have hdrop : listPrefix.dropLast = [] := by
            rw [List.eq_nil_iff_length_eq_zero, List.length_dropLast, hlength]
          exact isValidChunkSequence_ne_nil hkey hdrop
        exact Bool.and_eq_true_iff.mpr ⟨bne_iff_ne.mpr hlength, hkey⟩
      · exact hkey

theorem validateCacheListPrefix_iff {listPrefix : ByteString} :
    validateCacheListPrefix listPrefix = true ↔ IsListPrefix listPrefix := by
  by_cases hne : listPrefix = []
  · simp [hne, validateCacheListPrefix, IsListPrefix]
  · rw [validateCacheListPrefix, if_neg (by simpa using hne)]
    constructor
    · intro hvalid
      rw [isListPrefix_iff hne]
      split_ifs at hvalid ⊢ <;> exact hvalid
    · intro hlist
      have hreserved : listPrefix.any isCacheReserved = false :=
        any_eq_false_of_isListPrefix (by decide +kernel) hlist
      have hspace : listPrefix.any isCacheSpace = false :=
        any_eq_false_of_isListPrefix (by decide +kernel) hlist
      simp only [head?_ne_slash hlist, containsEmptyChunk_eq_false hlist, hreserved, hspace,
        Bool.false_eq_true, or_self, if_false]
      exact (isListPrefix_iff hne).mp hlist

/-- The two checks accept the same texts. -/
theorem validateCacheListPrefix_eq (listPrefix : ByteString) :
    validateCacheListPrefix listPrefix = validateListPrefix listPrefix := by
  rw [Bool.eq_iff_iff, validateCacheListPrefix_iff, validateListPrefix_iff]

end Sitos.ListPrefix
