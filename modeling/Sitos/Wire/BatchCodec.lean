import Sitos.Core.Cursor
import Sitos.Wire.Batch

/-!
# The batch format

A batch is a count and that many frames, and nothing after them.  The decoder accepts exactly the
batches, whatever the lengths in them say, and on its way it neither wraps an offset nor leaves
the payload.
-/

namespace Sitos.Batch

open Sitos.Bytes
open Sitos.Cursor
open Sitos.Value

/-! ## The cursor of the decoder -/

/-- `payload.size() - off`. -/
def remaining (payload : Span UInt8) (off : ℕ) : Checked ℕ :=
  if off ≤ payload.size then pure (payload.size - off) else fault .wrapped

def readLeU32At (payload : Span UInt8) (off : ℕ) : Checked (UInt32 × ℕ) := do
  let stop ← advance off 4
  if stop > payload.size then reject
  else
    let bytes ← payload.collect off 4
    pure (UInt32.ofNat (leValue bytes), stop)

def readBytesAt (payload : Span UInt8) (count : UInt32) (off : ℕ) : Checked (ByteString × ℕ) := do
  let left ← remaining payload off
  if count.toNat > left then reject
  else
    let bytes ← payload.subspan off count.toNat
    let off ← advance off count.toNat
    pure (bytes, off)

def readTagAt (payload : Span UInt8) (off : ℕ) : Checked (UInt8 × ℕ) := do
  if off ≥ payload.size then reject
  else
    let tag ← payload.at off
    let off ← advance off 1
    pure (tag, off)

def readEntryAt (payload : Span UInt8) (off : ℕ) : Checked (BatchEntry × ℕ) := do
  let (keyLength, off) ← readLeU32At payload off
  let (key, off) ← readBytesAt payload keyLength off
  let (tag, off) ← readTagAt payload off
  let (valueLength, off) ← readLeU32At payload off
  let (body, off) ← readBytesAt payload valueLength off
  match decodeBody tag body with
  | none => reject
  | some value => pure (⟨key, value⟩, off)

def readEntriesAt (payload : Span UInt8) : ℕ → ℕ → Checked (List BatchEntry × ℕ)
  | 0, off => pure ([], off)
  | count + 1, off => do
      let (entry, off) ← readEntryAt payload off
      let (entries, off) ← readEntriesAt payload count off
      pure (entry :: entries, off)

def decodeBatchAt (payload : Span UInt8) : Checked (List BatchEntry) := do
  let (count, off) ← readLeU32At payload 0
  if count.toNat > payload.size / 9 + 1 then reject
  else
    let (entries, off) ← readEntriesAt payload count.toNat off
    if off ≠ payload.size then reject else pure entries

section Cursor

variable {payload : Span UInt8} {off : ℕ}

theorem follows_readLeU32 (hoff : off ≤ payload.size) :
    Follows payload (readLeU32At payload off) (readLeU32 (payload.data.drop off)) := by
  have hsize := payload.length_lt
  have hlength : (payload.data.drop off).length = payload.size - off := List.length_drop ..
  have hfits : off + 4 < 2 ^ 64 := by
    rw [Span.size] at hoff
    omega
  rw [readLeU32At, advance_eq hfits, pure_bind]
  by_cases hstop : off + 4 > payload.size
  · rw [if_pos hstop, readLeU32, if_pos (by omega)]
    exact follows_reject
  · rw [if_neg hstop, readLeU32, if_neg (by omega), Span.collect_eq (by omega), pure_bind,
      List.drop_drop]
    exact follows_pure (by omega)

theorem follows_readBytes (count : UInt32) (hoff : off ≤ payload.size) :
    Follows payload (readBytesAt payload count off) (readBytes count (payload.data.drop off)) := by
  have hsize := payload.length_lt
  have hlength : (payload.data.drop off).length = payload.size - off := List.length_drop ..
  rw [readBytesAt, remaining, if_pos hoff, pure_bind]
  by_cases hleft : count.toNat > payload.size - off
  · rw [if_pos hleft, readBytes, if_pos (by omega)]
    exact follows_reject
  · have hfits : off + count.toNat < 2 ^ 64 := by
      rw [Span.size] at hoff hleft
      omega
    rw [if_neg hleft, readBytes, if_neg (by omega), Span.subspan_eq hoff (by omega), pure_bind,
      advance_eq hfits, pure_bind, List.drop_drop]
    exact follows_pure (by omega)

/-- The tag of a frame and what follows it. -/
def readTag : ByteString → Option (UInt8 × ByteString)
  | [] => none
  | tag :: payload => some (tag, payload)

theorem follows_readTag (payload : Span UInt8) (off : ℕ) :
    Follows payload (readTagAt payload off) (readTag (payload.data.drop off)) := by
  have hsize := payload.length_lt
  rw [readTagAt]
  by_cases hend : off ≥ payload.size
  · rw [if_pos hend, List.drop_eq_nil_of_le hend]
    exact follows_reject
  · have hlt : off < payload.data.length := not_le.mp hend
    have htag : payload.data[off]? = some payload.data[off] := List.getElem?_eq_getElem hlt
    rw [if_neg hend, Span.at_eq htag, pure_bind, advance_eq (by omega), pure_bind,
      List.drop_eq_getElem_cons hlt]
    exact follows_pure hlt

theorem readEntry_eq (payload : ByteString) :
    readEntry payload = (do
      let (keyLength, payload) ← readLeU32 payload
      let (key, payload) ← readBytes keyLength payload
      let (tag, payload) ← readTag payload
      let (valueLength, payload) ← readLeU32 payload
      let (body, payload) ← readBytes valueLength payload
      let value ← decodeBody tag body
      some (⟨key, value⟩, payload)) := by
  unfold readEntry
  congr 1
  funext ⟨keyLength, afterLength⟩
  simp only
  congr 1
  funext ⟨key, afterKey⟩
  cases afterKey with
  | nil => rfl
  | cons tag afterTag => rfl

theorem follows_readEntry (hoff : off ≤ payload.size) :
    Follows payload (readEntryAt payload off) (readEntry (payload.data.drop off)) := by
  rw [readEntry_eq]
  refine (follows_readLeU32 hoff).bind fun keyLength off hoff => ?_
  refine (follows_readBytes keyLength hoff).bind fun key off _ => ?_
  refine (follows_readTag payload off).bind fun tag off hoff => ?_
  refine (follows_readLeU32 hoff).bind fun valueLength off hoff => ?_
  refine (follows_readBytes valueLength hoff).bind fun body off hoff => ?_
  simp only
  cases decodeBody tag body with
  | none => exact follows_reject
  | some value => exact follows_pure hoff

theorem follows_readEntries (count : ℕ) (hoff : off ≤ payload.size) :
    Follows payload (readEntriesAt payload count off)
      (readEntries count (payload.data.drop off)) := by
  induction count generalizing off with
  | zero => exact follows_pure hoff
  | succ count ih =>
      refine (follows_readEntry hoff).bind fun entry off hoff => ?_
      exact (ih hoff).bind fun entries off hoff => follows_pure hoff

/-- The decoder never faults. -/
theorem decodeBatchAt_eq (payload : Span UInt8) :
    decodeBatchAt payload = (decodeBatch payload.data).elim reject pure := by
  have hcount := follows_readLeU32 (Nat.zero_le payload.size)
  rw [List.drop_zero] at hcount
  rw [decodeBatchAt, decodeBatch]
  cases hword : readLeU32 payload.data with
  | none =>
      rw [hword] at hcount
      rw [show readLeU32At payload 0 = reject from hcount]
      rfl
  | some pair =>
      obtain ⟨count, rest⟩ := pair
      rw [hword] at hcount
      obtain ⟨off, hoff, hpure, hrest⟩ := hcount
      rw [hpure, pure_bind, hrest]
      simp only [Option.bind_eq_bind, Option.bind_some]
      rw [show payload.data.length = payload.size from rfl]
      by_cases hguard : count.toNat > payload.size / 9 + 1
      · rw [if_pos hguard, if_pos hguard]
        rfl
      · rw [if_neg hguard, if_neg hguard]
        have hentries := follows_readEntries count.toNat hoff
        cases hread : readEntries count.toNat (payload.data.drop off) with
        | none =>
            rw [hread] at hentries
            rw [show readEntriesAt payload count.toNat off = reject from hentries]
            rfl
        | some pair =>
            obtain ⟨entries, rest⟩ := pair
            rw [hread] at hentries
            obtain ⟨stop, hstop, hpure, hrest⟩ := hentries
            rw [hpure, pure_bind, Option.bind_some]
            simp only [hrest, List.isEmpty_iff, List.drop_eq_nil_iff]
            rw [show payload.data.length = payload.size from rfl]
            by_cases hend : stop = payload.size
            · rw [if_neg (not_not.mpr hend), if_pos hend.ge]
              rfl
            · rw [if_pos hend, if_neg fun hle => hend (le_antisymm hstop hle)]
              rfl

end Cursor

/-! ## What the decoder accepts -/

structure Frame where
  key : ByteString
  tag : UInt8
  body : ByteString

def Frame.render (frame : Frame) : ByteString :=
  leBytes 4 frame.key.length ++ frame.key ++ frame.tag :: leBytes 4 frame.body.length ++ frame.body

/-- The frame holds an entry, and its lengths fit their fields. -/
structure Frame.Holds (frame : Frame) (entry : BatchEntry) : Prop where
  key : frame.key = entry.key
  key_lt : frame.key.length < 2 ^ 32
  body_lt : frame.body.length < 2 ^ 32
  value : decodeBody frame.tag frame.body = some entry.value

/-- A count, that many frames, and nothing left over. -/
def IsBatch (payload : ByteString) (entries : List BatchEntry) : Prop :=
  ∃ frames : List Frame, frames.length < 2 ^ 32 ∧ List.Forall₂ Frame.Holds frames entries ∧
    payload = leBytes 4 frames.length ++ frames.flatMap Frame.render

section Format

variable {payload rest : ByteString}

theorem readLeU32_leBytes {value : ℕ} (hvalue : value < 2 ^ 32) (rest : ByteString) :
    readLeU32 (leBytes 4 value ++ rest) = some (UInt32.ofNat value, rest) := by
  have hlength : (leBytes 4 value).length = 4 := length_leBytes 4 value
  rw [readLeU32, if_neg (by simp)]
  rw [List.take_left' hlength, List.drop_left' hlength, leValue_leBytes (by simpa using hvalue)]

theorem toNat_ofNat_of_lt {value : ℕ} (hvalue : value < 2 ^ 32) :
    (UInt32.ofNat value).toNat = value := by
  rw [UInt32.toNat_ofNat']
  exact Nat.mod_eq_of_lt hvalue

theorem eq_leBytes_of_readLeU32 {word : UInt32} (hread : readLeU32 payload = some (word, rest)) :
    payload = leBytes 4 word.toNat ++ rest := by
  rw [readLeU32] at hread
  split_ifs at hread with hshort
  obtain ⟨rfl, rfl⟩ := Prod.mk.inj (Option.some.inj hread)
  have hlength : (payload.take 4).length = 4 := by
    rw [List.length_take]
    omega
  have hlt : leValue (payload.take 4) < 2 ^ 32 := by
    have hbound := leValue_lt (payload.take 4)
    rwa [hlength] at hbound
  have hbytes := leBytes_leValue (payload.take 4)
  rw [hlength] at hbytes
  rw [toNat_ofNat_of_lt hlt, hbytes, List.take_append_drop]

theorem readBytes_append {bytes : ByteString} (hbytes : bytes.length < 2 ^ 32)
    (rest : ByteString) :
    readBytes (UInt32.ofNat bytes.length) (bytes ++ rest) = some (bytes, rest) := by
  rw [readBytes, toNat_ofNat_of_lt hbytes, if_neg (by simp), List.take_left, List.drop_left]

theorem eq_append_of_readBytes {count : UInt32} {bytes : ByteString}
    (hread : readBytes count payload = some (bytes, rest)) :
    payload = bytes ++ rest ∧ bytes.length = count.toNat := by
  rw [readBytes] at hread
  split_ifs at hread with hshort
  obtain ⟨rfl, rfl⟩ := Prod.mk.inj (Option.some.inj hread)
  refine ⟨(List.take_append_drop ..).symm, ?_⟩
  rw [List.length_take]
  omega

theorem readEntry_render {frame : Frame} {entry : BatchEntry} (hholds : frame.Holds entry)
    (rest : ByteString) : readEntry (frame.render ++ rest) = some (entry, rest) := by
  obtain ⟨key, tag, body⟩ := frame
  obtain ⟨rfl, hkey, hbody, hvalue⟩ := hholds
  have hrender : (Frame.render ⟨entry.key, tag, body⟩) ++ rest =
      leBytes 4 entry.key.length ++ (entry.key ++ tag :: (leBytes 4 body.length ++ (body ++ rest))) := by
    simp [Frame.render]
  rw [readEntry_eq, hrender, readLeU32_leBytes hkey]
  simp only [Option.bind_eq_bind, Option.bind_some, readBytes_append hkey, readTag,
    readLeU32_leBytes hbody, readBytes_append hbody]
  rw [show decodeBody tag body = some entry.value from hvalue, Option.bind_some]

theorem exists_frame_of_readEntry {entry : BatchEntry}
    (hread : readEntry payload = some (entry, rest)) :
    ∃ frame : Frame, frame.Holds entry ∧ payload = frame.render ++ rest := by
  rw [readEntry_eq] at hread
  simp only [Option.bind_eq_bind, Option.bind_eq_some_iff, Prod.exists] at hread
  obtain ⟨keyLength, afterLength, hkeyLength, key, afterKey, hkey, tag, afterTag, htag, valueLength,
    afterValueLength, hvalueLength, body, afterBody, hbody, value, hvalue, hpair⟩ := hread
  obtain ⟨rfl, rfl⟩ := Prod.mk.inj (Option.some.inj hpair)
  obtain ⟨hkeyEq, hkeyCount⟩ := eq_append_of_readBytes hkey
  obtain ⟨hbodyEq, hbodyCount⟩ := eq_append_of_readBytes hbody
  have htagEq : afterKey = tag :: afterTag := by
    cases afterKey with
    | nil => cases htag
    | cons first after =>
        obtain ⟨rfl, rfl⟩ := Prod.mk.inj (Option.some.inj htag)
        rfl
  refine ⟨⟨key, tag, body⟩, ⟨rfl, ?_, ?_, hvalue⟩, ?_⟩
  · exact hkeyCount ▸ keyLength.toNat_lt
  · exact hbodyCount ▸ valueLength.toNat_lt
  · rw [eq_leBytes_of_readLeU32 hkeyLength, hkeyEq, htagEq, eq_leBytes_of_readLeU32 hvalueLength,
      hbodyEq, ← hkeyCount, ← hbodyCount]
    simp [Frame.render]

theorem readEntries_render {frames : List Frame} {entries : List BatchEntry}
    (hholds : List.Forall₂ Frame.Holds frames entries) (rest : ByteString) :
    readEntries frames.length (frames.flatMap Frame.render ++ rest) = some (entries, rest) := by
  induction hholds with
  | nil => rfl
  | cons hframe _ ih =>
      rw [List.length_cons, readEntries, List.flatMap_cons, List.append_assoc,
        readEntry_render hframe]
      simp only [Option.bind_eq_bind, Option.bind_some, ih]

theorem exists_frames_of_readEntries {count : ℕ} {entries : List BatchEntry}
    (hread : readEntries count payload = some (entries, rest)) :
    ∃ frames : List Frame, frames.length = count ∧ List.Forall₂ Frame.Holds frames entries ∧
      payload = frames.flatMap Frame.render ++ rest := by
  induction count generalizing payload entries with
  | zero =>
      obtain ⟨rfl, rfl⟩ := Prod.mk.inj (Option.some.inj hread)
      exact ⟨[], rfl, .nil, rfl⟩
  | succ count ih =>
      simp only [readEntries, Option.bind_eq_bind, Option.bind_eq_some_iff, Prod.exists] at hread
      obtain ⟨entry, afterEntry, hentry, entries', afterEntries, hentries, hpair⟩ := hread
      obtain ⟨rfl, rfl⟩ := Prod.mk.inj (Option.some.inj hpair)
      obtain ⟨frame, hframe, hpayload⟩ := exists_frame_of_readEntry hentry
      obtain ⟨frames, hlength, hframes, hafter⟩ := ih hentries
      refine ⟨frame :: frames, by rw [List.length_cons, hlength], .cons hframe hframes, ?_⟩
      rw [hpayload, hafter, List.flatMap_cons, List.append_assoc]

theorem nine_le_length_render (frame : Frame) : 9 ≤ frame.render.length := by
  simp only [Frame.render, List.length_append, length_leBytes, List.length_cons]
  omega

theorem nine_mul_length_le (frames : List Frame) :
    9 * frames.length ≤ (frames.flatMap Frame.render).length := by
  induction frames with
  | nil => simp
  | cons frame frames ih =>
      have hframe := nine_le_length_render frame
      rw [List.flatMap_cons, List.length_append, List.length_cons]
      omega

/-- The decoder accepts the batches, and nothing else. -/
theorem decodeBatch_eq_some_iff (payload : ByteString) (entries : List BatchEntry) :
    decodeBatch payload = some entries ↔ IsBatch payload entries := by
  constructor
  · intro hdecoded
    simp only [decodeBatch, Option.bind_eq_bind, Option.bind_eq_some_iff, Prod.exists] at hdecoded
    obtain ⟨count, rest, hcount, hdecoded⟩ := hdecoded
    split_ifs at hdecoded
    simp only [Option.bind_eq_some_iff, Prod.exists] at hdecoded
    obtain ⟨read, after, hread, hend⟩ := hdecoded
    split_ifs at hend with hempty
    obtain rfl := Option.some.inj hend
    obtain ⟨frames, hlength, hframes, hrest⟩ := exists_frames_of_readEntries hread
    rw [List.isEmpty_iff.mp hempty, List.append_nil] at hrest
    refine ⟨frames, hlength ▸ count.toNat_lt, hframes, ?_⟩
    rw [eq_leBytes_of_readLeU32 hcount, hlength, hrest]
  · rintro ⟨frames, hcount, hframes, rfl⟩
    have hread := readEntries_render hframes []
    rw [List.append_nil] at hread
    have hlong := nine_mul_length_le frames
    -- a frame takes nine bytes, so the guard on the count lets every batch pass
    have hguard : ¬frames.length > (leBytes 4 frames.length ++ frames.flatMap Frame.render).length / 9 + 1 := by
      rw [List.length_append, length_leBytes]
      omega
    rw [decodeBatch, readLeU32_leBytes hcount]
    simp only [Option.bind_eq_bind, Option.bind_some, toNat_ofNat_of_lt hcount]
    rw [if_neg hguard, hread]
    rfl

end Format

/-! ## The encoder -/

/-- `EncodeBatchImpl`, for whatever the entries are kept in. -/
def encodeBatchImpl {Entry : Type} (key : Entry → ByteString) (value : Entry → ParamValue)
    (entries : List Entry) : ByteString :=
  leBytes 4 entries.length ++ entries.flatMap fun entry =>
    let body := encodeBody (value entry)
    leBytes 4 (key entry).length ++ key entry ++
      typeTag (value entry) :: leBytes 4 body.length ++ body

/-- `EncodeBatch` of pairs. -/
def encodePairs (pairs : List (ByteString × ParamValue)) : ByteString :=
  encodeBatchImpl Prod.fst Prod.snd pairs

/-- The lengths that the format has 32 bits for. -/
structure Fits (entries : List BatchEntry) : Prop where
  count : entries.length < 2 ^ 32
  key : ∀ entry ∈ entries, entry.key.length < 2 ^ 32
  body : ∀ entry ∈ entries, (encodeBody entry.value).length < 2 ^ 32

/-- An entry as a reader gets it. -/
def BatchEntry.canonical (entry : BatchEntry) : BatchEntry :=
  ⟨entry.key, Value.canonical entry.value⟩

def frameOf (entry : BatchEntry) : Frame :=
  ⟨entry.key, typeTag entry.value, encodeBody entry.value⟩

theorem encodeBatch_eq (entries : List BatchEntry) :
    encodeBatch entries =
      leBytes 4 (entries.map frameOf).length ++ (entries.map frameOf).flatMap Frame.render := by
  rw [encodeBatch, List.length_map, List.flatMap_map]
  rfl

theorem encodePairs_eq (pairs : List (ByteString × ParamValue)) :
    encodePairs pairs = encodeBatch (pairs.map fun pair => ⟨pair.1, pair.2⟩) := by
  rw [encodePairs, encodeBatchImpl, encodeBatch, List.length_map, List.flatMap_map]
  rfl

theorem isBatch_encodeBatch {entries : List BatchEntry} (hfits : Fits entries) :
    IsBatch (encodeBatch entries) (entries.map BatchEntry.canonical) := by
  refine ⟨entries.map frameOf, ?_, ?_, encodeBatch_eq entries⟩
  · rw [List.length_map]
    exact hfits.count
  · rw [List.forall₂_map_left_iff, List.forall₂_map_right_iff, List.forall₂_same]
    intro entry hentry
    exact ⟨rfl, hfits.key entry hentry, hfits.body entry hentry, decodeBody_encodeBody entry.value⟩

theorem decodeBatch_encodeBatch {entries : List BatchEntry} (hfits : Fits entries) :
    decodeBatch (encodeBatch entries) = some (entries.map BatchEntry.canonical) :=
  (decodeBatch_eq_some_iff _ _).mpr (isBatch_encodeBatch hfits)

/-- Entries that fit are read back in order; what is accepted is a batch, and every batch is
accepted; the decoder wraps no offset and leaves no payload; and both encoders write the same. -/
theorem batchCodec_exact :
    (∀ entries, Fits entries →
      decodeBatch (encodeBatch entries) = some (entries.map BatchEntry.canonical)) ∧
    (∀ payload entries, decodeBatch payload = some entries ↔ IsBatch payload entries) ∧
    (∀ payload : Span UInt8,
      decodeBatchAt payload = (decodeBatch payload.data).elim reject pure) ∧
    ∀ pairs, encodePairs pairs = encodeBatch (pairs.map fun pair => ⟨pair.1, pair.2⟩) :=
  ⟨fun _ => decodeBatch_encodeBatch, decodeBatch_eq_some_iff, decodeBatchAt_eq, encodePairs_eq⟩

theorem batchCodec_exact_flag :
    decodeBatch (encodeBatch [⟨ascii "a", .bool true⟩]) = some [⟨ascii "a", .bool true⟩] := by
  refine batchCodec_exact.1 _ ⟨by decide, ?_, ?_⟩
  all_goals
    intro entry hentry
    rw [List.mem_singleton.mp hentry]
    decide

end Sitos.Batch
