import Sitos.Wire.ParamValue

/-!
# Batches

The `sitos.v1.batch` payload: a count and that many frames of key, tag and
value.
-/

namespace Sitos.Batch

open Sitos.Bytes
open Sitos.Value

structure BatchEntry where
  key : ByteString
  value : ParamValue
  deriving DecidableEq

/-- The next word and what follows it. -/
def readLeU32 (payload : ByteString) : Option (UInt32 × ByteString) :=
  if payload.length < 4 then none
  else some (UInt32.ofNat (leValue (payload.take 4)), payload.drop 4)

/-- The next `count` bytes and what follows them. -/
def readBytes (count : UInt32) (payload : ByteString) : Option (ByteString × ByteString) :=
  if payload.length < count.toNat then none
  else some (payload.take count.toNat, payload.drop count.toNat)

def readEntry (payload : ByteString) : Option (BatchEntry × ByteString) := do
  let (keyLength, payload) ← readLeU32 payload
  let (key, payload) ← readBytes keyLength payload
  match payload with
  | [] => none
  | tag :: payload =>
      let (valueLength, payload) ← readLeU32 payload
      let (body, payload) ← readBytes valueLength payload
      let value ← decodeBody tag body
      some (⟨key, value⟩, payload)

def readEntries : ℕ → ByteString → Option (List BatchEntry × ByteString)
  | 0, payload => some ([], payload)
  | count + 1, payload => do
      let (entry, payload) ← readEntry payload
      let (entries, payload) ← readEntries count payload
      some (entry :: entries, payload)

/-- A frame takes at least nine bytes, which bounds the count before anything is
reserved. -/
def decodeBatch (payload : ByteString) : Option (List BatchEntry) := do
  let (count, rest) ← readLeU32 payload
  if count.toNat > payload.length / 9 + 1 then none
  else
    let (entries, rest) ← readEntries count.toNat rest
    if rest.isEmpty then some entries else none

/-! ## Encoding -/

/-- Lengths are cut to 32 bits. -/
def encodeEntry (entry : BatchEntry) : ByteString :=
  let body := encodeBody entry.value
  leBytes 4 entry.key.length ++ entry.key ++ typeTag entry.value :: leBytes 4 body.length ++ body

def encodeBatch (entries : List BatchEntry) : ByteString :=
  leBytes 4 entries.length ++ entries.flatMap encodeEntry

theorem length_readEntries {count : ℕ} {payload rest : ByteString}
    {entries : List BatchEntry} (hread : readEntries count payload = some (entries, rest)) :
    entries.length = count := by
  induction count generalizing payload rest entries with
  | zero =>
      obtain ⟨rfl, _⟩ := Prod.mk.inj (Option.some.inj hread)
      rfl
  | succ count ih =>
      simp only [readEntries, Option.bind_eq_bind, Option.bind_eq_some_iff, Prod.exists] at hread
      obtain ⟨entry, afterEntry, _, entries', afterEntries, hentries, hpair⟩ := hread
      obtain ⟨rfl, _⟩ := Prod.mk.inj (Option.some.inj hpair)
      rw [List.length_cons, ih hentries]

/-- The count field bounds the number of entries. -/
theorem length_decodeBatch_lt {payload : ByteString} {entries : List BatchEntry}
    (hdecoded : decodeBatch payload = some entries) : entries.length < 2 ^ 32 := by
  simp only [decodeBatch, Option.bind_eq_bind, Option.bind_eq_some_iff, Prod.exists] at hdecoded
  obtain ⟨count, rest, _, hdecoded⟩ := hdecoded
  split_ifs at hdecoded
  simp only [Option.bind_eq_some_iff, Prod.exists] at hdecoded
  obtain ⟨read, afterEntries, hread, hend⟩ := hdecoded
  split_ifs at hend
  obtain rfl := Option.some.inj hend
  rw [length_readEntries hread]
  exact count.toNat_lt

end Sitos.Batch
