import Sitos.Node.Apply
import Sitos.Wire.BatchCodec

/-!
# The stored form of a value

A value reaches the storage on two ways: as the payload of an ordinary put, and as a frame of a
batch that the node decodes and encodes again.  Encoding a decoded payload writes the one spelling
that every value has, so both ways store the same bytes.
-/

namespace Sitos.StoredValue

open Sitos.Apply
open Sitos.Batch
open Sitos.Bytes
open Sitos.Key
open Sitos.Sample
open Sitos.Value

/-- The one spelling of an accepted payload: a nonzero truth value is one, and all NaNs are one. -/
def normalize : ByteString → ByteString
  | [0, byte] => [0, if byte = 0 then 0 else 1]
  | 2 :: body => 2 :: if isNan (UInt64.ofNat (leValue body)) then kCanonicalNanBody else body
  | payload => payload

/-- The payloads of the format: a tag, and a body of the length that the tag asks for. -/
inductive IsPayload : ByteString → Prop where
  | bool {body : ByteString} (hbody : body.length = 1) : IsPayload (0 :: body)
  | s64 {body : ByteString} (hbody : body.length = 8) : IsPayload (1 :: body)
  | dp {body : ByteString} (hbody : body.length = 8) : IsPayload (2 :: body)
  | str (body : ByteString) : IsPayload (3 :: body)
  | bytes (body : ByteString) : IsPayload (4 :: body)

theorem leU64_leValue {body : ByteString} (hbody : body.length = 8) :
    leU64 (UInt64.ofNat (leValue body)) = body := by
  have hlt : leValue body < 2 ^ 64 := by
    have hbound := leValue_lt body
    rwa [hbody] at hbound
  have hword : (UInt64.ofNat (leValue body)).toNat = leValue body := by
    rw [UInt64.toNat_ofNat']
    exact Nat.mod_eq_of_lt hlt
  have hbytes := leBytes_leValue body
  rwa [hbody, ← hword] at hbytes

theorem isSome_decode_iff (payload : ByteString) :
    (decode payload).isSome = true ↔ IsPayload payload := by
  constructor
  · intro hsome
    cases payload with
    | nil => cases hsome
    | cons tag body =>
        unfold decode decodeBody at hsome
        simp only at hsome
        split at hsome
        · split at hsome
          · exact .bool rfl
          · cases hsome
        · split_ifs at hsome with hlength
          · cases hsome
          · exact .s64 (not_not.mp hlength)
        · split_ifs at hsome with hlength
          · cases hsome
          · exact .dp (not_not.mp hlength)
        · exact .str body
        · exact .bytes body
        · cases hsome
  · intro hpayload
    cases hpayload with
    | bool hbody =>
        obtain ⟨byte, rfl⟩ := List.length_eq_one_iff.mp hbody
        rfl
    | s64 hbody => simp [decode, decodeBody, hbody]
    | dp hbody => simp [decode, decodeBody, hbody]
    | str body => rfl
    | bytes body => rfl

/-- What is encoded again is the normal spelling of what was decoded. -/
theorem encode_of_decode {payload : ByteString} {value : ParamValue}
    (hdecode : decode payload = some value) : encode value = normalize payload := by
  have hpayload : IsPayload payload := (isSome_decode_iff payload).mp (by rw [hdecode]; rfl)
  cases hpayload with
  | bool hbody =>
      obtain ⟨byte, rfl⟩ := List.length_eq_one_iff.mp hbody
      obtain rfl := Option.some.inj hdecode
      by_cases hzero : byte = 0
      · simp [encode, typeTag, encodeBody, normalize, hzero]
      · simp [encode, typeTag, encodeBody, normalize, hzero]
  | @s64 body hbody =>
      simp only [decode, decodeBody, hbody, ne_eq, not_true, if_false] at hdecode
      obtain rfl := Option.some.inj hdecode
      simp [encode, typeTag, encodeBody, normalize, leU64_leValue hbody]
  | @dp body hbody =>
      simp only [decode, decodeBody, hbody, ne_eq, not_true, if_false] at hdecode
      obtain rfl := Option.some.inj hdecode
      simp [encode, typeTag, encodeBody, normalize, leU64_leValue hbody]
  | str body =>
      obtain rfl := Option.some.inj hdecode
      rfl
  | bytes body =>
      obtain rfl := Option.some.inj hdecode
      rfl

theorem encode_canonical (value : ParamValue) : encode (canonical value) = encode value := by
  cases value with
  | dp bits =>
      by_cases hnan : isNan bits
      · have hcanonical : isNan canonicalNan = true := by decide
        simp [encode, typeTag, canonical, encodeBody, hnan, hcanonical]
      · simp [canonical, hnan]
  | _ => rfl

theorem materialize_canonical {entries : List BatchEntry} (index : ℕ)
    (hkeys : ∀ entry ∈ entries, isValidKey entry.key = true) :
    materialize index (entries.map BatchEntry.canonical) =
      .ok (entries.map fun entry => ⟨entry.key, encode entry.value⟩) := by
  induction entries generalizing index with
  | nil => rfl
  | cons entry entries ih =>
      have hkey : isValidKey entry.canonical.key = true := hkeys entry List.mem_cons_self
      rw [List.map_cons, materialize, if_neg (by simp [hkey]),
        ih (index + 1) fun other hother => hkeys other (List.mem_cons_of_mem _ hother)]
      simp [Except.map, BatchEntry.canonical, encode_canonical]

/-- Every value is read back up to its NaN pattern; what is accepted has a tag and the body that the
tag asks for, and is encoded again as its normal spelling, which is encoded again as itself; and a
batch stores for each of its entries the payload that an ordinary put of the value stores. -/
theorem valueCodec_canonical :
    (∀ value, decode (encode value) = some (canonical value)) ∧
    (∀ payload, (decode payload).isSome = true ↔ IsPayload payload) ∧
    (∀ payload value, decode payload = some value →
      encode value = normalize payload ∧ decode (encode value) = some (canonical value) ∧
        encode (canonical value) = encode value) ∧
    (∀ value, decodeBody (typeTag value) (encodeBody value) = decode (encode value)) ∧
    ∀ entries, Fits entries → (∀ entry ∈ entries, isValidKey entry.key = true) →
      ∃ decoded, decodeBatch (encodeBatch entries) = some decoded ∧
        materialize 0 decoded = .ok (entries.map fun entry => ⟨entry.key, encode entry.value⟩) := by
  refine ⟨decode_encode, isSome_decode_iff, ?_, fun _ => rfl, ?_⟩
  · intro payload value hdecode
    exact ⟨encode_of_decode hdecode, decode_encode value, encode_canonical value⟩
  · intro entries hfits hkeys
    exact ⟨_, decodeBatch_encodeBatch hfits, materialize_canonical 0 hkeys⟩

theorem valueCodec_canonical_true : encode (.bool true) = normalize [0, 7] :=
  (valueCodec_canonical.2.2.1 [0, 7] (.bool true) rfl).1

end Sitos.StoredValue
